import ClarityDelta.Proofs.Source.Harmless

/-!
# Masked lines

What a character of a line is, part of the code, of a comment or of a string, follows from how a line is
built: `LineRoles` says so, with a backslash and the character it hides as one step. Every line has
these roles in one way only, and masking leaves a blank in the place of just those characters that
stand in a comment or between the quotes of a string. Masked lines therefore look the same when they
are masked again, and the same strings run over their ends: `view_stable`. What carries this is that a
comment marker cannot come to stand in a masked line, since no character is moved.
-/

namespace ClarityDelta.Source

/-! ## Roles -/

/-- What a character of a line is part of. The quotes at the ends of a string are told from what stands
between them. -/
inductive Role where
  | code
  | quote
  | inString
  | inComment
  deriving DecidableEq, Repr

/-- What is left of a character by its role. -/
def Role.shown : Role → Char → Char
  | .code, c => c
  | .quote, c => c
  | .inString, _ => ' '
  | .inComment, _ => ' '

/-- The roles of the characters of a line. The first argument tells whether the line begins in a string,
the last one whether a string is left open at its end. -/
inductive LineRoles : Bool → List Char → List Role → Bool → Prop where
  | done (inString : Bool) : LineRoles inString [] [] inString
  | code {c : Char} {cs : List Char} {roles : List Role} {last : Bool} (hquote : c ≠ '"')
    (hmarker : ¬ [';', ';'] <+: c :: cs) (h : LineRoles false cs roles last) :
    LineRoles false (c :: cs) (.code :: roles) last
  | opening {cs : List Char} {roles : List Role} {last : Bool} (h : LineRoles true cs roles last) :
    LineRoles false ('"' :: cs) (.quote :: roles) last
  /-- A comment goes to the end of its line. -/
  | comment (cs : List Char) :
    LineRoles false (';' :: ';' :: cs) ((';' :: ';' :: cs).map fun _ => .inComment) false
  | closing {cs : List Char} {roles : List Role} {last : Bool} (h : LineRoles false cs roles last) :
    LineRoles true ('"' :: cs) (.quote :: roles) last
  | inside {c : Char} {cs : List Char} {roles : List Role} {last : Bool} (hquote : c ≠ '"')
    (hback : c ≠ '\\') (h : LineRoles true cs roles last) :
    LineRoles true (c :: cs) (.inString :: roles) last
  /-- A backslash hides the next character, so that a quote behind it ends nothing. -/
  | escape (c : Char) {cs : List Char} {roles : List Role} {last : Bool}
    (h : LineRoles true cs roles last) :
    LineRoles true ('\\' :: c :: cs) (.inString :: .inString :: roles) last
  /-- At the end of a line a backslash hides nothing. -/
  | lastBackslash : LineRoles true ['\\'] [.inString] true

/-- The roles in lines one after another, with what is left open at the end of each. -/
inductive SourceRoles : Bool → List (List Char) → List (List Role × Bool) → Prop where
  | done (inString : Bool) : SourceRoles inString [] []
  | line {inString last : Bool} {line : List Char} {roles : List Role} {rest : List (List Char)}
    {readings : List (List Role × Bool)} (hline : LineRoles inString line roles last)
    (h : SourceRoles last rest readings) :
    SourceRoles inString (line :: rest) ((roles, last) :: readings)

/-! ## One line -/

/-- The region that a line begins in. -/
def Region.ofOpen (inString : Bool) : Region :=
  if inString then .string else .code

/-- Inside a string a line begins in a string. -/
theorem Region.ofOpen_true : Region.ofOpen true = .string := rfl

/-- Outside strings a line begins in code. -/
theorem Region.ofOpen_false : Region.ofOpen false = .code := rfl

/-- An opening quote is shown, and a string follows. -/
theorem maskLine_opening (cs : List Char) :
    maskLine .code ('"' :: cs) = ('"' :: (maskLine .string cs).1, (maskLine .string cs).2) := by
  simp [maskLine]

/-- Code goes on where neither a string nor a comment begins. -/
theorem maskLine_code {c : Char} {cs : List Char} (hquote : c ≠ '"')
    (hmarker : ¬ [';', ';'] <+: c :: cs) :
    maskLine .code (c :: cs) = (c :: (maskLine .code cs).1, (maskLine .code cs).2) := by
  rw [maskLine, if_neg hquote]
  rintro rest rfl rfl
  exact hmarker (List.prefix_append _ rest)

/-- A closing quote is shown, and code follows. -/
theorem maskLine_closing (cs : List Char) :
    maskLine .string ('"' :: cs) = ('"' :: (maskLine .code cs).1, (maskLine .code cs).2) := by
  simp [maskLine]

/-- A character of a string is blanked. -/
theorem maskLine_inside {c : Char} (hquote : c ≠ '"') (hback : c ≠ '\\') (cs : List Char) :
    maskLine .string (c :: cs) = (' ' :: (maskLine .string cs).1, (maskLine .string cs).2) := by
  simp [maskLine, hquote, hback]

/-- An escaped character is blanked with its backslash. -/
theorem maskLine_escape (c : Char) (cs : List Char) :
    maskLine .string ('\\' :: c :: cs) =
      (' ' :: ' ' :: (maskLine .string cs).1, (maskLine .string cs).2) := by
  simp [maskLine]

/-- Two semicolons stand at the beginning, or they do not. -/
theorem marker_cases (c : Char) (cs : List Char) :
    (∃ rest, c = ';' ∧ cs = ';' :: rest) ∨ ¬ [';', ';'] <+: c :: cs := by
  by_cases hmarker : [';', ';'] <+: c :: cs
  · obtain ⟨rest, heq⟩ := hmarker
    obtain ⟨rfl, rfl⟩ := List.cons.inj heq
    exact Or.inl ⟨rest, rfl, rfl⟩
  · exact Or.inr hmarker

/-- The characters of every line have roles. -/
theorem exists_lineRoles (inString : Bool) (line : List Char) :
    ∃ roles last, LineRoles inString line roles last := by
  match inString, line with
  | inString, [] => exact ⟨_, _, .done inString⟩
  | false, c :: cs =>
    rcases marker_cases c cs with ⟨rest, rfl, rfl⟩ | hmarker
    · exact ⟨_, _, .comment rest⟩
    · by_cases hquote : c = '"'
      · subst hquote
        obtain ⟨roles, last, h⟩ := exists_lineRoles true cs
        exact ⟨_, _, .opening h⟩
      · obtain ⟨roles, last, h⟩ := exists_lineRoles false cs
        exact ⟨_, _, .code hquote hmarker h⟩
  | true, c :: cs =>
    by_cases hquote : c = '"'
    · subst hquote
      obtain ⟨roles, last, h⟩ := exists_lineRoles false cs
      exact ⟨_, _, .closing h⟩
    · by_cases hback : c = '\\'
      · subst hback
        cases cs with
        | nil => exact ⟨_, _, .lastBackslash⟩
        | cons c cs =>
          obtain ⟨roles, last, h⟩ := exists_lineRoles true cs
          exact ⟨_, _, .escape c h⟩
      · obtain ⟨roles, last, h⟩ := exists_lineRoles true cs
        exact ⟨_, _, .inside hquote hback h⟩
termination_by line.length

namespace LineRoles

variable {inString last last' : Bool} {line : List Char} {roles roles' : List Role}

/-- There is one way only to read a line. -/
theorem unique (h : LineRoles inString line roles last) (h' : LineRoles inString line roles' last') :
    roles = roles' ∧ last = last' := by
  induction h generalizing roles' last' with
  | done => cases h'; exact ⟨rfl, rfl⟩
  | code hquote hmarker h ih =>
    cases h' with
    | code _ _ h' =>
      obtain ⟨rfl, rfl⟩ := ih h'
      exact ⟨rfl, rfl⟩
    | opening => exact absurd rfl hquote
    | comment cs => exact absurd (List.prefix_append _ cs) hmarker
  | opening h ih =>
    cases h' with
    | code hquote => exact absurd rfl hquote
    | opening h' =>
      obtain ⟨rfl, rfl⟩ := ih h'
      exact ⟨rfl, rfl⟩
  | comment cs =>
    cases h' with
    | code _ hmarker => exact absurd (List.prefix_append _ cs) hmarker
    | comment => exact ⟨rfl, rfl⟩
  | closing h ih =>
    cases h' with
    | closing h' =>
      obtain ⟨rfl, rfl⟩ := ih h'
      exact ⟨rfl, rfl⟩
    | inside hquote => exact absurd rfl hquote
  | inside hquote hback h ih =>
    cases h' with
    | closing => exact absurd rfl hquote
    | inside _ _ h' =>
      obtain ⟨rfl, rfl⟩ := ih h'
      exact ⟨rfl, rfl⟩
    | escape => exact absurd rfl hback
    | lastBackslash => exact absurd rfl hback
  | escape c h ih =>
    cases h' with
    | inside _ hback => exact absurd rfl hback
    | escape _ h' =>
      obtain ⟨rfl, rfl⟩ := ih h'
      exact ⟨rfl, rfl⟩
  | lastBackslash =>
    cases h' with
    | inside _ hback => exact absurd rfl hback
    | lastBackslash => exact ⟨rfl, rfl⟩

/-- Every character of a line has a role. -/
theorem length_eq (h : LineRoles inString line roles last) : roles.length = line.length := by
  induction h with
  | done => rfl
  | comment cs => exact List.length_map _
  | lastBackslash => rfl
  | escape c h ih => exact congrArg (· + 2) ih
  | code _ _ h ih => exact congrArg (· + 1) ih
  | opening h ih => exact congrArg (· + 1) ih
  | closing h ih => exact congrArg (· + 1) ih
  | inside _ _ h ih => exact congrArg (· + 1) ih

/-- A line is masked by the roles of its characters. -/
theorem maskLine_eq (h : LineRoles inString line roles last) :
    maskLine (.ofOpen inString) line = (roles.zipWith Role.shown line, .ofOpen last) := by
  induction h with
  | done inString => cases inString <;> rfl
  | code hquote hmarker h ih =>
    rw [Region.ofOpen_false] at ih ⊢
    rw [maskLine_code hquote hmarker, ih]
    rfl
  | opening h ih =>
    rw [Region.ofOpen_true] at ih
    rw [Region.ofOpen_false, maskLine_opening, ih]
    rfl
  | comment cs =>
    have hshown : (cs.map fun _ => Role.inComment).zipWith Role.shown cs = cs.map fun _ => ' ' := by
      rw [List.zipWith_map_left, List.zipWith_self]
      rfl
    rw [Region.ofOpen_false, maskLine, List.map_cons, List.map_cons, List.zipWith_cons_cons,
      List.zipWith_cons_cons, hshown]
    rfl
  | closing h ih =>
    rw [Region.ofOpen_false] at ih
    rw [Region.ofOpen_true, maskLine_closing, ih]
    rfl
  | inside hquote hback h ih =>
    rw [Region.ofOpen_true] at ih ⊢
    rw [maskLine_inside hquote hback, ih]
    rfl
  | escape c h ih =>
    rw [Region.ofOpen_true] at ih ⊢
    rw [maskLine_escape, ih]
    rfl
  | lastBackslash => rfl

end LineRoles

/-! ## Masking again -/

/-- No comment marker begins a masked line whose first character is shown. -/
theorem not_marker_maskLine {c : Char} {cs : List Char} (hmarker : ¬ [';', ';'] <+: c :: cs) :
    ¬ [';', ';'] <+: c :: (maskLine .code cs).1 := by
  intro hprefix
  obtain ⟨hc, hnext⟩ := List.cons_prefix_cons.mp hprefix
  cases cs with
  | nil => simp [maskLine] at hnext
  | cons d cs =>
    rcases maskLine_code_cons d cs with hblank | hshown
    · rw [hblank, List.map_cons, List.cons_prefix_cons] at hnext
      exact absurd hnext.1 (by decide)
    · rw [hshown, List.cons_prefix_cons] at hnext
      have hsame : [';'] <+: d :: cs := List.cons_prefix_cons.mpr ⟨hnext.1, List.nil_prefix⟩
      exact hmarker (List.cons_prefix_cons.mpr ⟨hc, hsame⟩)

/-- Blanks stay blanks. -/
theorem maskLine_blanks (cs : List Char) :
    maskLine .code (cs.map fun _ => ' ') = (cs.map fun _ => ' ', .code) := by
  induction cs with
  | nil => rfl
  | cons c cs ih =>
    rw [List.map_cons, maskLine_code (by decide) (by simp), ih]

/-- A masked line is masked as it is, and it ends in a string when the line does. -/
theorem LineRoles.maskLine_maskLine {inString last : Bool} {line : List Char} {roles : List Role}
    (h : LineRoles inString line roles last) :
    maskLine (.ofOpen inString) (maskLine (.ofOpen inString) line).1 =
      maskLine (.ofOpen inString) line := by
  induction h with
  | done inString => cases inString <;> rfl
  | code hquote hmarker h ih =>
    rw [Region.ofOpen_false] at ih ⊢
    rw [maskLine_code hquote hmarker, maskLine_code hquote (not_marker_maskLine hmarker), ih]
  | opening h ih =>
    rw [Region.ofOpen_true] at ih
    rw [Region.ofOpen_false, maskLine_opening, maskLine_opening, ih]
  | comment cs => exact maskLine_blanks (';' :: ';' :: cs)
  | closing h ih =>
    rw [Region.ofOpen_false] at ih
    rw [Region.ofOpen_true, maskLine_closing, maskLine_closing, ih]
  | inside hquote hback h ih =>
    rw [Region.ofOpen_true] at ih ⊢
    rw [maskLine_inside hquote hback, maskLine_inside (by decide) (by decide), ih]
  | escape c h ih =>
    rw [Region.ofOpen_true] at ih ⊢
    rw [maskLine_escape, maskLine_inside (by decide) (by decide),
      maskLine_inside (by decide) (by decide), ih]
  | lastBackslash => rfl

/-! ## Lines one after another -/

/-- Whether a string is open behind each line, when lines are masked in turn. -/
def stringsOpen (region : Region) : List (List Char) → List Bool
  | [] => []
  | line :: rest =>
    decide ((maskLine region line).2 = .string) :: stringsOpen (maskLine region line).2 rest

/-- A line is masked by the roles of its characters. Nothing moves, and every character is kept or a
blank is left in its place. -/
structure MaskedBy (original : List Char) (roles : List Role) (masked : List Char) : Prop where
  length_eq : masked.length = original.length
  kept_or_blank : ∀ pair ∈ masked.zip original, pair.1 = pair.2 ∨ pair.1 = ' '
  shown : ∀ (column : Nat) (c : Char), original[column]? = some c →
    ∃ role : Role, roles[column]? = some role ∧ masked[column]? = some (role.shown c)

/-- A character is shown or blanked. -/
theorem Role.shown_cases (role : Role) (c : Char) : role.shown c = c ∨ role.shown c = ' ' := by
  cases role with
  | code => exact Or.inl rfl
  | quote => exact Or.inl rfl
  | inString => exact Or.inr rfl
  | inComment => exact Or.inr rfl

/-- Showing the characters by their roles masks the line. -/
theorem LineRoles.maskedBy {inString last : Bool} {line : List Char} {roles : List Role}
    (h : LineRoles inString line roles last) :
    MaskedBy line roles (roles.zipWith Role.shown line) where
  length_eq := by
    rw [List.length_zipWith, h.length_eq, Nat.min_self]
  kept_or_blank pair hpair := by
    obtain ⟨column, hlt, rfl⟩ := List.getElem_of_mem hpair
    rw [List.getElem_zip, List.getElem_zipWith]
    exact Role.shown_cases _ _
  shown column c hc := by
    obtain ⟨hlt, -⟩ := List.getElem?_eq_some_iff.mp hc
    have hrole := List.getElem?_eq_getElem (h.length_eq ▸ hlt)
    refine ⟨_, hrole, ?_⟩
    rw [List.getElem?_zipWith, hrole, hc]

/-- Lines can be read in roles. -/
theorem exists_sourceRoles (inString : Bool) (ls : List (List Char)) :
    ∃ readings, SourceRoles inString ls readings := by
  induction ls generalizing inString with
  | nil => exact ⟨[], .done inString⟩
  | cons line rest ih =>
    obtain ⟨roles, last, hline⟩ := exists_lineRoles inString line
    obtain ⟨readings, hrest⟩ := ih last
    exact ⟨_, .line hline hrest⟩

namespace SourceRoles

variable {inString : Bool} {ls : List (List Char)} {readings others : List (List Role × Bool)}

/-- Lines are read in roles in one way only. -/
theorem unique (h : SourceRoles inString ls readings) (h' : SourceRoles inString ls others) :
    others = readings := by
  induction h generalizing others with
  | done => cases h'; rfl
  | line hline h ih =>
    cases h' with
    | line hline' h' =>
      obtain ⟨rfl, rfl⟩ := hline.unique hline'
      rw [ih h']

/-- Lines are masked by their roles, and what is left open behind them is what the masking carries on. -/
theorem masked (h : SourceRoles inString ls readings) {n : Nat} {line : List Char}
    (hline : ls[n]? = some line) :
    ∃ roles isOpen masked, readings[n]? = some (roles, isOpen) ∧
      (maskLinesFrom (.ofOpen inString) ls)[n]? = some masked ∧
        (stringsOpen (.ofOpen inString) ls)[n]? = some isOpen ∧ MaskedBy line roles masked := by
  induction h generalizing n with
  | done => simp at hline
  | @line inString last first roles rest readings hfirst h ih =>
    rw [maskLinesFrom, stringsOpen, hfirst.maskLine_eq]
    cases n with
    | zero =>
      obtain rfl : first = line := Option.some.inj hline
      refine ⟨roles, last, _, rfl, rfl, ?_, hfirst.maskedBy⟩
      cases last <;> rfl
    | succ n => exact ih hline

/-- Masked lines are masked as they are, and the same strings run over their ends. -/
theorem stable (h : SourceRoles inString ls readings) :
    maskLinesFrom (.ofOpen inString) (maskLinesFrom (.ofOpen inString) ls) =
        maskLinesFrom (.ofOpen inString) ls ∧
      stringsOpen (.ofOpen inString) (maskLinesFrom (.ofOpen inString) ls) =
        stringsOpen (.ofOpen inString) ls := by
  induction h with
  | done => exact ⟨rfl, rfl⟩
  | line hline h ih =>
    have hagain := hline.maskLine_maskLine
    rw [hline.maskLine_eq] at hagain
    rw [maskLinesFrom, stringsOpen, hline.maskLine_eq]
    dsimp only
    rw [maskLinesFrom, stringsOpen, hagain, hline.maskLine_eq]
    dsimp only
    rw [ih.1, ih.2]
    exact ⟨rfl, rfl⟩

end SourceRoles

/-- Lines of source have roles in one way only. Masking them in turn leaves blanks in comments and
strings and keeps everything else where it is, and knows behind every line whether a string is open. The
masked lines are left as they are when they are masked, with the same strings open behind them. -/
theorem view_stable (ls : List (List Char)) :
    (∃ readings, SourceRoles false ls readings ∧
      (∀ others, SourceRoles false ls others → others = readings) ∧
        (Scanning.commentAware.view ls).length = ls.length ∧
          ∀ (n : Nat) (line : List Char), ls[n]? = some line → ∃ roles isOpen masked,
            readings[n]? = some (roles, isOpen) ∧
              (Scanning.commentAware.view ls)[n]? = some masked ∧
                (stringsOpen .code ls)[n]? = some isOpen ∧ MaskedBy line roles masked) ∧
    Scanning.commentAware.view (Scanning.commentAware.view ls) = Scanning.commentAware.view ls ∧
      stringsOpen .code (Scanning.commentAware.view ls) = stringsOpen .code ls := by
  obtain ⟨readings, h⟩ := exists_sourceRoles false ls
  refine ⟨⟨readings, h, fun others => h.unique, Scanning.commentAware.length_view ls, ?_⟩, h.stable⟩
  exact fun n line hline => h.masked hline

end ClarityDelta.Source
