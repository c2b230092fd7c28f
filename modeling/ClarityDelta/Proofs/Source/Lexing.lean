import Mathlib.Data.List.Forall2
import ClarityDelta.Proofs.Source.DefinitionSpans
import ClarityDelta.Proofs.Text.Lines

/-!
# One lexer over the whole text

Comment-aware scanning masks a text line by line and carries from one line to the next only whether
a string is open. Here a text is lexed in one pass instead, as if line feeds were characters like
all others: `lexed` hides comments and what stands in strings and leaves the rest. Both give the same
lines, `lines_lexFrom`, so comment-aware scanning finds in a text what raw scanning finds in the
lexed text, `definitions_lexed`.
-/

namespace ClarityDelta.Source

open Text

/-! ## The lexer -/

/-- Where the next character of a text stands: in code, in a comment, in a string, or behind a
backslash in a string. -/
inductive Zone where
  | code
  | comment
  | string
  | escaped
  deriving DecidableEq, Repr

/-- A blank in place of a character; only a line feed stays. -/
def hidden (c : Char) : Char :=
  if c = '\n' then c else ' '

/-- What is shown of a character in a zone, and the zone of the next character, which is told for
the sake of the comment marker. -/
def Zone.step : Zone → Char → Option Char → Char × Zone
  | .code, c, next =>
    if c = '"' then (c, .string)
    else if c = ';' ∧ next = some ';' then (hidden c, .comment)
    else (c, .code)
  | .comment, c, _ => (hidden c, if c = '\n' then .code else .comment)
  | .string, c, _ =>
    if c = '"' then (c, .code) else (hidden c, if c = '\\' then .escaped else .string)
  | .escaped, c, _ => (hidden c, .string)

/-- A text lexed from the given zone on. -/
def lexFrom : Zone → List Char → List Char
  | _, [] => []
  | zone, c :: cs => (zone.step c cs.head?).1 :: lexFrom (zone.step c cs.head?).2 cs

/-- A text without its comments and without what stands in its strings, blanks in their place. -/
def lexed (content : String) : String :=
  String.ofList (lexFrom .code content.toList)

example : lexed "(a \"x\\\"(;;\" ;; )\n\"(\n\\\n)\" b)" = "(a \"      \"     \n\" \n \n \" b)" := by
  decide +kernel

/-! ## Lines of a lexed text -/

/-- A line masked from a zone on, and the region in which the next line begins: a comment goes to the
end of its line. -/
def Zone.maskLine : Zone → List Char → List Char × Region
  | .code, line => Source.maskLine .code line
  | .comment, line => (line.map fun _ => ' ', .code)
  | .string, line => Source.maskLine .string line
  | .escaped, line => Source.maskLine .escaped line

/-- Inside a line masking goes on as the lexer does. -/
theorem Zone.maskLine_cons (zone : Zone) {c : Char} (hc : c ≠ '\n') (line : List Char) :
    zone.maskLine (c :: line) =
      ((zone.step c line.head?).1 :: ((zone.step c line.head?).2.maskLine line).1,
        ((zone.step c line.head?).2.maskLine line).2) := by
  have hhidden : hidden c = ' ' := if_neg hc
  cases zone with
  | code =>
    simp only [maskLine, step]
    by_cases hquote : c = '"'
    · simp [hquote, Source.maskLine]
    · by_cases hmarker : c = ';' ∧ line.head? = some ';'
      · obtain ⟨rfl, hhead⟩ := hmarker
        obtain ⟨line, rfl⟩ := List.head?_eq_some_iff.1 hhead
        simp [hhidden, Source.maskLine]
      · have hmask : Source.maskLine .code (c :: line) =
            (c :: (Source.maskLine .code line).1, (Source.maskLine .code line).2) := by
          rw [Source.maskLine]
          · simp [hquote]
          · rintro cs rfl rfl
            exact hmarker ⟨rfl, rfl⟩
        rw [if_neg hquote, if_neg hmarker, hmask]
  | comment => simp [step, maskLine, hhidden, hc]
  | string =>
    simp only [maskLine, step]
    by_cases hquote : c = '"'
    · simp [hquote, Source.maskLine]
    · by_cases hback : c = '\\'
      · simp [hback, hidden, Source.maskLine]
      · simp [hquote, hback, hhidden, Source.maskLine]
  | escaped => simp [step, maskLine, hhidden, Source.maskLine]

/-- A line feed is shown in every zone, and the next line is masked from the region that was
carried over. -/
theorem Zone.step_newline (zone : Zone) (next : Option Char) :
    ∃ zone' : Zone, zone.step '\n' next = ('\n', zone') ∧
      ∀ line, zone'.maskLine line = Source.maskLine (zone.maskLine []).2 line := by
  cases zone with
  | code => exact ⟨.code, rfl, fun _ => rfl⟩
  | comment => exact ⟨.code, rfl, fun _ => rfl⟩
  | string => exact ⟨.string, rfl, fun _ => rfl⟩
  | escaped => exact ⟨.string, rfl, fun _ => rfl⟩

/-- Nothing is shown as a line feed but a line feed. -/
theorem Zone.step_fst_ne_newline (zone : Zone) {c : Char} (hc : c ≠ '\n') (next : Option Char) :
    (zone.step c next).1 ≠ '\n' := by
  have hhidden : hidden c ≠ '\n' := by rw [hidden, if_neg hc]; decide
  cases zone with
  | code =>
    simp only [step]
    split
    · exact hc
    · split
      · exact hhidden
      · exact hc
  | string =>
    simp only [step]
    split
    · exact hc
    · exact hhidden
  | comment => exact hhidden
  | escaped => exact hhidden

/-- Only a comment marker next to it can change what is shown of a character. -/
theorem Zone.step_congr (zone : Zone) (c : Char) {next next' : Option Char}
    (h : next = some ';' ↔ next' = some ';') : zone.step c next = zone.step c next' := by
  cases zone with
  | code => simp only [step, h]
  | _ => rfl

/-- The first line of a text goes on with a comment marker exactly when the text does. -/
theorem head?_eq_semicolon_iff {cs line : List Char} {rest : List (List Char)}
    (h : lines cs = line :: rest) : cs.head? = some ';' ↔ line.head? = some ';' := by
  cases cs with
  | nil =>
    obtain ⟨rfl, -⟩ := List.cons.inj h
    rfl
  | cons c cs =>
    obtain ⟨line', rest', h'⟩ := List.exists_cons_of_ne_nil (lines_ne_nil cs)
    by_cases hc : c = '\n'
    · subst hc
      rw [lines_newline] at h
      obtain ⟨rfl, -⟩ := List.cons.inj h
      simp
    · rw [lines_cons hc h'] at h
      obtain ⟨rfl, -⟩ := List.cons.inj h
      rfl

/-- The lines of a lexed text are the masked lines of the text. -/
theorem lines_lexFrom (zone : Zone) {cs line : List Char} {rest : List (List Char)}
    (h : lines cs = line :: rest) :
    lines (lexFrom zone cs) =
      (zone.maskLine line).1 :: maskLinesFrom (zone.maskLine line).2 rest := by
  induction cs generalizing zone line rest with
  | nil =>
    obtain ⟨rfl, rfl⟩ := List.cons.inj h
    cases zone <;> rfl
  | cons c cs ih =>
    obtain ⟨line', rest', h'⟩ := List.exists_cons_of_ne_nil (lines_ne_nil cs)
    rw [lexFrom]
    by_cases hc : c = '\n'
    · -- the line is empty, and the next one is masked from the region in which it ends
      subst hc
      obtain ⟨zone', hstep, hmask⟩ := zone.step_newline cs.head?
      have hempty : (zone.maskLine []).1 = [] := by cases zone <;> rfl
      rw [lines_newline] at h
      obtain ⟨rfl, rfl⟩ := List.cons.inj h
      rw [hstep, lines_newline, ih zone' h', h', maskLinesFrom, hmask, hempty]
    · rw [lines_cons hc h'] at h
      obtain ⟨rfl, rfl⟩ := List.cons.inj h
      rw [zone.step_congr c (head?_eq_semicolon_iff h'), zone.maskLine_cons hc,
        lines_cons (zone.step_fst_ne_newline hc _) (ih _ h')]

/-- The lines of a lexed text are the lines as comment-aware scanning sees them. -/
theorem lines_lexed (content : String) :
    lines (lexed content).toList = Scanning.commentAware.view (lines content.toList) := by
  obtain ⟨line, rest, h⟩ := List.exists_cons_of_ne_nil (lines_ne_nil content.toList)
  rw [lexed, String.toList_ofList, lines_lexFrom .code h, h, Scanning.view, maskLinesFrom,
    Zone.maskLine]

/-- Comment-aware scanning finds in a text the definitions that raw scanning finds in the lexed
text, with the same names, kinds and lines. Their contents are the raw lines of the text. -/
theorem definitions_lexed (file content : String) :
    List.Forall₂
      (fun f g => f.name = g.name ∧ f.kind = g.kind ∧ f.file = g.file ∧
        f.startLine = g.startLine ∧ f.endLine = g.endLine ∧
        f.content = String.ofList (unlines (sliceLines f.startLine f.endLine
          (lines content.toList))))
      (definitions .commentAware file content) (definitions .raw file (lexed content)) := by
  have hscan : scan .raw (lexed content) = scan .commentAware content := by
    rw [scan, scan, ← lines_lexed, Scanning.view]
  rw [definitions, definitions, hscan, List.forall₂_map_left_iff, List.forall₂_map_right_iff]
  exact List.forall₂_same.2 fun span _ => by simp [Span.definition]

end ClarityDelta.Source
