import Mathlib.Data.List.Infix
import Mathlib.Data.Nat.Digits.Defs
import ClarityDelta.Proofs.Text.Run
import ClarityDelta.Terminal.Markup

/-!
# Closing tags

Rendering fails on a closing tag without an open one and on nothing else. So a text is rendered when
none of the tags that are read in it closes anything, and there are two ways to know that without
reading them. No closing tag begins where no bracket opens before a slash: `ClosesNothing`. And a
closing tag is plain text behind an odd number of backslashes, which is what escaping provides:
`guarded_escape`. A message made of texts that close nothing and of one escaped text at the end is
rendered for any escaped text, `Finished.renders_escape`. An escaped text in the middle does not do:
what is an open bracket there may become a tag by what is written behind it.
-/

namespace ClarityDelta.Terminal.Markup

open Text

/-- A text that can be rendered. -/
def Renders (s : String) : Prop :=
  ∃ cs, render s = .ok cs

instance (s : String) : Decidable (Renders s) :=
  match h : render s with
  | .ok cs => .isTrue ⟨cs, h⟩
  | .error _ => .isFalse fun ⟨cs, hcs⟩ => by rw [h] at hcs; cases hcs

/-! ## Tags that close -/

/-- What a part closes, if it is a closing tag that is not plain text. -/
def Chunk.closed? : Chunk → Option (List Char)
  | .tag backslashes ('/' :: name) =>
    if backslashes % 2 = 0 then some (tagName name) else none
  | _ => none

/-- What the parts of a text close, in order. -/
def closings (parts : List Chunk) : List (List Char) :=
  parts.filterMap Chunk.closed?

/-- The closing tags are no others than one that closes what is open. -/
def Fits (opened : Open) : List (List Char) → Prop
  | [] => True
  | [name] => isBlankText name = false ∧ Style.normalized (trim name) ∈ opened
  | _ => False

/-- What is left to close fits where more is open. -/
theorem Fits.cons {opened : Open} {names : List (List Char)} (h : Fits opened names)
    (style : String) : Fits (style :: opened) names := by
  match names, h with
  | [], _ => trivial
  | [name], ⟨hblank, hmem⟩ => exact ⟨hblank, List.mem_cons_of_mem style hmem⟩

/-- A tag that is not plain text opens something, or closes what its name tells. -/
theorem afterTag_cases (position : Nat) (inside : List Char) (opened : Open) :
    (∃ style, afterTag position inside opened = .ok (style :: opened) ∧
      ∀ backslashes, (Chunk.tag backslashes inside).closed? = none) ∨
    ∃ name, inside = '/' :: name ∧ (isBlankText (tagName name) = false →
      Style.normalized (trim (tagName name)) ∈ opened →
        ∃ rest, afterTag position inside opened = .ok rest) := by
  cases inside with
  | nil => exact Or.inl ⟨_, rfl, fun _ => rfl⟩
  | cons c inside =>
    by_cases hc : c = '/'
    · subst hc
      refine Or.inr ⟨inside, rfl, fun hblank hmem => ?_⟩
      have hname : tagName ('/' :: inside) = '/' :: tagName inside := rfl
      have hcontains : opened.contains (Style.normalized (trim (tagName inside))) = true :=
        List.contains_iff_mem.mpr hmem
      refine ⟨opened.erase (Style.normalized (trim (tagName inside))), ?_⟩
      simp only [afterTag.eq_def, hname, hblank, hcontains, Bool.false_eq_true, if_false, if_true]
    · refine Or.inl ⟨Style.normalized (tagName (c :: inside)), ?_, fun backslashes => ?_⟩
      · rw [afterTag.eq_def]
        split
        · next name hname =>
          rw [tagName, List.takeWhile_cons] at hname
          split at hname
          · exact absurd (List.cons.inj hname).1 hc
          · cases hname
        · rfl
      · rw [Chunk.closed?.eq_def]
        split
        · next heq => exact absurd (List.cons.inj (Chunk.tag.inj heq).2).1 hc
        · rfl

/-- Parts that close nothing else than fits are shown. -/
theorem exists_shown_eq {parts : List Chunk} (position : Nat) {opened : Open}
    (h : Fits opened (closings parts)) : ∃ cs, shown position opened parts = .ok cs := by
  induction position, opened, parts using shown.induct with
  | case1 position opened => exact ⟨[], rfl⟩
  | case2 position opened rest ih =>
    obtain ⟨cs, hcs⟩ := ih h
    exact ⟨'[' :: cs, by rw [shown, hcs]; rfl⟩
  | case3 position opened c rest hother ih =>
    obtain ⟨cs, hcs⟩ := ih h
    exact ⟨c :: cs, by rw [shown, hcs]; exacts [rfl, hother]⟩
  | case4 position opened backslashes inside rest after hodd ih =>
    have hplain : (Chunk.tag backslashes inside).closed? = none := by
      rw [Chunk.closed?.eq_def]
      split
      · next heq =>
        rw [← (Chunk.tag.inj heq).1, if_neg (by omega)]
      · rfl
    rw [closings, List.filterMap_cons_none hplain] at h
    obtain ⟨cs, hcs⟩ := ih h
    refine ⟨List.replicate (backslashes / 2) '\\' ++ brackets inside ++ cs, ?_⟩
    simp only [shown, if_pos hodd]
    rw [hcs]
    rfl
  | case5 position opened backslashes inside rest after heven ih =>
    -- the tag leaves something open that what is left to close fits
    obtain ⟨left, hleft, hfits⟩ : ∃ left,
        afterTag (position + backslashes) inside opened = .ok left ∧ Fits left (closings rest) := by
      obtain ⟨style, hstyle, hplain⟩ | ⟨name, rfl, hclose⟩ :=
        afterTag_cases (position + backslashes) inside opened
      · rw [closings, List.filterMap_cons_none (hplain backslashes)] at h
        exact ⟨_, hstyle, h.cons style⟩
      · have hclosed : (Chunk.tag backslashes ('/' :: name)).closed? = some (tagName name) :=
          if_pos (by omega)
        rw [closings, List.filterMap_cons_some hclosed] at h
        cases hrest : rest.filterMap Chunk.closed? with
        | nil =>
          rw [hrest] at h
          obtain ⟨left, hleft⟩ := hclose h.1 h.2
          exact ⟨left, hleft, by rw [closings, hrest]; trivial⟩
        | cons other others =>
          rw [hrest] at h
          exact absurd h id
    obtain ⟨cs, hcs⟩ := ih left hfits
    refine ⟨List.replicate (backslashes / 2) '\\' ++ cs, ?_⟩
    simp only [shown, if_neg heven, hleft]
    show (shown after left rest >>= fun cs =>
      pure (List.replicate (backslashes / 2) '\\' ++ cs)) = _
    rw [hcs]
    rfl

/-! ## Where closing tags stand -/

/-- A tag is what stands up to the first bracket, if that one is closing and the tag begins as tags
do. -/
theorem inside?_eq_some_iff {cs inside rest : List Char} :
    inside? cs = some (inside, rest) ↔ cs = inside ++ ']' :: rest ∧
      (∀ c ∈ inside, c ≠ '[' ∧ c ≠ ']') ∧ ∃ c ∈ inside.head?, opensTag c = true := by
  have hrun (behind : List Char) :
      (cs.takeWhile (fun c => c ≠ '[' && c ≠ ']') = inside ∧
        cs.dropWhile (fun c => c ≠ '[' && c ≠ ']') = behind) ↔ _ := takeWhile_dropWhile_iff
  constructor
  · intro h
    rw [inside?] at h
    split at h
    · next c tail rest' htake hdrop =>
      split at h
      · next hopens =>
        obtain ⟨htaken, rfl⟩ := Prod.mk.inj (Option.some.inj h)
        obtain ⟨hcs, hplain, -⟩ := (hrun _).1 ⟨htaken, hdrop⟩
        refine ⟨hcs, fun d hd => by simpa using hplain d hd, c, ?_, hopens⟩
        rw [← htaken, htake]
        rfl
      · cases h
    · cases h
  · rintro ⟨hcs, hplain, c, hc, hopens⟩
    obtain ⟨htake, hdrop⟩ := (hrun (']' :: rest)).2
      ⟨hcs, fun d hd => by simpa using hplain d hd, fun d hd => Option.some.inj hd ▸ rfl⟩
    obtain ⟨tail, htail⟩ := List.head?_eq_some_iff.1 hc
    rw [inside?, htake, hdrop, htail]
    simp [hopens]

/-- Equal characters before one more of them are one run. -/
theorem replicate_append_cons (n : Nat) (c : Char) (rest : List Char) :
    List.replicate n c ++ c :: rest = List.replicate (n + 1) c ++ rest := by
  rw [List.replicate_succ', List.append_assoc]
  rfl

/-- A backslash counts with those before it. -/
theorem chunksFrom_backslash (n : Nat) (rest : List Char) :
    chunksFrom n ('\\' :: rest) = chunksFrom (n + 1) rest := by
  rw [chunksFrom]

/-- A bracket that begins a tag is a chunk, with the backslashes before it. -/
theorem chunksFrom_tag {rest inside more : List Char} (h : inside? rest = some (inside, more))
    (n : Nat) : chunksFrom n ('[' :: rest) = .tag n inside :: chunksFrom 0 more := by
  rw [chunksFrom]
  split
  · next inside' more' hsome =>
    obtain ⟨rfl, rfl⟩ := Prod.mk.inj (Option.some.inj (h.symm.trans hsome))
    rfl
  · next hnone =>
    rw [h] at hnone
    cases hnone

/-- A bracket that begins no tag is a character, as are the backslashes before it. -/
theorem chunksFrom_bracket {rest : List Char} (h : inside? rest = none) (n : Nat) :
    chunksFrom n ('[' :: rest) =
      List.replicate n (.char '\\') ++ .char '[' :: chunksFrom 0 rest := by
  rw [chunksFrom]
  split
  · next inside more hsome =>
    rw [h] at hsome
    cases hsome
  · rfl

/-- Any other character is one, as are the backslashes before it. -/
theorem chunksFrom_char {c : Char} (hback : c ≠ '\\') (hopen : c ≠ '[') (n : Nat)
    (rest : List Char) : chunksFrom n (c :: rest) =
      List.replicate n (.char '\\') ++ .char c :: chunksFrom 0 rest := by
  rw [chunksFrom]
  · exact hback
  · exact hopen

/-- What stands between brackets somewhere in a text, behind a number of backslashes and no more. -/
def StandsIn (backslashes : Nat) (inside cs : List Char) : Prop :=
  ∃ before behind,
    cs = before ++ (List.replicate backslashes '\\' ++ '[' :: (inside ++ ']' :: behind)) ∧
      before.getLast? ≠ some '\\'

/-- What stands behind a character that is no backslash stands in the whole text. -/
theorem StandsIn.behind {backslashes : Nat} {inside cs : List Char}
    (h : StandsIn backslashes inside cs) (front : List Char) {c : Char} (hc : c ≠ '\\') :
    StandsIn backslashes inside (front ++ c :: cs) := by
  obtain ⟨before, behind, rfl, hlast⟩ := h
  refine ⟨front ++ c :: before, behind, by simp, ?_⟩
  rw [List.getLast?_append, List.getLast?_cons]
  cases hbefore : before.getLast? with
  | none => simpa [hbefore] using hc
  | some d => simpa [hbefore] using hlast

/-- What stands between brackets behind some characters, none of them an opening bracket, has its
bracket there or stands in the rest. -/
theorem StandsIn.cases {backslashes : Nat} {inside front cs : List Char} {c : Char}
    (h : StandsIn backslashes inside (front ++ c :: cs)) (hfront : '[' ∉ front) (hc : c ≠ '\\') :
    StandsIn backslashes inside cs ∨ c = '[' ∧ (∃ behind, cs = inside ++ ']' :: behind) ∧
      ∃ before, front = before ++ List.replicate backslashes '\\' ∧
        before.getLast? ≠ some '\\' := by
  obtain ⟨before, behind, heq, hlast⟩ := h
  rw [← List.append_assoc] at heq
  obtain ⟨as, hbefore, hcs⟩ | ⟨as, hfront', hcs⟩ := List.append_eq_append_iff.1 heq
  · cases as with
    | nil =>
      obtain ⟨rfl, rfl⟩ := List.cons.inj hcs
      exact Or.inr ⟨rfl, ⟨behind, rfl⟩, before, by simpa using hbefore.symm, hlast⟩
    | cons a as =>
      obtain ⟨rfl, rfl⟩ := List.cons.inj hcs
      obtain ⟨bs, rfl, hslashes⟩ | ⟨bs, rfl, hslashes⟩ := List.append_eq_append_iff.1 hbefore
      · -- the character would be one of the backslashes
        have hmem : c ∈ List.replicate backslashes '\\' := by
          rw [hslashes]
          exact List.mem_append_right _ List.mem_cons_self
        exact absurd (List.eq_of_mem_replicate hmem) hc
      · cases bs with
        | nil =>
          have hmem : c ∈ List.replicate backslashes '\\' := by
            rw [← List.nil_append (List.replicate _ _), ← hslashes]
            exact List.mem_cons_self
          exact absurd (List.eq_of_mem_replicate hmem) hc
        | cons b bs =>
          obtain ⟨rfl, rfl⟩ := List.cons.inj hslashes
          refine Or.inl ⟨bs, behind, by simp, fun hbs => hlast ?_⟩
          rw [List.getLast?_append, List.getLast?_cons, hbs]
          rfl
  · cases as with
    | nil =>
      obtain ⟨rfl, rfl⟩ := List.cons.inj hcs
      exact Or.inr ⟨rfl, ⟨behind, rfl⟩, before, by simpa using hfront', hlast⟩
    | cons a as =>
      obtain ⟨rfl, -⟩ := List.cons.inj hcs
      rw [hfront'] at hfront
      exact absurd (List.mem_append_right _ List.mem_cons_self) hfront

/-- A tag that is read in a text stands in it, behind as many backslashes. -/
theorem standsIn_of_mem_chunksFrom {n backslashes : Nat} {cs inside : List Char}
    (h : .tag backslashes inside ∈ chunksFrom n cs) :
    StandsIn backslashes inside (List.replicate n '\\' ++ cs) ∧
      ∀ c ∈ inside, c ≠ '[' ∧ c ≠ ']' := by
  have hchars {m : Nat} {c : Char} {parts : List Chunk} (h : .tag backslashes inside ∈
      List.replicate m (.char '\\') ++ .char c :: parts) : .tag backslashes inside ∈ parts := by
    rcases List.mem_append.1 h with h | h
    · cases List.eq_of_mem_replicate h
    · exact (List.mem_cons.1 h).resolve_left Chunk.noConfusion
  induction n, cs using chunksFrom.induct with
  | case1 n =>
    rw [chunksFrom] at h
    cases List.eq_of_mem_replicate h
  | case2 n rest ih =>
    rw [chunksFrom_backslash] at h
    rw [replicate_append_cons]
    exact ih h
  | case3 n rest name more hname ih =>
    rw [chunksFrom_tag hname] at h
    obtain ⟨hrest, hplain, -⟩ := inside?_eq_some_iff.1 hname
    rcases List.mem_cons.1 h with heq | h
    · obtain ⟨rfl, rfl⟩ := Chunk.tag.inj heq
      exact ⟨⟨[], more, by rw [hrest, List.nil_append], by simp⟩, hplain⟩
    · obtain ⟨hstands, hinside⟩ := ih h
      refine ⟨?_, hinside⟩
      have hbehind := hstands.behind (List.replicate n '\\' ++ '[' :: name)
        (show ']' ≠ '\\' by decide)
      rw [hrest]
      simpa using hbehind
  | case4 n rest hnone ih =>
    rw [chunksFrom_bracket hnone] at h
    obtain ⟨hstands, hinside⟩ := ih (hchars h)
    exact ⟨hstands.behind (List.replicate n '\\') (by decide), hinside⟩
  | case5 n c rest hback hopen ih =>
    rw [chunksFrom_char hback hopen] at h
    obtain ⟨hstands, hinside⟩ := ih (hchars h)
    exact ⟨hstands.behind (List.replicate n '\\') hback, hinside⟩

/-- Every closing tag of a text stands behind an odd number of backslashes, so it is plain text. -/
def Guarded (cs : List Char) : Prop :=
  ∀ backslashes name, StandsIn backslashes ('/' :: name) cs → (∀ c ∈ name, c ≠ '[' ∧ c ≠ ']') →
    backslashes % 2 = 1

/-- A guarded text has no closing tags. -/
theorem closings_of_guarded {cs : List Char} (h : Guarded cs) : closings (chunks cs) = [] := by
  rw [closings, List.filterMap_eq_nil_iff]
  intro part hpart
  rw [Chunk.closed?.eq_def]
  split
  · next backslashes name =>
    obtain ⟨hstands, hplain⟩ := standsIn_of_mem_chunksFrom hpart
    rw [if_neg]
    have hodd := h backslashes name hstands fun c hc => hplain c (List.mem_cons_of_mem _ hc)
    omega
  · rfl

/-- A text whose closing tags are all plain text is rendered. -/
theorem renders_of_guarded {s : String} (h : Guarded s.toList) : Renders s :=
  exists_shown_eq 0 (by rw [closings_of_guarded h]; trivial)

/-! ## Escaped texts -/

/-- What escaping makes of the parts of a text, but for a backslash at the end. -/
def escapedFrom (n : Nat) (cs : List Char) : List Char :=
  (chunksFrom n cs).flatMap Chunk.escaped

/-- Backslashes that stand alone are not escaped. -/
theorem flatMap_escaped_replicate (n : Nat) :
    (List.replicate n (Chunk.char '\\')).flatMap Chunk.escaped = List.replicate n '\\' := by
  induction n with
  | zero => rfl
  | succ n ih => rw [List.replicate_succ, List.flatMap_cons, ih]; rfl

/-- Backslashes at the end stay as they are. -/
theorem escapedFrom_nil (n : Nat) : escapedFrom n [] = List.replicate n '\\' := by
  rw [escapedFrom, chunksFrom, flatMap_escaped_replicate]

/-- A backslash counts with those before it. -/
theorem escapedFrom_backslash (n : Nat) (rest : List Char) :
    escapedFrom n ('\\' :: rest) = escapedFrom (n + 1) rest := by
  rw [escapedFrom, chunksFrom_backslash, escapedFrom]

/-- Before a tag, backslashes are doubled and one more is put. -/
theorem escapedFrom_tag {rest inside more : List Char} (h : inside? rest = some (inside, more))
    (n : Nat) : escapedFrom n ('[' :: rest) =
      List.replicate (2 * n + 1) '\\' ++ '[' :: (inside ++ ']' :: escapedFrom 0 more) := by
  rw [escapedFrom, chunksFrom_tag h, List.flatMap_cons, Chunk.escaped, brackets, escapedFrom]
  simp

/-- Before a bracket that begins no tag, backslashes stay as they are. -/
theorem escapedFrom_bracket {rest : List Char} (h : inside? rest = none) (n : Nat) :
    escapedFrom n ('[' :: rest) = List.replicate n '\\' ++ '[' :: escapedFrom 0 rest := by
  rw [escapedFrom, chunksFrom_bracket h, List.flatMap_append, List.flatMap_cons,
    flatMap_escaped_replicate]
  rfl

/-- Before any other character, backslashes stay as they are. -/
theorem escapedFrom_char {c : Char} (hback : c ≠ '\\') (hopen : c ≠ '[') (n : Nat)
    (rest : List Char) :
    escapedFrom n (c :: rest) = List.replicate n '\\' ++ c :: escapedFrom 0 rest := by
  rw [escapedFrom, chunksFrom_char hback hopen, List.flatMap_append, List.flatMap_cons,
    flatMap_escaped_replicate]
  rfl

/-- A closing bracket is not among the characters of a text that holds none, but behind them. -/
theorem exists_of_append_eq_closing {front cs inside behind : List Char} (hfront : ']' ∉ front)
    (h : front ++ cs = inside ++ ']' :: behind) :
    ∃ inside', inside = front ++ inside' ∧ cs = inside' ++ ']' :: behind := by
  obtain ⟨as, rfl, hcs⟩ | ⟨as, rfl, hcs⟩ := List.append_eq_append_iff.1 h
  · exact ⟨as, rfl, hcs⟩
  · cases as with
    | nil => exact ⟨[], by simp, hcs.symm⟩
    | cons a as =>
      obtain ⟨rfl, -⟩ := List.cons.inj hcs
      exact absurd (List.mem_append_right _ List.mem_cons_self) hfront

/-- No opening bracket stands before the first closing one of what stands inside brackets. -/
theorem ne_opening_of_append_eq {front cs inside behind : List Char} (hfront : ']' ∉ front)
    (hplain : ∀ c ∈ inside, c ≠ '[' ∧ c ≠ ']') : front ++ '[' :: cs ≠ inside ++ ']' :: behind := by
  intro h
  obtain ⟨inside', rfl, hcs⟩ := exists_of_append_eq_closing hfront h
  cases inside' with
  | nil => cases (List.cons.inj hcs).1
  | cons c inside' =>
    obtain ⟨rfl, -⟩ := List.cons.inj hcs
    exact (hplain '[' (List.mem_append_right _ List.mem_cons_self)).1 rfl

/-- No other character is in a run of backslashes. -/
theorem not_mem_backslashes {c : Char} (hc : c ≠ '\\') (n : Nat) : c ∉ List.replicate n '\\' :=
  fun hmem => hc (List.eq_of_mem_replicate hmem)

/-- Escaping leaves a text as it is up to the first bracket, if that one is closing. -/
theorem exists_of_escapedFrom_eq {n : Nat} {cs inside behind : List Char}
    (hplain : ∀ c ∈ inside, c ≠ '[' ∧ c ≠ ']')
    (h : escapedFrom n cs = inside ++ ']' :: behind) :
    ∃ behind', List.replicate n '\\' ++ cs = inside ++ ']' :: behind' := by
  induction n, cs using chunksFrom.induct generalizing inside with
  | case1 n =>
    rw [escapedFrom_nil] at h
    have hmem : ']' ∈ List.replicate n '\\' := by
      rw [h]
      exact List.mem_append_right _ List.mem_cons_self
    exact absurd hmem (not_mem_backslashes (by decide) n)
  | case2 n rest ih =>
    rw [escapedFrom_backslash] at h
    rw [replicate_append_cons]
    exact ih hplain h
  | case3 n rest name more hname ih =>
    rw [escapedFrom_tag hname] at h
    exact absurd h (ne_opening_of_append_eq (not_mem_backslashes (by decide) _) hplain)
  | case4 n rest hnone ih =>
    rw [escapedFrom_bracket hnone] at h
    exact absurd h (ne_opening_of_append_eq (not_mem_backslashes (by decide) n) hplain)
  | case5 n c rest hback hopen ih =>
    rw [escapedFrom_char hback hopen] at h
    obtain ⟨inside', rfl, hrest⟩ :=
      exists_of_append_eq_closing (not_mem_backslashes (by decide) n) h
    cases inside' with
    | nil =>
      obtain ⟨rfl, -⟩ := List.cons.inj hrest
      exact ⟨rest, by simp⟩
    | cons d inside' =>
      obtain ⟨rfl, hbehind⟩ := List.cons.inj hrest
      obtain ⟨behind', hbehind⟩ := ih (fun d hd => hplain d
        (List.mem_append_right _ (List.mem_cons_of_mem _ hd))) hbehind
      exact ⟨behind', by rw [List.append_assoc, List.cons_append, ← hbehind]; rfl⟩

/-- The closing tags of an escaped text are plain text. -/
theorem guarded_escapedFrom (n : Nat) (cs : List Char) : Guarded (escapedFrom n cs) := by
  intro backslashes name hstands hplain
  induction n, cs using chunksFrom.induct with
  | case1 n =>
    rw [escapedFrom_nil] at hstands
    obtain ⟨before, behind, heq, -⟩ := hstands
    have hmem : '[' ∈ List.replicate n '\\' := by
      rw [heq]
      simp
    exact absurd hmem (not_mem_backslashes (by decide) n)
  | case2 n rest ih =>
    rw [escapedFrom_backslash] at hstands
    exact ih hstands
  | case3 n rest inside more hinside ih =>
    rw [escapedFrom_tag hinside] at hstands
    have hbrackets := (inside?_eq_some_iff.1 hinside).2.1
    obtain hstands | ⟨-, -, before, hslashes, hlast⟩ :=
      hstands.cases (not_mem_backslashes (by decide) _) (by decide)
    · obtain hstands | ⟨habsurd, -⟩ :=
        hstands.cases (fun hmem => (hbrackets _ hmem).1 rfl) (by decide)
      · exact ih hstands
      · cases habsurd
    · -- the tag itself: its backslashes were doubled, and one was added
      have hbefore : before = [] := by
        rw [← List.getLast?_eq_none_iff, Option.eq_none_iff_forall_ne_some]
        intro c hc
        have hmem : c ∈ List.replicate (2 * n + 1) '\\' := by
          rw [hslashes]
          exact List.mem_append_left _ (List.mem_of_getLast? hc)
        rw [List.eq_of_mem_replicate hmem] at hc
        exact hlast hc
      have hlength := congrArg List.length hslashes
      rw [hbefore, List.nil_append, List.length_replicate, List.length_replicate] at hlength
      omega
  | case4 n rest hnone ih =>
    rw [escapedFrom_bracket hnone] at hstands
    obtain hstands | ⟨-, ⟨behind, hbehind⟩, -⟩ :=
      hstands.cases (not_mem_backslashes (by decide) n) (by decide)
    · exact ih hstands
    · -- the bracket would begin a tag before escaping as well
      have hbrackets : ∀ c ∈ '/' :: name, c ≠ '[' ∧ c ≠ ']' :=
        List.forall_mem_cons.2 ⟨by decide, hplain⟩
      obtain ⟨behind', hrest⟩ := exists_of_escapedFrom_eq hbrackets hbehind
      have hsome : inside? rest = some ('/' :: name, behind') :=
        inside?_eq_some_iff.2 ⟨hrest, hbrackets, '/', rfl, by decide⟩
      rw [hnone] at hsome
      cases hsome
  | case5 n c rest hback hopen ih =>
    rw [escapedFrom_char hback hopen] at hstands
    obtain hstands | ⟨habsurd, -⟩ :=
      hstands.cases (not_mem_backslashes (by decide) n) hback
    · exact ih hstands
    · exact absurd habsurd hopen

/-- What stands between brackets does not reach to a last character that is no bracket. -/
theorem StandsIn.of_concat {backslashes : Nat} {inside cs : List Char} {c : Char}
    (h : StandsIn backslashes inside (cs ++ [c])) (hc : c ≠ ']') :
    StandsIn backslashes inside cs := by
  obtain ⟨before, behind, heq, hlast⟩ := h
  have hfront : before ++ (List.replicate backslashes '\\' ++ '[' :: (inside ++ ']' :: behind)) =
      (before ++ (List.replicate backslashes '\\' ++ '[' :: inside)) ++ ']' :: behind := by
    simp
  rw [hfront] at heq
  rcases List.eq_nil_or_concat' behind with rfl | ⟨behind, d, rfl⟩
  · exact absurd (List.cons.inj (List.append_inj' heq rfl).2).1 hc
  · rw [← List.cons_append, ← List.append_assoc] at heq
    refine ⟨before, behind, (List.append_inj' heq rfl).1.trans ?_, hlast⟩
    simp

/-- Whatever a text says, the closing tags of what escaping makes of it are plain text. -/
theorem guarded_escape (s : String) : Guarded (escape s).toList := by
  have hguarded : Guarded (escapedFrom 0 s.toList) := guarded_escapedFrom 0 s.toList
  rw [escape, String.toList_ofList]
  show Guarded (if endsInOneBackslash (escapedFrom 0 s.toList) = true then
    escapedFrom 0 s.toList ++ ['\\'] else escapedFrom 0 s.toList)
  split
  · exact fun backslashes name hstands => hguarded backslashes name (hstands.of_concat (by decide))
  · exact hguarded

/-! ## Messages -/

/-- A text in which no bracket opens before a slash, so that no closing tag begins there. -/
def ClosesNothing (s : String) : Prop :=
  ¬ ['[', '/'] <:+: s.toList

instance (s : String) : Decidable (ClosesNothing s) :=
  inferInstanceAs (Decidable (¬ _))

/-- A text behind which another one may be written: it closes nothing, and neither a bracket nor a
backslash is left at its end. -/
structure Finished (s : String) : Prop where
  closesNothing : ClosesNothing s
  last_ne_bracket : s.toList.getLast? ≠ some '['
  last_ne_backslash : s.toList.getLast? ≠ some '\\'

/-- What finishes any text that closes nothing when it is written behind it. -/
structure Finishes (s : String) : Prop extends Finished s where
  ne_nil : s.toList ≠ []
  head_ne_slash : s.toList.head? ≠ some '/'

instance (s : String) : Decidable (Finished s) :=
  decidable_of_iff (ClosesNothing s ∧ s.toList.getLast? ≠ some '[' ∧ s.toList.getLast? ≠ some '\\')
    ⟨fun ⟨h₁, h₂, h₃⟩ => ⟨h₁, h₂, h₃⟩, fun ⟨h₁, h₂, h₃⟩ => ⟨h₁, h₂, h₃⟩⟩

instance (s : String) : Decidable (Finishes s) :=
  decidable_of_iff (Finished s ∧ s.toList ≠ [] ∧ s.toList.head? ≠ some '/')
    ⟨fun ⟨h₁, h₂, h₃⟩ => ⟨h₁, h₂, h₃⟩, fun ⟨h₁, h₂, h₃⟩ => ⟨h₁, h₂, h₃⟩⟩

/-- A bracket right before a slash is in one of two texts, or where they meet. -/
theorem infix_append {cs ds : List Char} (h : ['[', '/'] <:+: cs ++ ds) :
    ['[', '/'] <:+: cs ∨ ['[', '/'] <:+: ds ∨ cs.getLast? = some '[' ∧ ds.head? = some '/' := by
  rcases List.infix_append_iff.1 h with h | h | ⟨front, back, heq, hfront, hback⟩
  · exact Or.inl h
  · exact Or.inr (Or.inl h)
  · match front, back, heq with
    | [], back, heq => exact Or.inr (Or.inl (heq ▸ hback.isInfix))
    | [c], back, heq =>
      obtain ⟨rfl, rfl⟩ := List.cons.inj heq
      obtain ⟨ds, rfl⟩ := hback
      obtain ⟨cs, rfl⟩ := hfront
      exact Or.inr (Or.inr ⟨by simp, rfl⟩)
    | [c, d], back, heq =>
      obtain ⟨hc, hback⟩ := List.cons.inj heq
      rw [hc, (List.cons.inj hback).1]
      exact Or.inl hfront.isInfix

/-- Two texts that close nothing close nothing together, unless a bracket and a slash meet. -/
theorem ClosesNothing.append {s t : String} (hs : ClosesNothing s) (ht : ClosesNothing t)
    (hjoin : s.toList.getLast? = some '[' → t.toList.head? ≠ some '/') :
    ClosesNothing (s ++ t) := by
  rw [ClosesNothing, String.toList_append]
  intro h
  rcases infix_append h with h | h | ⟨hlast, hhead⟩
  · exact hs h
  · exact ht h
  · exact hjoin hlast hhead

/-- A finished text may go on with any text that closes nothing. -/
theorem Finished.append {s t : String} (hs : Finished s) (ht : ClosesNothing t) :
    ClosesNothing (s ++ t) :=
  hs.closesNothing.append ht fun h => absurd h hs.last_ne_bracket

/-- A text that closes nothing is finished by a text that finishes. -/
theorem ClosesNothing.finish {s t : String} (hs : ClosesNothing s) (ht : Finishes t) :
    Finished (s ++ t) := by
  have hlast : (s ++ t).toList.getLast? = t.toList.getLast? := by
    rw [String.toList_append, List.getLast?_append_of_ne_nil _ ht.ne_nil]
  refine ⟨hs.append ht.closesNothing fun _ => ht.head_ne_slash, ?_, ?_⟩
  · rw [hlast]
    exact ht.last_ne_bracket
  · rw [hlast]
    exact ht.last_ne_backslash

/-- A text that closes nothing, between a finished text and one that finishes, is finished. -/
theorem Finished.around {front t behind : String} (hfront : Finished front) (ht : ClosesNothing t)
    (hbehind : Finishes behind) : Finished (front ++ t ++ behind) :=
  (hfront.append ht).finish hbehind

/-- A text that closes nothing is guarded. -/
theorem ClosesNothing.guarded {s : String} (h : ClosesNothing s) : Guarded s.toList := by
  rintro backslashes name ⟨before, behind, heq, -⟩ -
  refine absurd ⟨before ++ List.replicate backslashes '\\', name ++ ']' :: behind, ?_⟩ h
  rw [heq]
  simp

/-- A text that closes nothing is rendered. -/
theorem ClosesNothing.renders {s : String} (h : ClosesNothing s) : Renders s :=
  renders_of_guarded h.guarded

/-- A message with an escaped text at its end is rendered, whatever the escaped text says. -/
theorem Finished.renders_escape {s : String} (h : Finished s) (t : String) :
    Renders (s ++ escape t) := by
  refine renders_of_guarded fun backslashes name ⟨before, behind, heq, hlast⟩ hplain => ?_
  refine guarded_escape t backslashes name ?_ hplain
  have hnone {bs : List Char} (hs : s.toList = before ++ bs)
      (hbs : ∀ c ∈ bs.getLast?, c = '\\') : bs = [] := by
    rcases List.eq_nil_or_concat' bs with rfl | ⟨bs, c, rfl⟩
    · rfl
    · refine absurd ?_ h.last_ne_backslash
      rw [hs, ← List.append_assoc, List.getLast?_concat, hbs c (by simp)]
  rw [String.toList_append, ← List.append_assoc] at heq
  obtain ⟨as, hbefore, hescape⟩ | ⟨as, hs, hescape⟩ := List.append_eq_append_iff.1 heq
  · -- the bracket is in the escaped text, and so are its backslashes
    obtain ⟨bs, hs, hslashes⟩ | ⟨bs, rfl, rfl⟩ := List.append_eq_append_iff.1 hbefore
    · obtain rfl : bs = [] := by
        refine hnone hs fun c hc => ?_
        have hmem : c ∈ List.replicate backslashes '\\' := by
          rw [hslashes]
          exact List.mem_append_left _ (List.mem_of_getLast? hc)
        exact List.eq_of_mem_replicate hmem
      exact ⟨[], behind, by rw [hescape, hslashes]; rfl, by simp⟩
    · refine ⟨bs, behind, by rw [hescape, List.append_assoc], fun hbs => hlast ?_⟩
      rw [List.getLast?_append, hbs]
      rfl
  · cases as with
    | nil =>
      have hslashes : List.replicate backslashes '\\' = [] := by
        refine hnone (by simpa using hs) fun c hc => ?_
        exact List.eq_of_mem_replicate (List.mem_of_getLast? hc)
      exact ⟨[], behind, by rw [hslashes]; exact hescape.symm, by simp⟩
    | cons a as =>
      obtain ⟨rfl, hinside⟩ := List.cons.inj hescape
      cases as with
      | nil => exact absurd (by rw [hs]; simp) h.last_ne_bracket
      | cons a as =>
        obtain ⟨rfl, -⟩ := List.cons.inj hinside
        refine absurd ⟨before ++ List.replicate backslashes '\\', as, ?_⟩ h.closesNothing
        rw [hs]
        simp

/-- A bracket right before a slash is behind any other first character. -/
theorem infix_of_infix_cons {c : Char} {cs : List Char} (hc : c ≠ '[')
    (h : ['[', '/'] <:+: c :: cs) : ['[', '/'] <:+: cs := by
  rcases List.infix_cons_iff.1 h with h | h
  · exact absurd (List.cons_prefix_cons.1 h).1.symm hc
  · exact h

/-- A bracket right before a slash is behind backslashes that come first. -/
theorem infix_of_infix_backslashes_append {n : Nat} {cs : List Char}
    (h : ['[', '/'] <:+: List.replicate n '\\' ++ cs) : ['[', '/'] <:+: cs := by
  induction n with
  | zero => exact h
  | succ n ih => exact ih (infix_of_infix_cons (by decide) h)

/-- What escaping makes of a text begins with a slash only where the text does. -/
theorem head?_escapedFrom {n : Nat} {cs : List Char} (h : (escapedFrom n cs).head? = some '/') :
    n = 0 ∧ cs.head? = some '/' := by
  have hzero {n : Nat} {cs : List Char}
      (h : (List.replicate n '\\' ++ cs).head? = some '/') : n = 0 ∧ cs.head? = some '/' := by
    cases n with
    | zero => exact ⟨rfl, h⟩
    | succ n => cases h
  induction n, cs using chunksFrom.induct with
  | case1 n =>
    rw [escapedFrom_nil, ← List.append_nil (List.replicate n _)] at h
    exact hzero h
  | case2 n rest ih =>
    rw [escapedFrom_backslash] at h
    exact absurd (ih h).1 (Nat.succ_ne_zero n)
  | case3 n rest inside more hinside ih =>
    rw [escapedFrom_tag hinside] at h
    exact absurd (hzero h).1 (Nat.succ_ne_zero _)
  | case4 n rest hnone ih =>
    rw [escapedFrom_bracket hnone] at h
    exact ⟨(hzero h).1, (hzero h).2⟩
  | case5 n c rest hback hopen ih =>
    rw [escapedFrom_char hback hopen] at h
    exact ⟨(hzero h).1, (hzero h).2⟩

/-- Escaping puts no bracket right before a slash. -/
theorem infix_of_infix_escapedFrom {n : Nat} {cs : List Char}
    (h : ['[', '/'] <:+: escapedFrom n cs) : ['[', '/'] <:+: cs := by
  induction n, cs using chunksFrom.induct with
  | case1 n =>
    rw [escapedFrom_nil, ← List.append_nil (List.replicate n _)] at h
    exact infix_of_infix_backslashes_append h
  | case2 n rest ih =>
    rw [escapedFrom_backslash] at h
    exact (ih h).trans (List.suffix_cons _ _).isInfix
  | case3 n rest inside more hinside ih =>
    rw [escapedFrom_tag hinside] at h
    obtain ⟨hrest, -⟩ := inside?_eq_some_iff.1 hinside
    have htag : ['[', '/'] <:+: ('[' :: inside) ++ ']' :: escapedFrom 0 more :=
      infix_of_infix_backslashes_append h
    rcases infix_append htag with h | h | h
    · exact h.trans ⟨[], ']' :: more, by rw [hrest]; rfl⟩
    · have hmore := ih (infix_of_infix_cons (by decide) h)
      exact hmore.trans ⟨'[' :: (inside ++ [']']), [], by rw [hrest]; simp⟩
    · cases h.2
  | case4 n rest hnone ih =>
    rw [escapedFrom_bracket hnone] at h
    rcases List.infix_cons_iff.1 (infix_of_infix_backslashes_append h) with h | h
    · obtain ⟨behind, hbehind⟩ := (List.cons_prefix_cons.1 h).2
      have hescaped : (escapedFrom 0 rest).head? = some '/' := by
        rw [← hbehind]
        rfl
      obtain ⟨tail, rfl⟩ := List.head?_eq_some_iff.1 (head?_escapedFrom hescaped).2
      exact ⟨[], tail, rfl⟩
    · exact (ih h).trans (List.suffix_cons _ _).isInfix
  | case5 n c rest hback hopen ih =>
    rw [escapedFrom_char hback hopen] at h
    have hrest := ih (infix_of_infix_cons hopen (infix_of_infix_backslashes_append h))
    exact hrest.trans (List.suffix_cons _ _).isInfix

/-- Escaping a text that closes nothing adds no closing tag. -/
theorem closesNothing_escape {s : String} (h : ClosesNothing s) : ClosesNothing (escape s) := by
  have hescaped : ¬ ['[', '/'] <:+: escapedFrom 0 s.toList :=
    fun hfound => h (infix_of_infix_escapedFrom hfound)
  rw [ClosesNothing, escape, String.toList_ofList]
  show ¬ _ <:+: (if endsInOneBackslash (escapedFrom 0 s.toList) = true then
    escapedFrom 0 s.toList ++ ['\\'] else escapedFrom 0 s.toList)
  split
  · intro hfound
    rcases infix_append hfound with hfound | hfound | ⟨-, hhead⟩
    · exact hescaped hfound
    · revert hfound
      decide
    · cases hhead
  · exact hescaped

end ClarityDelta.Terminal.Markup
