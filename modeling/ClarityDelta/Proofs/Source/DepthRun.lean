import ClarityDelta.Proofs.Source.DefinitionSpans

/-!
# Where the depth first becomes 0

Read character by character behind the parenthesis that opens it, a definition is closed where the
depth first becomes 0. The search for definitions looks at the depth at line ends only, so the
definition ends in that line exactly when the depth is 0 again at the end of the line, or when no
line follows: `endLine_eq_zeroLine_iff`. A line that closes one parenthesis too many is therefore
passed over, and what comes after it is taken in.
-/

namespace ClarityDelta.Source

open Text

/-- The characters of lines, each with the number of its line, that of the first line given. -/
def numbered (first : Nat) : List (List Char) → List (Nat × Char)
  | [] => []
  | line :: rest => line.map (first, ·) ++ numbered (first + 1) rest

/-- The line of the character at which the depth first becomes 0. -/
def zeroLine? (depth : Int) : List (Nat × Char) → Option Nat
  | [] => none
  | (line, c) :: rest =>
    if depth + charWeight c = 0 then some line else zeroLine? (depth + charWeight c) rest

/-- A character takes at most 1 from the depth. -/
theorem neg_one_le_charWeight (c : Char) : -1 ≤ charWeight c := by
  rw [charWeight_eq]
  split
  · decide
  · split <;> decide

/-- Within a line the depth either becomes 0 or stays positive to the end of the line. -/
theorem zeroLine?_line {depth : Int} (hpos : 0 < depth) (n : Nat) (line : List Char)
    (rest : List (Nat × Char)) :
    zeroLine? depth (line.map (n, ·) ++ rest) = some n ∨
      0 < depth + weight line ∧
        zeroLine? depth (line.map (n, ·) ++ rest) = zeroLine? (depth + weight line) rest := by
  induction line generalizing depth with
  | nil =>
    rw [weight_nil, Int.add_zero]
    exact Or.inr ⟨hpos, rfl⟩
  | cons c line ih =>
    rw [List.map_cons, List.cons_append, zeroLine?, weight_cons, ← Int.add_assoc]
    split
    · exact Or.inl rfl
    · next hzero =>
      have hstep := neg_one_le_charWeight c
      exact ih (by omega)

/-- The depth is positive at all line ends before the line in which it first becomes 0, and at all
line ends when it never does. -/
theorem depthAfterLines_pos {depth : Int} (hpos : 0 < depth) (first : Nat) (ls : List (List Char)) :
    (∀ n, zeroLine? depth (numbered first ls) = some n → ∃ k < ls.length, n = first + k ∧
      ∀ j ≤ k, 0 < depthAfterLines depth ls j) ∧
    (zeroLine? depth (numbered first ls) = none →
      ∀ j ≤ ls.length, 0 < depthAfterLines depth ls j) := by
  induction ls generalizing depth first with
  | nil =>
    refine ⟨fun n hn => ?_, fun _ j hj => ?_⟩
    · exact absurd hn (Option.some_ne_none n).symm
    · obtain rfl := Nat.le_zero.1 hj
      rwa [depthAfterLines_zero]
  | cons line rest ih =>
    rw [numbered]
    rcases zeroLine?_line hpos first line (numbered (first + 1) rest) with hzero | ⟨hpos', hnext⟩
    · rw [hzero]
      refine ⟨fun n hn => ⟨0, Nat.succ_pos _, (Option.some.inj hn).symm, fun j hj => ?_⟩,
        fun hnone => absurd hnone (Option.some_ne_none first)⟩
      obtain rfl := Nat.le_zero.1 hj
      rwa [depthAfterLines_zero]
    · rw [hnext]
      obtain ⟨hsome, hnone⟩ := ih hpos' (first + 1)
      have hcons {k : Nat} (h : ∀ j ≤ k, 0 < depthAfterLines (depth + weight line) rest j) :
          ∀ j ≤ k + 1, 0 < depthAfterLines depth (line :: rest) j := by
        intro j hj
        cases j with
        | zero => rwa [depthAfterLines_zero]
        | succ j =>
          rw [depthAfterLines_succ]
          exact h j (Nat.le_of_succ_le_succ hj)
      refine ⟨fun n hn => ?_, fun hn => hcons (hnone hn)⟩
      obtain ⟨k, hk, rfl, hbefore⟩ := hsome n hn
      exact ⟨k + 1, Nat.succ_lt_succ hk, by omega, hcons hbefore⟩

namespace Opening

variable {view : List (List Char)} {f : FunctionDefinition}

/-- The characters of the view behind the parenthesis that opens the definition, up to the end of
the text, with the numbers of their lines. -/
def run (o : Opening view f) : List (Nat × Char) :=
  numbered f.startLine (o.place.inside :: view.drop f.startLine)

/-- The depth at the end of a line, the first one being that of the header. -/
def depthAtEnd (o : Opening view f) (n : Nat) : Int :=
  1 + weight (o.place.inside ++ (view.extract f.startLine n).flatten)

/-- The depth at the end of a line is the depth after the first line and as many more as the line stands
behind it. -/
theorem depthAtEnd_add (o : Opening view f) (k : Nat) : o.depthAtEnd (f.startLine + k) =
    depthAfterLines 1 (o.place.inside :: view.drop f.startLine) (k + 1) := by
  rw [depthAfterLines, List.take_succ_cons, List.flatten_cons, depthAtEnd,
    List.extract_eq_take_drop, Nat.add_sub_cancel_left]

/-- Before the line in which the depth first becomes 0 it is positive at all line ends. -/
theorem depthAtEnd_pos_of_zeroLine? (o : Opening view f) {n : Nat}
    (hn : zeroLine? 1 o.run = some n) :
    f.startLine ≤ n ∧ n ≤ f.startLine + (view.length - f.startLine) ∧
      ∀ l, f.startLine ≤ l → l < n → 0 < o.depthAtEnd l := by
  obtain ⟨k, hk, rfl, hpos⟩ := (depthAfterLines_pos Int.one_pos f.startLine _).1 n hn
  rw [List.length_cons, List.length_drop] at hk
  refine ⟨Nat.le_add_right _ _, by omega, fun l hl hlt => ?_⟩
  obtain ⟨j, rfl⟩ := Nat.exists_eq_add_of_le hl
  rw [o.depthAtEnd_add]
  exact hpos (j + 1) (by omega)

/-- When the depth never becomes 0 it is positive at all line ends. -/
theorem depthAtEnd_pos_of_zeroLine?_eq_none (o : Opening view f) (hnone : zeroLine? 1 o.run = none)
    {l : Nat} (hl : f.startLine ≤ l) (hle : l ≤ view.length) : 0 < o.depthAtEnd l := by
  obtain ⟨j, rfl⟩ := Nat.exists_eq_add_of_le hl
  rw [o.depthAtEnd_add]
  refine (depthAfterLines_pos Int.one_pos f.startLine _).2 hnone (j + 1) ?_
  rw [List.length_cons, List.length_drop]
  omega

end Opening

/-- A definition ends in a line of the text, and either the depth is 0 there or it is the last line.
At no line end before is the depth 0. -/
theorem depthAtEnd_endLine {scanning : Scanning} {file content : String} {f : FunctionDefinition}
    (hf : f ∈ definitions scanning file content)
    (o : Opening (scanning.view (lines content.toList)) f) :
    f.startLine ≤ f.endLine ∧ f.endLine ≤ (lines content.toList).length ∧
    (o.depthAtEnd f.endLine = 0 ∨ f.endLine = (lines content.toList).length) ∧
    ∀ l, f.startLine ≤ l → l < f.endLine → o.depthAtEnd l ≠ 0 := by
  obtain ⟨span, -, rfl, line, inside, h⟩ := exists_span_of_mem_definitions hf
  rw [← scanning.length_view]
  have hdepth (k : Nat) : o.depthAtEnd (span.first + k) = depthAfterLines (1 + weight inside)
      ((scanning.view (lines content.toList)).drop span.first) k := by
    rw [← depthAfterLines_succ, ← o.inside_eq h.line_eq h.find_eq]
    exact o.depthAtEnd_add k
  obtain ⟨k, hk⟩ := Nat.exists_eq_add_of_le h.first_le_last
  have hextent := h.extent_eq
  rw [hk, Nat.add_sub_cancel_left] at hextent
  obtain ⟨-, hlast, -, hbefore⟩ := bodyExtent_eq_iff.1 hextent
  refine ⟨h.first_le_last, h.last_le_length, ?_, fun l hl hlt => ?_⟩
  · by_cases hopen : span.depth = 0
    · refine Or.inl ?_
      rw [← hopen, hlast, ← hdepth, ← hk]
      rfl
    · exact Or.inr (h.last_eq_length hopen)
  · obtain ⟨j, rfl⟩ := Nat.exists_eq_add_of_le hl
    have hlt' : span.first + j < span.last := hlt
    exact fun hzero => hbefore j (by omega) ((hdepth j).symm.trans hzero)

/-- The last line of a definition is the first one at whose end the depth is 0, or that of the
text. Where the depth becomes 0 on the way, that line is not passed over exactly when the depth is
0 at its end as well, or when it is the last one. -/
theorem endLine_eq_zeroLine_iff {scanning : Scanning} {file content : String}
    {f : FunctionDefinition} (hf : f ∈ definitions scanning file content)
    (o : Opening (scanning.view (lines content.toList)) f) :
    (∀ l, f.startLine ≤ l → l < f.endLine → o.depthAtEnd l ≠ 0) ∧
    (o.depthAtEnd f.endLine = 0 ∨ f.endLine = (lines content.toList).length) ∧
    (zeroLine? 1 o.run = none → f.endLine = (lines content.toList).length) ∧
    ∀ n, zeroLine? 1 o.run = some n → n ≤ f.endLine ∧
      (f.endLine = n ↔ o.depthAtEnd n = 0 ∨ n = (lines content.toList).length) := by
  obtain ⟨hstart, hle, hend, hbefore⟩ := depthAtEnd_endLine hf o
  have hlength := scanning.length_view (lines content.toList)
  refine ⟨hbefore, hend, fun hnone => ?_, fun n hn => ?_⟩
  · have hpos := o.depthAtEnd_pos_of_zeroLine?_eq_none hnone hstart (hlength ▸ hle)
    exact hend.resolve_left (by omega)
  · obtain ⟨hfirst, hlast, hpos⟩ := o.depthAtEnd_pos_of_zeroLine? hn
    -- as long as the depth has not become 0 it is positive, so the definition is still open
    have hreach : n ≤ f.endLine := by
      refine Nat.le_of_not_lt fun hlt => ?_
      have hopen := hpos f.endLine hstart hlt
      have hfull := hend.resolve_left (by omega)
      omega
    refine ⟨hreach, fun heq => heq ▸ hend, ?_⟩
    rintro (hzero | hfull)
    · refine Nat.le_antisymm (Nat.le_of_not_lt fun hlt => ?_) hreach
      exact hbefore n hfirst hlt hzero
    · omega

/-- A form that is closed in its first line, where another one is opened and closed once too often
before a last parenthesis makes up for it. -/
def madeUp : String := "(define-public (f) ))(\n(define-private (g)\n  1)"

/-- The depth of `madeUp` becomes 0 in the first line, passes below, and is 0 again at the end of
that line, so the first definition ends there. -/
theorem endLine_eq_zeroLine_madeUp :
    ∃ f ∈ definitions .raw "m.clar" madeUp,
      ∃ o : Opening (Scanning.raw.view (lines madeUp.toList)) f,
        f.name = "f" ∧ zeroLine? 1 o.run = some 1 ∧ o.depthAtEnd 1 = 0 ∧ f.endLine = 1 := by
  let f : FunctionDefinition :=
    ⟨"f", .publicFunction, "m.clar", 1, 1, "(define-public (f) ))("⟩
  have hf : f ∈ definitions .raw "m.clar" madeUp := by decide +kernel
  obtain ⟨o⟩ := nonempty_opening_of_mem_definitions hf
  have hfind : Header.find? "(define-public (f) ))(".toList =
      some (⟨.publicFunction, "f"⟩, "define-public (f) ))(".toList) := by decide +kernel
  have hinside := o.inside_eq (by decide +kernel) hfind
  have hzero : zeroLine? 1 o.run = some 1 := by
    rw [Opening.run, hinside]
    decide +kernel
  have hdepth : o.depthAtEnd 1 = 0 := by
    rw [Opening.depthAtEnd, hinside]
    decide +kernel
  obtain ⟨-, -, -, hline⟩ := endLine_eq_zeroLine_iff hf o
  exact ⟨f, hf, o, rfl, hzero, hdepth, (hline 1 hzero).2.2 (Or.inl hdepth)⟩

/-- A definition with one closing parenthesis too many in its last line, and another one after it. -/
def closedTwice : String := "(define-public (f)))\n(define-public (g) 1)"

/-- The depth of the first definition of `closedTwice` becomes 0 in its first line, but the
definition ends with the text, and the second one is not found. -/
theorem endLine_ne_zeroLine_closedTwice :
    ∃ f ∈ definitions .raw "m.clar" closedTwice,
      ∃ o : Opening (Scanning.raw.view (lines closedTwice.toList)) f,
        zeroLine? 1 o.run = some 1 ∧ f.endLine = 2 ∧
          (definitions .raw "m.clar" closedTwice).map (·.name) = ["f"] := by
  let f : FunctionDefinition := ⟨"f", .publicFunction, "m.clar", 1, 2, closedTwice⟩
  have hf : f ∈ definitions .raw "m.clar" closedTwice := by decide +kernel
  obtain ⟨o⟩ := nonempty_opening_of_mem_definitions hf
  have hfind : Header.find? "(define-public (f)))".toList =
      some (⟨.publicFunction, "f"⟩, "define-public (f)))".toList) := by decide +kernel
  have hinside := o.inside_eq (by decide +kernel) hfind
  have hzero : zeroLine? 1 o.run = some 1 := by
    rw [Opening.run, hinside]
    decide +kernel
  exact ⟨f, hf, o, hzero, rfl, by decide +kernel⟩

end ClarityDelta.Source
