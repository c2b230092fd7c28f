import ClarityDelta.Source.Span

/-!
# How far a definition goes

A definition ends with the first line at whose end the depth is 0, and with the text when there is
no such line. `bodyExtent_eq_iff` says so without a recursion, by the depth at the end of a number
of lines. From it follow the order of the spans of a text, that none of them overlap, and that no
header is left outside of them.
-/

namespace ClarityDelta.Source

/-! ## Weights -/

/-- The weight of a text is the sum of the weights of its parts. -/
theorem weight_append (cs ds : List Char) : weight (cs ++ ds) = weight cs + weight ds := by
  induction cs with
  | nil => rw [List.nil_append, weight_nil, Int.zero_add]
  | cons c cs ih => rw [List.cons_append, weight_cons, weight_cons, ih, Int.add_assoc]

/-- An opening parenthesis weighs one, a closing one minus one, and all else nothing. -/
theorem charWeight_eq (c : Char) :
    charWeight c = if c = '(' then 1 else if c = ')' then -1 else 0 := by
  unfold charWeight Paren.ofChar?
  split
  · rfl
  · rfl
  · next hopen hclose => rw [if_neg hopen, if_neg hclose]; rfl

/-- The weight of a text is by how many it has more opening parentheses than closing ones. -/
theorem weight_eq_count (cs : List Char) :
    weight cs = (cs.count '(' : Int) - (cs.count ')' : Int) := by
  induction cs with
  | nil => rfl
  | cons c cs ih =>
    rw [weight_cons, charWeight_eq, ih, List.count_cons, List.count_cons]
    by_cases hopen : c = '('
    · subst hopen
      simp
      omega
    · by_cases hclose : c = ')'
      · subst hclose
        simp
        omega
      · simp [hopen, hclose]

/-! ## The depth at line ends -/

/-- The depth at the end of the first `count` lines, when it is `depth` before them. -/
def depthAfterLines (depth : Int) (ls : List (List Char)) (count : Nat) : Int :=
  depth + weight (ls.take count).flatten

/-- After no line the depth is what it was. -/
theorem depthAfterLines_zero (depth : Int) (ls : List (List Char)) :
    depthAfterLines depth ls 0 = depth := by
  simp [depthAfterLines, weight_nil]

/-- Each line adds its weight to the depth. -/
theorem depthAfterLines_succ (depth : Int) (line : List Char) (rest : List (List Char))
    (count : Nat) : depthAfterLines depth (line :: rest) (count + 1)
      = depthAfterLines (depth + weight line) rest count := by
  rw [depthAfterLines, depthAfterLines, List.take_succ_cons, List.flatten_cons, weight_append,
    Int.add_assoc]

/-- The depth that `bodyExtent` gives is the one at the end of the lines that it takes. -/
theorem bodyExtent_snd (depth : Int) (ls : List (List Char)) :
    (bodyExtent depth ls).2 = depthAfterLines depth ls (bodyExtent depth ls).1 := by
  induction ls generalizing depth with
  | nil => exact (depthAfterLines_zero depth []).symm
  | cons line rest ih =>
    rw [bodyExtent]
    split
    · exact (depthAfterLines_zero depth _).symm
    · exact (ih _).trans (depthAfterLines_succ depth line rest _).symm

/-- At no line end before the last one that `bodyExtent` takes is the depth 0. -/
theorem depthAfterLines_ne_zero {depth : Int} {ls : List (List Char)} {count : Nat}
    (h : count < (bodyExtent depth ls).1) : depthAfterLines depth ls count ≠ 0 := by
  induction ls generalizing depth count with
  | nil => exact absurd h (Nat.not_lt_zero _)
  | cons line rest ih =>
    rw [bodyExtent] at h
    split at h
    · exact absurd h (Nat.not_lt_zero _)
    · next hopen =>
      cases count with
      | zero => simpa [depthAfterLines_zero, isClosed] using hopen
      | succ count =>
        rw [depthAfterLines_succ]
        exact ih (Nat.lt_of_succ_lt_succ h)

/-- `bodyExtent` takes all lines unless the depth is 0 at the end of those it takes. -/
theorem bodyExtent_fst_eq_length {depth : Int} {ls : List (List Char)}
    (h : (bodyExtent depth ls).2 ≠ 0) : (bodyExtent depth ls).1 = ls.length := by
  induction ls generalizing depth with
  | nil => rfl
  | cons line rest ih =>
    rw [bodyExtent] at h ⊢
    split at h
    · next hclosed => exact absurd (by simpa [isClosed] using hclosed) h
    · next hopen =>
      rw [if_neg hopen]
      exact congrArg (· + 1) (ih h)

/-- The lines that `bodyExtent` takes are the fewest at whose end the depth is 0, or else all. -/
theorem bodyExtent_eq_iff {depth last : Int} {ls : List (List Char)} {count : Nat} :
    bodyExtent depth ls = (count, last) ↔
      count ≤ ls.length ∧ last = depthAfterLines depth ls count ∧ (last = 0 ∨ count = ls.length) ∧
        ∀ k < count, depthAfterLines depth ls k ≠ 0 := by
  have hle := bodyExtent_le depth ls
  have hsnd := bodyExtent_snd depth ls
  constructor
  · intro h
    rw [h] at hle hsnd
    refine ⟨hle, hsnd, ?_, fun k hk => depthAfterLines_ne_zero (by rwa [h])⟩
    by_cases hlast : last = 0
    · exact Or.inl hlast
    · have hall : (bodyExtent depth ls).1 = ls.length := bodyExtent_fst_eq_length (by rwa [h])
      rw [h] at hall
      exact Or.inr hall
  · rintro ⟨hcount, rfl, hend, hbefore⟩
    -- with fewer lines the depth would not be 0, with more lines it would have been 0 before
    have hcut : (bodyExtent depth ls).1 = count := by
      rcases Nat.lt_trichotomy (bodyExtent depth ls).1 count with hlt | heq | hgt
      · have hne := hbefore _ hlt
        rw [← hsnd] at hne
        have := bodyExtent_fst_eq_length hne
        omega
      · exact heq
      · have hne := depthAfterLines_ne_zero hgt
        have := hend.resolve_left hne
        omega
    rw [← hcut, ← hsnd]

/-! ## The spans of a text -/

/-- A span that the lines of a text hold: its first line has the header, and it goes as far as
`bodyExtent` tells. -/
structure Span.Within (ls : List (List Char)) (span : Span) (line inside : List Char) : Prop where
  first_pos : 0 < span.first
  line_eq : ls[span.first - 1]? = some line
  find_eq : Header.find? line = some (span.header, inside)
  first_le_last : span.first ≤ span.last
  extent_eq : bodyExtent (1 + weight inside) (ls.drop span.first)
    = (span.last - span.first, span.depth)

/-- The spans behind the first lines of a text begin behind them. -/
theorem lt_first_of_mem_spansFrom {before : Nat} {ls : List (List Char)} {span : Span}
    (h : span ∈ spansFrom before ls) : before < span.first := by
  fun_induction spansFrom before ls with
  | case1 before => exact absurd h List.not_mem_nil
  | case2 before line rest hnone ih => exact Nat.lt_of_succ_lt (ih h)
  | case3 before line rest header inside hsome extent ih =>
    rcases List.mem_cons.1 h with rfl | h
    · exact Nat.lt_succ_self _
    · have hlt := ih h
      omega

/-- Spans follow one another without a common line. -/
theorem pairwise_spansFrom (before : Nat) (ls : List (List Char)) :
    (spansFrom before ls).Pairwise fun span later => span.last < later.first := by
  fun_induction spansFrom before ls with
  | case1 before => exact List.Pairwise.nil
  | case2 before line rest hnone ih => exact ih
  | case3 before line rest header inside hsome extent ih =>
    exact List.pairwise_cons.2 ⟨fun later hlater => lt_first_of_mem_spansFrom hlater, ih⟩

/-- A span that is found behind the first lines of a text lies in the text. -/
theorem within_of_mem_spansFrom {all ls : List (List Char)} {before : Nat} {span : Span}
    (hls : all.drop before = ls) (h : span ∈ spansFrom before ls) :
    ∃ line inside, span.Within all line inside := by
  fun_induction spansFrom before ls with
  | case1 before => exact absurd h List.not_mem_nil
  | case2 before line rest hnone ih =>
    exact ih (by rw [← List.drop_drop, hls]; rfl) h
  | case3 before line rest header inside hsome extent ih =>
    have hrest : all.drop (before + 1) = rest := by
      rw [← List.drop_drop, hls]
      rfl
    rcases List.mem_cons.1 h with rfl | h
    · refine ⟨line, inside, Nat.succ_pos _, ?_, hsome, Nat.le_add_right _ _, ?_⟩
      · rw [Nat.add_sub_cancel, ← List.head?_drop, hls]
        rfl
      · rw [hrest, Nat.add_sub_cancel_left]
    · exact ih (by rw [← List.drop_drop, hrest]) h

/-- Every line with a header lies in a span. -/
theorem exists_span_of_header (before : Nat) {i : Nat} {ls : List (List Char)} {line : List Char}
    (hline : ls[i]? = some line) (hheader : Header.find? line ≠ none) :
    ∃ span ∈ spansFrom before ls, span.first ≤ before + i + 1 ∧ before + i + 1 ≤ span.last := by
  fun_induction spansFrom before ls generalizing i with
  | case1 before => simp at hline
  | case2 before first rest hnone ih =>
    cases i with
    | zero =>
      obtain rfl : first = line := by simpa using hline
      exact absurd hnone hheader
    | succ i =>
      obtain ⟨span, hmem, hfirst, hlast⟩ := ih hline
      exact ⟨span, hmem, by omega, by omega⟩
  | case3 before first rest header inside hsome extent =>
    rename_i ih
    by_cases hi : i ≤ extent.1
    · have hlast : before + i + 1 ≤ before + 1 + extent.1 := by omega
      exact ⟨_, List.mem_cons_self, by simp, hlast⟩
    · -- the line comes behind the first span, at a place that the rest of the search sees
      obtain ⟨j, rfl⟩ : ∃ j, i = extent.1 + j + 1 := ⟨i - extent.1 - 1, by omega⟩
      have hrest : (rest.drop extent.1)[j]? = some line := by
        rw [List.getElem?_drop]
        exact hline
      obtain ⟨span, hmem, hfirst, hlast⟩ := ih hrest
      exact ⟨span, List.mem_cons_of_mem _ hmem, by omega, by omega⟩

namespace Span.Within

variable {ls : List (List Char)} {span : Span} {line inside : List Char}

/-- A span begins within the lines. -/
theorem first_le_length (h : span.Within ls line inside) : span.first ≤ ls.length := by
  obtain ⟨hlt, -⟩ := List.getElem?_eq_some_iff.1 h.line_eq
  have hpos := h.first_pos
  omega

/-- A span ends in the text. -/
theorem last_le_length (h : span.Within ls line inside) : span.last ≤ ls.length := by
  have hle := bodyExtent_le (1 + weight inside) (ls.drop span.first)
  rw [h.extent_eq, List.length_drop] at hle
  have hfirst := h.first_le_length
  omega

/-- A span that is left open goes on to the end of the text. -/
theorem last_eq_length (h : span.Within ls line inside) (hopen : span.depth ≠ 0) :
    span.last = ls.length := by
  obtain ⟨-, -, hend, -⟩ := bodyExtent_eq_iff.1 h.extent_eq
  have hall := hend.resolve_left hopen
  rw [List.length_drop] at hall
  have hle := h.last_le_length
  have hfirst := h.first_le_last
  omega

/-- The depth at the end of a span is the weight of what it holds from the parenthesis on that opens
its header. -/
theorem depth_eq_weight (h : span.Within ls line inside) :
    span.depth = weight ('(' :: inside ++ (ls.extract span.first span.last).flatten) := by
  obtain ⟨-, hdepth, -⟩ := bodyExtent_eq_iff.1 h.extent_eq
  have hopening : charWeight '(' = 1 := rfl
  rw [hdepth, depthAfterLines, List.extract_eq_take_drop, weight_append, weight_cons, hopening]

end Span.Within

/-- The span that is left open is the last one of the text. -/
theorem getLast?_spans {ls : List (List Char)} {span : Span} (h : span ∈ spans ls)
    (hopen : span.depth ≠ 0) : (spans ls).getLast? = some span := by
  obtain ⟨earlier, later, hsplit⟩ := List.append_of_mem h
  have hlast : later = [] := by
    rw [List.eq_nil_iff_forall_not_mem]
    intro other hother
    have hmem : other ∈ spans ls := by
      rw [hsplit]
      exact List.mem_append_right _ (List.mem_cons_of_mem _ hother)
    obtain ⟨line, inside, hspan⟩ := within_of_mem_spansFrom List.drop_zero h
    obtain ⟨line', inside', hwithin⟩ := within_of_mem_spansFrom List.drop_zero hmem
    -- a later span would have to begin behind the last line of the text
    have hpair := pairwise_spansFrom 0 ls
    rw [← spans, hsplit] at hpair
    have hlt := List.rel_of_pairwise_cons (List.pairwise_append.1 hpair).2.1 hother
    rw [hspan.last_eq_length hopen] at hlt
    have hle := hwithin.first_le_length
    omega
  rw [hsplit, hlast, List.getLast?_concat]

end ClarityDelta.Source
