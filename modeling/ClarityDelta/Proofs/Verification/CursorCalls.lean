import Mathlib.Data.List.Chain
import ClarityDelta.Verification.LineCursor

/-!
# Calls of a line cursor

A cursor may be asked in any order whether it is at the end, for the next line and for the next line
with content; all three work on one position. `Call.Lawful` says what a single call answers and where it
leaves the cursor, by the lines alone. From this it follows for any calls one after another that every
line is handed out at most once, in order, and that nothing is passed over but filler:
`calls_traverse`.
-/

namespace ClarityDelta.Verification

open Text

namespace LineCursor

/-- What a cursor is asked. -/
inductive Request where
  | atEnd
  | nextLine
  | nextContentLine
  deriving DecidableEq, Repr

/-- What a cursor answers: whether it is at the end, or a line if there was one. -/
inductive Answer where
  | atEnd (isAtEnd : Bool)
  | line (line? : Option (List Char))
  deriving DecidableEq, Repr

/-- A call of a cursor, with the positions before and after it. -/
structure Call where
  request : Request
  answer : Answer
  before : Nat
  after : Nat
  deriving DecidableEq, Repr

/-- The answer to a request, and the cursor afterwards. -/
def respond (cursor : LineCursor) : Request → Answer × LineCursor
  | .atEnd => (.atEnd cursor.atEnd, cursor)
  | .nextLine => (.line cursor.nextLine.1, cursor.nextLine.2)
  | .nextContentLine => (.line cursor.nextContentLine.1, cursor.nextContentLine.2)

/-- The calls for some requests, made one after another. -/
def calls (cursor : LineCursor) : List Request → List Call
  | [] => []
  | request :: rest =>
    let (answer, next) := cursor.respond request
    ⟨request, answer, cursor.position, next.position⟩ :: next.calls rest

/-! ## One call -/

/-- The place of the line that a call hands out, which the cursor has just passed then. -/
def Call.place? (call : Call) : Option Nat :=
  match call.answer with
  | .line (some _) => some (call.after - 1)
  | _ => none

/-- What a call may be on the given lines. -/
inductive Call.Lawful (ls : List (List Char)) : Call → Prop where
  | atEnd {n : Nat} (hle : n ≤ ls.length) : Lawful ls ⟨.atEnd, .atEnd (n = ls.length), n, n⟩
  | nextLine {n : Nat} {line : List Char} (hline : ls[n]? = some line) :
    Lawful ls ⟨.nextLine, .line (some (trim line)), n, n + 1⟩
  | noLine : Lawful ls ⟨.nextLine, .line none, ls.length, ls.length⟩
  /-- The first line with content at or behind the position is handed out. -/
  | nextContentLine {n place : Nat} {line : List Char} (hle : n ≤ place)
    (hline : ls[place]? = some line) (hcontent : isBlankText line = false)
    (hfiller : ∀ i filler, n ≤ i → i < place → ls[i]? = some filler → isBlankText filler = true) :
    Lawful ls ⟨.nextContentLine, .line (some (trim line)), n, place + 1⟩
  /-- There is no line with content at or behind the position. -/
  | noContentLine {n : Nat} (hle : n ≤ ls.length)
    (hfiller : ∀ i filler, n ≤ i → ls[i]? = some filler → isBlankText filler = true) :
    Lawful ls ⟨.nextContentLine, .line none, n, ls.length⟩

namespace Call.Lawful

variable {ls : List (List Char)} {call : Call} {place : Nat} {line : List Char}

/-- No call moves the cursor back, or behind the last line. -/
theorem le (h : call.Lawful ls) : call.before ≤ call.after ∧ call.after ≤ ls.length := by
  cases h with
  | atEnd hle => exact ⟨Nat.le_refl _, hle⟩
  | nextLine hline =>
    obtain ⟨hlt, -⟩ := List.getElem?_eq_some_iff.mp hline
    exact ⟨Nat.le_succ _, hlt⟩
  | noLine => exact ⟨Nat.le_refl _, Nat.le_refl _⟩
  | nextContentLine hle hline =>
    obtain ⟨hlt, -⟩ := List.getElem?_eq_some_iff.mp hline
    exact ⟨Nat.le_succ_of_le hle, hlt⟩
  | noContentLine hle => exact ⟨hle, Nat.le_refl _⟩

/-- A line that is handed out stands between the positions before and after the call. -/
theorem between_of_place? (h : call.Lawful ls) (hplace : call.place? = some place) :
    call.before ≤ place ∧ place < call.after := by
  cases h with
  | atEnd => cases hplace
  | nextLine =>
    obtain rfl := Option.some.inj hplace
    exact ⟨Nat.le_refl _, Nat.lt_succ_self _⟩
  | noLine => cases hplace
  | nextContentLine hle =>
    obtain rfl := Option.some.inj hplace
    exact ⟨hle, Nat.lt_succ_self _⟩
  | noContentLine => cases hplace

/-- A line with content that the cursor passes in a call is the one handed out. -/
theorem place?_of_content (h : call.Lawful ls) (hbefore : call.before ≤ place)
    (hafter : place < call.after) (hline : ls[place]? = some line)
    (hcontent : isBlankText line = false) : call.place? = some place := by
  cases h with
  | atEnd => exact absurd hafter (Nat.not_lt.mpr hbefore)
  | nextLine =>
    obtain rfl := Nat.le_antisymm hbefore (Nat.le_of_lt_succ hafter)
    rfl
  | noLine => exact absurd hafter (Nat.not_lt.mpr hbefore)
  | nextContentLine _ _ _ hfiller =>
    rcases Nat.lt_or_eq_of_le (Nat.le_of_lt_succ hafter) with hlt | rfl
    · rw [hfiller place line hbefore hlt hline] at hcontent
      cases hcontent
    · rfl
  | noContentLine _ hfiller =>
    rw [hfiller place line hbefore hline] at hcontent
    cases hcontent

end Call.Lawful

/-- A cursor on some lines: the lines ahead are those from its position on. -/
structure On (ls : List (List Char)) (cursor : LineCursor) : Prop where
  position_le : cursor.position ≤ ls.length
  ahead_eq : cursor.ahead = ls.drop cursor.position

/-- A cursor starts on the lines that it is given. -/
theorem start_on (ls : List (List Char)) : (start ls).On ls :=
  ⟨Nat.zero_le _, rfl⟩

/-- Either some filler stands before the first line with content, or there is filler only. -/
theorem contentLine?_cases (ls : List (List Char)) :
    (contentLine? ls = none ∧ ∀ filler ∈ ls, isBlankText filler = true) ∨
      ∃ passed line rest, ls = passed ++ line :: rest ∧ contentLine? ls = some (trim line, rest) ∧
        isBlankText line = false ∧ ∀ filler ∈ passed, isBlankText filler = true := by
  induction ls with
  | nil => exact Or.inl ⟨rfl, List.forall_mem_nil _⟩
  | cons l ls ih =>
    rw [contentLine?]
    cases hl : isBlankText l with
    | false => exact Or.inr ⟨[], l, ls, rfl, rfl, hl, List.forall_mem_nil _⟩
    | true =>
      obtain ⟨hnone, hfiller⟩ | ⟨passed, line, rest, rfl, hsome, hcontent, hfiller⟩ := ih
      · exact Or.inl ⟨hnone, List.forall_mem_cons.mpr ⟨hl, hfiller⟩⟩
      · exact Or.inr ⟨l :: passed, line, rest, rfl, hsome, hcontent,
          List.forall_mem_cons.mpr ⟨hl, hfiller⟩⟩

/-- A call of a cursor on some lines is lawful, and leaves it on them. -/
theorem On.respond {ls : List (List Char)} {cursor : LineCursor} (h : cursor.On ls)
    (request : Request) :
    Call.Lawful ls
        ⟨request, (cursor.respond request).1, cursor.position,
          (cursor.respond request).2.position⟩ ∧
      (cursor.respond request).2.On ls := by
  obtain ⟨n, ahead⟩ := cursor
  obtain ⟨hle : n ≤ ls.length, rfl : ahead = ls.drop n⟩ := h
  have hplace (i : Nat) : ls[n + i]? = (ls.drop n)[i]? := List.getElem?_drop.symm
  cases request with
  | atEnd =>
    have hend : (ls.drop n).isEmpty = decide (n = ls.length) := by
      rw [Bool.eq_iff_iff, List.isEmpty_iff, List.drop_eq_nil_iff, decide_eq_true_iff]
      omega
    refine ⟨?_, hle, rfl⟩
    rw [LineCursor.respond, LineCursor.atEnd, hend]
    exact .atEnd hle
  | nextLine =>
    cases hahead : ls.drop n with
    | nil =>
      obtain rfl : n = ls.length := Nat.le_antisymm hle (List.drop_eq_nil_iff.mp hahead)
      exact ⟨.noLine, hle, hahead.symm⟩
    | cons line rest =>
      have hline : ls[n]? = some line := by
        rw [← Nat.add_zero n, hplace, hahead]
        rfl
      obtain ⟨hlt, -⟩ := List.getElem?_eq_some_iff.mp hline
      refine ⟨.nextLine hline, hlt, ?_⟩
      show rest = ls.drop (n + 1)
      rw [← List.drop_drop, hahead]
      rfl
  | nextContentLine =>
    rw [LineCursor.respond, nextContentLine]
    obtain ⟨hnone, hfiller⟩ | ⟨passed, line, rest, hahead, hsome, hcontent, hfiller⟩ :=
      contentLine?_cases (ls.drop n)
    · have hend : n + (ls.drop n).length = ls.length := by
        rw [List.length_drop]
        omega
      rw [hnone]
      dsimp only
      rw [hend]
      refine ⟨.noContentLine hle fun i filler hi hline => ?_, Nat.le_refl _, ?_⟩
      · rw [← Nat.add_sub_of_le hi, hplace] at hline
        exact hfiller filler (List.mem_of_getElem? hline)
      · exact List.drop_length.symm
    · have hpassed : n + ((ls.drop n).length - rest.length) = n + passed.length + 1 := by
        rw [hahead, List.length_append, List.length_cons]
        omega
      have hline : ls[n + passed.length]? = some line := by
        rw [hplace, hahead, List.getElem?_append_right (Nat.le_refl _), Nat.sub_self]
        rfl
      obtain ⟨hlt, -⟩ := List.getElem?_eq_some_iff.mp hline
      rw [hsome]
      dsimp only
      rw [hpassed]
      refine ⟨.nextContentLine (Nat.le_add_right _ _) hline hcontent
        fun i filler hi hlt hline => ?_, hlt, ?_⟩
      · have hlength : i - n < passed.length := by omega
        rw [← Nat.add_sub_of_le hi, hplace, hahead, List.getElem?_append_left hlength] at hline
        exact hfiller filler (List.mem_of_getElem? hline)
      · show rest = ls.drop (n + passed.length + 1)
        rw [Nat.add_assoc, ← List.drop_drop, hahead, List.drop_append, Nat.add_sub_cancel_left]
        simp

/-! ## Calls one after another -/

/-- The places of the lines that calls hand out. -/
def places (made : List Call) : List Nat :=
  made.filterMap Call.place?

/-- The calls that some requests lead to, on the given lines and from a position on: each is lawful and
begins where the one before it ended; the lines that they hand out are passed in order, none twice; and
all that is passed besides is filler. -/
structure Traverse (ls : List (List Char)) (position : Nat) (requests : List Request)
    (made : List Call) : Prop where
  requests_eq : made.map Call.request = requests
  lawful : ∀ call ∈ made, call.Lawful ls
  first : ∀ call ∈ made.head?, call.before = position
  chained : made.IsChain fun call next => next.before = call.after
  within : ∀ call ∈ made, position ≤ call.before ∧ call.before ≤ call.after ∧
    call.after ≤ ls.length
  increasing : (places made).Pairwise (· < ·)
  complete : ∀ place line, position ≤ place → (∃ call ∈ made, place < call.after) →
    ls[place]? = some line → isBlankText line = false → place ∈ places made

/-- A lawful call in front of calls that begin where it ends makes a lawful traversal with them. -/
theorem Traverse.cons {ls : List (List Char)} {requests : List Request} {made : List Call} {call : Call}
    (h : Traverse ls call.after requests made) (hcall : call.Lawful ls) :
    Traverse ls call.before (call.request :: requests) (call :: made) where
  requests_eq := congrArg (call.request :: ·) h.requests_eq
  lawful := List.forall_mem_cons.mpr ⟨hcall, h.lawful⟩
  first other hother := congrArg Call.before (Option.some.inj hother).symm
  chained := List.isChain_cons.mpr ⟨h.first, h.chained⟩
  within := by
    refine List.forall_mem_cons.mpr ⟨⟨Nat.le_refl _, hcall.le⟩, fun other hother => ?_⟩
    have hother := h.within other hother
    exact ⟨Nat.le_trans hcall.le.1 hother.1, hother.2⟩
  increasing := by
    rw [places, List.filterMap_cons]
    split
    · exact h.increasing
    · next place hplace =>
      refine List.pairwise_cons.mpr ⟨fun later hlater => ?_, h.increasing⟩
      -- what is handed out later stands behind the end of this call
      obtain ⟨other, hother, hlater⟩ := List.mem_filterMap.mp hlater
      have hend := (hcall.between_of_place? hplace).2
      have hbegin := ((h.lawful other hother).between_of_place? hlater).1
      exact Nat.lt_of_lt_of_le hend (Nat.le_trans (h.within other hother).1 hbegin)
  complete place line hposition hpassed hline hcontent := by
    rcases Nat.lt_or_ge place call.after with hlt | hge
    · exact List.mem_filterMap.mpr ⟨call, List.mem_cons_self,
        hcall.place?_of_content hposition hlt hline hcontent⟩
    · obtain ⟨other, hother, hlt⟩ := hpassed
      have hother : other ∈ made := by
        rcases List.mem_cons.mp hother with rfl | hmem
        · exact absurd hlt (Nat.not_lt.mpr hge)
        · exact hmem
      obtain ⟨later, hlater, hplace⟩ := List.mem_filterMap.mp
        (h.complete place line hge ⟨other, hother, hlt⟩ hline hcontent)
      exact List.mem_filterMap.mpr ⟨later, List.mem_cons_of_mem call hlater, hplace⟩

/-- A cursor on some lines answers calls in any order and passes over no line with content. -/
theorem On.traverse {ls : List (List Char)} {cursor : LineCursor} (h : cursor.On ls)
    (requests : List Request) : Traverse ls cursor.position requests (cursor.calls requests) := by
  induction requests generalizing cursor with
  | nil =>
    exact ⟨rfl, List.forall_mem_nil _, fun call hcall => (by cases hcall), List.isChain_nil,
      List.forall_mem_nil _, List.Pairwise.nil, fun _ _ _ ⟨_, hcall, _⟩ => (by cases hcall)⟩
  | cons request requests ih =>
    obtain ⟨hlawful, hon⟩ := h.respond request
    exact Traverse.cons (ih hon) hlawful

/-- Whatever a cursor is asked, and in whatever order: from the first line on every line is handed out
at most once, in order, and only filler is passed over. -/
theorem calls_traverse (ls : List (List Char)) (requests : List Request) :
    Traverse ls 0 requests ((start ls).calls requests) :=
  (start_on ls).traverse requests

end LineCursor

end ClarityDelta.Verification
