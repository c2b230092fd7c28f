import ClarityDelta.Proofs.Text.Lines
import ClarityDelta.Proofs.Verification.Sites

/-!
# Reading a text in pieces

A reader that is given a text piece by piece ends as if it were given the whole text at once,
`readText_append`. The main loop and the search for titles and codes go through the same lines, so a
piece must not end between a violated property and its code. That is all: where the reader stands, what
it has read before and whether a number stops it do not matter.
-/

namespace ClarityDelta.Verification

open Text

namespace CounterexampleReader

variable {reader : CounterexampleReader} {ls : List (List Char)}

/-- Every violated property that the reader acts on has its title and its code in the given lines. -/
def Complete (reader : CounterexampleReader) (ls : List (List Char)) : Prop :=
  ∀ site : Site reader ls, 2 ≤ (contents site.behind).length

/-- It is enough that no announcement of a violated property lacks its title or its code, whether the
reader acts on it or not. -/
theorem complete_of_forall
    (h : ∀ n < ls.length, IsViolation (ls[n]?.getD []) → 2 ≤ (contents (ls.drop (n + 1))).length) :
    Complete reader ls := by
  rintro ⟨before, violation, behind, after, rfl, -, -, hviolation, -⟩
  have hsite := h before.length (by simp)
  rw [List.getElem?_append_right (Nat.le_refl _), Nat.sub_self] at hsite
  have hbehind : (before ++ violation :: behind).drop (before.length + 1) = behind := by simp
  rw [hbehind] at hsite
  exact hsite hviolation

/-- What follows the lines that bring a reader elsewhere is complete for the reader that it is then. -/
theorem Complete.of_append {next : CounterexampleReader} {passed : List (List Char)}
    (h : Complete reader (passed ++ ls))
    (hpass : ∀ more, reader.read (passed ++ more) = next.read more) : Complete next ls :=
  fun site => h (site.behindLines hpass)

/-- Lines that are complete are read for themselves, and the lines behind them from there on. -/
theorem read_append_of_complete (h : Complete reader ls) (more : List (List Char)) :
    reader.read (ls ++ more) = match reader.read ls with
      | (after, none) => after.read more
      | stopped => stopped := by
  induction reader, ls using read_induction with
  | nil reader => rw [read_nil, List.nil_append]
  | stop reader l rest long hstop => rw [List.cons_append, hstop, hstop]
  | pass reader next l rest hpass hrecords ih =>
    have hpassed : ∀ more, reader.read ([l] ++ more) = next.read more := hpass
    rw [List.cons_append, hpass, hpass, ih (h.of_append hpassed)]
  | violation reader l rest hopen hviolation hstate ih =>
    -- title and code are among the lines, so the search for them ends before what is behind
    have hcontents : 2 ≤ (contents rest).length := h (Site.here hopen hviolation hstate)
    obtain ⟨passed, hlines, hpassed⟩ :=
      exists_read_append_of_isViolation hopen hviolation hstate hcontents
    rw [hlines] at h ⊢
    rw [List.append_assoc, hpassed, hpassed, ih (h.of_append hpassed)]

/-- A text that is read in two pieces leaves the reader as the whole text does, if in the first piece
no title or code is missing. A reader that is stopped in the first piece is stopped there in the whole
text as well. -/
theorem readText_append (reader : CounterexampleReader) (front behind : String)
    (h : Complete reader (lines front.toList)) :
    reader.readText (front ++ "\n" ++ behind) = match reader.readText front with
      | (after, none) => after.readText behind
      | stopped => stopped := by
  have hlines : lines (front ++ "\n" ++ behind).toList =
      lines front.toList ++ lines behind.toList := by
    rw [String.toList_append, String.toList_append, List.append_assoc]
    exact lines_append_newline front.toList behind.toList
  rw [readText, hlines]
  exact read_append_of_complete h _

/-- The first piece makes a record and ends inside the next counterexample, behind its state line. -/
theorem readText_append_insideBlock :
    let front := "[Counterexample]\nState 1 file a.clar line 3 function f thread 0\n" ++
      "Violated property:\n\nassertion\n(ok u1)\n[Counterexample]\n" ++
      "State 2 file a.clar line 9 function g thread 0"
    let behind := "Violated property:\ndivision by zero\n(/ u1 u0)"
    Complete start (lines front.toList) ∧
      start.readText (front ++ "\n" ++ behind) = (start.readText front).1.readText behind ∧
      start.readText (front ++ "\n" ++ behind) =
        (⟨.scanning, some 9, some "g", [⟨"f", 3, "assertion", "(ok u1)"⟩,
          ⟨"g", 9, "division by zero", "(/ u1 u0)"⟩]⟩, none) := by
  intro front behind
  have hcomplete : Complete start (lines front.toList) :=
    complete_of_forall (by decide +kernel)
  have hread : start.readText front =
      (⟨.inCounterexample, some 9, some "g", [⟨"f", 3, "assertion", "(ok u1)"⟩]⟩, none) := by
    decide +kernel
  have hwhole := readText_append start front behind hcomplete
  rw [hread] at hwhole ⊢
  refine ⟨hcomplete, hwhole, hwhole.trans ?_⟩
  decide +kernel

end CounterexampleReader

end ClarityDelta.Verification
