import ClarityDelta.Container.Checker
import ClarityDelta.Proofs.Text.ShellWords

/-!
# The switches of the checker

Two lines of switches are made one text, which is cut into words when the checker is called. Both are
trimmed first, so what is called with is the words of the trimmed lines, those of the baseline in
front: `arguments_resolveFlags`. Trimming knows more blanks than the cutting into words does, and a
word can end with one of them; then the line itself has other words (`arguments_noBreakSpace`). A
blank behind a backslash is trimmed too, and the backslash is left with nothing behind it.
-/

namespace ClarityDelta.Container

open Text Text.ShellWords Verification

/-- Lines that are both trimmed and put together have the words of both, an empty one leaving no
separator. -/
theorem split_resolveFlags {baseline overrides : String} {ws us : List String}
    (hbaseline : split (trimmed baseline) = .ok ws)
    (hoverrides : split (trimmed overrides) = .ok us) :
    split (resolveFlags baseline overrides) = .ok (ws ++ us) := by
  have hnone : split "" = .ok [] := rfl
  rw [resolveFlags]
  by_cases hb : trimmed baseline = ""
  · rw [hb, hnone] at hbaseline
    obtain rfl := Except.ok.inj hbaseline
    by_cases ho : trimmed overrides = ""
    · rw [ho, hnone] at hoverrides
      obtain rfl := Except.ok.inj hoverrides
      rw [hb, ho]
      rfl
    · simp [hb, ho, hoverrides]
  · by_cases ho : trimmed overrides = ""
    · rw [ho, hnone] at hoverrides
      obtain rfl := Except.ok.inj hoverrides
      simp [hb, ho, hbaseline]
    · have hboth : [trimmed baseline, trimmed overrides].filter (!·.isEmpty) =
          [trimmed baseline, trimmed overrides] := by
        simp [hb, ho]
      rw [hboth, String.intercalate_cons_cons, String.intercalate_singleton]
      exact split_append_separator hbaseline hoverrides

/-- The checker is called with the words of the baseline switches and, behind them, those of the
user's switches, each as they are when trimmed, if trimming does not leave a backslash with nothing
behind it. The words are those of the line itself exactly when nothing but separators is trimmed
away. -/
theorem arguments_resolveFlags {baseline overrides : String} {own own' : List String}
    (hbaseline : split baseline = .ok own) (hoverrides : split overrides = .ok own')
    (hescape : split (trimmed baseline) ≠ .error .unfinishedEscape)
    (hescape' : split (trimmed overrides) ≠ .error .unfinishedEscape)
    (file artifact function : String) :
    ∃ ws us, split (trimmed baseline) = .ok ws ∧ split (trimmed overrides) = .ok us ∧
      Checker.arguments file artifact function (resolveFlags baseline overrides) =
        .ok (["--clar", file, artifact, "--clar_contract", contractName file] ++ ws ++ us ++
          ["--function", function]) ∧
      (ws = own ↔ ∀ c ∈ trimmedOff baseline.toList, isSeparator c = true) ∧
      (us = own' ↔ ∀ c ∈ trimmedOff overrides.toList, isSeparator c = true) := by
  obtain ⟨ws, hws, hsame⟩ := exists_split_trimmed hbaseline hescape
  obtain ⟨us, hus, hsame'⟩ := exists_split_trimmed hoverrides hescape'
  refine ⟨ws, us, hws, hus, ?_, hsame, hsame'⟩
  rw [Checker.arguments, split_resolveFlags hws hus, List.append_assoc _ ws us]

/-- Blanks of all kinds around quoted and escaped ones separate words or stay in them, as the switches
say. -/
theorem arguments_resolveFlags_quoted :
    split "\t--label 'two  words' " = .ok ["--label", "two  words"] ∧
    split "\u2003a\\ b \"c\\\"d\"\n" = .ok ["\u2003a b", "c\"d"] ∧
    split (trimmed "\t--label 'two  words' ") ≠ .error .unfinishedEscape ∧
    split (trimmed "\u2003a\\ b \"c\\\"d\"\n") ≠ .error .unfinishedEscape ∧
    Checker.arguments "x/a.clar" "x/a.clarast" "f"
        (resolveFlags "\t--label 'two  words' " "\u2003a\\ b \"c\\\"d\"\n") =
      .ok ["--clar", "x/a.clar", "x/a.clarast", "--clar_contract", "a", "--label", "two  words",
        "a b", "c\"d", "--function", "f"] := by
  have hbaseline : split "\t--label 'two  words' " = .ok ["--label", "two  words"] := by
    decide +kernel
  have hoverrides : split "\u2003a\\ b \"c\\\"d\"\n" = .ok ["\u2003a b", "c\"d"] := by
    decide +kernel
  have htrimmed : split (trimmed "\t--label 'two  words' ") = .ok ["--label", "two  words"] := by
    decide +kernel
  have htrimmed' : split (trimmed "\u2003a\\ b \"c\\\"d\"\n") = .ok ["a b", "c\"d"] := by
    decide +kernel
  have hcontract : contractName "x/a.clar" = "a" := by decide +kernel
  have hescape : split (trimmed "\t--label 'two  words' ") ≠ .error .unfinishedEscape := by
    rw [htrimmed]
    nofun
  have hescape' :
      split (trimmed "\u2003a\\ b \"c\\\"d\"\n") ≠ .error .unfinishedEscape := by
    rw [htrimmed']
    nofun
  refine ⟨hbaseline, hoverrides, hescape, hescape', ?_⟩
  obtain ⟨ws, us, hws, hus, harguments, -, -⟩ :=
    arguments_resolveFlags hbaseline hoverrides hescape hescape' "x/a.clar" "x/a.clarast" "f"
  obtain rfl := Except.ok.inj (htrimmed.symm.trans hws)
  obtain rfl := Except.ok.inj (htrimmed'.symm.trans hus)
  rw [harguments, hcontract]
  rfl

/-- A baseline whose last word ends with a blank that is no separator loses this blank. Where a
backslash loses its blank, it takes the one in front of the user's switches instead. -/
theorem arguments_noBreakSpace :
    split "--label=a\u00a0" = .ok ["--label=a\u00a0"] ∧ split "--label=a\\ " = .ok ["--label=a "] ∧
    split "--verbose" = .ok ["--verbose"] ∧
    Checker.arguments "a.clar" "a.clarast" "f" (resolveFlags "--label=a\u00a0" "--verbose") ≠
      .ok (["--clar", "a.clar", "a.clarast", "--clar_contract", contractName "a.clar"] ++
        ["--label=a\u00a0"] ++ ["--verbose"] ++ ["--function", "f"]) ∧
    Checker.arguments "a.clar" "a.clarast" "f" (resolveFlags "--label=a\\ " "--verbose") ≠
      .ok (["--clar", "a.clar", "a.clarast", "--clar_contract", contractName "a.clar"] ++
        ["--label=a "] ++ ["--verbose"] ++ ["--function", "f"]) := by
  refine ⟨by decide +kernel, by decide +kernel, by decide +kernel, ?_, ?_⟩
  · have hflags : split (resolveFlags "--label=a\u00a0" "--verbose") =
        .ok ["--label=a", "--verbose"] := by
      decide +kernel
    rw [Checker.arguments, hflags]
    intro heq
    have hwords := Except.ok.inj heq
    simp at hwords
  · have hflags : split (resolveFlags "--label=a\\ " "--verbose") = .ok ["--label=a --verbose"] := by
      decide +kernel
    rw [Checker.arguments, hflags]
    intro heq
    have hwords := Except.ok.inj heq
    simp at hwords

end ClarityDelta.Container
