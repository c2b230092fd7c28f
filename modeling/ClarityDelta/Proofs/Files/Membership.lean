import Mathlib.Logic.Relation
import ClarityDelta.Files.Membership
import ClarityDelta.Proofs.Files.Path

/-!
# Which files lie under a directory

A text names a location: its components, seen from the current directory if the text does not begin
with a slash, are shortened until no `..` is left. `Names` says this without saying where to begin;
`names_iff` says that there is one such location, the one that is computed.

A file lies under a directory when the components of the directory are the first ones of the file.
The answer is read off the way from the one to the other, and that way begins with two points in two
cases: when it leads out of the directory (`exists_wayBetween_eq`), and when it enters something whose
name begins with two points. So `membership_iff_prefix` has both conditions, and the second one is no part of
lying under a directory: `membership_pointedName`.
-/

namespace ClarityDelta.Files

open Text Relation

/-! ## The location that a path names -/

/-- A step from the components of an absolute path to a location: a component goes away together with
the `..` behind it, and a `..` at the root goes away alone. -/
inductive Shortens : List String → List String → Prop where
  | back {part : String} (hpart : part ≠ "..") (front behind : List String) :
      Shortens (front ++ part :: ".." :: behind) (front ++ behind)
  | root (behind : List String) : Shortens (".." :: behind) behind

/-- The components of a path from the root on, before anything is shortened. -/
def componentsFrom (current : Location) (s : String) : List String :=
  (if startsWith ['/'] s.toList then [] else current) ++ components s

/-- A path's text names the location that its components are shortened to. -/
structure Names (current : Location) (s : String) (location : Location) : Prop where
  shortened : ReflTransGen Shortens (componentsFrom current s) location
  no_parent : ".." ∉ location

/-- What is shortened leads to the same place. -/
theorem Shortens.follow_eq {parts shorter : List String} (h : Shortens parts shorter) :
    follow [] parts = follow [] shorter := by
  cases h with
  | @back part hpart front behind =>
    have hback : ∀ location, follow location (part :: ".." :: behind) = follow location behind := by
      intro location
      rw [follow, List.foldl_cons, List.foldl_cons, if_neg hpart, if_pos rfl,
        List.dropLast_concat]
      rfl
    rw [follow_append, follow_append, hback]
  | root behind => rfl

/-- Parts that are shortened by going up lead to the same location from the root. -/
theorem follow_eq_of_shortened {parts shorter : List String}
    (h : ReflTransGen Shortens parts shorter) : follow [] parts = follow [] shorter := by
  induction h with
  | refl => rfl
  | tail _ hstep ih => exact ih.trans hstep.follow_eq

/-- Following components is a way of shortening them. -/
theorem shortened_follow (parts : List String) {start : Location} (hstart : ".." ∉ start) :
    ReflTransGen Shortens (start ++ parts) (follow start parts) := by
  induction parts generalizing start with
  | nil =>
    rw [List.append_nil]
    exact ReflTransGen.refl
  | cons part parts ih =>
    rw [follow, List.foldl_cons, ← follow]
    by_cases hup : part = ".."
    · subst hup
      rw [if_pos rfl]
      rcases List.eq_nil_or_concat start with rfl | ⟨front, last, rfl⟩
      · exact ReflTransGen.head (Shortens.root parts) (ih hstart)
      · rw [List.concat_eq_append] at hstart ⊢
        rw [List.mem_append, not_or, List.mem_singleton] at hstart
        rw [List.append_assoc, List.singleton_append, List.dropLast_concat]
        exact ReflTransGen.head (Shortens.back (Ne.symm hstart.2) front parts) (ih hstart.1)
    · have hnext : ".." ∉ start ++ [part] := by
        rw [List.mem_append, not_or, List.mem_singleton]
        exact ⟨hstart, Ne.symm hup⟩
      rw [if_neg hup, ← List.singleton_append, ← List.append_assoc]
      exact ih hnext

/-- A path names the location that its components lead to. -/
theorem locate_eq_follow (current : Location) (s : String) :
    locate current s =
      follow (if startsWith ['/'] s.toList then [] else current) (components s) := by
  rw [locate, Path.isEmpty_rootOf]
  cases startsWith ['/'] s.toList <;> rfl

/-- A path's text names one location, the one that is computed. -/
theorem names_iff {current : Location} (hcurrent : ".." ∉ current) {s : String}
    {location : Location} : Names current s location ↔ location = locate current s := by
  have hstart : ".." ∉ (if startsWith ['/'] s.toList then [] else current : Location) := by
    split
    · exact List.not_mem_nil
    · exact hcurrent
  rw [locate_eq_follow]
  constructor
  · intro h
    have hsame := follow_eq_of_shortened h.shortened
    rw [follow_of_notMem h.no_parent, List.nil_append, componentsFrom, follow_append,
      follow_of_notMem hstart, List.nil_append] at hsame
    exact hsame.symm
  · rintro rfl
    refine ⟨shortened_follow (components s) hstart, fun hup => ?_⟩
    rcases mem_follow hup with hmem | ⟨-, hne⟩
    · exact hstart hmem
    · exact hne rfl

/-! ## The way from a directory to a file -/

/-- The way to what is below a directory goes down only. -/
theorem wayBetween_append (directory rest : Location) :
    wayBetween directory (directory ++ rest) = rest := by
  induction directory with
  | nil => cases rest <;> rfl
  | cons part directory ih => rw [List.cons_append, wayBetween, if_pos rfl, ih]

/-- The way to what is not under a directory leads out of it first. -/
theorem exists_wayBetween_eq {directory file : Location} (h : ¬ directory <+: file) :
    ∃ way, wayBetween directory file = ".." :: way := by
  induction directory generalizing file with
  | nil => exact absurd List.nil_prefix h
  | cons part directory ih =>
    cases file with
    | nil => exact ⟨_, rfl⟩
    | cons first file =>
      rw [wayBetween]
      by_cases hsame : part = first
      · subst hsame
        rw [if_pos rfl]
        exact ih fun hprefix => h (List.cons_prefix_cons.mpr ⟨rfl, hprefix⟩)
      · rw [if_neg hsame]
        exact ⟨_, rfl⟩

/-- A file is taken to lie under a directory when its location begins with that of the directory and
the component behind does not begin with two points. -/
theorem isUnder_iff (current : Location) (file directory : String) :
    isUnder current file directory = true ↔
      locate current directory <+: locate current file ∧
        ∀ part ∈ (locate current file)[(locate current directory).length]?,
          ¬ ['.', '.'] <+: part.toList := by
  generalize hd : locate current directory = d
  generalize hf : locate current file = f
  rw [isUnder, hd, hf]
  by_cases hprefix : d <+: f
  · obtain ⟨rest, rfl⟩ := hprefix
    rw [wayBetween_append, List.getElem?_append_right (Nat.le_refl _), Nat.sub_self]
    cases rest with
    | nil => simp
    | cons part rest => simp [← startsWith_iff]
  · obtain ⟨way, hway⟩ := exists_wayBetween_eq hprefix
    rw [hway]
    constructor
    · intro h
      cases h
    · rintro ⟨h, -⟩
      exact absurd h hprefix

/-- Both paths name one location each. A file that is named is taken to lie under a directory exactly
when the components of the directory are the first ones of the file, and the component of the file
that comes next, if there is one, does not begin with two points. -/
theorem membership_iff_prefix {current : Location} (hcurrent : ".." ∉ current) {file : String}
    (hfile : file ≠ "") (directory : String) :
    ∃ f d, (∀ location, Names current file location ↔ location = f) ∧
      (∀ location, Names current directory location ↔ location = d) ∧
      ∃ answer, isUnder? current file directory = some answer ∧
        (answer = true ↔ d <+: f ∧ ∀ part ∈ f[d.length]?, ¬ ['.', '.'] <+: part.toList) := by
  refine ⟨locate current file, locate current directory, fun _ => names_iff hcurrent,
    fun _ => names_iff hcurrent, isUnder current file directory, ?_,
    isUnder_iff current file directory⟩
  rw [isUnder?, if_neg (by rwa [String.isEmpty_iff])]

/-- A file and a directory that are written in other ways than their locations are told by the
locations. -/
theorem membership_iff_prefix_roundabout :
    ".." ∉ ["home", "me"] ∧ "../me/.//a..b/x/..//c.clar" ≠ "" ∧
      isUnder? ["home", "me"] "../me/.//a..b/x/..//c.clar" "/home/me/a..b/" = some true ∧
      isUnder? ["home", "me"] "../me/.//a..b/x/..//c.clar" "a" = some false := by
  have hcurrent : ".." ∉ ["home", "me"] := by decide
  have hfile : "../me/.//a..b/x/..//c.clar" ≠ "" := by decide
  refine ⟨hcurrent, hfile, ?_, ?_⟩
  · obtain ⟨f, d, hf, hd, answer, hanswer, hiff⟩ := membership_iff_prefix hcurrent hfile "/home/me/a..b/"
    obtain rfl := (hf _).mp ((names_iff hcurrent).mpr rfl)
    obtain rfl := (hd _).mp ((names_iff hcurrent).mpr rfl)
    rw [hanswer, hiff.mpr (by decide +kernel)]
  · obtain ⟨f, d, hf, hd, answer, hanswer, hiff⟩ := membership_iff_prefix hcurrent hfile "a"
    obtain rfl := (hf _).mp ((names_iff hcurrent).mpr rfl)
    obtain rfl := (hd _).mp ((names_iff hcurrent).mpr rfl)
    cases answer with
    | false => exact hanswer
    | true => exact absurd (hiff.mp rfl) (by decide +kernel)

/-- What is named with two points in front lies under its directory, and is taken not to. -/
theorem membership_pointedName :
    Names ["home"] "..lib/token.clar" ["home", "..lib", "token.clar"] ∧
      Names ["home"] "." ["home"] ∧ ["home"] <+: ["home", "..lib", "token.clar"] ∧
      isUnder? ["home"] "..lib/token.clar" "." = some false := by
  have hcurrent : ".." ∉ ["home"] := by decide
  refine ⟨(names_iff hcurrent).mpr ?_, (names_iff hcurrent).mpr ?_, by decide, ?_⟩
  · decide +kernel
  · decide +kernel
  · decide +kernel

end ClarityDelta.Files
