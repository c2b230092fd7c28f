import Mathlib.Order.WellFounded
import ClarityDelta.Proofs.Text.Run
import ClarityDelta.Source.Header

/-!
# Where a header stands in a line

`Header.find?` looks for a header character by character. Here it is said without a search what it
is for a header to stand in a line (`Header.Match`) and to be the leftmost one there, and the
search is proved to find exactly that: `find?_eq_some_iff` and `find?_eq_none_iff`.
-/

namespace ClarityDelta.Source

open Text

/-- No kind's name begins another one's, so a text cannot begin with two of them. -/
theorem FunctionKind.eq_of_append_eq {kind kind' : FunctionKind} {rest rest' : List Char}
    (h : kind.name.toList ++ rest = kind'.name.toList ++ rest') : kind = kind' := by
  cases kind <;> cases kind' <;> simp_all [FunctionKind.name]

/-- Every kind of function is listed. -/
theorem FunctionKind.mem_all (kind : FunctionKind) : kind ∈ all := by
  cases kind <;> decide

namespace Header

/-- A place of a line where a header stands: what is before it, its kind, the blanks after the
kind, the signature as far as the line shows it, and what is behind. The signature goes as far as
it can. -/
structure Match (line : List Char) where
  before : List Char
  kind : FunctionKind
  blanks : List Char
  signature : List Char
  behind : List Char
  line_eq : line = before ++ ("(define-".toList ++
    (kind.name.toList ++ (blanks ++ '(' :: (signature ++ behind))))
  blanks_ne_nil : blanks ≠ []
  isBlank_of_mem : ∀ c ∈ blanks, isBlank c = true
  signature_ne_nil : signature ≠ []
  not_mem_signature : ')' ∉ signature
  eq_of_mem_head? : ∀ c ∈ behind.head?, c = ')'

namespace Match

variable {line : List Char}

/-- The header that stands there: the name is the first word of the signature. -/
def header (m : Match line) : Header :=
  ⟨m.kind, String.ofList (firstWord m.signature)⟩

/-- The line from the parenthesis on that opens the header. -/
def text (m : Match line) : List Char :=
  line.drop m.before.length

/-- What follows the parenthesis that opens the header. -/
def inside (m : Match line) : List Char :=
  line.drop (m.before.length + 1)

/-- No header of the line begins further to the left. -/
def Leftmost (m : Match line) : Prop :=
  ∀ m' : Match line, m.before.length ≤ m'.before.length

/-- A header begins with a parenthesis. -/
theorem text_eq (m : Match line) : m.text = '(' :: m.inside := by
  obtain ⟨before, kind, blanks, signature, behind, rfl, -⟩ := m
  rw [text, inside, ← List.drop_drop, List.drop_left]
  rfl

/-- A header stays one when a character is put in front of the line. -/
def cons (c : Char) (m : Match line) : Match (c :: line) :=
  { m with before := c :: m.before, line_eq := congrArg (c :: ·) m.line_eq }

/-- A header that does not begin the line is one of the line without its first character. -/
theorem exists_eq_cons {c : Char} (m : Match (c :: line)) (hm : m.before ≠ []) :
    ∃ m' : Match line, m = m'.cons c := by
  obtain ⟨before, kind, blanks, signature, behind, hline, h₁, h₂, h₃, h₄, h₅⟩ := m
  cases before with
  | nil => exact absurd rfl hm
  | cons b before =>
    obtain ⟨rfl, hrest⟩ := List.cons.inj hline
    exact ⟨⟨before, kind, blanks, signature, behind, hrest, h₁, h₂, h₃, h₄, h₅⟩, rfl⟩

end Match

/-- The signature ends before the first closing parenthesis or with the text. -/
theorem signature?_eq_some_iff {cs signature : List Char} :
    signature? cs = some signature ↔
      ∃ behind, signature ≠ [] ∧ cs = signature ++ behind ∧ ')' ∉ signature ∧
        ∀ c ∈ behind.head?, c = ')' := by
  have hrun : signature? cs = some signature ↔
      signature ≠ [] ∧ cs.takeWhile (· ≠ ')') = signature := by
    rw [signature?]
    split
    · next h =>
      rw [h]
      exact ⟨fun hsome => by simp at hsome, fun hcut => absurd hcut.2.symm hcut.1⟩
    · next h =>
      rw [Option.some.injEq, h]
      exact ⟨fun heq => ⟨heq ▸ List.cons_ne_nil _ _, heq⟩, And.right⟩
  have hcut (behind : List Char) :
      (cs.takeWhile (· ≠ ')') = signature ∧ cs.dropWhile (· ≠ ')') = behind) ↔ _ :=
    takeWhile_dropWhile_iff
  have hmem : (∀ c ∈ signature, decide (c ≠ ')') = true) ↔ ')' ∉ signature := by
    simp only [decide_eq_true_eq]
    exact ⟨fun h hc => h _ hc rfl, fun h c hc heq => h (heq ▸ hc)⟩
  rw [hrun]
  constructor
  · rintro ⟨hne, h⟩
    obtain ⟨heq, hsig, hbehind⟩ := (hcut _).1 ⟨h, rfl⟩
    exact ⟨_, hne, heq, hmem.1 hsig, by simpa using hbehind⟩
  · rintro ⟨behind, hne, heq, hsig, hbehind⟩
    exact ⟨hne, ((hcut behind).2 ⟨heq, hmem.2 hsig, by simpa using hbehind⟩).1⟩

/-- A header of some kind begins a text exactly when a match does whose kind it is. -/
theorem ofKind?_eq_some_iff {kind : FunctionKind} {cs : List Char} {header : Header} :
    ofKind? kind cs = some header ↔
      ∃ m : Match ("(define-".toList ++ cs), m.before = [] ∧ m.kind = kind ∧ m.header = header := by
  simp only [ofKind?, Option.bind_eq_bind, Option.bind_eq_some_iff, after?_eq_some_iff,
    afterBlanks?_eq_some_iff, signature?_eq_some_iff, Option.pure_def, Option.some.injEq]
  constructor
  · rintro ⟨_, rfl, _, ⟨blanks, hne, rfl, hblank, -⟩, _, rfl, signature,
      ⟨behind, hsig, rfl, hnot, hbehind⟩, rfl⟩
    exact ⟨⟨[], kind, blanks, signature, behind, by simp, hne, hblank, hsig, hnot, hbehind⟩, rfl,
      rfl, rfl⟩
  · rintro ⟨⟨before, kind, blanks, signature, behind, hline, hne, hblank, hsig, hnot, hbehind⟩,
      rfl, rfl, rfl⟩
    refine ⟨_, List.append_cancel_left hline, _, ⟨blanks, hne, rfl, hblank, ?_⟩, _, rfl, signature,
      ⟨behind, hsig, rfl, hnot, hbehind⟩, rfl⟩
    intro c hc
    obtain rfl : '(' = c := by simpa using hc
    decide

/-- A header begins a text exactly when a match does. -/
theorem here?_eq_some_iff {cs : List Char} {header : Header} :
    here? cs = some header ↔ ∃ m : Match cs, m.before = [] ∧ m.header = header := by
  simp only [here?, Option.bind_eq_bind, Option.bind_eq_some_iff, after?_eq_some_iff]
  constructor
  · rintro ⟨cs, rfl, h⟩
    obtain ⟨kind, -, h⟩ := List.exists_of_findSome?_eq_some h
    obtain ⟨m, hm, -, rfl⟩ := ofKind?_eq_some_iff.1 h
    exact ⟨m, hm, rfl⟩
  · rintro ⟨m, hm, rfl⟩
    obtain ⟨cs, rfl⟩ : ∃ rest, cs = "(define-".toList ++ rest := by
      have hline := m.line_eq
      rw [hm, List.nil_append] at hline
      exact ⟨_, hline⟩
    refine ⟨cs, rfl, ?_⟩
    have hkind : ofKind? m.kind cs = some m.header := ofKind?_eq_some_iff.2 ⟨m, hm, rfl, rfl⟩
    cases hfind : FunctionKind.all.findSome? (ofKind? · cs) with
    | none => simpa [hkind] using List.findSome?_eq_none_iff.1 hfind m.kind m.kind.mem_all
    | some header =>
      -- the search may have stopped at another kind, but the text begins with one kind only
      obtain ⟨kind, -, h⟩ := List.exists_of_findSome?_eq_some hfind
      obtain ⟨m', hm', hkind', rfl⟩ := ofKind?_eq_some_iff.1 h
      have hline := m'.line_eq.symm.trans m.line_eq
      rw [hm, hm'] at hline
      have hsame : m'.kind = m.kind := FunctionKind.eq_of_append_eq
        (List.append_cancel_left (List.append_cancel_left hline))
      rw [← hkind, ← h, ← hkind', hsame]

/-- A line with a header is not empty. -/
theorem Match.ne_nil {line : List Char} (m : Match line) : line ≠ [] := by
  intro hnil
  have hline := hnil.symm.trans m.line_eq
  simp at hline

/-- Where no header begins the line, the headers of the line are those of the rest. -/
theorem Match.leftmost_cons_iff {c : Char} {line : List Char} (hhere : here? (c :: line) = none)
    (m : Match line) : (m.cons c).Leftmost ↔ m.Leftmost := by
  constructor
  · intro hleft m'
    exact Nat.le_of_succ_le_succ (hleft (m'.cons c))
  · intro hleft m'
    have hm' : m'.before ≠ [] := by
      intro hnil
      rw [here?_eq_some_iff.2 ⟨m', hnil, rfl⟩] at hhere
      exact Option.some_ne_none _ hhere
    obtain ⟨m', rfl⟩ := m'.exists_eq_cons hm'
    exact Nat.succ_le_succ (hleft m')

/-- The search finds the leftmost header, and what follows the parenthesis that opens it. -/
theorem find?_eq_some_iff {line inside : List Char} {header : Header} :
    find? line = some (header, inside) ↔
      ∃ m : Match line, m.Leftmost ∧ m.header = header ∧ m.inside = inside := by
  induction line with
  | nil =>
    constructor
    · intro h
      simp [find?] at h
    · rintro ⟨m, -⟩
      exact absurd rfl m.ne_nil
  | cons c line ih =>
    rw [find?]
    cases hhere : here? (c :: line) with
    | some header' =>
      -- a header begins the line, so nothing is further to the left
      obtain ⟨m₀, hm₀, rfl⟩ := here?_eq_some_iff.1 hhere
      constructor
      · intro h
        obtain ⟨rfl, rfl⟩ := Prod.mk.inj (Option.some.inj h)
        refine ⟨m₀, fun m' => ?_, rfl, ?_⟩
        · rw [hm₀]
          exact Nat.zero_le _
        · rw [Match.inside, hm₀]
          rfl
      · rintro ⟨m, hleft, rfl, rfl⟩
        have hm : m.before = [] := by
          have hle := hleft m₀
          rw [hm₀] at hle
          exact List.eq_nil_of_length_eq_zero (Nat.le_zero.1 hle)
        have hsame : m₀.header = m.header := by
          rw [← Option.some.injEq, ← hhere, here?_eq_some_iff.2 ⟨m, hm, rfl⟩]
        rw [hsame, Match.inside, hm]
        rfl
    | none =>
      simp only [ih]
      constructor
      · rintro ⟨m, hleft, rfl, rfl⟩
        exact ⟨m.cons c, (m.leftmost_cons_iff hhere).2 hleft, rfl, rfl⟩
      · rintro ⟨m, hleft, rfl, rfl⟩
        have hm : m.before ≠ [] := by
          intro hnil
          rw [here?_eq_some_iff.2 ⟨m, hnil, rfl⟩] at hhere
          exact Option.some_ne_none _ hhere
        obtain ⟨m, rfl⟩ := m.exists_eq_cons hm
        exact ⟨m, (m.leftmost_cons_iff hhere).1 hleft, rfl, rfl⟩

/-- Of several headers in a line one is the leftmost. -/
theorem Match.exists_leftmost {line : List Char} (m : Match line) :
    ∃ m' : Match line, m'.Leftmost := by
  obtain ⟨m', -, hmin⟩ :=
    (measure fun m' : Match line => m'.before.length).wf.has_min Set.univ ⟨m, trivial⟩
  exact ⟨m', fun m'' => Nat.le_of_not_lt (hmin m'' trivial)⟩

/-- The search finds nothing only where no header stands. -/
theorem find?_eq_none_iff {line : List Char} : find? line = none ↔ IsEmpty (Match line) := by
  constructor
  · refine fun h => ⟨fun m => ?_⟩
    obtain ⟨m', hleft⟩ := m.exists_leftmost
    rw [find?_eq_some_iff.2 ⟨m', hleft, rfl, rfl⟩] at h
    exact Option.some_ne_none _ h
  · intro h
    rw [Option.eq_none_iff_forall_ne_some]
    rintro ⟨header, inside⟩ hsome
    obtain ⟨m, -⟩ := find?_eq_some_iff.1 hsome
    exact h.elim m

end Header

end ClarityDelta.Source
