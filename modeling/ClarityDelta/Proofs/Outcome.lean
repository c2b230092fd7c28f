/-!
# Steps that may fail

A reading in two steps, and a reading of every item of a list: where it fails, what its results come from,
and when it is finished.
-/

namespace ClarityDelta

variable {α β ε : Type} {f : α → Except ε β} {items : List α}

/-- A reading in two steps fails in one of them. -/
theorem bind_eq_error {x : Except ε α} {e : ε} (h : x >>= f = .error e) :
    x = .error e ∨ ∃ a, x = .ok a ∧ f a = .error e := by
  cases x with
  | error first => exact Or.inl (congrArg Except.error (Except.error.inj h))
  | ok a => exact Or.inr ⟨a, rfl, h⟩

/-- A reading in two steps is finished when both are. -/
theorem bind_eq_ok {x : Except ε α} {b : β} (h : x >>= f = .ok b) : ∃ a, x = .ok a ∧ f a = .ok b := by
  cases x with
  | error first => cases h
  | ok a => exact ⟨a, rfl, h⟩

/-- What fails on a list fails on one of its items. -/
theorem exists_of_mapM_error {e : ε} (h : items.mapM f = .error e) :
    ∃ item ∈ items, f item = .error e := by
  induction items with
  | nil => cases h
  | cons item items ih =>
    rw [List.mapM_cons] at h
    obtain hitem | ⟨_, -, h⟩ := bind_eq_error h
    · exact ⟨item, List.mem_cons_self, hitem⟩
    · obtain hrest | ⟨_, -, h⟩ := bind_eq_error h
      · obtain ⟨other, hother, heq⟩ := ih hrest
        exact ⟨other, List.mem_cons_of_mem _ hother, heq⟩
      · cases h

/-- Each result comes from an item. -/
theorem exists_of_mapM_ok {results : List β} (h : items.mapM f = .ok results) {result : β}
    (hresult : result ∈ results) : ∃ item ∈ items, f item = .ok result := by
  induction items generalizing results with
  | nil =>
    obtain rfl : [] = results := Except.ok.inj h
    cases hresult
  | cons item items ih =>
    rw [List.mapM_cons] at h
    obtain ⟨first, hitem, h⟩ := bind_eq_ok h
    obtain ⟨rest, hrest, h⟩ := bind_eq_ok h
    obtain rfl : first :: rest = results := Except.ok.inj h
    rcases List.mem_cons.mp hresult with rfl | hmem
    · exact ⟨item, List.mem_cons_self, hitem⟩
    · obtain ⟨other, hother, heq⟩ := ih hrest hmem
      exact ⟨other, List.mem_cons_of_mem _ hother, heq⟩

/-- When each item has its result, the list has theirs. -/
theorem mapM_eq_ok {g : α → β} (h : ∀ item ∈ items, f item = .ok (g item)) :
    items.mapM f = .ok (items.map g) := by
  induction items with
  | nil => rfl
  | cons item items ih =>
    rw [List.mapM_cons, h item List.mem_cons_self,
      ih fun other hother => h other (List.mem_cons_of_mem _ hother)]
    rfl

/-- When each item has its result as long as it is proper, the list has theirs as long as all are. -/
theorem mapM_eq_ok_iff {g : α → β} {proper : α → Prop}
    (h : ∀ item ∈ items, ∀ result, f item = .ok result ↔ proper item ∧ result = g item)
    {results : List β} :
    items.mapM f = .ok results ↔ (∀ item ∈ items, proper item) ∧ results = items.map g := by
  have hfinished : (∀ item ∈ items, proper item) → items.mapM f = .ok (items.map g) := by
    intro hproper
    exact mapM_eq_ok fun item hitem => (h item hitem _).mpr ⟨hproper item hitem, rfl⟩
  constructor
  · intro heq
    have hproper : ∀ item ∈ items, proper item := by
      clear hfinished
      induction items generalizing results with
      | nil => exact fun item hitem => absurd hitem List.not_mem_nil
      | cons item items ih =>
        rw [List.mapM_cons] at heq
        obtain ⟨first, hfirst, heq⟩ := bind_eq_ok heq
        obtain ⟨rest, hrest, -⟩ := bind_eq_ok heq
        exact List.forall_mem_cons.mpr ⟨((h item List.mem_cons_self first).mp hfirst).1,
          ih (fun other hother => h other (List.mem_cons_of_mem _ hother)) hrest⟩
    exact ⟨hproper, Except.ok.inj (heq.symm.trans (hfinished hproper))⟩
  · rintro ⟨hproper, rfl⟩
    exact hfinished hproper

end ClarityDelta
