import Mathlib.Data.List.Forall2
import ClarityDelta.Fault

/-!
# What actions ensure

An action works on a state and may be kept from being finished. `Ensures` says what holds of the state
and the result afterwards, in either case, when something held before. Most of what is said in that way
is an invariant: `Upholds` says that an action keeps one, and which errors it may end with. `Yields`
says besides what holds of the result, whatever the state.
-/

namespace ClarityDelta

/-- Of two actions the second one runs on the result and the state of the first, and not at all when
that failed. -/
theorem Action.bind_apply {ε σ α β : Type} (x : ExceptT ε (StateM σ) α)
    (f : α → ExceptT ε (StateM σ) β) (s : σ) :
    (x >>= f) s = match x s with
      | (.ok a, s) => f a s
      | (.error fault, s) => (.error fault, s) := by
  have h : (x >>= f) s = ExceptT.bindCont f (x s).1 (x s).2 := rfl
  rw [h]
  rcases x s with ⟨_ | a, s'⟩
  · rfl
  · rfl

/-- An action that begins by looking at the state goes on with the state it begins in. -/
theorem Action.get_bind_apply {ε σ β : Type} (f : σ → ExceptT ε (StateM σ) β) (s : σ) :
    (get >>= f) s = f s s := rfl

/-- Behind an action that is finished as a whole, its first part was finished. -/
theorem Action.of_bind_ok {ε σ α β : Type} {x : ExceptT ε (StateM σ) α}
    {f : α → ExceptT ε (StateM σ) β} {s : σ} {b : β} (h : ((x >>= f) s).1 = .ok b) :
    ∃ a s', x s = (.ok a, s') ∧ (x >>= f) s = f a s' := by
  rw [Action.bind_apply] at h ⊢
  rcases hx : x s with ⟨fault | a, s'⟩
  · rw [hx] at h
    cases h
  · exact ⟨a, s', rfl, rfl⟩

/-- The handler runs on the error and the state of an action that failed, and not at all on a result. -/
theorem Action.tryCatch_apply {ε σ α : Type} (x : ExceptT ε (StateM σ) α)
    (handle : ε → ExceptT ε (StateM σ) α) (s : σ) :
    tryCatch x handle s = match x s with
      | (.ok a, s) => (.ok a, s)
      | (.error e, s) => handle e s := by
  have h : tryCatch x handle s = ExceptT.tryCatch x handle s := rfl
  rw [h, ExceptT.tryCatch]
  simp only [ExceptT.mk, bind, StateT.bind]
  rcases x s with ⟨_ | a, s'⟩
  · rfl
  · rfl

/-- What follows an attempt gets its outcome, a result or a fault, and the state it leaves. -/
theorem attempt_bind_apply {σ α β : Type} (x : Action σ α) (f : Except Fault α → Action σ β)
    (s : σ) : (x.attempt >>= f) s = f (x s).1 (x s).2 :=
  Action.bind_apply x.attempt f s

/-- Discarding the result of an action changes neither the state it leaves nor the error it fails
with. -/
theorem Action.discard_apply {ε σ α : Type} (x : ExceptT ε (StateM σ) α) (s : σ) :
    (discard x) s = match x s with
      | (.ok _, s) => (.ok (), s)
      | (.error fault, s) => (.error fault, s) :=
  Action.bind_apply x (fun _ => pure ()) s

section

variable {ε σ α β γ : Type}

/-- Begun where `before` holds, the action ends where `after` holds, or fails where `failed` holds. -/
structure Ensures (before : σ → Prop) (action : ExceptT ε (StateM σ) α) (after : α → σ → Prop)
    (failed : ε → σ → Prop) : Prop where
  run : ∀ s, before s → match action s with
    | (.ok a, s') => after a s'
    | (.error e, s') => failed e s'

namespace Ensures

variable {before : σ → Prop} {action : ExceptT ε (StateM σ) α} {after : α → σ → Prop}
  {failed : ε → σ → Prop}

/-- Where an action is finished, what it ensures of its result and the state holds. -/
theorem of_ok {s s' : σ} {a : α} (h : Ensures before action after failed) (hs : before s)
    (hrun : action s = (.ok a, s')) : after a s' := by
  have hdone := h.run s hs
  rwa [hrun] at hdone

/-- Where an action fails, what it ensures of its error and the state holds. -/
theorem of_error {s s' : σ} {e : ε} (h : Ensures before action after failed) (hs : before s)
    (hrun : action s = (.error e, s')) : failed e s' := by
  have hdone := h.run s hs
  rwa [hrun] at hdone

/-- Less may be said, begun where more is known. -/
theorem mono {before' : σ → Prop} {after' : α → σ → Prop} {failed' : ε → σ → Prop}
    (h : Ensures before action after failed) (hbefore : ∀ s, before' s → before s)
    (hafter : ∀ a s, after a s → after' a s) (hfailed : ∀ e s, failed e s → failed' e s) :
    Ensures before' action after' failed' := by
  refine ⟨fun s hs => ?_⟩
  have hdone := h.run s (hbefore s hs)
  rcases hrun : action s with ⟨e | a, s'⟩
  · rw [hrun] at hdone
    exact hfailed e s' hdone
  · rw [hrun] at hdone
    exact hafter a s' hdone

/-- The action may begin where something stronger holds. -/
theorem narrow {before' : σ → Prop} (h : Ensures before action after failed)
    (hbefore : ∀ s, before' s → before s) : Ensures before' action after failed :=
  h.mono hbefore (fun _ _ hs => hs) fun _ _ hs => hs

/-- The action may fail where something weaker holds. -/
theorem widen {failed' : ε → σ → Prop} (h : Ensures before action after failed)
    (hfailed : ∀ e s, failed e s → failed' e s) : Ensures before action after failed' :=
  h.mono (fun _ hs => hs) (fun _ _ hs => hs) hfailed

/-- An action that only gives a result ends where it began. -/
theorem pure {a : α} (h : ∀ s, before s → after a s) :
    Ensures before (pure a : ExceptT ε (StateM σ) α) after failed := ⟨h⟩

/-- An action that only fails ends where it began. -/
theorem throw {e : ε} (h : ∀ s, before s → failed e s) :
    Ensures before (throw e : ExceptT ε (StateM σ) α) after failed := ⟨h⟩

/-- One action behind another begins where that one ends, or fails as that one does. -/
theorem bind {next : α → ExceptT ε (StateM σ) β} {last : β → σ → Prop}
    (h : Ensures before action after failed) (hnext : ∀ a, Ensures (after a) (next a) last failed) :
    Ensures before (action >>= next) last failed := by
  refine ⟨fun s hs => ?_⟩
  have hdone := h.run s hs
  rw [Action.bind_apply]
  rcases hrun : action s with ⟨e | a, s'⟩
  · rw [hrun] at hdone
    exact hdone
  · rw [hrun] at hdone
    exact (hnext a).run s' hdone

/-- What follows from what holds before may be used. -/
theorem of_fact {p : Prop} (hp : ∀ s, before s → p)
    (h : p → Ensures before action after failed) : Ensures before action after failed :=
  ⟨fun s hs => (h (hp s hs)).run s hs⟩

/-- A choice ensures what both branches ensure; what the last one ensures may be used for the first,
which may come to it. -/
theorem ite_of_else {c : Prop} [Decidable c] {first last : ExceptT ε (StateM σ) α}
    (hlast : Ensures before last after failed)
    (hfirst : c → Ensures before last after failed → Ensures before first after failed) :
    Ensures before (if c then first else last) after failed := by
  split
  · next hc => exact hfirst hc hlast
  · exact hlast

/-- An action that begins by looking at the state ensures what is ensured from each state it may begin
in. -/
theorem get_bind {next : σ → ExceptT ε (StateM σ) β} {last : β → σ → Prop}
    (h : ∀ s, before s → Ensures (· = s) (next s) last failed) :
    Ensures before (get >>= next) last failed :=
  ⟨fun s hs => (h s hs).run s rfl⟩

end Ensures

/-- The action keeps an invariant, whether it is finished or not, and fails with allowed errors
only. -/
def Upholds (invariant : σ → Prop) (allowed : ε → Prop) (action : ExceptT ε (StateM σ) α) : Prop :=
  Ensures invariant action (fun _ => invariant) fun e s => invariant s ∧ allowed e

namespace Upholds

variable {invariant : σ → Prop} {allowed : ε → Prop} {action : ExceptT ε (StateM σ) α}

/-- Giving a result changes nothing. -/
theorem pure (a : α) : Upholds invariant allowed (pure a : ExceptT ε (StateM σ) α) :=
  Ensures.pure fun _ h => h

/-- A failure with an allowed error changes nothing. -/
theorem throw {e : ε} (h : allowed e) :
    Upholds invariant allowed (throw e : ExceptT ε (StateM σ) α) :=
  Ensures.throw fun _ hs => ⟨hs, h⟩

/-- Two actions in a row keep what both of them keep. -/
theorem bind {next : α → ExceptT ε (StateM σ) β} (h : Upholds invariant allowed action)
    (hnext : ∀ a, Upholds invariant allowed (next a)) :
    Upholds invariant allowed (action >>= next) :=
  Ensures.bind h hnext

/-- Looking at the state changes nothing. -/
theorem get : Upholds invariant allowed (get : ExceptT ε (StateM σ) σ) :=
  ⟨fun _ hs => hs⟩

/-- Handling the errors of an action that keeps an invariant keeps it too, and leaves the errors of the
handler only, if the handler keeps the invariant on each error the action may fail with. -/
theorem tryCatch {inside : ε → Prop} {handle : ε → ExceptT ε (StateM σ) α}
    (h : Upholds invariant inside action)
    (hhandle : ∀ e, inside e → Upholds invariant allowed (handle e)) :
    Upholds invariant allowed (tryCatch action handle) := by
  refine ⟨fun s hs => ?_⟩
  have hdone := h.run s hs
  rw [Action.tryCatch_apply]
  rcases hrun : action s with ⟨e | a, s'⟩
  · rw [hrun] at hdone
    exact (hhandle e hdone.2).run s' hdone.1
  · rw [hrun] at hdone
    exact hdone

/-- A change that keeps the invariant cannot fail. -/
theorem modify {change : σ → σ} (h : ∀ s, invariant s → invariant (change s)) :
    Upholds invariant allowed (modify change : ExceptT ε (StateM σ) Unit) := ⟨h⟩

/-- A choice keeps an invariant that both branches keep; that the last one keeps it may be used for the
first, which may come to it. -/
theorem ite_of_else {c : Prop} [Decidable c] {first last : ExceptT ε (StateM σ) α}
    (hlast : Upholds invariant allowed last)
    (hfirst : Upholds invariant allowed last → Upholds invariant allowed first) :
    Upholds invariant allowed (if c then first else last) :=
  Ensures.ite_of_else hlast fun _ => hfirst

/-- More errors may be allowed. -/
theorem weaken {wider : ε → Prop} (h : Upholds invariant allowed action)
    (hwider : ∀ e, allowed e → wider e) : Upholds invariant wider action :=
  Ensures.widen h fun e _ hs => ⟨hs.1, hwider e hs.2⟩

/-- An action for all items, one after the other, keeps an invariant that it keeps on each of them. -/
theorem mapM {f : γ → ExceptT ε (StateM σ) α} {items : List γ}
    (h : ∀ item ∈ items, Upholds invariant allowed (f item)) :
    Upholds invariant allowed (items.mapM f) := by
  induction items with
  | nil => exact pure []
  | cons item items ih =>
    rw [List.mapM_cons]
    refine bind (h item List.mem_cons_self) fun _ => ?_
    exact bind (ih fun i hi => h i (List.mem_cons_of_mem item hi)) fun _ => pure _

/-- Actions for all items whose results are not used keep what each of them keeps. -/
theorem forM {f : γ → ExceptT ε (StateM σ) PUnit} {items : List γ}
    (h : ∀ item ∈ items, Upholds invariant allowed (f item)) :
    Upholds invariant allowed (items.forM f) := by
  induction items with
  | nil => exact pure PUnit.unit
  | cons item items ih =>
    refine bind (h item List.mem_cons_self) fun _ => ?_
    exact ih fun i hi => h i (List.mem_cons_of_mem item hi)

/-- The invariant holds afterwards, whether the action is finished or not. -/
theorem after (h : Upholds invariant allowed action) {s : σ} (hs : invariant s) :
    invariant (action s).2 := by
  rcases hrun : action s with ⟨e | a, s'⟩
  · exact (Ensures.of_error h hs hrun).1
  · exact Ensures.of_ok h hs hrun

/-- The error of an action that is not finished is an allowed one. -/
theorem allowed_of_error {s : σ} {e : ε} (h : Upholds invariant allowed action) (hs : invariant s)
    (herror : (action s).1 = .error e) : allowed e := by
  rcases hrun : action s with ⟨e' | a, s'⟩
  · rw [hrun] at herror
    obtain rfl : e' = e := Except.error.inj herror
    exact (Ensures.of_error h hs hrun).2
  · rw [hrun] at herror
    cases herror

end Upholds

end

section

variable {σ α : Type} {invariant : σ → Prop} {inside allowed : Fault → Prop} {action : Action σ α}

/-- An attempt is always finished. -/
theorem Ensures.attempt {before : σ → Prop} {after : α → σ → Prop} {failed : Fault → σ → Prop}
    (h : Ensures before action after failed) (failed' : Fault → σ → Prop) :
    Ensures before action.attempt
      (fun outcome s => (∀ a, outcome = .ok a → after a s) ∧
        ∀ fault, outcome = .error fault → failed fault s) failed' := by
  refine ⟨fun s hs => ?_⟩
  have hdone := h.run s hs
  rw [Action.attempt]
  rcases hrun : action s with ⟨e | a, s'⟩
  · rw [hrun] at hdone
    exact ⟨fun a heq => (by cases heq), fun fault heq => Except.error.inj heq ▸ hdone⟩
  · rw [hrun] at hdone
    exact ⟨fun a heq => Except.ok.inj heq ▸ hdone, fun fault heq => (by cases heq)⟩

/-- The outcome of an attempt is an allowed fault at worst. -/
theorem Upholds.attempt_ensures (h : Upholds invariant inside action) (allowed : Fault → Prop) :
    Ensures invariant action.attempt
      (fun outcome s => invariant s ∧ ∀ fault, outcome = .error fault → inside fault)
      fun fault s => invariant s ∧ allowed fault := by
  refine (Ensures.attempt h _).mono (fun _ hs => hs) (fun outcome s hs => ?_) fun _ _ hs => hs
  cases outcome with
  | error e =>
    have hfailed := hs.2 e rfl
    exact ⟨hfailed.1, fun fault heq => Except.error.inj heq ▸ hfailed.2⟩
  | ok a => exact ⟨hs.1 a rfl, fun fault heq => by cases heq⟩

/-- An attempt keeps what the action keeps, and cannot fail itself. -/
theorem Upholds.attempt (h : Upholds invariant inside action) :
    Upholds invariant allowed action.attempt :=
  (h.attempt_ensures allowed).mono (fun _ hs => hs) (fun _ _ hs => hs.1) fun _ _ hs => hs

end

/-- An outcome that is given fails with its own error only. -/
theorem Upholds.ofExcept {ε σ α : Type} {invariant : σ → Prop} {allowed : ε → Prop}
    {x : Except ε α} (h : ∀ e, x = .error e → allowed e) :
    Upholds invariant allowed (ofExcept x : ExceptT ε (StateM σ) α) := by
  cases x with
  | error e => exact Upholds.throw (h e rfl)
  | ok a => exact Upholds.pure a

/-- Printing what can be printed does not fail. -/
theorem Upholds.printing {σ α : Type} {invariant : σ → Prop} {allowed : Fault → Prop}
    {text : Except Text.LongNumeral α} (h : ∃ a, text = .ok a) :
    Upholds invariant allowed (Action.printing text) := by
  obtain ⟨a, rfl⟩ := h
  exact Upholds.pure a

/-! ## Results -/

section

variable {ε σ α β γ : Type}

/-- The action keeps an invariant and fails with allowed errors only, and something holds of its
result. -/
def Yields (invariant : σ → Prop) (allowed : ε → Prop) (yielded : α → Prop)
    (action : ExceptT ε (StateM σ) α) : Prop :=
  Ensures invariant action (fun a s => invariant s ∧ yielded a) fun e s => invariant s ∧ allowed e

/-- An action that keeps an invariant gives some result. -/
theorem Upholds.yields {invariant : σ → Prop} {allowed : ε → Prop}
    {action : ExceptT ε (StateM σ) α} (h : Upholds invariant allowed action) :
    Yields invariant allowed (fun _ => True) action :=
  Ensures.mono h (fun _ hs => hs) (fun _ _ hs => ⟨hs, trivial⟩) fun _ _ hs => hs

namespace Yields

variable {invariant : σ → Prop} {allowed : ε → Prop} {yielded : α → Prop} {last : β → Prop}
  {action : ExceptT ε (StateM σ) α}

/-- Nothing needs to be said of the result. -/
theorem upholds (h : Yields invariant allowed yielded action) :
    Upholds invariant allowed action :=
  Ensures.mono h (fun _ hs => hs) (fun _ _ hs => hs.1) fun _ _ hs => hs

/-- Less may be said of the result. -/
theorem mono {weaker : α → Prop} (h : Yields invariant allowed yielded action)
    (hweaker : ∀ a, yielded a → weaker a) : Yields invariant allowed weaker action :=
  Ensures.mono h (fun _ hs => hs) (fun a _ hs => ⟨hs.1, hweaker a hs.2⟩) fun _ _ hs => hs

/-- More errors may be allowed. -/
theorem weaken {wider : ε → Prop} (h : Yields invariant allowed yielded action)
    (hwider : ∀ e, allowed e → wider e) : Yields invariant wider yielded action :=
  Ensures.widen h fun e _ hs => ⟨hs.1, hwider e hs.2⟩

/-- Giving a result of which something holds yields it. -/
theorem pure {a : α} (h : yielded a) :
    Yields invariant allowed yielded (pure a : ExceptT ε (StateM σ) α) :=
  Ensures.pure fun _ hs => ⟨hs, h⟩

/-- Where an action fails, nothing needs to hold of a result. -/
theorem throw {e : ε} (h : allowed e) :
    Yields invariant allowed yielded (throw e : ExceptT ε (StateM σ) α) :=
  Ensures.throw fun _ hs => ⟨hs, h⟩

/-- An outcome that is given yields its own result. -/
theorem ofExcept {x : Except ε α} (hok : ∀ a, x = .ok a → yielded a)
    (herror : ∀ e, x = .error e → allowed e) :
    Yields invariant allowed yielded (ofExcept x : ExceptT ε (StateM σ) α) := by
  cases x with
  | error e => exact throw (herror e rfl)
  | ok a => exact pure (hok a rfl)

/-- Two actions ensure what the second one ensures on each result the first may yield. -/
theorem ensures_bind {next : α → ExceptT ε (StateM σ) β} {after : β → σ → Prop}
    {failed : ε → σ → Prop} (h : Yields invariant allowed yielded action)
    (hfailed : ∀ e s, invariant s → allowed e → failed e s)
    (hnext : ∀ a, yielded a → Ensures invariant (next a) after failed) :
    Ensures invariant (action >>= next) after failed :=
  Ensures.bind (Ensures.widen h fun e s hs => hfailed e s hs.1 hs.2)
    fun a => ⟨fun s hs => (hnext a hs.2).run s hs.1⟩

/-- The next action may rely on what holds of the result of the one before. -/
theorem bind {next : α → ExceptT ε (StateM σ) β} (h : Yields invariant allowed yielded action)
    (hnext : ∀ a, yielded a → Yields invariant allowed last (next a)) :
    Yields invariant allowed last (action >>= next) :=
  h.ensures_bind (fun _ _ hs he => ⟨hs, he⟩) hnext

/-- What follows an action keeps the invariant if it does so on each result the action may yield. -/
theorem then_upholds {next : α → ExceptT ε (StateM σ) β}
    (h : Yields invariant allowed yielded action)
    (hnext : ∀ a, yielded a → Upholds invariant allowed (next a)) :
    Upholds invariant allowed (action >>= next) :=
  h.ensures_bind (fun _ _ hs he => ⟨hs, he⟩) hnext

/-- What follows an action that keeps the invariant yields what it yields on any result. -/
theorem after {next : α → ExceptT ε (StateM σ) β} (h : Upholds invariant allowed action)
    (hnext : ∀ a, Yields invariant allowed last (next a)) :
    Yields invariant allowed last (action >>= next) :=
  Ensures.bind h hnext

/-- An action that begins by looking at the state yields what it yields on each state in which the
invariant holds. -/
theorem get_bind {next : σ → ExceptT ε (StateM σ) β}
    (h : ∀ s, invariant s → Yields invariant allowed last (next s)) :
    Yields invariant allowed last (get >>= next) :=
  ⟨fun s hs => (h s hs).run s hs⟩

/-- The results of an action for a list of items are related to the items in order, as each result is to
its item. -/
theorem mapM {related : γ → α → Prop} {f : γ → ExceptT ε (StateM σ) α} {items : List γ}
    (h : ∀ item ∈ items, Yields invariant allowed (related item) (f item)) :
    Yields invariant allowed (List.Forall₂ related items) (items.mapM f) := by
  induction items with
  | nil => exact pure List.Forall₂.nil
  | cons item items ih =>
    rw [List.mapM_cons]
    refine bind (h item List.mem_cons_self) fun a ha => ?_
    refine bind (ih fun i hi => h i (List.mem_cons_of_mem item hi)) fun as has => ?_
    exact pure (List.Forall₂.cons ha has)

/-- An action that yields one certain result on each item yields the list of these results. -/
theorem mapM_eq {result : γ → α} {f : γ → ExceptT ε (StateM σ) α} {items : List γ}
    (h : ∀ item ∈ items, Yields invariant allowed (· = result item) (f item)) :
    Yields invariant allowed (· = items.map result) (items.mapM f) := by
  refine (mapM h).mono fun as has => ?_
  induction has with
  | nil => rfl
  | cons ha _ ih => rw [ha, ih fun i hi => h i (List.mem_cons_of_mem _ hi), List.map_cons]

/-- What holds of the results of an action on each item holds of all results on a list of items. -/
theorem mapM_all {f : γ → ExceptT ε (StateM σ) α} {items : List γ}
    (h : ∀ item ∈ items, Yields invariant allowed yielded (f item)) :
    Yields invariant allowed (fun as => ∀ a ∈ as, yielded a) (items.mapM f) := by
  refine (mapM h).mono fun as has => ?_
  induction has with
  | nil => exact fun a ha => absurd ha List.not_mem_nil
  | cons ha _ ih =>
    refine List.forall_mem_cons.2 ⟨ha, ih fun i hi => h i (List.mem_cons_of_mem _ hi)⟩

end Yields

end

/-- An attempt comes to a fault that is possible without it, or to a result of which the same holds. -/
theorem Yields.attempt {σ α : Type} {invariant : σ → Prop} {inside allowed : Fault → Prop}
    {yielded : α → Prop} {action : Action σ α} (h : Yields invariant inside yielded action) :
    Yields invariant allowed (fun outcome => (∀ fault, outcome = .error fault → inside fault) ∧
      ∀ a, outcome = .ok a → yielded a) action.attempt := by
  refine (Ensures.attempt h _).mono (fun _ hs => hs) (fun outcome s hs => ?_) fun _ _ hs => hs
  cases outcome with
  | error e =>
    have hfailed := hs.2 e rfl
    exact ⟨hfailed.1, fun fault heq => Except.error.inj heq ▸ hfailed.2, fun a heq => by cases heq⟩
  | ok a =>
    have hdone := hs.1 a rfl
    exact ⟨hdone.1, fun fault heq => (by cases heq), fun b heq => Except.ok.inj heq ▸ hdone.2⟩

end ClarityDelta
