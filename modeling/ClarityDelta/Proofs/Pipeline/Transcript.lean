import ClarityDelta.Pipeline.Run
import ClarityDelta.Proofs.Action

/-!
# Transcripts

A run asks its collaborators for files, contents, artifacts and checks, and they may answer the
same request differently each time. What was asked and answered is kept in a transcript beside
their state. `Conducts` says that an action does with the transcript what it does without, and how
the transcript that it adds is related to what it gives; it is proved for an action from its parts,
so that every step of a run has one lemma.
-/

namespace ClarityDelta

namespace Pipeline

open Config Logging Text

/-- A request and what was answered. -/
inductive Exchange where
  | modifiedFiles (base head : String) (directories : List String)
    (answer : Except Fault (List String))
  | content (revision path : String) (answer : Except Fault (Option String))
  | artifact (file : String) (answer : Except Fault (Option String))
  | check (file artifact function flags : String) (answer : Except Fault String)

/-- What can be asked for. -/
inductive Topic where
  | modifiedFiles
  | content
  | artifact
  | check
  deriving DecidableEq

/-- What was asked for. -/
def Exchange.topic : Exchange → Topic
  | modifiedFiles .. => .modifiedFiles
  | content .. => .content
  | artifact .. => .artifact
  | check .. => .check

/-- An action whose outcome is entered at the end of the transcript. -/
def transcribe (action : Action σ α) (exchange : Except Fault α → Exchange) :
    Action (σ × List Exchange) α := fun (state, transcript) =>
  match action state with
  | (answer, state) => (answer, (state, transcript ++ [exchange answer]))

/-- The collaborators, each request to whom is entered in the transcript with its answer. -/
def Collaborators.transcribed (c : Collaborators σ) : Collaborators (σ × List Exchange) where
  note message := beside (c.note message)
  modifiedFiles base head directories :=
    transcribe (c.modifiedFiles base head directories) (.modifiedFiles base head directories)
  content revision path := transcribe (c.content revision path) (.content revision path)
  artifact file := transcribe (c.artifact file) (.artifact file)
  check file artifact function flags :=
    transcribe (c.check file artifact function flags) (.check file artifact function flags)

/-- The transcript of a run. -/
def transcript (c : Collaborators σ) (settings : Settings) (files : Option (List String)) (s : σ) :
    List Exchange :=
  (run c.transcribed settings files (s, [])).2.2

/-! ## Actions with a transcript beside their state -/

/-- Beside a transcript the action does what the plain one does without; it only adds to the
transcript, and what it adds is related to what it gives. -/
def Conducts {σ α : Type} (action : Action (σ × List Exchange) α) (plain : Action σ α)
    (related : α → List Exchange → Prop) : Prop :=
  ∀ s before, ∃ added, action (s, before) = ((plain s).1, ((plain s).2, before ++ added)) ∧
    ∀ a, (plain s).1 = .ok a → related a added

namespace Conducts

variable {σ α β γ δ : Type} {action : Action (σ × List Exchange) α} {plain : Action σ α}
  {related : α → List Exchange → Prop}

/-- Less may be said of what is conducted. -/
theorem mono {weaker : α → List Exchange → Prop} (h : Conducts action plain related)
    (hweaker : ∀ a added, related a added → weaker a added) : Conducts action plain weaker := by
  intro s before
  obtain ⟨added, heq, hrel⟩ := h s before
  exact ⟨added, heq, fun a ha => hweaker a added (hrel a ha)⟩

/-- Giving a result asks for nothing. -/
theorem pure (a : α) :
    Conducts (pure a) (pure a : Action σ α) fun b added => b = a ∧ added = [] := by
  intro s before
  refine ⟨[], ?_, ?_⟩
  · rw [List.append_nil]
    rfl
  · intro b hb
    exact ⟨(Except.ok.inj hb).symm, rfl⟩

/-- Of an action that fails, anything may be said. -/
theorem throw (fault : Fault) :
    Conducts (throw fault) (throw fault : Action σ α) related := by
  intro s before
  refine ⟨[], ?_, ?_⟩
  · rw [List.append_nil]
    rfl
  · intro a ha
    exact absurd ha (by rintro ⟨⟩)

/-- One after the other, two actions add first what the first one adds. -/
theorem bind {next : α → Action (σ × List Exchange) β} {plainNext : α → Action σ β}
    {relatedNext : α → β → List Exchange → Prop} (h : Conducts action plain related)
    (hnext : ∀ a, Conducts (next a) (plainNext a) (relatedNext a)) :
    Conducts (action >>= next) (plain >>= plainNext) fun b added =>
      ∃ a first second, added = first ++ second ∧ related a first ∧ relatedNext a b second := by
  intro s before
  obtain ⟨first, heq, hrel⟩ := h s before
  rw [Action.bind_apply, Action.bind_apply, heq]
  rcases hplain : plain s with ⟨fault | a, s'⟩
  · exact ⟨first, rfl, fun b hb => absurd hb (by rintro ⟨⟩)⟩
  · rw [hplain] at hrel
    obtain ⟨second, heq', hrel'⟩ := hnext a s' (before ++ first)
    refine ⟨first ++ second, ?_, fun b hb => ⟨a, first, second, rfl, hrel a rfl, hrel' b hb⟩⟩
    rw [← List.append_assoc]
    exact heq'

/-- Printing adds nothing. -/
theorem printing (text : Except LongNumeral α) :
    Conducts (Action.printing text) (Action.printing text : Action σ α) fun a added =>
      text = .ok a ∧ added = [] := by
  cases text with
  | error long => exact throw (.unprintable long)
  | ok a => exact (pure a).mono fun b added h => ⟨congrArg Except.ok h.1.symm, h.2⟩

/-- An action that the transcript does not concern adds nothing. -/
theorem beside (plain : Action σ α) :
    Conducts (beside plain) plain fun _ added => added = [] := by
  intro s before
  exact ⟨[], by rw [List.append_nil]; rfl, fun _ _ => rfl⟩

/-- A transcribed action adds one exchange, with the answer that it gives. -/
theorem transcribe (plain : Action σ α) (exchange : Except Fault α → Exchange) :
    Conducts (transcribe plain exchange) plain fun a added => added = [exchange (.ok a)] := by
  intro s before
  exact ⟨[exchange (plain s).1], rfl, fun a ha => by rw [ha]⟩

/-- A transcribed action that may fail adds one exchange, with its outcome. -/
theorem attempt (plain : Action σ α) (exchange : Except Fault α → Exchange) :
    Conducts (Pipeline.transcribe plain exchange).attempt plain.attempt fun outcome added =>
      added = [exchange outcome] := by
  intro s before
  exact ⟨[exchange (plain s).1], rfl, fun outcome ha => by rw [← Except.ok.inj ha]⟩

/-- Done for every item of a list, an action leaves one record after the other, if each time it
leaves a record of the item, of what it gives and of what it adds. -/
theorem mapM {f : γ → Action (σ × List Exchange) α} {g : γ → Action σ α}
    {input : δ → γ} {output : δ → α} {asked : δ → List Exchange}
    (h : ∀ x, Conducts (f x) (g x) fun a added =>
      ∃ d, input d = x ∧ a = output d ∧ added = asked d) (xs : List γ) :
    Conducts (xs.mapM f) (xs.mapM g) fun ys added =>
      ∃ ds : List δ, ds.map input = xs ∧ ys = ds.map output ∧ added = ds.flatMap asked := by
  induction xs with
  | nil =>
    rw [List.mapM_nil, List.mapM_nil]
    refine (pure []).mono ?_
    rintro _ _ ⟨rfl, rfl⟩
    exact ⟨[], rfl, rfl, rfl⟩
  | cons x xs ih =>
    rw [List.mapM_cons, List.mapM_cons]
    refine ((h x).bind fun a => ih.bind fun ys => pure (a :: ys)).mono ?_
    rintro _ _ ⟨_, _, _, rfl, ⟨d, rfl, rfl, rfl⟩, _, _, _, rfl, ⟨ds, rfl, rfl, rfl⟩, rfl, rfl⟩
    exact ⟨d :: ds, rfl, rfl, by rw [List.append_nil, List.flatMap_cons]⟩

/-- Notes add nothing. -/
theorem notes (c : Collaborators σ) (messages : List Note) :
    Conducts (messages.forM c.transcribed.note) (messages.forM c.note) fun _ added =>
      added = [] := by
  induction messages with
  | nil => exact (pure ()).mono fun _ _ h => h.2
  | cons message messages ih =>
    refine ((beside (c.note message)).bind fun _ => ih).mono ?_
    rintro _ _ ⟨_, _, _, rfl, rfl, rfl⟩
    rfl

end Conducts

end Pipeline

end ClarityDelta
