import ClarityDelta.Logging.Write
import ClarityDelta.Proofs.Pipeline.Transcript

/-!
# What noting leaves as it is

An entry is written by handlers, which change the files, the loggers and the console and nothing else.
`Keeps` says of an action that it leaves a view of the workspace as it is. It is proved for an action
from its parts, up to `Unwritten.keeps_say`: a view in which nothing shows that handlers write is kept
by every note.
-/

namespace ClarityDelta

namespace Work

/-- An action that leaves a view of the workspace as it is, also when a fault keeps it from being
finished. -/
def Keeps {α β : Type} (view : Workspace → β) (action : Work α) : Prop :=
  ∀ w, view (action w).2 = view w

namespace Keeps

variable {α β γ : Type} {view : Workspace → γ}

/-- Giving a result leaves every view as it is. -/
theorem pure (a : α) : Keeps view (pure a : Work α) := fun _ => rfl

/-- Failing leaves every view as it is. -/
theorem throw (fault : Fault) : Keeps view (throw fault : Work α) := fun _ => rfl

/-- Looking at the workspace leaves every view as it is. -/
theorem get : Keeps view (get : Work Workspace) := fun _ => rfl

/-- A change keeps a view that does not show it. -/
theorem modify {change : Workspace → Workspace} (h : ∀ w, view (change w) = view w) :
    Keeps view (modify change : Work Unit) := h

/-- Behind an action that keeps a view, the next one begins with the same view, unless a fault keeps
the first one from being finished. -/
theorem bind_cases {action : Work α} (h : Keeps view action) (next : α → Work β) (w : Workspace) :
    (∃ fault w', (action >>= next) w = (.error fault, w') ∧ view w' = view w) ∨
      ∃ a w', (action >>= next) w = next a w' ∧ view w' = view w := by
  have hkept := h w
  rw [Action.bind_apply]
  rcases hdone : action w with ⟨fault | a, w'⟩
  · rw [hdone] at hkept
    exact Or.inl ⟨fault, w', rfl, hkept⟩
  · rw [hdone] at hkept
    exact Or.inr ⟨a, w', rfl, hkept⟩

/-- Two actions in a row keep a view that both of them keep. -/
theorem bind {action : Work α} {next : α → Work β} (h : Keeps view action)
    (hnext : ∀ a, Keeps view (next a)) : Keeps view (action >>= next) := by
  intro w
  obtain ⟨fault, w', hrun, hkept⟩ | ⟨a, w', hrun, hkept⟩ := h.bind_cases next w
  · rw [hrun]
    exact hkept
  · rw [hrun]
    exact (hnext a w').trans hkept

end Keeps

end Work

namespace Logging

open Files Work

variable {α γ : Type} {view : Workspace → γ}

/-- A view in which nothing shows that handlers write. -/
structure Unwritten (view : Workspace → γ) : Prop where
  files : ∀ (w : Workspace) files, view { w with files := files } = view w
  loggers : ∀ (w : Workspace) loggers, view { w with loggers := loggers } = view w
  console : ∀ (w : Workspace) console, view { w with console := console } = view w

namespace Unwritten

/-- Work on files does not show in an unwritten view. -/
theorem keeps_files (h : Unwritten view) (work : FileWork α) : Keeps view (Work.files work) := by
  intro w
  rw [Work.files]
  rcases work w.files with ⟨error | a, files⟩
  · exact h.files w files
  · exact h.files w files

/-- A change of a logger does not show in an unwritten view. -/
theorem keeps_updateLogger (h : Unwritten view) (name : String) (change : Logger → Logger) :
    Keeps view (Work.updateLogger name change) :=
  Keeps.modify fun w => h.loggers w _

/-- A handler does not show in an unwritten view. -/
theorem keeps_handle (h : Unwritten view) (entry : Entry) (handler : Handler) :
    Keeps view (handler.handle entry) := by
  cases handler with
  | console =>
    rw [Handler.handle]
    split
    · exact Keeps.throw _
    · exact Keeps.bind (Keeps.modify fun w => h.console w _) fun _ => Keeps.pure _
  | file sink =>
    rw [Handler.handle]
    split
    · exact Keeps.pure _
    · split
      · exact Keeps.pure _
      · exact Keeps.bind (h.keeps_files _) fun _ => Keeps.pure _

/-- Several handlers do not show in an unwritten view. -/
theorem keeps_handleAll (h : Unwritten view) (name : String) (entry : Entry) (index : Nat)
    (handlers : List Handler) : Keeps view (handleAll name entry index handlers) := by
  induction handlers generalizing index with
  | nil => exact Keeps.pure ()
  | cons handler rest ih =>
    rw [handleAll]
    refine Keeps.bind (h.keeps_handle entry handler) fun _ => ?_
    exact Keeps.bind (h.keeps_updateLogger name _) fun _ => ih (index + 1)

/-- Several loggers do not show in an unwritten view. -/
theorem keeps_receive (h : Unwritten view) (entry : Entry) (loggers : List Logger) :
    Keeps view (receive entry loggers) := by
  induction loggers with
  | nil => exact Keeps.pure ()
  | cons logger above ih =>
    rw [receive]
    refine Keeps.bind (h.keeps_updateLogger logger.name _) fun _ => ?_
    exact Keeps.bind (h.keeps_handleAll logger.name entry 0 logger.handlers) fun _ => ih

/-- A message does not show in an unwritten view. -/
theorem keeps_note (h : Unwritten view) (entry : Entry) : Keeps view (note entry) := by
  refine Keeps.bind Keeps.get fun w => ?_
  show Keeps view (if w.loggers.effectiveLevel entry.logger ≤ entry.level then _ else _)
  split
  · exact h.keeps_receive entry _
  · exact Keeps.pure ()

/-- A note does not show in an unwritten view. -/
theorem keeps_say (h : Unwritten view) (logger : String) (message : Note) :
    Keeps view (say logger message) :=
  Keeps.bind Keeps.get fun _ => h.keeps_note _

end Unwritten

end Logging

end ClarityDelta
