import ClarityDelta.Proofs.Logging.Confined
import ClarityDelta.Proofs.Logging.Frame

/-!
# Notes beside other work

What is noted between two steps of some work writes to the logs and to the console. When the logs keep to a
zone, nothing else of the files changes, what other programs were asked stays as it is, and all that can go
wrong is that a console cannot render a note: `say_undisturbed`.
-/

namespace ClarityDelta.Logging

open Files FileTree Invocation

variable {readable : Prop} {current : Location} {zone : Location → Prop} {base w : Workspace}

/-! ## Consoles -/

/-- Where there is a console among some handlers, something else holds. -/
def ConsoleReads (readable : Prop) (handlers : List Handler) : Prop :=
  .console ∈ handlers → readable

instance [Decidable readable] (handlers : List Handler) : Decidable (ConsoleReads readable handlers) :=
  inferInstanceAs (Decidable (.console ∈ handlers → readable))

/-- Without handlers there is no console. -/
theorem consoleReads_nil (readable : Prop) : ConsoleReads readable [] :=
  fun hconsole => absurd hconsole List.not_mem_nil

/-- Where a logger writes to the console, something else holds. -/
def OnConsoles (readable : Prop) (w : Workspace) : Prop :=
  ∀ logger ∈ w.loggers, ConsoleReads readable logger.handlers

instance [Decidable readable] (w : Workspace) : Decidable (OnConsoles readable w) :=
  inferInstanceAs (Decidable (∀ logger ∈ w.loggers, ConsoleReads readable logger.handlers))

/-- A fault of a console that cannot render what is noted. -/
def Unrendered (readable : Prop) (fault : Fault) : Prop :=
  readable ∧ ∃ cause, fault = .markup cause

/-- A logger gets no console by a change of its handlers that brings none. -/
theorem updateLogger_onConsoles {name : String} {change : Logger → Logger} {allowed : Fault → Prop}
    (hchange : ∀ logger, ConsoleReads readable logger.handlers →
      ConsoleReads readable (change logger).handlers) :
    Upholds (OnConsoles readable) allowed (Work.updateLogger name change) :=
  Upholds.modify fun _ h _ hlogger =>
    holds_of_mem_update (consoleReads_nil readable) h hchange hlogger

/-- A handler becomes no console by handling an entry, and only a console fails. -/
theorem handle_onConsoles (entry : Entry) {handler : Handler} (h : .console = handler → readable) :
    Yields (OnConsoles readable) (Unrendered readable) (fun after => .console = after → readable)
      (handler.handle entry) := by
  cases handler with
  | console =>
    rw [Handler.handle]
    split
    · next cause _ => exact Yields.throw ⟨h rfl, cause, rfl⟩
    · exact Yields.after (Upholds.modify fun _ hw => hw) fun _ => Yields.pure h
  | file sink =>
    rw [Handler.handle]
    split
    · exact Yields.pure h
    · split
      · exact Yields.pure h
      · refine Yields.after (?_ : Upholds _ _ (Work.files _)) fun _ => Yields.pure fun heq => by cases heq
        exact ⟨fun _ hw => hw⟩

/-- Handling a message by several handlers brings no console, and only a console fails. -/
theorem handleAll_onConsoles (name : String) (entry : Entry) (index : Nat) {handlers : List Handler}
    (h : ConsoleReads readable handlers) :
    Upholds (OnConsoles readable) (Unrendered readable) (handleAll name entry index handlers) := by
  induction handlers generalizing index with
  | nil => exact Upholds.pure ()
  | cons handler rest ih =>
    rw [handleAll]
    have hhandler : .console = handler → readable := fun heq => h (heq ▸ List.mem_cons_self)
    refine (handle_onConsoles entry hhandler).then_upholds fun after hafter => ?_
    refine Upholds.bind (updateLogger_onConsoles fun logger hlogger hconsole => ?_) fun _ => ?_
    · exact (List.mem_or_eq_of_mem_set hconsole).elim hlogger hafter
    · exact ih (index + 1) fun hconsole => h (List.mem_cons_of_mem _ hconsole)

/-- Handling a message by several loggers brings no console, and only a console fails. -/
theorem receive_onConsoles (entry : Entry) {loggers : List Logger}
    (h : ∀ logger ∈ loggers, ConsoleReads readable logger.handlers) :
    Upholds (OnConsoles readable) (Unrendered readable) (receive entry loggers) := by
  induction loggers with
  | nil => exact Upholds.pure ()
  | cons logger above ih =>
    rw [receive]
    refine Upholds.bind (updateLogger_onConsoles fun _ hlogger => hlogger) fun _ => ?_
    refine Upholds.bind (handleAll_onConsoles _ _ _ (h logger List.mem_cons_self)) fun _ => ?_
    exact ih fun other hother => h other (List.mem_cons_of_mem logger hother)

/-- Noting a message brings no console, and only a console fails. -/
theorem say_onConsoles (name : String) (message : Note) :
    Upholds (OnConsoles readable) (Unrendered readable) (say name message) := by
  refine Ensures.get_bind fun w h => Ensures.get_bind fun w' hw' => ?_
  obtain rfl := hw'
  dsimp only
  split
  · have hreached := fun logger (hlogger : logger ∈ w'.loggers.reached name) =>
      holds_of_mem_reached (consoleReads_nil readable) h hlogger
    exact (receive_onConsoles _ hreached).narrow fun _ heq => heq ▸ h
  · exact Ensures.pure fun _ heq => heq ▸ h

/-! ## Notes between steps -/

/-- All loggers write to files in a zone only, and where one writes to the console, something else
holds. -/
structure LogsApart (readable : Prop) (current : Location) (zone : Location → Prop) (w : Workspace) :
    Prop where
  confined : Confined current zone (fun _ => True) w
  consoles : OnConsoles readable w

/-- Nothing but logs, loggers and consoles is other than in a given workspace. -/
structure Undisturbed (readable : Prop) (current : Location) (zone : Location → Prop)
    (base w : Workspace) : Prop where
  confined : Confined current zone (SameOutside zone base.files) w
  consoles : OnConsoles readable w
  answer_eq : w.answer = base.answer
  calls_eq : w.calls = base.calls

/-- Where all but the logs is undisturbed, the logs keep apart. -/
theorem Undisturbed.logsApart (h : Undisturbed readable current zone base w) :
    LogsApart readable current zone w :=
  ⟨h.confined.mono fun _ => trivial, h.consoles⟩

/-- A workspace is undisturbed by itself. -/
theorem LogsApart.undisturbed (h : LogsApart readable current zone w) :
    Undisturbed readable current zone w w :=
  ⟨h.confined.mono fun _ => SameOutside.refl zone w.files, h.consoles, rfl, rfl⟩

/-- Noting a message leaves all but logs, loggers and consoles as it is. -/
theorem say_undisturbed (name : String) (message : Note) :
    Upholds (Undisturbed readable current zone base) (Unrendered readable) (say name message) := by
  have hview : Unwritten fun w : Workspace => (w.answer, w.calls) :=
    ⟨fun _ _ => rfl, fun _ _ => rfl, fun _ _ => rfl⟩
  refine ⟨fun w h => ?_⟩
  have hkept := hview.keeps_say name message w
  have hconfined := (say_upholds (Lasting.sameOutside zone base.files) name message).after h.confined
  have hconsoles := (say_onConsoles name message).run w h.consoles
  rcases hrun : say name message w with ⟨fault | _, after⟩
  · rw [hrun] at hkept hconfined hconsoles
    obtain ⟨hanswer, hcalls⟩ := Prod.mk.inj hkept
    exact ⟨⟨hconfined, hconsoles.1, hanswer.trans h.answer_eq, hcalls.trans h.calls_eq⟩, hconsoles.2⟩
  · rw [hrun] at hkept hconfined hconsoles
    obtain ⟨hanswer, hcalls⟩ := Prod.mk.inj hkept
    exact ⟨hconfined, hconsoles, hanswer.trans h.answer_eq, hcalls.trans h.calls_eq⟩

/-- A note in front of an action ensures what the action ensures by itself, if a console that cannot
render the note is among its allowed failures. -/
theorem say_bind_undisturbed {α : Type} (name : String) (message : Note) {next : Work α}
    {after : α → Workspace → Prop} {failed : Fault → Workspace → Prop}
    (hfailed : ∀ fault w, Undisturbed readable current zone base w → Unrendered readable fault →
      failed fault w)
    (hnext : Ensures (Undisturbed readable current zone base) next after failed) :
    Ensures (Undisturbed readable current zone base) (say name message >>= fun _ => next) after
      failed := by
  refine Ensures.bind ?_ fun _ => hnext
  exact (say_undisturbed name message).widen fun fault w h => hfailed fault w h.1 h.2

end ClarityDelta.Logging
