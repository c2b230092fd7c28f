import ClarityDelta.Proofs.Logging.Confined
import ClarityDelta.Proofs.Logging.Steady

/-!
# Loggers that write to a file

A logger writes to a file from when it is given one. Noting a message updates the handlers that the
message reaches, each of which stays of its kind, so that no logger gets a file or loses it by that
(`say_writesFile`).
-/

namespace ClarityDelta.Logging

variable {registry : Registry} {kinds : String → List Bool} {w : Workspace} {name : String}

/-! ## Loggers found by their names -/

/-- The logger that is found by a name has that name. -/
theorem find_name (registry : Registry) (name : String) : (registry.find name).name = name := by
  rw [Registry.find]
  cases hfind : List.find? (fun logger => decide (logger.name = name)) registry with
  | none => rfl
  | some logger => simpa using List.find?_some hfind

/-- Only the logger that is changed is found changed. -/
theorem find_update {change : Logger → Logger} (hname : ∀ logger, (change logger).name = logger.name)
    (name other : String) :
    (registry.update name change).find other =
      if other = name then change (registry.find name) else registry.find other := by
  have hfresh : ∀ name, (Logger.fresh name).name = name := fun _ => rfl
  rw [Registry.update]
  split
  · next hany =>
    obtain ⟨known, hknown, hknownName⟩ := List.any_eq_true.1 hany
    -- a logger is found under the same name as before
    have hkept : ((fun logger : Logger => decide (logger.name = other)) ∘
        fun logger => if logger.name = name then change logger else logger) =
          fun logger => decide (logger.name = other) := by
      funext logger
      dsimp only [Function.comp]
      split
      · rw [hname]
      · rfl
    rw [Registry.find, List.find?_map, hkept]
    cases hfind : List.find? (fun logger => decide (logger.name = other)) registry with
    | none =>
      have hne : other ≠ name := by
        rintro rfl
        exact List.find?_eq_none.1 hfind known hknown hknownName
      rw [if_neg hne, Registry.find, hfind]
      rfl
    | some logger =>
      obtain rfl : logger.name = other := by simpa using List.find?_some hfind
      by_cases heq : logger.name = name
      · rw [if_pos heq, ← heq, Registry.find, hfind, Option.map_some, Option.getD_some, if_pos rfl]
        rfl
      · rw [if_neg heq, Registry.find, hfind, Option.map_some, if_neg heq]
  · next hnone =>
    have hunknown : List.find? (fun logger => decide (logger.name = name)) registry = none := by
      rw [List.find?_eq_none]
      exact fun logger hlogger hsame => hnone (List.any_eq_true.2 ⟨logger, hlogger, hsame⟩)
    rw [Registry.find, List.find?_append]
    by_cases heq : other = name
    · subst heq
      rw [if_pos rfl, hunknown, Option.none_or, Registry.find, hunknown,
        List.find?_cons_of_pos (by rw [hname, hfresh]; simp)]
      rfl
    · have hother : decide ((change (.fresh name)).name = other) = false := by
        rw [hname, hfresh]
        simpa using Ne.symm heq
      rw [if_neg heq, List.find?_cons_of_neg (by simpa using hother), List.find?_nil, Option.or_none,
        Registry.find]

/-- A changed logger is found by its name. -/
theorem find_update_self (change : Logger → Logger)
    (hname : ∀ logger, (change logger).name = logger.name) (name : String) :
    (registry.update name change).find name = change (registry.find name) := by
  rw [find_update hname, if_pos rfl]

/-! ## Kinds of handlers -/

/-- Which of the handlers of each logger write to files is as told. -/
def SameKinds (kinds : String → List Bool) (w : Workspace) : Prop :=
  ∀ name, (w.loggers.find name).handlers.map Handler.isFile = kinds name

/-- A change that keeps the kinds of one logger's handlers keeps the kinds of all. -/
theorem updateLogger_sameKinds {change : Logger → Logger} {allowed : Fault → Prop}
    (hname : ∀ logger, (change logger).name = logger.name)
    (hchange : ∀ logger, logger.handlers.map Handler.isFile = kinds name →
      (change logger).handlers.map Handler.isFile = kinds name) :
    Upholds (SameKinds kinds) allowed (Work.updateLogger name change) := by
  refine Upholds.modify fun w h other => ?_
  rw [find_update hname]
  split
  · next heq => rw [heq, hchange _ (h name)]
  · exact h other

/-- Handling an entry leaves a handler of its kind. -/
theorem handle_sameKinds (entry : Entry) (handler : Handler) :
    Yields (SameKinds kinds) (fun _ => True) (fun after => after.isFile = handler.isFile)
      (handler.handle entry) := by
  cases handler with
  | console =>
    rw [Handler.handle]
    split
    · exact Yields.throw trivial
    · exact Yields.after (Upholds.modify fun _ h => h) fun _ => Yields.pure rfl
  | file sink =>
    rw [Handler.handle]
    split
    · exact Yields.pure rfl
    · split
      · exact Yields.pure rfl
      · next line hline => exact ⟨fun w h => ⟨h, rfl⟩⟩

/-- Handling a message by several handlers keeps the kinds of all handlers. -/
theorem handleAll_sameKinds (entry : Entry) (front : List Bool) (handlers : List Handler)
    (h : kinds name = front ++ handlers.map Handler.isFile) :
    Upholds (SameKinds kinds) (fun _ => True) (handleAll name entry front.length handlers) := by
  induction handlers generalizing front with
  | nil => exact Upholds.pure ()
  | cons handler rest ih =>
    rw [handleAll]
    refine (handle_sameKinds entry handler).then_upholds fun after hafter => ?_
    refine Upholds.bind (updateLogger_sameKinds (fun _ => rfl) fun logger hlogger => ?_) fun _ => ?_
    · rw [List.map_set, hlogger, hafter, h]
      simp
    · have hnext := ih (front ++ [handler.isFile]) (by simp [h])
      rwa [List.length_append, List.length_singleton] at hnext

/-- Handling a message by several loggers keeps the kinds of all handlers. -/
theorem receive_sameKinds (entry : Entry) {loggers : List Logger}
    (h : ∀ logger ∈ loggers, kinds logger.name = logger.handlers.map Handler.isFile) :
    Upholds (SameKinds kinds) (fun _ => True) (receive entry loggers) := by
  induction loggers with
  | nil => exact Upholds.pure ()
  | cons logger above ih =>
    rw [receive]
    refine Upholds.bind (updateLogger_sameKinds (fun _ => rfl) fun _ hlogger => hlogger) fun _ => ?_
    refine Upholds.bind (handleAll_sameKinds entry [] logger.handlers (h logger List.mem_cons_self))
      fun _ => ih fun other hother => h other (List.mem_cons_of_mem logger hother)

/-- Noting a message gives no logger a file and takes none away. -/
theorem say_sameKinds (name : String) (message : Note) :
    Upholds (SameKinds kinds) (fun _ => True) (say name message) := by
  refine Ensures.get_bind fun w h => Ensures.get_bind fun w' hw' => ?_
  obtain rfl := hw'
  dsimp only
  split
  · have hreached : ∀ logger ∈ w'.loggers.reached name,
        kinds logger.name = logger.handlers.map Handler.isFile := by
      intro logger hlogger
      obtain ⟨above, rfl⟩ := exists_find_of_mem_reached hlogger
      rw [find_name, h]
    exact (receive_sameKinds _ hreached).narrow fun _ heq => heq ▸ h
  · exact Ensures.pure fun _ heq => heq ▸ h

/-! ## Writing to a file -/

/-- Whether a logger writes to a file. -/
def WritesFile (w : Workspace) (name : String) : Prop :=
  (w.loggers.find (canonicalName name)).handlers.any Handler.isFile = true

instance (w : Workspace) (name : String) : Decidable (WritesFile w name) :=
  inferInstanceAs (Decidable (_ = true))

/-- A logger writes to a file when one of its handlers does. -/
theorem writesFile_iff : WritesFile w name ↔
    true ∈ (w.loggers.find (canonicalName name)).handlers.map Handler.isFile := by
  rw [WritesFile, List.any_eq_true, List.mem_map]

/-- With the same kinds of handlers, the same loggers write to files. -/
theorem SameKinds.writesFile_iff {after : Workspace} (h : SameKinds kinds w)
    (hafter : SameKinds kinds after) : WritesFile after name ↔ WritesFile w name := by
  rw [Logging.writesFile_iff, Logging.writesFile_iff, h, hafter]

/-- A logger that is given a file writes to one. -/
theorem writesFile_addSink (w : Workspace) (name : String) (sink : FileSink) :
    WritesFile { w with
      loggers := w.loggers.update (canonicalName name) fun logger =>
        { logger with handlers := logger.handlers ++ [.file sink] } } name := by
  rw [WritesFile]
  dsimp only
  rw [find_update_self (fun logger => { logger with handlers := logger.handlers ++ [.file sink] })
    fun _ => rfl]
  simp [Handler.isFile]

/-- A note gives no logger a file and takes none away. All that can go wrong with it is that it cannot be
rendered. -/
theorem say_writesFile (w : Workspace) (name other : String) (message : Note) :
    (∀ fault, (say other message w).1 = .error fault → Breaks message.message fault) ∧
      (WritesFile (say other message w).2 name ↔ WritesFile w name) := by
  have hsteady : Steady fun _ => True :=
    ⟨fun _ _ _ h => h, fun _ _ h => h, fun _ _ h => h, fun _ _ h => h⟩
  have hkinds : SameKinds (fun n => (w.loggers.find n).handlers.map Handler.isFile) w := fun _ => rfl
  refine ⟨fun fault hfault => (hsteady.say_upholds other message).allowed_of_error trivial hfault, ?_⟩
  exact hkinds.writesFile_iff ((say_sameKinds other message).after hkinds)

end ClarityDelta.Logging
