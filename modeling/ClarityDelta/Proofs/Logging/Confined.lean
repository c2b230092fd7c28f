import ClarityDelta.Logging.Setup
import ClarityDelta.Proofs.Action
import ClarityDelta.Proofs.Files.InTurn
import ClarityDelta.Proofs.Logging.Rolling

/-!
# Where loggers write

`Confined` says of a workspace that the files of all its loggers stand in a zone. Noting keeps it, and
changes nothing outside the zone, `say_upholds`; setting up a logger whose file is in the zone keeps it
as well, `setUp_upholds`. What else is to hold of the files, as long as nothing changes outside the zone,
is carried along as `kept`.
-/

namespace ClarityDelta.Logging

open Files FileTree FileWork

variable {current : Location} {zone : Location → Prop} {kept : FileTree → Prop}
  {tree after : FileTree} {logger : Logger} {registry : Registry} {w : Workspace}

/-! ## Invariant -/

/-- What holds of a tree as long as nothing changes outside a zone. -/
def Lasting (zone : Location → Prop) (kept : FileTree → Prop) : Prop :=
  ∀ tree after, SameOutside zone tree after → kept tree → kept after

/-- A fault that the command line does not report as a failure of its own work. -/
def Foreign (fault : Fault) : Prop :=
  fault.isOwn = false

/-- Handlers that write to logs in a zone only. -/
def HandlersLog (current : Location) (zone : Location → Prop) (tree : FileTree)
    (handlers : List Handler) : Prop :=
  ∀ sink, .file sink ∈ handlers → sink.Logs current zone tree

/-- Handlers go on logging in the zone whatever changes inside it. -/
theorem HandlersLog.lasting (current : Location) (zone : Location → Prop)
    (handlers : List Handler) : Lasting zone fun tree => HandlersLog current zone tree handlers :=
  fun _ _ hsame h sink hsink => (h sink hsink).of_sameOutside hsame

/-- Two lasting properties last together. -/
theorem Lasting.and {other : FileTree → Prop} (h : Lasting zone kept) (hother : Lasting zone other) :
    Lasting zone fun tree => kept tree ∧ other tree :=
  fun tree after hsame hand => ⟨h tree after hsame hand.1, hother tree after hsame hand.2⟩

/-- To be the same outside the zone lasts. -/
theorem Lasting.sameOutside (zone : Location → Prop) (tree : FileTree) :
    Lasting zone (SameOutside zone tree) :=
  fun _ _ hsame h => h.trans hsame

/-- What always holds lasts. -/
theorem Lasting.true (zone : Location → Prop) : Lasting zone fun _ => True :=
  fun _ _ _ _ => trivial

/-- All loggers write to files in a zone only, and something else holds of the files. -/
structure Confined (current : Location) (zone : Location → Prop) (kept : FileTree → Prop)
    (w : Workspace) : Prop where
  sound : w.files.Sound
  current_eq : w.files.current = current
  logs : ∀ logger ∈ w.loggers, HandlersLog current zone w.files logger.handlers
  kept : kept w.files

namespace Confined

/-- Less may be kept of the files. -/
theorem mono {other : FileTree → Prop} (h : Confined current zone kept w)
    (hother : kept w.files → other w.files) : Confined current zone other w :=
  ⟨h.sound, h.current_eq, h.logs, hother h.kept⟩

/-- The logs stay confined when nothing outside the zone changes. -/
theorem of_sameOutside (h : Confined current zone kept w) (hkept : Lasting zone kept)
    (hsame : SameOutside zone w.files after) :
    Confined current zone kept { w with files := after } :=
  ⟨hsame.sound h.sound, hsame.current_eq.trans h.current_eq, fun logger hlogger =>
    HandlersLog.lasting current zone logger.handlers _ _ hsame (h.logs logger hlogger),
    hkept _ _ hsame h.kept⟩

/-- The logs stay confined when all files stay in their places. -/
theorem of_stays (h : Confined current zone kept w) (hstays : w.files.Stays after)
    (hkept : kept after) : Confined current zone kept { w with files := after } :=
  ⟨hstays.sound h.sound, hstays.current_eq.trans h.current_eq, fun logger hlogger sink hsink =>
    (h.logs logger hlogger sink hsink).of_stays hstays, hkept⟩

end Confined

/-- A logger that is found is registered or new. -/
theorem mem_find (registry : Registry) (name : String) :
    registry.find name ∈ registry ∨ registry.find name = .fresh name := by
  rw [Registry.find]
  cases hfind : List.find? (fun logger => decide (logger.name = name)) registry with
  | none => exact Or.inr rfl
  | some logger => exact Or.inl (List.mem_of_find?_eq_some hfind)

/-- A message reaches no other loggers than those that are found by a name. -/
theorem exists_find_of_mem_reached {name : String} (h : logger ∈ registry.reached name) :
    ∃ above, registry.find above = logger := by
  have hupward : logger ∈ registry.upward name := by
    rw [Registry.reached] at h
    rcases List.mem_append.mp h with hmem | hmem
    · exact (List.takeWhile_sublist _).subset hmem
    · exact (List.drop_sublist _ _).subset ((List.take_sublist _ _).subset hmem)
  obtain ⟨above, -, heq⟩ := List.mem_map.mp hupward
  exact ⟨above, heq⟩

/-- What holds of the handlers of all known loggers, and of no handlers, holds of those that an entry
reaches. -/
theorem holds_of_mem_reached {holds : List Handler → Prop} (hnone : holds [])
    (h : ∀ logger ∈ registry, holds logger.handlers) {name : String}
    (hlogger : logger ∈ registry.reached name) : holds logger.handlers := by
  obtain ⟨above, rfl⟩ := exists_find_of_mem_reached hlogger
  rcases mem_find registry above with hmem | hfresh
  · exact h _ hmem
  · rw [hfresh]
    exact hnone

/-- What holds of all handlers of a registry, and is kept by a change, holds after it. -/
theorem holds_of_mem_update {holds : List Handler → Prop} (hnone : holds []) {name : String}
    {change : Logger → Logger} (h : ∀ logger ∈ registry, holds logger.handlers)
    (hchange : ∀ logger, holds logger.handlers → holds (change logger).handlers)
    (hlogger : logger ∈ registry.update name change) : holds logger.handlers := by
  rw [Registry.update] at hlogger
  split at hlogger
  · obtain ⟨old, hold, rfl⟩ := List.mem_map.mp hlogger
    split
    · exact hchange old (h old hold)
    · exact h old hold
  · rcases List.mem_append.mp hlogger with hmem | hmem
    · exact h logger hmem
    · rw [List.mem_singleton.mp hmem]
      exact hchange _ hnone

/-- Without handlers there is no log. -/
theorem handlersLog_nil (current : Location) (zone : Location → Prop) (tree : FileTree) :
    HandlersLog current zone tree [] :=
  fun _ hsink => absurd hsink List.not_mem_nil

/-- Changing a logger keeps the log in the zone, if the handlers it has afterwards write in the zone. -/
theorem updateLogger_upholds {name : String} {change : Logger → Logger}
    (hchange : ∀ tree, kept tree → ∀ logger, HandlersLog current zone tree logger.handlers →
      HandlersLog current zone tree (change logger).handlers) :
    Upholds (Confined current zone kept) Foreign (Work.updateLogger name change) :=
  Upholds.modify fun _ h => ⟨h.sound, h.current_eq, fun _ hlogger =>
    holds_of_mem_update (handlersLog_nil _ _ _) h.logs (hchange _ h.kept) hlogger, h.kept⟩

/-! ## Noting -/

/-- A handler writes in the zone only, and stays one that does. -/
theorem handle_upholds (current : Location) (hkept : Lasting zone kept) (entry : Entry)
    (handler : Handler) :
    Ensures (Confined current zone fun tree => kept tree ∧ HandlersLog current zone tree [handler])
      (handler.handle entry)
      (fun handler => Confined current zone fun tree =>
        kept tree ∧ HandlersLog current zone tree [handler])
      fun fault w => Confined current zone kept w ∧ Foreign fault := by
  cases handler with
  | console =>
    rw [Handler.handle]
    split
    · exact Ensures.throw fun w h => ⟨h.mono And.left, rfl⟩
    · refine ⟨fun w h => ?_⟩
      exact ⟨h.sound, h.current_eq, h.logs, h.kept⟩
  | file sink =>
    rw [Handler.handle]
    split
    · exact Ensures.pure fun _ h => h
    · split
      · exact Ensures.pure fun _ h => h
      · next line hline =>
        refine ⟨fun w h => ?_⟩
        have hadded := FileSink.Logs.add h.sound h.current_eq (h.kept.2 sink List.mem_cons_self) line
        refine ⟨hadded.1.sound h.sound, hadded.1.current_eq.trans h.current_eq, ?_, ?_, ?_⟩
        · exact fun logger hlogger =>
            HandlersLog.lasting current zone logger.handlers _ _ hadded.1 (h.logs logger hlogger)
        · exact hkept _ _ hadded.1 h.kept.1
        · intro other hother
          obtain rfl := Handler.file.inj (List.mem_singleton.mp hother)
          exact hadded.2

/-- Handling a message by several handlers changes nothing but logs in the zone. -/
theorem handleAll_upholds (current : Location) (hkept : Lasting zone kept) (name : String)
    (entry : Entry) (index : Nat) (handlers : List Handler) :
    Ensures (Confined current zone fun tree => kept tree ∧ HandlersLog current zone tree handlers)
      (handleAll name entry index handlers) (fun _ => Confined current zone kept)
      fun fault w => Confined current zone kept w ∧ Foreign fault := by
  induction handlers generalizing index with
  | nil => exact Ensures.pure fun _ h => h.mono And.left
  | cons handler rest ih =>
    rw [handleAll]
    -- the handlers to come are carried along as something that lasts
    have hrest := hkept.and (HandlersLog.lasting current zone rest)
    refine Ensures.bind ((handle_upholds current hrest entry handler).mono ?_ (fun _ _ h => h) ?_)
      fun handler => ?_
    · refine fun w h => h.mono fun ⟨hw, hall⟩ => ⟨⟨hw, fun sink hsink => ?_⟩, fun sink hsink => ?_⟩
      · exact hall sink (List.mem_cons_of_mem _ hsink)
      · exact hall sink (List.mem_singleton.mp hsink ▸ List.mem_cons_self)
    · exact fun _ _ h => ⟨h.1.mono And.left, h.2⟩
    · refine Ensures.bind ((updateLogger_upholds ?_).widen
        fun _ _ h => ⟨h.1.mono fun hw => hw.1.1, h.2⟩) fun _ => ?_
      · intro tree hw logger hlogger sink hsink
        rcases List.mem_or_eq_of_mem_set hsink with hmem | heq
        · exact hlogger sink hmem
        · exact hw.2 sink (heq ▸ List.mem_cons_self)
      · exact (ih (index + 1)).narrow fun _ h => h.mono And.left

/-- Handling a message by several loggers changes nothing but logs in the zone. -/
theorem receive_upholds (current : Location) (hkept : Lasting zone kept) (entry : Entry)
    (loggers : List Logger) :
    Ensures
      (Confined current zone fun tree =>
        kept tree ∧ ∀ logger ∈ loggers, HandlersLog current zone tree logger.handlers)
      (receive entry loggers) (fun _ => Confined current zone kept)
      fun fault w => Confined current zone kept w ∧ Foreign fault := by
  induction loggers with
  | nil => exact Ensures.pure fun _ h => h.mono And.left
  | cons logger above ih =>
    rw [receive]
    have habove : Lasting zone fun tree => kept tree ∧
        ∀ other ∈ above, HandlersLog current zone tree other.handlers :=
      hkept.and fun tree after hsame h other hother =>
        HandlersLog.lasting current zone other.handlers tree after hsame (h other hother)
    have hupdate : Upholds (Confined current zone fun tree => kept tree ∧
        ∀ other ∈ logger :: above, HandlersLog current zone tree other.handlers) Foreign
        (Work.updateLogger logger.name fun logger =>
          { logger with received := logger.received ++ [(entry.level, entry.message)] }) :=
      updateLogger_upholds fun _ _ _ h => h
    refine Ensures.bind (hupdate.widen fun _ _ h => ⟨h.1.mono And.left, h.2⟩) fun _ => ?_
    refine Ensures.bind ((handleAll_upholds current habove logger.name entry 0 logger.handlers).mono ?_
      (fun _ _ h => h) fun _ _ h => ⟨h.1.mono And.left, h.2⟩) fun _ => ih
    refine fun w h => h.mono fun ⟨hw, hall⟩ => ⟨⟨hw, fun other hother => ?_⟩, ?_⟩
    · exact hall other (List.mem_cons_of_mem logger hother)
    · exact hall logger List.mem_cons_self

/-- A message changes nothing but logs in the zone. -/
theorem note_upholds (hkept : Lasting zone kept) (entry : Entry) :
    Upholds (Confined current zone kept) Foreign (note entry) := by
  refine Ensures.get_bind fun w h => ?_
  dsimp only
  split
  · refine (receive_upholds current hkept entry _).narrow ?_
    rintro _ rfl
    exact ⟨h.sound, h.current_eq, h.logs, h.kept,
      fun _ => holds_of_mem_reached (handlersLog_nil _ _ _) h.logs⟩
  · exact Ensures.pure fun _ heq => heq ▸ h

/-- Noting a message changes the files in the zone only, and ends with a fault of the console at
most. -/
theorem say_upholds (hkept : Lasting zone kept) (name : String) (message : Note) :
    Upholds (Confined current zone kept) Foreign (say name message) := by
  refine Ensures.get_bind fun w h => ?_
  exact (note_upholds hkept _).narrow fun _ heq => heq ▸ h

/-! ## Setting up -/

/-- Work on files changes the files only, and its error is an outcome. -/
theorem tryFiles_apply {α : Type} (work : FileWork α) (w : Workspace) :
    Work.tryFiles work w = (.ok (work w.files).1, { w with files := (work w.files).2 }) := rfl

/-- Trying to make a directory keeps the log in the zone, whether it succeeds or not. -/
theorem tryMakeInTurn_upholds (path : String) :
    Upholds (Confined current zone fun _ => True) Foreign (Work.tryFiles (makeInTurn path)) := by
  refine ⟨fun w h => ?_⟩
  rw [tryFiles_apply]
  exact h.of_stays (makeInTurn_grew path w.files).stays trivial

/-- Opening the log file gives a file that stands in the zone only. -/
theorem openEnd_ensures {path full : String} {count : Int}
    (hfull : full = absoluteText current path)
    (hzone : ∀ location, LogZone current path count location → zone location) :
    Ensures (Confined current zone fun _ => True) (Work.files (openEnd full))
      (fun id => Confined current zone fun tree => tree.Confines zone id)
      fun fault w => Confined current zone (fun _ => True) w ∧ Foreign fault := by
  refine ⟨fun w h => ?_⟩
  have hcases := openEnd_log path count h.sound h.current_eq
  rw [← hfull] at hcases
  rw [Work.files]
  obtain ⟨error, hopen⟩ | ⟨id, after, hopen, hsame, hconfined, -⟩ := hcases
  · rw [hopen]
    exact ⟨h, rfl⟩
  · rw [hopen]
    exact (h.of_sameOutside (Lasting.true zone) (hsame.mono hzone)).mono fun _ =>
      hconfined.mono hzone

/-- Giving a logger a sink keeps the log in the zone, if the open file of the sink stands in the
zone. -/
theorem addSink_ensures {name : String} {sink : FileSink} {id : Nat} (hid : sink.opened = some id)
    (hwithin : ∃ path, sink.path = absoluteText current path ∧
      ∀ location, LogZone current path sink.backupCount location → zone location) :
    Ensures (Confined current zone fun tree => tree.Confines zone id)
      (Work.updateLogger name fun logger =>
        { logger with handlers := logger.handlers ++ [.file sink] })
      (fun _ => Confined current zone fun _ => True)
      fun fault w => Confined current zone (fun _ => True) w ∧ Foreign fault := by
  have hupholds : Upholds (Confined current zone fun tree => tree.Confines zone id) Foreign
      (Work.updateLogger name fun logger =>
        { logger with handlers := logger.handlers ++ [.file sink] }) := by
    refine updateLogger_upholds fun tree hconfined logger hlogger other hother => ?_
    rcases List.mem_append.mp hother with hmem | hmem
    · exact hlogger other hmem
    · obtain rfl := Handler.file.inj (List.mem_singleton.mp hmem)
      refine ⟨hwithin, fun opened hopened => ?_⟩
      obtain rfl := Option.some.inj (hid.symm.trans hopened)
      exact hconfined
  exact hupholds.mono (fun _ h => h) (fun _ _ h => h.mono fun _ => trivial) fun _ _ h =>
    ⟨h.1.mono fun _ => trivial, h.2⟩

/-- Giving a logger a file changes nothing but logs in the zone. -/
theorem addFile_upholds {name path : String} {level : Int} {options : LoggerOptions}
    (hzone : ∀ location, LogZone current path options.backupCount location → zone location) :
    Upholds (Confined current zone fun _ => True) Foreign (addFile name path level options) := by
  rw [addFile]
  refine Upholds.bind (tryMakeInTurn_upholds _) fun outcome => ?_
  cases outcome with
  | error error =>
    dsimp only
    split
    · exact say_upholds (Lasting.true zone) name _
    · exact Upholds.throw rfl
  | ok =>
    dsimp only
    refine Ensures.get_bind fun w h => ?_
    rw [h.current_eq]
    generalize (if options.format.isEmpty = true then usualFormat else options.format) = format
    refine Ensures.bind ((openEnd_ensures rfl hzone).narrow fun _ heq => heq ▸ h) fun id => ?_
    split
    · exact Ensures.throw fun _ hw => ⟨hw.mono fun _ => trivial, rfl⟩
    · exact addSink_ensures rfl ⟨path, rfl, hzone⟩

/-- An unknown level is no failure of the program's own work. -/
theorem foreign_of_levelNumber {options : LoggerOptions} {fault : Fault}
    (h : options.levelNumber = .error fault) : Foreign fault := by
  rw [LoggerOptions.levelNumber] at h
  split at h
  · cases h
  · next name hlevel =>
    cases hname : levelOfName name with
    | error text =>
      rw [hname] at h
      obtain rfl := Except.error.inj h
      rfl
    | ok n =>
      rw [hname] at h
      cases h

/-- Setting a logger up keeps the log in the zone, if the places of its own log file are in the zone. -/
theorem setUp_upholds {name : String} {options : LoggerOptions}
    (hzone : options.filePath ≠ "" →
      ∀ location, LogZone current options.filePath options.backupCount location → zone location) :
    Upholds (Confined current zone fun _ => True) Foreign (setUp name options) := by
  rw [setUp]
  refine Upholds.bind (updateLogger_upholds fun _ _ _ h => h) fun _ => ?_
  cases hlevel : options.levelNumber with
  | error fault => exact Upholds.throw (foreign_of_levelNumber hlevel)
  | ok level =>
    dsimp only
    refine Upholds.bind ?_ fun _ => ?_
    · refine updateLogger_upholds fun _ _ logger h => ?_
      split
      · intro sink hsink
        rcases List.mem_append.mp hsink with hmem | hmem
        · exact h sink hmem
        · cases List.mem_singleton.mp hmem
      · exact h
    · refine Upholds.bind Upholds.get fun w => ?_
      split
      · next hfile =>
        have hempty := (Bool.and_eq_true_iff.mp hfile).1
        exact addFile_upholds (hzone (by simpa using hempty))
      · exact Upholds.pure ()

end ClarityDelta.Logging
