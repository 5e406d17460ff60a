import RyuRooms.Runtime.Published

/-! # What a published event was put together from

An event carries what its thread brought along, and what a snapshot showed when the thread read it: for a turn
also the run that a retry looked up after that. `Source` names both, and every event that a run has published
has one, read in that run.
-/

namespace RyuRooms

open Foundation

namespace RoomStore

variable (store : RoomStore)

/-- The snapshot that `db` shows under a room id. -/
def shows (db : Db) (roomId : String) : Option RoomSnapshot :=
  (validateRoomId roomId).toOption.bind (store.snapshotFrom db)

/-- The run a turn is accepted as: the room's current one, or the one that its retry looks up. -/
def turnRun (turn : AppendedTurn) (shown retried : Db) : Option RoomRun :=
  match turn.messageId with
  | some _ => (currentRow shown (trim turn.roomId)).map fun row => store.openRunOrBlank (rowToRun row)
  | none => (retried.runs.find? fun run => run.roomId == turn.roomId && run.id == turn.runId).bind fun row =>
      (store.openRun (rowToRun row)).toOption

/-- The newest message that a turn takes for its own. -/
def turnMessage (turn : AppendedTurn) (shown : Db) : Option RoomMessage :=
  (store.loadMessages shown (trim turn.roomId)).reverse.find? fun message =>
    message.role == .user && message.text == turn.text && turn.messageId.all fun id => message.id == id

variable {store} {draws : Draws} {shown source target : Db} {roomId : String} {turn : AppendedTurn}
  {snapshot : RoomSnapshot}

theorem shows_eq_some_iff : store.shows shown roomId = some snapshot ↔
    ∃ id, validateRoomId roomId = .ok id ∧ store.snapshotFrom shown id = some snapshot := by
  simp only [shows, Option.bind_eq_some_iff, Except.toOption]
  constructor
  · rintro ⟨id, valid, found⟩
    cases checked : validateRoomId roomId with
    | error error => simp [checked] at valid
    | ok other =>
      rw [checked, Option.some.injEq] at valid
      exact ⟨id, congrArg _ valid, found⟩
  · rintro ⟨id, valid, found⟩
    exact ⟨id, by rw [valid], found⟩

/-- What a turn is accepted as comes from its snapshot, and for a retry from the tables after it. -/
theorem acceptTurn_from (read : store.shows shown turn.roomId = some snapshot) {accepted : AcceptedRun}
    (success : store.acceptTurn draws.env turn snapshot source = .ok accepted target) :
    accepted.snapshot = snapshot ∧ store.turnRun turn shown source = some accepted.run ∧
      store.turnMessage turn shown = some accepted.userMessage := by
  obtain ⟨id, valid, found⟩ := shows_eq_some_iff.mp read
  obtain ⟨rfl, -⟩ := validateRoomId_ok_iff.mp valid
  obtain ⟨room, -, rfl⟩ := Option.map_eq_some_iff.mp found
  simp only [acceptTurn, bind_ok_iff, orFail_ok_iff, pure_ok_iff] at success
  obtain ⟨run, _, taken, message, _, ⟨looked, rfl⟩, rfl, rfl⟩ := success
  refine ⟨rfl, ?_, looked⟩
  rw [turnRun]
  cases messageId : turn.messageId with
  | some id =>
    simp only [acceptedRun, messageId, orFail_ok_iff] at taken
    exact taken.1
  | none =>
    simp only [acceptedRun, messageId, runById, bind_ok_iff, orFail_ok_iff, query_ok_iff] at taken
    obtain ⟨_, _, ⟨row, _, ⟨found, rfl⟩, opened⟩, rfl, rfl⟩ := taken
    cases row with
    | none => simp at opened
    | some row =>
      simp only [map_ok_iff, returnExcept_ok_iff, mapError_eq_ok_iff, Option.some.injEq] at opened
      obtain ⟨_, ⟨opens, -⟩, rfl⟩ := opened
      simp [found, opens, Except.toOption]

end RoomStore

/-- What an event is put together from: what its thread brought along, and the tables it read. -/
inductive Source where
  | accepted (turn : RoomStore.AppendedTurn) (shown retried : Db)
  | delta (roomId runId requestId added partialText : String)
  | completed (roomId runId requestId : String) (shown : Db)
  | failed (roomId runId requestId code : String) (shown : Db)
  | canceled (roomId runId : String) (shown : Db)
  | closed (roomId : String) (shown : Db)

/-- The event, and the room id it is published under. -/
def Source.event (store : RoomStore) : Source → Option (String × RoomEvent)
  | accepted turn shown retried => do
    let snapshot ← store.shows shown turn.roomId
    let run ← store.turnRun turn shown retried
    let message ← store.turnMessage turn shown
    return (snapshot.id, .turnAccepted run message snapshot)
  | delta roomId runId requestId added partialText => some (roomId, .turnDelta runId requestId added partialText)
  | completed roomId runId requestId shown =>
    (store.shows shown roomId).map fun snapshot => (roomId, .turnCompleted runId requestId snapshot)
  | failed roomId runId requestId code shown =>
    (store.shows shown roomId).map fun snapshot => (roomId, .turnFailed runId requestId code snapshot)
  | canceled roomId runId shown =>
    (store.shows shown roomId).map fun snapshot => (roomId, .turnCanceled runId snapshot)
  | closed roomId shown => (store.shows shown roomId).map fun snapshot => (roomId, .roomClosed snapshot)

/-- At some step of a run the thread `index` went on from a point, over these tables. -/
def WentOn (store : RoomStore) (labels : List Label) (index : ℕ) (at_ : Thread → Prop) (db : Db) : Prop :=
  (runtimeMachine store).Once (fun _ state label => state.db = db ∧ ∃ draws fails thread,
    label = .advance index draws fails ∧ state.threads[index]? = some thread ∧ at_ thread) labels

/-- A generation of these ids. -/
structure Generation.Is (generation : Generation) (roomId runId requestId : String) : Prop where
  room : generation.roomId = roomId
  run : generation.runId = runId
  request : generation.requestId = requestId

/-- The steps at which a run read a source. -/
def Source.ReadIn (store : RoomStore) (labels : List Label) : Source → Prop
  | accepted turn shown retried => ∃ index,
    WentOn store labels index (fun thread => ∃ request, thread = .call request (.readSnapshot turn)) shown ∧
    WentOn store labels index (fun thread => ∃ request snapshot, thread = .call request (.accept turn snapshot) ∧
      store.shows shown turn.roomId = some snapshot) retried
  | delta roomId runId requestId added partialText => ∃ index db,
    WentOn store labels index (fun thread => ∃ generation, thread = .task generation (.publishDelta added) ∧
      generation.Is roomId runId requestId ∧ generation.partialText = partialText) db
  | completed roomId runId requestId shown => ∃ index,
    WentOn store labels index (fun thread => ∃ generation, thread = .task generation .readCompleted ∧
      generation.Is roomId runId requestId) shown
  | failed roomId runId requestId code shown => ∃ index,
    WentOn store labels index (fun thread => ∃ generation, thread = .task generation (.readFailed code) ∧
      generation.Is roomId runId requestId) shown
  | canceled roomId runId shown => ∃ index,
    WentOn store labels index (fun thread => ∃ request closing,
      thread = .call request (.readStopped closing roomId runId)) shown
  | closed roomId shown => ∃ index,
    WentOn store labels index (fun thread => ∃ request, thread = .call request (.readClosed roomId)) shown

section Runs

variable {store : RoomStore} {past labels : List Label} {state next : Runtime} {label : Label} {index : ℕ}
  {at_ : Thread → Prop} {db : Db}

theorem WentOn.append (went : WentOn store past index at_ db) (more : List Label) :
    WentOn store (past ++ more) index at_ db := Machine.Once.append went more

/-- The step that a run takes next is one it went on by. -/
theorem WentOn.of_step (run : (runtimeMachine store).Run past state) {draws : Draws} {fails : Bool} {thread : Thread}
    (held : state.threads[index]? = some thread) (stands : at_ thread) :
    WentOn store (past ++ [.advance index draws fails]) index at_ state.db :=
  run.once ⟨rfl, draws, fails, thread, rfl, held, stands⟩

theorem Source.ReadIn.append {source : Source} (read : source.ReadIn store past) (more : List Label) :
    source.ReadIn store (past ++ more) := by
  cases source with
  | accepted turn shown retried =>
    obtain ⟨index, first, second⟩ := read
    exact ⟨index, first.append more, second.append more⟩
  | delta roomId runId requestId delta partialText =>
    obtain ⟨index, db, went⟩ := read
    exact ⟨index, db, went.append more⟩
  | completed | failed | canceled | closed =>
    obtain ⟨index, went⟩ := read
    exact ⟨index, went.append more⟩

/-- An event has a source that the run has read. -/
def Sourced (store : RoomStore) (past : List Label) (entry : String × RoomEvent) : Prop :=
  ∃ source : Source, source.ReadIn store past ∧ source.event store = some entry

theorem Sourced.append {entry : String × RoomEvent} (sourced : Sourced store past entry) (more : List Label) :
    Sourced store (past ++ more) entry := by
  obtain ⟨source, read, event⟩ := sourced
  exact ⟨source, read.append more, event⟩

/-- What a thread is about to publish has a source; a delta is read only as it is published, and a turn that is
about to be accepted has read its snapshot. -/
structure ThreadSourced (store : RoomStore) (past : List Label) (k : ℕ) (thread : Thread) : Prop where
  accepts : ∀ request turn snapshot, thread = .call request (.accept turn snapshot) →
    ∃ shown, store.shows shown turn.roomId = some snapshot ∧
      WentOn store past k (fun thread => ∃ request, thread = .call request (.readSnapshot turn)) shown
  publishes : ∀ entry, Runtime.emits thread = some entry →
    (∃ generation added, thread = .task generation (.publishDelta added)) ∨ Sourced store past entry

namespace ThreadSourced

variable {k : ℕ} {thread : Thread}

theorem append (sourced : ThreadSourced store past k thread) (more : List Label) :
    ThreadSourced store (past ++ more) k thread where
  accepts request turn snapshot stands :=
    let ⟨shown, shows, went⟩ := sourced.accepts request turn snapshot stands
    ⟨shown, shows, went.append more⟩
  publishes entry emitted := (sourced.publishes entry emitted).imp_right (·.append more)

/-- A flag changes nothing of what a task publishes. -/
theorem kept {old found : Thread} (keeps : Runtime.Kept old found) (sourced : ThreadSourced store past k old) :
    ThreadSourced store past k found := by
  cases keeps with
  | same => exact sourced
  | @flagged generation point _ =>
    refine ⟨fun _ _ _ stands => (nomatch stands), fun entry emitted => ?_⟩
    cases point with
    | publishDelta added => exact Or.inl ⟨_, added, rfl⟩
    | publishCompleted snapshot =>
      refine Or.inr ((sourced.publishes entry emitted).resolve_left ?_)
      rintro ⟨_, _, same⟩
      cases same
    | publishFailed code snapshot =>
      refine Or.inr ((sourced.publishes entry emitted).resolve_left ?_)
      rintro ⟨_, _, same⟩
      cases same
    | _ => cases emitted

/-- A task that publishes nothing next has nothing to account for. -/
theorem of_idle {generation : Generation} {point : TaskPoint} (silent : Runtime.emits (.task generation point) = none) :
    ThreadSourced store past k (.task generation point) where
  accepts _ _ _ stands := by cases stands
  publishes _ emitted := by
    rw [silent] at emitted
    cases emitted

/-- Neither has a request that is not about to accept its turn. -/
theorem of_silent {request : Request} {point : CallPoint} (silent : Runtime.emits (.call request point) = none)
    (apart : ∀ turn snapshot, .accept turn snapshot ≠ point) : ThreadSourced store past k (.call request point) where
  accepts _ turn snapshot stands := absurd (Thread.call.inj stands).2.symm (apart turn snapshot)
  publishes _ emitted := by
    rw [silent] at emitted
    cases emitted

/-- A thread that is about to publish what has a source. -/
theorem of_emits {entry : String × RoomEvent} (emitted : Runtime.emits thread = some entry)
    (sourced : Sourced store past entry) : ThreadSourced store past k thread where
  accepts _ _ _ stands := by
    subst stands
    cases emitted
  publishes other found := Or.inr (Option.some.inj (emitted.symm.trans found) ▸ sourced)

/-- A request that goes on has read what it is then about to publish. -/
theorem called (run : (runtimeMachine store).Run past state) {draws : Draws} {fails : Bool} {request : Request}
    {point reached : CallPoint} {middle : Runtime} (held : state.threads[index]? = some (.call request point))
    (step : Runtime.CallStep store draws fails state point reached middle)
    (sourced : ThreadSourced store past index (.call request point)) :
    ThreadSourced store (past ++ [.advance index draws fails]) index (.call request reached) := by
  have returns (closing : Bool) (roomId : String) (answer : Answer) : ThreadSourced store
      (past ++ [.advance index draws fails]) index (.call request (.afterStop closing roomId answer)) := by
    rw [CallPoint.afterStop]
    split <;> exact of_silent rfl fun _ _ => by rintro ⟨⟩
  cases step with
  | @readSnapshot turn _ _ valid shown =>
    refine ⟨fun _ _ _ stands => ?_, fun _ emitted => by cases emitted⟩
    cases stands
    exact ⟨state.db, RoomStore.shows_eq_some_iff.mpr ⟨_, valid, shown⟩, .of_step run held ⟨request, rfl⟩⟩
  | @accepted turn snapshot accepted success =>
    obtain ⟨target, success⟩ := success
    obtain ⟨shown, shows, went⟩ := sourced.accepts request turn snapshot rfl
    obtain ⟨rfl, isRun, message⟩ := RoomStore.acceptTurn_from shows success
    refine of_emits rfl ⟨.accepted turn shown state.db, ⟨index, went.append _,
      .of_step run held ⟨request, _, rfl, shows⟩⟩, ?_⟩
    simp [Source.event, shows, isRun, message]
  | @readStopped closing roomId runId _ _ valid shown =>
    exact of_emits rfl ⟨.canceled roomId runId state.db, ⟨index, .of_step run held ⟨request, closing, rfl⟩⟩,
      by simp [Source.event, RoomStore.shows_eq_some_iff.mpr ⟨_, valid, shown⟩]⟩
  | @readClosed roomId _ _ valid shown =>
    exact of_emits rfl ⟨.closed roomId state.db, ⟨index, .of_step run held ⟨request, rfl⟩⟩,
      by simp [Source.event, RoomStore.shows_eq_some_iff.mpr ⟨_, valid, shown⟩]⟩
  | publishedAccepted => split <;> exact of_silent rfl fun _ _ => by rintro ⟨⟩
  | publishedCanceled => exact returns _ _ _
  | refused refuses =>
    cases point with
    | stop closing roomId stopped => exact returns _ _ _
    | readStopped closing roomId stopped => exact returns _ _ _
    | _ => exact of_silent rfl fun _ _ => by rintro ⟨⟩
  | readClosing =>
    rw [Runtime.closingPoint]
    split <;> exact of_silent rfl fun _ _ => by rintro ⟨⟩
  | _ => exact of_silent rfl fun _ _ => by rintro ⟨⟩

/-- So has a task. -/
theorem ran (run : (runtimeMachine store).Run past state) {draws : Draws} {fails : Bool} {generation : Generation}
    {point reached : TaskPoint} {middle : Runtime} (held : state.threads[index]? = some (.task generation point))
    (step : Runtime.TaskStep store draws fails state generation point reached middle) :
    ThreadSourced store (past ++ [.advance index draws fails]) index (.task generation reached) := by
  cases step with
  | @extended added => exact ⟨fun _ _ _ stands => (nomatch stands), fun _ _ => Or.inl ⟨generation, added, rfl⟩⟩
  | readCompleted valid shown =>
    exact of_emits rfl ⟨.completed _ _ _ state.db, ⟨index, .of_step run held ⟨generation, rfl, rfl, rfl, rfl⟩⟩,
      by simp [Source.event, RoomStore.shows_eq_some_iff.mpr ⟨_, valid, shown⟩]⟩
  | @readFailed code _ _ valid shown =>
    exact of_emits rfl ⟨.failed _ _ _ code state.db, ⟨index, .of_step run held ⟨generation, rfl, rfl, rfl, rfl⟩⟩,
      by simp [Source.event, RoomStore.shows_eq_some_iff.mpr ⟨_, valid, shown⟩]⟩
  | rejected => split <;> exact of_idle rfl
  | _ => exact of_idle rfl

/-- What a thread publishes has a source. -/
theorem published (run : (runtimeMachine store).Run past state) {entry : String × RoomEvent}
    (held : state.threads[index]? = some thread) (emitted : Runtime.emits thread = some entry)
    {draws : Draws} {fails : Bool} (sourced : ThreadSourced store past index thread) :
    Sourced store (past ++ [.advance index draws fails]) entry := by
  rcases sourced.publishes entry emitted with ⟨generation, added, rfl⟩ | sourced
  · cases emitted
    exact ⟨.delta _ _ _ _ _, ⟨index, state.db, .of_step run held ⟨generation, rfl, ⟨rfl, rfl, rfl⟩, rfl⟩⟩, rfl⟩
  · exact sourced.append _

end ThreadSourced

/-- Every event that a run has published has a source that the run has read. -/
theorem sourced_of_run (run : (runtimeMachine store).Run labels state) :
    ∀ entry ∈ state.published, Sourced store labels entry := by
  have both := run.history (fun past state => (∀ k thread, state.threads[k]? = some thread →
      ThreadSourced store past k thread) ∧ ∀ entry ∈ state.published, Sourced store past entry) ?_ ?_
  · exact both.2
  · intro state initial
    exact ⟨fun k thread held => by simp [initial.threads] at held,
      fun entry member => by simp [initial.published] at member⟩
  · intro past state label next run sourced stepped
    have step := Runtime.Step.of_step? stepped
    constructor
    · refine step.each (ThreadSourced store past) (ThreadSourced store (past ++ [label])) sourced.1 ?_ ?_ ?_ ?_ ?_ ?_ ?_
      · exact fun k old found _ keeps known => (known.kept keeps).append _
      · rintro k request -
        rw [Request.first.eq_def]
        split <;> exact .of_silent rfl fun _ _ stands => (nomatch stands)
      · exact fun k request => .of_silent rfl fun _ _ stands => (nomatch stands)
      · rintro index draws fails request point reached middle rfl held called - known
        exact known.called run held called
      · exact fun index draws fails request accepted _ _ _ _ _ => .of_idle rfl
      · rintro index draws fails generation point reached middle rfl held ran - -
        exact .ran run held ran
      · rintro index received generation point changed reached middle rfl - heard - -
        cases heard with
        | requested next => rcases next with rfl | ⟨code, rfl⟩ <;> exact .of_idle rfl
        | heard hears => cases reached <;> first | exact .of_idle rfl | cases hears
    · intro entry member
      rcases step.published_cases with same | ⟨k, thread, new, ⟨draws, fails, rfl⟩, held, emitted, published⟩
      · exact (sourced.2 entry (same ▸ member)).append _
      · rw [published, List.mem_cons] at member
        rcases member with rfl | old
        · exact (sourced.1 k thread held).published run held emitted
        · exact (sourced.2 entry old).append _

end Runs

end RyuRooms
