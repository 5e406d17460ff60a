import RyuRooms.Runtime.Threads
import RyuRooms.Store.Lifecycle

/-! # Every run of the runtime

`runtimeMachine` starts on tables that any history of the store left, once recovery has ended every
run. `Sound` holds in all its reachable states, whatever fails or is dropped: the tables are linked,
every thread's run is a run of the thread's room, a run that was stopped or finished never changes
its status again, and the `active` map points at tasks that have not ended.
-/

namespace RyuRooms

open Foundation

namespace Runtime

/-- The runtime when the node starts to serve. -/
structure Initial (state : Runtime) : Prop where
  reached : ∃ crates events, (storeMachine crates).Run events state.db
  recovered : ∀ run ∈ state.db.runs, run.status.isActive = false
  active : ∀ roomId, state.active roomId = none
  threads : state.threads = []
  published : state.published = []
  requests : state.requests = []
  runIds : ∀ run ∈ state.db.runs, ∃ uuid ∈ state.drawn, run.id = opaqueId "run_" uuid
  memberIds : ∀ participant ∈ state.db.participants, ∃ uuid ∈ state.drawn,
    participant.id = opaqueId "member_" uuid
  guests : ∀ id, id ∈ state.guests ↔ ∃ participant ∈ state.db.participants,
    participant.role = .guest ∧ participant.id = id

end Runtime

/-- The machine whose runs are the interleavings of requests and generation tasks. -/
def runtimeMachine (store : RoomStore) : Machine Runtime Label where
  Initial := Runtime.Initial
  step? := Runtime.step? store

namespace Runtime

variable {store : RoomStore} {draws : Draws} {fails : Bool} {state next : Runtime} {label : Label}

/-- A run id that was drawn, with what holds of its row for as long as it is retained. -/
structure Known (state : Runtime) (runId : String) (holds : RunRow → Prop) : Prop where
  issued : ∃ uuid ∈ state.drawn, runId = opaqueId "run_" uuid
  rows : ∀ row ∈ state.db.runs, row.id = runId → holds row

/-- The points of a task after `finish_run` recorded its terminal status. -/
def hasSettled : TaskPoint → Bool
  | .readCompleted | .publishCompleted _ | .readFailed _ | .publishFailed _ _ => true
  | .request | .receive | .appendDelta _ | .publishDelta _ | .complete | .fail _ | .removeActive | .ended => false

/-- What a request knows of its run. -/
def CallSound (state : Runtime) : CallPoint → Prop
  | .readSnapshot turn =>
    validateRoomId turn.roomId = .ok turn.roomId ∧ state.Known turn.runId (·.roomId = turn.roomId)
  | .accept turn snapshot =>
    snapshot.id = turn.roomId ∧ state.Known turn.runId (·.roomId = turn.roomId) ∧
      ∀ run ∈ snapshot.currentRun, state.Known run.runId (·.roomId = turn.roomId)
  | .publishAccepted accepted | .start accepted =>
    state.Known accepted.run.runId (·.roomId = accepted.snapshot.id)
  | .removeStopped _ _ runId | .readStopped _ _ runId | .publishCanceled _ _ runId _ =>
    state.Known runId (·.status = .canceled)
  | _ => True

/-- What a thread knows of its run. -/
def ThreadSound (state : Runtime) : Thread → Prop
  | .call _ point => CallSound state point
  | .task generation point =>
    state.Known generation.runId (·.roomId = generation.roomId) ∧
      (hasSettled point → state.Known generation.runId fun row => row.status.isActive = false)

/-- What holds in every reachable state. -/
structure Sound (state : Runtime) : Prop where
  linked : state.db.Linked
  valid : state.db.ValidRooms
  issued : ∀ row ∈ state.db.runs, ∃ uuid ∈ state.drawn, row.id = opaqueId "run_" uuid
  threads : ∀ (k : ℕ) (thread : Thread), state.threads[k]? = some thread → ThreadSound state thread
  registered : ∀ roomId run, state.active roomId = some run → ∃ generation point,
    state.threads[run.cancel]? = some (.task generation point) ∧ generation.roomId = roomId ∧
      generation.runId = run.runId ∧ point ≠ .ended

/-- A run is queued or running in the store. -/
def isRunActive (state : Runtime) (runId : String) : Bool :=
  state.db.runs.rows.any fun row => row.id == runId && row.status.isActive

theorem isRunActive_iff {runId : String} :
    state.isRunActive runId ↔ ∃ row ∈ state.db.runs, row.id = runId ∧ row.status.isActive := by
  simp only [isRunActive, List.any_eq_true, Bool.and_eq_true, beq_iff_eq, Table.mem_rows]

/-- A step of `close_room` removes the entry of an active run. -/
def removesActive (state : Runtime) : Label → Bool
  | .advance index _ _ =>
    match state.threads[index]? with
    | some (.call _ (.removeRoom roomId)) => (state.active roomId).any fun run => state.isRunActive run.runId
    | _ => false
  | _ => false

theorem removesActive_of {index : ℕ} {request : Request} {roomId : String} {run : ActiveRun} {row : RunRow}
    (held : state.threads[index]? = some (.call request (.removeRoom roomId)))
    (registered : state.active roomId = some run) (member : row ∈ state.db.runs) (same : row.id = run.runId)
    (active : row.status.isActive) : removesActive state (.advance index draws fails) := by
  simp only [removesActive, held, registered, Option.any_some]
  exact isRunActive_iff.mpr ⟨row, member, same, active⟩

section Tables

/-- What a step adds when it accepts a turn: a running run with a new id, and a request about to read it. -/
structure Accepts (state next : Runtime) (label : Label) (row : RunRow) : Prop where
  request : ∃ (index : ℕ) (request : Request) (turn : RoomStore.AppendedTurn), mover label = some index ∧
    next.threads[index]? = some (.call request (.readSnapshot turn)) ∧ turn.messageId.isSome ∧
      row.id = turn.runId ∧ row.roomId = turn.roomId
  running : row.status = .running
  fresh : ∃ uuid ∈ next.drawn, uuid ∉ state.drawn ∧ row.id = opaqueId "run_" uuid

theorem Step.drawn (step : Step store state label next) {uuid : Uuid} (old : uuid ∈ state.drawn) :
    uuid ∈ next.drawn := by
  have later (draws : Draws) : uuid ∈ (state.draw draws).drawn := by simp [draw, old]
  cases step with
  | begun => exact old
  | dropped => exact old
  | called held step =>
    cases step with
    | appended | appendRefused => exact later _
    | started => rwa [put_drawn, startRun_logs.drawn]
    | signalled => rwa [put_drawn, signal_logs.drawn]
    | removedStopped => rwa [put_drawn, removeActive_logs.drawn]
    | _ => exact old
  | ran held step =>
    cases step with
    | completed | completeRefused => exact later _
    | removed => rwa [put_drawn, removeActive_logs.drawn]
    | _ => exact old
  | heard held step => cases step <;> exact old
  | accessed fresh step => cases step <;> exact later _

theorem AccessStep.sameTurns {op : AccessOp} (step : AccessStep store draws fails state op next) :
    state.db.SameTurns next.db := by
  cases step with
  | refused => exact .of_rooms rfl rfl rfl
  | created success => exact RoomStore.createRoom_sameTurns success
  | joined success => exact RoomStore.exchangeInvite_sameTurns success
  | issued granted success => exact RoomStore.issueInvite_sameTurns success
  | revoked granted success => exact RoomStore.revokeInvite_sameTurns success

/-- What an action that succeeded does to the tables it does as an outcome. -/
theorem change_of_ok {α : Type} {action : StoreM α} {source target : Db} {value : α}
    {relation : Db → Db → Prop} (all : relation source (outcome action source).2)
    (success : action source = .ok value target) : relation source target := by
  rwa [outcome_ok_iff.mpr success] at all

/-- Every step makes one of the changes of the tables. -/
theorem Step.change (step : Step store state label next) : Change state.db next.db := by
  cases step with
  | begun => exact .unchanged
  | dropped => exact .unchanged
  | called held step =>
    cases step with
    | appended fresh success => exact .ran (change_of_ok (.of_appendTurn _ _) success)
    | started => exact startRun_logs.db ▸ .unchanged
    | signalled => exact signal_logs.db ▸ .unchanged
    | stopped success => exact .ran (change_of_ok (.of_stopRun _ _) success)
    | removedStopped => exact removeActive_logs.db ▸ .unchanged
    | closed success => exact change_of_ok (.of_closeRoom _) success
    | _ => exact .unchanged
  | ran held step =>
    cases step with
    | extended success => exact .ran (change_of_ok (.of_appendDelta _ _ _) success)
    | completed fresh accepts success => exact .ran (change_of_ok (.of_settleRun _ _ rfl) success)
    | failed accepts success => exact .ran (change_of_ok (.of_settleRun _ _ rfl) success)
    | removed => exact removeActive_logs.db ▸ .unchanged
    | _ => exact .unchanged
  | heard held step => cases step <;> exact .unchanged
  | accessed fresh step =>
    cases step with
    | refused => exact .unchanged
    | created success => exact change_of_ok (.of_createRoom _) success
    | joined success => exact change_of_ok (.of_exchangeInvite _ _) success
    | issued granted success => exact change_of_ok (.of_issueInvite _) success
    | revoked granted success => exact change_of_ok (.of_revokeInvite _) success

/-- A run after a step became what it is, or was just accepted. -/
theorem Step.run_cases (step : Step store state label next) {row : RunRow} (member : row ∈ next.db.runs) :
    (∃ old ∈ state.db.runs, old.Becomes row) ∨ Accepts state next label row := by
  have same (runs : next.db.runs = state.db.runs) :
      (∃ old ∈ state.db.runs, old.Becomes row) ∨ Accepts state next label row :=
    Or.inl (Db.OnlyEnds.of_eq runs row member)
  cases step with
  | begun => exact same rfl
  | dropped => exact same rfl
  | called held step =>
    cases step with
    | appended fresh success =>
      obtain ⟨-, -, ⟨rfl, -⟩ | ⟨inserted, named, added, sameId, sameRoom, running, rows⟩⟩ :=
        RoomStore.appendTurn_runs success
      · exact same rfl
      · rcases (rows row).mp member with old | rfl
        · exact Or.inl ⟨row, old, .refl row⟩
        · refine Or.inr ⟨⟨_, _, _, rfl, thread_put_self held, inserted, sameId, sameRoom⟩, running, _, ?_,
            fresh 1, sameId.trans named⟩
          simp [draw, Draws.uuids]
    | started => exact same (by rw [put_db, startRun_logs.db])
    | signalled => exact same (by rw [put_db, signal_logs.db])
    | stopped success => exact Or.inl (RoomStore.stopRun_onlyEnds success row member)
    | removedStopped => exact same (by rw [put_db, removeActive_logs.db])
    | closed success =>
      obtain ⟨_, -, -, rfl⟩ := RoomStore.closeRoom_ok success
      exact same rfl
    | _ => exact same rfl
  | ran held step =>
    cases step with
    | extended success => exact Or.inl (RoomStore.appendDelta_onlyEnds success row member)
    | completed fresh accepts success => exact Or.inl ((RoomStore.settleRun_onlyCarries rfl success).onlyEnds row member)
    | failed accepts success => exact Or.inl ((RoomStore.settleRun_onlyCarries rfl success).onlyEnds row member)
    | removed => exact same (by rw [put_db, removeActive_logs.db])
    | _ => exact same rfl
  | heard held step => cases step <;> exact same rfl
  | accessed fresh step => exact same step.sameTurns.runs

end Tables

namespace Known

variable {runId : String} {holds : RunRow → Prop}

/-- Nothing that a run's row keeps as it becomes another is ever lost. -/
theorem step (known : state.Known runId holds) (step : Step store state label next)
    (stable : ∀ old new : RunRow, old.Becomes new → holds old → holds new) : next.Known runId holds := by
  obtain ⟨uuid, drawn, rfl⟩ := known.issued
  refine ⟨⟨uuid, step.drawn drawn, rfl⟩, fun row member same => ?_⟩
  rcases step.run_cases member with ⟨old, held, becomes⟩ | ⟨-, -, other, -, fresh, named⟩
  · exact stable old row becomes (known.rows old held (becomes.id.symm.trans same))
  · rw [same, opaqueId_inj] at named
    exact absurd (named ▸ drawn) fresh

theorem inRoom {roomId : String} (known : state.Known runId (·.roomId = roomId))
    (step : Step store state label next) : next.Known runId (·.roomId = roomId) :=
  known.step step fun _ _ becomes inside => becomes.room.trans inside

theorem finished (known : state.Known runId fun row => row.status.isActive = false)
    (step : Step store state label next) : next.Known runId fun row => row.status.isActive = false :=
  known.step step fun _ _ becomes ended => by rw [becomes.of_finished ended, ended]

theorem ended {status : RunStatus} (terminal : status.isActive = false)
    (known : state.Known runId (·.status = status)) (step : Step store state label next) :
    next.Known runId (·.status = status) :=
  known.step step fun _ _ becomes ended => (becomes.of_finished (ended ▸ terminal)).trans ended

/-- A turn that a step accepts is not a run that was drawn before. -/
theorem not_accepts (known : state.Known runId holds) {row : RunRow} (accepts : Accepts state next label row) :
    runId ≠ row.id := by
  rintro rfl
  obtain ⟨uuid, -, fresh, named⟩ := accepts.fresh
  obtain ⟨other, drawn, issued⟩ := known.issued
  rw [named, opaqueId_inj] at issued
  exact fresh (issued ▸ drawn)

/-- A row names a run that is known to be in the row's room. -/
theorem of_row (sound : Sound state) {row : RunRow} (member : row ∈ state.db.runs) :
    state.Known row.id (·.roomId = row.roomId) :=
  ⟨sound.issued row member, fun _ other same => by rw [Table.eq_of_key other member same]⟩

end Known

section Threads

theorem CallSound.step {point : CallPoint} (sound : CallSound state point) (step : Step store state label next) :
    CallSound next point := by
  cases point with
  | readSnapshot turn => exact ⟨sound.1, sound.2.inRoom step⟩
  | accept turn snapshot =>
    exact ⟨sound.1, sound.2.1.inRoom step, fun run current => (sound.2.2 run current).inRoom step⟩
  | publishAccepted accepted => exact Known.inRoom sound step
  | start accepted => exact Known.inRoom sound step
  | removeStopped closing roomId runId => exact Known.ended rfl sound step
  | readStopped closing roomId runId => exact Known.ended rfl sound step
  | publishCanceled closing roomId runId snapshot => exact Known.ended rfl sound step
  | _ => trivial

theorem ThreadSound.kept {old found : Thread} (sound : ThreadSound state old) (keeps : Kept old found)
    (step : Step store state label next) : ThreadSound next found := by
  cases keeps with
  | same =>
    cases old with
    | call request point => exact CallSound.step sound step
    | task generation point => exact ⟨sound.1.inRoom step, fun settled => (sound.2 settled).finished step⟩
  | flagged listens => exact ⟨sound.1.inRoom step, fun settled => (sound.2 settled).finished step⟩

/-- A request's step establishes what its next point knows. -/
theorem Sound.called (sound : Sound state) {point reached : CallPoint} {middle : Runtime}
    (before : CallSound state point) (called : CallStep store draws fails state point reached middle)
    (step : Step store state label next) (tables : next.db = middle.db) (drawn : next.drawn = middle.drawn) :
    CallSound next reached := by
  have returnsTo (closing : Bool) (roomId : String) (answer : Answer) :
      CallSound next (.afterStop closing roomId answer) := by
    cases closing <;> trivial
  cases called with
  | authorizedHost => trivial
  | authorizedGuest => trivial
  | unauthorized => trivial
  | appended fresh success =>
    obtain ⟨-, ⟨room, member, named, -⟩, rest⟩ := RoomStore.appendTurn_runs success
    refine ⟨named ▸ sound.valid room member, ?_⟩
    rcases rest with ⟨rfl, -, row, held, sameId, sameRoom⟩ | ⟨-, issued, row, sameId, sameRoom, -, rows⟩
    · exact sameRoom ▸ sameId ▸ (Known.of_row sound held).inRoom step
    · refine ⟨⟨_, by rw [drawn]; simp [draw, Draws.uuids], issued⟩, fun other member same => ?_⟩
      rw [tables] at member
      rcases (rows other).mp member with old | rfl
      · obtain ⟨uuid, known, numbered⟩ := sound.issued other old
        rw [same, issued, opaqueId_inj] at numbered
        exact absurd (numbered ▸ known) (fresh 1)
      · exact sameRoom
  | appendRefused => trivial
  | refused refuses =>
    cases point with
    | stop closing roomId runId => exact returnsTo _ _ _
    | readStopped closing roomId runId => exact returnsTo _ _ _
    | _ => trivial
  | readSnapshot valid shown =>
    obtain ⟨isValid, known⟩ := before
    obtain rfl := Except.ok.inj (isValid.symm.trans valid)
    obtain ⟨named, current⟩ := RoomStore.snapshotFrom_currentRun shown
    refine ⟨named, known.inRoom step, fun run shows => ?_⟩
    obtain ⟨row, member, sameId, sameRoom, -⟩ := current run shows
    exact sameRoom ▸ sameId ▸ (Known.of_row sound member).inRoom step
  | accepted success =>
    obtain ⟨named, known, current⟩ := before
    obtain ⟨_, success⟩ := success
    obtain ⟨sameSnapshot, ⟨-, shows⟩ | ⟨-, row, member, sameId, sameRoom, runId, -⟩⟩ :=
      RoomStore.acceptTurn_ok success
    · rw [CallSound, sameSnapshot, named]
      exact (current _ shows).inRoom step
    · rw [CallSound, sameSnapshot, named, runId, ← sameRoom]
      exact (Known.of_row sound member).inRoom step
  | publishedAccepted =>
    split
    · exact Known.inRoom before step
    · trivial
  | started => trivial
  | signalled => trivial
  | stopped success =>
    obtain ⟨id, _, -, ⟨row, member, named, -⟩, -⟩ := RoomStore.stopRun_ok success
    obtain ⟨uuid, known, numbered⟩ := sound.issued row member
    exact ⟨⟨uuid, step.drawn known, named ▸ numbered⟩, tables ▸ RoomStore.stopRun_canceled success⟩
  | removedStopped => exact Known.ended rfl before step
  | readStopped => exact Known.ended rfl before step
  | publishedCanceled => exact returnsTo _ _ _
  | @readClosing roomId id snapshot valid shown =>
    rw [closingPoint]
    split <;> trivial
  | closed success => trivial
  | removedRoom => trivial
  | readClosed => trivial
  | publishedClosed => trivial

/-- A generation task's step establishes what its next point knows. -/
theorem Sound.ran {generation : Generation} {point reached : TaskPoint} {middle : Runtime}
    (before : ThreadSound state (.task generation point))
    (ran : TaskStep store draws fails state generation point reached middle)
    (step : Step store state label next) (tables : next.db = middle.db) :
    ThreadSound next (.task generation reached) := by
  have known := before.1.inRoom step
  have settles {terminal : RunTerminal} (ends : terminal.status.isActive = false)
      (success : store.settleRun draws.env generation.roomId generation.runId terminal state.db = .ok () middle.db) :
      next.Known generation.runId fun row => row.status.isActive = false := by
    refine ⟨known.issued, fun row member same => ?_⟩
    obtain ⟨run, -, -, status⟩ := RoomStore.settleRun_finished success
    rw [status row (tables ▸ member) same]
    split
    · exact ends
    · next ended => exact Bool.eq_false_iff.mpr ended
  refine ⟨known, fun settled => ?_⟩
  cases ran with
  | rejected => split at settled <;> cases settled
  | completed fresh accepts success => exact settles rfl success
  | failed accepts success => exact settles rfl success
  | readCompleted => exact (before.2 rfl).finished step
  | readFailed => exact (before.2 rfl).finished step
  | _ => cases settled

theorem ThreadSound.heard {generation changed : Generation} {point reached : TaskPoint} {middle : Runtime}
    (before : ThreadSound state (.task generation point))
    (heard : ReceiveStep state generation point reached changed middle) (step : Step store state label next) :
    ThreadSound next (.task changed reached) := by
  cases heard with
  | requested onward =>
    refine ⟨before.1.inRoom step, fun settled => ?_⟩
    rcases onward with rfl | ⟨code, rfl⟩ <;> cases settled
  | heard hears =>
    refine ⟨before.1.inRoom step, fun settled => ?_⟩
    cases reached with
    | readCompleted => exact hears.elim
    | publishCompleted => exact hears.elim
    | readFailed => exact hears.elim
    | publishFailed => exact hears.elim
    | _ => cases settled

theorem Sound.threads_step (sound : Sound state) (step : Step store state label next) :
    ∀ (k : ℕ) (thread : Thread), next.threads[k]? = some thread → ThreadSound next thread := by
  refine step.each (fun _ => ThreadSound state) (fun _ => ThreadSound next) sound.threads ?_ ?_ ?_ ?_ ?_ ?_ ?_
  · exact fun k old found held keeps before => before.kept keeps step
  · intro k request begun
    cases request <;> trivial
  · exact fun k request => trivial
  · rintro index draws fails request point reached middle rfl held called rfl before
    exact sound.called before called step rfl rfl
  · intro index draws fails request accepted _ held free after before
    exact ⟨Known.inRoom before step, fun settled => by cases settled⟩
  · rintro index draws fails generation point reached middle rfl held ran rfl before
    exact Sound.ran before ran step rfl
  · rintro index received generation point changed reached middle rfl held heard rfl before
    exact before.heard heard step

/-- The run of a task was known in the task's room before the step. -/
theorem Sound.of_task (sound : Sound state) (step : Step store state label next) {k : ℕ}
    {generation : Generation} {point : TaskPoint} (held : next.threads[k]? = some (.task generation point)) :
    state.Known generation.runId (·.roomId = generation.roomId) := by
  rcases step.of_task held with ⟨earlier, before, there, onward⟩ | ⟨_, _, _, _, accepted, -, -, there, -, isTask, -⟩
  · exact onward.runId ▸ onward.roomId ▸ (sound.threads k _ there).1
  · obtain ⟨rfl, rfl⟩ := Thread.task.inj isTask
    exact sound.threads _ _ there

end Threads

/-- Every step keeps the runtime sound. -/
theorem Sound.step (sound : Sound state) (step : Step store state label next) : Sound next where
  linked := sound.linked.change step.change
  valid := sound.valid.change step.change
  issued := by
    intro row member
    rcases step.run_cases member with ⟨old, held, becomes⟩ | ⟨-, -, uuid, drawn, -, named⟩
    · obtain ⟨uuid, drawn, named⟩ := sound.issued old held
      exact ⟨uuid, step.drawn drawn, becomes.id.trans named⟩
    · exact ⟨uuid, drawn, named⟩
  threads := sound.threads_step step
  registered := by
    intro roomId run registered
    rcases step.active_cases registered with before | ⟨_, _, _, _, accepted, -, -, -, rfl, rfl, there⟩
    · obtain ⟨generation, point, held, inRoom, named, alive⟩ := sound.registered roomId run before
      obtain ⟨changed, after, now, onward, ends⟩ := step.task_kept held
      refine ⟨changed, after, now, onward.roomId ▸ inRoom, onward.runId ▸ named, fun ended => ?_⟩
      · rcases ends ended with old | removed
        · exact alive old
        · rw [removed, removeActive_active_iff] at registered
          exact registered.2 ⟨inRoom.symm, named.symm⟩
    · exact ⟨_, _, there, rfl, rfl, nofun⟩

theorem Initial.sound (initial : Initial state) : Sound state where
  linked := by
    obtain ⟨_, _, run⟩ := initial.reached
    exact linked_of_run run
  valid := by
    obtain ⟨_, _, run⟩ := initial.reached
    exact validRooms_of_run run
  issued := initial.runIds
  threads := by simp [initial.threads]
  registered := by simp [initial.active]

end Runtime

/-- Every reachable state of the runtime is sound. -/
theorem sound_of_run {store : RoomStore} {labels : List Label} {state : Runtime}
    (run : (runtimeMachine store).Run labels state) : state.Sound :=
  run.invariant (fun _ => Runtime.Initial.sound) fun _ _ _ sound stepped => sound.step (.of_step? stepped)

end RyuRooms
