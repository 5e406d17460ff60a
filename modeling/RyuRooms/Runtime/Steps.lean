import RyuRooms.Model.RoomRuntime
import RyuRooms.Store.Change

/-! # What one step of the runtime can do

`CallStep` and `TaskStep` list what a request and a generation task do between two await points:
the point they reach, what the store's section did, and how the shared state changed. `refuses`
says that the section a thread is about to run returns `Err`. Every step of the executable model is
one of these, so a fact about all runs is a case analysis over them.
-/

namespace RyuRooms

open Foundation

namespace Runtime

section Sections

variable {α : Type} {state next : Runtime} {fails : Bool} {action : StoreM α} {value : α} {error : StoreError}

theorem read_ok (success : state.read fails action = .ok value) :
    ∃ target, action state.db = .ok value target := by
  simp only [read] at success
  split at success
  · cases success
  · cases acted : action state.db with
    | ok result target => exact ⟨target, by simpa [outcome, acted] using success⟩
    | error error target => simp [outcome, acted] at success

theorem write_granted (success : state.write fails action = (.ok value, next)) : fails = false := by
  cases fails with
  | false => rfl
  | true => simp [write] at success

theorem write_ok (success : state.write fails action = (.ok value, next)) :
    ∃ db, action state.db = .ok value db ∧ next = { state with db } := by
  simp only [write] at success
  split at success
  · simp at success
  · cases acted : action state.db with
    | ok result target =>
      simp only [outcome, acted, Prod.mk.injEq, Except.ok.injEq] at success
      exact ⟨target, by rw [success.1], success.2.symm⟩
    | error error target => simp [outcome, acted] at success

/-- A failed section that changes nothing when it fails leaves the runtime as it was. -/
theorem write_error (failed : state.write fails action = (.error error, next))
    (unchanged : ∀ error target, action state.db = .error error target → state.db = target) : next = state := by
  simp only [write] at failed
  split at failed
  · exact (congrArg Prod.snd failed).symm
  · cases acted : action state.db with
    | ok result target => simp [outcome, acted] at failed
    | error thrown target =>
      simp only [outcome, acted, Prod.mk.injEq] at failed
      rw [← failed.2, ← unchanged thrown target acted]

/-- The result of a section is that of reading it. -/
theorem write_fst : (state.write fails action).1 = state.read fails action := by
  simp only [write, read]
  split <;> rfl

/-- A section that changes nothing when it fails either makes its change or leaves the runtime as it was. -/
theorem write_cases (unchanged : ∀ error target, action state.db = .error error target → state.db = target) :
    (∃ value db, state.write fails action = (.ok value, { state with db }) ∧ action state.db = .ok value db ∧
      (state.read fails action).isOk = true) ∨
      ∃ error, state.write fails action = (.error error, state) ∧ (state.read fails action).isOk = false := by
  rw [← write_fst]
  cases wrote : state.write fails action with
  | mk result after =>
    cases result with
    | ok value =>
      obtain ⟨db, acted, rfl⟩ := write_ok wrote
      exact .inl ⟨value, db, rfl, acted, rfl⟩
    | error error =>
      obtain rfl := write_error wrote unchanged
      exact .inr ⟨error, rfl, rfl⟩

end Sections

/-- The section a request runs next returns `Err`. -/
def callRefuses (store : RoomStore) (draws : Draws) (fails : Bool) (state : Runtime) : CallPoint → Bool
  | .authorizeHost roomId _ => !(state.read fails (store.hostSession draws.env roomId)).isOk
  | .authorizeGuest secret _ => !(state.read fails (store.resolveSession draws.env secret)).isOk
  | .append session input => !(state.read fails (store.appendTurn draws.env session input)).isOk
  | .readSnapshot turn => !(state.read fails (store.snapshotOrNotFound draws.env 13 turn.roomId)).isOk
  | .accept turn snapshot =>
    !(state.read (fails && turn.messageId.isNone) (store.acceptTurn draws.env turn snapshot)).isOk
  | .stop _ roomId runId => !(state.read fails (store.stopRun draws.env roomId runId)).isOk
  | .close roomId => !(state.read fails (RoomStore.closeRoom draws.env roomId)).isOk
  | .readStopped _ roomId _ | .readClosing roomId | .readClosed roomId =>
    !(state.read fails (store.snapshotOrNotFound draws.env 0 roomId)).isOk
  | .publishAccepted _ | .start _ | .signal _ _ _ | .removeStopped _ _ _ | .publishCanceled _ _ _ _
  | .removeRoom _ | .publishClosed _ _ | .returned _ | .dropped => false

/-- Where a request goes on `Err`. -/
def onError (error : StoreError) : CallPoint → CallPoint
  | .stop closing roomId _ | .readStopped closing roomId _ => .afterStop closing roomId (.failed error)
  | _ => .returned (.failed error)

/-- The section a generation task runs next returns `Err`. -/
def taskRefuses (store : RoomStore) (draws : Draws) (fails : Bool) (state : Runtime) (generation : Generation) :
    TaskPoint → Bool
  | .appendDelta delta =>
    !(state.read fails (store.appendDelta draws.env generation.roomId generation.runId delta)).isOk
  | .complete =>
    !(state.read fails (store.settleRun draws.env generation.roomId generation.runId completedTerminal)).isOk
  | .fail code =>
    !(state.read fails
      (store.settleRun draws.env generation.roomId generation.runId (failedTerminal code))).isOk
  | .readCompleted | .readFailed _ =>
    !(state.read fails (store.snapshotOrNotFound draws.env 11 generation.roomId)).isOk
  | .request | .receive | .publishDelta _ | .publishCompleted _ | .publishFailed _ _ | .removeActive
  | .ended => false

/-- One step of a request: where it stood, where it goes, and the runtime it leaves. -/
inductive CallStep (store : RoomStore) (draws : Draws) (fails : Bool) (state : Runtime) :
    CallPoint → CallPoint → Runtime → Prop
  | authorizedHost {roomId : String} {input : SubmitTurnInput} {session : RoomSession}
      (found : ∃ target, store.hostSession draws.env roomId state.db = .ok session target) :
      CallStep store draws fails state (.authorizeHost roomId input) (.append session input) state
  | authorizedGuest {secret : String} {input : SubmitTurnInput} {session : RoomSession}
      (resolved : ∃ target, store.resolveSession draws.env secret state.db = .ok (some session) target) :
      CallStep store draws fails state (.authorizeGuest secret input) (.append session input) state
  | unauthorized {secret : String} {input : SubmitTurnInput} :
      CallStep store draws fails state (.authorizeGuest secret input) (.returned .unauthorized) state
  | appended {session : RoomSession} {input : SubmitTurnInput} {turn : RoomStore.AppendedTurn} {db : Db}
      (fresh : ∀ i, draws.uuid i ∉ state.drawn)
      (success : store.appendTurn draws.env session input state.db = .ok turn db) :
      CallStep store draws fails state (.append session input) (.readSnapshot turn)
        { state.draw draws with db }
  | appendRefused {session : RoomSession} {input : SubmitTurnInput} {error : StoreError} :
      CallStep store draws fails state (.append session input) (.returned (.failed error)) (state.draw draws)
  | refused {point : CallPoint} {error : StoreError} (refuses : callRefuses store draws fails state point) :
      CallStep store draws fails state point (onError error point) state
  | readSnapshot {turn : RoomStore.AppendedTurn} {snapshot : RoomSnapshot} {id : String}
      (valid : validateRoomId turn.roomId = .ok id) (shown : store.snapshotFrom state.db id = some snapshot) :
      CallStep store draws fails state (.readSnapshot turn) (.accept turn snapshot) state
  | accepted {turn : RoomStore.AppendedTurn} {snapshot : RoomSnapshot} {accepted : AcceptedRun}
      (success : ∃ target, store.acceptTurn draws.env turn snapshot state.db = .ok accepted target) :
      CallStep store draws fails state (.accept turn snapshot) (.publishAccepted accepted) state
  | publishedAccepted {accepted : AcceptedRun} :
      CallStep store draws fails state (.publishAccepted accepted)
        (if accepted.run.status = .running then .start accepted else .returned (.accepted accepted))
        (state.publish accepted.snapshot.id
          (.turnAccepted accepted.run accepted.userMessage accepted.snapshot))
  | started {accepted : AcceptedRun} :
      CallStep store draws fails state (.start accepted) (.returned (.accepted accepted))
        (state.startRun accepted)
  | signalled {closing : Bool} {roomId runId : String} :
      CallStep store draws fails state (.signal closing roomId runId) (.stop closing roomId runId)
        (state.signal roomId runId)
  | stopped {closing : Bool} {roomId runId : String} {db : Db}
      (success : store.stopRun draws.env roomId runId state.db = .ok () db) :
      CallStep store draws fails state (.stop closing roomId runId) (.removeStopped closing roomId runId)
        { state with db }
  | removedStopped {closing : Bool} {roomId runId : String} :
      CallStep store draws fails state (.removeStopped closing roomId runId)
        (.readStopped closing roomId runId) (state.removeActive roomId runId)
  | readStopped {closing : Bool} {roomId runId id : String} {snapshot : RoomSnapshot}
      (valid : validateRoomId roomId = .ok id) (shown : store.snapshotFrom state.db id = some snapshot) :
      CallStep store draws fails state (.readStopped closing roomId runId)
        (.publishCanceled closing roomId runId snapshot) state
  | publishedCanceled {closing : Bool} {roomId runId : String} {snapshot : RoomSnapshot} :
      CallStep store draws fails state (.publishCanceled closing roomId runId snapshot)
        (.afterStop closing roomId (.snapshot snapshot)) (state.publish roomId (.turnCanceled runId snapshot))
  | readClosing {roomId id : String} {snapshot : RoomSnapshot}
      (valid : validateRoomId roomId = .ok id) (shown : store.snapshotFrom state.db id = some snapshot) :
      CallStep store draws fails state (.readClosing roomId) (closingPoint roomId snapshot) state
  | closed {roomId : String} {db : Db}
      (success : RoomStore.closeRoom draws.env roomId state.db = .ok () db) :
      CallStep store draws fails state (.close roomId) (.removeRoom roomId) { state with db }
  | removedRoom {roomId : String} :
      CallStep store draws fails state (.removeRoom roomId) (.readClosed roomId)
        (state.removeActiveForRoom roomId)
  | readClosed {roomId id : String} {snapshot : RoomSnapshot}
      (valid : validateRoomId roomId = .ok id) (shown : store.snapshotFrom state.db id = some snapshot) :
      CallStep store draws fails state (.readClosed roomId) (.publishClosed roomId snapshot) state
  | publishedClosed {roomId : String} {snapshot : RoomSnapshot} :
      CallStep store draws fails state (.publishClosed roomId snapshot) (.returned (.snapshot snapshot))
        (state.publish roomId (.roomClosed snapshot))

/-- One step of a generation task that does not wait for the model. -/
inductive TaskStep (store : RoomStore) (draws : Draws) (fails : Bool) (state : Runtime)
    (generation : Generation) : TaskPoint → TaskPoint → Runtime → Prop
  | extended {delta : String} {db : Db}
      (success : store.appendDelta draws.env generation.roomId generation.runId delta state.db = .ok () db) :
      TaskStep store draws fails state generation (.appendDelta delta) (.publishDelta delta) { state with db }
  | rejected {delta : String} :
      TaskStep store draws fails state generation (.appendDelta delta)
        (if generation.cancelled then .removeActive else .fail "outputRejected") state
  | publishedDelta {delta : String} :
      TaskStep store draws fails state generation (.publishDelta delta) .receive
        (state.publish generation.roomId
          (.turnDelta generation.runId generation.requestId delta generation.partialText))
  | completed {db : Db} (fresh : ∀ i, draws.uuid i ∉ state.drawn)
      (accepts : taskRefuses store draws fails state generation .complete = false)
      (success : store.settleRun draws.env generation.roomId generation.runId completedTerminal state.db =
        .ok () db) :
      TaskStep store draws fails state generation .complete .readCompleted { state.draw draws with db }
  | completeRefused :
      TaskStep store draws fails state generation .complete (.fail "storeUnavailable") (state.draw draws)
  | readCompleted {id : String} {snapshot : RoomSnapshot} (valid : validateRoomId generation.roomId = .ok id)
      (shown : store.snapshotFrom state.db id = some snapshot) :
      TaskStep store draws fails state generation .readCompleted (.publishCompleted snapshot) state
  | readCompletedRefused (refuses : taskRefuses store draws fails state generation .readCompleted) :
      TaskStep store draws fails state generation .readCompleted (.fail "storeUnavailable") state
  | publishedCompleted {snapshot : RoomSnapshot} :
      TaskStep store draws fails state generation (.publishCompleted snapshot) .removeActive
        (state.publish generation.roomId (.turnCompleted generation.runId generation.requestId snapshot))
  | failed {code : String} {db : Db}
      (accepts : taskRefuses store draws fails state generation (.fail code) = false)
      (success : store.settleRun draws.env generation.roomId generation.runId (failedTerminal code) state.db =
        .ok () db) :
      TaskStep store draws fails state generation (.fail code) (.readFailed code) { state with db }
  | failRefused {code : String} (refuses : taskRefuses store draws fails state generation (.fail code)) :
      TaskStep store draws fails state generation (.fail code) .removeActive state
  | readFailed {code id : String} {snapshot : RoomSnapshot}
      (valid : validateRoomId generation.roomId = .ok id)
      (shown : store.snapshotFrom state.db id = some snapshot) :
      TaskStep store draws fails state generation (.readFailed code) (.publishFailed code snapshot) state
  | readFailedRefused {code : String}
      (refuses : taskRefuses store draws fails state generation (.readFailed code)) :
      TaskStep store draws fails state generation (.readFailed code) .removeActive state
  | publishedFailed {code : String} {snapshot : RoomSnapshot} :
      TaskStep store draws fails state generation (.publishFailed code snapshot) .removeActive
        (state.publish generation.roomId
          (.turnFailed generation.runId generation.requestId code snapshot))
  | removed :
      TaskStep store draws fails state generation .removeActive .ended
        (state.removeActive generation.roomId generation.runId)

/-- One call of another operation of the store: it fails without effect, or makes its change. -/
inductive AccessStep (store : RoomStore) (draws : Draws) (fails : Bool) (state : Runtime) :
    AccessOp → Runtime → Prop
  | refused {op : AccessOp} : AccessStep store draws fails state op state
  | created {input : CreateRoomInput} {created : CreatedRoom} {db : Db}
      (success : store.createRoom draws.env input state.db = .ok created db) :
      AccessStep store draws fails state (.createRoom input) { state with db }
  | joined {raw displayName : String} {session : RoomSession} {db : Db}
      (success : store.exchangeInvite draws.env raw displayName state.db = .ok session db) :
      AccessStep store draws fails state (.exchangeInvite raw displayName)
        { state with db, guests := session.participantId :: state.guests }
  | issued {roomId : String} {issued : IssuedInvite} {db : Db} (granted : fails = false)
      (success : store.issueInvite draws.env roomId state.db = .ok issued db) :
      AccessStep store draws fails state (.issueInvite roomId) { state with db }
  | revoked {roomId : String} {db : Db} (granted : fails = false)
      (success : RoomStore.revokeInvite draws.env roomId state.db = .ok () db) :
      AccessStep store draws fails state (.revokeInvite roomId) { state with db }

/-- Where a task may go when its loop hears something: on with the stream, or out once cancelled. -/
def Hears (cancelled : Bool) : TaskPoint → Prop
  | .receive | .appendDelta _ | .complete | .fail _ => True
  | .removeActive => cancelled
  | _ => False

/-- One step of a generation task that hears from the model or from its channel. -/
inductive ReceiveStep (state : Runtime) (generation : Generation) :
    TaskPoint → TaskPoint → Generation → Runtime → Prop
  | requested {point : TaskPoint} (next : point = .receive ∨ ∃ code, point = .fail code) :
      ReceiveStep state generation .request point generation
        { state with requests := (generation, modelStreamRequest generation.accepted) :: state.requests }
  | heard {point : TaskPoint} {text : String} (hears : Hears generation.cancelled point) :
      ReceiveStep state generation .receive point { generation with partialText := text } state

section Inversion

variable {store : RoomStore} {draws : Draws} {fails : Bool} {state next : Runtime}

private theorem read_snapshot {first : ℕ} {roomId : String} {snapshot : RoomSnapshot}
    (success : state.read fails (store.snapshotOrNotFound draws.env first roomId) = .ok snapshot) :
    ∃ id, validateRoomId roomId = .ok id ∧ store.snapshotFrom state.db id = some snapshot := by
  obtain ⟨_, acted⟩ := read_ok success
  obtain ⟨id, valid, shown, -⟩ := RoomStore.snapshotOrNotFound_ok_iff.mp acted
  exact ⟨id, valid, shown⟩

namespace CallStep

/-- A point that goes on with the value of the section it reads and answers its failure. -/
private theorem of_read {α : Type} {result : Except StoreError α} {onward : α → CallPoint} {point after : CallPoint}
    (goes : ∀ value, result = .ok value → CallStep store draws fails state point (onward value) state)
    (refuses : callRefuses store draws fails state point = !result.isOk)
    (answers : ∀ error, onError error point = .returned (.failed error))
    (stepped : some (orReturn onward result, state) = some (after, next)) :
    CallStep store draws fails state point after next := by
  obtain ⟨rfl, rfl⟩ := Prod.mk.inj (Option.some.inj stepped)
  cases result with
  | ok value => exact goes value rfl
  | error error =>
    have failed : CallStep store draws fails state point (onError error point) state := .refused refuses
    rw [answers] at failed
    exact failed

private theorem of_append {session : RoomSession} {input : SubmitTurnInput} {after : CallPoint}
    (stepped : callStep store draws fails state (.append session input) = some (after, next)) :
    CallStep store draws fails state (.append session input) after next := by
  simp only [callStep] at stepped
  split at stepped
  · next fresh =>
    rcases @write_cases _ (state.draw draws) fails _ fun _ _ => RoomStore.appendTurn_error with
      ⟨turn, db, wrote, acted, -⟩ | ⟨error, wrote, -⟩ <;> rw [wrote] at stepped
    · obtain ⟨rfl, rfl⟩ := Prod.mk.inj (Option.some.inj stepped)
      exact .appended (of_decide_eq_true fresh) acted
    · obtain ⟨rfl, rfl⟩ := Prod.mk.inj (Option.some.inj stepped)
      exact .appendRefused
  · cases stepped

private theorem of_stop {closing : Bool} {roomId runId : String} {after : CallPoint}
    (stepped : callStep store draws fails state (.stop closing roomId runId) = some (after, next)) :
    CallStep store draws fails state (.stop closing roomId runId) after next := by
  rw [callStep] at stepped
  rcases @write_cases _ state fails _ fun _ _ => RoomStore.stopRun_error with
    ⟨_, db, wrote, acted, -⟩ | ⟨error, wrote, failed⟩ <;> rw [wrote] at stepped
  · obtain ⟨rfl, rfl⟩ := Prod.mk.inj (Option.some.inj stepped)
    exact .stopped acted
  · obtain ⟨rfl, rfl⟩ := Prod.mk.inj (Option.some.inj stepped)
    exact .refused (by rw [callRefuses, failed]; rfl)

private theorem of_readStopped {closing : Bool} {roomId runId : String} {after : CallPoint}
    (stepped : callStep store draws fails state (.readStopped closing roomId runId) = some (after, next)) :
    CallStep store draws fails state (.readStopped closing roomId runId) after next := by
  rw [callStep] at stepped
  cases result : state.read fails (store.snapshotOrNotFound draws.env 0 roomId) with
  | ok snapshot =>
    rw [result] at stepped
    obtain ⟨rfl, rfl⟩ := Prod.mk.inj (Option.some.inj stepped)
    obtain ⟨id, valid, shown⟩ := read_snapshot result
    exact .readStopped valid shown
  | error error =>
    rw [result] at stepped
    obtain ⟨rfl, rfl⟩ := Prod.mk.inj (Option.some.inj stepped)
    exact .refused (by rw [callRefuses, result]; rfl)

private theorem of_close {roomId : String} {after : CallPoint}
    (stepped : callStep store draws fails state (.close roomId) = some (after, next)) :
    CallStep store draws fails state (.close roomId) after next := by
  simp only [callStep] at stepped
  rcases @write_cases _ state fails _ fun _ _ => RoomStore.closeRoom_error with
    ⟨_, db, wrote, acted, -⟩ | ⟨error, wrote, failed⟩ <;> rw [wrote] at stepped
  · obtain ⟨rfl, rfl⟩ := Prod.mk.inj (Option.some.inj stepped)
    exact .closed acted
  · obtain ⟨rfl, rfl⟩ := Prod.mk.inj (Option.some.inj stepped)
    exact .refused (by rw [callRefuses, failed]; rfl)

theorem of_callStep {point after : CallPoint}
    (stepped : callStep store draws fails state point = some (after, next)) :
    CallStep store draws fails state point after next := by
  cases point with
  | authorizeHost roomId input =>
    exact of_read (fun session success => .authorizedHost (read_ok success)) rfl (fun _ => rfl) stepped
  | authorizeGuest secret input =>
    refine of_read (fun found success => ?_) rfl (fun _ => rfl) stepped
    cases found with
    | none => exact .unauthorized
    | some session => exact .authorizedGuest (read_ok success)
  | append session input => exact of_append stepped
  | readSnapshot turn =>
    refine of_read (fun snapshot success => ?_) rfl (fun _ => rfl) stepped
    obtain ⟨id, valid, shown⟩ := read_snapshot success
    exact .readSnapshot valid shown
  | accept turn snapshot => exact of_read (fun accepted success => .accepted (read_ok success)) rfl (fun _ => rfl) stepped
  | publishAccepted accepted =>
    obtain ⟨rfl, rfl⟩ := Prod.mk.inj (Option.some.inj stepped)
    exact .publishedAccepted
  | start accepted =>
    obtain ⟨rfl, rfl⟩ := Prod.mk.inj (Option.some.inj stepped)
    exact .started
  | signal closing roomId runId =>
    obtain ⟨rfl, rfl⟩ := Prod.mk.inj (Option.some.inj stepped)
    exact .signalled
  | stop closing roomId runId => exact of_stop stepped
  | removeStopped closing roomId runId =>
    obtain ⟨rfl, rfl⟩ := Prod.mk.inj (Option.some.inj stepped)
    exact .removedStopped
  | readStopped closing roomId runId => exact of_readStopped stepped
  | publishCanceled closing roomId runId snapshot =>
    obtain ⟨rfl, rfl⟩ := Prod.mk.inj (Option.some.inj stepped)
    exact .publishedCanceled
  | readClosing roomId =>
    refine of_read (fun snapshot success => ?_) rfl (fun _ => rfl) stepped
    obtain ⟨id, valid, shown⟩ := read_snapshot success
    exact .readClosing valid shown
  | close roomId => exact of_close stepped
  | removeRoom roomId =>
    obtain ⟨rfl, rfl⟩ := Prod.mk.inj (Option.some.inj stepped)
    exact .removedRoom
  | readClosed roomId =>
    refine of_read (fun snapshot success => ?_) rfl (fun _ => rfl) stepped
    obtain ⟨id, valid, shown⟩ := read_snapshot success
    exact .readClosed valid shown
  | publishClosed roomId snapshot =>
    obtain ⟨rfl, rfl⟩ := Prod.mk.inj (Option.some.inj stepped)
    exact .publishedClosed
  | returned answer => cases stepped
  | dropped => cases stepped

end CallStep

namespace TaskStep

variable {generation : Generation}

private theorem of_appendDelta {delta : String} {after : TaskPoint}
    (stepped : taskStep store draws fails state generation (.appendDelta delta) = some (after, next)) :
    TaskStep store draws fails state generation (.appendDelta delta) after next := by
  rw [taskStep] at stepped
  rcases @write_cases _ state fails _ fun _ _ => RoomStore.appendDelta_error with
    ⟨_, db, wrote, acted, -⟩ | ⟨error, wrote, -⟩ <;> rw [wrote] at stepped
  · obtain ⟨rfl, rfl⟩ := Prod.mk.inj (Option.some.inj stepped)
    exact .extended acted
  · obtain ⟨rfl, rfl⟩ := Prod.mk.inj (Option.some.inj stepped)
    exact .rejected

private theorem of_complete {after : TaskPoint}
    (stepped : taskStep store draws fails state generation .complete = some (after, next)) :
    TaskStep store draws fails state generation .complete after next := by
  simp only [taskStep] at stepped
  split at stepped
  · next fresh =>
    rcases @write_cases _ (state.draw draws) fails _ fun _ _ => RoomStore.settleRun_error with
      ⟨_, db, wrote, acted, settles⟩ | ⟨error, wrote, -⟩ <;> rw [wrote] at stepped
    · obtain ⟨rfl, rfl⟩ := Prod.mk.inj (Option.some.inj stepped)
      exact .completed (of_decide_eq_true fresh) (congrArg not settles) acted
    · obtain ⟨rfl, rfl⟩ := Prod.mk.inj (Option.some.inj stepped)
      exact .completeRefused
  · cases stepped

private theorem of_readCompleted {after : TaskPoint}
    (stepped : taskStep store draws fails state generation .readCompleted = some (after, next)) :
    TaskStep store draws fails state generation .readCompleted after next := by
  rw [taskStep] at stepped
  cases result : state.read fails (store.snapshotOrNotFound draws.env 11 generation.roomId) with
  | ok snapshot =>
    rw [result] at stepped
    obtain ⟨rfl, rfl⟩ := Prod.mk.inj (Option.some.inj stepped)
    obtain ⟨id, valid, shown⟩ := read_snapshot result
    exact .readCompleted valid shown
  | error error =>
    rw [result] at stepped
    obtain ⟨rfl, rfl⟩ := Prod.mk.inj (Option.some.inj stepped)
    exact .readCompletedRefused (by rw [taskRefuses, result]; rfl)

private theorem of_fail {code : String} {after : TaskPoint}
    (stepped : taskStep store draws fails state generation (.fail code) = some (after, next)) :
    TaskStep store draws fails state generation (.fail code) after next := by
  rw [taskStep] at stepped
  rcases @write_cases _ state fails _ fun _ _ => RoomStore.settleRun_error with
    ⟨_, db, wrote, acted, settles⟩ | ⟨error, wrote, failed⟩ <;> rw [wrote] at stepped
  · obtain ⟨rfl, rfl⟩ := Prod.mk.inj (Option.some.inj stepped)
    exact .failed (congrArg not settles) acted
  · obtain ⟨rfl, rfl⟩ := Prod.mk.inj (Option.some.inj stepped)
    exact .failRefused (congrArg not failed)

private theorem of_readFailed {code : String} {after : TaskPoint}
    (stepped : taskStep store draws fails state generation (.readFailed code) = some (after, next)) :
    TaskStep store draws fails state generation (.readFailed code) after next := by
  rw [taskStep] at stepped
  cases result : state.read fails (store.snapshotOrNotFound draws.env 11 generation.roomId) with
  | ok snapshot =>
    rw [result] at stepped
    obtain ⟨rfl, rfl⟩ := Prod.mk.inj (Option.some.inj stepped)
    obtain ⟨id, valid, shown⟩ := read_snapshot result
    exact .readFailed valid shown
  | error error =>
    rw [result] at stepped
    obtain ⟨rfl, rfl⟩ := Prod.mk.inj (Option.some.inj stepped)
    exact .readFailedRefused (by rw [taskRefuses, result]; rfl)

theorem of_taskStep {point after : TaskPoint}
    (stepped : taskStep store draws fails state generation point = some (after, next)) :
    TaskStep store draws fails state generation point after next := by
  cases point with
  | request => cases stepped
  | receive => cases stepped
  | appendDelta delta => exact of_appendDelta stepped
  | publishDelta delta =>
    obtain ⟨rfl, rfl⟩ := Prod.mk.inj (Option.some.inj stepped)
    exact .publishedDelta
  | complete => exact of_complete stepped
  | readCompleted => exact of_readCompleted stepped
  | publishCompleted snapshot =>
    obtain ⟨rfl, rfl⟩ := Prod.mk.inj (Option.some.inj stepped)
    exact .publishedCompleted
  | fail code => exact of_fail stepped
  | readFailed code => exact of_readFailed stepped
  | publishFailed code snapshot =>
    obtain ⟨rfl, rfl⟩ := Prod.mk.inj (Option.some.inj stepped)
    exact .publishedFailed
  | removeActive =>
    obtain ⟨rfl, rfl⟩ := Prod.mk.inj (Option.some.inj stepped)
    exact .removed
  | ended => cases stepped

end TaskStep

/-- What an item of the stream makes of the loop. -/
theorem hears_onItem (generation : Generation) (item : Option (Except ModelStreamError ModelStreamEvent)) :
    Hears generation.cancelled (onItem generation item).1 := by
  have leaves (other : TaskPoint) (on : Hears generation.cancelled other) :
      Hears generation.cancelled (if generation.cancelled then .removeActive else other) := by
    split
    · next left => exact left
    · exact on
  match item with
  | none => trivial
  | some (.error error) => exact leaves _ trivial
  | some (.ok (.textDelta requestId delta)) =>
    simp only [onItem]
    split
    · trivial
    · split <;> trivial
  | some (.ok (.completed requestId)) =>
    simp only [onItem]
    split
    · trivial
    · exact leaves _ trivial
  | some (.ok (.failed requestId code message)) =>
    simp only [onItem]
    split
    · trivial
    · exact leaves _ trivial

theorem ReceiveStep.of_receiveStep {generation after : Generation} {index : ℕ} {received : Received}
    {point reached : TaskPoint}
    (stepped : state.receiveStep generation index point received = some (reached, after, next)) :
    ReceiveStep state generation point reached after next := by
  cases point with
  | request =>
    cases received with
    | opened error =>
      simp only [receiveStep, Option.some.injEq, Prod.mk.injEq] at stepped
      obtain ⟨rfl, rfl, rfl⟩ := stepped
      refine .requested ?_
      cases error with
      | none => exact Or.inl rfl
      | some error => exact Or.inr ⟨_, rfl⟩
    | changed => cases stepped
    | item item => cases stepped
  | receive =>
    cases received with
    | opened error => cases stepped
    | changed =>
      simp only [receiveStep] at stepped
      split at stepped
      · next cancelled =>
        simp only [Option.some.injEq, Prod.mk.injEq] at stepped
        obtain ⟨rfl, rfl, rfl⟩ := stepped
        exact .heard cancelled
      · split at stepped
        · cases stepped
        · simp only [Option.some.injEq, Prod.mk.injEq] at stepped
          obtain ⟨rfl, rfl, rfl⟩ := stepped
          exact .heard trivial
    | item item =>
      simp only [receiveStep, Option.some.injEq, Prod.mk.injEq] at stepped
      obtain ⟨rfl, rfl, rfl⟩ := stepped
      exact .heard (hears_onItem generation item)
  | appendDelta | publishDelta | complete | readCompleted | publishCompleted | fail | readFailed
  | publishFailed | removeActive | ended => cases received <;> cases stepped

theorem AccessStep.of_accessStep (op : AccessOp) :
    AccessStep store draws fails state op (accessStep store draws fails state op) := by
  cases op with
  | createRoom input =>
    cases wrote : state.write fails (store.createRoom draws.env input) with
    | mk result after =>
      simp only [accessStep, wrote]
      cases result with
      | ok created =>
        obtain ⟨db, acted, rfl⟩ := write_ok wrote
        exact .created acted
      | error error =>
        rw [write_error wrote fun _ _ => RoomStore.createRoom_error]
        exact .refused
  | exchangeInvite raw displayName =>
    simp only [accessStep]
    split
    · next wrote =>
      obtain ⟨db, acted, rfl⟩ := write_ok wrote
      exact .joined acted
    · next wrote =>
      rw [write_error wrote fun _ _ => RoomStore.exchangeInvite_error]
      exact .refused
  | issueInvite roomId =>
    cases wrote : state.write fails (store.issueInvite draws.env roomId) with
    | mk result after =>
      simp only [accessStep, wrote]
      cases result with
      | ok issued =>
        have granted := write_granted wrote
        obtain ⟨db, acted, rfl⟩ := write_ok wrote
        exact .issued granted acted
      | error error =>
        rw [write_error wrote fun _ _ => RoomStore.issueInvite_error]
        exact .refused
  | revokeInvite roomId =>
    cases wrote : state.write fails (RoomStore.revokeInvite draws.env roomId) with
    | mk result after =>
      simp only [accessStep, wrote]
      cases result with
      | ok result =>
        have granted := write_granted wrote
        obtain ⟨db, acted, rfl⟩ := write_ok wrote
        exact .revoked granted acted
      | error error =>
        rw [write_error wrote fun _ _ => RoomStore.revokeInvite_error]
        exact .refused

end Inversion

/-- One step of the runtime. -/
inductive Step (store : RoomStore) (state : Runtime) : Label → Runtime → Prop
  | begun {request : Request} :
      Step store state (.begin request)
        { state with threads := state.threads ++ [.call request request.first] }
  | dropped {index : ℕ} {request : Request} {point : CallPoint}
      (held : state.threads[index]? = some (.call request point)) (under : point.isOver = false) :
      Step store state (.drop index) (state.put index (.call request .dropped))
  | called {index : ℕ} {draws : Draws} {fails : Bool} {request : Request} {point after : CallPoint}
      {next : Runtime} (held : state.threads[index]? = some (.call request point))
      (step : CallStep store draws fails state point after next) :
      Step store state (.advance index draws fails) (next.put index (.call request after))
  | ran {index : ℕ} {draws : Draws} {fails : Bool} {generation : Generation} {point after : TaskPoint}
      {next : Runtime} (held : state.threads[index]? = some (.task generation point))
      (step : TaskStep store draws fails state generation point after next) :
      Step store state (.advance index draws fails) (next.put index (.task generation after))
  | heard {index : ℕ} {received : Received} {generation changed : Generation} {point after : TaskPoint}
      {next : Runtime} (held : state.threads[index]? = some (.task generation point))
      (step : ReceiveStep state generation point after changed next) :
      Step store state (.receive index received) (next.put index (.task changed after))
  | accessed {op : AccessOp} {draws : Draws} {fails : Bool} {next : Runtime}
      (fresh : ∀ i, draws.uuid i ∉ state.drawn) (step : AccessStep store draws fails (state.draw draws) op next) :
      Step store state (.access op draws fails) next

/-- Every step of the executable model is listed. -/
theorem Step.of_step? {store : RoomStore} {state next : Runtime} {label : Label}
    (stepped : step? store state label = some next) : Step store state label next := by
  cases label with
  | begin request =>
    simp only [step?, Option.some.injEq] at stepped
    subst stepped
    exact .begun
  | drop index =>
    simp only [step?] at stepped
    split at stepped
    · next held =>
      split at stepped
      · cases stepped
      · next under =>
        simp only [Option.some.injEq] at stepped
        subst stepped
        exact .dropped held (Bool.eq_false_iff.mpr under)
    · cases stepped
  | receive index received =>
    simp only [step?] at stepped
    split at stepped
    · next held =>
      obtain ⟨⟨after, changed, middle⟩, heard, rfl⟩ := Option.map_eq_some_iff.mp stepped
      exact .heard held (.of_receiveStep heard)
    · cases stepped
  | advance index draws fails =>
    simp only [step?] at stepped
    split at stepped
    · next held =>
      obtain ⟨⟨after, middle⟩, called, rfl⟩ := Option.map_eq_some_iff.mp stepped
      exact .called held (.of_callStep called)
    · next held =>
      obtain ⟨⟨after, middle⟩, ran, rfl⟩ := Option.map_eq_some_iff.mp stepped
      exact .ran held (.of_taskStep ran)
    · cases stepped
  | access op draws fails =>
    simp only [step?] at stepped
    split at stepped
    · next fresh =>
      simp only [Option.some.injEq] at stepped
      subst stepped
      exact .accessed (of_decide_eq_true fresh) (.of_accessStep op)
    · cases stepped

end Runtime

end RyuRooms
