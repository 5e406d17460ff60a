import RyuRooms.Foundation.Machine
import RyuRooms.Store.Change

/-! # Histories of the store

A call is one `RoomStore` operation taken as an atomic step: the key state of the process it runs
in, what it draws, whether one of its statements fails, and the operation with its arguments. An
event adds the reply. The store machine accepts an event when the call gives exactly that reply, so
a run of the machine is a history of calls with their replies, and every sequence of calls has one.
-/

namespace RyuRooms

open Foundation

/-- The operations of `RoomStore` that change the tables. -/
inductive Op where
  | createRoom (input : CreateRoomInput)
  | exchangeInvite (raw displayName : String)
  | issueInvite (roomId : String)
  | revokeInvite (roomId : String)
  | appendUserTurn (session : RoomSession) (input : SubmitTurnInput)
  | appendDelta (roomId runId delta : String)
  | finishRun (roomId runId : String) (terminal : RunTerminal)
      (ends : terminal.status = .completed ∨ terminal.status = .failed)
  | stopRun (roomId runId : String)
  | closeRoom (roomId : String)
  | recoverRunning

/-- What an operation returns. -/
inductive Reply where
  | created (room : CreatedRoom)
  | joined (session : RoomSession)
  | issued (invite : IssuedInvite)
  | accepted (run : AcceptedRun)
  | finished (snapshot : RoomSnapshot)
  | recovered (changed : ℕ)
  | done
deriving DecidableEq

namespace Op

/-- The operations on turns. -/
def isTurn : Op → Bool
  | appendUserTurn _ _ | appendDelta _ _ _ | finishRun _ _ _ _ | stopRun _ _ | recoverRunning => true
  | createRoom _ | exchangeInvite _ _ | issueInvite _ | revokeInvite _ | closeRoom _ => false

/-- The action of one call. -/
def action (store : RoomStore) (env : Env) : Op → StoreM Reply
  | createRoom input => .created <$> store.createRoom env input
  | exchangeInvite raw displayName => .joined <$> store.exchangeInvite env raw displayName
  | issueInvite roomId => .issued <$> store.issueInvite env roomId
  | revokeInvite roomId => (fun _ => .done) <$> RoomStore.revokeInvite env roomId
  | appendUserTurn session input => .accepted <$> store.appendUserTurn env session input
  | appendDelta roomId runId delta => (fun _ => .done) <$> store.appendDelta env roomId runId delta
  | finishRun roomId runId terminal _ => .finished <$> store.finishRun env roomId runId terminal
  | stopRun roomId runId => (fun _ => .done) <$> store.stopRun env roomId runId
  | closeRoom roomId => (fun _ => .done) <$> RoomStore.closeRoom env roomId
  | recoverRunning => .recovered <$> store.recoverRunning env

end Op

/-- One call of a store; a call that `fails` has no effect. -/
structure Call where
  sealing : StoreSeal
  draws : Draws
  fails : Bool
  op : Op

/-- A call with its reply. -/
structure Event extends Call where
  reply : Except StoreError Reply

/-- The reply of a call and the tables after it. -/
def Call.exec (crates : Crates) (call : Call) (db : Db) : Except StoreError Reply × Db :=
  if call.fails then (.error .database, db)
  else outcome (call.op.action ⟨crates, call.sealing⟩ call.draws.env) db

/-- The machine whose runs are histories of store calls on new tables. -/
def storeMachine (crates : Crates) : Machine Db Event where
  Initial db := db = .empty
  step? db event :=
    let (reply, next) := event.exec crates db
    if reply = event.reply then some next else none

namespace Event

variable {crates : Crates} {event : Event} {source target : Db}

theorem step_iff : (storeMachine crates).step? source event = some target ↔
    event.exec crates source = (event.reply, target) := by
  simp only [storeMachine, Prod.ext_iff]
  split <;> simp_all

/-- A call that returned a value is the operation's success. -/
theorem ok_of_step {reply : Reply} (step : (storeMachine crates).step? source event = some target)
    (replied : event.reply = .ok reply) :
    event.op.action ⟨crates, event.sealing⟩ event.draws.env source = .ok reply target := by
  have exec := step_iff.mp step
  rw [replied, Call.exec] at exec
  split at exec
  · simp at exec
  · exact outcome_ok_iff.mp exec

end Event

namespace Op

variable {store : RoomStore} {draws : Draws} {source : Db}

/-- Renaming the reply changes nothing else. -/
private theorem outcome_map {α : Type} {f : α → Reply} {action : StoreM α} :
    (outcome (f <$> action) source).2 = (outcome action source).2 := by
  rw [map_eq_pure_bind, ReadOnly.outcome_bind fun _ => .pure _]

/-- An operation on turns makes a change of runs. -/
theorem runChange {op : Op} (turn : op.isTurn) :
    RunChange source (outcome (op.action store draws.env) source).2 := by
  cases op with
  | createRoom | exchangeInvite | issueInvite | revokeInvite | closeRoom => cases turn
  | appendUserTurn session input =>
    rw [action, outcome_map, RoomStore.appendUserTurn, ReadOnly.outcome_bind fun _ => .bind
      (RoomStore.snapshotOrNotFound_readOnly _ _) fun _ => RoomStore.acceptTurn_readOnly _ _]
    exact .of_appendTurn session input
  | appendDelta roomId runId delta =>
    rw [action, outcome_map]
    exact .of_appendDelta roomId runId delta
  | finishRun roomId runId terminal ends =>
    rw [action, outcome_map, RoomStore.finishRun,
      ReadOnly.outcome_bind fun _ => RoomStore.snapshotOrNotFound_readOnly _ _]
    exact .of_settleRun roomId runId <| by rcases ends with same | same <;> rw [same] <;> rfl
  | stopRun roomId runId =>
    rw [action, outcome_map]
    exact .of_stopRun roomId runId
  | recoverRunning =>
    rw [action, outcome_map]
    exact .of_recoverRunning

/-- Every operation makes one of the ten changes. -/
theorem change (op : Op) : Change source (outcome (op.action store draws.env) source).2 := by
  cases op with
  | createRoom input =>
    rw [action, outcome_map]
    exact .of_createRoom input
  | exchangeInvite raw displayName =>
    rw [action, outcome_map]
    exact .of_exchangeInvite raw displayName
  | issueInvite roomId =>
    rw [action, outcome_map]
    exact .of_issueInvite roomId
  | revokeInvite roomId =>
    rw [action, outcome_map]
    exact .of_revokeInvite roomId
  | closeRoom roomId =>
    rw [action, outcome_map]
    exact .of_closeRoom roomId
  | appendUserTurn | appendDelta | finishRun | stopRun | recoverRunning => exact .ran (runChange rfl)

/-- Outside of turns a failed operation changes nothing. -/
theorem unchanged_of_error {op : Op} (access : op.isTurn = false) {target : Db} {error : StoreError}
    (failed : op.action store draws.env source = .error error target) : source = target := by
  cases op with
  | createRoom input => exact RoomStore.createRoom_error (map_error_iff.mp failed)
  | exchangeInvite raw displayName => exact RoomStore.exchangeInvite_error (map_error_iff.mp failed)
  | issueInvite roomId => exact RoomStore.issueInvite_error (map_error_iff.mp failed)
  | revokeInvite roomId => exact RoomStore.revokeInvite_error (map_error_iff.mp failed)
  | closeRoom roomId => exact RoomStore.closeRoom_error (map_error_iff.mp failed)
  | appendUserTurn | appendDelta | finishRun | stopRun | recoverRunning => cases access

end Op

/-- The events of a sequence of calls, and the tables they lead to. -/
def history (crates : Crates) : List Call → Db → List Event × Db
  | [], db => ([], db)
  | call :: rest, db =>
    let (reply, next) := call.exec crates db
    let (events, target) := history crates rest next
    (⟨call, reply⟩ :: events, target)

/-- A call is a step of the store machine with the reply that it gives. -/
theorem step_exec (crates : Crates) (call : Call) (db : Db) :
    (storeMachine crates).step? db ⟨call, (call.exec crates db).1⟩ = some (call.exec crates db).2 :=
  Event.step_iff.mpr rfl

/-- Every sequence of calls is a path of the store machine. -/
theorem path_history (crates : Crates) (calls : List Call) (db : Db) :
    (storeMachine crates).Path db (history crates calls db).1 (history crates calls db).2 := by
  induction calls generalizing db with
  | nil => exact Machine.path_nil_iff.mpr rfl
  | cons call rest ih => exact Machine.path_cons_iff.mpr ⟨_, step_exec crates call db, ih _⟩

theorem run_history (crates : Crates) (calls : List Call) :
    (storeMachine crates).Run (history crates calls .empty).1 (history crates calls .empty).2 :=
  ⟨.empty, rfl, path_history crates calls .empty⟩

namespace Event

variable {crates : Crates} {event : Event} {source target : Db}

/-- Every step of the store machine makes one of the ten changes. -/
theorem change (step : (storeMachine crates).step? source event = some target) : Change source target := by
  obtain rfl : (event.exec crates source).2 = target := congrArg Prod.snd (step_iff.mp step)
  rw [Call.exec]
  split
  · exact .unchanged
  · exact event.op.change

/-- A step on turns makes a change of runs. -/
theorem runChange (step : (storeMachine crates).step? source event = some target) (turn : event.op.isTurn) :
    RunChange source target := by
  obtain rfl : (event.exec crates source).2 = target := congrArg Prod.snd (step_iff.mp step)
  rw [Call.exec]
  split
  · exact .unchanged
  · exact Op.runChange turn

/-- Outside of turns a step with an error changes nothing. -/
theorem unchanged_of_error (step : (storeMachine crates).step? source event = some target)
    (access : event.op.isTurn = false) {error : StoreError} (replied : event.reply = .error error) :
    source = target := by
  have exec := step_iff.mp step
  rw [replied, Call.exec] at exec
  split at exec
  · exact congrArg Prod.snd exec
  · exact Op.unchanged_of_error access (outcome_error_iff.mp exec)

end Event

end RyuRooms
