import Mathlib.Logic.Function.Basic
import RyuRooms.Model.RoomStore

/-! # The room runtime and its tasks

`RoomRuntime` (`inference.rs`) with the request handlers of `api.rs` that call it. A thread is a
request or a spawned generation task, stopped at an await point with the locals it holds there. A
step of a thread takes it to its next point; the locked sections of `append_user_turn` and
`finish_run` are steps of their own, and a section that `fails` returns `Err` without effect. A
request may be dropped at every point, a task at none, and the model stream answers as it likes.
`published` and `requests` log what was sent to the event hub and to the model, newest first.
`drawn`, `guests` and `startedAs` are bookkeeping: uuids are never drawn twice, and the other two
are only stated about. The two constants of a model request that are no text are left out.
-/

namespace RyuRooms

open Foundation

inductive ModelStreamEvent where
  | textDelta (requestId delta : String)
  | completed (requestId : String)
  | failed (requestId code message : String)
deriving DecidableEq

inductive ModelStreamError where
  | notHosted
  | invalid (message : String)
  | transport (message : String)
  | rejected (status : ℕ) (code : String)
  | protocol (message : String)
deriving DecidableEq

structure ModelStreamMessage where
  role : String
  content : String
deriving DecidableEq

structure ModelStreamRequest where
  messages : List ModelStreamMessage
  model : String
  provider : Option String
  requestId : String
deriving DecidableEq

/-- `model_error_code`. -/
def modelErrorCode : ModelStreamError → String
  | .notHosted => "modelHostUnavailable"
  | .invalid _ => "modelRequestRejected"
  | .transport _ => "modelTransport"
  | .rejected _ _ => "modelRejected"
  | .protocol _ => "modelProtocol"

/-- The role `run_generation` gives a message. -/
def modelRole : MessageRole → String
  | .user => "user"
  | .assistant => "assistant"

/-- The request `run_generation` builds. -/
def modelStreamRequest (accepted : AcceptedRun) : ModelStreamRequest where
  messages := accepted.snapshot.messages.map fun message => ⟨modelRole message.role, message.text⟩
  model := accepted.snapshot.modelId
  provider := some "local"
  requestId := accepted.run.requestId

/-- The events `RoomRuntime` publishes, with their data. -/
inductive RoomEvent where
  | turnAccepted (run : RoomRun) (message : RoomMessage) (snapshot : RoomSnapshot)
  | turnDelta (runId requestId delta partialText : String)
  | turnCompleted (runId requestId : String) (snapshot : RoomSnapshot)
  | turnFailed (runId requestId errorCode : String) (snapshot : RoomSnapshot)
  | turnCanceled (runId : String) (snapshot : RoomSnapshot)
  | roomClosed (snapshot : RoomSnapshot)
deriving DecidableEq

namespace RoomEvent

def name : RoomEvent → String
  | turnAccepted _ _ _ => "turn.accepted"
  | turnDelta _ _ _ _ => "turn.delta"
  | turnCompleted _ _ _ => "turn.completed"
  | turnFailed _ _ _ _ => "turn.failed"
  | turnCanceled _ _ => "turn.canceled"
  | roomClosed _ => "room.closed"

/-- The snapshot an event carries. -/
def snapshot? : RoomEvent → Option RoomSnapshot
  | turnAccepted _ _ snapshot | turnCompleted _ _ snapshot | turnFailed _ _ _ snapshot
  | turnCanceled _ snapshot | roomClosed snapshot => some snapshot
  | turnDelta _ _ _ _ => none

/-- The run an event ends, and the status its name gives it. -/
def terminal? : RoomEvent → Option (String × RunStatus)
  | turnCompleted runId _ _ => some (runId, .completed)
  | turnFailed runId _ _ _ => some (runId, .failed)
  | turnCanceled runId _ => some (runId, .canceled)
  | turnAccepted _ _ _ | turnDelta _ _ _ _ | roomClosed _ => none

end RoomEvent

/-- `ActiveRun`; a cancel channel is named by the thread that listens to it. -/
structure ActiveRun where
  runId : String
  cancel : ℕ
deriving DecidableEq

/-- What a generation task owns: its accepted run, whether `true` was sent on its channel, the text
it has received, and the status its run had in the store when `start_run` registered it. -/
structure Generation where
  accepted : AcceptedRun
  cancelled : Bool
  partialText : String
  startedAs : Option RunStatus
deriving DecidableEq

namespace Generation

def runId (generation : Generation) : String := generation.accepted.run.runId
def roomId (generation : Generation) : String := generation.accepted.snapshot.id
def requestId (generation : Generation) : String := generation.accepted.run.requestId

end Generation

/-- The await points of the task that `start_run` spawns. -/
inductive TaskPoint where
  | request
  | receive
  | appendDelta (delta : String)
  | publishDelta (delta : String)
  | complete
  | readCompleted
  | publishCompleted (snapshot : RoomSnapshot)
  | fail (code : String)
  | readFailed (code : String)
  | publishFailed (code : String) (snapshot : RoomSnapshot)
  | removeActive
  | ended
deriving DecidableEq

/-- The requests that reach the runtime; `submitTurn` is a direct call with some session. -/
inductive Request where
  | submitTurn (session : RoomSession) (input : SubmitTurnInput)
  | hostTurn (roomId : String) (input : SubmitTurnInput)
  | guestTurn (secret : String) (input : SubmitTurnInput)
  | stopRun (roomId runId : String)
  | closeRoom (roomId : String)
deriving DecidableEq

/-- What a request is answered with. -/
inductive Answer where
  | accepted (accepted : AcceptedRun)
  | snapshot (snapshot : RoomSnapshot)
  | unauthorized
  | failed (error : StoreError)
deriving DecidableEq

/-- The await points of a request; `closing` marks the `stop_run` inside `close_room`. -/
inductive CallPoint where
  | authorizeHost (roomId : String) (input : SubmitTurnInput)
  | authorizeGuest (secret : String) (input : SubmitTurnInput)
  | append (session : RoomSession) (input : SubmitTurnInput)
  | readSnapshot (turn : RoomStore.AppendedTurn)
  | accept (turn : RoomStore.AppendedTurn) (snapshot : RoomSnapshot)
  | publishAccepted (accepted : AcceptedRun)
  | start (accepted : AcceptedRun)
  | signal (closing : Bool) (roomId runId : String)
  | stop (closing : Bool) (roomId runId : String)
  | removeStopped (closing : Bool) (roomId runId : String)
  | readStopped (closing : Bool) (roomId runId : String)
  | publishCanceled (closing : Bool) (roomId runId : String) (snapshot : RoomSnapshot)
  | readClosing (roomId : String)
  | close (roomId : String)
  | removeRoom (roomId : String)
  | readClosed (roomId : String)
  | publishClosed (roomId : String) (snapshot : RoomSnapshot)
  | returned (answer : Answer)
  | dropped
deriving DecidableEq

/-- Where a request starts. -/
def Request.first : Request → CallPoint
  | submitTurn session input => .append session input
  | hostTurn roomId input => .authorizeHost roomId input
  | guestTurn secret input => .authorizeGuest secret input
  | stopRun roomId runId => .signal false roomId runId
  | closeRoom roomId => .readClosing roomId

namespace CallPoint

/-- The request has returned or was dropped. -/
def isOver : CallPoint → Bool
  | returned _ | dropped => true
  | _ => false

/-- Where `stop_run` returns to: its caller, or `close_room`, which ignores its result. -/
def afterStop (closing : Bool) (roomId : String) (answer : Answer) : CallPoint :=
  if closing then close roomId else returned answer

end CallPoint

inductive Thread where
  | call (request : Request) (point : CallPoint)
  | task (generation : Generation) (point : TaskPoint)
deriving DecidableEq

/-- The other operations of the store that handlers call. -/
inductive AccessOp where
  | createRoom (input : CreateRoomInput)
  | exchangeInvite (raw displayName : String)
  | issueInvite (roomId : String)
  | revokeInvite (roomId : String)
deriving DecidableEq

/-- What a task hears: the answer to its request, its `select` taking the cancel branch, or the
next item of its stream. -/
inductive Received where
  | opened (error : Option ModelStreamError)
  | changed
  | item (item : Option (Except ModelStreamError ModelStreamEvent))

/-- The steps of the runtime. -/
inductive Label where
  | begin (request : Request)
  | advance (thread : ℕ) (draws : Draws) (fails : Bool)
  | receive (thread : ℕ) (received : Received)
  | drop (thread : ℕ)
  | access (op : AccessOp) (draws : Draws) (fails : Bool)

/-- The store, the runtime's `active` map, the threads, and the logs. -/
structure Runtime where
  db : Db
  active : String → Option ActiveRun
  threads : List Thread
  published : List (String × RoomEvent)
  requests : List (Generation × ModelStreamRequest)
  drawn : List Uuid
  guests : List String

namespace Runtime

section Shared

variable (state : Runtime)

/-- The uuids that a section draws are new. -/
def isFresh (draws : Draws) : Bool := decide (∀ i, draws.uuid i ∉ state.drawn)

def draw (draws : Draws) : Runtime := { state with drawn := draws.uuids ++ state.drawn }

def put (index : ℕ) (thread : Thread) : Runtime := { state with threads := state.threads.set index thread }

/-- The result of a section of the store that only reads. -/
def read {α : Type} (fails : Bool) (action : StoreM α) : Except StoreError α :=
  if fails then .error .database else (outcome action state.db).1

/-- The result of a section of the store, and the runtime after it. -/
def write {α : Type} (fails : Bool) (action : StoreM α) : Except StoreError α × Runtime :=
  if fails then (.error .database, state)
  else ((outcome action state.db).1, { state with db := (outcome action state.db).2 })

/-- `RoomRuntime::publish`. -/
def publish (roomId : String) (event : RoomEvent) : Runtime :=
  { state with published := (roomId, event) :: state.published }

/-- `RoomRuntime::remove_active`. -/
def removeActive (roomId runId : String) : Runtime :=
  if (state.active roomId).any fun run => run.runId == runId then
    { state with active := Function.update state.active roomId none }
  else state

/-- `RoomRuntime::remove_active_for_room`. -/
def removeActiveForRoom (roomId : String) : Runtime :=
  { state with active := Function.update state.active roomId none }

/-- `cancel.send(true)`, which has no effect once the task has dropped its receiver. -/
def send (channel : ℕ) : Runtime :=
  match state.threads[channel]? with
  | some (.task generation point) =>
    if point = .removeActive ∨ point = .ended then state
    else state.put channel (.task { generation with cancelled := true } point)
  | _ => state

/-- The first locked section of `RoomRuntime::stop_run`, and its signal. -/
def signal (roomId runId : String) : Runtime :=
  match (state.active roomId).filter fun run => run.runId == runId with
  | some run => state.send run.cancel
  | none => state

/-- A task's channel still has its sender in the `active` map. -/
def hasSender (roomId : String) (channel : ℕ) : Bool :=
  (state.active roomId).any fun run => run.cancel == channel

/-- `RoomRuntime::start_run`. -/
def startRun (accepted : AcceptedRun) : Runtime :=
  if (state.active accepted.snapshot.id).isSome then state
  else { state with
    active := Function.update state.active accepted.snapshot.id
      (some ⟨accepted.run.runId, state.threads.length⟩)
    threads := state.threads ++ [.task
      { accepted, cancelled := false, partialText := ""
        startedAs := (state.db.runs.find? (·.id == accepted.run.runId)).map RunRow.status } .request] }

end Shared

section Calls

variable (store : RoomStore) (draws : Draws) (fails : Bool) (state : Runtime)

/-- A turn's section whose failure is the request's answer. -/
def orReturn {α : Type} (next : α → CallPoint) : Except StoreError α → CallPoint
  | .ok value => next value
  | .error error => .returned (.failed error)

/-- The step of `session_from_headers`. -/
def authorized (input : SubmitTurnInput) : Option RoomSession → CallPoint
  | some session => .append session input
  | none => .returned .unauthorized

/-- The run `close_room` stops first. -/
def closingPoint (roomId : String) (snapshot : RoomSnapshot) : CallPoint :=
  match snapshot.currentRun.filter fun run => run.status.isActive with
  | some run => .signal true roomId run.runId
  | none => .close roomId

/-- One step of a request. -/
def callStep : CallPoint → Option (CallPoint × Runtime)
  | .authorizeHost roomId input =>
    some (orReturn (.append · input) (state.read fails (store.hostSession draws.env roomId)), state)
  | .authorizeGuest secret input =>
    some (orReturn (authorized input) (state.read fails (store.resolveSession draws.env secret)), state)
  | .append session input =>
    if state.isFresh draws then
      let (result, next) := (state.draw draws).write fails (store.appendTurn draws.env session input)
      some (orReturn .readSnapshot result, next)
    else none
  | .readSnapshot turn =>
    some (orReturn (.accept turn) (state.read fails (store.snapshotOrNotFound draws.env 13 turn.roomId)), state)
  | .accept turn snapshot =>
    -- An inserted turn is looked up in the snapshot alone, so no statement can fail there.
    some (orReturn .publishAccepted
      (state.read (fails && turn.messageId.isNone) (store.acceptTurn draws.env turn snapshot)), state)
  | .publishAccepted accepted =>
    some (if accepted.run.status = .running then .start accepted else .returned (.accepted accepted),
      state.publish accepted.snapshot.id (.turnAccepted accepted.run accepted.userMessage accepted.snapshot))
  | .start accepted => some (.returned (.accepted accepted), state.startRun accepted)
  | .signal closing roomId runId => some (.stop closing roomId runId, state.signal roomId runId)
  | .stop closing roomId runId =>
    match state.write fails (store.stopRun draws.env roomId runId) with
    | (.ok _, next) => some (.removeStopped closing roomId runId, next)
    | (.error error, next) => some (.afterStop closing roomId (.failed error), next)
  | .removeStopped closing roomId runId =>
    some (.readStopped closing roomId runId, state.removeActive roomId runId)
  | .readStopped closing roomId runId =>
    match state.read fails (store.snapshotOrNotFound draws.env 0 roomId) with
    | .ok snapshot => some (.publishCanceled closing roomId runId snapshot, state)
    | .error error => some (.afterStop closing roomId (.failed error), state)
  | .publishCanceled closing roomId runId snapshot =>
    some (.afterStop closing roomId (.snapshot snapshot), state.publish roomId (.turnCanceled runId snapshot))
  | .readClosing roomId =>
    some (orReturn (closingPoint roomId) (state.read fails (store.snapshotOrNotFound draws.env 0 roomId)), state)
  | .close roomId =>
    let (result, next) := state.write fails (RoomStore.closeRoom draws.env roomId)
    some (orReturn (fun _ => .removeRoom roomId) result, next)
  | .removeRoom roomId => some (.readClosed roomId, state.removeActiveForRoom roomId)
  | .readClosed roomId =>
    some (orReturn (.publishClosed roomId) (state.read fails (store.snapshotOrNotFound draws.env 0 roomId)),
      state)
  | .publishClosed roomId snapshot =>
    some (.returned (.snapshot snapshot), state.publish roomId (.roomClosed snapshot))
  | .returned _ | .dropped => none

end Calls

section Tasks

variable (store : RoomStore) (draws : Draws) (fails : Bool) (state : Runtime) (generation : Generation)

/-- The terminal status `fail_generation` records. -/
def failedTerminal (code : String) : RunTerminal where
  status := .failed
  errorCode := some code
  errorMessage := some "the local model could not complete this turn"

/-- The terminal status of a completed stream. -/
def completedTerminal : RunTerminal := ⟨.completed, none, none⟩

/-- One step of a generation task that does not wait for the model. -/
def taskStep : TaskPoint → Option (TaskPoint × Runtime)
  | .appendDelta delta =>
    match state.write fails (store.appendDelta draws.env generation.roomId generation.runId delta) with
    | (.ok _, next) => some (.publishDelta delta, next)
    | (.error _, next) => some (if generation.cancelled then .removeActive else .fail "outputRejected", next)
  | .publishDelta delta =>
    some (.receive, state.publish generation.roomId
      (.turnDelta generation.runId generation.requestId delta generation.partialText))
  | .complete =>
    if state.isFresh draws then
      match (state.draw draws).write fails
          (store.settleRun draws.env generation.roomId generation.runId completedTerminal) with
      | (.ok _, next) => some (.readCompleted, next)
      | (.error _, next) => some (.fail "storeUnavailable", next)
    else none
  | .readCompleted =>
    match state.read fails (store.snapshotOrNotFound draws.env 11 generation.roomId) with
    | .ok snapshot => some (.publishCompleted snapshot, state)
    | .error _ => some (.fail "storeUnavailable", state)
  | .publishCompleted snapshot =>
    some (.removeActive, state.publish generation.roomId
      (.turnCompleted generation.runId generation.requestId snapshot))
  | .fail code =>
    match state.write fails
        (store.settleRun draws.env generation.roomId generation.runId (failedTerminal code)) with
    | (.ok _, next) => some (.readFailed code, next)
    | (.error _, next) => some (.removeActive, next)
  | .readFailed code =>
    match state.read fails (store.snapshotOrNotFound draws.env 11 generation.roomId) with
    | .ok snapshot => some (.publishFailed code snapshot, state)
    | .error _ => some (.removeActive, state)
  | .publishFailed code snapshot =>
    some (.removeActive, state.publish generation.roomId
      (.turnFailed generation.runId generation.requestId code snapshot))
  | .removeActive => some (.ended, state.removeActive generation.roomId generation.runId)
  | .request | .receive | .ended => none

/-- Where the loop of `run_generation` goes with an item of its stream, and the delta it adds. -/
def onItem : Option (Except ModelStreamError ModelStreamEvent) → TaskPoint × String
  | none => (.fail "modelStreamEnded", "")
  | some (.error error) => (if generation.cancelled then .removeActive else .fail (modelErrorCode error), "")
  | some (.ok (.textDelta requestId delta)) =>
    if requestId ≠ generation.requestId then (.fail "modelProtocol", "")
    else if delta = "" then (.receive, "")
    else (.appendDelta delta, delta)
  | some (.ok (.completed requestId)) =>
    if requestId ≠ generation.requestId then (.fail "modelProtocol", "")
    else (if generation.cancelled then .removeActive else .complete, "")
  | some (.ok (.failed requestId _ _)) =>
    if requestId ≠ generation.requestId then (.fail "modelProtocol", "")
    else (if generation.cancelled then .removeActive else .fail "modelFailed", "")

/-- One step of the generation task `index` that hears from the model or its channel. -/
def receiveStep (index : ℕ) : TaskPoint → Received → Option (TaskPoint × Generation × Runtime)
  | .request, .opened error =>
    some (match error with
        | none => .receive
        | some error => .fail (modelErrorCode error),
      generation,
      { state with requests := (generation, modelStreamRequest generation.accepted) :: state.requests })
  | .receive, .changed =>
    -- `changed` also resolves when the sender is gone, and the loop then goes on.
    if generation.cancelled then some (.removeActive, generation, state)
    else if state.hasSender generation.roomId index then none
    else some (.receive, generation, state)
  | .receive, .item item =>
    let (point, delta) := onItem generation item
    some (point, { generation with partialText := generation.partialText ++ delta }, state)
  | _, _ => none

end Tasks

section Access

variable (store : RoomStore) (draws : Draws) (fails : Bool) (state : Runtime)

/-- One call of another operation of the store. -/
def accessStep : AccessOp → Runtime
  | .createRoom input => (state.write fails (store.createRoom draws.env input)).2
  | .exchangeInvite raw displayName =>
    match state.write fails (store.exchangeInvite draws.env raw displayName) with
    | (.ok session, next) => { next with guests := session.participantId :: next.guests }
    | (.error _, next) => next
  | .issueInvite roomId => (state.write fails (store.issueInvite draws.env roomId)).2
  | .revokeInvite roomId => (state.write fails (RoomStore.revokeInvite draws.env roomId)).2

end Access

/-- One step of the runtime. -/
def step? (store : RoomStore) (state : Runtime) : Label → Option Runtime
  | .begin request =>
    some { state with threads := state.threads ++ [.call request request.first] }
  | .drop index =>
    match state.threads[index]? with
    | some (.call request point) =>
      if point.isOver then none else some (state.put index (.call request .dropped))
    | _ => none
  | .receive index received =>
    match state.threads[index]? with
    | some (.task generation point) =>
      (state.receiveStep generation index point received).map fun (point, generation, next) =>
        next.put index (.task generation point)
    | _ => none
  | .advance index draws fails =>
    match state.threads[index]? with
    | some (.call request point) =>
      (callStep store draws fails state point).map fun (point, next) => next.put index (.call request point)
    | some (.task generation point) =>
      (taskStep store draws fails state generation point).map fun (point, next) =>
        next.put index (.task generation point)
    | none => none
  | .access op draws fails =>
    if state.isFresh draws then some (accessStep store draws fails (state.draw draws) op) else none

end Runtime

end RyuRooms
