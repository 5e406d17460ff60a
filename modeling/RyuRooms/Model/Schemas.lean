import RyuRooms.Foundation.Schema
import RyuRooms.Model.Publisher

/-! # The schemas of the interface

`schemas.ts`, as far as it reads what the sidecar answers and publishes, and the types of `types.ts`
that it makes. A time stamp is kept as its text. What the handlers of `api.rs` answer with a snapshot
stands after it, and `list_rooms`, which takes the store's lock anew for every room.
-/

namespace RyuRooms.Ui

open Foundation

structure RoomMessage where
  createdAt : String
  id : String
  participantId : Option String
  role : MessageRole
  text : String
deriving DecidableEq

structure RoomRun where
  errorCode : Option String
  errorMessage : Option String
  finishedAt : Option String
  idempotencyKey : Option String
  partialText : String
  requestId : String
  runId : String
  startedAt : Option String
  status : RunStatus
deriving DecidableEq

structure RoomParticipant where
  displayName : String
  id : String
  online : Bool
  role : ParticipantRole
deriving DecidableEq

structure RoomSnapshot where
  contract : String
  currentRun : Option RoomRun
  engine : String
  id : String
  messages : List RoomMessage
  modelId : String
  participants : List RoomParticipant
  schemaVersion : ℕ
  status : RoomStatus
  updatedAt : String
deriving DecidableEq

/-- What `submitTurn` and `submitGuestTurn` are answered. -/
structure RoomTurn where
  snapshot : RoomSnapshot
  requestId : Option String
  run : Option RoomRun
  message : Option RoomMessage
deriving DecidableEq

section Schemas

open Schema

def roomStatusSchema : Schema RoomStatus :=
  enumeration [("idle", .idle), ("running", .running), ("failed", .failed), ("closed", .closed)]

def runStatusSchema : Schema RunStatus :=
  enumeration [("queued", .queued), ("running", .running), ("completed", .completed), ("failed", .failed),
    ("canceled", .canceled)]

/-- The `z.enum` of a message's role. -/
def messageRoleSchema : Schema MessageRole := enumeration [("user", .user), ("assistant", .assistant)]

/-- The `z.enum` of a participant's role. -/
def participantRoleSchema : Schema ParticipantRole :=
  enumeration [("host", .host), ("guest", .guest), ("viewer", .viewer)]

def roomMessageSchema : Schema RoomMessage := fun value => do
  let createdAt ← field "createdAt" nonEmpty value
  let id ← field "id" nonEmpty value
  let participantId ← field "participantId" (nullable string) value
  let role ← field "role" messageRoleSchema value
  let text ← field "text" string value
  return { createdAt, id, participantId, role, text }

def nullableRunTextSchema : Schema (Option String) := orDefault (nullable string) none

def roomRunSchema : Schema RoomRun := fun value => do
  let errorCode ← field "errorCode" nullableRunTextSchema value
  let errorMessage ← field "errorMessage" nullableRunTextSchema value
  let finishedAt ← field "finishedAt" nullableRunTextSchema value
  let idempotencyKey ← field "idempotencyKey" nullableRunTextSchema value
  let partialText ← field "partialText" string value
  let requestId ← field "requestId" nonEmpty value
  let runId ← field "runId" nonEmpty value
  let startedAt ← field "startedAt" nullableRunTextSchema value
  let status ← field "status" runStatusSchema value
  return { errorCode, errorMessage, finishedAt, idempotencyKey, partialText, requestId, runId, startedAt, status }

def roomParticipantSchema : Schema RoomParticipant := fun value => do
  let displayName ← field "displayName" nonEmpty value
  let id ← field "id" nonEmpty value
  let online ← field "online" boolean value
  let role ← field "role" participantRoleSchema value
  return { displayName, id, online, role }

def roomSnapshotSchema : Schema RoomSnapshot := fun value => do
  let contract ← field "contract" (string.refine (· == "rooms/1")) value
  let currentRun ← field "currentRun" (nullable roomRunSchema) value
  let engine ← field "engine" (string.refine (· == "mesh-llm")) value
  let id ← field "id" nonEmpty value
  let messages ← field "messages" (array roomMessageSchema) value
  let modelId ← field "modelId" nonEmpty value
  let participants ← field "participants" (array roomParticipantSchema) value
  let schemaVersion ← field "schemaVersion" (number.refine (· == 1)) value
  let status ← field "status" roomStatusSchema value
  let updatedAt ← field "updatedAt" nonEmpty value
  return { contract, currentRun, engine, id, messages, modelId, participants, schemaVersion, status, updatedAt }

/-- It takes everything, and makes null of what is no snapshot. -/
def roomSnapshotBoundarySchema : Schema (Option RoomSnapshot) := fun value => some (roomSnapshotSchema value)

/-- The rooms that are snapshots; the others are left out. -/
def roomListResponseSchema : Schema (List RoomSnapshot) := fun value =>
  (field "rooms" (orDefault (array roomSnapshotBoundarySchema) []) value).map (List.filterMap id)

/-- `roomTurnResponseSchema`, and `roomTurnBoundarySchema` with its `throw` read as a refusal. -/
def roomTurnResponseSchema : Schema RoomTurn := fun value => do
  let snapshot ← field "snapshot" roomSnapshotSchema value
  let requestId ← field "requestId" (optional string) value
  let run ← field "run" (optional roomRunSchema) value
  let message ← field "message" (optional roomMessageSchema) value
  return { snapshot, requestId, run, message }

end Schemas

end RyuRooms.Ui

namespace RyuRooms

open Foundation

section Bodies

variable (stamp : ToRfc3339)

/-- The answer of `list_rooms` in `api.rs`. -/
def listRoomsBody (rooms : List RoomSnapshot) : Json :=
  .object [("rooms", .arr (rooms.map (RoomSnapshot.json stamp)))]

/-- The answer of `submit_turn` in `api.rs`. -/
def submitTurnBody (accepted : AcceptedRun) (requestId : String) : Json := .object
  [("run", accepted.run.json stamp), ("message", accepted.userMessage.json stamp),
    ("snapshot", accepted.snapshot.json stamp), ("requestId", .str requestId)]

/-- The answers of `stop_run` and `close_room` in `api.rs`. -/
def snapshotBody (snapshot : RoomSnapshot) (requestId : String) : Json := .object
  [("snapshot", snapshot.json stamp), ("requestId", .str requestId)]

end Bodies

/-- `SELECT id FROM rooms ORDER BY updated_at DESC, id DESC`. -/
def Db.roomIds (db : Db) : List String :=
  (newest RoomRow.updatedAt RoomRow.id db.rooms.rows.length db.rooms.rows).map RoomRow.id

/-- The locked sections of `RoomStore::list_rooms`: the ids, and then a snapshot of each. -/
inductive ListPoint where
  | ids
  | read (rest : List String) (rooms : List RoomSnapshot)
  | returned (answer : Except StoreError (List RoomSnapshot))

/-- One section of `RoomStore::list_rooms`. -/
def listStep? (store : RoomStore) (draws : Draws) (fails : Bool) (db : Db) : ListPoint → Option ListPoint
  | .ids => some (if fails then .returned (.error .database) else .read db.roomIds [])
  | .read [] rooms => some (.returned (.ok rooms))
  | .read (roomId :: rest) rooms =>
    some (match if fails then .error .database else (outcome (store.snapshot draws.env 0 roomId) db).1 with
      | .ok (some room) => .read rest (rooms ++ [room])
      | .ok none => .read rest rooms
      | .error error => .returned (.error error))
  | .returned _ => none

end RyuRooms
