import RyuRooms.Foundation.Json
import RyuRooms.Model.AppEvents

/-! # What the runtime publishes to Core

The JSON of the types of `model.rs` and of the data of each event, and `RealtimePublishRequest` of the
crate `app-events`. Time stamps are written by `DateTime::to_rfc3339`, a function of another crate.
-/

namespace RyuRooms

open Foundation

/-- `DateTime::to_rfc3339`. -/
abbrev ToRfc3339 := Instant → String

def RoomStatus.json : RoomStatus → Json
  | .idle => .str "idle"
  | .running => .str "running"
  | .failed => .str "failed"
  | .closed => .str "closed"

def RunStatus.json : RunStatus → Json
  | .queued => .str "queued"
  | .running => .str "running"
  | .completed => .str "completed"
  | .failed => .str "failed"
  | .canceled => .str "canceled"

def MessageRole.json : MessageRole → Json
  | .user => .str "user"
  | .assistant => .str "assistant"

def ParticipantRole.json : ParticipantRole → Json
  | .host => .str "host"
  | .guest => .str "guest"
  | .viewer => .str "viewer"

section Types

variable (stamp : ToRfc3339)

def RoomMessage.json (message : RoomMessage) : Json := .object
  [("id", .str message.id), ("role", message.role.json), ("text", .str message.text),
    ("participantId", .optional .str message.participantId), ("createdAt", .str (stamp message.createdAt))]

def RoomRun.json (run : RoomRun) : Json := .object
  [("runId", .str run.runId), ("requestId", .str run.requestId),
    ("idempotencyKey", .optional .str run.idempotencyKey), ("status", run.status.json),
    ("partialText", .str run.partialText), ("errorCode", .optional .str run.errorCode),
    ("errorMessage", .optional .str run.errorMessage),
    ("startedAt", .optional (fun time => .str (stamp time)) run.startedAt),
    ("finishedAt", .optional (fun time => .str (stamp time)) run.finishedAt)]

def RoomParticipantSummary.json (participant : RoomParticipantSummary) : Json := .object
  [("id", .str participant.id), ("displayName", .str participant.displayName), ("role", participant.role.json),
    ("online", .bool participant.online)]

def RoomSnapshot.json (snapshot : RoomSnapshot) : Json := .object
  [("contract", .str snapshot.contract), ("schemaVersion", .num snapshot.schemaVersion), ("id", .str snapshot.id),
    ("status", snapshot.status.json), ("modelId", .str snapshot.modelId), ("engine", .str snapshot.engine),
    ("messages", .arr (snapshot.messages.map (RoomMessage.json stamp))),
    ("currentRun", .optional (RoomRun.json stamp) snapshot.currentRun),
    ("participants", .arr (snapshot.participants.map RoomParticipantSummary.json)),
    ("updatedAt", .str (stamp snapshot.updatedAt))]

/-- The `json!` data of an event. -/
def RoomEvent.data : RoomEvent → Json
  | .turnAccepted run message snapshot => .object
    [("run", run.json stamp), ("message", message.json stamp), ("snapshot", snapshot.json stamp)]
  | .turnDelta runId requestId delta partialText => .object
    [("runId", .str runId), ("requestId", .str requestId), ("delta", .str delta), ("partialText", .str partialText)]
  | .turnCompleted runId requestId snapshot => .object
    [("runId", .str runId), ("requestId", .str requestId), ("snapshot", snapshot.json stamp)]
  | .turnFailed runId requestId errorCode snapshot => .object
    [("runId", .str runId), ("requestId", .str requestId), ("errorCode", .str errorCode),
      ("snapshot", snapshot.json stamp)]
  | .turnCanceled runId snapshot => .object [("runId", .str runId), ("snapshot", snapshot.json stamp)]
  | .roomClosed snapshot => .object [("snapshot", snapshot.json stamp)]

end Types

namespace AppEvents

def MAX_REALTIME_ROOM_ID_BYTES : ℕ := 512
def MAX_REALTIME_EVENT_NAME_BYTES : ℕ := 128
def MAX_REALTIME_EVENT_BYTES : ℕ := 256 * 1024

/-- `RealtimePublishError::Invalid`, the only error of a check. -/
structure RealtimeInvalid where
  message : String
deriving DecidableEq

structure RealtimePublishRequest where
  roomId : String
  event : String
  data : Json

namespace RealtimePublishRequest

/-- Its fields in the order they are declared, as `serde` writes a struct. -/
def json (request : RealtimePublishRequest) : Json :=
  .obj [("room_id", .str request.roomId), ("event", .str request.event), ("data", request.data)]

/-- `RealtimePublishRequest::validate`. -/
def validate (request : RealtimePublishRequest) : Except RealtimeInvalid Unit :=
  if trim request.roomId = "" ∨ MAX_REALTIME_ROOM_ID_BYTES < request.roomId.utf8ByteSize ∨
      anyChar isControl request.roomId then
    .error ⟨"room_id is empty, too long, or invalid"⟩
  else if trim request.event = "" ∨ MAX_REALTIME_EVENT_NAME_BYTES < request.event.utf8ByteSize ∨
      anyChar isControl request.event then
    .error ⟨"event is empty, too long, or invalid"⟩
  else if MAX_REALTIME_EVENT_BYTES < request.json.bytes then .error ⟨"event data is too large"⟩
  else .ok ()

end RealtimePublishRequest

/-- The request `ApplicationRoomPublisher::publish` builds from an event of a room. -/
def publishRequest (stamp : ToRfc3339) (roomId : String) (event : RoomEvent) : RealtimePublishRequest :=
  ⟨roomId, event.name, event.data stamp⟩

end AppEvents

end RyuRooms
