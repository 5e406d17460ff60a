import RyuRooms.Foundation.Rfc3339Reading
import RyuRooms.Foundation.Table
import RyuRooms.Model.Limits
import RyuRooms.Model.Types

/-! # The tables of `rooms.db` and their statements

One row type for each table, keyed as in the schema, and one definition for each SQL statement the
store runs. An `INSERT` is refused when it breaks a primary key, the unique
`(room_id, idempotency_key)` or a foreign key; an `UPDATE` or `DELETE` also returns how many rows it
changed. The columns `schema_version`, `contract` and `engine` hold constants that no query reads. A column
of timestamps is kept as the instant whose RFC 3339 text it holds.
-/

namespace RyuRooms

open Foundation

structure RoomRow where
  id : String
  status : RoomStatus
  modelId : String
  shareOrigin : String
  createdAt : Instant
  updatedAt : Instant
deriving DecidableEq, Repr

structure MessageRow where
  id : String
  roomId : String
  role : MessageRole
  text : String
  participantId : Option String
  createdAt : Instant
deriving DecidableEq, Repr

structure RunRow where
  id : String
  roomId : String
  requestId : String
  idempotencyKey : Option String
  inputText : String
  status : RunStatus
  partialText : String
  errorCode : Option String
  errorMessage : Option String
  startedAt : Option Instant
  finishedAt : Option Instant
  createdAt : Instant
deriving DecidableEq, Repr

structure InviteRow where
  roomId : String
  digest : List UInt8
  expiresAt : Instant
  revokedAt : Option Instant
deriving DecidableEq, Repr

structure ParticipantRow where
  id : String
  roomId : String
  displayName : String
  role : ParticipantRole
  online : Bool
  createdAt : Instant
  lastSeenAt : Instant
deriving DecidableEq, Repr

structure SessionRow where
  digest : List UInt8
  roomId : String
  participantId : String
  role : ParticipantRole
  expiresAt : Instant
  revokedAt : Option Instant
deriving DecidableEq, Repr

/-- The contents of `rooms.db`. -/
structure Db where
  rooms : Table RoomRow RoomRow.id
  messages : Table MessageRow MessageRow.id
  runs : Table RunRow RunRow.id
  invites : Table InviteRow InviteRow.roomId
  participants : Table ParticipantRow ParticipantRow.id
  sessions : Table SessionRow SessionRow.digest

namespace Db

/-- The tables `initialize` creates. -/
def empty : Db := ⟨.empty, .empty, .empty, .empty, .empty, .empty⟩

/-- The foreign key `REFERENCES rooms(id)`. -/
def hasRoom (db : Db) (roomId : String) : Bool := db.rooms.rows.any fun room => room.id == roomId

/-- The foreign key `REFERENCES room_participants(id)`. -/
def hasParticipant (db : Db) (participantId : String) : Bool :=
  db.participants.rows.any fun participant => participant.id == participantId

/-- The unique `(room_id, idempotency_key)`, in which `NULL` keys are distinct. -/
def keyTaken (db : Db) (roomId : String) (key : Option String) : Bool :=
  key.isSome && db.runs.rows.any fun run => run.roomId == roomId && run.idempotencyKey == key

section Insert

variable (db : Db)

def insertRoom (row : RoomRow) : Option Db :=
  (db.rooms.insert? row).map fun rooms => { db with rooms }

def insertInvite (row : InviteRow) : Option Db :=
  if db.hasRoom row.roomId then (db.invites.insert? row).map fun invites => { db with invites } else none

def insertParticipant (row : ParticipantRow) : Option Db :=
  if db.hasRoom row.roomId then
    (db.participants.insert? row).map fun participants => { db with participants }
  else none

def insertSession (row : SessionRow) : Option Db :=
  if db.hasRoom row.roomId && db.hasParticipant row.participantId then
    (db.sessions.insert? row).map fun sessions => { db with sessions }
  else none

def insertMessage (row : MessageRow) : Option Db :=
  if db.hasRoom row.roomId then (db.messages.insert? row).map fun messages => { db with messages } else none

def insertRun (row : RunRow) : Option Db :=
  if db.hasRoom row.roomId && !db.keyTaken row.roomId row.idempotencyKey then
    (db.runs.insert? row).map fun runs => { db with runs }
  else none

end Insert

section Rooms

/-- `UPDATE rooms SET …, updated_at WHERE id`, with the status computed from the old one. -/
def setRoomStatus (roomId : String) (status : RoomStatus → RoomStatus) (now : Instant) (db : Db) : Db × ℕ :=
  ({ db with rooms := db.rooms.update (·.id == roomId)
              (fun room => { room with status := status room.status, updatedAt := now }) fun _ => rfl },
    db.rooms.count (·.id == roomId))

/-- `CASE WHEN status = 'closed' THEN 'closed' ELSE settled END`. -/
def unlessClosed (settled : RoomStatus) : RoomStatus → RoomStatus
  | .closed => .closed
  | _ => settled

/-- `UPDATE rooms SET status = 'closed' … WHERE id AND status != 'closed'`. -/
def closeRoom (roomId : String) (now : Instant) (db : Db) : Db × ℕ :=
  ({ db with rooms := db.rooms.update (fun room => room.id == roomId && room.status != .closed)
              (fun room => { room with status := .closed, updatedAt := now }) fun _ => rfl },
    db.rooms.count fun room => room.id == roomId && room.status != .closed)

/-- `UPDATE rooms SET status = 'failed' … WHERE status = 'running'`. -/
def failRunningRooms (now : Instant) (db : Db) : Db × ℕ :=
  ({ db with rooms := db.rooms.update (·.status == .running)
              (fun room => { room with status := .failed, updatedAt := now }) fun _ => rfl },
    db.rooms.count (·.status == .running))

end Rooms

section Runs

/-- The runs of a room that are queued or running. -/
def isActiveIn (roomId : String) (run : RunRow) : Bool := run.roomId == roomId && run.status.isActive

/-- `UPDATE room_runs SET partial_text … WHERE id AND room_id AND status = 'running'`. -/
def setPartialText (roomId runId cell : String) (db : Db) : Db × ℕ :=
  ({ db with runs := db.runs.update
              (fun run => run.id == runId && run.roomId == roomId && run.status == .running)
              (fun run => { run with partialText := cell }) fun _ => rfl },
    db.runs.count fun run => run.id == runId && run.roomId == roomId && run.status == .running)

/-- `UPDATE room_runs SET status, error_code, error_message, finished_at WHERE id AND room_id`. -/
def settleRun (roomId runId : String) (status : RunStatus) (errorCode errorMessage : Option String)
    (now : Instant) (db : Db) : Db × ℕ :=
  ({ db with runs := db.runs.update (fun run => run.id == runId && run.roomId == roomId)
              (fun run => { run with status, errorCode, errorMessage, finishedAt := some now }) fun _ => rfl },
    db.runs.count fun run => run.id == runId && run.roomId == roomId)

/-- `UPDATE room_runs SET status = 'canceled' … WHERE id AND room_id AND status IN (…)`. -/
def cancelRun (roomId runId message : String) (now : Instant) (db : Db) : Db × ℕ :=
  ({ db with runs := db.runs.update (fun run => run.id == runId && isActiveIn roomId run)
              (fun run => { run with status := .canceled, errorCode := some "canceled",
                                     errorMessage := some message, finishedAt := some now }) fun _ => rfl },
    db.runs.count fun run => run.id == runId && isActiveIn roomId run)

/-- `UPDATE room_runs SET status = 'failed', error_code = 'nodeRestarted' … WHERE id AND status IN (…)`. -/
def interruptRun (runId : String) (message : Option String) (now : Instant) (db : Db) : Db × ℕ :=
  ({ db with runs := db.runs.update (fun run => run.id == runId && run.status.isActive)
              (fun run => { run with status := .failed, errorCode := some "nodeRestarted",
                                     errorMessage := message, finishedAt := some now }) fun _ => rfl },
    db.runs.count fun run => run.id == runId && run.status.isActive)

/-- The statement of `trim_runs`. -/
def trimRuns (roomId : String) (db : Db) : Db × ℕ :=
  let kept := (newest RunRow.createdAt RunRow.id Limits.MAX_RETAINED_RUNS
    (db.runs.select (·.roomId == roomId))).map RunRow.id
  let choose := fun run : RunRow => run.roomId == roomId && !kept.contains run.id
  ({ db with runs := db.runs.delete choose }, db.runs.count choose)

end Runs

/-- The statement of `trim_messages`. -/
def trimMessages (roomId : String) (db : Db) : Db × ℕ :=
  let kept := (newest MessageRow.createdAt MessageRow.id Limits.MAX_HISTORY_MESSAGES
    (db.messages.select (·.roomId == roomId))).map MessageRow.id
  let choose := fun message : MessageRow => message.roomId == roomId && !kept.contains message.id
  ({ db with messages := db.messages.delete choose }, db.messages.count choose)

section Access

/-- `UPDATE room_invites SET digest, expires_at, revoked_at = NULL WHERE room_id`. -/
def rotateInvite (roomId : String) (digest : List UInt8) (expiresAt : Instant) (db : Db) : Db × ℕ :=
  ({ db with invites := db.invites.update (·.roomId == roomId)
              (fun invite => { invite with digest, expiresAt, revokedAt := none }) fun _ => rfl },
    db.invites.count (·.roomId == roomId))

/-- `UPDATE room_invites SET revoked_at WHERE room_id AND revoked_at IS NULL`. -/
def revokeInvites (roomId : String) (now : Instant) (db : Db) : Db × ℕ :=
  ({ db with invites := db.invites.update (fun invite => invite.roomId == roomId && invite.revokedAt.isNone)
              (fun invite => { invite with revokedAt := some now }) fun _ => rfl },
    db.invites.count fun invite => invite.roomId == roomId && invite.revokedAt.isNone)

/-- `UPDATE room_sessions SET revoked_at WHERE room_id AND revoked_at IS NULL`. -/
def revokeSessions (roomId : String) (now : Instant) (db : Db) : Db × ℕ :=
  ({ db with sessions := db.sessions.update (fun session => session.roomId == roomId && session.revokedAt.isNone)
              (fun session => { session with revokedAt := some now }) fun _ => rfl },
    db.sessions.count fun session => session.roomId == roomId && session.revokedAt.isNone)

/-- `UPDATE room_participants SET online = 0 WHERE room_id`. -/
def setOffline (roomId : String) (db : Db) : Db × ℕ :=
  ({ db with participants := db.participants.update (·.roomId == roomId)
              (fun participant => { participant with online := false }) fun _ => rfl },
    db.participants.count (·.roomId == roomId))

/-- The guests of a room. -/
def isGuestOf (roomId : String) (participant : ParticipantRow) : Bool :=
  participant.roomId == roomId && participant.role == .guest

/-- `DELETE FROM room_participants WHERE room_id AND role = 'guest'`; their sessions cascade. -/
def deleteGuests (roomId : String) (db : Db) : Db × ℕ :=
  let gone := (db.participants.select (isGuestOf roomId)).map ParticipantRow.id
  ({ db with participants := db.participants.delete (isGuestOf roomId)
             sessions := db.sessions.delete fun session => gone.contains session.participantId },
    db.participants.count (isGuestOf roomId))

/-- `future_timestamp`, of the text that `to_rfc3339` wrote into the column. -/
def futureTimestamp (value now : Instant) : Bool :=
  (Rfc3339.parse (Rfc3339.chars value)).any fun value => decide (now < value)

/-- A session that is neither revoked nor expired. -/
def isLiveAt (now : Instant) (session : SessionRow) : Bool :=
  session.revokedAt.isNone && futureTimestamp session.expiresAt now

/-- The rows of `room_participants LEFT JOIN room_sessions` for one participant. -/
def joinedSessions (db : Db) (participant : ParticipantRow) : List (Option SessionRow) :=
  match db.sessions.select (·.participantId == participant.id) with
  | [] => [none]
  | sessions => sessions.map some

/-- The ids `exchange_invite` collects into its `HashSet`: hosts, and guests with a live session. -/
def liveParticipants (db : Db) (roomId : String) (now : Instant) : List String :=
  ((db.participants.select (·.roomId == roomId)).flatMap fun participant =>
    (db.joinedSessions participant).filterMap fun joined =>
      if participant.role = .host ∨ joined.any (isLiveAt now) then some participant.id else none).dedup

end Access

end Db

end RyuRooms
