import Mathlib.Data.Nat.Notation

/-! # The rooms data model

The values the store returns and the runtime publishes (`model.rs`, and the inputs and results of
`store.rs`). An instant is a reading of `Utc::now`, in nanoseconds: the store writes each one with
`to_rfc3339` and reads it back with `parse_from_rfc3339`, and its columns are named here by the
instant they denote.
-/

namespace RyuRooms

/-- Nanoseconds of `DateTime<Utc>` since the epoch. -/
abbrev Instant := ℕ

/-- `Duration::seconds`. -/
def seconds (count : ℕ) : ℕ := count * 1000000000

inductive RoomStatus where
  | idle
  | running
  | failed
  | closed
deriving DecidableEq, Repr

inductive RunStatus where
  | queued
  | running
  | completed
  | failed
  | canceled
deriving DecidableEq, Repr

/-- The statuses the store counts as an unfinished generation: `status IN ('queued', 'running')`. -/
def RunStatus.isActive : RunStatus → Bool
  | .queued | .running => true
  | .completed | .failed | .canceled => false

/-- The statuses a snapshot shows: `status IN ('queued', 'running', 'failed')`. -/
def RunStatus.isCurrent : RunStatus → Bool
  | .queued | .running | .failed => true
  | .completed | .canceled => false

inductive MessageRole where
  | user
  | assistant
deriving DecidableEq, Repr

inductive ParticipantRole where
  | host
  | guest
  | viewer
deriving DecidableEq, Repr

structure RoomMessage where
  id : String
  role : MessageRole
  text : String
  participantId : Option String
  createdAt : Instant
deriving DecidableEq, Repr

structure RoomRun where
  runId : String
  requestId : String
  idempotencyKey : Option String
  status : RunStatus
  partialText : String
  errorCode : Option String
  errorMessage : Option String
  startedAt : Option Instant
  finishedAt : Option Instant
deriving DecidableEq, Repr

structure RoomParticipantSummary where
  id : String
  displayName : String
  role : ParticipantRole
  online : Bool
deriving DecidableEq, Repr

structure RoomSnapshot where
  contract : String
  schemaVersion : ℕ
  id : String
  status : RoomStatus
  modelId : String
  engine : String
  messages : List RoomMessage
  currentRun : Option RoomRun
  participants : List RoomParticipantSummary
  updatedAt : Instant
deriving DecidableEq, Repr

structure RoomSession where
  roomId : String
  participantId : String
  role : ParticipantRole
  displayName : String
  secret : String
deriving DecidableEq, Repr

inductive StoreError where
  | database
  | invalid (message : String)
  | notFound
  | roomBusy
  | closed
  | forbidden
  | inviteUnavailable
  | conflict
  | lock
  | sealing (reason : String)
deriving DecidableEq, Repr

structure CreateRoomInput where
  modelId : String
  shareOrigin : String
deriving DecidableEq, Repr

structure CreatedRoom where
  room : RoomSnapshot
  invite : String
  shareOrigin : String
deriving DecidableEq, Repr

structure IssuedInvite where
  invite : String
  shareOrigin : String
deriving DecidableEq, Repr

structure SubmitTurnInput where
  text : String
  idempotencyKey : Option String
deriving DecidableEq, Repr

structure AcceptedRun where
  run : RoomRun
  userMessage : RoomMessage
  snapshot : RoomSnapshot
deriving DecidableEq, Repr

structure RunTerminal where
  status : RunStatus
  errorCode : Option String
  errorMessage : Option String
deriving DecidableEq, Repr

end RyuRooms
