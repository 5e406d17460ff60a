import RyuRooms.Foundation.Action
import RyuRooms.Model.Db
import RyuRooms.Model.Seal

/-! # The operations of `RoomStore`

Every operation of `store.rs` as an action on the tables. An `Env` holds the surroundings of one
call: what it draws, and which of its fallible steps (SQL statements, seals and opens, numbered in
the order they are written) fail. A
statement outside a transaction keeps its effect when a later step fails; a `transaction` rolls
back. `append_user_turn`, `finish_run` and `create_room` take the connection lock once for their
transaction and again for the snapshot they return, and are composed of those sections here.
-/

namespace RyuRooms

open Foundation

/-- The functions of other crates that the store calls. -/
structure Crates where
  parseUrl : String → Option Limits.Url
  sha256 : String → List UInt8

/-- `RoomStore`, apart from its connection. -/
structure RoomStore where
  crates : Crates
  sealing : StoreSeal

/-- The clock readings, uuids and nonces of one call, in the order it draws them. -/
structure Draws where
  now : ℕ → Instant
  uuid : Fin 3 → Uuid
  nonce : ℕ → Nonce

/-- The uuids that one call draws. -/
def Draws.uuids (draws : Draws) : List Uuid := [draws.uuid 0, draws.uuid 1, draws.uuid 2]

/-- The surroundings of one call: what it draws, and which of its fallible steps fail. -/
structure Env extends Draws where
  fault : ℕ → Bool

/-- Surroundings in which no step fails. -/
def Draws.env (draws : Draws) : Env := { draws with fault := fun _ => false }

/-- An action of the store on the tables. -/
abbrev StoreM := EStateM StoreError Db

def CONTRACT : String := "rooms/1"
def ENGINE : String := "mesh-llm"

/-- `opaque_id`. -/
def opaqueId (start : String) (uuid : Uuid) : String := start ++ uuid.simple

/-- `opaque_secret`. -/
def opaqueSecret (uuid : Uuid) : String := uuid.simple

section Ids

variable (draws : Draws)

/-- The id of the room that `create_room` adds. -/
abbrev Draws.newRoomId : String := opaqueId "room_" (draws.uuid 0)

/-- The id of the participant that a call adds. -/
abbrev Draws.newMemberId : String := opaqueId "member_" (draws.uuid 1)

/-- The id of the message that a call adds. -/
abbrev Draws.newMessageId : String := opaqueId "msg_" (draws.uuid 0)

/-- The id of the run that `append_user_turn` adds. -/
abbrev Draws.newRunId : String := opaqueId "run_" (draws.uuid 1)

/-- The request id of the run that `append_user_turn` adds. -/
abbrev Draws.newRequestId : String := opaqueId "req_" (draws.uuid 2)

end Ids

/-- `limits::…(…).map_err(StoreError::Invalid)`. -/
def orInvalid {α : Type} (value : Except String α) : StoreM α := returnExcept (value.mapError .invalid)

section Rows

variable (roomId : String) (now : Instant)

/-- The row `create_room` adds to `rooms`. -/
def newRoom (modelId shareOrigin : String) : RoomRow where
  id := roomId
  status := .idle
  modelId := modelId
  shareOrigin := shareOrigin
  createdAt := now
  updatedAt := now

/-- The row `create_room` adds to `room_invites`. -/
def newInvite (digest : List UInt8) : InviteRow where
  roomId := roomId
  digest := digest
  expiresAt := now + seconds Limits.INVITE_TTL_SECS
  revokedAt := none

/-- A row of `room_participants` as it is added, online. -/
def newParticipant (role : ParticipantRole) (participantId displayName : String) : ParticipantRow where
  id := participantId
  roomId := roomId
  displayName := displayName
  role := role
  online := true
  createdAt := now
  lastSeenAt := now

/-- The row `exchange_invite` adds to `room_sessions`. -/
def newSession (digest : List UInt8) (participantId : String) : SessionRow where
  digest := digest
  roomId := roomId
  participantId := participantId
  role := .guest
  expiresAt := now + seconds Limits.SESSION_TTL_SECS
  revokedAt := none

/-- A row of `room_messages` as it is added. -/
def newMessage (role : MessageRole) (messageId text : String) (participantId : Option String) : MessageRow where
  id := messageId
  roomId := roomId
  role := role
  text := text
  participantId := participantId
  createdAt := now

/-- The row `append_user_turn` adds to `room_runs`. -/
def newRun (runId requestId : String) (idempotencyKey : Option String) (inputText partialText : String) :
    RunRow where
  id := runId
  roomId := roomId
  requestId := requestId
  idempotencyKey := idempotencyKey
  inputText := inputText
  status := .running
  partialText := partialText
  errorCode := none
  errorMessage := none
  startedAt := some now
  finishedAt := none
  createdAt := now

end Rows

/-- The characters of a room id. -/
def isRoomIdChar (c : Char) : Bool := c.isAlphanum || c == '_' || c == '-'

/-- `validate_room_id`. -/
def validateRoomId (value : String) : Except StoreError String :=
  let value := trim value
  if value.utf8ByteSize < 13 ∨ 105 < value.utf8ByteSize ∨ ¬ startsWith value "room_" ∨
      anyChar (fun c => !isRoomIdChar c) value then
    .error (.invalid "roomId is invalid")
  else .ok value

namespace Env

variable {α : Type} (env : Env)

/-- A step that may fail with a database error. -/
def attempt (point : ℕ) : StoreM Unit := failIf (env.fault point) .database

/-- A `SELECT`. -/
def query (point : ℕ) (read : Db → α) : StoreM α := do
  env.attempt point
  return read (← get)

/-- An `UPDATE` or `DELETE`, with the number of rows it changed. -/
def execute (point : ℕ) (statement : Db → Db × ℕ) : StoreM ℕ := do
  env.attempt point
  let (db, changed) := statement (← get)
  set db
  return changed

/-- An `INSERT`, which fails when it breaks a constraint. -/
def insert (point : ℕ) (statement : Db → Option Db) : StoreM Unit := do
  env.attempt point
  set (← orFail (statement (← get)) .database)

end Env

namespace RoomStore

section Cells

variable (store : RoomStore) (env : Env)

/-- `Sealing::seal`, drawing the call's `draw`-th nonce. -/
def sealCell (point draw : ℕ) (value : String) (context : ContentContext) : StoreM String := do
  failIf (env.fault point) (.sealing "fault")
  returnExcept ((store.sealing.sealText (env.nonce draw) value context).mapError .sealing)

/-- `Sealing::seal_opt`. -/
def sealOpt (point draw : ℕ) (value : Option String) (context : ContentContext) : StoreM (Option String) :=
  match value with
  | none => pure none
  | some value => some <$> store.sealCell env point draw value context

/-- `Sealing::open`. -/
def openCell (point : ℕ) (stored : String) (context : ContentContext) : StoreM String := do
  failIf (env.fault point) (.sealing "fault")
  returnExcept ((store.sealing.openText stored context).mapError .sealing)

end Cells

section Snapshot

variable (store : RoomStore)

/-- `row_to_run`. -/
def rowToRun (row : RunRow) : RoomRun where
  runId := row.id
  requestId := row.requestId
  idempotencyKey := row.idempotencyKey
  status := row.status
  partialText := row.partialText
  errorCode := row.errorCode
  errorMessage := row.errorMessage
  startedAt := row.startedAt
  finishedAt := row.finishedAt

/-- `open_run`. -/
def openRun (run : RoomRun) : Except String RoomRun := do
  let partialText ← store.sealing.openText run.partialText (ctx "room_runs" "partial_text" run.runId)
  let errorMessage ← store.sealing.openOpt run.errorMessage (ctx "room_runs" "error_message" run.runId)
  return { run with partialText, errorMessage }

/-- `open_run_or_blank`. -/
def openRunOrBlank (run : RoomRun) : RoomRun :=
  match store.openRun run with
  | .ok run => run
  | .error _ => { run with partialText := "", errorMessage := none }

/-- `load_messages`: the newest messages, oldest first, without those that do not open. -/
def loadMessages (db : Db) (roomId : String) : List RoomMessage :=
  let rows := newest MessageRow.createdAt MessageRow.id Limits.MAX_HISTORY_MESSAGES
    (db.messages.select (·.roomId == roomId))
  rows.reverse.filterMap fun row =>
    match store.sealing.openText row.text (ctx "room_messages" "text" row.id) with
    | .ok text => some ⟨row.id, row.role, text, row.participantId, row.createdAt⟩
    | .error _ => none

/-- `load_participants`, in `ORDER BY created_at ASC, id ASC`, without those that do not open. -/
def loadParticipants (db : Db) (roomId : String) : List RoomParticipantSummary :=
  let rows := (newest ParticipantRow.createdAt ParticipantRow.id db.participants.rows.length
    (db.participants.select (·.roomId == roomId))).reverse
  rows.filterMap fun row =>
    match store.sealing.openText row.displayName (ctx "room_participants" "display_name" row.id) with
    | .ok displayName => some ⟨row.id, displayName, row.role, row.online⟩
    | .error _ => none

/-- The row of a snapshot's current run. -/
def currentRow (db : Db) (roomId : String) : Option RunRow :=
  (newest RunRow.createdAt RunRow.id 1
    (db.runs.select fun run => run.roomId == roomId && run.status.isCurrent)).head?

/-- `snapshot_from_connection`. -/
def snapshotFrom (db : Db) (roomId : String) : Option RoomSnapshot :=
  (db.rooms.find? (·.id == roomId)).map fun room =>
    { contract := CONTRACT
      schemaVersion := 1
      id := roomId
      status := room.status
      modelId := room.modelId
      engine := ENGINE
      messages := store.loadMessages db roomId
      currentRun := (currentRow db roomId).map fun row => store.openRunOrBlank (rowToRun row)
      participants := store.loadParticipants db roomId
      updatedAt := room.updatedAt }

/-- `RoomStore::snapshot`; `first` is the point of the first of its four queries. -/
def snapshot (env : Env) (first : ℕ) (roomId : String) : StoreM (Option RoomSnapshot) := do
  let roomId ← returnExcept (validateRoomId roomId)
  let known ← env.query first fun db => db.hasRoom roomId
  if known then
    env.attempt (first + 1)
    env.attempt (first + 2)
    env.query (first + 3) fun db => store.snapshotFrom db roomId
  else return none

/-- `snapshot(…).await?.ok_or(StoreError::NotFound)`. -/
def snapshotOrNotFound (env : Env) (first : ℕ) (roomId : String) : StoreM RoomSnapshot := do
  orFail (← store.snapshot env first roomId) .notFound

end Snapshot

section Rooms

variable (store : RoomStore) (env : Env)

/-- The transaction of `create_room`: the room, its invite and its host. -/
def insertCreatedRoom (roomId participantId modelId shareOrigin hostName : String) (digest : List UInt8) :
    StoreM Unit := transaction do
  let now := env.now 0
  env.attempt 1
  env.insert 2 (·.insertRoom (newRoom roomId now modelId shareOrigin))
  env.insert 3 (·.insertInvite (newInvite roomId now digest))
  env.insert 4 (·.insertParticipant (newParticipant roomId now .host participantId hostName))
  env.attempt 5

/-- `RoomStore::create_room`. -/
def createRoom (input : CreateRoomInput) : StoreM CreatedRoom := do
  let modelId ← orInvalid (Limits.validateModelId input.modelId)
  let shareOrigin ← orInvalid (Limits.validateShareOrigin store.crates.parseUrl input.shareOrigin)
  let roomId := opaqueId "room_" (env.uuid 0)
  let participantId := opaqueId "member_" (env.uuid 1)
  let invite := opaqueSecret (env.uuid 2)
  let hostName ← store.sealCell env 0 0 "Host" (ctx "room_participants" "display_name" participantId)
  insertCreatedRoom env roomId participantId modelId shareOrigin hostName (store.crates.sha256 invite)
  let room ← store.snapshotOrNotFound env 6 roomId
  return { room, invite, shareOrigin }

/-- `RoomStore::close_room`. -/
def closeRoom (roomId : String) : StoreM Unit := do
  let roomId ← returnExcept (validateRoomId roomId)
  let changed ← env.execute 0 (Db.closeRoom roomId (env.now 0))
  failIf (changed = 0) .notFound
  let _ ← env.execute 1 (Db.revokeInvites roomId (env.now 1))
  let _ ← env.execute 2 (Db.revokeSessions roomId (env.now 2))
  let _ ← env.execute 3 (Db.setOffline roomId)

end Rooms

section Access

variable (store : RoomStore) (env : Env)

/-- `RoomStore::host_session`. -/
def hostSession (roomId : String) : StoreM RoomSession := do
  let roomId ← returnExcept (validateRoomId roomId)
  let found ← env.query 0 fun db =>
    db.participants.find? fun row => row.roomId == roomId && row.role == .host
  let host ← orFail found .notFound
  let displayName ← store.openCell env 1 host.displayName (ctx "room_participants" "display_name" host.id)
  return { roomId, participantId := host.id, role := .host, displayName, secret := "" }

/-- The transaction of `exchange_invite`: find the invite, check it and its room, and let one guest in. -/
def admitGuest (inviteDigest sessionDigest : List UInt8) (participantId sealedName : String) :
    StoreM String := transaction do
  let now := env.now 0
  env.attempt 1
  let invite ← orFail (← env.query 2 fun db => db.invites.find? (·.digest == inviteDigest)) .inviteUnavailable
  failIf (invite.revokedAt.isSome ∨ ¬ Db.futureTimestamp invite.expiresAt now) .inviteUnavailable
  let room ← orFail (← env.query 3 fun db => db.rooms.find? (·.id == invite.roomId)) .database
  failIf (room.status = .closed) .inviteUnavailable
  let live ← env.query 4 fun db => db.liveParticipants invite.roomId now
  failIf (Limits.MAX_PARTICIPANTS ≤ live.length) .conflict
  env.insert 5 (·.insertParticipant (newParticipant invite.roomId now .guest participantId sealedName))
  env.insert 6 (·.insertSession (newSession invite.roomId now sessionDigest participantId))
  env.attempt 7
  return invite.roomId

/-- `RoomStore::exchange_invite`. -/
def exchangeInvite (raw displayName : String) : StoreM RoomSession := do
  let displayName ← orInvalid (Limits.validateDisplayName displayName)
  let raw := trim raw
  failIf (raw = "" ∨ 128 < raw.utf8ByteSize ∨ anyChar isControl raw) .inviteUnavailable
  let secret := opaqueSecret (env.uuid 0)
  let participantId := opaqueId "member_" (env.uuid 1)
  let sealedName ← store.sealCell env 0 0 displayName (ctx "room_participants" "display_name" participantId)
  let roomId ← admitGuest env (store.crates.sha256 raw) (store.crates.sha256 secret) participantId sealedName
  return { roomId, participantId, role := .guest, displayName, secret }

/-- `RoomStore::issue_invite`. -/
def issueInvite (roomId : String) : StoreM IssuedInvite := do
  let roomId ← returnExcept (validateRoomId roomId)
  let now := env.now 0
  let invite := opaqueSecret (env.uuid 0)
  let shareOrigin ← transaction do
    env.attempt 0
    let room ← orFail (← env.query 1 fun db => db.rooms.find? (·.id == roomId)) .notFound
    failIf (room.status = .closed) .closed
    let changed ← env.execute 2
      (Db.rotateInvite roomId (store.crates.sha256 invite) (now + seconds Limits.INVITE_TTL_SECS))
    failIf (changed = 0) .notFound
    let _ ← env.execute 3 (Db.revokeSessions roomId now)
    let _ ← env.execute 4 (Db.deleteGuests roomId)
    env.attempt 5
    return room.shareOrigin
  return { invite, shareOrigin }

/-- `RoomStore::revoke_invite`. -/
def revokeInvite (roomId : String) : StoreM Unit := do
  let roomId ← returnExcept (validateRoomId roomId)
  let changed ← env.execute 0 (Db.revokeInvites roomId (env.now 0))
  failIf (changed = 0) .notFound
  let _ ← env.execute 1 (Db.revokeSessions roomId (env.now 1))
  let _ ← env.execute 2 (Db.deleteGuests roomId)

/-- The join of `resolve_session`: the first session with the digest whose participant exists. -/
def findSession (digest : List UInt8) (db : Db) : Option (SessionRow × ParticipantRow) :=
  db.sessions.rows.findSome? fun session =>
    if session.digest = digest then
      (db.participants.find? (·.id == session.participantId)).map fun participant => (session, participant)
    else none

/-- `RoomStore::resolve_session`. -/
def resolveSession (raw : String) : StoreM (Option RoomSession) := do
  let raw := trim raw
  if raw = "" ∨ 128 < raw.utf8ByteSize then
    return none
  else
    match ← env.query 0 (findSession (store.crates.sha256 raw)) with
    | none => return none
    | some (session, participant) =>
      if session.revokedAt.isSome ∨ ¬ Db.futureTimestamp session.expiresAt (env.now 0) then
        return none
      else
        let displayName ← store.openCell env 1 participant.displayName
          (ctx "room_participants" "display_name" session.participantId)
        return some { roomId := session.roomId, participantId := session.participantId,
                      role := session.role, displayName, secret := raw }

end Access

section Turns

variable (store : RoomStore) (env : Env)

/-- What the transaction of `append_user_turn` hands to the rest of the call: the run, the message
it inserted (none for an idempotent retry) and the trimmed text. -/
structure AppendedTurn where
  roomId : String
  runId : String
  messageId : Option String
  text : String
deriving DecidableEq, Repr

/-- The inserting branch of `append_user_turn`: a free room takes the message and a running run. -/
def insertTurn (session : RoomSession) (idempotencyKey : Option String) (text : String) :
    StoreM AppendedTurn := do
  let running ← env.query 5 fun db => db.runs.count (Db.isActiveIn session.roomId)
  failIf (0 < running) .roomBusy
  let now := env.now 0
  let messageId := opaqueId "msg_" (env.uuid 0)
  let runId := opaqueId "run_" (env.uuid 1)
  let requestId := opaqueId "req_" (env.uuid 2)
  let messageText ← store.sealCell env 6 0 text (ctx "room_messages" "text" messageId)
  let inputText ← store.sealCell env 7 1 text (ctx "room_runs" "input_text" runId)
  let partialText ← store.sealCell env 8 2 "" (ctx "room_runs" "partial_text" runId)
  env.insert 9 (·.insertMessage
    (newMessage session.roomId now .user messageId messageText (some session.participantId)))
  env.insert 10 (·.insertRun
    (newRun session.roomId now runId requestId idempotencyKey inputText partialText))
  let _ ← env.execute 11 (Db.setRoomStatus session.roomId (fun _ => .running) now)
  env.attempt 12
  return { roomId := session.roomId, runId, messageId := some messageId, text }

/-- `input.idempotency_key.map(…).transpose()`. -/
def validKey : Option String → StoreM (Option String)
  | none => pure none
  | some value => some <$> orInvalid (Limits.validateIdempotencyKey value)

/-- The run a retry of `idempotencyKey` finds. -/
def findRetried (roomId : String) (idempotencyKey : Option String) : StoreM (Option RunRow) :=
  match idempotencyKey with
  | none => pure none
  | some key => env.query 2 fun db =>
      db.runs.find? fun run => run.roomId == roomId && run.idempotencyKey == some key

/-- The retrying branch of `append_user_turn`: the same key must carry the same text. -/
def retryTurn (session : RoomSession) (text : String) (run : RunRow) : StoreM AppendedTurn := do
  let previousText ← store.openCell env 3 run.inputText (ctx "room_runs" "input_text" run.id)
  failIf (previousText ≠ text) .conflict
  env.attempt 4
  return { roomId := session.roomId, runId := run.id, messageId := none, text }

/-- The first locked section of `append_user_turn`: its checks and its transaction. -/
def appendTurn (session : RoomSession) (input : SubmitTurnInput) : StoreM AppendedTurn := do
  failIf (session.role = .viewer) .forbidden
  let text ← orInvalid (Limits.validatePrompt input.text)
  let idempotencyKey ← validKey input.idempotencyKey
  transaction do
    env.attempt 0
    let room ← orFail (← env.query 1 fun db => db.rooms.find? (·.id == session.roomId)) .notFound
    failIf (room.status = .closed) .closed
    match ← findRetried env session.roomId idempotencyKey with
    | some run => store.retryTurn env session text run
    | none => store.insertTurn env session idempotencyKey text

/-- `run_by_id_sync`. -/
def runById (point : ℕ) (roomId runId : String) : StoreM (Option RoomRun) := do
  let found ← env.query point fun db => db.runs.find? fun run => run.roomId == roomId && run.id == runId
  match found with
  | none => return none
  | some row => some <$> returnExcept ((store.openRun (rowToRun row)).mapError .sealing)

/-- The run `append_user_turn` returns: the snapshot's for an inserted turn, the retried one otherwise. -/
def acceptedRun (turn : AppendedTurn) (snapshot : RoomSnapshot) : StoreM RoomRun := do
  match turn.messageId with
  | some _ => orFail snapshot.currentRun .notFound
  | none => orFail (← store.runById env 17 turn.roomId turn.runId) .notFound

/-- The user message `append_user_turn` looks up in the snapshot. -/
def acceptedMessage (turn : AppendedTurn) (snapshot : RoomSnapshot) : Option RoomMessage :=
  snapshot.messages.reverse.find? fun message =>
    message.role == .user && message.text == turn.text && turn.messageId.all fun id => message.id == id

/-- The tail of `append_user_turn`, after its snapshot was read. -/
def acceptTurn (turn : AppendedTurn) (snapshot : RoomSnapshot) : StoreM AcceptedRun := do
  let run ← store.acceptedRun env turn snapshot
  let userMessage ← orFail (acceptedMessage turn snapshot) .notFound
  return { run, userMessage, snapshot }

/-- `RoomStore::append_user_turn`. -/
def appendUserTurn (session : RoomSession) (input : SubmitTurnInput) : StoreM AcceptedRun := do
  let turn ← store.appendTurn env session input
  let snapshot ← store.snapshotOrNotFound env 13 turn.roomId
  store.acceptTurn env turn snapshot

/-- `RoomStore::append_delta`. -/
def appendDelta (roomId runId delta : String) : StoreM Unit := do
  let delta ← orInvalid (Limits.validateDelta delta)
  let found ← env.query 0 fun db =>
    db.runs.find? fun run => run.id == runId && run.roomId == roomId && run.status == .running
  let run ← orFail found .notFound
  let context := ctx "room_runs" "partial_text" runId
  let current ← store.openCell env 1 run.partialText context
  let combined := current ++ delta
  failIf (Limits.MAX_MESSAGE_CHARS < charCount combined) (.invalid "assistant output is too long")
  let cell ← store.sealCell env 2 0 combined context
  let _ ← env.execute 3 (Db.setPartialText roomId runId cell)
  let _ ← env.execute 4 (Db.setRoomStatus roomId id (env.now 0))

/-- `finish_run` copies a completed run's text into an assistant message, unless it is empty. -/
def insertAnswer (roomId partialText : String) (status : RunStatus) : StoreM Unit :=
  if status = .completed ∧ partialText ≠ "" then do
    let messageId := opaqueId "msg_" (env.uuid 0)
    let text ← store.sealCell env 3 0 partialText (ctx "room_messages" "text" messageId)
    env.insert 4 (·.insertMessage (newMessage roomId (env.now 0) .assistant messageId text none))
  else pure ()

/-- The room status `finish_run` settles on. -/
def settledStatus (status : RunStatus) : RoomStatus := if status = .failed then .failed else .idle

/-- The statements of `finish_run` on an unfinished run, up to its two trims. -/
def recordTerminal (roomId : String) (run : RunRow) (terminal : RunTerminal) : StoreM Unit := do
  let partialText ← store.openCell env 2 run.partialText (ctx "room_runs" "partial_text" run.id)
  store.insertAnswer env roomId partialText terminal.status
  let errorMessage ← store.sealOpt env 5 1 terminal.errorMessage (ctx "room_runs" "error_message" run.id)
  let _ ← env.execute 6
    (Db.settleRun roomId run.id terminal.status terminal.errorCode errorMessage (env.now 0))
  let _ ← env.execute 7 (Db.setRoomStatus roomId (Db.unlessClosed (settledStatus terminal.status)) (env.now 0))

/-- `trim_runs` and `trim_messages`. -/
def trimHistory (roomId : String) : StoreM Unit := do
  let _ ← env.execute 8 (Db.trimRuns roomId)
  let _ ← env.execute 9 (Db.trimMessages roomId)

/-- The first locked section of `finish_run`: its transaction, which leaves a finished run alone. -/
def settleRun (roomId runId : String) (terminal : RunTerminal) : StoreM Unit := do
  let roomId ← returnExcept (validateRoomId roomId)
  transaction do
    env.attempt 0
    let found ← env.query 1 fun db => db.runs.find? fun run => run.id == runId && run.roomId == roomId
    let run ← orFail found .notFound
    if run.status.isActive then
      store.recordTerminal env roomId run terminal
      trimHistory env roomId
      env.attempt 10
    else env.attempt 10

/-- `RoomStore::finish_run`. -/
def finishRun (roomId runId : String) (terminal : RunTerminal) : StoreM RoomSnapshot := do
  store.settleRun env roomId runId terminal
  store.snapshotOrNotFound env 11 roomId

/-- `RoomStore::stop_run`. -/
def stopRun (roomId runId : String) : StoreM Unit := do
  let roomId ← returnExcept (validateRoomId roomId)
  let message ← store.sealCell env 0 0 "generation stopped" (ctx "room_runs" "error_message" runId)
  let changed ← env.execute 1 (Db.cancelRun roomId runId message (env.now 0))
  failIf (changed = 0) .notFound
  let _ ← env.execute 2 (Db.setRoomStatus roomId (Db.unlessClosed .idle) (env.now 1))

/-- The message `recover_running` seals for one run; an unwritable store clears it. -/
def interruptedMessage (index : ℕ) (runId : String) : StoreM (Option String) :=
  match store.sealing.ensureWritable with
  | .ok _ => some <$> store.sealCell env (1 + 2 * index) index "generation interrupted by node restart"
      (ctx "room_runs" "error_message" runId)
  | .error _ => pure none

/-- The loop of `recover_running`, at its `index`-th run. -/
def interruptRuns : List String → ℕ → StoreM ℕ
  | [], _ => pure 0
  | runId :: rest, index => do
    let message ← store.interruptedMessage env index runId
    let changed ← env.execute (2 + 2 * index) (Db.interruptRun runId message (env.now 0))
    let more ← interruptRuns rest (index + 1)
    return changed + more

/-- `RoomStore::recover_running`. -/
def recoverRunning : StoreM ℕ := do
  let ids ← env.query 0 fun db => (db.runs.select (·.status.isActive)).map RunRow.id
  let changed ← store.interruptRuns env ids 0
  let _ ← env.execute (1 + 2 * ids.length) (Db.failRunningRooms (env.now 0))
  return changed

end Turns

end RoomStore

end RyuRooms
