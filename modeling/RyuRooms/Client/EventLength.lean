import RyuRooms.Model.Publisher
import RyuRooms.Runtime.Sources

/-! # How long an event is

The length of what the runtime publishes, as `serde_json` writes it: the fixed parts of an event, of its
snapshot, messages, run and participants, and the texts in them, each counted with its escapes. The length
of a snapshot is a sum over the rows that it shows, and the length of an event one over its source.
-/

namespace RyuRooms

open Foundation Json

section Lengths

variable (stamp : ToRfc3339)

/-- The bytes of an array, from those of its elements. -/
def arrayBytes (lengths : List ℕ) : ℕ := 2 + lengths.sum + (lengths.length - 1)

/-- The bytes of an optional text. -/
def optionalBytes (value : Option String) : ℕ := value.elim 4 quotedBytes

def MessageRole.bytes : MessageRole → ℕ
  | .user => 6
  | .assistant => 11

def RoomMessage.bytes (message : RoomMessage) : ℕ :=
  53 + quotedBytes message.id + message.role.bytes + quotedBytes message.text + optionalBytes message.participantId +
    quotedBytes (stamp message.createdAt)

def RunStatus.bytes : RunStatus → ℕ
  | .queued => 8
  | .running => 9
  | .completed => 11
  | .failed => 8
  | .canceled => 10

def RoomRun.bytes (run : RoomRun) : ℕ :=
  122 + quotedBytes run.runId + quotedBytes run.requestId + optionalBytes run.idempotencyKey + run.status.bytes +
    quotedBytes run.partialText + optionalBytes run.errorCode + optionalBytes run.errorMessage +
    optionalBytes (run.startedAt.map stamp) + optionalBytes (run.finishedAt.map stamp)

def ParticipantRole.bytes : ParticipantRole → ℕ
  | .host => 6
  | .guest => 7
  | .viewer => 8

def RoomParticipantSummary.bytes (participant : RoomParticipantSummary) : ℕ :=
  40 + quotedBytes participant.id + quotedBytes participant.displayName + participant.role.bytes +
    if participant.online then 4 else 5

def RoomStatus.bytes : RoomStatus → ℕ
  | .idle => 6
  | .running => 9
  | .failed => 8
  | .closed => 8

def RoomSnapshot.bytes (snapshot : RoomSnapshot) : ℕ :=
  122 + quotedBytes snapshot.contract + (Nat.repr snapshot.schemaVersion).utf8ByteSize + quotedBytes snapshot.id +
    snapshot.status.bytes + quotedBytes snapshot.modelId + quotedBytes snapshot.engine +
    arrayBytes (snapshot.messages.map (RoomMessage.bytes stamp)) + snapshot.currentRun.elim 4 (RoomRun.bytes stamp) +
    arrayBytes (snapshot.participants.map RoomParticipantSummary.bytes) +
    quotedBytes (stamp snapshot.updatedAt)

/-- The bytes of an event and its name. -/
def RoomEvent.bytes : RoomEvent → ℕ
  | .turnAccepted run message snapshot => 46 + run.bytes stamp + message.bytes stamp + snapshot.bytes stamp
  | .turnDelta runId requestId delta partialText =>
    59 + quotedBytes runId + quotedBytes requestId + quotedBytes delta + quotedBytes partialText
  | .turnCompleted runId requestId snapshot =>
    51 + quotedBytes runId + quotedBytes requestId + snapshot.bytes stamp
  | .turnFailed runId requestId errorCode snapshot =>
    61 + quotedBytes runId + quotedBytes requestId + quotedBytes errorCode + snapshot.bytes stamp
  | .turnCanceled runId snapshot => 37 + quotedBytes runId + snapshot.bytes stamp
  | .roomClosed snapshot => 26 + snapshot.bytes stamp

/-- The fixed parts of the objects. -/
theorem frames :
    frame ["id", "role", "text", "participantId", "createdAt"] = 53 ∧
    frame ["runId", "requestId", "idempotencyKey", "status", "partialText", "errorCode", "errorMessage", "startedAt",
      "finishedAt"] = 122 ∧
    frame ["id", "displayName", "role", "online"] = 40 ∧
    frame ["contract", "schemaVersion", "id", "status", "modelId", "engine", "messages", "currentRun", "participants",
      "updatedAt"] = 122 ∧
    frame ["room_id", "event", "data"] = 29 ∧
    frame ["run", "message", "snapshot"] + quotedBytes "turn.accepted" = 46 ∧
    frame ["runId", "requestId", "delta", "partialText"] + quotedBytes "turn.delta" = 59 ∧
    frame ["runId", "requestId", "snapshot"] + quotedBytes "turn.completed" = 51 ∧
    frame ["runId", "requestId", "errorCode", "snapshot"] + quotedBytes "turn.failed" = 61 ∧
    frame ["runId", "snapshot"] + quotedBytes "turn.canceled" = 37 ∧
    frame ["snapshot"] + quotedBytes "room.closed" = 26 := by
  decide +kernel

/-- The names of statuses and roles. -/
theorem bytes_names : (∀ role : MessageRole, role.json.bytes = role.bytes) ∧
    (∀ status : RunStatus, status.json.bytes = status.bytes) ∧
    (∀ role : ParticipantRole, role.json.bytes = role.bytes) ∧
    ∀ status : RoomStatus, status.json.bytes = status.bytes := by
  have names : (["user", "assistant", "queued", "running", "completed", "failed", "canceled", "host", "guest", "viewer",
      "idle", "closed"].map quotedBytes) = [6, 11, 8, 9, 11, 8, 10, 6, 7, 8, 6, 8] := by decide +kernel
  simp only [List.map_cons, List.map_nil, List.cons.injEq, and_true] at names
  obtain ⟨user, assistant, queued, running, completed, failed, canceled, host, guest, viewer, idle, closed⟩ := names
  refine ⟨fun role => ?_, fun status => ?_, fun role => ?_, fun status => ?_⟩
  · cases role <;> simp only [MessageRole.json, bytes_str, MessageRole.bytes, user, assistant]
  · cases status <;>
      simp only [RunStatus.json, bytes_str, RunStatus.bytes, queued, running, completed, failed, canceled]
  · cases role <;> simp only [ParticipantRole.json, bytes_str, ParticipantRole.bytes, host, guest, viewer]
  · cases status <;> simp only [RoomStatus.json, bytes_str, RoomStatus.bytes, idle, running, failed, closed]

theorem bytes_optional_str (value : Option String) : (Json.optional .str value).bytes = optionalBytes value := by
  rw [Json.bytes_optional, optionalBytes]
  cases value <;> simp

theorem bytes_optional_stamp (time : Option Instant) :
    (Json.optional (fun time => .str (stamp time)) time).bytes = optionalBytes (time.map stamp) := by
  rw [Json.bytes_optional, optionalBytes]
  cases time <;> simp

theorem RoomMessage.bytes_json (message : RoomMessage) : (message.json stamp).bytes = message.bytes stamp := by
  obtain ⟨keys, -⟩ := frames
  obtain ⟨role, -⟩ := bytes_names
  simp only [RoomMessage.json, bytes_object, List.map_cons, List.map_nil, keys, List.sum_cons, List.sum_nil, bytes_str,
    role, bytes_optional_str, RoomMessage.bytes]
  omega

theorem RoomRun.bytes_json (run : RoomRun) : (run.json stamp).bytes = run.bytes stamp := by
  obtain ⟨-, keys, -⟩ := frames
  obtain ⟨-, status, -⟩ := bytes_names
  simp only [RoomRun.json, bytes_object, List.map_cons, List.map_nil, keys, List.sum_cons, List.sum_nil, bytes_str,
    status, bytes_optional_str, bytes_optional_stamp, RoomRun.bytes]
  omega

theorem RoomParticipantSummary.bytes_json (participant : RoomParticipantSummary) :
    participant.json.bytes = participant.bytes := by
  obtain ⟨-, -, keys, -⟩ := frames
  obtain ⟨-, -, role, -⟩ := bytes_names
  simp only [RoomParticipantSummary.json, bytes_object, List.map_cons, List.map_nil, keys, List.sum_cons, List.sum_nil,
    bytes_str, bytes_bool, role, RoomParticipantSummary.bytes]
  omega

theorem RoomSnapshot.bytes_json (snapshot : RoomSnapshot) : (snapshot.json stamp).bytes = snapshot.bytes stamp := by
  obtain ⟨-, -, -, keys, -⟩ := frames
  obtain ⟨-, -, -, status⟩ := bytes_names
  have messages : snapshot.messages.map (fun message => (message.json stamp).bytes) =
      snapshot.messages.map (RoomMessage.bytes stamp) :=
    List.map_congr_left fun message _ => RoomMessage.bytes_json stamp message
  have participants : snapshot.participants.map (fun participant => participant.json.bytes) =
      snapshot.participants.map RoomParticipantSummary.bytes :=
    List.map_congr_left fun participant _ => RoomParticipantSummary.bytes_json participant
  have current : (Json.optional (RoomRun.json stamp) snapshot.currentRun).bytes =
      snapshot.currentRun.elim 4 (RoomRun.bytes stamp) := by
    cases snapshot.currentRun with
    | none => exact bytes_null
    | some run => exact RoomRun.bytes_json stamp run
  simp only [RoomSnapshot.json, bytes_object, List.map_cons, List.map_nil, keys, List.sum_cons, List.sum_nil, bytes_str,
    bytes_num, bytes_arr, List.map_map, Function.comp_def, messages, participants, current, status,
    List.length_map, arrayBytes, RoomSnapshot.bytes]
  omega

/-- The length of a published request. -/
theorem bytes_publishRequest (roomId : String) (event : RoomEvent) :
    (AppEvents.publishRequest stamp roomId event).json.bytes = 29 + quotedBytes roomId + event.bytes stamp := by
  obtain ⟨-, -, -, -, keys, accepted, delta, completed, failed, canceled, closed⟩ := frames
  simp only [AppEvents.publishRequest, AppEvents.RealtimePublishRequest.json, bytes_obj, List.map_cons, List.map_nil,
    keys, List.sum_cons, List.sum_nil, bytes_str]
  cases event <;>
    simp only [RoomEvent.name, RoomEvent.data, bytes_object, List.map_cons, List.map_nil, List.sum_cons, List.sum_nil,
      bytes_str, RoomRun.bytes_json, RoomMessage.bytes_json, RoomSnapshot.bytes_json, RoomEvent.bytes] <;> omega

end Lengths

section Rows

variable (store : RoomStore) (stamp : ToRfc3339)

namespace RoomStore

/-- The bytes that the row of a message takes in a snapshot, when its text opens. -/
def messageBytes (row : MessageRow) : Option ℕ :=
  (store.sealing.openText row.text (ctx "room_messages" "text" row.id)).toOption.map fun text =>
    53 + quotedBytes row.id + row.role.bytes + quotedBytes text + optionalBytes row.participantId +
      quotedBytes (stamp row.createdAt)

/-- The bytes that the row of a participant takes in a snapshot, when its name opens. -/
def participantBytes (row : ParticipantRow) : Option ℕ :=
  (store.sealing.openText row.displayName (ctx "room_participants" "display_name" row.id)).toOption.map fun name =>
    40 + quotedBytes row.id + quotedBytes name + row.role.bytes + if row.online then 4 else 5

/-- The bytes of a room's snapshot: its own row, its newest messages, its current run and its participants. -/
def roomBytes (db : Db) (id : String) : ℕ :=
  (db.rooms.find? (·.id == id)).elim 0 fun room =>
    142 + quotedBytes id + room.status.bytes + quotedBytes room.modelId +
      arrayBytes ((newest MessageRow.createdAt MessageRow.id Limits.MAX_HISTORY_MESSAGES
        (db.messages.select (·.roomId == id))).filterMap (store.messageBytes stamp)) +
      (currentRow db id).elim 4 (fun row => (store.openRunOrBlank (rowToRun row)).bytes stamp) +
      arrayBytes ((db.participants.select (·.roomId == id)).filterMap store.participantBytes) +
      quotedBytes (stamp room.updatedAt)

end RoomStore

/-- The bytes of an event, from what it is put together from. -/
def Source.bytes : Source → ℕ
  | accepted turn shown retried =>
    46 + (store.turnRun turn shown retried).elim 0 (RoomRun.bytes stamp) +
      (store.turnMessage turn shown).elim 0 (RoomMessage.bytes stamp) + store.roomBytes stamp shown (trim turn.roomId)
  | delta _ runId requestId added partialText =>
    59 + quotedBytes runId + quotedBytes requestId + quotedBytes added + quotedBytes partialText
  | completed roomId runId requestId shown =>
    51 + quotedBytes runId + quotedBytes requestId + store.roomBytes stamp shown (trim roomId)
  | failed roomId runId requestId code shown =>
    61 + quotedBytes runId + quotedBytes requestId + quotedBytes code + store.roomBytes stamp shown (trim roomId)
  | canceled roomId runId shown => 37 + quotedBytes runId + store.roomBytes stamp shown (trim roomId)
  | closed roomId shown => 26 + store.roomBytes stamp shown (trim roomId)

/-- The room id that the event of a source is published under. -/
def Source.roomId : Source → String
  | accepted turn _ _ => trim turn.roomId
  | delta roomId _ _ _ _ | completed roomId _ _ _ | failed roomId _ _ _ _ | canceled roomId _ _ | closed roomId _ => roomId

theorem arrayBytes_perm {left right : List ℕ} (perm : left.Perm right) : arrayBytes left = arrayBytes right := by
  rw [arrayBytes, arrayBytes, perm.sum_eq, perm.length_eq]

variable {store stamp} {db : Db} {id : String}

/-- The messages of a snapshot take the bytes of their rows. -/
theorem arrayBytes_loadMessages : arrayBytes ((store.loadMessages db id).map (RoomMessage.bytes stamp)) =
    arrayBytes ((newest MessageRow.createdAt MessageRow.id Limits.MAX_HISTORY_MESSAGES
      (db.messages.select (·.roomId == id))).filterMap (store.messageBytes stamp)) := by
  rw [RoomStore.loadMessages, List.map_filterMap]
  refine arrayBytes_perm (((List.reverse_perm _).filterMap _).trans (.of_eq (List.filterMap_congr fun row _ => ?_)))
  rw [RoomStore.messageBytes]
  cases store.sealing.openText row.text (ctx "room_messages" "text" row.id) <;> rfl

/-- So do its participants, in whatever order. -/
theorem arrayBytes_loadParticipants :
    arrayBytes ((store.loadParticipants db id).map RoomParticipantSummary.bytes) =
      arrayBytes ((db.participants.select (·.roomId == id)).filterMap store.participantBytes) := by
  have all : (newest ParticipantRow.createdAt ParticipantRow.id db.participants.rows.length
      (db.participants.select (·.roomId == id))).Perm (db.participants.select (·.roomId == id)) := by
    have sorted := List.perm_insertionSort
      (fun left right => comesFirst ParticipantRow.createdAt ParticipantRow.id left right)
      (db.participants.select (·.roomId == id))
    rw [newest, List.take_of_length_le (sorted.length_eq.le.trans (List.length_filter_le _ _))]
    exact sorted
  rw [RoomStore.loadParticipants, List.map_filterMap]
  refine arrayBytes_perm ((((List.reverse_perm _).trans all).filterMap _).trans
    (.of_eq (List.filterMap_congr fun row _ => ?_)))
  rw [RoomStore.participantBytes]
  cases store.sealing.openText row.displayName (ctx "room_participants" "display_name" row.id) <;> rfl

/-- A snapshot is as long as the rows it shows. -/
theorem RoomStore.bytes_of_shows {roomId : String} {snapshot : RoomSnapshot}
    (shows : store.shows db roomId = some snapshot) :
    snapshot.id = trim roomId ∧ snapshot.bytes stamp = store.roomBytes stamp db (trim roomId) := by
  obtain ⟨id, valid, shown⟩ := shows_eq_some_iff.mp shows
  obtain ⟨rfl, -⟩ := validateRoomId_ok_iff.mp valid
  obtain ⟨room, found, rfl⟩ := Option.map_eq_some_iff.mp shown
  have constants : quotedBytes CONTRACT = 9 ∧ (Nat.repr 1).utf8ByteSize = 1 ∧ quotedBytes ENGINE = 10 := by
    decide +kernel
  have current : (Option.map (fun row => store.openRunOrBlank (rowToRun row)) (currentRow db (trim roomId))).elim 4
      (RoomRun.bytes stamp) = (currentRow db (trim roomId)).elim 4 fun row =>
        (store.openRunOrBlank (rowToRun row)).bytes stamp := by
    cases currentRow db (trim roomId) <;> rfl
  refine ⟨rfl, ?_⟩
  simp only [RoomSnapshot.bytes, roomBytes, found, Option.elim_some, arrayBytes_loadMessages,
    arrayBytes_loadParticipants, current, constants]
  omega

/-- An event is as long as its source. -/
theorem Source.bytes_event {source : Source} {roomId : String} {event : RoomEvent}
    (made : source.event store = some (roomId, event)) :
    roomId = source.roomId ∧ event.bytes stamp = source.bytes store stamp := by
  cases source with
  | accepted turn shown retried =>
    simp only [Source.event, Option.bind_eq_bind, Option.bind_eq_some_iff, Option.pure_def, Option.some.injEq,
      Prod.mk.injEq] at made
    obtain ⟨snapshot, shows, run, isRun, message, isMessage, rfl, rfl⟩ := made
    refine ⟨(@RoomStore.bytes_of_shows store stamp shown _ snapshot shows).1, ?_⟩
    simp [RoomEvent.bytes, Source.bytes, isRun, isMessage, (RoomStore.bytes_of_shows shows).2]
  | delta roomId runId requestId added partialText =>
    simp only [Source.event, Option.some.injEq, Prod.mk.injEq] at made
    obtain ⟨rfl, rfl⟩ := made
    exact ⟨rfl, rfl⟩
  | completed | failed | canceled | closed =>
    simp only [Source.event, Option.map_eq_some_iff, Prod.mk.injEq] at made
    obtain ⟨snapshot, shows, rfl, rfl⟩ := made
    exact ⟨rfl, by simp [RoomEvent.bytes, Source.bytes, (RoomStore.bytes_of_shows shows).2]⟩

end Rows

end RyuRooms
