import RyuRooms.Client.ModelStream
import RyuRooms.Model.Schemas
import RyuRooms.Store.Lifecycle

/-! # What the interface reads

The interface drops a snapshot that its schema refuses: a room leaves the list, an event is not shown, an
answer is an error. The rows of the tables have all that the schema asks for, whatever calls were made and
wherever they failed, so every snapshot is taken, and read back as it was.
-/

namespace RyuRooms

open Foundation

section Views

variable (stamp : ToRfc3339)

/-- A message as the interface has it. -/
def RoomMessage.toUi (message : RoomMessage) : Ui.RoomMessage :=
  ⟨stamp message.createdAt, message.id, message.participantId, message.role, message.text⟩

/-- A run as the interface has it. -/
def RoomRun.toUi (run : RoomRun) : Ui.RoomRun :=
  ⟨run.errorCode, run.errorMessage, run.finishedAt.map stamp, run.idempotencyKey, run.partialText, run.requestId,
    run.runId, run.startedAt.map stamp, run.status⟩

/-- A participant as the interface has it. -/
def RoomParticipantSummary.toUi (participant : RoomParticipantSummary) : Ui.RoomParticipant :=
  ⟨participant.displayName, participant.id, participant.online, participant.role⟩

/-- A snapshot as the interface has it. -/
def RoomSnapshot.toUi (snapshot : RoomSnapshot) : Ui.RoomSnapshot where
  contract := snapshot.contract
  currentRun := snapshot.currentRun.map (RoomRun.toUi stamp)
  engine := snapshot.engine
  id := snapshot.id
  messages := snapshot.messages.map (RoomMessage.toUi stamp)
  modelId := snapshot.modelId
  participants := snapshot.participants.map RoomParticipantSummary.toUi
  schemaVersion := snapshot.schemaVersion
  status := snapshot.status
  updatedAt := stamp snapshot.updatedAt

end Views

/-- A run with its ids. -/
structure RoomRun.Presentable (run : RoomRun) : Prop where
  runId : run.runId ≠ ""
  requestId : run.requestId ≠ ""

/-- A snapshot of this version of the contract in which nothing is without its id or name. -/
structure RoomSnapshot.Presentable (snapshot : RoomSnapshot) : Prop where
  contract : snapshot.contract = CONTRACT
  schemaVersion : snapshot.schemaVersion = 1
  engine : snapshot.engine = ENGINE
  id : snapshot.id ≠ ""
  modelId : snapshot.modelId ≠ ""
  messages : ∀ message ∈ snapshot.messages, message.id ≠ ""
  currentRun : ∀ run ∈ snapshot.currentRun, run.Presentable
  participants : ∀ participant ∈ snapshot.participants, participant.id ≠ "" ∧ participant.displayName ≠ ""

section Reads

open Schema

variable {stamp : ToRfc3339} (written : ∀ instant, stamp instant ≠ "")
include written

theorem roomMessageSchema_json {message : RoomMessage} (named : message.id ≠ "") :
    Ui.roomMessageSchema (some (message.json stamp)) = some (message.toUi stamp) := by
  have role : Ui.messageRoleSchema (some message.role.json) = some message.role := by cases message.role <;> rfl
  simp [Ui.roomMessageSchema, RoomMessage.json, field_object, List.lookup_cons, nonEmpty_str, written, named,
    nullable_str, role, RoomMessage.toUi, string]

omit written in
theorem roomRunSchema_json {run : RoomRun} (presentable : run.Presentable) :
    Ui.roomRunSchema (some (run.json stamp)) = some (run.toUi stamp) := by
  have status : Ui.runStatusSchema (some run.status.json) = some run.status := by cases run.status <;> rfl
  have text (value : Option String) : Ui.nullableRunTextSchema (some (.optional .str value)) = some value := by
    rw [Ui.nullableRunTextSchema, orDefault, nullable_str, Option.getD_some]
  have time (value : Option Instant) :
      Ui.nullableRunTextSchema (some (.optional (fun time => .str (stamp time)) value)) = some (value.map stamp) := by
    cases value <;> rfl
  simp [Ui.roomRunSchema, RoomRun.json, field_object, List.lookup_cons, nonEmpty_str, presentable.runId,
    presentable.requestId, text, time, status, RoomRun.toUi, string]

omit written in
theorem roomParticipantSchema_json {participant : RoomParticipantSummary} (named : participant.id ≠ "")
    (called : participant.displayName ≠ "") :
    Ui.roomParticipantSchema (some participant.json) = some participant.toUi := by
  have role : Ui.participantRoleSchema (some participant.role.json) = some participant.role := by
    cases participant.role <;> rfl
  simp [Ui.roomParticipantSchema, RoomParticipantSummary.json, field_object, List.lookup_cons, nonEmpty_str, named, called,
    role, RoomParticipantSummary.toUi, boolean]

/-- The interface reads a presentable snapshot back as it was. -/
theorem roomSnapshotSchema_json {snapshot : RoomSnapshot} (presentable : snapshot.Presentable) :
    Ui.roomSnapshotSchema (some (snapshot.json stamp)) = some (snapshot.toUi stamp) := by
  have status : Ui.roomStatusSchema (some snapshot.status.json) = some snapshot.status := by
    cases snapshot.status <;> rfl
  have messages : array Ui.roomMessageSchema (some (.arr (snapshot.messages.map (RoomMessage.json stamp)))) =
      some (snapshot.messages.map (RoomMessage.toUi stamp)) :=
    array_arr fun message member => roomMessageSchema_json written (presentable.messages message member)
  have participants : array Ui.roomParticipantSchema
      (some (.arr (snapshot.participants.map RoomParticipantSummary.json))) =
        some (snapshot.participants.map RoomParticipantSummary.toUi) :=
    array_arr fun participant member =>
      have named := presentable.participants participant member
      roomParticipantSchema_json named.1 named.2
  have currentRun : nullable Ui.roomRunSchema (some (.optional (RoomRun.json stamp) snapshot.currentRun)) =
      some (snapshot.currentRun.map (RoomRun.toUi stamp)) :=
    nullable_optional (fun _ _ => nofun) fun run shown => roomRunSchema_json (presentable.currentRun run shown)
  have contract : (string.refine (· == "rooms/1")) (some (.str snapshot.contract)) = some snapshot.contract := by
    rw [presentable.contract]
    rfl
  have engine : (string.refine (· == "mesh-llm")) (some (.str snapshot.engine)) = some snapshot.engine := by
    rw [presentable.engine]
    rfl
  have version : (number.refine (· == 1)) (some (.num snapshot.schemaVersion)) = some snapshot.schemaVersion := by
    rw [presentable.schemaVersion]
    rfl
  simp [Ui.roomSnapshotSchema, RoomSnapshot.json, field_object, List.lookup_cons, contract, currentRun, engine,
    nonEmpty_str, presentable.id, messages, presentable.modelId, participants, version, status, written,
    RoomSnapshot.toUi]

/-- No room of a list is left out. -/
theorem roomListResponseSchema_listRoomsBody {rooms : List RoomSnapshot}
    (presentable : ∀ snapshot ∈ rooms, snapshot.Presentable) :
    Ui.roomListResponseSchema (some (listRoomsBody stamp rooms)) = some (rooms.map (RoomSnapshot.toUi stamp)) := by
  have read : array Ui.roomSnapshotBoundarySchema (some (.arr (rooms.map (RoomSnapshot.json stamp)))) =
      some (rooms.map fun snapshot => some (snapshot.toUi stamp)) :=
    array_arr fun snapshot member =>
      congrArg some (roomSnapshotSchema_json written (presentable snapshot member))
  simp [Ui.roomListResponseSchema, listRoomsBody, field_object, orDefault, read, List.filterMap_map]

theorem roomTurnResponseSchema_submitTurnBody {accepted : AcceptedRun} {requestId : String}
    (presentable : accepted.snapshot.Presentable) (run : accepted.run.Presentable)
    (message : accepted.userMessage.id ≠ "") :
    Ui.roomTurnResponseSchema (some (submitTurnBody stamp accepted requestId)) =
      some ⟨accepted.snapshot.toUi stamp, some requestId, some (accepted.run.toUi stamp),
        some (accepted.userMessage.toUi stamp)⟩ := by
  simp [Ui.roomTurnResponseSchema, submitTurnBody, field_object, List.lookup_cons, Schema.optional, string,
    roomSnapshotSchema_json written presentable, roomRunSchema_json run, roomMessageSchema_json written message]

theorem roomTurnResponseSchema_snapshotBody {snapshot : RoomSnapshot} {requestId : String}
    (presentable : snapshot.Presentable) :
    Ui.roomTurnResponseSchema (some (snapshotBody stamp snapshot requestId)) =
      some ⟨snapshot.toUi stamp, some requestId, none, none⟩ := by
  simp [Ui.roomTurnResponseSchema, snapshotBody, field_object, List.lookup_cons, Schema.optional, string,
    roomSnapshotSchema_json written presentable]

end Reads

/-- Nothing in the tables is without its id or name. -/
def presentable (form : StoreSeal.Form) : RowInv where
  room row := row.id ≠ "" ∧ row.modelId ≠ ""
  message row := row.id ≠ ""
  run row := row.id ≠ "" ∧ row.requestId ≠ ""
  participant row := row.id ≠ "" ∧
    ∃ name, form row.displayName name (ctx "room_participants" "display_name" row.id) ∧ name ≠ ""

namespace Presentable

variable {form : StoreSeal.Form} {store : RoomStore} {env : Env}

theorem opaqueId_ne_empty {start : String} (uuid : Uuid) : opaqueId start uuid ≠ "" := by
  intro empty
  have size := congrArg String.utf8ByteSize empty
  rw [opaqueId, String.utf8ByteSize_append, uuid.utf8ByteSize_simple] at size
  exact absurd size (by simp)

theorem stable : (presentable form).Stable where
  status _ _ _ := id
  presence _ _ := id

theorem endsWith {runId : String} {message : Option String} : (presentable form).EndsWith runId message :=
  fun _ _ _ _ good _ => good

/-- Every operation gives its rows their ids and names. -/
theorem allows (faithful : store.sealing.Faithful form) (op : Op) : (presentable form).Allows store env op := by
  cases op with
  | createRoom input =>
    refine ⟨fun modelId _ valid => ⟨opaqueId_ne_empty _, ?_⟩, fun cell sealed => ⟨opaqueId_ne_empty _, "Host", ?_, by decide⟩⟩
    · obtain ⟨rfl, filled, -⟩ := Limits.validateNonEmpty_ok valid
      exact filled
    · exact faithful.writes _ _ _ _ sealed
  | exchangeInvite raw displayName =>
    intro name cell roomId valid sealed
    obtain ⟨rfl, filled, -⟩ := Limits.validateNonEmpty_ok valid
    exact ⟨opaqueId_ne_empty _, _, faithful.writes _ _ _ _ sealed, filled⟩
  | issueInvite | revokeInvite | closeRoom => trivial
  | appendUserTurn session input =>
    exact fun _ _ => ⟨fun _ _ => opaqueId_ne_empty _, fun _ _ _ _ _ => ⟨opaqueId_ne_empty _, opaqueId_ne_empty _⟩⟩
  | appendDelta roomId runId delta => exact fun _ _ _ _ _ _ _ _ _ _ good _ => good
  | finishRun roomId runId terminal ends =>
    exact ⟨fun _ _ _ _ _ _ _ _ _ _ => opaqueId_ne_empty _, fun _ => endsWith, fun _ _ _ _ => endsWith⟩
  | stopRun => exact fun _ _ => endsWith
  | recoverRunning => exact fun _ => ⟨fun _ => endsWith, fun _ _ _ => endsWith⟩

end Presentable

namespace RoomStore

variable {form : StoreSeal.Form} {store : RoomStore} {db : Db}

theorem presentable_openRunOrBlank {row : RunRow} (good : (presentable form).run row) :
    (store.openRunOrBlank (rowToRun row)).Presentable where
  runId := by
    rw [(openRunOrBlank_same _).1]
    exact good.1
  requestId := by
    rw [openRunOrBlank_requestId]
    exact good.2

/-- A snapshot of good tables is one the interface takes. -/
theorem presentable_snapshotFrom (every : db.Every (presentable form)) (own : store.sealing.Faithful form)
    {roomId : String} {snapshot : RoomSnapshot} (shown : store.snapshotFrom db roomId = some snapshot) :
    snapshot.Presentable := by
  obtain ⟨room, found, rfl⟩ := Option.map_eq_some_iff.mp shown
  obtain ⟨member, named⟩ := Table.find?_eq_some found
  obtain ⟨id, modelId⟩ := every.rooms room member
  obtain rfl : room.id = roomId := by simpa using named
  refine ⟨rfl, rfl, rfl, id, modelId, fun message listed => ?_, fun run current => ?_, fun participant listed => ?_⟩
  · obtain ⟨row, there, text, -, rfl⟩ := mem_loadMessages_iff.mp listed
    exact every.messages row (Table.mem_select.mp (mem_of_mem_newest there)).1
  · obtain ⟨row, first, rfl⟩ := Option.map_eq_some_iff.mp current
    have there := mem_of_mem_newest (List.mem_of_mem_head? first)
    exact presentable_openRunOrBlank (every.runs row (Table.mem_select.mp there).1)
  · obtain ⟨row, there, isShown⟩ := List.mem_filterMap.mp listed
    obtain ⟨own_id, name, held, filled⟩ :=
      every.participants row (Table.mem_select.mp (mem_of_mem_newest (List.mem_reverse.mp there))).1
    split at isShown
    · next opened =>
      obtain rfl := Option.some.inj isShown
      exact ⟨own_id, own.reads _ _ _ _ held opened ▸ filled⟩
    · cases isShown

end RoomStore

end RyuRooms
