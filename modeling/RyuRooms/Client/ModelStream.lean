import Mathlib.Algebra.GroupWithZero.Nat
import RyuRooms.Model.AppEvents
import RyuRooms.Model.Sample
import RyuRooms.Store.Committed
import RyuRooms.Store.Rowwise

/-! # Which accepted turns the model client sends

Whatever a room was told, its texts are never empty, carry no control character the client refuses,
and are never more than forty in a snapshot. What is left of `ModelStreamRequest::validate` are its
three bounds on bytes: an accepted turn passes exactly when the room keeps to them where the turn's snapshot
is read, which is some time after its commit.
-/

namespace RyuRooms

open Foundation

namespace AppEvents

theorem refuse_ok_iff {condition : Prop} [Decidable condition] {message : String} {result : Unit} :
    refuse condition message = .ok result ↔ ¬ condition := by
  by_cases holds : condition <;> simp [refuse, holds]

/-- A message the client sends. -/
structure Fits (message : ModelStreamMessage) : Prop where
  role : message.role ∈ ["system", "user", "assistant"]
  filled : message.content ≠ ""
  bytes : message.content.utf8ByteSize ≤ MAX_MODEL_MESSAGE_BYTES
  supported : anyChar isUnsupported message.content = false

theorem validateMessages_ok_iff {messages : List ModelStreamMessage} {total result : ℕ} :
    validateMessages messages total = .ok result ↔ (∀ message ∈ messages, Fits message) ∧
      messages.foldl (fun total message => saturatingAdd total message.content.utf8ByteSize) total = result := by
  induction messages generalizing total with
  | nil => simp [validateMessages]
  | cons message rest ih =>
    simp only [validateMessages, bind_eq_ok_iff, refuse_ok_iff, ih, List.forall_mem_cons, List.foldl_cons, not_not,
      exists_const, not_or, not_lt, Bool.not_eq_true]
    constructor
    · rintro ⟨role, ⟨filled, bytes⟩, supported, rest, total⟩
      exact ⟨⟨⟨role, filled, bytes, supported⟩, rest⟩, total⟩
    · rintro ⟨⟨⟨role, filled, bytes, supported⟩, rest⟩, total⟩
      exact ⟨role, ⟨filled, bytes⟩, supported, rest, total⟩

/-- Up to its bound, a saturating sum is a sum. -/
theorem foldl_saturatingAdd_le_iff {messages : List ModelStreamMessage} {total bound : ℕ} (small : bound < 2 ^ 64 - 1) :
    messages.foldl (fun total message => saturatingAdd total message.content.utf8ByteSize) total ≤ bound ↔
      total + (messages.map fun message => message.content.utf8ByteSize).sum ≤ bound := by
  induction messages generalizing total with
  | nil => simp
  | cons message rest ih =>
    rw [List.foldl_cons, ih, List.map_cons, List.sum_cons, saturatingAdd]
    omega

/-- A text that `validate_text` accepts. -/
structure Readable (maxBytes : ℕ) (value : String) : Prop where
  visible : trim value ≠ ""
  bytes : value.utf8ByteSize ≤ maxBytes
  plain : anyChar isControl value = false

theorem validateText_ok_iff {value field : String} {maxBytes : ℕ} {result : Unit} :
    validateText value maxBytes field = .ok result ↔ Readable maxBytes value := by
  rw [validateText, refuse_ok_iff, not_or, not_or, not_lt, Bool.not_eq_true]
  exact ⟨fun ⟨visible, bytes, plain⟩ => ⟨visible, bytes, plain⟩, fun ⟨visible, bytes, plain⟩ => ⟨visible, bytes, plain⟩⟩

/-- What a request of the runtime is checked for, apart from its constants. -/
theorem validate_generationRequest_iff {accepted : AcceptedRun} :
    (generationRequest accepted).validate = .ok () ↔
      Readable MAX_MODEL_ID_BYTES accepted.snapshot.modelId ∧
      Readable MAX_MODEL_REQUEST_ID_BYTES accepted.run.requestId ∧
      (accepted.snapshot.messages ≠ [] ∧ accepted.snapshot.messages.length ≤ MAX_MODEL_MESSAGES) ∧
      (∀ message ∈ accepted.snapshot.messages, message.text ≠ "" ∧ anyChar isUnsupported message.text = false ∧
        message.text.utf8ByteSize ≤ MAX_MODEL_MESSAGE_BYTES) ∧
      (accepted.snapshot.messages.map fun message => message.text.utf8ByteSize).sum ≤ MAX_MODEL_CONTEXT_BYTES := by
  have provider : validateProvider (some "local") = .ok () := by decide +kernel
  have tokens : ¬ ∃ value ∈ some MODEL_MAX_TOKENS, value = 0 ∨ MAX_MODEL_OUTPUT_TOKENS < value := by decide +kernel
  have temperature : ¬ ∃ value ∈ some MODEL_TEMPERATURE, ¬ (0 ≤ value ∧ value ≤ 2) := by decide +kernel
  have role (message : RoomMessage) : modelRole message.role ∈ ["system", "user", "assistant"] := by
    cases message.role <;> decide
  have fits (message : RoomMessage) : Fits ⟨modelRole message.role, message.text⟩ ↔ message.text ≠ "" ∧
      anyChar isUnsupported message.text = false ∧ message.text.utf8ByteSize ≤ MAX_MODEL_MESSAGE_BYTES :=
    ⟨fun ⟨_, filled, bytes, supported⟩ => ⟨filled, supported, bytes⟩,
      fun ⟨filled, supported, bytes⟩ => ⟨role message, filled, bytes, supported⟩⟩
  simp only [StreamRequest.validate, generationRequest, modelStreamRequest, bind_eq_ok_iff, validateText_ok_iff,
    refuse_ok_iff, validateMessages_ok_iff, provider, tokens, temperature, exists_const, not_or, not_lt,
    List.map_eq_nil_iff, List.length_map, List.forall_mem_map, fits, not_false_eq_true, and_true, and_assoc,
    exists_eq_left', exists_and_left]
  rw [foldl_saturatingAdd_le_iff (by decide), zero_add, List.map_map]
  rfl

/-- A model id is checked first. -/
theorem validate_wide {accepted : AcceptedRun} (wide : MAX_MODEL_ID_BYTES < accepted.snapshot.modelId.utf8ByteSize) :
    (generationRequest accepted).validate = .error (.invalid "model is empty, too long, or invalid") := by
  have refused : validateText accepted.snapshot.modelId MAX_MODEL_ID_BYTES "model" =
      .error (.invalid "model is empty, too long, or invalid") := by
    rw [validateText, refuse, if_pos (Or.inr (Or.inl wide))]
    rfl
  simp only [StreamRequest.validate, generationRequest, modelStreamRequest, refused]
  rfl

/-- The checks of a prompt and a delta leave no character the client refuses. -/
theorem supported_of_plain {value : String} (plain : anyChar isControl value = false) :
    anyChar isUnsupported value = false := by
  simp only [anyChar, List.any_eq_false, isUnsupported, Bool.and_eq_true, not_and] at plain ⊢
  exact fun c member control => absurd control (plain c member)

theorem supported_append {left right : String} (first : anyChar isUnsupported left = false)
    (second : anyChar isUnsupported right = false) : anyChar isUnsupported (left ++ right) = false := by
  simp only [anyChar, String.toList_append, List.any_append, Bool.or_eq_false_iff] at first second ⊢
  exact ⟨first, second⟩

end AppEvents

namespace Limits

/-- A text of one repeated character is counted in characters. -/
theorem validateNonEmpty_replicate {count maxChars : ℕ} {c : Char} {field : String} (filled : count ≠ 0)
    (short : count ≤ maxChars) (visible : isWhitespace c = false) (plain : isControl c = false) :
    validateNonEmpty (String.ofList (List.replicate count c)) maxChars field =
      .ok (String.ofList (List.replicate count c)) := by
  have same : trim (String.ofList (List.replicate count c)) = String.ofList (List.replicate count c) :=
    trim_of_no_whitespace fun other member => by
      rw [String.toList_ofList] at member
      rw [List.eq_of_mem_replicate member, visible]
  have nonempty : String.ofList (List.replicate count c) ≠ "" := by simpa [String.ofList_eq_empty_iff] using filled
  simp [validateNonEmpty, same, nonempty, charCount, short, anyChar, plain]

theorem validateDelta_supported {value result : String} (valid : validateDelta value = .ok result) :
    anyChar AppEvents.isUnsupported value = false := by
  rw [validateDelta] at valid
  split at valid
  · cases valid
  · split at valid
    · cases valid
    · split at valid
      · cases valid
      · next supported => exact Bool.not_eq_true _ ▸ supported

end Limits

/-- The model ids, texts and request ids of the tables are ones the client does not refuse for their characters. -/
def sendable (form : StoreSeal.Form) : RowInv where
  room row := trim row.modelId ≠ "" ∧ anyChar isControl row.modelId = false
  message row := ∃ text, form row.text text (ctx "room_messages" "text" row.id) ∧ text ≠ "" ∧
    anyChar AppEvents.isUnsupported text = false
  run row := (∃ uuid, row.requestId = opaqueId "req_" uuid) ∧
    ∃ text, form row.partialText text (ctx "room_runs" "partial_text" row.id) ∧
      anyChar AppEvents.isUnsupported text = false
  participant _ := True

namespace Sendable

variable {form : StoreSeal.Form} {store : RoomStore} {env : Env}

theorem stable : (sendable form).Stable where
  status _ _ _ := id
  presence _ _ := id

theorem endsWith {runId : String} {message : Option String} : (sendable form).EndsWith runId message :=
  fun _ _ _ _ good _ => good

/-- No operation writes anything else, as long as every process reads back what was written. -/
theorem allows (faithful : store.sealing.Faithful form) (op : Op) : (sendable form).Allows store env op := by
  cases op with
  | createRoom input =>
    refine ⟨fun modelId _ valid => ?_, fun _ _ => trivial⟩
    obtain ⟨rfl, filled, -, plain⟩ := Limits.validateNonEmpty_ok valid
    exact ⟨trim_trim_ne_empty filled, plain⟩
  | exchangeInvite => exact fun _ _ _ _ _ => trivial
  | issueInvite | revokeInvite | closeRoom => trivial
  | appendUserTurn session input =>
    intro text valid
    obtain ⟨-, filled, -, plain⟩ := Limits.validateNonEmpty_ok valid
    exact ⟨fun cell sealed => ⟨text, faithful.writes _ _ _ _ sealed, filled, AppEvents.supported_of_plain plain⟩,
      fun _ _ cell _ sealed => ⟨⟨_, rfl⟩, "", faithful.writes _ _ _ _ sealed, rfl⟩⟩
  | appendDelta roomId runId delta =>
    rintro found run text cell ⟨-, told, held, supported⟩ rfl valid opened - sealed ⟨issued, -⟩ named
    obtain rfl := faithful.reads _ _ _ _ held opened
    exact ⟨issued, text ++ delta, named ▸ faithful.writes _ _ _ _ sealed,
      AppEvents.supported_append supported (Limits.validateDelta_supported valid)⟩
  | finishRun roomId runId terminal ends =>
    refine ⟨?_, fun _ => endsWith, fun _ _ _ _ => endsWith⟩
    rintro run text id cell ⟨-, told, held, supported⟩ rfl opened filled - sealed
    obtain rfl := faithful.reads _ _ _ _ held opened
    exact ⟨text, faithful.writes _ _ _ _ sealed, filled, supported⟩
  | stopRun => exact fun _ _ => endsWith
  | recoverRunning => exact fun _ => ⟨fun _ => endsWith, fun _ _ _ => endsWith⟩

end Sendable

/-- A turn carries the key of a turn that the room took before. -/
def Db.isRetry (db : Db) (session : RoomSession) (input : SubmitTurnInput) : Bool :=
  db.runs.rows.any fun run =>
    run.roomId == session.roomId && run.idempotencyKey.isSome && run.idempotencyKey == input.idempotencyKey.map trim

namespace RoomStore

variable {store : RoomStore} {env : Env} {source target : Db} {roomId : String}

theorem snapshotOrNotFound_shows {first : ℕ} {snapshot : RoomSnapshot}
    (success : store.snapshotOrNotFound env first roomId source = .ok snapshot target) :
    ∃ id, validateRoomId roomId = .ok id ∧ store.snapshotFrom source id = some snapshot ∧ source = target := by
  simp only [snapshotOrNotFound, RoomStore.snapshot, bind_ok_iff, returnExcept_ok_iff, orFail_ok_iff,
    Env.query_ok_iff] at success
  obtain ⟨_, _, ⟨id, _, ⟨valid, rfl⟩, _, _, ⟨-, rfl, rfl⟩, rest⟩, rfl, rfl⟩ := success
  split at rest
  · simp only [bind_ok_iff, Env.attempt_ok_iff, Env.query_ok_iff] at rest
    obtain ⟨_, _, ⟨-, rfl⟩, _, _, ⟨-, rfl⟩, -, found, rfl⟩ := rest
    exact ⟨id, valid, found, rfl⟩
  · cases (pure_ok_iff.mp rest).1

/-- A turn passes its checks, and either was submitted before or is new. -/
theorem appendTurn_cases {session : RoomSession} {input : SubmitTurnInput} {turn : AppendedTurn}
    (success : store.appendTurn env session input source = .ok turn target) :
    turn.roomId = session.roomId ∧ (∃ room ∈ source.rooms, room.id = session.roomId) ∧
      ((source.isRetry session input ∧ turn.messageId = none ∧ target = source) ∨
        (source.isRetry session input = false ∧
          ∃ key, store.insertTurn env session key (trim input.text) source = .ok turn target)) := by
  simp only [appendTurn, orInvalid, bind_ok_iff, failIf_ok_iff, returnExcept_ok_iff, mapError_eq_ok_iff, validKey_ok_iff,
    transaction_ok_iff, Env.attempt_ok_iff, Env.query_ok_iff, orFail_ok_iff] at success
  obtain ⟨_, _, ⟨-, rfl⟩, text, _, ⟨valid, rfl⟩, key, _, ⟨keyed, rfl⟩, _, _, ⟨-, rfl⟩, _, _, ⟨-, rfl, rfl⟩, room, _,
    ⟨found, rfl⟩, _, _, ⟨-, rfl⟩, retried, _, looked, rest⟩ := success
  obtain ⟨member, named⟩ := Table.find?_eq_some found
  obtain ⟨rfl, -⟩ := Limits.validateNonEmpty_ok valid
  have trimmed : key = input.idempotencyKey.map trim := by
    cases given : input.idempotencyKey with
    | none => simpa [given, pure, Except.pure, eq_comm] using keyed
    | some value =>
      rw [given, Option.mapM_some] at keyed
      cases checked : Limits.validateIdempotencyKey value with
      | error reason => simp [checked, Functor.map, Except.map] at keyed
      | ok result =>
        obtain rfl : some result = key := by simpa [checked, Functor.map, Except.map] using keyed
        rw [(Limits.validateNonEmpty_ok checked).1, Option.map_some]
  have exists_room : ∃ room ∈ source.rooms, room.id = session.roomId := ⟨room, member, by simpa using named⟩
  cases retried with
  | none =>
    obtain ⟨-, unretried, rfl⟩ := findRetried_eq_none_iff.mp looked
    obtain ⟨-, -, rfl, -⟩ := insertTurn_ok_iff.mp rest
    refine ⟨rfl, exists_room, Or.inr ⟨List.any_eq_false.mpr fun run there => ?_, key, rest⟩⟩
    simp only [Bool.and_eq_true, beq_iff_eq, not_and]
    rintro ⟨here, some⟩ same
    exact unretried (by rw [trimmed, ← same]; exact some) run (Table.mem_rows.mp there) here (by rw [trimmed, same])
  | some run =>
    simp only [retryTurn, bind_ok_iff, openCell_eq_ok_iff, failIf_ok_iff, Env.attempt_ok_iff, pure_ok_iff] at rest
    obtain ⟨_, _, ⟨-, -, rfl⟩, _, _, ⟨-, rfl⟩, _, _, ⟨-, rfl⟩, rfl, rfl⟩ := rest
    cases key with
    | none => cases (pure_ok_iff.mp looked).1
    | some value =>
      obtain ⟨-, isRun, rfl⟩ := Env.query_ok_iff.mp looked
      obtain ⟨there, chosen⟩ := Table.find?_eq_some isRun
      simp only [Bool.and_eq_true, beq_iff_eq] at chosen
      refine ⟨rfl, exists_room, Or.inl ⟨List.any_eq_true.mpr ⟨run, Table.mem_rows.mpr there, ?_⟩, rfl, rfl⟩⟩
      simp [chosen.1, chosen.2, ← trimmed]

/-- Opening a run leaves its request id alone. -/
theorem openRun_requestId {run opened : RoomRun} (success : store.openRun run = .ok opened) :
    opened.requestId = run.requestId := by
  simp only [openRun, bind_eq_ok_iff, pure, Except.pure, Except.ok.injEq] at success
  obtain ⟨_, -, _, -, rfl⟩ := success
  rfl

theorem openRunOrBlank_requestId (run : RoomRun) : (store.openRunOrBlank run).requestId = run.requestId := by
  rw [openRunOrBlank]
  split
  · next opens => exact openRun_requestId opens
  · rfl

/-- An accepted turn shows its snapshot, with its user message among the snapshot's. -/
theorem acceptTurn_shows {turn : AppendedTurn} {snapshot : RoomSnapshot} {accepted : AcceptedRun}
    (success : store.acceptTurn env turn snapshot source = .ok accepted target) :
    accepted.snapshot = snapshot ∧ (∃ message ∈ snapshot.messages, message.text = turn.text ∧
      ∀ id ∈ turn.messageId, message.id = id) := by
  simp only [acceptTurn, bind_ok_iff, orFail_ok_iff, pure_ok_iff] at success
  obtain ⟨run, _, taken, message, _, ⟨looked, rfl⟩, rfl, rfl⟩ := success
  have chosen := List.find?_some looked
  simp only [Bool.and_eq_true, beq_iff_eq, Option.all_eq_true] at chosen
  exact ⟨rfl, message, List.mem_reverse.mp (List.mem_of_find?_eq_some looked), chosen.1.2, chosen.2⟩

/-- The run an accepted turn returns has the request id of a row: of the tables that its snapshot shows, or of those
that it finds afterwards. -/
theorem acceptTurn_requestId {turn : AppendedTurn} {snapshot : RoomSnapshot} {accepted : AcceptedRun} {id : String}
    {read : Db} (shown : store.snapshotFrom read id = some snapshot)
    (success : store.acceptTurn env turn snapshot source = .ok accepted target) :
    ∃ run, (run ∈ read.runs ∨ run ∈ source.runs) ∧ accepted.run.requestId = run.requestId := by
  obtain ⟨room, -, rfl⟩ := Option.map_eq_some_iff.mp shown
  simp only [acceptTurn, bind_ok_iff, orFail_ok_iff, pure_ok_iff] at success
  obtain ⟨run, _, taken, message, _, -, rfl, rfl⟩ := success
  cases named : turn.messageId with
  | some _ =>
    simp only [acceptedRun, named, orFail_ok_iff] at taken
    obtain ⟨row, first, rfl⟩ := Option.map_eq_some_iff.mp taken.1
    have member := mem_of_mem_newest (List.mem_of_mem_head? first)
    exact ⟨row, Or.inl (Table.mem_select.mp member).1, openRunOrBlank_requestId _⟩
  | none =>
    simp only [acceptedRun, named, bind_ok_iff, orFail_ok_iff, runById, Env.query_ok_iff] at taken
    obtain ⟨_, _, ⟨found, _, ⟨-, looked, rfl⟩, opened⟩, rfl, rfl⟩ := taken
    cases found with
    | none => cases (pure_ok_iff.mp opened).1
    | some row =>
      simp only [map_ok_iff, returnExcept_ok_iff, mapError_eq_ok_iff, Option.some.injEq] at opened
      obtain ⟨_, ⟨opens, -⟩, rfl⟩ := opened
      exact ⟨row, Or.inr (Table.find?_eq_some looked).1, openRun_requestId opens⟩

/-- The texts of a room's newest messages, of those that open. -/
def newestTexts (store : RoomStore) (limit : ℕ) (db : Db) (roomId : String) : List String :=
  (newest MessageRow.createdAt MessageRow.id limit (db.messages.select (·.roomId == roomId))).filterMap fun row =>
    (store.sealing.openText row.text (ctx "room_messages" "text" row.id)).toOption

/-- The texts that a turn sends to the model: its own, where it is new, and those of the newest messages before. -/
def sentTexts (store : RoomStore) (db : Db) (session : RoomSession) (input : SubmitTurnInput) : List String :=
  if db.isRetry session input then store.newestTexts Limits.MAX_HISTORY_MESSAGES db session.roomId
  else trim input.text :: store.newestTexts (Limits.MAX_HISTORY_MESSAGES - 1) db session.roomId

theorem loadMessages_texts : (store.loadMessages source roomId).map RoomMessage.text =
    (store.newestTexts Limits.MAX_HISTORY_MESSAGES source roomId).reverse := by
  rw [loadMessages, newestTexts, ← List.filterMap_reverse, List.map_filterMap]
  refine List.filterMap_congr fun row _ => ?_
  cases store.sealing.openText row.text (ctx "room_messages" "text" row.id) <;> rfl

theorem loadMessages_length : (store.loadMessages source roomId).length ≤ Limits.MAX_HISTORY_MESSAGES := by
  rw [loadMessages]
  refine (List.length_filterMap_le _ _).trans ?_
  rw [List.length_reverse, newest]
  exact List.length_take_le _ _

/-- A new turn that its snapshot shows is one of the newest messages there, before those that were it before. -/
theorem insertTurn_newestTexts {session : RoomSession} {key : Option String} {text : String} {turn : AppendedTurn}
    (inserted : store.insertTurn env session key text source = .ok turn target) {message : RoomMessage}
    (listed : message ∈ store.loadMessages target session.roomId) (named : ∀ id ∈ turn.messageId, message.id = id)
    (told : message.text = text) :
    (store.newestTexts Limits.MAX_HISTORY_MESSAGES target session.roomId).Perm
      (text :: store.newestTexts (Limits.MAX_HISTORY_MESSAGES - 1) source session.roomId) := by
  obtain ⟨-, -, -, messageText, -, rows⟩ := insertTurn_spec inserted
  obtain ⟨-, -, rfl, -⟩ := insertTurn_ok_iff.mp inserted
  set row := newMessage session.roomId (env.now 0) .user (opaqueId "msg_" (env.uuid 0)) messageText
    (some session.participantId) with isRow
  have selected : target.messages.select (·.roomId == session.roomId) =
      source.messages.select (·.roomId == session.roomId) ++ [row] := by
    rw [Table.select, rows, List.filter_append, List.filter_singleton, isRow, newMessage, beq_self_eq_true, cond_true,
      Table.select]
  have distinct := target.messages.keys_nodup.sublist
    ((List.filter_sublist (p := fun row => row.roomId == session.roomId)).map MessageRow.id)
  obtain ⟨shown, there, read, opened, rfl⟩ := mem_loadMessages_iff.mp listed
  have member : row ∈ target.messages := Table.mem_rows.mp (by simp [rows])
  obtain rfl : shown = row :=
    Table.eq_of_key (Table.mem_select.mp (mem_of_mem_newest there)).1 member (named _ rfl)
  rw [newestTexts, selected]
  have taken := newest_append_perm (selected ▸ distinct) (selected ▸ there)
  have told : read = text := told
  rw [← told, newestTexts]
  refine (taken.filterMap _).trans (.of_eq ?_)
  rw [List.filterMap_cons, opened]
  rfl

/-- The rooms of a new turn keep their model ids. -/
theorem insertTurn_modelId {session : RoomSession} {key : Option String} {text : String} {turn : AppendedTurn}
    (inserted : store.insertTurn env session key text source = .ok turn target) {room : RoomRow}
    (member : room ∈ target.rooms) : ∃ old ∈ source.rooms, old.id = room.id ∧ old.modelId = room.modelId := by
  obtain ⟨-, -, -, _, _, _, messaged, ran, -, -, -, first, second, rfl⟩ := insertTurn_ok_iff.mp inserted
  obtain ⟨-, _, -, rfl⟩ := Db.insertMessage_eq_some_iff.mp first
  obtain ⟨-, _, -, rfl⟩ := Db.insertRun_eq_some_iff.mp second
  obtain ⟨old, there, rfl⟩ := Db.mem_setRoomStatus.mp member
  refine ⟨old, there, ?_⟩
  split <;> exact ⟨rfl, rfl⟩

/-- What a turn sends that nothing comes between is known before the turn. -/
theorem appendTurn_sends {session : RoomSession} {input : SubmitTurnInput} {turn : AppendedTurn}
    (appended : store.appendTurn env session input source = .ok turn target) {message : RoomMessage}
    (listed : message ∈ store.loadMessages target session.roomId) (told : message.text = turn.text)
    (named : ∀ id ∈ turn.messageId, message.id = id) :
    (store.newestTexts Limits.MAX_HISTORY_MESSAGES target session.roomId).Perm
      (store.sentTexts source session input) := by
  obtain ⟨-, -, cases⟩ := appendTurn_cases appended
  rw [sentTexts]
  rcases cases with ⟨retried, -, rfl⟩ | ⟨fresh, key, inserted⟩
  · rw [retried, if_pos rfl]
  · rw [fresh, if_neg Bool.false_ne_true]
    obtain ⟨-, -, isTurn, -⟩ := insertTurn_ok_iff.mp inserted
    exact insertTurn_newestTexts inserted listed named (told.trans (by rw [isTurn]))

/-- A turn leaves the rooms their model ids. -/
theorem appendTurn_modelId {session : RoomSession} {input : SubmitTurnInput} {turn : AppendedTurn}
    (appended : store.appendTurn env session input source = .ok turn target) {room : RoomRow}
    (member : room ∈ target.rooms) : ∃ old ∈ source.rooms, old.id = room.id ∧ old.modelId = room.modelId := by
  obtain ⟨-, -, ⟨-, -, rfl⟩ | ⟨-, key, inserted⟩⟩ := appendTurn_cases appended
  · exact ⟨room, member, rfl, rfl⟩
  · exact insertTurn_modelId inserted member

end RoomStore

/-- An opaque request id is one the client reads. -/
theorem readable_requestId (uuid : Uuid) :
    AppEvents.Readable AppEvents.MAX_MODEL_REQUEST_ID_BYTES (opaqueId "req_" uuid) := by
  have start : "req_".toList.all fun c => !isWhitespace c && !isControl c := by decide
  have letters : ∀ c ∈ (opaqueId "req_" uuid).toList, isWhitespace c = false ∧ isControl c = false := by
    intro c member
    rw [opaqueId, String.toList_append, List.mem_append] at member
    rcases member with first | digits
    · simpa using List.all_eq_true.mp start c first
    · obtain ⟨plain, printed, -⟩ := isHexDigit_spec (uuid.digit digits)
      exact ⟨plain, printed⟩
  have size : (opaqueId "req_" uuid).utf8ByteSize = 36 := by
    rw [opaqueId, String.utf8ByteSize_append, uuid.utf8ByteSize_simple]
    rfl
  refine ⟨?_, by rw [size]; decide, by simpa [anyChar] using fun c member => (letters c member).2⟩
  rw [trim_of_no_whitespace fun c member => (letters c member).1]
  intro empty
  rw [empty] at size
  cases size

/-- A room keeps to the bytes that the client allows a model id, a message and a context. -/
structure RoomStore.SendsWithin (store : RoomStore) (db : Db) (roomId : String) : Prop where
  modelId : ∀ room ∈ db.rooms, room.id = roomId → room.modelId.utf8ByteSize ≤ AppEvents.MAX_MODEL_ID_BYTES
  message : ∀ text ∈ store.newestTexts Limits.MAX_HISTORY_MESSAGES db roomId,
    text.utf8ByteSize ≤ AppEvents.MAX_MODEL_MESSAGE_BYTES
  context : ((store.newestTexts Limits.MAX_HISTORY_MESSAGES db roomId).map String.utf8ByteSize).sum ≤
    AppEvents.MAX_MODEL_CONTEXT_BYTES

/-- A room will keep to those bytes with a turn that is submitted to it. -/
structure RoomStore.SubmitsWithin (store : RoomStore) (db : Db) (session : RoomSession) (input : SubmitTurnInput) :
    Prop where
  modelId : ∀ room ∈ db.rooms, room.id = session.roomId → room.modelId.utf8ByteSize ≤ AppEvents.MAX_MODEL_ID_BYTES
  message : ∀ text ∈ store.sentTexts db session input, text.utf8ByteSize ≤ AppEvents.MAX_MODEL_MESSAGE_BYTES
  context : ((store.sentTexts db session input).map String.utf8ByteSize).sum ≤ AppEvents.MAX_MODEL_CONTEXT_BYTES

section Requests

variable {crates : Crates} {attempts between after : List Attempt} {db middle later last target : Db}
  {form : StoreSeal.Form} {sealing : StoreSeal} {env : Env} {session : RoomSession} {input : SubmitTurnInput}
  {turn : RoomStore.AppendedTurn} {snapshot : RoomSnapshot} {accepted : AcceptedRun}

/-- What a turn commits is what the whole call leaves. -/
theorem run_of_appendTurn (run : (faultMachine crates).Run attempts db)
    (committed : RoomStore.appendTurn ⟨crates, sealing⟩ env session input db = .ok turn middle) :
    (faultMachine crates).Run (attempts ++ [⟨sealing, env, .appendUserTurn session input⟩]) middle := by
  refine run.append (Machine.path_cons_iff.mpr ⟨middle, congrArg some ?_, Machine.path_nil_iff.mpr rfl⟩)
  rw [Attempt.exec, Op.action, map_eq_pure_bind, ReadOnly.outcome_bind fun _ => .pure _, RoomStore.appendUserTurn,
    ReadOnly.outcome_bind fun _ => .bind (RoomStore.snapshotOrNotFound_readOnly _ _) fun _ =>
      RoomStore.acceptTurn_readOnly _ _, outcome_ok_iff.mpr committed]

/-- What the client checks of an accepted turn is left to the bytes of the tables that its snapshot shows. -/
theorem RoomStore.sendsWithin_iff (stored : later.Every (sendable form)) (answers : last.Every (sendable form))
    (own : sealing.Faithful form) {roomId : String}
    (shown : (RoomStore.mk crates sealing).snapshotFrom later roomId = some snapshot)
    (accepts : RoomStore.acceptTurn ⟨crates, sealing⟩ env turn snapshot last = .ok accepted target) :
    (AppEvents.generationRequest accepted).validate = .ok () ↔
      RoomStore.SendsWithin ⟨crates, sealing⟩ later roomId := by
  obtain ⟨isShown, message, listed, -⟩ := RoomStore.acceptTurn_shows accepts
  obtain ⟨row, there, requestId⟩ := RoomStore.acceptTurn_requestId shown accepts
  obtain ⟨uuid, isRequest⟩ : ∃ uuid, row.requestId = opaqueId "req_" uuid :=
    there.elim (fun held => (stored.runs row held).1) fun held => (answers.runs row held).1
  obtain ⟨room, found, isSnapshot⟩ := Option.map_eq_some_iff.mp shown
  obtain ⟨member, named⟩ := Table.find?_eq_some found
  have messages : accepted.snapshot.messages = RoomStore.loadMessages ⟨crates, sealing⟩ later roomId := by
    rw [isShown, ← isSnapshot]
  have modelId : accepted.snapshot.modelId = room.modelId := by rw [isShown, ← isSnapshot]
  have supported : ∀ message ∈ accepted.snapshot.messages,
      message.text ≠ "" ∧ anyChar AppEvents.isUnsupported message.text = false := by
    rw [messages]
    intro message listed
    obtain ⟨row, newest, read, opened, rfl⟩ := RoomStore.mem_loadMessages_iff.mp listed
    obtain ⟨text, told, filled, plain⟩ := stored.messages row (Table.mem_select.mp (mem_of_mem_newest newest)).1
    obtain rfl := own.reads _ _ _ _ told opened
    exact ⟨filled, plain⟩
  obtain ⟨visible, plain⟩ := stored.rooms room member
  have sent : (accepted.snapshot.messages.map RoomMessage.text).Perm
      (RoomStore.newestTexts ⟨crates, sealing⟩ Limits.MAX_HISTORY_MESSAGES later roomId) := by
    rw [messages, RoomStore.loadMessages_texts]
    exact List.reverse_perm _
  have texts := sent.map String.utf8ByteSize
  rw [List.map_map] at texts
  have sum : (accepted.snapshot.messages.map fun message => message.text.utf8ByteSize).sum = _ := texts.sum_nat
  have bounded (bound : ℕ) : (∀ message ∈ accepted.snapshot.messages, message.text.utf8ByteSize ≤ bound) ↔
      ∀ text ∈ RoomStore.newestTexts ⟨crates, sealing⟩ Limits.MAX_HISTORY_MESSAGES later roomId,
        text.utf8ByteSize ≤ bound := by
    simp only [← sent.mem_iff, List.forall_mem_map]
  rw [AppEvents.validate_generationRequest_iff, sum, modelId]
  constructor
  · rintro ⟨idBytes, -, -, each, total⟩
    refine ⟨fun other known same => ?_, (bounded _).mp fun message listed => (each message listed).2.2, total⟩
    obtain rfl : other = room := Table.eq_of_key known member (same.trans (eq_of_beq named).symm)
    exact idBytes.bytes
  · rintro ⟨idBytes, each, total⟩
    refine ⟨⟨visible, idBytes room member (eq_of_beq named), plain⟩, requestId ▸ isRequest ▸ readable_requestId uuid,
      ⟨List.ne_nil_of_mem (isShown ▸ listed), ?_⟩, fun message listed => ?_, total⟩
    · rw [messages]
      exact RoomStore.loadMessages_length
    · obtain ⟨filled, sound⟩ := supported message listed
      exact ⟨filled, sound, (bounded _).mpr each message listed⟩

/-- Where nothing comes between a commit and its snapshot, the bytes are known before the turn. -/
theorem RoomStore.sendsWithin_iff_submitsWithin
    (committed : RoomStore.appendTurn ⟨crates, sealing⟩ env session input db = .ok turn middle)
    (shown : (RoomStore.mk crates sealing).snapshotFrom middle session.roomId = some snapshot)
    (accepts : RoomStore.acceptTurn ⟨crates, sealing⟩ env turn snapshot last = .ok accepted target) :
    RoomStore.SendsWithin ⟨crates, sealing⟩ middle session.roomId ↔
      RoomStore.SubmitsWithin ⟨crates, sealing⟩ db session input := by
  obtain ⟨-, message, listed, told, named⟩ := RoomStore.acceptTurn_shows accepts
  obtain ⟨room, found, isSnapshot⟩ := Option.map_eq_some_iff.mp shown
  have messages : snapshot.messages = RoomStore.loadMessages ⟨crates, sealing⟩ middle session.roomId := by
    rw [← isSnapshot]
  have sent := RoomStore.appendTurn_sends committed (messages ▸ listed) told named
  have sum := (sent.map String.utf8ByteSize).sum_nat
  have modelIds : (∀ room ∈ middle.rooms, room.id = session.roomId →
      room.modelId.utf8ByteSize ≤ AppEvents.MAX_MODEL_ID_BYTES) ↔ ∀ room ∈ db.rooms, room.id = session.roomId →
        room.modelId.utf8ByteSize ≤ AppEvents.MAX_MODEL_ID_BYTES := by
    obtain ⟨there, isRoom⟩ := Table.find?_eq_some found
    obtain ⟨old, held, oldId, oldModel⟩ := RoomStore.appendTurn_modelId committed there
    have only {other : RoomRow} (known : other ∈ db.rooms) (same : other.id = session.roomId) : other = old :=
      Table.eq_of_key known held (same.trans ((eq_of_beq isRoom).symm.trans oldId.symm))
    have still {other : RoomRow} (known : other ∈ middle.rooms) (same : other.id = session.roomId) : other = room :=
      Table.eq_of_key known there (same.trans (eq_of_beq isRoom).symm)
    constructor
    · intro within other known same
      rw [only known same, oldModel]
      exact within room there (eq_of_beq isRoom)
    · intro within other known same
      rw [still known same, ← oldModel]
      exact within old held (oldId.trans (eq_of_beq isRoom))
  constructor
  · rintro ⟨modelId, each, total⟩
    exact ⟨modelIds.mp modelId, fun text member => each text (sent.mem_iff.mpr member), sum ▸ total⟩
  · rintro ⟨modelId, each, total⟩
    exact ⟨modelIds.mpr modelId, fun text member => each text (sent.mem_iff.mp member), sum.symm ▸ total⟩

/-- The client sends an accepted turn exactly when its room keeps to the bounds on bytes where the turn's snapshot is
read, whatever other calls do between the commit, the snapshot and the end of the call. Where nothing comes between
the commit and the snapshot, that is when the room kept to them before, with the turn's own text. -/
theorem request_valid_iff (run : (faultMachine crates).Run attempts db)
    (committed : RoomStore.appendTurn ⟨crates, sealing⟩ env session input db = .ok turn middle)
    (gap : (faultMachine crates).Path middle between later)
    (read : RoomStore.snapshotOrNotFound ⟨crates, sealing⟩ env 13 turn.roomId later = .ok snapshot later)
    (rest : (faultMachine crates).Path later after last)
    (accepts : RoomStore.acceptTurn ⟨crates, sealing⟩ env turn snapshot last = .ok accepted target)
    (faithful : ∀ attempt ∈ attempts ++ between ++ after, attempt.sealing.Faithful form)
    (own : sealing.Faithful form) :
    ((AppEvents.generationRequest accepted).validate = .ok () ↔
      RoomStore.SendsWithin ⟨crates, sealing⟩ later session.roomId) ∧
    (between = [] → (RoomStore.SendsWithin ⟨crates, sealing⟩ later session.roomId ↔
      RoomStore.SubmitsWithin ⟨crates, sealing⟩ db session input)) := by
  have reached := (run_of_appendTurn run committed).append gap
  have every {past : List Attempt} {state : Db} (run : (faultMachine crates).Run past state)
      (among : ∀ attempt ∈ past, attempt.sealing.Faithful form) : state.Every (sendable form) :=
    .of_run Sendable.stable run fun attempt member => Sendable.allows (among attempt member) _
  have among : ∀ attempt ∈ attempts ++ [⟨sealing, env, .appendUserTurn session input⟩] ++ between ++ after,
      attempt.sealing.Faithful form := by
    simp only [List.mem_append, List.mem_singleton] at faithful ⊢
    rintro attempt (((early | rfl) | gap) | late)
    · exact faithful attempt (Or.inl (Or.inl early))
    · exact own
    · exact faithful attempt (Or.inl (Or.inr gap))
    · exact faithful attempt (Or.inr late)
  obtain ⟨owned, ⟨room, member, isRoom⟩, -⟩ := RoomStore.appendTurn_cases committed
  obtain ⟨id, valid, shown, -⟩ := RoomStore.snapshotOrNotFound_shows read
  rw [owned, ← isRoom, (Db.Rooted.of_run run).rooms room member, Except.ok.injEq] at valid
  obtain rfl : id = session.roomId := valid.symm.trans isRoom
  refine ⟨RoomStore.sendsWithin_iff (every reached fun attempt member => among attempt (List.mem_append_left _ member))
    (every (reached.append rest) among) own shown accepts, ?_⟩
  rintro rfl
  obtain rfl := Machine.path_nil_iff.mp gap
  exact RoomStore.sendsWithin_iff_submitsWithin committed shown accepts

end Requests

namespace Sample

/-- A room is created with a model id. -/
def creating (modelId : String) : List Attempt := [⟨.compat, (draws 1 10).env, .createRoom ⟨modelId, origin⟩⟩]

/-- What the first turn of the sample room returns. -/
def accept (db : Db) : Except StoreError AcceptedRun × Db :=
  outcome (store.appendUserTurn (draws 11 20).env host ⟨"hello", none⟩) db

theorem accept_of_any {holds : AcceptedRun → Bool} {db : Db} (checked : (accept db).1.toOption.any holds) :
    ∃ accepted target, store.appendUserTurn (draws 11 20).env host ⟨"hello", none⟩ db = .ok accepted target ∧
      holds accepted := by
  cases accepts : (accept db).1 with
  | error error => simp [accepts, Except.toOption] at checked
  | ok accepted =>
    rw [accepts] at checked
    exact ⟨accepted, (accept db).2, outcome_ok_iff.mp (Prod.ext accepts rfl), checked⟩

/-- A model id of 256 letters of two bytes each. -/
def wideModelId : String := String.ofList (List.replicate 256 'é')

end Sample

namespace Sample

/-- The model answers the first turn of the sample room before the turn's snapshot is read. -/
def early : Attempt := ⟨.compat, (draws 21 30).env, .appendDelta host.roomId (draws 11 20).newRunId "Hi"⟩

/-- The first turn of the sample room, with that delta between its commit and its snapshot. -/
def acceptLate : StoreM AcceptedRun := do
  let turn ← store.appendTurn (draws 11 20).env host ⟨"hello", none⟩
  modify fun db => (early.exec crates db).2
  let snapshot ← store.snapshotOrNotFound (draws 11 20).env 13 turn.roomId
  store.acceptTurn (draws 11 20).env turn snapshot

end Sample

/-- A turn with a delta between its commit and its snapshot is sent where its room keeps to the bounds. -/
theorem request_valid_iff_creating :
    ∃ db turn middle snapshot accepted, (faultMachine Sample.crates).Run (Sample.creating "llama") db ∧
      Sample.store.appendTurn (Sample.draws 11 20).env Sample.host ⟨"hello", none⟩ db = .ok turn middle ∧
      Sample.store.snapshotOrNotFound (Sample.draws 11 20).env 13 turn.roomId (Sample.early.exec Sample.crates middle).2 =
        .ok snapshot (Sample.early.exec Sample.crates middle).2 ∧
      Sample.store.acceptTurn (Sample.draws 11 20).env turn snapshot (Sample.early.exec Sample.crates middle).2 =
        .ok accepted (Sample.early.exec Sample.crates middle).2 ∧
      ((AppEvents.generationRequest accepted).validate = .ok () ↔
        Sample.store.SendsWithin (Sample.early.exec Sample.crates middle).2 Sample.host.roomId) := by
  have checked : ∃ db, (faultMachine Sample.crates).Run (Sample.creating "llama") db ∧
      (outcome Sample.acceptLate db).1.toOption.any fun _ => decide True :=
    Machine.Run.of_check rfl (by decide +kernel)
  obtain ⟨db, run, accepts⟩ := checked
  obtain ⟨accepted, target, success, -⟩ := @exists_ok_of_check _ _ _ Sample.acceptLate db (fun _ _ => True) _ accepts
  obtain ⟨turn, middle, committed, success⟩ := bind_ok_iff.mp success
  obtain ⟨_, later, changed, success⟩ := bind_ok_iff.mp success
  obtain rfl : (Sample.early.exec Sample.crates middle).2 = later := (EStateM.Result.ok.inj changed).2
  obtain ⟨snapshot, shown, read, success⟩ := bind_ok_iff.mp success
  obtain rfl := (RoomStore.snapshotOrNotFound_readOnly _ _).of_ok read
  obtain rfl := (RoomStore.acceptTurn_readOnly _ _).of_ok success
  have lawful : StoreSeal.compat.Lawful := trivial
  have path : (faultMachine Sample.crates).Path middle [Sample.early] (Sample.early.exec Sample.crates middle).2 :=
    Machine.path_cons_iff.mpr ⟨_, rfl, Machine.path_nil_iff.mpr rfl⟩
  have faithful : ∀ attempt ∈ Sample.creating "llama" ++ [Sample.early] ++ [],
      attempt.sealing.Faithful fun cell value context => ∃ nonce, StoreSeal.compat.sealText nonce value context = .ok cell := by
    simp only [Sample.creating, List.append_nil, List.cons_append, List.nil_append, List.forall_mem_cons]
    exact ⟨lawful.faithful, lawful.faithful, nofun⟩
  exact ⟨db, turn, middle, snapshot, accepted, run, committed, read, success,
    (request_valid_iff run committed path read (Machine.path_nil_iff.mpr rfl) success faithful lawful.faithful).1⟩

/-- A room takes a model id that the client does not send. -/
theorem wide_model_id_refused : ∃ db accepted target,
    (faultMachine Sample.crates).Run (Sample.creating Sample.wideModelId) db ∧
    Sample.store.appendUserTurn (Sample.draws 11 20).env Sample.host ⟨"hello", none⟩ db = .ok accepted target ∧
    (AppEvents.generationRequest accepted).validate = .error (.invalid "model is empty, too long, or invalid") := by
  have valid : Limits.validateModelId Sample.wideModelId = .ok Sample.wideModelId :=
    Limits.validateNonEmpty_replicate (by decide) (by decide) (by decide) (by decide)
  have checked : ∃ db, (faultMachine Sample.crates).Run (Sample.creating Sample.wideModelId) db ∧
      (Sample.accept db).1.toOption.any fun accepted =>
        AppEvents.MAX_MODEL_ID_BYTES < accepted.snapshot.modelId.utf8ByteSize := by
    refine Machine.Run.of_check rfl ?_
    -- the model id itself is too long to evaluate
    simp only [Sample.creating, Machine.run?, List.foldlM, faultMachine, Attempt.exec, Op.action, RoomStore.createRoom,
      valid]
    decide +kernel
  obtain ⟨db, run, accepts⟩ := checked
  obtain ⟨accepted, target, success, wide⟩ := Sample.accept_of_any accepts
  exact ⟨db, accepted, target, run, success, AppEvents.validate_wide (of_decide_eq_true wide)⟩

end RyuRooms
