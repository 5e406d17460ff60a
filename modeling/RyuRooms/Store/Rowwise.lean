import RyuRooms.Store.Torn

/-! # Properties of single rows

Most of what the tables promise about texts is a property of each row on its own. `RowInv.Allows` lists
what an operation must not break, given what it checked and sealed before it wrote, and a call then
keeps every row good, wherever it fails.
-/

namespace RyuRooms

open Foundation

/-- A property of the rows of each table that holds texts. -/
structure RowInv where
  room : RoomRow → Prop
  message : MessageRow → Prop
  run : RunRow → Prop
  participant : ParticipantRow → Prop

/-- Every row is good. -/
structure Db.Every (inv : RowInv) (db : Db) : Prop where
  rooms : ∀ room ∈ db.rooms, inv.room room
  messages : ∀ message ∈ db.messages, inv.message message
  runs : ∀ run ∈ db.runs, inv.run run
  participants : ∀ participant ∈ db.participants, inv.participant participant

namespace RowInv

/-- Statuses, time stamps and presence do not matter. -/
structure Stable (inv : RowInv) : Prop where
  status : ∀ room status now, inv.room room → inv.room { room with status, updatedAt := now }
  presence : ∀ participant online, inv.participant participant → inv.participant { participant with online }

/-- A run may end with this error message. -/
def EndsWith (inv : RowInv) (runId : String) (message : Option String) : Prop :=
  ∀ run status errorCode finishedAt, inv.run run → run.id = runId →
    inv.run { run with status, errorCode, errorMessage := message, finishedAt }

/-- What the operation writes is good. -/
def Allows (inv : RowInv) (store : RoomStore) (env : Env) : Op → Prop
  | .createRoom input =>
    (∀ modelId shareOrigin, Limits.validateModelId input.modelId = .ok modelId →
      inv.room (newRoom env.newRoomId (env.now 0) modelId shareOrigin)) ∧
    ∀ cell, store.sealing.sealText (env.nonce 0) "Host" (ctx "room_participants" "display_name" env.newMemberId) =
        .ok cell →
      inv.participant (newParticipant env.newRoomId (env.now 0) .host env.newMemberId cell)
  | .exchangeInvite _ displayName => ∀ name cell roomId, Limits.validateDisplayName displayName = .ok name →
      store.sealing.sealText (env.nonce 0) name (ctx "room_participants" "display_name" env.newMemberId) =
        .ok cell →
      inv.participant (newParticipant roomId (env.now 0) .guest env.newMemberId cell)
  | .issueInvite _ | .revokeInvite _ | .closeRoom _ => True
  | .appendUserTurn session input => ∀ text, Limits.validatePrompt input.text = .ok text →
    (∀ cell, store.sealing.sealText (env.nonce 0) text (ctx "room_messages" "text" env.newMessageId) =
        .ok cell →
      inv.message (newMessage session.roomId (env.now 0) .user env.newMessageId cell
        (some session.participantId))) ∧
    ∀ key inputText partialText, store.sealing.sealText (env.nonce 1) text (ctx "room_runs" "input_text" env.newRunId) =
        .ok inputText →
      store.sealing.sealText (env.nonce 2) "" (ctx "room_runs" "partial_text" env.newRunId) =
        .ok partialText →
      inv.run (newRun session.roomId (env.now 0) env.newRunId env.newRequestId key inputText partialText)
  | .appendDelta _ runId delta => ∀ found run text cell, inv.run found → found.id = runId →
      Limits.validateDelta delta = .ok delta →
      store.sealing.openText found.partialText (ctx "room_runs" "partial_text" runId) = .ok text →
      charCount (text ++ delta) ≤ Limits.MAX_MESSAGE_CHARS →
      store.sealing.sealText (env.nonce 0) (text ++ delta) (ctx "room_runs" "partial_text" runId) = .ok cell →
      inv.run run → run.id = runId → inv.run { run with partialText := cell }
  | .finishRun _ runId terminal _ =>
    (∀ run text id cell, inv.run run → run.id = runId →
      store.sealing.openText run.partialText (ctx "room_runs" "partial_text" runId) = .ok text → text ≠ "" →
      terminal.status = .completed →
      store.sealing.sealText (env.nonce 0) text (ctx "room_messages" "text" env.newMessageId) = .ok cell →
      inv.message (newMessage id (env.now 0) .assistant env.newMessageId cell none)) ∧
    (terminal.errorMessage = none → inv.EndsWith runId none) ∧
    ∀ value cell, terminal.errorMessage = some value →
      store.sealing.sealText (env.nonce 1) value (ctx "room_runs" "error_message" runId) = .ok cell →
      inv.EndsWith runId (some cell)
  | .stopRun _ runId => ∀ cell, store.sealing.sealText (env.nonce 0) "generation stopped"
      (ctx "room_runs" "error_message" runId) = .ok cell → inv.EndsWith runId (some cell)
  | .recoverRunning => ∀ runId,
    (store.sealing.ensureWritable ≠ .ok () → inv.EndsWith runId none) ∧
    ∀ nonce cell, store.sealing.sealText nonce "generation interrupted by node restart"
      (ctx "room_runs" "error_message" runId) = .ok cell → inv.EndsWith runId (some cell)

end RowInv

namespace Db.Every

variable {inv : RowInv} {db next : Db}

section Statements

theorem updateRooms {choose : RoomRow → Bool} {assign : RoomRow → RoomRow} {keeps : ∀ row, (assign row).id = row.id}
    (good : ∀ row, inv.room row → inv.room (assign row)) (every : db.Every inv) :
    { db with rooms := db.rooms.update choose assign keeps }.Every inv := by
  refine ⟨fun room member => ?_, every.messages, every.runs, every.participants⟩
  obtain ⟨old, there, rfl⟩ := (@Table.mem_update _ _ _ _ _ _ keeps _).mp member
  split
  · exact good old (every.rooms old there)
  · exact every.rooms old there

theorem updateRuns {choose : RunRow → Bool} {assign : RunRow → RunRow} {keeps : ∀ row, (assign row).id = row.id}
    (good : ∀ row, choose row → inv.run row → inv.run (assign row)) (every : db.Every inv) :
    { db with runs := db.runs.update choose assign keeps }.Every inv := by
  refine ⟨every.rooms, every.messages, fun run member => ?_, every.participants⟩
  obtain ⟨old, there, rfl⟩ := (@Table.mem_update _ _ _ _ _ _ keeps _).mp member
  split
  · next chosen => exact good old chosen (every.runs old there)
  · exact every.runs old there

theorem updateParticipants {choose : ParticipantRow → Bool} {assign : ParticipantRow → ParticipantRow}
    {keeps : ∀ row, (assign row).id = row.id} (good : ∀ row, inv.participant row → inv.participant (assign row))
    (every : db.Every inv) : { db with participants := db.participants.update choose assign keeps }.Every inv := by
  refine ⟨every.rooms, every.messages, every.runs, fun participant member => ?_⟩
  obtain ⟨old, there, rfl⟩ := (@Table.mem_update _ _ _ _ _ _ keeps _).mp member
  split
  · exact good old (every.participants old there)
  · exact every.participants old there

theorem insertRoom {row : RoomRow} (good : inv.room row) (every : db.Every inv)
    (inserted : db.insertRoom row = some next) : next.Every inv := by
  obtain ⟨rooms, added, rfl⟩ := insertRoom_eq_some_iff.mp inserted
  refine ⟨fun room member => ?_, every.messages, every.runs, every.participants⟩
  rcases (Table.mem_of_insert? added).mp member with there | rfl
  · exact every.rooms room there
  · exact good

theorem insertMessage {row : MessageRow} (good : inv.message row) (every : db.Every inv)
    (inserted : db.insertMessage row = some next) : next.Every inv := by
  obtain ⟨-, messages, added, rfl⟩ := insertMessage_eq_some_iff.mp inserted
  refine ⟨every.rooms, fun message member => ?_, every.runs, every.participants⟩
  rcases (Table.mem_of_insert? added).mp member with there | rfl
  · exact every.messages message there
  · exact good

theorem insertRun {row : RunRow} (good : inv.run row) (every : db.Every inv)
    (inserted : db.insertRun row = some next) : next.Every inv := by
  obtain ⟨-, runs, added, rfl⟩ := insertRun_eq_some_iff.mp inserted
  refine ⟨every.rooms, every.messages, fun run member => ?_, every.participants⟩
  rcases (Table.mem_of_insert? added).mp member with there | rfl
  · exact every.runs run there
  · exact good

theorem insertParticipant {row : ParticipantRow} (good : inv.participant row) (every : db.Every inv)
    (inserted : db.insertParticipant row = some next) : next.Every inv := by
  obtain ⟨-, participants, added, rfl⟩ := insertParticipant_eq_some_iff.mp inserted
  refine ⟨every.rooms, every.messages, every.runs, fun participant member => ?_⟩
  rcases (Table.mem_of_insert? added).mp member with there | rfl
  · exact every.participants participant there
  · exact good

theorem insertInvite {row : InviteRow} (every : db.Every inv) (inserted : db.insertInvite row = some next) :
    next.Every inv := by
  obtain ⟨-, _, -, rfl⟩ := insertInvite_eq_some_iff.mp inserted
  exact ⟨every.rooms, every.messages, every.runs, every.participants⟩

theorem insertSession {row : SessionRow} (every : db.Every inv) (inserted : db.insertSession row = some next) :
    next.Every inv := by
  obtain ⟨-, _, -, rfl⟩ := insertSession_eq_some_iff.mp inserted
  exact ⟨every.rooms, every.messages, every.runs, every.participants⟩

/-- Deleting rows, or changing invites and sessions, spoils nothing. -/
theorem of_subset (every : db.Every inv) (rooms : ∀ row ∈ next.rooms, row ∈ db.rooms)
    (messages : ∀ row ∈ next.messages, row ∈ db.messages) (runs : ∀ row ∈ next.runs, row ∈ db.runs)
    (participants : ∀ row ∈ next.participants, row ∈ db.participants) : next.Every inv :=
  ⟨fun row member => every.rooms row (rooms row member), fun row member => every.messages row (messages row member),
    fun row member => every.runs row (runs row member),
    fun row member => every.participants row (participants row member)⟩

end Statements

section Operations

variable {store : RoomStore} {env : Env} {roomId runId : String}

theorem keeps_setRoomStatus (stable : inv.Stable) {status : RoomStatus → RoomStatus} {now : Instant} (point : ℕ) :
    Keeps (Every inv) (env.execute point (Db.setRoomStatus roomId status now)) :=
  env.execute_keeps (fun _ => updateRooms fun _ => stable.status _ _ _) point

/-- A statement on invites and sessions, or one that only deletes. -/
theorem keeps_deleting {statement : Db → Db × ℕ} (rooms : ∀ db, (statement db).1.rooms = db.rooms)
    (messages : ∀ db, ∀ row ∈ (statement db).1.messages, row ∈ db.messages)
    (runs : ∀ db, ∀ row ∈ (statement db).1.runs, row ∈ db.runs)
    (participants : ∀ db, ∀ row ∈ (statement db).1.participants, row ∈ db.participants) (point : ℕ) :
    Keeps (Every inv) (env.execute point statement) :=
  env.execute_keeps (fun db every => every.of_subset (fun _ member => rooms db ▸ member) (messages db) (runs db)
    (participants db)) point

theorem keeps_access {statement : Db → Db × ℕ} (rooms : ∀ db, (statement db).1.rooms = db.rooms)
    (messages : ∀ db, (statement db).1.messages = db.messages) (runs : ∀ db, (statement db).1.runs = db.runs)
    (participants : ∀ db, ∀ row ∈ (statement db).1.participants, row ∈ db.participants) (point : ℕ) :
    Keeps (Every inv) (env.execute point statement) :=
  keeps_deleting rooms (fun db _ member => messages db ▸ member) (fun db _ member => runs db ▸ member) participants point

theorem keeps_createRoom {input : CreateRoomInput} (allows : inv.Allows store env (.createRoom input)) :
    Keeps (Every inv) (store.createRoom env input) := by
  obtain ⟨rooms, hosts⟩ := allows
  refine .bind_of (fun modelId => Limits.validateModelId input.modelId = .ok modelId) (ReadOnly.returnExcept _).keeps
    (fun _ _ _ _ valid => mapError_eq_ok_iff.mp (returnExcept_ok_iff.mp valid).1) fun modelId valid =>
    .bind (ReadOnly.returnExcept _).keeps fun origin =>
    .bind_of _ (RoomStore.sealCell_readOnly _ _ _ _).keeps
      (fun _ _ _ _ sealed => (RoomStore.sealCell_eq_ok_iff.mp sealed).2.1) fun name sealed => .bind (.transaction ?_)
    fun _ => .bind (RoomStore.snapshotOrNotFound_readOnly _ _).keeps fun _ => (ReadOnly.pure _).keeps
  exact .bind (env.attempt_readOnly _).keeps fun _ =>
    .bind (env.insert_keeps (fun _ _ => insertRoom (rooms _ _ valid)) _) fun _ =>
    .bind (env.insert_keeps (fun _ _ => insertInvite) _) fun _ =>
    .bind (env.insert_keeps (fun _ _ => insertParticipant (hosts _ sealed)) _) fun _ => (env.attempt_readOnly _).keeps

theorem keeps_exchangeInvite {raw displayName : String} (allows : inv.Allows store env (.exchangeInvite raw displayName)) :
    Keeps (Every inv) (store.exchangeInvite env raw displayName) := by
  refine .bind_of (fun name => Limits.validateDisplayName displayName = .ok name) (ReadOnly.returnExcept _).keeps
    (fun _ _ _ _ valid => mapError_eq_ok_iff.mp (returnExcept_ok_iff.mp valid).1) fun name valid =>
    .bind (ReadOnly.failIf _ _).keeps fun _ => .bind_of _ (RoomStore.sealCell_readOnly _ _ _ _).keeps
      (fun _ _ _ _ sealed => (RoomStore.sealCell_eq_ok_iff.mp sealed).2.1) fun cell sealed => .bind (.transaction ?_)
    fun _ => (ReadOnly.pure _).keeps
  exact .bind (env.attempt_readOnly _).keeps fun _ => .bind (env.query_readOnly _ _).keeps fun _ =>
    .bind (ReadOnly.orFail _ _).keeps fun _ => .bind (ReadOnly.failIf _ _).keeps fun _ =>
    .bind (env.query_readOnly _ _).keeps fun _ => .bind (ReadOnly.orFail _ _).keeps fun _ =>
    .bind (ReadOnly.failIf _ _).keeps fun _ => .bind (env.query_readOnly _ _).keeps fun _ =>
    .bind (ReadOnly.failIf _ _).keeps fun _ =>
    .bind (env.insert_keeps (fun _ _ => insertParticipant (allows _ _ _ valid sealed)) _) fun _ =>
    .bind (env.insert_keeps (fun _ _ => insertSession) _) fun _ => .bind (env.attempt_readOnly _).keeps fun _ =>
    (ReadOnly.pure _).keeps

theorem keeps_issueInvite : Keeps (Every inv) (store.issueInvite env roomId) := by
  refine .bind (ReadOnly.returnExcept _).keeps fun known => .bind (.transaction ?_) fun _ => (ReadOnly.pure _).keeps
  exact .bind (env.attempt_readOnly _).keeps fun _ => .bind (env.query_readOnly _ _).keeps fun _ =>
    .bind (ReadOnly.orFail _ _).keeps fun _ => .bind (ReadOnly.failIf _ _).keeps fun _ =>
    .bind (keeps_access (fun _ => rfl) (fun _ => rfl) (fun _ => rfl) (fun _ _ => id) _) fun _ =>
    .bind (ReadOnly.failIf _ _).keeps fun _ =>
    .bind (keeps_access (fun _ => rfl) (fun _ => rfl) (fun _ => rfl) (fun _ _ => id) _) fun _ =>
    .bind (keeps_access (fun _ => rfl) (fun _ => rfl) (fun _ => rfl)
      (fun _ _ member => (mem_deleteGuests_participants.mp member).1) _) fun _ =>
    .bind (env.attempt_readOnly _).keeps fun _ => (ReadOnly.pure _).keeps

theorem keeps_revokeInvite : Keeps (Every inv) (RoomStore.revokeInvite env roomId) :=
  .bind (ReadOnly.returnExcept _).keeps fun _ =>
    .bind (keeps_access (fun _ => rfl) (fun _ => rfl) (fun _ => rfl) (fun _ _ => id) _) fun _ =>
    .bind (ReadOnly.failIf _ _).keeps fun _ =>
    .bind (keeps_access (fun _ => rfl) (fun _ => rfl) (fun _ => rfl) (fun _ _ => id) _) fun _ =>
    .bind (keeps_access (fun _ => rfl) (fun _ => rfl) (fun _ => rfl)
      (fun _ _ member => (mem_deleteGuests_participants.mp member).1) _) fun _ => (ReadOnly.pure _).keeps

theorem keeps_closeRoom (stable : inv.Stable) : Keeps (Every inv) (RoomStore.closeRoom env roomId) :=
  .bind (ReadOnly.returnExcept _).keeps fun _ =>
    .bind (env.execute_keeps (fun _ => updateRooms fun _ => stable.status _ _ _) _) fun _ =>
    .bind (ReadOnly.failIf _ _).keeps fun _ =>
    .bind (keeps_access (fun _ => rfl) (fun _ => rfl) (fun _ => rfl) (fun _ _ => id) _) fun _ =>
    .bind (keeps_access (fun _ => rfl) (fun _ => rfl) (fun _ => rfl) (fun _ _ => id) _) fun _ =>
    .bind (env.execute_keeps (fun _ => updateParticipants fun _ => stable.presence _ _) _) fun _ =>
    (ReadOnly.pure _).keeps

theorem keeps_appendUserTurn (stable : inv.Stable) {session : RoomSession} {input : SubmitTurnInput}
    (allows : inv.Allows store env (.appendUserTurn session input)) :
    Keeps (Every inv) (store.appendUserTurn env session input) := by
  refine .bind (.bind (ReadOnly.failIf _ _).keeps fun _ =>
    .bind_of (fun text => Limits.validatePrompt input.text = .ok text) (ReadOnly.returnExcept _).keeps
      (fun _ _ _ _ valid => mapError_eq_ok_iff.mp (returnExcept_ok_iff.mp valid).1) fun text valid =>
    .bind ?_ fun key => .transaction (.bind (env.attempt_readOnly _).keeps fun _ =>
      .bind (env.query_readOnly _ _).keeps fun _ => .bind (ReadOnly.orFail _ _).keeps fun _ =>
      .bind (ReadOnly.failIf _ _).keeps fun _ => .bind ?_ fun found => ?_))
    fun turn => .bind (RoomStore.snapshotOrNotFound_readOnly _ _).keeps fun _ =>
      (RoomStore.acceptTurn_readOnly _ _).keeps
  · cases input.idempotencyKey with
    | none => exact (ReadOnly.pure _).keeps
    | some value => exact ((ReadOnly.returnExcept _).map _).keeps
  · cases key with
    | none => exact (ReadOnly.pure _).keeps
    | some key => exact (env.query_readOnly _ _).keeps
  · cases found with
    | some run =>
      exact .bind (RoomStore.openCell_readOnly _ _ _).keeps fun _ => .bind (ReadOnly.failIf _ _).keeps fun _ =>
        .bind (env.attempt_readOnly _).keeps fun _ => (ReadOnly.pure _).keeps
    | none =>
      obtain ⟨messages, runs⟩ := allows text valid
      exact .bind (env.query_readOnly _ _).keeps fun _ => .bind (ReadOnly.failIf _ _).keeps fun _ =>
        .bind_of _ (RoomStore.sealCell_readOnly _ _ _ _).keeps
          (fun _ _ _ _ sealed => (RoomStore.sealCell_eq_ok_iff.mp sealed).2.1) fun _ message =>
        .bind_of _ (RoomStore.sealCell_readOnly _ _ _ _).keeps
          (fun _ _ _ _ sealed => (RoomStore.sealCell_eq_ok_iff.mp sealed).2.1) fun _ given =>
        .bind_of _ (RoomStore.sealCell_readOnly _ _ _ _).keeps
          (fun _ _ _ _ sealed => (RoomStore.sealCell_eq_ok_iff.mp sealed).2.1) fun _ empty =>
        .bind (env.insert_keeps (fun _ _ => insertMessage (messages _ message)) _) fun _ =>
        .bind (env.insert_keeps (fun _ _ => insertRun (runs _ _ _ given empty)) _) fun _ =>
        .bind (keeps_setRoomStatus stable _) fun _ => .bind (env.attempt_readOnly _).keeps fun _ => (ReadOnly.pure _).keeps

/-- A run that a query finds is good. -/
theorem find_good {choose : RunRow → Bool} (every : db.Every inv) {run : RunRow} (found : db.runs.find? choose = some run) :
    inv.run run ∧ choose run :=
  let ⟨member, chosen⟩ := Table.find?_eq_some found
  ⟨every.runs run member, chosen⟩

theorem keeps_appendDelta (stable : inv.Stable) {delta : String}
    (allows : inv.Allows store env (.appendDelta roomId runId delta)) :
    Keeps (Every inv) (store.appendDelta env roomId runId delta) := by
  refine .bind_of (fun text => Limits.validateDelta delta = .ok text) (ReadOnly.returnExcept _).keeps
    (fun _ _ _ _ valid => mapError_eq_ok_iff.mp (returnExcept_ok_iff.mp valid).1) fun text valid => ?_
  obtain rfl := RoomStore.validateDelta_eq valid
  refine .bind_of (fun found => ∀ run ∈ found, inv.run run ∧ run.id = runId) (env.query_readOnly _ _).keeps
      (fun _ _ _ every queried run found => ?_) fun found good =>
    .bind_of (fun run => inv.run run ∧ run.id = runId) (ReadOnly.orFail _ _).keeps
      (fun _ _ _ _ taken => good _ (orFail_ok_iff.mp taken).1) fun run sound =>
    .bind_of _ (RoomStore.openCell_readOnly _ _ _).keeps
      (fun _ _ _ _ opened => (RoomStore.openCell_eq_ok_iff.mp opened).2.1) fun current opened =>
    .bind_of (fun _ => ¬ Limits.MAX_MESSAGE_CHARS < charCount (current ++ delta)) (ReadOnly.failIf _ _).keeps
      (fun _ _ _ _ checked => (failIf_ok_iff.mp checked).1) fun _ bounded =>
    .bind_of _ (RoomStore.sealCell_readOnly _ _ _ _).keeps
      (fun _ _ _ _ sealed => (RoomStore.sealCell_eq_ok_iff.mp sealed).2.1) fun cell sealed =>
    .bind (env.execute_keeps (fun _ => updateRuns fun old chosen held => ?_) _) fun _ =>
    .bind (keeps_setRoomStatus stable _) fun _ => (ReadOnly.pure _).keeps
  · obtain ⟨-, rfl, -⟩ := Env.query_ok_iff.mp queried
    obtain ⟨held, chosen⟩ := find_good every found
    simp only [Bool.and_eq_true, beq_iff_eq] at chosen
    exact ⟨held, chosen.1.1⟩
  · simp only [Bool.and_eq_true, beq_iff_eq] at chosen
    exact allows run old current cell sound.1 sound.2 valid opened (not_lt.mp bounded) sealed held chosen.1.1

theorem keeps_finishRun (stable : inv.Stable) {terminal : RunTerminal}
    {ends : terminal.status = .completed ∨ terminal.status = .failed}
    (allows : inv.Allows store env (.finishRun roomId runId terminal ends)) :
    Keeps (Every inv) (store.finishRun env roomId runId terminal) := by
  obtain ⟨answers, unexplained, explained⟩ := allows
  refine .bind (.bind (ReadOnly.returnExcept _).keeps fun known => .transaction
    (.bind (env.attempt_readOnly _).keeps fun _ =>
      .bind_of (fun found => ∀ run ∈ found, inv.run run ∧ run.id = runId) (env.query_readOnly _ _).keeps
        (fun _ _ _ every queried run found => ?_) fun found good =>
      .bind_of (fun run => inv.run run ∧ run.id = runId) (ReadOnly.orFail _ _).keeps
        (fun _ _ _ _ taken => good _ (orFail_ok_iff.mp taken).1) fun run sound => ?_))
    fun _ => (RoomStore.snapshotOrNotFound_readOnly _ _).keeps
  · obtain ⟨-, rfl, -⟩ := Env.query_ok_iff.mp queried
    obtain ⟨held, chosen⟩ := find_good every found
    simp only [Bool.and_eq_true, beq_iff_eq] at chosen
    exact ⟨held, chosen.1⟩
  · obtain ⟨held, rfl⟩ := sound
    split
    · refine .bind (.bind_of _ (RoomStore.openCell_readOnly _ _ _).keeps
          (fun _ _ _ _ opened => (RoomStore.openCell_eq_ok_iff.mp opened).2.1) fun text opened => .bind ?_ fun _ =>
        .bind_of (fun message => inv.EndsWith run.id message) (RoomStore.sealOpt_readOnly _ _ _ _).keeps
          (fun _ _ _ _ sealed => ?_) fun message ended =>
        .bind (env.execute_keeps (fun _ => updateRuns fun old chosen good => ?_) _) fun _ =>
        .bind (keeps_setRoomStatus stable _) fun _ => (ReadOnly.pure _).keeps) fun _ =>
        .bind (.bind (keeps_deleting (fun _ => rfl) (fun _ _ => id) (fun _ _ member => (Table.mem_delete.mp member).1)
            (fun _ _ => id) _) fun _ =>
          .bind (keeps_deleting (fun _ => rfl) (fun _ _ member => (Table.mem_delete.mp member).1) (fun _ _ => id)
            (fun _ _ => id) _) fun _ => (ReadOnly.pure _).keeps) fun _ => (env.attempt_readOnly _).keeps
      · rw [RoomStore.insertAnswer]
        split
        · next completes =>
          exact .bind_of _ (RoomStore.sealCell_readOnly _ _ _ _).keeps
            (fun _ _ _ _ sealed => (RoomStore.sealCell_eq_ok_iff.mp sealed).2.1) fun cell sealed =>
            env.insert_keeps (fun _ _ => insertMessage
              (answers run text known cell held rfl opened completes.2 completes.1 sealed)) _
        · exact (ReadOnly.pure _).keeps
      · cases given : terminal.errorMessage with
        | none =>
          simp only [RoomStore.sealOpt, given] at sealed
          obtain ⟨rfl, -⟩ := pure_ok_iff.mp sealed
          exact unexplained given
        | some value =>
          simp only [RoomStore.sealOpt, given] at sealed
          obtain ⟨cell, seals, rfl⟩ := map_ok_iff.mp sealed
          exact explained value cell given (RoomStore.sealCell_eq_ok_iff.mp seals).2.1
      · simp only [Bool.and_eq_true, beq_iff_eq] at chosen
        exact ended old _ _ _ good chosen.1
    · exact (env.attempt_readOnly _).keeps

theorem keeps_stopRun (stable : inv.Stable) (allows : inv.Allows store env (.stopRun roomId runId)) :
    Keeps (Every inv) (store.stopRun env roomId runId) := by
  refine .bind (ReadOnly.returnExcept _).keeps fun _ => .bind_of _ (RoomStore.sealCell_readOnly _ _ _ _).keeps
      (fun _ _ _ _ sealed => (RoomStore.sealCell_eq_ok_iff.mp sealed).2.1) fun cell sealed =>
    .bind (env.execute_keeps (fun _ => updateRuns fun old chosen held => ?_) _) fun _ =>
    .bind (ReadOnly.failIf _ _).keeps fun _ => .bind (keeps_setRoomStatus stable _) fun _ => (ReadOnly.pure _).keeps
  simp only [Bool.and_eq_true, beq_iff_eq] at chosen
  exact allows cell sealed old _ _ _ held chosen.1

theorem keeps_recoverRunning (stable : inv.Stable) (allows : inv.Allows store env .recoverRunning) :
    Keeps (Every inv) (store.recoverRunning env) := by
  have interrupts (ids : List String) (index : ℕ) : Keeps (Every inv) (store.interruptRuns env ids index) := by
    induction ids generalizing index with
    | nil => exact (ReadOnly.pure _).keeps
    | cons runId rest ih =>
      refine .bind_of (fun message => inv.EndsWith runId message) (RoomStore.interruptedMessage_readOnly _ _).keeps
          (fun _ _ _ _ drawn => ?_) fun message ended =>
        .bind (env.execute_keeps (fun _ => updateRuns fun old chosen held => ?_) _) fun _ =>
        .bind (ih _) fun _ => (ReadOnly.pure _).keeps
      · cases writable : store.sealing.ensureWritable with
        | ok =>
          simp only [RoomStore.interruptedMessage, writable] at drawn
          obtain ⟨cell, sealed, rfl⟩ := map_ok_iff.mp drawn
          exact (allows runId).2 _ cell (RoomStore.sealCell_eq_ok_iff.mp sealed).2.1
        | error reason =>
          simp only [RoomStore.interruptedMessage, writable] at drawn
          obtain ⟨rfl, -⟩ := pure_ok_iff.mp drawn
          exact (allows runId).1 (by simp [writable])
      · simp only [Bool.and_eq_true, beq_iff_eq] at chosen
        exact ended old _ _ _ held chosen.1
  exact .bind (env.query_readOnly _ _).keeps fun _ => .bind (interrupts _ _) fun _ =>
    .bind (env.execute_keeps (fun _ => updateRooms fun _ => stable.status _ _ _) _) fun _ => (ReadOnly.pure _).keeps

/-- A call whose writes are good keeps every row good, wherever it fails. -/
theorem keeps_action (stable : inv.Stable) {op : Op} (allows : inv.Allows store env op) :
    Keeps (Every inv) (op.action store env) := by
  cases op with
  | createRoom input => exact (keeps_createRoom allows).map _
  | exchangeInvite raw displayName => exact (keeps_exchangeInvite allows).map _
  | issueInvite roomId => exact keeps_issueInvite.map _
  | revokeInvite roomId => exact keeps_revokeInvite.map _
  | appendUserTurn session input => exact (keeps_appendUserTurn stable allows).map _
  | appendDelta roomId runId delta => exact (keeps_appendDelta stable allows).map _
  | finishRun roomId runId terminal ends => exact (keeps_finishRun stable allows).map _
  | stopRun roomId runId => exact (keeps_stopRun stable allows).map _
  | closeRoom roomId => exact (keeps_closeRoom stable).map _
  | recoverRunning => exact (keeps_recoverRunning stable allows).map _

/-- Every row of a reachable state is good, if the writes of its calls were. -/
theorem of_run {crates : Crates} {attempts : List Attempt} (stable : inv.Stable)
    (run : (faultMachine crates).Run attempts db)
    (allows : ∀ attempt ∈ attempts, inv.Allows ⟨crates, attempt.sealing⟩ attempt.env attempt.op) : db.Every inv := by
  refine run.history (fun past db => (∀ attempt ∈ past, inv.Allows ⟨crates, attempt.sealing⟩ attempt.env attempt.op) →
    db.Every inv) ?_ ?_ allows
  · rintro _ rfl -
    exact ⟨by simp [Db.empty], by simp [Db.empty], by simp [Db.empty], by simp [Db.empty]⟩
  · rintro past db attempt next - every step allows
    obtain rfl := Option.some.inj step
    exact keeps_action stable (allows attempt (by simp)) db (every fun other member => allows other (by simp [member]))

end Operations

end Db.Every

end RyuRooms
