import RyuRooms.Store.History
import RyuRooms.Store.Seals

/-! # Calls that fail halfway

An `Env` chooses which statements and seals of a call fail, so every way a call can fail is one run of
its action. A call is torn when it returns an error and leaves other tables than it found. Only
`exchange_invite` and `issue_invite`, which end with their commit, are never torn: the operations that
issue several autocommitted statements are torn when a later one fails, and those that read after their
commit when such a read does. `Op.IsTorn` is the exact condition for each operation.
-/

namespace RyuRooms

open Foundation

/-- One call of a store with the steps of it that fail. -/
structure Attempt where
  sealing : StoreSeal
  env : Env
  op : Op

/-- The reply of a call and the tables after it, whatever fails. -/
def Attempt.exec (crates : Crates) (attempt : Attempt) (db : Db) : Except StoreError Reply × Db :=
  outcome (attempt.op.action ⟨crates, attempt.sealing⟩ attempt.env) db

/-- The machine whose runs are sequences of calls, any of which may fail halfway. -/
def faultMachine (crates : Crates) : Machine Db Attempt where
  Initial db := db = .empty
  step? db attempt := some (attempt.exec crates db).2

/-- Every run belongs to a room, and every room has an id that `validate_room_id` accepts unchanged. -/
structure Db.Rooted (db : Db) : Prop where
  runs : ∀ run ∈ db.runs, db.hasRoom run.roomId
  rooms : ∀ room ∈ db.rooms, validateRoomId room.id = .ok room.id

namespace Db.Rooted

variable {db next : Db}

theorem updateRooms {choose : RoomRow → Bool} {assign : RoomRow → RoomRow} {keeps : ∀ row, (assign row).id = row.id}
    (rooted : db.Rooted) : { db with rooms := db.rooms.update choose assign keeps }.Rooted where
  runs run member := by
    obtain ⟨room, there, named⟩ := hasRoom_iff.mp (rooted.runs run member)
    refine hasRoom_iff.mpr ⟨_, (@Table.mem_update _ _ _ _ _ _ keeps _).mpr ⟨room, there, rfl⟩, ?_⟩
    split
    · rw [keeps, named]
    · exact named
  rooms room member := by
    obtain ⟨old, there, rfl⟩ := (@Table.mem_update _ _ _ _ _ _ keeps _).mp member
    have same : (if choose old then assign old else old).id = old.id := by
      split
      · exact keeps old
      · rfl
    rw [same]
    exact rooted.rooms old there

theorem updateRuns {choose : RunRow → Bool} {assign : RunRow → RunRow} {keeps : ∀ row, (assign row).id = row.id}
    (owned : ∀ row, (assign row).roomId = row.roomId) (rooted : db.Rooted) :
    { db with runs := db.runs.update choose assign keeps }.Rooted where
  runs run member := by
    obtain ⟨old, there, rfl⟩ := (@Table.mem_update _ _ _ _ _ _ keeps _).mp member
    have same : (if choose old then assign old else old).roomId = old.roomId := by
      split
      · exact owned old
      · rfl
    rw [same]
    exact rooted.runs old there
  rooms := rooted.rooms

theorem trimRuns {roomId : String} (rooted : db.Rooted) : (Db.trimRuns roomId db).1.Rooted where
  runs run member := rooted.runs run (Table.mem_delete.mp member).1
  rooms := rooted.rooms

theorem insertRoom {row : RoomRow} (valid : validateRoomId row.id = .ok row.id) (rooted : db.Rooted)
    (inserted : db.insertRoom row = some next) : next.Rooted := by
  obtain ⟨rooms, added, rfl⟩ := insertRoom_eq_some_iff.mp inserted
  refine ⟨fun run member => ?_, fun room member => ?_⟩
  · obtain ⟨room, there, named⟩ := hasRoom_iff.mp (rooted.runs run member)
    exact hasRoom_iff.mpr ⟨room, (Table.mem_of_insert? added).mpr (Or.inl there), named⟩
  · rcases (Table.mem_of_insert? added).mp member with there | rfl
    · exact rooted.rooms room there
    · exact valid

theorem insertRun {row : RunRow} (rooted : db.Rooted) (inserted : db.insertRun row = some next) : next.Rooted := by
  obtain ⟨⟨known, -⟩, runs, added, rfl⟩ := insertRun_eq_some_iff.mp inserted
  refine ⟨fun run member => ?_, rooted.rooms⟩
  rcases (Table.mem_of_insert? added).mp member with there | rfl
  · exact rooted.runs run there
  · exact known

theorem insertMessage {row : MessageRow} (rooted : db.Rooted) (inserted : db.insertMessage row = some next) :
    next.Rooted := by
  obtain ⟨-, _, -, rfl⟩ := insertMessage_eq_some_iff.mp inserted
  exact ⟨rooted.runs, rooted.rooms⟩

theorem insertInvite {row : InviteRow} (rooted : db.Rooted) (inserted : db.insertInvite row = some next) :
    next.Rooted := by
  obtain ⟨-, _, -, rfl⟩ := insertInvite_eq_some_iff.mp inserted
  exact ⟨rooted.runs, rooted.rooms⟩

theorem insertParticipant {row : ParticipantRow} (rooted : db.Rooted)
    (inserted : db.insertParticipant row = some next) : next.Rooted := by
  obtain ⟨-, _, -, rfl⟩ := insertParticipant_eq_some_iff.mp inserted
  exact ⟨rooted.runs, rooted.rooms⟩

theorem insertSession {row : SessionRow} (rooted : db.Rooted) (inserted : db.insertSession row = some next) :
    next.Rooted := by
  obtain ⟨-, _, -, rfl⟩ := insertSession_eq_some_iff.mp inserted
  exact ⟨rooted.runs, rooted.rooms⟩

section Operations

variable {store : RoomStore} {env : Env}

theorem keeps_setRoomStatus {roomId : String} {status : RoomStatus → RoomStatus} {now : Instant} (point : ℕ) :
    Keeps Rooted (env.execute point (Db.setRoomStatus roomId status now)) :=
  env.execute_keeps (fun _ rooted => updateRooms rooted) point

/-- A statement on the invites, participants and sessions. -/
theorem keeps_access {statement : Db → Db × ℕ} (rooms : ∀ db, (statement db).1.rooms = db.rooms)
    (runs : ∀ db, (statement db).1.runs = db.runs) (point : ℕ) : Keeps Rooted (env.execute point statement) :=
  env.execute_keeps (fun db rooted => ⟨fun run member => by
      rw [hasRoom_iff, rooms, ← hasRoom_iff]
      exact rooted.runs run (runs db ▸ member),
    fun room member => rooted.rooms room (rooms db ▸ member)⟩) point

theorem keeps_createRoom (input : CreateRoomInput) : Keeps Rooted (store.createRoom env input) := by
  refine .bind (ReadOnly.returnExcept _).keeps fun modelId => .bind (ReadOnly.returnExcept _).keeps fun origin =>
    .bind (RoomStore.sealCell_readOnly _ _ _ _).keeps fun name => .bind (.transaction ?_) fun _ =>
    .bind (RoomStore.snapshotOrNotFound_readOnly _ _).keeps fun _ => (ReadOnly.pure _).keeps
  refine .bind (env.attempt_readOnly _).keeps fun _ => .bind (env.insert_keeps (fun _ _ => ?_) _) fun _ =>
    .bind (env.insert_keeps (fun _ _ => insertInvite) _) fun _ =>
    .bind (env.insert_keeps (fun _ _ => insertParticipant) _) fun _ => (env.attempt_readOnly _).keeps
  exact insertRoom (RoomStore.validateRoomId_opaqueId _)

theorem keeps_exchangeInvite (raw displayName : String) : Keeps Rooted (store.exchangeInvite env raw displayName) := by
  refine .bind (ReadOnly.returnExcept _).keeps fun name => .bind (ReadOnly.failIf _ _).keeps fun _ =>
    .bind (RoomStore.sealCell_readOnly _ _ _ _).keeps fun cell => .bind (.transaction ?_) fun _ =>
    (ReadOnly.pure _).keeps
  refine .bind (env.attempt_readOnly _).keeps fun _ => .bind (env.query_readOnly _ _).keeps fun _ =>
    .bind (ReadOnly.orFail _ _).keeps fun _ => .bind (ReadOnly.failIf _ _).keeps fun _ =>
    .bind (env.query_readOnly _ _).keeps fun _ => .bind (ReadOnly.orFail _ _).keeps fun _ =>
    .bind (ReadOnly.failIf _ _).keeps fun _ => .bind (env.query_readOnly _ _).keeps fun _ =>
    .bind (ReadOnly.failIf _ _).keeps fun _ => .bind (env.insert_keeps (fun _ _ => insertParticipant) _) fun _ =>
    .bind (env.insert_keeps (fun _ _ => insertSession) _) fun _ => .bind (env.attempt_readOnly _).keeps fun _ =>
    (ReadOnly.pure _).keeps

theorem keeps_issueInvite (roomId : String) : Keeps Rooted (store.issueInvite env roomId) := by
  refine .bind (ReadOnly.returnExcept _).keeps fun id => .bind (.transaction ?_) fun _ => (ReadOnly.pure _).keeps
  refine .bind (env.attempt_readOnly _).keeps fun _ => .bind (env.query_readOnly _ _).keeps fun _ =>
    .bind (ReadOnly.orFail _ _).keeps fun _ => .bind (ReadOnly.failIf _ _).keeps fun _ =>
    .bind (keeps_access (fun _ => rfl) (fun _ => rfl) _) fun _ => .bind (ReadOnly.failIf _ _).keeps fun _ =>
    .bind (keeps_access (fun _ => rfl) (fun _ => rfl) _) fun _ =>
    .bind (keeps_access (fun _ => rfl) (fun _ => rfl) _) fun _ => .bind (env.attempt_readOnly _).keeps fun _ =>
    (ReadOnly.pure _).keeps

theorem keeps_revokeInvite (roomId : String) : Keeps Rooted (RoomStore.revokeInvite env roomId) :=
  .bind (ReadOnly.returnExcept _).keeps fun _ => .bind (keeps_access (fun _ => rfl) (fun _ => rfl) _) fun _ =>
    .bind (ReadOnly.failIf _ _).keeps fun _ => .bind (keeps_access (fun _ => rfl) (fun _ => rfl) _) fun _ =>
    .bind (keeps_access (fun _ => rfl) (fun _ => rfl) _) fun _ => (ReadOnly.pure _).keeps

theorem keeps_closeRoom (roomId : String) : Keeps Rooted (RoomStore.closeRoom env roomId) :=
  .bind (ReadOnly.returnExcept _).keeps fun _ =>
    .bind (env.execute_keeps (fun _ rooted => updateRooms rooted) _) fun _ =>
    .bind (ReadOnly.failIf _ _).keeps fun _ => .bind (keeps_access (fun _ => rfl) (fun _ => rfl) _) fun _ =>
    .bind (keeps_access (fun _ => rfl) (fun _ => rfl) _) fun _ =>
    .bind (keeps_access (fun _ => rfl) (fun _ => rfl) _) fun _ => (ReadOnly.pure _).keeps

theorem keeps_appendUserTurn (session : RoomSession) (input : SubmitTurnInput) :
    Keeps Rooted (store.appendUserTurn env session input) := by
  refine .bind (.bind (ReadOnly.failIf _ _).keeps fun _ => .bind (ReadOnly.returnExcept _).keeps fun text =>
    .bind ?_ fun key => .transaction (.bind (env.attempt_readOnly _).keeps fun _ =>
      .bind (env.query_readOnly _ _).keeps fun _ => .bind (ReadOnly.orFail _ _).keeps fun _ =>
      .bind (ReadOnly.failIf _ _).keeps fun _ => .bind ?_ fun found => ?_))
    fun turn => .bind (RoomStore.snapshotOrNotFound_readOnly _ _).keeps fun _ =>
      (RoomStore.acceptTurn_readOnly _ _).keeps
  · cases input.idempotencyKey with
    | none => exact (ReadOnly.pure _).keeps
    | some value => exact ((ReadOnly.returnExcept _).map _).keeps
  · cases key with
    | none => exact (ReadOnly.pure _).keeps
    | some key => exact (env.query_readOnly _ _).keeps
  · cases found with
    | some run =>
      exact .bind (RoomStore.openCell_readOnly _ _ _).keeps fun _ => .bind (ReadOnly.failIf _ _).keeps fun _ =>
        .bind (env.attempt_readOnly _).keeps fun _ => (ReadOnly.pure _).keeps
    | none =>
      exact .bind (env.query_readOnly _ _).keeps fun _ => .bind (ReadOnly.failIf _ _).keeps fun _ =>
        .bind (RoomStore.sealCell_readOnly _ _ _ _).keeps fun _ =>
        .bind (RoomStore.sealCell_readOnly _ _ _ _).keeps fun _ =>
        .bind (RoomStore.sealCell_readOnly _ _ _ _).keeps fun _ =>
        .bind (env.insert_keeps (fun _ _ => insertMessage) _) fun _ =>
        .bind (env.insert_keeps (fun _ _ => insertRun) _) fun _ => .bind (keeps_setRoomStatus _) fun _ =>
        .bind (env.attempt_readOnly _).keeps fun _ => (ReadOnly.pure _).keeps

theorem keeps_appendDelta (roomId runId delta : String) : Keeps Rooted (store.appendDelta env roomId runId delta) :=
  .bind (ReadOnly.returnExcept _).keeps fun _ => .bind (env.query_readOnly _ _).keeps fun _ =>
    .bind (ReadOnly.orFail _ _).keeps fun _ => .bind (RoomStore.openCell_readOnly _ _ _).keeps fun _ =>
    .bind (ReadOnly.failIf _ _).keeps fun _ => .bind (RoomStore.sealCell_readOnly _ _ _ _).keeps fun _ =>
    .bind (env.execute_keeps (fun _ => updateRuns fun _ => by rfl) _) fun _ => .bind (keeps_setRoomStatus _) fun _ =>
    (ReadOnly.pure _).keeps

theorem keeps_finishRun (roomId runId : String) (terminal : RunTerminal) :
    Keeps Rooted (store.finishRun env roomId runId terminal) := by
  refine .bind (.bind (ReadOnly.returnExcept _).keeps fun id => .transaction
    (.bind (env.attempt_readOnly _).keeps fun _ => .bind (env.query_readOnly _ _).keeps fun _ =>
      .bind (ReadOnly.orFail _ _).keeps fun run => ?_))
    fun _ => (RoomStore.snapshotOrNotFound_readOnly _ _).keeps
  split
  · refine .bind (.bind (RoomStore.openCell_readOnly _ _ _).keeps fun text => .bind ?_ fun _ =>
      .bind (RoomStore.sealOpt_readOnly _ _ _ _).keeps fun _ =>
      .bind (env.execute_keeps (fun _ => updateRuns fun _ => by rfl) _) fun _ =>
      .bind (keeps_setRoomStatus _) fun _ => (ReadOnly.pure _).keeps) fun _ =>
      .bind (.bind (env.execute_keeps (fun _ => trimRuns) _) fun _ =>
        .bind (keeps_access (fun _ => rfl) (fun _ => rfl) _) fun _ => (ReadOnly.pure _).keeps) fun _ =>
      (env.attempt_readOnly _).keeps
    rw [RoomStore.insertAnswer]
    split
    · exact .bind (RoomStore.sealCell_readOnly _ _ _ _).keeps fun _ =>
        env.insert_keeps (fun _ _ => insertMessage) _
    · exact (ReadOnly.pure _).keeps
  · exact (env.attempt_readOnly _).keeps

theorem keeps_stopRun (roomId runId : String) : Keeps Rooted (store.stopRun env roomId runId) :=
  .bind (ReadOnly.returnExcept _).keeps fun _ => .bind (RoomStore.sealCell_readOnly _ _ _ _).keeps fun _ =>
    .bind (env.execute_keeps (fun _ => updateRuns fun _ => by rfl) _) fun _ => .bind (ReadOnly.failIf _ _).keeps fun _ =>
    .bind (keeps_setRoomStatus _) fun _ => (ReadOnly.pure _).keeps

theorem keeps_recoverRunning : Keeps Rooted (store.recoverRunning env) := by
  have interrupts (ids : List String) (index : ℕ) : Keeps Rooted (store.interruptRuns env ids index) := by
    induction ids generalizing index with
    | nil => exact (ReadOnly.pure _).keeps
    | cons runId rest ih =>
      refine .bind ?_ fun _ => .bind (env.execute_keeps (fun _ => updateRuns fun _ => by rfl) _) fun _ =>
        .bind (ih _) fun _ => (ReadOnly.pure _).keeps
      rw [RoomStore.interruptedMessage]
      split
      · exact ((RoomStore.sealCell_readOnly _ _ _ _).map _).keeps
      · exact (ReadOnly.pure _).keeps
  exact .bind (env.query_readOnly _ _).keeps fun _ => .bind (interrupts _ _) fun _ =>
    .bind (env.execute_keeps (fun _ rooted => updateRooms rooted) _) fun _ => (ReadOnly.pure _).keeps

/-- Every call keeps the tables rooted, wherever it fails. -/
theorem keeps_action (op : Op) : Keeps Rooted (op.action store env) := by
  cases op with
  | createRoom input => exact (keeps_createRoom input).map _
  | exchangeInvite raw displayName => exact (keeps_exchangeInvite raw displayName).map _
  | issueInvite roomId => exact (keeps_issueInvite roomId).map _
  | revokeInvite roomId => exact (keeps_revokeInvite roomId).map _
  | appendUserTurn session input => exact (keeps_appendUserTurn session input).map _
  | appendDelta roomId runId delta => exact (keeps_appendDelta roomId runId delta).map _
  | finishRun roomId runId terminal ends => exact (keeps_finishRun roomId runId terminal).map _
  | stopRun roomId runId => exact (keeps_stopRun roomId runId).map _
  | closeRoom roomId => exact (keeps_closeRoom roomId).map _
  | recoverRunning => exact keeps_recoverRunning.map _

end Operations

theorem of_run {crates : Crates} {attempts : List Attempt} (run : (faultMachine crates).Run attempts db) :
    db.Rooted := by
  refine run.invariant ?_ ?_
  · rintro _ rfl
    exact ⟨by simp [Db.empty], by simp [Db.empty]⟩
  · rintro db attempt next rooted step
    obtain rfl := Option.some.inj step
    exact keeps_action attempt.op db rooted

end Db.Rooted

end RyuRooms
