import RyuRooms.Model.RoomStore

/-! # What each statement does

The fallible steps of a call one by one: when it succeeds, what it leaves when it fails, and that
queries, seals and snapshot reads never write. Each lemma is stated for surroundings with failing
steps first; the simp set after them is for surroundings without, which is how most proofs about the
store take operations apart.
-/

namespace RyuRooms

open Foundation

section State

variable {source target : Db} {error : StoreError}

@[simp] theorem get_ok_iff {result : Db} :
    (get : StoreM Db) source = .ok result target ↔ source = result ∧ source = target := by
  change (.ok source source : EStateM.Result StoreError Db Db) = .ok result target ↔ _
  rw [EStateM.Result.ok.injEq]

@[simp] theorem get_ne_error : (get : StoreM Db) source ≠ .error error target := nofun

@[simp] theorem set_ok_iff {next : Db} {result : PUnit} :
    (set next : StoreM PUnit) source = .ok result target ↔ next = target := by
  change (.ok ⟨⟩ next : EStateM.Result StoreError Db PUnit) = .ok result target ↔ _
  simp

@[simp] theorem set_ne_error {next : Db} : (set next : StoreM PUnit) source ≠ .error error target := nofun

end State

namespace Env

variable {env : Env} {point : ℕ} {source target : Db} {error : StoreError}

/-- None of these steps fails. -/
def Passes (env : Env) (points : List ℕ) : Prop := ∀ point ∈ points, env.fault point = false

/-- One of these steps fails. -/
def Breaks (env : Env) (points : List ℕ) : Prop := ∃ point ∈ points, env.fault point

@[simp] theorem passes_nil : env.Passes [] := by simp [Passes]

@[simp] theorem passes_cons {points : List ℕ} :
    env.Passes (point :: points) ↔ env.fault point = false ∧ env.Passes points := by
  simp [Passes]

@[simp] theorem not_breaks_nil : ¬ env.Breaks [] := by simp [Breaks]

@[simp] theorem breaks_cons {points : List ℕ} :
    env.Breaks (point :: points) ↔ env.fault point ∨ env.Breaks points := by
  simp [Breaks]

theorem not_breaks_iff {points : List ℕ} : ¬ env.Breaks points ↔ env.Passes points := by
  simp [Passes, Breaks]

theorem attempt_ok_iff {result : Unit} :
    env.attempt point source = .ok result target ↔ env.fault point = false ∧ source = target := by
  simp [attempt]

theorem attempt_error_iff : env.attempt point source = .error error target ↔
    env.fault point ∧ .database = error ∧ source = target := by
  simp [attempt]

theorem query_ok_iff {α : Type} {read : Db → α} {result : α} :
    env.query point read source = .ok result target ↔
      env.fault point = false ∧ read source = result ∧ source = target := by
  cases fails : env.fault point <;> simp [query, bind_ok_iff, attempt_ok_iff, fails, and_comm]

theorem query_error_iff {α : Type} {read : Db → α} : env.query point read source = .error error target ↔
    env.fault point ∧ .database = error ∧ source = target := by
  simp [query, bind_error_iff, attempt_error_iff]

theorem execute_ok_iff {statement : Db → Db × ℕ} {changed : ℕ} :
    env.execute point statement source = .ok changed target ↔
      env.fault point = false ∧ (statement source).2 = changed ∧ (statement source).1 = target := by
  cases fails : env.fault point <;> simp [execute, bind_ok_iff, attempt_ok_iff, fails, and_comm]

theorem execute_error_iff {statement : Db → Db × ℕ} : env.execute point statement source = .error error target ↔
    env.fault point ∧ .database = error ∧ source = target := by
  simp [execute, bind_error_iff, attempt_error_iff]

/-- A statement can be replaced by one that does the same to these tables. -/
theorem execute_congr {statement other : Db → Db × ℕ} (same : statement source = other source) :
    env.execute point statement source = env.execute point other source := by
  refine bind_congr_of_ok fun _ middle attempted => ?_
  obtain ⟨-, rfl⟩ := attempt_ok_iff.mp attempted
  exact congrArg (fun result : Db × ℕ => EStateM.Result.ok result.2 result.1) same

theorem insert_ok_iff {statement : Db → Option Db} {result : Unit} :
    env.insert point statement source = .ok result target ↔
      env.fault point = false ∧ statement source = some target := by
  cases fails : env.fault point <;> simp [Env.insert, bind_ok_iff, attempt_ok_iff, fails]

theorem insert_error {statement : Db → Option Db}
    (failed : env.insert point statement source = .error error target) : source = target := by
  cases fails : env.fault point <;>
    simp [Env.insert, bind_error_iff, attempt_error_iff, attempt_ok_iff, fails] at failed <;> tauto

@[simp] theorem fails_attempt_iff : Fails (env.attempt point) source ↔ env.fault point := by
  simp [Fails, attempt_error_iff]

@[simp] theorem fails_query_iff {α : Type} {read : Db → α} : Fails (env.query point read) source ↔ env.fault point := by
  simp [Fails, query_error_iff]

@[simp] theorem fails_execute_iff {statement : Db → Db × ℕ} :
    Fails (env.execute point statement) source ↔ env.fault point := by
  simp [Fails, execute_error_iff]

theorem attempt_readOnly (env : Env) (point : ℕ) : ReadOnly (env.attempt point) :=
  .of_outcomes (fun _ _ _ success => (attempt_ok_iff.mp success).2) fun _ _ _ failed =>
    (attempt_error_iff.mp failed).2.2

theorem query_readOnly {α : Type} (env : Env) (point : ℕ) (read : Db → α) : ReadOnly (env.query point read) :=
  .of_outcomes (fun _ _ _ success => (query_ok_iff.mp success).2.2) fun _ _ _ failed =>
    (query_error_iff.mp failed).2.2

section Keeps

variable {holds : Db → Prop}

theorem execute_keeps {statement : Db → Db × ℕ} (kept : ∀ db, holds db → holds (statement db).1) (env : Env)
    (point : ℕ) : Keeps holds (env.execute point statement) :=
  .of_outcomes (fun _ _ _ held success => (execute_ok_iff.mp success).2.2 ▸ kept _ held)
    fun _ _ _ held failed => (execute_error_iff.mp failed).2.2 ▸ held

theorem insert_keeps {statement : Db → Option Db} (kept : ∀ db next, holds db → statement db = some next → holds next)
    (env : Env) (point : ℕ) : Keeps holds (env.insert point statement) :=
  .of_outcomes (fun _ _ _ held success => kept _ _ held (insert_ok_iff.mp success).2)
    fun _ _ _ held failed => insert_error failed ▸ held

end Keeps

end Env

section Primitives

variable {draws : Draws} {point : ℕ} {source target : Db} {error : StoreError}

@[simp] theorem env_now : draws.env.now = draws.now := rfl

@[simp] theorem env_uuid : draws.env.uuid = draws.uuid := rfl

@[simp] theorem attempt_ok_iff {result : Unit} :
    draws.env.attempt point source = .ok result target ↔ source = target := by
  simp [Env.attempt, Draws.env]

@[simp] theorem attempt_ne_error : draws.env.attempt point source ≠ .error error target := by
  simp [Env.attempt, Draws.env]

@[simp] theorem query_ok_iff {α : Type} {read : Db → α} {result : α} :
    draws.env.query point read source = .ok result target ↔ read source = result ∧ source = target := by
  simp [Env.query, bind_ok_iff, and_comm]

@[simp] theorem query_ne_error {α : Type} {read : Db → α} :
    draws.env.query point read source ≠ .error error target := by
  simp [Env.query, bind_error_iff]

@[simp] theorem execute_ok_iff {statement : Db → Db × ℕ} {changed : ℕ} :
    draws.env.execute point statement source = .ok changed target ↔
      (statement source).2 = changed ∧ (statement source).1 = target := by
  simp [Env.execute, bind_ok_iff, and_comm]

@[simp] theorem execute_ne_error {statement : Db → Db × ℕ} :
    draws.env.execute point statement source ≠ .error error target := by
  simp [Env.execute, bind_error_iff]

@[simp] theorem insert_ok_iff {statement : Db → Option Db} {result : Unit} :
    draws.env.insert point statement source = .ok result target ↔ statement source = some target := by
  simp [Env.insert, bind_ok_iff]

@[simp] theorem insert_error_iff {statement : Db → Option Db} :
    draws.env.insert point statement source = .error error target ↔
      statement source = none ∧ .database = error ∧ source = target := by
  simp [Env.insert, bind_error_iff]

end Primitives

namespace Db

theorem hasRoom_iff {db : Db} {roomId : String} : db.hasRoom roomId ↔ ∃ room ∈ db.rooms, room.id = roomId := by
  simp [hasRoom, Table.mem_rows]

theorem hasParticipant_iff {db : Db} {participantId : String} :
    db.hasParticipant participantId ↔ ∃ participant ∈ db.participants, participant.id = participantId := by
  simp [hasParticipant, Table.mem_rows]

section Insert

variable {db next : Db}

theorem insertRoom_eq_some_iff {row : RoomRow} : db.insertRoom row = some next ↔
    ∃ rooms, db.rooms.insert? row = some rooms ∧ { db with rooms } = next := by
  simp [insertRoom]

theorem insertInvite_eq_some_iff {row : InviteRow} : db.insertInvite row = some next ↔
    db.hasRoom row.roomId ∧ ∃ invites, db.invites.insert? row = some invites ∧ { db with invites } = next := by
  simp [insertInvite]

theorem insertParticipant_eq_some_iff {row : ParticipantRow} : db.insertParticipant row = some next ↔
    db.hasRoom row.roomId ∧
      ∃ participants, db.participants.insert? row = some participants ∧ { db with participants } = next := by
  simp [insertParticipant]

theorem insertSession_eq_some_iff {row : SessionRow} : db.insertSession row = some next ↔
    (db.hasRoom row.roomId ∧ db.hasParticipant row.participantId) ∧
      ∃ sessions, db.sessions.insert? row = some sessions ∧ { db with sessions } = next := by
  simp [insertSession]

theorem insertMessage_eq_some_iff {row : MessageRow} : db.insertMessage row = some next ↔
    db.hasRoom row.roomId ∧
      ∃ messages, db.messages.insert? row = some messages ∧ { db with messages } = next := by
  simp [insertMessage]

theorem insertRun_eq_some_iff {row : RunRow} : db.insertRun row = some next ↔
    (db.hasRoom row.roomId ∧ db.keyTaken row.roomId row.idempotencyKey = false) ∧
      ∃ runs, db.runs.insert? row = some runs ∧ { db with runs } = next := by
  simp [insertRun]

end Insert

end Db

namespace RoomStore

variable {store : RoomStore} {env : Env} {source target : Db} {error : StoreError}

section Cells

variable {point draw : ℕ} {context : ContentContext}

theorem sealCell_eq_ok_iff {value cell : String} :
    store.sealCell env point draw value context source = .ok cell target ↔
      env.fault point = false ∧ store.sealing.sealText (env.nonce draw) value context = .ok cell ∧
        source = target := by
  cases sealed : store.sealing.sealText (env.nonce draw) value context <;>
    simp [sealCell, bind_ok_iff, sealed, Except.mapError, and_assoc, and_comm]

theorem openCell_eq_ok_iff {stored value : String} :
    store.openCell env point stored context source = .ok value target ↔
      env.fault point = false ∧ store.sealing.openText stored context = .ok value ∧ source = target := by
  cases opened : store.sealing.openText stored context <;>
    simp [openCell, bind_ok_iff, opened, Except.mapError, and_assoc, and_comm]

theorem sealCell_readOnly (point draw : ℕ) (value : String) (context : ContentContext) :
    ReadOnly (store.sealCell env point draw value context) :=
  .bind (.failIf _ _) fun _ => .returnExcept _

theorem openCell_readOnly (point : ℕ) (stored : String) (context : ContentContext) :
    ReadOnly (store.openCell env point stored context) :=
  .bind (.failIf _ _) fun _ => .returnExcept _

theorem sealOpt_readOnly (point draw : ℕ) (value : Option String) (context : ContentContext) :
    ReadOnly (store.sealOpt env point draw value context) := by
  cases value with
  | none => exact .pure _
  | some value => exact .map (sealCell_readOnly _ _ _ _) _

end Cells

section Reads

theorem snapshot_readOnly (first : ℕ) (roomId : String) : ReadOnly (store.snapshot env first roomId) := by
  refine .bind (.returnExcept _) fun id => .bind (env.query_readOnly _ _) fun known => ?_
  split
  · exact .bind (env.attempt_readOnly _) fun _ => .bind (env.attempt_readOnly _) fun _ =>
      env.query_readOnly _ _
  · exact .pure _

theorem snapshotOrNotFound_readOnly (first : ℕ) (roomId : String) :
    ReadOnly (store.snapshotOrNotFound env first roomId) :=
  .bind (snapshot_readOnly _ _) fun _ => .orFail _ _

theorem runById_readOnly (point : ℕ) (roomId runId : String) : ReadOnly (store.runById env point roomId runId) := by
  refine .bind (env.query_readOnly _ _) fun found => ?_
  cases found with
  | none => exact .pure _
  | some row => exact .map (.returnExcept _) _

/-- Everything after the transaction of `append_user_turn` only reads. -/
theorem acceptTurn_readOnly (turn : AppendedTurn) (snapshot : RoomSnapshot) :
    ReadOnly (store.acceptTurn env turn snapshot) := by
  refine .bind ?_ fun run => .bind (.orFail _ _) fun _ => .pure _
  simp only [acceptedRun]
  cases turn.messageId with
  | none => exact .bind (runById_readOnly _ _ _) fun _ => .orFail _ _
  | some => exact .orFail _ _

end Reads

end RoomStore

end RyuRooms
