import RyuRooms.Store.Faults
import RyuRooms.Store.Rows

/-! # Which calls are torn

`Op.IsTorn` spells out, for each operation, the surroundings and tables in which a call returns an error
after it has changed something: everything up to the first commit succeeds, and a later step fails.
-/

namespace RyuRooms

open Foundation

section Steps

variable {α β : Type} {env : Env} {point : ℕ} {origin source : Db} {next : β → StoreM α}

theorem tears_returnExcept_bind {value : Except StoreError β} :
    Tears origin (returnExcept value >>= next) source ↔
      ((∃ error, value = .error error) ∧ source ≠ origin) ∨
        ∃ result, value = .ok result ∧ Tears origin (next result) source := by
  cases value <;> simp [tears_bind_iff, (ReadOnly.returnExcept _).tears_iff, Fails]

theorem tears_orFail_bind {value : Option β} {error : StoreError} :
    Tears origin (orFail value error >>= next) source ↔
      (value = none ∧ source ≠ origin) ∨ ∃ result, value = some result ∧ Tears origin (next result) source := by
  cases value <;> simp [tears_bind_iff, (ReadOnly.orFail _ _).tears_iff, Fails]

theorem tears_failIf_bind {condition : Prop} [Decidable condition] {error : StoreError} {next : Unit → StoreM α} :
    Tears origin (failIf condition error >>= next) source ↔
      (condition ∧ source ≠ origin) ∨ (¬ condition ∧ Tears origin (next ()) source) := by
  by_cases holds : condition <;>
    simp [tears_bind_iff, (ReadOnly.failIf _ _).tears_iff, Fails, holds, Unique.exists_iff]

theorem tears_query_bind {read : Db → β} : Tears origin (env.query point read >>= next) source ↔
    (env.fault point ∧ source ≠ origin) ∨ (env.fault point = false ∧ Tears origin (next (read source)) source) := by
  cases fails : env.fault point <;>
    simp [tears_bind_iff, (env.query_readOnly _ _).tears_iff, Fails, Env.query_error_iff, Env.query_ok_iff, fails]

theorem tears_execute_iff {statement : Db → Db × ℕ} :
    Tears origin (env.execute point statement) source ↔ env.fault point ∧ source ≠ origin := by
  simp [Tears, Env.execute_error_iff]

theorem tears_execute_bind {statement : Db → Db × ℕ} {next : ℕ → StoreM α} :
    Tears origin (env.execute point statement >>= next) source ↔
      (env.fault point ∧ source ≠ origin) ∨
        (env.fault point = false ∧ Tears origin (next (statement source).2) (statement source).1) := by
  cases fails : env.fault point <;>
    simp only [tears_bind_iff, tears_execute_iff, Env.execute_ok_iff, fails] <;> simp

variable {store : RoomStore} {draw : ℕ} {context : ContentContext} {next : String → StoreM α}

theorem tears_sealCell_bind {value : String} :
    Tears source (store.sealCell env point draw value context >>= next) source ↔
      env.fault point = false ∧ ∃ cell, store.sealing.sealText (env.nonce draw) value context = .ok cell ∧
        Tears source (next cell) source := by
  rw [(RoomStore.sealCell_readOnly _ _ _ _).tears_bind_iff]
  simp only [RoomStore.sealCell_eq_ok_iff, and_assoc, exists_and_left, true_and]

theorem tears_openCell_bind {stored : String} :
    Tears source (store.openCell env point stored context >>= next) source ↔
      env.fault point = false ∧ ∃ value, store.sealing.openText stored context = .ok value ∧
        Tears source (next value) source := by
  rw [(RoomStore.openCell_readOnly _ _ _).tears_bind_iff]
  simp only [RoomStore.openCell_eq_ok_iff, and_assoc, exists_and_left, true_and]

end Steps

namespace RoomStore

/-- `close_room` closes the room, and a later statement fails. -/
structure TornClose (env : Env) (db : Db) (roomId id : String) : Prop where
  valid : validateRoomId roomId = .ok id
  opened : db.IsOpen id
  passes : env.Passes [0]
  breaks : env.Breaks [1, 2, 3]

/-- `revoke_invite` revokes the invite, and a later statement fails. -/
structure TornRevoke (env : Env) (db : Db) (roomId id : String) : Prop where
  valid : validateRoomId roomId = .ok id
  unrevoked : ∃ invite ∈ db.invites, invite.roomId = id ∧ invite.revokedAt = none
  passes : env.Passes [0]
  breaks : env.Breaks [1, 2]

/-- `stop_run` cancels the run, and the room's status does not follow. -/
structure TornStop (store : RoomStore) (env : Env) (db : Db) (roomId runId id : String) : Prop where
  valid : validateRoomId roomId = .ok id
  writable : store.sealing.ensureWritable = .ok ()
  active : ∃ run ∈ db.runs, run.id = runId ∧ Db.isActiveIn id run
  passes : env.Passes [0, 1]
  breaks : env.Breaks [2]

/-- `append_delta` extends the partial text, and the room's time stamp does not follow. -/
structure TornDelta (store : RoomStore) (env : Env) (db : Db) (roomId runId delta current : String) (run : RunRow) :
    Prop where
  valid : Limits.validateDelta delta = .ok delta
  running : run ∈ db.runs ∧ run.id = runId ∧ run.roomId = roomId ∧ run.status = .running
  opened : store.sealing.openText run.partialText (ctx "room_runs" "partial_text" runId) = .ok current
  bounded : charCount (current ++ delta) ≤ Limits.MAX_MESSAGE_CHARS
  writable : store.sealing.ensureWritable = .ok ()
  passes : env.Passes [0, 1, 2, 3]
  breaks : env.Breaks [4]

/-- `recover_running` interrupts one run, and a later seal or statement fails. -/
structure TornRecovery (store : RoomStore) (env : Env) (db : Db) (runId : String) (rest : List String) : Prop where
  listed : (db.runs.select (·.status.isActive)).map RunRow.id = runId :: rest
  sealed : store.sealing.ensureWritable = .ok () → env.Passes [1]
  passes : env.Passes [0, 2]
  breaks : env.Breaks [1 + 2 * (rest.length + 1)] ∨ ∃ index < rest.length,
    (store.sealing.ensureWritable = .ok () ∧ env.Breaks [1 + 2 * (index + 1)]) ∨ env.Breaks [2 + 2 * (index + 1)]

variable {store : RoomStore} {env : Env} {source : Db} {roomId runId delta : String}

theorem closeRoom_tears_iff : Tears source (closeRoom env roomId) source ↔ ∃ id, TornClose env source roomId id := by
  simp only [closeRoom, tears_returnExcept_bind, tears_execute_bind, tears_failIf_bind, not_tears_pure, ne_eq,
    not_true_eq_false, and_false, or_false, false_or]
  constructor
  · rintro ⟨id, valid, passes, ⟨none, changed⟩ | ⟨some, rest⟩⟩
    · exact absurd (congrArg (fun rooms => { source with rooms }) (Table.update_of_count_eq_zero none)) changed
    · obtain ⟨room, member, chosen⟩ := Table.count_ne_zero.mp some
      refine ⟨id, valid, ⟨room, member, by simpa using chosen⟩, by simpa using passes, ?_⟩
      rcases rest with ⟨fails, -⟩ | ⟨-, ⟨fails, -⟩ | ⟨-, fails, -⟩⟩ <;> simp [fails]
  · rintro ⟨id, valid, ⟨room, member, named, opened⟩, passes, breaks⟩
    have some : ∃ room ∈ source.rooms, room.id == id && room.status != .closed :=
      ⟨room, member, by simp [named, opened]⟩
    have changed (after : Db) (rooms : after.rooms = (Db.closeRoom id (env.now 0) source).1.rooms) : ¬ after = source :=
      fun same => Table.update_ne (fun _ => by rfl) some (by simp) (rooms.symm.trans (congrArg Db.rooms same))
    refine ⟨id, valid, by simpa using passes, Or.inr ⟨Table.count_ne_zero.mpr some, ?_⟩⟩
    cases first : env.fault 1 with
    | true => exact Or.inl ⟨rfl, changed _ rfl⟩
    | false =>
      refine Or.inr ⟨rfl, ?_⟩
      cases second : env.fault 2 with
      | true => exact Or.inl ⟨rfl, changed _ rfl⟩
      | false => exact Or.inr ⟨rfl, by simpa [first, second] using breaks, changed _ rfl⟩

theorem revokeInvite_tears_iff :
    Tears source (revokeInvite env roomId) source ↔ ∃ id, TornRevoke env source roomId id := by
  simp only [revokeInvite, tears_returnExcept_bind, tears_execute_bind, tears_failIf_bind, not_tears_pure, ne_eq,
    not_true_eq_false, and_false, or_false, false_or]
  constructor
  · rintro ⟨id, valid, passes, ⟨none, changed⟩ | ⟨some, rest⟩⟩
    · exact absurd (congrArg (fun invites => { source with invites }) (Table.update_of_count_eq_zero none)) changed
    · obtain ⟨invite, member, chosen⟩ := Table.count_ne_zero.mp some
      refine ⟨id, valid, ⟨invite, member, by simpa using chosen⟩, by simpa using passes, ?_⟩
      rcases rest with ⟨fails, -⟩ | ⟨-, fails, -⟩ <;> simp [fails]
  · rintro ⟨id, valid, ⟨invite, member, named, unrevoked⟩, passes, breaks⟩
    have some : ∃ invite ∈ source.invites, invite.roomId == id && invite.revokedAt.isNone :=
      ⟨invite, member, by simp [named, unrevoked]⟩
    have changed (after : Db) (invites : after.invites = (Db.revokeInvites id (env.now 0) source).1.invites) :
        ¬ after = source :=
      fun same => Table.update_ne (fun _ => by rfl) some (by simp) (invites.symm.trans (congrArg Db.invites same))
    refine ⟨id, valid, by simpa using passes, Or.inr ⟨Table.count_ne_zero.mpr some, ?_⟩⟩
    cases first : env.fault 1 with
    | true => exact Or.inl ⟨rfl, changed _ rfl⟩
    | false => exact Or.inr ⟨rfl, by simpa [first] using breaks, changed _ rfl⟩

theorem stopRun_tears_iff :
    Tears source (store.stopRun env roomId runId) source ↔ ∃ id, TornStop store env source roomId runId id := by
  simp only [stopRun, tears_returnExcept_bind, tears_sealCell_bind, tears_execute_bind, tears_failIf_bind,
    not_tears_pure, ne_eq, not_true_eq_false, and_false, or_false, false_or]
  constructor
  · rintro ⟨id, valid, first, cell, sealed, second, ⟨none, changed⟩ | ⟨some, fails, -⟩⟩
    · exact absurd (congrArg (fun runs => { source with runs }) (Table.update_of_count_eq_zero none)) changed
    · obtain ⟨run, member, chosen⟩ := Table.count_ne_zero.mp some
      exact ⟨id, valid, StoreSeal.sealText_isOk_iff.mp ⟨cell, sealed⟩, ⟨run, member, by simpa using chosen⟩,
        by simp [first, second], by simp [fails]⟩
  · rintro ⟨id, valid, writable, ⟨run, member, named, active⟩, passes, breaks⟩
    have some : ∃ run ∈ source.runs, run.id == runId && Db.isActiveIn id run := ⟨run, member, by simp [named, active]⟩
    simp only [Env.passes_cons, Env.passes_nil, and_true] at passes
    obtain ⟨cell, sealed⟩ := StoreSeal.sealText_isOk_iff.mpr writable
    refine ⟨id, valid, passes.1, cell, sealed, passes.2, Or.inr ⟨Table.count_ne_zero.mpr some, by simpa using breaks, ?_⟩⟩
    exact fun same => Table.update_ne (fun _ => by rfl) some (by simp [Db.isActiveIn, RunStatus.isActive]) (congrArg Db.runs same)

theorem validateDelta_eq {value result : String} (valid : Limits.validateDelta value = .ok result) :
    value = result := by
  rw [Limits.validateDelta] at valid
  split at valid
  · cases valid
  · split at valid
    · cases valid
    · split at valid
      · cases valid
      · exact Except.ok.inj valid

theorem delta_ne_empty (valid : Limits.validateDelta delta = .ok delta) : delta ≠ "" := by
  rintro rfl
  simp [Limits.validateDelta] at valid

theorem appendDelta_tears_iff (lawful : store.sealing.Lawful) :
    Tears source (store.appendDelta env roomId runId delta) source ↔
      ∃ current run, TornDelta store env source roomId runId delta current run := by
  have finds (run : RunRow) : source.runs.find? (fun run => run.id == runId && run.roomId == roomId &&
      run.status == .running) = some run ↔ run ∈ source.runs ∧ run.id = runId ∧ run.roomId = roomId ∧
        run.status = .running := by
    rw [Table.find?_eq_some_iff fun left right => by simp +contextual]
    simp [and_assoc]
  simp only [appendDelta, orInvalid, tears_returnExcept_bind, tears_query_bind, tears_orFail_bind, tears_openCell_bind,
    tears_failIf_bind, tears_sealCell_bind, tears_execute_bind, not_tears_pure, ne_eq, not_true_eq_false, and_false,
    or_false, false_or, mapError_eq_ok_iff, finds]
  constructor
  · rintro ⟨_, valid, first, run, running, second, current, opened, short, third, cell, sealed, fourth, fails, -⟩
    obtain rfl := validateDelta_eq valid
    exact ⟨current, run, valid, running, opened, not_lt.mp short, StoreSeal.sealText_isOk_iff.mp ⟨cell, sealed⟩,
      by simp [first, second, third, fourth], by simp [fails]⟩
  · rintro ⟨current, run, valid, running, opened, bounded, writable, passes, breaks⟩
    simp only [Env.passes_cons, Env.passes_nil, and_true] at passes
    obtain ⟨cell, sealed⟩ := StoreSeal.sealText_isOk_iff.mpr writable
    refine ⟨delta, valid, passes.1, run, running, passes.2.1, current, opened, not_lt.mpr bounded, passes.2.2.1, cell,
      sealed, passes.2.2.2, by simpa using breaks, fun same => ?_⟩
    have kept := congrArg Db.runs same
    obtain ⟨old, -, became⟩ := Db.mem_setPartialText.mp (kept.symm ▸ running.1)
    have unchanged : run.partialText = cell := by
      split at became
      · rw [← became]
      · next unchosen =>
        subst became
        simp [running] at unchosen
    have reopened := StoreSeal.openText_of_sealText lawful sealed
    rw [← unchanged, opened] at reopened
    have longer : current.toList = current.toList ++ delta.toList := by
      rw [← String.toList_append]
      exact congrArg String.toList (Except.ok.inj reopened)
    exact delta_ne_empty valid (String.toList_eq_nil_iff.mp (List.self_eq_append_right.mp longer))

section Recovery

theorem interruptedMessage_readOnly (index : ℕ) (runId : String) :
    ReadOnly (store.interruptedMessage env index runId) := by
  rw [interruptedMessage]
  split
  · exact (sealCell_readOnly _ _ _ _).map _
  · exact .pure _

/-- A message is sealed only where the store can seal. -/
theorem interruptedMessage_ok_iff {index : ℕ} {runId : String} :
    (∃ message, store.interruptedMessage env index runId source = .ok message source) ↔
      (store.sealing.ensureWritable = .ok () → env.Passes [1 + 2 * index]) := by
  cases writable : store.sealing.ensureWritable with
  | error reason => exact iff_of_true ⟨none, by simp [interruptedMessage, writable]⟩ nofun
  | ok =>
    simp only [interruptedMessage, writable, map_ok_iff, sealCell_eq_ok_iff, true_imp_iff, Env.passes_cons,
      Env.passes_nil, and_true]
    constructor
    · rintro ⟨_, cell, ⟨passes, -⟩, -⟩
      exact passes
    · intro passes
      obtain ⟨cell, sealed⟩ := StoreSeal.sealText_isOk_iff.mpr writable
      exact ⟨some cell, cell, ⟨passes, sealed⟩, rfl⟩

theorem interruptedMessage_fails_iff {index : ℕ} {runId : String} :
    Fails (store.interruptedMessage env index runId) source ↔
      store.sealing.ensureWritable = .ok () ∧ env.Breaks [1 + 2 * index] := by
  rw [(interruptedMessage_readOnly _ _).fails_iff, interruptedMessage_ok_iff, Classical.not_imp,
    ← Env.not_breaks_iff, not_not]

/-- The loop of `recover_running` fails where one of its seals or statements does. -/
theorem interruptRuns_fails_iff {ids : List String} {index : ℕ} :
    Fails (store.interruptRuns env ids index) source ↔ ∃ k < ids.length,
      (store.sealing.ensureWritable = .ok () ∧ env.Breaks [1 + 2 * (index + k)]) ∨ env.Breaks [2 + 2 * (index + k)] := by
  induction ids generalizing index source with
  | nil => simp [interruptRuns]
  | cons runId rest ih =>
    have later (value : ℕ) (middle : Db) : Fails (store.interruptRuns env rest (index + 1) >>= fun more =>
        pure (value + more)) middle ↔ ∃ k < rest.length,
          (store.sealing.ensureWritable = .ok () ∧ env.Breaks [1 + 2 * (index + 1 + k)]) ∨
            env.Breaks [2 + 2 * (index + 1 + k)] := by
      rw [fails_bind_of_forall fun _ _ => iff_of_false (not_fails_pure _) not_false, or_false, ih]
    have executing (message : Option String) (middle : Db) :
        Fails (env.execute (2 + 2 * index) (Db.interruptRun runId message (env.now 0)) >>= fun changed =>
          store.interruptRuns env rest (index + 1) >>= fun more => pure (changed + more)) middle ↔
        env.fault (2 + 2 * index) ∨ ∃ k < rest.length,
          (store.sealing.ensureWritable = .ok () ∧ env.Breaks [1 + 2 * (index + 1 + k)]) ∨
            env.Breaks [2 + 2 * (index + 1 + k)] := by
      rw [fails_bind_of_forall later, Env.fails_execute_iff]
    rw [interruptRuns, fails_bind_of_forall executing, interruptedMessage_fails_iff, List.length_cons,
      Nat.exists_lt_succ_left]
    simp only [Env.breaks_cons, Env.not_breaks_nil, or_false, add_zero, or_assoc, Nat.add_assoc, Nat.add_comm 1]

/-- No run with this id is unfinished. -/
def Interrupted (runId : String) (db : Db) : Prop := ∀ run ∈ db.runs, run.id = runId → run.status.isActive = false

theorem interrupted_keeps {runId other : String} {message : Option String} {now : Instant} (db : Db)
    (held : Interrupted runId db) : Interrupted runId (Db.interruptRun other message now db).1 := by
  intro run member named
  obtain ⟨old, before, became⟩ := Db.mem_interruptRun.mp member
  split at became
  · rw [← became]
    rfl
  · subst became
    exact held old before named

theorem interruptRuns_keeps {runId : String} (ids : List String) (index : ℕ) :
    Keeps (Interrupted runId) (store.interruptRuns env ids index) := by
  induction ids generalizing index with
  | nil => exact (ReadOnly.pure _).keeps
  | cons other rest ih =>
    exact .bind (interruptedMessage_readOnly _ _).keeps fun _ => .bind (env.execute_keeps interrupted_keeps _) fun _ =>
      .bind (ih _) fun _ => (ReadOnly.pure _).keeps

theorem recoverRunning_tears_iff : Tears source (store.recoverRunning env) source ↔
    ∃ runId rest, TornRecovery store env source runId rest := by
  simp only [recoverRunning, tears_query_bind, ne_eq, not_true_eq_false, and_false, false_or]
  generalize isListed : (source.runs.select (·.status.isActive)).map RunRow.id = ids
  cases ids with
  | nil =>
    have unlisted : ¬ ∃ runId rest, TornRecovery store env source runId rest := by
      rintro ⟨_, _, torn⟩
      exact List.cons_ne_nil _ _ (torn.listed.symm.trans isListed)
    refine iff_of_false ?_ unlisted
    simp only [interruptRuns, pure_bind, tears_execute_bind, not_tears_pure, ne_eq, not_true_eq_false, and_false,
      or_false, not_false_eq_true]
  | cons runId rest =>
    obtain ⟨run, chosen, named⟩ : ∃ run ∈ source.runs.select (·.status.isActive), run.id = runId :=
      List.mem_map.mp (isListed ▸ List.mem_cons_self)
    obtain ⟨member, active⟩ := Table.mem_select.mp chosen
    have lacks : ¬ Interrupted runId source := fun held => by simp [held run member named] at active
    have held (message : Option String) : Interrupted runId (Db.interruptRun runId message (env.now 0) source).1 := by
      intro run member named
      obtain ⟨old, -, became⟩ := Db.mem_interruptRun.mp member
      split at became
      · rw [← became]
        rfl
      · next finished =>
        subst became
        simpa [named] using finished
    have ending (value : ℕ) (middle : Db) : Fails (env.execute (1 + 2 * (rest.length + 1)) (Db.failRunningRooms (env.now 0)) >>=
        fun _ => pure value) middle ↔ env.Breaks [1 + 2 * (rest.length + 1)] := by
      rw [fails_bind_of_forall fun _ _ => iff_of_false (not_fails_pure _) not_false, Env.fails_execute_iff]
      simp
    have rest_tears (changed : ℕ) (message : Option String) : Tears source (store.interruptRuns env rest 1 >>= fun more =>
        env.execute (1 + 2 * (rest.length + 1)) (Db.failRunningRooms (env.now 0)) >>= fun _ => pure (changed + more))
        (Db.interruptRun runId message (env.now 0) source).1 ↔ env.Breaks [1 + 2 * (rest.length + 1)] ∨
          ∃ index < rest.length, (store.sealing.ensureWritable = .ok () ∧ env.Breaks [1 + 2 * (index + 1)]) ∨
            env.Breaks [2 + 2 * (index + 1)] := by
      have keeps : Keeps (Interrupted runId) (store.interruptRuns env rest 1 >>= fun more =>
          env.execute (1 + 2 * (rest.length + 1)) (Db.failRunningRooms (env.now 0)) >>= fun _ => pure (changed + more)) :=
        .bind (interruptRuns_keeps _ _) fun _ => .bind (env.execute_keeps (fun _ held => held) _) fun _ =>
          (ReadOnly.pure _).keeps
      rw [keeps.tears_iff (held message) lacks, fails_bind_of_forall fun _ _ => ending _ _, interruptRuns_fails_iff, or_comm]
      simp only [Nat.add_comm 1]
    simp only [interruptRuns, bind_assoc, pure_bind, (interruptedMessage_readOnly _ _).tears_bind_iff, tears_execute_bind,
      ne_eq, not_true_eq_false, and_false, false_or, List.length_cons, rest_tears, exists_and_right, interruptedMessage_ok_iff]
    constructor
    · rintro ⟨zeroth, sealed, second, breaks⟩
      exact ⟨runId, rest, isListed, sealed, by simp [zeroth, second], breaks⟩
    · rintro ⟨_, _, listed, sealed, passes, breaks⟩
      obtain ⟨rfl, rfl⟩ := List.cons.inj (isListed.symm.trans listed)
      simp only [Env.passes_cons, Env.passes_nil, and_true] at passes
      exact ⟨passes.1, sealed, passes.2, breaks⟩

end Recovery

end RoomStore

end RyuRooms
