import RyuRooms.Store.Statements

/-! # What each store operation does

With no failing step, every operation either leaves the tables alone or makes one change that is
stated here in full: the rows it requires, the rows it writes and what it returns. Proofs about the
store cite these lemmas and never unfold an operation. `Change` collects the changes of all ten
operations, so that an invariant of the tables is one case analysis.
-/

namespace RyuRooms

open Foundation

namespace Db

/-! The tables after each operation that only updates and deletes. -/

section Effects

variable (db : Db) (roomId : String)

/-- After `close_room`. -/
def closed (closedAt inviteAt sessionAt : Instant) : Db :=
  (setOffline roomId (revokeSessions roomId sessionAt
    (revokeInvites roomId inviteAt (closeRoom roomId closedAt db).1).1).1).1

/-- After `issue_invite`. -/
def rotated (digest : List UInt8) (now : Instant) : Db :=
  (deleteGuests roomId (revokeSessions roomId now
    (rotateInvite roomId digest (now + seconds Limits.INVITE_TTL_SECS) db).1).1).1

/-- After `revoke_invite`. -/
def revoked (inviteAt sessionAt : Instant) : Db :=
  (deleteGuests roomId (revokeSessions roomId sessionAt (revokeInvites roomId inviteAt db).1).1).1

/-- After `append_delta`. -/
def extended (runId cell : String) (now : Instant) : Db :=
  (setRoomStatus roomId id now (setPartialText roomId runId cell db).1).1

/-- After `finish_run` recorded a terminal status, and before its trims. -/
def settled (runId : String) (status : RunStatus) (errorCode errorMessage : Option String)
    (now : Instant) : Db :=
  (setRoomStatus roomId (unlessClosed (RoomStore.settledStatus status)) now
    (settleRun roomId runId status errorCode errorMessage now db).1).1

/-- After the two trims. -/
def trimmed : Db := (trimMessages roomId (trimRuns roomId db).1).1

/-- After `stop_run`. -/
def stopped (runId message : String) (runAt roomAt : Instant) : Db :=
  (setRoomStatus roomId (unlessClosed .idle) roomAt (cancelRun roomId runId message runAt db).1).1

/-- After the loop of `recover_running`, given each run's message. -/
def interrupted (now : Instant) : List (String × Option String) → Db → Db
  | [], db => db
  | (runId, message) :: rest, db => interrupted now rest (interruptRun runId message now db).1

end Effects

/-- Only timestamps before the year 10000 can be read. -/
@[simp] theorem futureTimestamp_iff {value now : Instant} :
    futureTimestamp value now ↔ now < value ∧ value < Rfc3339.YEAR_10000 := by
  rw [futureTimestamp, Rfc3339.parse_chars]
  split <;> simp [*]

/-- What lets a guest in by an invite: the first row with its digest is not revoked, its expiry can be read and
is still to come, its room is open, and the room has a place left. -/
structure Admits (db : Db) (digest : List UInt8) (now : Instant) (invite : InviteRow) : Prop where
  found : db.invites.find? (·.digest == digest) = some invite
  unrevoked : invite.revokedAt = none
  unexpired : now < invite.expiresAt
  dated : invite.expiresAt < Rfc3339.YEAR_10000
  opened : ∃ room ∈ db.rooms, room.id = invite.roomId ∧ room.status ≠ .closed
  capacity : (db.liveParticipants invite.roomId now).length < Limits.MAX_PARTICIPANTS

end Db

/-- The texts `exchange_invite` hashes at all. -/
def isReadableInvite (raw : String) : Prop := raw ≠ "" ∧ raw.utf8ByteSize ≤ 128 ∧ anyChar isControl raw = false

namespace RoomStore

variable {store : RoomStore} {draws : Draws} {source target : Db} {error : StoreError}

section Cells

variable {point draw : ℕ} {context : ContentContext}

@[simp] theorem sealCell_ok_iff {value cell : String} :
    store.sealCell draws.env point draw value context source = .ok cell target ↔
      store.sealing.sealText (draws.nonce draw) value context = .ok cell ∧ source = target := by
  cases sealed : store.sealing.sealText (draws.nonce draw) value context <;>
    simp [sealCell, bind_ok_iff, Draws.env, sealed, Except.mapError]

theorem sealCell_error_iff {value : String} :
    store.sealCell draws.env point draw value context source = .error error target ↔
      (∃ reason, store.sealing.sealText (draws.nonce draw) value context = .error reason ∧
        .sealing reason = error) ∧ source = target := by
  cases sealed : store.sealing.sealText (draws.nonce draw) value context <;>
    simp [sealCell, bind_error_iff, Draws.env, sealed, Except.mapError]

@[simp] theorem openCell_ok_iff {stored value : String} :
    store.openCell draws.env point stored context source = .ok value target ↔
      store.sealing.openText stored context = .ok value ∧ source = target := by
  cases opened : store.sealing.openText stored context <;>
    simp [openCell, bind_ok_iff, Draws.env, opened, Except.mapError]

theorem openCell_error_iff {stored : String} :
    store.openCell draws.env point stored context source = .error error target ↔
      (∃ reason, store.sealing.openText stored context = .error reason ∧ .sealing reason = error) ∧
        source = target := by
  cases opened : store.sealing.openText stored context <;>
    simp [openCell, bind_error_iff, Draws.env, opened, Except.mapError]

theorem sealOpt_ok {value cell : Option String}
    (sealed : store.sealOpt draws.env point draw value context source = .ok cell target) :
    source = target := by
  cases value with
  | none => exact (pure_ok_iff.mp sealed).2
  | some value =>
    obtain ⟨_, done, -⟩ := map_ok_iff.mp sealed
    exact (sealCell_ok_iff.mp done).2

end Cells

section Snapshot

variable {roomId : String}

theorem snapshotFrom_isSome_iff {db : Db} : (store.snapshotFrom db roomId).isSome ↔ db.hasRoom roomId := by
  simp only [snapshotFrom, Option.isSome_map, Db.hasRoom_iff]
  cases found : db.rooms.find? (·.id == roomId) with
  | none => simpa using Table.find?_eq_none.mp found
  | some room => simpa using ⟨room, by simpa using Table.find?_eq_some found⟩

/-- A snapshot read returns what the tables hold and changes nothing. -/
theorem snapshot_ok_iff {first : ℕ} {result : Option RoomSnapshot} :
    store.snapshot draws.env first roomId source = .ok result target ↔
      ∃ id, validateRoomId roomId = .ok id ∧ store.snapshotFrom source id = result ∧ source = target := by
  simp only [snapshot, bind_ok_iff, returnExcept_ok_iff, query_ok_iff]
  constructor
  · rintro ⟨id, _, ⟨valid, rfl⟩, known, _, ⟨knows, rfl⟩, rest⟩
    refine ⟨id, valid, ?_⟩
    split at rest
    · simpa [bind_ok_iff] using rest
    · next absent =>
      have missing : store.snapshotFrom source id = none := by
        rw [← Option.not_isSome_iff_eq_none, snapshotFrom_isSome_iff, knows]
        exact absent
      rw [missing]
      simpa using rest
  · rintro ⟨id, valid, rfl, rfl⟩
    refine ⟨id, _, ⟨valid, rfl⟩, _, _, ⟨rfl, rfl⟩, ?_⟩
    split
    · simp [bind_ok_iff]
    · next absent =>
      have missing : store.snapshotFrom source id = none := by
        rw [← Option.not_isSome_iff_eq_none, snapshotFrom_isSome_iff]
        exact absent
      simp [missing]

theorem snapshotOrNotFound_ok_iff {first : ℕ} {result : RoomSnapshot} :
    store.snapshotOrNotFound draws.env first roomId source = .ok result target ↔
      ∃ id, validateRoomId roomId = .ok id ∧ store.snapshotFrom source id = some result ∧
        source = target := by
  simp only [snapshotOrNotFound, bind_ok_iff, snapshot_ok_iff, orFail_ok_iff]
  constructor
  · rintro ⟨_, _, ⟨id, valid, found, rfl⟩, rfl, rfl⟩
    exact ⟨id, valid, found, rfl⟩
  · rintro ⟨id, valid, found, rfl⟩
    exact ⟨_, _, ⟨id, valid, found, rfl⟩, rfl, rfl⟩

/-- With a valid room id, a snapshot read does not fail. -/
theorem snapshot_ne_error {first : ℕ} {id : String} (valid : validateRoomId roomId = .ok id) :
    store.snapshot draws.env first roomId source ≠ .error error target := by
  intro failed
  simp only [snapshot, bind_error_iff, returnExcept_ok_iff, returnExcept_error_iff, query_ok_iff,
    query_ne_error, false_or, valid, reduceCtorEq, false_and] at failed
  obtain ⟨_, _, -, known, _, -, failed⟩ := failed
  split at failed <;> simp [bind_error_iff] at failed

/-- The snapshot of a room that exists never fails. -/
theorem snapshotOrNotFound_ne_error {first : ℕ} {id : String} (valid : validateRoomId roomId = .ok id)
    (known : source.hasRoom id) :
    store.snapshotOrNotFound draws.env first roomId source ≠ .error error target := by
  intro failed
  simp only [snapshotOrNotFound, bind_error_iff, snapshot_ok_iff, orFail_error_iff] at failed
  rcases failed with failed | ⟨_, _, ⟨other, same, rfl, rfl⟩, missing, -⟩
  · exact snapshot_ne_error valid failed
  · obtain rfl : id = other := Except.ok.inj (valid.symm.trans same)
    rw [← Option.not_isSome_iff_eq_none, snapshotFrom_isSome_iff] at missing
    exact missing known

end Snapshot

section Rooms

/-- The id of a new room is one that `validate_room_id` accepts unchanged. -/
theorem validateRoomId_opaqueId (uuid : Uuid) :
    validateRoomId (opaqueId "room_" uuid) = .ok (opaqueId "room_" uuid) := by
  have start : "room_".toList.all fun c => !isWhitespace c && isRoomIdChar c := by decide
  have letters : ∀ c ∈ (opaqueId "room_" uuid).toList, isWhitespace c = false ∧ isRoomIdChar c := by
    intro c member
    rw [opaqueId, String.toList_append, List.mem_append] at member
    rcases member with first | digits
    · simpa using List.all_eq_true.mp start c first
    · obtain ⟨plain, -, letter⟩ := isHexDigit_spec (uuid.digit digits)
      exact ⟨plain, by simp [isRoomIdChar, letter]⟩
  have size : (opaqueId "room_" uuid).utf8ByteSize = 37 := by
    rw [opaqueId, String.utf8ByteSize_append, uuid.utf8ByteSize_simple]
    rfl
  rw [validateRoomId, trim_of_no_whitespace fun c member => (letters c member).1, size]
  have starts : startsWith (opaqueId "room_" uuid) "room_" := by
    simp [startsWith, opaqueId, String.toList_append]
  have plain : anyChar (fun c => !isRoomIdChar c) (opaqueId "room_" uuid) = false := by
    simpa [anyChar] using fun c member => (letters c member).2
  simp [starts, plain]

/-- A new room is empty, idle, open to one invite, and has its host. -/
theorem createRoom_ok {input : CreateRoomInput} {created : CreatedRoom}
    (success : store.createRoom draws.env input source = .ok created target) :
    ∃ modelId hostName roomed invited,
      source.insertRoom
        (newRoom (opaqueId "room_" (draws.uuid 0)) (draws.now 0) modelId created.shareOrigin) = some roomed ∧
      roomed.insertInvite (newInvite (opaqueId "room_" (draws.uuid 0)) (draws.now 0)
        (store.crates.sha256 (opaqueSecret (draws.uuid 2)))) = some invited ∧
      invited.insertParticipant (newParticipant (opaqueId "room_" (draws.uuid 0)) (draws.now 0) .host
        (opaqueId "member_" (draws.uuid 1)) hostName) = some target ∧
      created.invite = opaqueSecret (draws.uuid 2) ∧
      created.room.id = opaqueId "room_" (draws.uuid 0) := by
  simp only [createRoom, insertCreatedRoom, orInvalid, bind_ok_iff, returnExcept_ok_iff, sealCell_ok_iff,
    transaction_ok_iff, attempt_ok_iff, insert_ok_iff, snapshotOrNotFound_ok_iff, pure_ok_iff] at success
  obtain ⟨modelId, _, ⟨-, rfl⟩, shareOrigin, _, ⟨-, rfl⟩, hostName, _, ⟨-, rfl⟩, _, _,
    ⟨_, _, rfl, _, roomed, first, _, invited, second, _, _, third, rfl⟩, room, _,
    ⟨id, valid, found, rfl⟩, rfl, rfl⟩ := success
  refine ⟨modelId, hostName, roomed, invited, first, second, third, rfl, ?_⟩
  obtain ⟨_, -, rfl⟩ := Option.map_eq_some_iff.mp found
  have same : (Except.ok id : Except StoreError String) = .ok _ := valid.symm.trans (validateRoomId_opaqueId _)
  exact Except.ok.inj same

/-- The snapshot of a room that was just created never fails. -/
theorem createRoom_error {input : CreateRoomInput}
    (failed : store.createRoom draws.env input source = .error error target) : source = target := by
  simp only [createRoom, insertCreatedRoom, orInvalid, bind_error_iff, returnExcept_ok_iff,
    returnExcept_error_iff, sealCell_ok_iff, sealCell_error_iff, transaction_ok_iff,
    transaction_error_iff, pure_ne_error, exists_false, or_false, and_false] at failed
  rcases failed with ⟨-, same⟩ | ⟨modelId, _, ⟨-, rfl⟩, failed⟩
  · exact same
  rcases failed with ⟨-, same⟩ | ⟨shareOrigin, _, ⟨-, rfl⟩, failed⟩
  · exact same
  rcases failed with ⟨-, same⟩ | ⟨hostName, _, ⟨-, rfl⟩, failed⟩
  · exact same
  rcases failed with ⟨same, -⟩ | ⟨_, created, inserted, failed⟩
  · exact same
  · simp only [bind_ok_iff, attempt_ok_iff, insert_ok_iff, Db.insertRoom_eq_some_iff,
      Db.insertInvite_eq_some_iff, Db.insertParticipant_eq_some_iff] at inserted
    obtain ⟨_, _, rfl, _, _, ⟨rooms, roomed, rfl⟩, _, _, ⟨-, _, -, rfl⟩, _, _, ⟨-, _, -, rfl⟩, rfl⟩ := inserted
    refine absurd failed (snapshotOrNotFound_ne_error (validateRoomId_opaqueId _) ?_)
    exact Db.hasRoom_iff.mpr ⟨_, (Table.mem_of_insert? roomed).mpr (Or.inr rfl), rfl⟩

/-- Closing needs an open room, and revokes everything that lets guests in. -/
theorem closeRoom_ok {roomId : String} {result : Unit}
    (success : RoomStore.closeRoom draws.env roomId source = .ok result target) :
    ∃ id, validateRoomId roomId = .ok id ∧ (∃ room ∈ source.rooms, room.id = id ∧ room.status ≠ .closed) ∧
      target = source.closed id (draws.now 0) (draws.now 1) (draws.now 2) := by
  simp only [RoomStore.closeRoom, bind_ok_iff, returnExcept_ok_iff, execute_ok_iff, failIf_ok_iff,
    pure_ok_iff, env_now] at success
  obtain ⟨id, _, ⟨valid, rfl⟩, _, _, ⟨rfl, rfl⟩, _, _, ⟨found, rfl⟩, _, _, ⟨-, rfl⟩, _, _, ⟨-, rfl⟩, _, _,
    ⟨-, rfl⟩, -, rfl⟩ := success
  obtain ⟨room, member, chosen⟩ := Table.count_ne_zero.mp found
  simp only [Bool.and_eq_true, beq_iff_eq, bne_iff_ne] at chosen
  exact ⟨id, valid, ⟨room, member, chosen⟩, rfl⟩

theorem closeRoom_error {roomId : String}
    (failed : RoomStore.closeRoom draws.env roomId source = .error error target) : source = target := by
  simp only [RoomStore.closeRoom, bind_error_iff, returnExcept_ok_iff, returnExcept_error_iff,
    execute_ok_iff, execute_ne_error, failIf_error_iff, pure_ne_error, false_or, or_false, exists_false,
    and_false] at failed
  rcases failed with ⟨-, same⟩ | ⟨id, _, ⟨-, rfl⟩, _, _, ⟨rfl, rfl⟩, none, -, rfl⟩
  · exact same
  · exact congrArg (fun rooms => { source with rooms }) (Table.update_of_count_eq_zero none).symm

end Rooms

section Access

variable {roomId : String}

/-- Revoking needs a live invite, and drops the guests it let in. -/
theorem revokeInvite_ok {result : Unit}
    (success : RoomStore.revokeInvite draws.env roomId source = .ok result target) :
    ∃ id, validateRoomId roomId = .ok id ∧
      (∃ invite ∈ source.invites, invite.roomId = id ∧ invite.revokedAt = none) ∧
      target = source.revoked id (draws.now 0) (draws.now 1) := by
  simp only [RoomStore.revokeInvite, bind_ok_iff, returnExcept_ok_iff, execute_ok_iff, failIf_ok_iff,
    pure_ok_iff, env_now] at success
  obtain ⟨id, _, ⟨valid, rfl⟩, _, _, ⟨rfl, rfl⟩, _, _, ⟨found, rfl⟩, _, _, ⟨-, rfl⟩, _, _, ⟨-, rfl⟩, -, rfl⟩ :=
    success
  obtain ⟨invite, member, chosen⟩ := Table.count_ne_zero.mp found
  simp only [Bool.and_eq_true, beq_iff_eq, Option.isNone_iff_eq_none] at chosen
  exact ⟨id, valid, ⟨invite, member, chosen⟩, rfl⟩

theorem revokeInvite_error
    (failed : RoomStore.revokeInvite draws.env roomId source = .error error target) : source = target := by
  simp only [RoomStore.revokeInvite, bind_error_iff, returnExcept_ok_iff, returnExcept_error_iff,
    execute_ok_iff, execute_ne_error, failIf_error_iff, pure_ne_error, false_or, or_false, exists_false,
    and_false] at failed
  rcases failed with ⟨-, same⟩ | ⟨id, _, ⟨-, rfl⟩, _, _, ⟨rfl, rfl⟩, none, -, rfl⟩
  · exact same
  · exact congrArg (fun invites => { source with invites }) (Table.update_of_count_eq_zero none).symm

/-- Issuing needs an open room with an invite row, rotates it and drops the guests it let in. -/
theorem issueInvite_ok {issued : IssuedInvite}
    (success : store.issueInvite draws.env roomId source = .ok issued target) :
    ∃ id, validateRoomId roomId = .ok id ∧ (∃ room ∈ source.rooms, room.id = id ∧ room.status ≠ .closed) ∧
      (∃ invite ∈ source.invites, invite.roomId = id) ∧ issued.invite = opaqueSecret (draws.uuid 0) ∧
      target = source.rotated id (store.crates.sha256 (opaqueSecret (draws.uuid 0))) (draws.now 0) := by
  simp only [issueInvite, bind_ok_iff, returnExcept_ok_iff, transaction_ok_iff, attempt_ok_iff,
    query_ok_iff, orFail_ok_iff, execute_ok_iff, failIf_ok_iff, pure_ok_iff, env_now, env_uuid] at success
  obtain ⟨id, _, ⟨valid, rfl⟩, _, _, ⟨_, _, rfl, _, _, ⟨rfl, rfl⟩, room, _, ⟨found, rfl⟩, _, _,
    ⟨free, rfl⟩, _, _, ⟨rfl, rfl⟩, _, _, ⟨some, rfl⟩, _, _, ⟨-, rfl⟩, _, _, ⟨-, rfl⟩, _, _, rfl, rfl, rfl⟩,
    rfl, rfl⟩ := success
  obtain ⟨member, named⟩ := Table.find?_eq_some found
  obtain ⟨invite, held, chosen⟩ := Table.count_ne_zero.mp some
  exact ⟨id, valid, ⟨room, member, eq_of_beq named, free⟩, ⟨invite, held, eq_of_beq chosen⟩, rfl, rfl⟩

theorem issueInvite_error (failed : store.issueInvite draws.env roomId source = .error error target) :
    source = target := by
  simp only [issueInvite, bind_error_iff, returnExcept_ok_iff, returnExcept_error_iff,
    transaction_error_iff, pure_ne_error, and_false, exists_false, or_false] at failed
  rcases failed with ⟨-, same⟩ | ⟨id, _, ⟨-, rfl⟩, same, -⟩
  · exact same
  · exact same

/-- A room has one row, so the one that is found decides whether it is open. -/
theorem open_room_iff {db : Db} : (∃ room ∈ db.rooms, room.id = roomId ∧ room.status ≠ .closed) ↔
    ∃ room, db.rooms.find? (·.id == roomId) = some room ∧ room.status ≠ .closed := by
  have fixes : ∀ left right : RoomRow, (left.id == roomId) → (right.id == roomId) → left.id = right.id :=
    fun _ _ leftNamed rightNamed => (eq_of_beq leftNamed).trans (eq_of_beq rightNamed).symm
  simp only [Table.find?_eq_some_iff fixes, beq_iff_eq]
  exact exists_congr fun room => and_assoc.symm

theorem admitGuest_ok_iff {inviteDigest sessionDigest : List UInt8} {participantId sealedName : String} :
    admitGuest draws.env inviteDigest sessionDigest participantId sealedName source = .ok roomId target ↔
      ∃ invite joined, source.Admits inviteDigest (draws.now 0) invite ∧ invite.roomId = roomId ∧
        source.insertParticipant
          (newParticipant roomId (draws.now 0) .guest participantId sealedName) = some joined ∧
        joined.insertSession (newSession roomId (draws.now 0) sessionDigest participantId) = some target := by
  simp only [admitGuest, transaction_ok_iff, bind_ok_iff, attempt_ok_iff, query_ok_iff, orFail_ok_iff,
    failIf_ok_iff, insert_ok_iff, pure_ok_iff, env_now, not_or, not_not, Bool.not_eq_true,
    Option.isSome_eq_false_iff, Option.isNone_iff_eq_none, Db.futureTimestamp_iff, not_le]
  constructor
  · rintro ⟨_, _, rfl, _, _, ⟨rfl, rfl⟩, invite, _, ⟨found, rfl⟩, _, _, ⟨⟨unrevoked, unexpired, dated⟩, rfl⟩, _, _,
      ⟨rfl, rfl⟩, room, _, ⟨known, rfl⟩, _, _, ⟨free, rfl⟩, _, _, ⟨rfl, rfl⟩, _, _, ⟨capacity, rfl⟩, _, joined,
      first, _, _, second, _, _, rfl, rfl, rfl⟩
    exact ⟨invite, joined, ⟨found, unrevoked, unexpired, dated, open_room_iff.mpr ⟨room, known, free⟩, capacity⟩,
      rfl, first, second⟩
  · rintro ⟨invite, joined, ⟨found, unrevoked, unexpired, dated, opened, capacity⟩, rfl, first, second⟩
    obtain ⟨room, known, free⟩ := open_room_iff.mp opened
    exact ⟨(), _, rfl, _, _, ⟨rfl, rfl⟩, invite, _, ⟨found, rfl⟩, (), _, ⟨⟨unrevoked, unexpired, dated⟩, rfl⟩, _, _,
      ⟨rfl, rfl⟩, room, _, ⟨known, rfl⟩, (), _, ⟨free, rfl⟩, _, _, ⟨rfl, rfl⟩, (), _, ⟨capacity, rfl⟩, (), joined,
      first, (), _, second, (), _, rfl, rfl, rfl⟩

/-- An exchange succeeds exactly when its name is valid and seals, its text is readable, and the tables
let a guest in and take the two new rows. -/
theorem exchangeInvite_ok_iff {raw displayName : String} {session : RoomSession} :
    store.exchangeInvite draws.env raw displayName source = .ok session target ↔
      ∃ name cell invite joined, Limits.validateDisplayName displayName = .ok name ∧
        isReadableInvite (trim raw) ∧
        store.sealing.sealText (draws.nonce 0) name
          (ctx "room_participants" "display_name" (opaqueId "member_" (draws.uuid 1))) = .ok cell ∧
        source.Admits (store.crates.sha256 (trim raw)) (draws.now 0) invite ∧
        source.insertParticipant (newParticipant invite.roomId (draws.now 0) .guest
          (opaqueId "member_" (draws.uuid 1)) cell) = some joined ∧
        joined.insertSession (newSession invite.roomId (draws.now 0)
          (store.crates.sha256 (opaqueSecret (draws.uuid 0))) (opaqueId "member_" (draws.uuid 1))) =
            some target ∧
        session = ⟨invite.roomId, opaqueId "member_" (draws.uuid 1), .guest, name,
          opaqueSecret (draws.uuid 0)⟩ := by
  simp only [exchangeInvite, orInvalid, bind_ok_iff, returnExcept_ok_iff, failIf_ok_iff, sealCell_ok_iff,
    admitGuest_ok_iff, pure_ok_iff, env_uuid, isReadableInvite, not_or, not_lt, Bool.not_eq_true]
  constructor
  · rintro ⟨name, _, ⟨valid, rfl⟩, _, _, ⟨readable, rfl⟩, cell, _, ⟨sealed, rfl⟩, _, _,
      ⟨invite, joined, admits, rfl, first, second⟩, rfl, rfl⟩
    refine ⟨name, cell, invite, joined, ?_, readable, sealed, admits, first, second, rfl⟩
    cases result : Limits.validateDisplayName displayName <;> simp_all [Except.mapError]
  · rintro ⟨name, cell, invite, joined, valid, readable, sealed, admits, first, second, rfl⟩
    exact ⟨name, _, ⟨by rw [valid]; rfl, rfl⟩, (), _, ⟨readable, rfl⟩, cell, _, ⟨sealed, rfl⟩, _, _,
      ⟨invite, joined, admits, rfl, first, second⟩, rfl, rfl⟩

theorem exchangeInvite_error {raw displayName : String}
    (failed : store.exchangeInvite draws.env raw displayName source = .error error target) :
    source = target := by
  simp only [exchangeInvite, orInvalid, bind_error_iff, returnExcept_ok_iff, returnExcept_error_iff,
    failIf_ok_iff, failIf_error_iff, sealCell_ok_iff, sealCell_error_iff, admitGuest,
    transaction_error_iff, pure_ne_error, and_false, exists_false, or_false] at failed
  rcases failed with ⟨-, same⟩ | ⟨_, _, ⟨-, rfl⟩, failed⟩
  · exact same
  rcases failed with ⟨-, -, same⟩ | ⟨_, _, ⟨-, rfl⟩, failed⟩
  · exact same
  rcases failed with ⟨-, same⟩ | ⟨_, _, ⟨-, rfl⟩, same, -⟩
  · exact same
  · exact same

/-- The id is the key of a participant, so a lookup by it finds the participant that has it. -/
theorem find_participant_iff {db : Db} {participantId : String} {participant : ParticipantRow} :
    db.participants.find? (·.id == participantId) = some participant ↔
      participant ∈ db.participants ∧ participant.id = participantId := by
  rw [Table.find?_eq_some_iff fun _ _ left right => (eq_of_beq left).trans (eq_of_beq right).symm,
    beq_iff_eq]

/-- A digest is the key of a session, so at most one session is found by it. -/
theorem findSession_eq_some_iff {digest : List UInt8} {db : Db} {session : SessionRow}
    {participant : ParticipantRow} :
    findSession digest db = some (session, participant) ↔
      (session ∈ db.sessions ∧ session.digest = digest) ∧
        participant ∈ db.participants ∧ participant.id = session.participantId := by
  have joined (row : SessionRow) : ((if row.digest = digest then
        (db.participants.find? (·.id == row.participantId)).map fun participant => (row, participant)
      else none) = some (session, participant)) ↔
        row.digest = digest ∧ row = session ∧ participant ∈ db.participants ∧ participant.id = row.participantId := by
    split
    · next same =>
      simp only [Option.map_eq_some_iff, find_participant_iff, Prod.mk.injEq, same, true_and]
      exact ⟨fun ⟨_, held, row, other⟩ => other ▸ ⟨row, held⟩, fun ⟨row, held⟩ => ⟨_, held, row, rfl⟩⟩
    · next other => simp [other]
  constructor
  · intro found
    obtain ⟨row, member, chosen⟩ := List.exists_of_findSome?_eq_some found
    obtain ⟨same, rfl, held⟩ := (joined row).mp chosen
    exact ⟨⟨member, same⟩, held⟩
  · rintro ⟨⟨member, same⟩, held⟩
    have chosen := (joined session).mpr ⟨same, rfl, held⟩
    cases found : findSession digest db with
    | none => exact absurd (List.findSome?_eq_none_iff.mp found session member) (by rw [chosen]; simp)
    | some other =>
      obtain ⟨row, rowMem, rowChosen⟩ := List.exists_of_findSome?_eq_some found
      have digests : row.digest = digest := by
        by_contra apart
        simp [apart] at rowChosen
      obtain rfl := Table.eq_of_key rowMem member (digests.trans same.symm)
      exact rowChosen.symm.trans chosen

/-- A session resolves exactly when it is found, live, and its participant's name opens. -/
theorem resolveSession_some_iff {raw : String} {resolved : RoomSession} :
    store.resolveSession draws.env raw source = .ok (some resolved) target ↔
      source = target ∧ ∃ session participant name, (trim raw ≠ "" ∧ (trim raw).utf8ByteSize ≤ 128) ∧
        findSession (store.crates.sha256 (trim raw)) source = some (session, participant) ∧
        Db.isLiveAt (draws.now 0) session ∧
        store.sealing.openText participant.displayName
          (ctx "room_participants" "display_name" session.participantId) = .ok name ∧
        resolved = ⟨session.roomId, session.participantId, session.role, name, trim raw⟩ := by
  simp only [resolveSession, Db.isLiveAt]
  split
  · next unreadable =>
    simp only [pure_ok_iff, reduceCtorEq, false_and, false_iff, not_and, not_exists]
    rintro - _ _ _ readable
    exact absurd unreadable (by rwa [not_or, not_lt])
  · next readable =>
    rw [not_or, not_lt] at readable
    simp only [bind_ok_iff, query_ok_iff]
    constructor
    · rintro ⟨found, _, ⟨looked, rfl⟩, rest⟩
      cases found with
      | none => simp at rest
      | some pair =>
        obtain ⟨session, participant⟩ := pair
        dsimp only at rest
        split at rest
        · simp at rest
        · next live =>
          simp only [bind_ok_iff, openCell_ok_iff, pure_ok_iff, Option.some.injEq] at rest
          obtain ⟨name, _, ⟨opened, rfl⟩, rfl, rfl⟩ := rest
          refine ⟨rfl, session, participant, name, readable, looked, ?_, opened, rfl⟩
          simpa [not_or, Option.isSome_eq_false_iff] using live
    · rintro ⟨rfl, session, participant, name, -, looked, live, opened, rfl⟩
      refine ⟨_, _, ⟨looked, rfl⟩, ?_⟩
      dsimp only
      split
      · next dead =>
        exact absurd dead (by simpa [not_or, Option.isSome_eq_false_iff] using live)
      · simp only [bind_ok_iff, openCell_ok_iff, pure_ok_iff]
        exact ⟨name, _, ⟨opened, rfl⟩, rfl, rfl⟩

/-- The host's session is that of the room's host. -/
theorem hostSession_ok {session : RoomSession}
    (success : store.hostSession draws.env roomId source = .ok session target) :
    source = target ∧ ∃ host ∈ source.participants, host.id = session.participantId ∧ host.role = .host ∧
      host.roomId = session.roomId ∧ validateRoomId roomId = .ok session.roomId := by
  simp only [hostSession, bind_ok_iff, returnExcept_ok_iff, query_ok_iff, orFail_ok_iff, openCell_ok_iff,
    pure_ok_iff] at success
  obtain ⟨id, _, ⟨valid, rfl⟩, _, _, ⟨rfl, rfl⟩, host, _, ⟨found, rfl⟩, _, _, ⟨-, rfl⟩, rfl, rfl⟩ := success
  obtain ⟨member, chosen⟩ := Table.find?_eq_some found
  simp only [Bool.and_eq_true, beq_iff_eq] at chosen
  exact ⟨rfl, host, member, rfl, chosen.2, chosen.1, valid⟩

end Access

section Turns

variable {session : RoomSession} {input : SubmitTurnInput} {turn : AppendedTurn}

/-- The inserting branch needs a free room, and gives it a message and a running run. -/
theorem insertTurn_ok {key : Option String} {text : String}
    (success : store.insertTurn draws.env session key text source = .ok turn target) :
    ∃ messageText inputText partialText messaged ran,
      turn = ⟨session.roomId, opaqueId "run_" (draws.uuid 1), some (opaqueId "msg_" (draws.uuid 0)), text⟩ ∧
      (∀ run ∈ source.runs, ¬ Db.isActiveIn session.roomId run) ∧
      source.insertMessage (newMessage session.roomId (draws.now 0) .user
        (opaqueId "msg_" (draws.uuid 0)) messageText (some session.participantId)) = some messaged ∧
      messaged.insertRun (newRun session.roomId (draws.now 0) (opaqueId "run_" (draws.uuid 1))
        (opaqueId "req_" (draws.uuid 2)) key inputText partialText) = some ran ∧
      target = (Db.setRoomStatus session.roomId (fun _ => .running) (draws.now 0) ran).1 := by
  simp only [insertTurn, bind_ok_iff, query_ok_iff, failIf_ok_iff, sealCell_ok_iff, insert_ok_iff,
    execute_ok_iff, attempt_ok_iff, pure_ok_iff, env_now, env_uuid] at success
  obtain ⟨_, _, ⟨rfl, rfl⟩, _, _, ⟨free, rfl⟩, messageText, _, ⟨-, rfl⟩, inputText, _, ⟨-, rfl⟩,
    partialText, _, ⟨-, rfl⟩, _, messaged, first, _, ran, second, _, _, ⟨-, rfl⟩, _, _, rfl, rfl, rfl⟩ := success
  refine ⟨messageText, inputText, partialText, messaged, ran, rfl, ?_, first, second, rfl⟩
  exact Table.count_eq_zero.mp (Nat.eq_zero_of_not_pos free)

theorem retryTurn_ok {text : String} {run : RunRow}
    (success : store.retryTurn draws.env session text run source = .ok turn target) :
    turn = ⟨session.roomId, run.id, none, text⟩ ∧ source = target := by
  simp only [retryTurn, bind_ok_iff, openCell_ok_iff, failIf_ok_iff, attempt_ok_iff, pure_ok_iff] at success
  obtain ⟨_, _, ⟨-, rfl⟩, _, _, ⟨-, rfl⟩, _, _, rfl, rfl, rfl⟩ := success
  exact ⟨rfl, rfl⟩

theorem validKey_ok {key result : Option String}
    (success : (validKey key : StoreM _) source = .ok result target) : source = target := by
  cases key with
  | none => exact (pure_ok_iff.mp success).2
  | some value =>
    obtain ⟨_, checked, -⟩ := map_ok_iff.mp success
    exact (returnExcept_ok_iff.mp checked).2

theorem findRetried_ok {roomId : String} {key : Option String} {found : Option RunRow}
    (success : findRetried draws.env roomId key source = .ok found target) :
    source = target ∧ ∀ run ∈ found, run ∈ source.runs ∧ run.roomId = roomId := by
  cases key with
  | none =>
    obtain ⟨rfl, rfl⟩ := pure_ok_iff.mp success
    exact ⟨rfl, fun _ absent => absurd absent (Option.not_mem_none _)⟩
  | some key =>
    obtain ⟨rfl, rfl⟩ := query_ok_iff.mp success
    refine ⟨rfl, fun run looked => ?_⟩
    obtain ⟨member, chosen⟩ := Table.find?_eq_some looked
    simp only [Bool.and_eq_true, beq_iff_eq] at chosen
    exact ⟨member, chosen.1⟩

/-- A turn needs an open room; a retry returns a run of the room and changes nothing. -/
theorem appendTurn_ok (success : store.appendTurn draws.env session input source = .ok turn target) :
    (session.role ≠ .viewer ∧ ∃ room ∈ source.rooms, room.id = session.roomId ∧ room.status ≠ .closed) ∧
      ((turn.messageId = none ∧ turn.roomId = session.roomId ∧ target = source ∧
          ∃ run ∈ source.runs, run.id = turn.runId ∧ run.roomId = session.roomId) ∨
        ∃ key text, store.insertTurn draws.env session key text source = .ok turn target) := by
  simp only [appendTurn, orInvalid, bind_ok_iff, failIf_ok_iff, returnExcept_ok_iff,
    transaction_ok_iff, attempt_ok_iff, query_ok_iff, orFail_ok_iff] at success
  obtain ⟨_, _, ⟨allowed, rfl⟩, text, _, ⟨-, rfl⟩, key, _, keyed, _, _, rfl, _, _, ⟨rfl, rfl⟩, room, _,
    ⟨known, rfl⟩, _, _, ⟨free, rfl⟩, existing, _, looked, rest⟩ := success
  obtain rfl := validKey_ok keyed
  obtain ⟨rfl, listed⟩ := findRetried_ok looked
  refine ⟨⟨allowed, open_room_iff.mpr ⟨room, known, free⟩⟩, ?_⟩
  cases existing with
  | none => exact Or.inr ⟨key, text, rest⟩
  | some run =>
    obtain ⟨rfl, rfl⟩ := retryTurn_ok rest
    obtain ⟨member, owned⟩ := listed run rfl
    exact Or.inl ⟨rfl, rfl, rfl, run, member, rfl, owned⟩

theorem appendTurn_error (failed : store.appendTurn draws.env session input source = .error error target) :
    source = target := by
  simp only [appendTurn, orInvalid, bind_error_iff, failIf_ok_iff, failIf_error_iff, returnExcept_ok_iff,
    returnExcept_error_iff, transaction_error_iff] at failed
  rcases failed with ⟨-, -, same⟩ | ⟨_, _, ⟨-, rfl⟩, ⟨-, same⟩ | ⟨_, _, ⟨-, rfl⟩, failed⟩⟩
  · exact same
  · exact same
  rcases failed with failed | ⟨_, _, keyed, same, -⟩
  · cases key : input.idempotencyKey <;> simp_all [validKey, orInvalid]
  · exact (validKey_ok keyed).trans same

/-- A delta extends a running run of the room. -/
theorem appendDelta_ok {roomId runId delta : String} {result : Unit}
    (success : store.appendDelta draws.env roomId runId delta source = .ok result target) :
    (∃ run ∈ source.runs, run.id = runId ∧ run.roomId = roomId ∧ run.status = .running) ∧
      ∃ cell, target = source.extended roomId runId cell (draws.now 0) := by
  simp only [appendDelta, orInvalid, bind_ok_iff, returnExcept_ok_iff, query_ok_iff, orFail_ok_iff,
    openCell_ok_iff, sealCell_ok_iff, failIf_ok_iff, execute_ok_iff, pure_ok_iff, env_now] at success
  obtain ⟨_, _, ⟨-, rfl⟩, _, _, ⟨rfl, rfl⟩, run, _, ⟨found, rfl⟩, _, _, ⟨-, rfl⟩, _, _, ⟨-, rfl⟩, cell, _,
    ⟨-, rfl⟩, _, _, ⟨-, rfl⟩, _, _, ⟨-, rfl⟩, -, rfl⟩ := success
  obtain ⟨member, chosen⟩ := Table.find?_eq_some found
  simp only [Bool.and_eq_true, beq_iff_eq, and_assoc] at chosen
  exact ⟨⟨run, member, chosen⟩, cell, rfl⟩

theorem appendDelta_error {roomId runId delta : String}
    (failed : store.appendDelta draws.env roomId runId delta source = .error error target) :
    source = target := by
  simp only [appendDelta, orInvalid, bind_error_iff, returnExcept_ok_iff, returnExcept_error_iff,
    query_ok_iff, query_ne_error, orFail_ok_iff, orFail_error_iff, openCell_ok_iff, openCell_error_iff,
    sealCell_ok_iff, sealCell_error_iff, failIf_ok_iff, failIf_error_iff, execute_ok_iff,
    execute_ne_error, pure_ne_error, and_false, false_or, or_false, exists_false] at failed
  rcases failed with ⟨-, same⟩ | ⟨_, _, ⟨-, rfl⟩, _, _, ⟨rfl, rfl⟩, failed⟩
  · exact same
  rcases failed with ⟨-, -, same⟩ | ⟨_, _, ⟨-, rfl⟩, failed⟩
  · exact same
  rcases failed with ⟨-, same⟩ | ⟨_, _, ⟨-, rfl⟩, failed⟩
  · exact same
  rcases failed with ⟨-, -, same⟩ | ⟨_, _, ⟨-, rfl⟩, -, same⟩
  · exact same
  · exact same

/-- The answer is the only message `finish_run` adds. -/
theorem insertAnswer_ok {roomId text : String} {status : RunStatus} {result : Unit}
    (success : store.insertAnswer draws.env roomId text status source = .ok result target) :
    source = target ∨ (status = .completed ∧ ∃ cell, source.insertMessage (newMessage roomId (draws.now 0)
      .assistant (opaqueId "msg_" (draws.uuid 0)) cell none) = some target) := by
  simp only [insertAnswer] at success
  split at success
  · next answered =>
    simp only [bind_ok_iff, sealCell_ok_iff, insert_ok_iff, env_now, env_uuid] at success
    obtain ⟨cell, _, ⟨-, rfl⟩, inserted⟩ := success
    exact Or.inr ⟨answered.1, cell, inserted⟩
  · exact Or.inl (pure_ok_iff.mp success).2

theorem recordTerminal_ok {roomId : String} {run : RunRow} {terminal : RunTerminal} {result : Unit}
    (success : store.recordTerminal draws.env roomId run terminal source = .ok result target) :
    ∃ answered message, (source = answered ∨ (terminal.status = .completed ∧ ∃ cell,
        source.insertMessage (newMessage roomId (draws.now 0) .assistant
          (opaqueId "msg_" (draws.uuid 0)) cell none) = some answered)) ∧
      target = answered.settled roomId run.id terminal.status terminal.errorCode message (draws.now 0) := by
  simp only [recordTerminal, bind_ok_iff, openCell_ok_iff, execute_ok_iff, pure_ok_iff, env_now] at success
  obtain ⟨_, _, ⟨-, rfl⟩, _, answered, answer, message, _, sealed, _, _, ⟨-, rfl⟩, _, _, ⟨-, rfl⟩, -,
    rfl⟩ := success
  obtain rfl := sealOpt_ok sealed
  exact ⟨answered, message, insertAnswer_ok answer, rfl⟩

theorem trimHistory_ok {roomId : String} {result : Unit}
    (success : trimHistory draws.env roomId source = .ok result target) : target = source.trimmed roomId := by
  simp only [trimHistory, bind_ok_iff, execute_ok_iff, pure_ok_iff] at success
  obtain ⟨_, _, ⟨-, rfl⟩, _, _, ⟨-, rfl⟩, -, rfl⟩ := success
  rfl

/-- Finishing an unfinished run records its terminal status, its answer and its trims; finishing a
finished run changes nothing. -/
theorem settleRun_ok {roomId runId : String} {terminal : RunTerminal} {result : Unit}
    (success : store.settleRun draws.env roomId runId terminal source = .ok result target) :
    ∃ id, validateRoomId roomId = .ok id ∧ ∃ run ∈ source.runs, (run.id = runId ∧ run.roomId = id) ∧
      ((run.status.isActive = false ∧ target = source) ∨
        (run.status.isActive ∧ ∃ answered message,
          (source = answered ∨ (terminal.status = .completed ∧ ∃ cell,
            source.insertMessage (newMessage id (draws.now 0) .assistant
              (opaqueId "msg_" (draws.uuid 0)) cell none) = some answered)) ∧
          target = (answered.settled id runId terminal.status terminal.errorCode message
            (draws.now 0)).trimmed id)) := by
  simp only [settleRun, bind_ok_iff, returnExcept_ok_iff, transaction_ok_iff, attempt_ok_iff,
    query_ok_iff, orFail_ok_iff] at success
  obtain ⟨id, _, ⟨valid, rfl⟩, _, _, rfl, _, _, ⟨rfl, rfl⟩, run, _, ⟨found, rfl⟩, success⟩ := success
  obtain ⟨member, chosen⟩ := Table.find?_eq_some found
  simp only [Bool.and_eq_true, beq_iff_eq] at chosen
  refine ⟨id, valid, run, member, chosen, ?_⟩
  split at success
  · next active =>
    simp only [bind_ok_iff, attempt_ok_iff] at success
    obtain ⟨_, _, recorded, _, _, trims, rfl⟩ := success
    obtain ⟨answered, message, answer, rfl⟩ := recordTerminal_ok recorded
    exact Or.inr ⟨active, answered, message, answer, chosen.1 ▸ trimHistory_ok trims⟩
  · next finished =>
    exact Or.inl ⟨Bool.eq_false_iff.mpr finished, (attempt_ok_iff.mp success).symm⟩

theorem settleRun_error {roomId runId : String} {terminal : RunTerminal}
    (failed : store.settleRun draws.env roomId runId terminal source = .error error target) :
    source = target := by
  simp only [settleRun, bind_error_iff, returnExcept_ok_iff, returnExcept_error_iff,
    transaction_error_iff] at failed
  rcases failed with ⟨-, same⟩ | ⟨_, _, ⟨-, rfl⟩, same, -⟩
  · exact same
  · exact same

/-- Stopping needs an unfinished run of the room. -/
theorem stopRun_ok {roomId runId : String} {result : Unit}
    (success : store.stopRun draws.env roomId runId source = .ok result target) :
    ∃ id message, validateRoomId roomId = .ok id ∧
      (∃ run ∈ source.runs, run.id = runId ∧ Db.isActiveIn id run) ∧
      target = source.stopped id runId message (draws.now 0) (draws.now 1) := by
  simp only [stopRun, bind_ok_iff, returnExcept_ok_iff, sealCell_ok_iff, execute_ok_iff, failIf_ok_iff,
    pure_ok_iff, env_now] at success
  obtain ⟨id, _, ⟨valid, rfl⟩, message, _, ⟨-, rfl⟩, _, _, ⟨rfl, rfl⟩, _, _, ⟨some, rfl⟩, _, _,
    ⟨-, rfl⟩, -, rfl⟩ := success
  obtain ⟨run, member, chosen⟩ := Table.count_ne_zero.mp some
  simp only [Bool.and_eq_true, beq_iff_eq] at chosen
  exact ⟨id, message, valid, ⟨run, member, chosen⟩, rfl⟩

theorem stopRun_error {roomId runId : String}
    (failed : store.stopRun draws.env roomId runId source = .error error target) : source = target := by
  simp only [stopRun, bind_error_iff, returnExcept_ok_iff, returnExcept_error_iff, sealCell_ok_iff,
    sealCell_error_iff, execute_ok_iff, execute_ne_error, failIf_error_iff, pure_ne_error, false_or,
    or_false, exists_false, and_false] at failed
  rcases failed with ⟨-, same⟩ | ⟨_, _, ⟨-, rfl⟩, ⟨-, same⟩ | ⟨_, _, ⟨-, rfl⟩, _, _, ⟨rfl, rfl⟩, none, -, rfl⟩⟩
  · exact same
  · exact same
  · exact congrArg (fun runs => { source with runs }) (Table.update_of_count_eq_zero none).symm

theorem interruptedMessage_ok {index : ℕ} {runId : String} {message : Option String}
    (success : store.interruptedMessage draws.env index runId source = .ok message target) :
    source = target := by
  cases writable : store.sealing.ensureWritable with
  | ok =>
    simp only [interruptedMessage, writable, map_ok_iff, sealCell_ok_iff] at success
    obtain ⟨_, ⟨-, same⟩, -⟩ := success
    exact same
  | error =>
    simp only [interruptedMessage, writable, pure_ok_iff] at success
    exact success.2

/-- A store that cannot seal clears the message instead of failing. -/
theorem interruptedMessage_ne_error {index : ℕ} {runId : String} :
    store.interruptedMessage draws.env index runId source ≠ .error error target := by
  cases sealing : store.sealing <;>
    simp [interruptedMessage, StoreSeal.ensureWritable, StoreSeal.sealText, sealing, sealCell_error_iff]

/-- Without a failing step every interruption takes effect, whether or not the store can seal. -/
theorem interruptRuns_ok {ids : List String} {index changed : ℕ}
    (success : store.interruptRuns draws.env ids index source = .ok changed target) :
    ∃ messages, messages.map Prod.fst = ids ∧ target = Db.interrupted (draws.now 0) messages source := by
  induction ids generalizing source index changed with
  | nil =>
    obtain ⟨-, rfl⟩ := pure_ok_iff.mp success
    exact ⟨[], rfl, rfl⟩
  | cons runId rest ih =>
    simp only [interruptRuns, bind_ok_iff, execute_ok_iff, pure_ok_iff, env_now] at success
    obtain ⟨message, _, drawn, _, _, ⟨-, rfl⟩, more, _, interrupts, -, rfl⟩ := success
    obtain rfl := interruptedMessage_ok drawn
    obtain ⟨messages, rfl, rfl⟩ := ih interrupts
    exact ⟨(runId, message) :: messages, rfl, rfl⟩

theorem interruptRuns_ne_error {ids : List String} {index : ℕ} :
    store.interruptRuns draws.env ids index source ≠ .error error target := by
  induction ids generalizing source index with
  | nil => exact pure_ne_error
  | cons runId rest ih =>
    intro failed
    simp only [interruptRuns, bind_error_iff, execute_ok_iff, execute_ne_error, pure_ne_error, and_false,
      false_or, or_false, exists_false] at failed
    rcases failed with failed | ⟨_, _, -, _, _, -, failed⟩
    · exact interruptedMessage_ne_error failed
    · exact ih failed

/-- Recovery interrupts every unfinished run and fails every running room. -/
theorem recoverRunning_ok {changed : ℕ}
    (success : store.recoverRunning draws.env source = .ok changed target) :
    ∃ messages, messages.map Prod.fst = (source.runs.select (·.status.isActive)).map RunRow.id ∧
      target = (Db.failRunningRooms (draws.now 0) (Db.interrupted (draws.now 0) messages source)).1 := by
  simp only [recoverRunning, bind_ok_iff, query_ok_iff, execute_ok_iff, pure_ok_iff, env_now] at success
  obtain ⟨_, _, ⟨rfl, rfl⟩, _, _, interrupts, _, _, ⟨-, rfl⟩, -, rfl⟩ := success
  obtain ⟨messages, listed, rfl⟩ := interruptRuns_ok interrupts
  exact ⟨messages, listed, rfl⟩

/-- A store that cannot seal still recovers. -/
theorem recoverRunning_ne_error : store.recoverRunning draws.env source ≠ .error error target := by
  intro failed
  simp only [recoverRunning, bind_error_iff, query_ok_iff, query_ne_error, execute_ne_error,
    pure_ne_error, and_false, false_or, or_false, exists_false] at failed
  obtain ⟨_, _, -, failed⟩ := failed
  exact interruptRuns_ne_error failed

end Turns

end RoomStore

end RyuRooms
