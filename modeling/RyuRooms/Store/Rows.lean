import RyuRooms.Store.Outcomes

/-! # The rows each operation leaves

For every operation that updates or deletes: which tables it leaves alone, and one membership lemma
for each table it touches. A row after the operation is an old row or its image, so facts about rows
move forward and back without unfolding a statement.
-/

namespace RyuRooms.Db

open Foundation

variable {db : Db} {roomId runId : String}

@[simp] theorem isActiveIn_iff {run : RunRow} :
    isActiveIn roomId run ↔ run.roomId = roomId ∧ run.status.isActive := by
  simp [isActiveIn]

@[simp] theorem isGuestOf_iff {participant : ParticipantRow} :
    isGuestOf roomId participant ↔ participant.roomId = roomId ∧ participant.role = .guest := by
  simp [isGuestOf]

theorem isLiveAt_iff {now : Instant} {session : SessionRow} : isLiveAt now session ↔
    session.revokedAt = none ∧ now < session.expiresAt ∧ session.expiresAt < Rfc3339.YEAR_10000 := by
  simp [isLiveAt]

section Rooms

theorem mem_setRoomStatus {status : RoomStatus → RoomStatus} {now : Instant} {room : RoomRow} :
    room ∈ (setRoomStatus roomId status now db).1.rooms ↔ ∃ old ∈ db.rooms,
      (if old.id == roomId then { old with status := status old.status, updatedAt := now } else old) = room :=
  List.mem_map

theorem mem_closed_rooms {closedAt inviteAt sessionAt : Instant} {room : RoomRow} :
    room ∈ (db.closed roomId closedAt inviteAt sessionAt).rooms ↔ ∃ old ∈ db.rooms,
      (if old.id == roomId && old.status != .closed then { old with status := .closed, updatedAt := closedAt }
        else old) = room :=
  List.mem_map

theorem mem_failRunningRooms {now : Instant} {room : RoomRow} :
    room ∈ (failRunningRooms now db).1.rooms ↔ ∃ old ∈ db.rooms,
      (if old.status == .running then { old with status := .failed, updatedAt := now } else old) = room :=
  List.mem_map

end Rooms

section Runs

theorem mem_setPartialText {cell : String} {run : RunRow} :
    run ∈ (setPartialText roomId runId cell db).1.runs ↔ ∃ old ∈ db.runs,
      (if old.id == runId && old.roomId == roomId && old.status == .running then { old with partialText := cell }
        else old) = run :=
  List.mem_map

theorem mem_settled_runs {status : RunStatus} {errorCode message : Option String} {now : Instant}
    {run : RunRow} :
    run ∈ (db.settled roomId runId status errorCode message now).runs ↔ ∃ old ∈ db.runs,
      (if old.id == runId && old.roomId == roomId then
        { old with status, errorCode, errorMessage := message, finishedAt := some now } else old) = run :=
  List.mem_map

theorem mem_stopped_runs {message : String} {runAt roomAt : Instant} {run : RunRow} :
    run ∈ (db.stopped roomId runId message runAt roomAt).runs ↔ ∃ old ∈ db.runs,
      (if old.id == runId && isActiveIn roomId old then
        { old with status := .canceled, errorCode := some "canceled", errorMessage := some message,
                   finishedAt := some runAt } else old) = run :=
  List.mem_map

theorem mem_interruptRun {message : Option String} {now : Instant} {run : RunRow} :
    run ∈ (interruptRun runId message now db).1.runs ↔ ∃ old ∈ db.runs,
      (if old.id == runId && old.status.isActive then
        { old with status := .failed, errorCode := some "nodeRestarted", errorMessage := message,
                   finishedAt := some now } else old) = run :=
  List.mem_map

@[simp] theorem interrupted_rooms {messages : List (String × Option String)} {now : Instant} :
    (interrupted now messages db).rooms = db.rooms := by
  induction messages generalizing db with
  | nil => rfl
  | cons first rest ih => exact ih

@[simp] theorem interrupted_messages {messages : List (String × Option String)} {now : Instant} :
    (interrupted now messages db).messages = db.messages := by
  induction messages generalizing db with
  | nil => rfl
  | cons first rest ih => exact ih

/-- Interrupting leaves a run as it was or ends it, and ends every unfinished run that is listed. -/
theorem of_mem_interrupted {messages : List (String × Option String)} {now : Instant} {run : RunRow}
    (member : run ∈ (interrupted now messages db).runs) :
    ∃ old ∈ db.runs, old.id = run.id ∧ old.roomId = run.roomId ∧
      (run.status.isActive → old = run ∧ run.id ∉ messages.map Prod.fst) := by
  induction messages generalizing db with
  | nil => exact ⟨run, member, rfl, rfl, fun _ => ⟨rfl, List.not_mem_nil⟩⟩
  | cons first rest ih =>
    obtain ⟨middle, held, sameId, sameRoom, active⟩ := ih member
    obtain ⟨old, oldMem, image⟩ := mem_interruptRun.mp held
    split at image
    · next ended =>
      subst image
      refine ⟨old, oldMem, sameId, sameRoom, fun alive => ?_⟩
      rw [← (active alive).1] at alive
      cases alive
    · next kept =>
      subst image
      refine ⟨old, oldMem, sameId, sameRoom, fun alive => ?_⟩
      obtain ⟨rfl, absent⟩ := active alive
      simp only [Bool.and_eq_true, beq_iff_eq, not_and, alive, not_true_eq_false, imp_false] at kept
      exact ⟨rfl, by simp [kept, absent]⟩

/-- A trim deletes only rows of its room. -/
theorem mem_trimmed_runs_of_ne {run : RunRow} (member : run ∈ db.runs) (other : run.roomId ≠ roomId) :
    run ∈ (db.trimmed roomId).runs :=
  Table.mem_delete.mpr ⟨member, by simp [other]⟩

theorem of_mem_trimmed_runs {run : RunRow} (member : run ∈ (db.trimmed roomId).runs) : run ∈ db.runs :=
  (Table.mem_delete.mp member).1

end Runs

section Access

theorem mem_closed_invites {closedAt inviteAt sessionAt : Instant} {invite : InviteRow} :
    invite ∈ (db.closed roomId closedAt inviteAt sessionAt).invites ↔ ∃ old ∈ db.invites,
      (if old.roomId == roomId && old.revokedAt.isNone then { old with revokedAt := some inviteAt }
        else old) = invite :=
  List.mem_map

theorem mem_revoked_invites {inviteAt sessionAt : Instant} {invite : InviteRow} :
    invite ∈ (db.revoked roomId inviteAt sessionAt).invites ↔ ∃ old ∈ db.invites,
      (if old.roomId == roomId && old.revokedAt.isNone then { old with revokedAt := some inviteAt }
        else old) = invite :=
  List.mem_map

theorem mem_rotated_invites {digest : List UInt8} {now : Instant} {invite : InviteRow} :
    invite ∈ (db.rotated roomId digest now).invites ↔ ∃ old ∈ db.invites,
      (if old.roomId == roomId then
        { old with digest, expiresAt := now + seconds Limits.INVITE_TTL_SECS, revokedAt := none }
        else old) = invite :=
  List.mem_map

theorem mem_revokeSessions {now : Instant} {session : SessionRow} :
    session ∈ (revokeSessions roomId now db).1.sessions ↔ ∃ old ∈ db.sessions,
      (if old.roomId == roomId && old.revokedAt.isNone then { old with revokedAt := some now }
        else old) = session :=
  List.mem_map

theorem mem_closed_participants {closedAt inviteAt sessionAt : Instant} {participant : ParticipantRow} :
    participant ∈ (db.closed roomId closedAt inviteAt sessionAt).participants ↔ ∃ old ∈ db.participants,
      (if old.roomId == roomId then { old with online := false } else old) = participant :=
  List.mem_map

theorem count_closed_participants {closedAt inviteAt sessionAt : Instant} {counted : ParticipantRow → Bool}
    (same : ∀ row : ParticipantRow, counted { row with online := false } = counted row) :
    (db.closed roomId closedAt inviteAt sessionAt).participants.count counted = db.participants.count counted :=
  Table.count_of_map rfl fun row => by split <;> simp [same]

theorem mem_deleteGuests_participants {participant : ParticipantRow} :
    participant ∈ (deleteGuests roomId db).1.participants ↔
      participant ∈ db.participants ∧ ¬ (participant.roomId = roomId ∧ participant.role = .guest) := by
  rw [← isGuestOf_iff]
  exact Table.mem_delete

/-- The sessions of a deleted guest go with its row. -/
theorem mem_deleteGuests_sessions {session : SessionRow} :
    session ∈ (deleteGuests roomId db).1.sessions ↔ session ∈ db.sessions ∧
      ∀ participant ∈ db.participants, participant.roomId = roomId → participant.role = .guest →
        participant.id ≠ session.participantId := by
  rw [show session ∈ (deleteGuests roomId db).1.sessions ↔ _ from Table.mem_delete]
  simp [and_imp]

end Access

end RyuRooms.Db
