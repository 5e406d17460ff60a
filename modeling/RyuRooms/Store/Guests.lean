import RyuRooms.Store.Change
import RyuRooms.Store.Rows

/-! # Rooms, participants and sessions

`Seated` is what the foreign keys and the operations keep between the three tables: every participant is
a host or a guest of a room, every room has exactly one host, and every session belongs to a guest of
its own room. The
last part turns the deletion of a room's guests into the deletion of the room's sessions, through the
cascade.
-/

namespace RyuRooms

open Foundation

namespace Db

/-- Who is in which room, and on which session. -/
structure Seated (db : Db) : Prop where
  inside : ∀ participant ∈ db.participants, ∃ room ∈ db.rooms, room.id = participant.roomId
  hosted : ∀ room ∈ db.rooms, ∃ host ∈ db.participants, host.roomId = room.id ∧ host.role = .host
  single : ∀ left ∈ db.participants, ∀ right ∈ db.participants, left.role = .host → right.role = .host →
    left.roomId = right.roomId → left = right
  guest : ∀ session ∈ db.sessions, ∃ guest ∈ db.participants, guest.id = session.participantId ∧
    guest.roomId = session.roomId ∧ guest.role = .guest
  role : ∀ participant ∈ db.participants, participant.role ≠ .viewer

end Db

/-- Setting a status keeps the ids of the rooms. -/
private theorem room_id_setRoomStatus {db : Db} {roomId : String} {status : RoomStatus → RoomStatus}
    {now : Instant} {id : String} :
    (∃ room ∈ (Db.setRoomStatus roomId status now db).1.rooms, room.id = id) ↔ ∃ room ∈ db.rooms, room.id = id := by
  constructor
  · rintro ⟨room, member, rfl⟩
    obtain ⟨old, held, rfl⟩ := Db.mem_setRoomStatus.mp member
    refine ⟨old, held, ?_⟩
    split <;> rfl
  · rintro ⟨room, member, rfl⟩
    refine ⟨_, Db.mem_setRoomStatus.mpr ⟨room, member, rfl⟩, ?_⟩
    split <;> rfl

/-- Turns neither add nor drop a room. -/
theorem RunChange.room_id_iff {source target : Db} (change : RunChange source target) {id : String} :
    (∃ room ∈ target.rooms, room.id = id) ↔ ∃ room ∈ source.rooms, room.id = id := by
  cases change with
  | unchanged => rfl
  | accepted opened free first second =>
    obtain ⟨-, _, -, rfl⟩ := Db.insertMessage_eq_some_iff.mp first
    obtain ⟨-, _, -, rfl⟩ := Db.insertRun_eq_some_iff.mp second
    exact room_id_setRoomStatus
  | extended => exact room_id_setRoomStatus
  | settled terminal active answer =>
    rcases answer with rfl | ⟨-, _, _, inserted⟩
    · exact room_id_setRoomStatus
    · obtain ⟨-, _, -, rfl⟩ := Db.insertMessage_eq_some_iff.mp inserted
      exact room_id_setRoomStatus
  | stopped active => exact room_id_setRoomStatus
  | recovered listed =>
    constructor
    · rintro ⟨room, member, rfl⟩
      obtain ⟨old, held, rfl⟩ := Db.mem_failRunningRooms.mp member
      rw [Db.interrupted_rooms] at held
      refine ⟨old, held, ?_⟩
      split <;> rfl
    · rintro ⟨room, member, rfl⟩
      refine ⟨_, Db.mem_failRunningRooms.mpr ⟨room, by rwa [Db.interrupted_rooms], rfl⟩, ?_⟩
      split <;> rfl

namespace Db.Seated

variable {source target : Db}

theorem empty : Db.empty.Seated :=
  ⟨by simp [Db.empty], by simp [Db.empty], by simp [Db.empty], by simp [Db.empty], by simp [Db.empty]⟩

/-- The participants and sessions are read with the ids of the rooms only. -/
theorem congr (seated : source.Seated)
    (rooms : ∀ id, (∃ room ∈ target.rooms, room.id = id) ↔ ∃ room ∈ source.rooms, room.id = id)
    (participants : target.participants = source.participants) (sessions : target.sessions = source.sessions) :
    target.Seated := by
  refine ⟨?_, ?_, ?_, ?_, ?_⟩
  · rw [participants]
    intro participant member
    exact (rooms _).mpr (seated.inside participant member)
  · rw [participants]
    intro room member
    obtain ⟨old, held, same⟩ := (rooms room.id).mp ⟨room, member, rfl⟩
    exact same ▸ seated.hosted old held
  · rw [participants]
    exact seated.single
  · rw [participants, sessions]
    exact seated.guest
  · rw [participants]
    exact seated.role

/-- The rows left by deleting the guests of a room, whatever was revoked before. -/
theorem deleted (seated : source.Seated) {roomId : String} {middle : Db}
    (rooms : middle.rooms = source.rooms) (participants : middle.participants = source.participants)
    (sessions : ∀ session ∈ middle.sessions, ∃ old ∈ source.sessions, old.participantId = session.participantId ∧
      old.roomId = session.roomId) : (deleteGuests roomId middle).1.Seated := by
  refine ⟨?_, ?_, ?_, ?_, ?_⟩
  · intro participant member
    rw [mem_deleteGuests_participants, participants] at member
    change ∃ room ∈ middle.rooms, _
    rw [rooms]
    exact seated.inside participant member.1
  · intro room member
    change room ∈ middle.rooms at member
    rw [rooms] at member
    obtain ⟨host, held, same, role⟩ := seated.hosted room member
    refine ⟨host, mem_deleteGuests_participants.mpr ⟨participants ▸ held, ?_⟩, same, role⟩
    simp [role]
  · intro left leftMem right rightMem
    rw [mem_deleteGuests_participants, participants] at leftMem rightMem
    exact seated.single left leftMem.1 right rightMem.1
  · intro session member
    obtain ⟨kept, spared⟩ := mem_deleteGuests_sessions.mp member
    obtain ⟨old, held, samePerson, sameRoom⟩ := sessions session kept
    obtain ⟨guest, there, named, room, role⟩ := seated.guest old held
    rw [participants] at spared
    refine ⟨guest, mem_deleteGuests_participants.mpr ⟨participants ▸ there, ?_⟩, named.trans samePerson,
      room.trans sameRoom, role⟩
    rintro ⟨inside, -⟩
    exact spared guest there inside role (named.trans samePerson)
  · intro participant member
    rw [mem_deleteGuests_participants, participants] at member
    exact seated.role participant member.1

/-- A revoked session is the same session of the same guest. -/
private theorem of_mem_revokeSessions {db : Db} {roomId : String} {now : Instant} {session : SessionRow}
    (member : session ∈ (revokeSessions roomId now db).1.sessions) :
    ∃ old ∈ db.sessions, old.participantId = session.participantId ∧ old.roomId = session.roomId := by
  obtain ⟨old, held, rfl⟩ := mem_revokeSessions.mp member
  refine ⟨old, held, ?_⟩
  split <;> exact ⟨rfl, rfl⟩

/-- A new room comes with its host, and nobody was in it before. -/
private theorem created (seated : source.Seated) {room : RoomRow} {host : ParticipantRow}
    (roomed : source.rooms.insert? room = some target.rooms)
    (hosted : source.participants.insert? host = some target.participants) (hosts : host.roomId = room.id)
    (role : host.role = .host) (sessions : target.sessions = source.sessions) : target.Seated := by
  have rooms (other : RoomRow) : other ∈ target.rooms ↔ other ∈ source.rooms ∨ other = room :=
    Table.mem_of_insert? roomed
  have people (other : ParticipantRow) : other ∈ target.participants ↔
      other ∈ source.participants ∨ other = host := Table.mem_of_insert? hosted
  have apart (other : ParticipantRow) (member : other ∈ source.participants) : other.roomId ≠ room.id := by
    obtain ⟨owner, held, named⟩ := seated.inside other member
    exact named ▸ (Table.insert?_eq_some_iff.mp roomed).1 owner held
  refine ⟨?_, ?_, ?_, ?_, ?_⟩
  · intro participant member
    rcases (people participant).mp member with held | rfl
    · obtain ⟨owner, there, named⟩ := seated.inside participant held
      exact ⟨owner, (rooms owner).mpr (Or.inl there), named⟩
    · exact ⟨room, (rooms room).mpr (Or.inr rfl), hosts.symm⟩
  · intro other member
    rcases (rooms other).mp member with held | rfl
    · obtain ⟨old, there, same, isHost⟩ := seated.hosted other held
      exact ⟨old, (people old).mpr (Or.inl there), same, isHost⟩
    · exact ⟨host, (people host).mpr (Or.inr rfl), hosts, role⟩
  · intro left leftMem right rightMem leftRole rightRole same
    rcases (people left).mp leftMem with leftOld | rfl <;> rcases (people right).mp rightMem with rightOld | rfl
    · exact seated.single left leftOld right rightOld leftRole rightRole same
    · exact absurd (same.trans hosts) (apart left leftOld)
    · exact absurd (same.symm.trans hosts) (apart right rightOld)
    · rfl
  · rw [sessions]
    intro session member
    obtain ⟨guest, there, rest⟩ := seated.guest session member
    exact ⟨guest, (people guest).mpr (Or.inl there), rest⟩
  · intro participant member
    rcases (people participant).mp member with held | rfl
    · exact seated.role participant held
    · simp [role]

/-- A guest joins an existing room on its own session. -/
private theorem joined (seated : source.Seated) {guest : ParticipantRow} {session : SessionRow}
    (opened : ∃ room ∈ source.rooms, room.id = guest.roomId) (rooms : target.rooms = source.rooms)
    (person : source.participants.insert? guest = some target.participants) (role : guest.role = .guest)
    (keyed : source.sessions.insert? session = some target.sessions)
    (same : guest.id = session.participantId ∧ guest.roomId = session.roomId) : target.Seated := by
  have people (other : ParticipantRow) : other ∈ target.participants ↔
      other ∈ source.participants ∨ other = guest := Table.mem_of_insert? person
  refine ⟨?_, ?_, ?_, ?_, ?_⟩
  · rw [rooms]
    intro participant member
    rcases (people participant).mp member with held | rfl
    · exact seated.inside participant held
    · exact opened
  · rw [rooms]
    intro room member
    obtain ⟨host, there, inside, isHost⟩ := seated.hosted room member
    exact ⟨host, (people host).mpr (Or.inl there), inside, isHost⟩
  · intro left leftMem right rightMem leftRole rightRole sameRoom
    have old (other : ParticipantRow) (member : other ∈ target.participants) (isHost : other.role = .host) :
        other ∈ source.participants := by
      rcases (people other).mp member with held | rfl
      · exact held
      · simp [role] at isHost
    exact seated.single left (old left leftMem leftRole) right (old right rightMem rightRole) leftRole rightRole
      sameRoom
  · intro other member
    rcases (Table.mem_of_insert? keyed).mp member with held | rfl
    · obtain ⟨owner, there, rest⟩ := seated.guest other held
      exact ⟨owner, (people owner).mpr (Or.inl there), rest⟩
    · exact ⟨guest, (people guest).mpr (Or.inr rfl), same.1, same.2, role⟩
  · intro participant member
    rcases (people participant).mp member with held | rfl
    · exact seated.role participant held
    · simp [role]

/-- Closing a room moves nobody. -/
private theorem closed (seated : source.Seated) {roomId : String} {closedAt inviteAt sessionAt : Instant} :
    (source.closed roomId closedAt inviteAt sessionAt).Seated := by
  have image (participant : ParticipantRow) (member : participant ∈ source.participants) :
      ∃ next ∈ (source.closed roomId closedAt inviteAt sessionAt).participants, next.id = participant.id ∧
        next.roomId = participant.roomId ∧ next.role = participant.role := by
    refine ⟨_, mem_closed_participants.mpr ⟨participant, member, rfl⟩, ?_⟩
    split <;> exact ⟨rfl, rfl, rfl⟩
  have preimage (participant : ParticipantRow)
      (member : participant ∈ (source.closed roomId closedAt inviteAt sessionAt).participants) :
      ∃ old ∈ source.participants, old.id = participant.id ∧ old.roomId = participant.roomId ∧
        old.role = participant.role := by
    obtain ⟨old, held, rfl⟩ := mem_closed_participants.mp member
    refine ⟨old, held, ?_⟩
    split <;> exact ⟨rfl, rfl, rfl⟩
  refine ⟨?_, ?_, ?_, ?_, ?_⟩
  · intro participant member
    obtain ⟨old, held, -, same, -⟩ := preimage participant member
    obtain ⟨room, there, named⟩ := seated.inside old held
    refine ⟨_, mem_closed_rooms.mpr ⟨room, there, rfl⟩, ?_⟩
    rw [← same, ← named]
    split <;> rfl
  · intro room member
    obtain ⟨old, held, rfl⟩ := mem_closed_rooms.mp member
    obtain ⟨host, there, inside, role⟩ := seated.hosted old held
    obtain ⟨next, nextMem, -, same, sameRole⟩ := image host there
    refine ⟨next, nextMem, ?_, sameRole.trans role⟩
    rw [same, inside]
    split <;> rfl
  · intro left leftMem right rightMem leftRole rightRole same
    obtain ⟨oldLeft, leftHeld, leftId, leftRoom, leftSame⟩ := preimage left leftMem
    obtain ⟨oldRight, rightHeld, rightId, rightRoom, rightSame⟩ := preimage right rightMem
    have equal := seated.single oldLeft leftHeld oldRight rightHeld (leftSame.trans leftRole)
      (rightSame.trans rightRole) (leftRoom.trans (same.trans rightRoom.symm))
    exact Table.eq_of_key leftMem rightMem (leftId.symm.trans (equal ▸ rightId))
  · intro session member
    obtain ⟨old, held, samePerson, sameRoom⟩ := of_mem_revokeSessions member
    obtain ⟨guest, there, named, inside, role⟩ := seated.guest old held
    obtain ⟨next, nextMem, sameId, nextRoom, nextRole⟩ := image guest there
    exact ⟨next, nextMem, sameId.trans (named.trans samePerson), nextRoom.trans (inside.trans sameRoom),
      nextRole.trans role⟩
  · intro participant member
    obtain ⟨old, held, -, -, same⟩ := preimage participant member
    exact same ▸ seated.role old held

/-- Every change of the tables keeps guests, hosts and sessions in their rooms. -/
theorem change (seated : source.Seated) (change : Change source target) : target.Seated := by
  cases change with
  | ran change =>
    obtain ⟨-, participants, sessions⟩ := change.sameAccess
    exact seated.congr (fun _ => change.room_id_iff) participants sessions
  | created valid first second third =>
    obtain ⟨_, roomed, rfl⟩ := insertRoom_eq_some_iff.mp first
    obtain ⟨-, _, -, rfl⟩ := insertInvite_eq_some_iff.mp second
    obtain ⟨-, _, hosted, rfl⟩ := insertParticipant_eq_some_iff.mp third
    exact seated.created roomed hosted rfl rfl rfl
  | joined admits first second =>
    obtain ⟨-, _, person, rfl⟩ := insertParticipant_eq_some_iff.mp first
    obtain ⟨-, _, keyed, rfl⟩ := insertSession_eq_some_iff.mp second
    obtain ⟨room, member, named, -⟩ := admits.opened
    exact seated.joined ⟨room, member, named⟩ rfl person rfl keyed ⟨rfl, rfl⟩
  | rotated opened => exact seated.deleted rfl rfl fun _ => of_mem_revokeSessions
  | revoked => exact seated.deleted rfl rfl fun _ => of_mem_revokeSessions
  | closed => exact seated.closed

/-- With its guests a room loses all its sessions, and nobody else loses one. -/
theorem mem_deleted_sessions (seated : source.Seated) {roomId : String} {now : Instant} {middle : Db}
    (participants : middle.participants = source.participants)
    (sessions : middle.sessions = (revokeSessions roomId now source).1.sessions) {session : SessionRow} :
    session ∈ (deleteGuests roomId middle).1.sessions ↔ session ∈ source.sessions ∧ session.roomId ≠ roomId := by
  rw [mem_deleteGuests_sessions, participants, sessions]
  constructor
  · rintro ⟨kept, spared⟩
    obtain ⟨old, held, image⟩ := mem_revokeSessions.mp kept
    obtain ⟨guest, there, named, inside, role⟩ := seated.guest old held
    have apart : old.roomId ≠ roomId := by
      intro same
      refine spared guest there (inside.trans same) role (named.trans ?_)
      rw [← image]
      split <;> rfl
    rw [if_neg (by simp [apart])] at image
    exact image ▸ ⟨held, apart⟩
  · rintro ⟨held, apart⟩
    refine ⟨mem_revokeSessions.mpr ⟨session, held, if_neg (by simp [apart])⟩, ?_⟩
    intro other there inside role named
    obtain ⟨guest, member, same, room, -⟩ := seated.guest session held
    obtain rfl := Table.eq_of_key there member (named.trans same.symm)
    exact apart (room.symm.trans inside)

end Db.Seated

end RyuRooms
