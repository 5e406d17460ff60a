import Mathlib.Data.List.Dedup
import RyuRooms.Store.Access

/-! # How many participants a room has

`exchange_invite` counts the host and the guests with a live session, but every guest row stays until a
rotation or revocation deletes it. The bound on all rows rests on the lifetimes: an invite dies before
any session it let in can expire, so while an invite is good every guest row of its room still has a
live session, and the count sees them all. From the year 10000 on an expiry cannot be read, and the count sees
no guest at all.
-/

namespace RyuRooms

open Foundation

namespace Db

variable {db : Db} {roomId : String} {now : Instant}

/-- Some session of the participant is live. -/
def hasLiveSession (db : Db) (now : Instant) (participantId : String) : Bool :=
  db.sessions.rows.any fun session => session.participantId == participantId && isLiveAt now session

theorem hasLiveSession_iff {participantId : String} : db.hasLiveSession now participantId ↔
    ∃ session ∈ db.sessions, session.participantId = participantId ∧ isLiveAt now session := by
  simp [hasLiveSession, Table.mem_rows]

/-- The participants a room's capacity is measured by. -/
def takesPlace (db : Db) (roomId : String) (now : Instant) (participant : ParticipantRow) : Bool :=
  participant.roomId == roomId && (participant.role == .host || db.hasLiveSession now participant.id)

/-- The guests of a room with a live session. -/
def isLiveGuest (db : Db) (roomId : String) (now : Instant) (participant : ParticipantRow) : Bool :=
  isGuestOf roomId participant && db.hasLiveSession now participant.id

/-- The join has a row for every session of a participant, and one row without any. -/
theorem mem_joinedSessions_any {participant : ParticipantRow} {choose : SessionRow → Bool} :
    (∃ joined ∈ db.joinedSessions participant, joined.any choose) ↔
      ∃ session ∈ db.sessions, session.participantId = participant.id ∧ choose session := by
  have rows (session : SessionRow) : session ∈ db.sessions.select (·.participantId == participant.id) ↔
      session ∈ db.sessions ∧ session.participantId = participant.id := by simp
  simp only [joinedSessions]
  split
  · next none =>
    simp only [none, List.not_mem_nil, false_iff] at rows
    simp only [List.mem_singleton, exists_eq_left, Option.any_none, Bool.false_eq_true, false_iff]
    rintro ⟨session, member, same, -⟩
    exact rows session ⟨member, same⟩
  · next some =>
    constructor
    · rintro ⟨_, member, chosen⟩
      obtain ⟨session, held, rfl⟩ := List.mem_map.mp member
      exact ⟨session, ((rows session).mp held).1, ((rows session).mp held).2, chosen⟩
    · rintro ⟨session, held, same, chosen⟩
      exact ⟨_, List.mem_map.mpr ⟨session, (rows session).mpr ⟨held, same⟩, rfl⟩, chosen⟩

theorem joinedSessions_ne_nil {participant : ParticipantRow} : db.joinedSessions participant ≠ [] := by
  simp only [joinedSessions]
  split
  · simp
  · next some => simpa using some

theorem mem_liveParticipants {id : String} : id ∈ db.liveParticipants roomId now ↔
    ∃ participant ∈ db.participants, db.takesPlace roomId now participant ∧ participant.id = id := by
  simp only [liveParticipants, List.mem_dedup, List.mem_flatMap, List.mem_filterMap, Table.mem_select,
    beq_iff_eq, Option.ite_none_right_eq_some, Option.some.injEq, takesPlace, Bool.and_eq_true,
    Bool.or_eq_true, hasLiveSession_iff]
  constructor
  · rintro ⟨participant, ⟨member, inside⟩, joined, row, counted, named⟩
    refine ⟨participant, member, ⟨inside, counted.imp_right fun live => ?_⟩, named⟩
    exact mem_joinedSessions_any.mp ⟨joined, row, live⟩
  · rintro ⟨participant, member, ⟨inside, host | live⟩, named⟩
    · have some : db.joinedSessions participant ≠ [] := joinedSessions_ne_nil
      obtain ⟨joined, row⟩ := List.exists_mem_of_ne_nil _ some
      exact ⟨participant, ⟨member, inside⟩, joined, row, Or.inl host, named⟩
    · obtain ⟨joined, row, counted⟩ := mem_joinedSessions_any.mpr live
      exact ⟨participant, ⟨member, inside⟩, joined, row, Or.inr counted, named⟩

/-- The count that `exchange_invite` makes. -/
theorem liveParticipants_length :
    (db.liveParticipants roomId now).length = db.participants.count (db.takesPlace roomId now) := by
  have ids : (db.participants.select (db.takesPlace roomId now)).map ParticipantRow.id |>.Nodup :=
    db.participants.keys_nodup.sublist (List.filter_sublist.map _)
  have same : (db.liveParticipants roomId now).Perm
      ((db.participants.select (db.takesPlace roomId now)).map ParticipantRow.id) := by
    refine (List.perm_ext_iff_of_nodup (List.nodup_dedup _) ids).mpr fun id => ?_
    change id ∈ db.liveParticipants roomId now ↔ _
    rw [mem_liveParticipants, List.mem_map]
    simp [and_assoc]
  rw [same.length_eq, List.length_map, Table.count, List.countP_eq_length_filter]
  rfl

/-- A room has exactly one host row. -/
theorem Seated.host_count (seated : db.Seated) (known : ∃ room ∈ db.rooms, room.id = roomId) :
    db.participants.count (fun participant => participant.roomId == roomId && participant.role == .host) = 1 := by
  obtain ⟨room, member, rfl⟩ := known
  obtain ⟨host, there, inside, role⟩ := seated.hosted room member
  apply Nat.le_antisymm
  · rw [Table.count_le_one]
    intro left leftMem right rightMem leftHost rightHost
    simp only [Bool.and_eq_true, beq_iff_eq] at leftHost rightHost
    exact seated.single left leftMem right rightMem leftHost.2 rightHost.2 (leftHost.1.trans rightHost.1.symm)
  · exact Table.count_pos.mpr ⟨host, there, by simp [inside, role]⟩

/-- Only guests have sessions. -/
theorem Seated.guest_of_hasLiveSession (seated : db.Seated) {participant : ParticipantRow}
    (member : participant ∈ db.participants) (live : db.hasLiveSession now participant.id) :
    participant.role = .guest := by
  obtain ⟨session, held, named, -⟩ := hasLiveSession_iff.mp live
  obtain ⟨guest, there, same, -, role⟩ := seated.guest session held
  rwa [Table.eq_of_key member there (named.symm.trans same.symm)]

/-- The host of a room takes one place, and each guest with a live session another. -/
theorem Seated.liveParticipants_length (seated : db.Seated) (known : ∃ room ∈ db.rooms, room.id = roomId) :
    (db.liveParticipants roomId now).length = 1 + db.participants.count (db.isLiveGuest roomId now) := by
  rw [Db.liveParticipants_length, ← seated.host_count known, ← Table.count_or]
  · refine Table.count_congr fun participant member => ?_
    have guest : db.hasLiveSession now participant.id → participant.role = .guest :=
      seated.guest_of_hasLiveSession member
    simp only [takesPlace, isLiveGuest, Bool.and_eq_true, Bool.or_eq_true, beq_iff_eq, isGuestOf_iff]
    tauto
  · intro participant _ host live
    simp only [isLiveGuest, Bool.and_eq_true, beq_iff_eq, isGuestOf_iff] at host live
    simp [host.2] at live

/-- All rows of a room fit its capacity, and every guest outlives an invite that is still good. -/
structure Bounded (db : Db) : Prop where
  capacity : ∀ roomId, db.participants.count (·.roomId == roomId) ≤ Limits.MAX_PARTICIPANTS
  covered : ∀ invite ∈ db.invites, invite.revokedAt = none → ∀ guest ∈ db.participants,
    isGuestOf invite.roomId guest → ∃ session ∈ db.sessions, session.participantId = guest.id ∧
      session.revokedAt = none ∧ session.expiresAt < Rfc3339.YEAR_10000 ∧ invite.expiresAt ≤ session.expiresAt

namespace Bounded

variable {source target : Db}

theorem empty : Db.empty.Bounded := ⟨fun _ => Nat.zero_le _, fun _ member => absurd member (Table.not_mem_empty _)⟩

/-- Only the three tables of access are read. -/
theorem congr (bounded : source.Bounded) (invites : target.invites = source.invites)
    (participants : target.participants = source.participants) (sessions : target.sessions = source.sessions) :
    target.Bounded :=
  ⟨by rw [participants]; exact bounded.capacity,
    by rw [invites, participants, sessions]; exact bounded.covered⟩

/-- A new room holds its host alone. -/
theorem created (bounded : source.Bounded) (seated : source.Seated) {room : RoomRow} {host : ParticipantRow}
    {fresh : InviteRow} (roomed : source.rooms.insert? room = some target.rooms)
    (invited : source.invites.insert? fresh = some target.invites)
    (hosted : source.participants.insert? host = some target.participants)
    (rooms : host.roomId = room.id ∧ fresh.roomId = room.id) (role : host.role = .host)
    (sessions : target.sessions = source.sessions) : target.Bounded := by
  have apart (participant : ParticipantRow) (member : participant ∈ source.participants) :
      participant.roomId ≠ room.id := by
    obtain ⟨owner, held, named⟩ := seated.inside participant member
    exact named ▸ (Table.insert?_eq_some_iff.mp roomed).1 owner held
  refine ⟨fun roomId => ?_, ?_⟩
  · rw [Table.count_of_insert? hosted]
    split
    · next same =>
      have none : source.participants.count (·.roomId == roomId) = 0 := by
        rw [Table.count_eq_zero]
        intro participant member named
        exact apart participant member ((eq_of_beq named).trans ((eq_of_beq same).symm.trans rooms.1))
      rw [none]
      decide
    · exact bounded.capacity roomId
  · rw [sessions]
    intro invite member unrevoked guest guestMem inside
    rw [isGuestOf_iff] at inside
    rcases (Table.mem_of_insert? hosted).mp guestMem with held | rfl
    · rcases (Table.mem_of_insert? invited).mp member with old | rfl
      · exact bounded.covered invite old unrevoked guest held (isGuestOf_iff.mpr inside)
      · exact absurd (inside.1.trans rooms.2) (apart guest held)
    · simp [role] at inside

/-- While an invite is good, every row of its room counts as live. -/
theorem count_lt (bounded : source.Bounded) (seated : source.Seated) {digest : List UInt8} {now : Instant}
    {invite : InviteRow} (admits : source.Admits digest now invite) :
    source.participants.count (·.roomId == invite.roomId) < Limits.MAX_PARTICIPANTS := by
  refine lt_of_eq_of_lt ?_ admits.capacity
  rw [Db.liveParticipants_length]
  refine Table.count_congr fun participant member => ?_
  simp only [takesPlace, Bool.and_eq_true, Bool.or_eq_true, beq_iff_eq, iff_self_and]
  intro inside
  cases role : participant.role with
  | host => exact Or.inl rfl
  | viewer => exact absurd role (seated.role participant member)
  | guest =>
    obtain ⟨session, held, named, unrevoked, dated, later⟩ := bounded.covered invite
      (Table.find?_eq_some admits.found).1 admits.unrevoked participant member (isGuestOf_iff.mpr ⟨inside, role⟩)
    exact Or.inr (hasLiveSession_iff.mpr ⟨session, held, named,
      isLiveAt_iff.mpr ⟨unrevoked, admits.unexpired.trans_le later, dated⟩⟩)

/-- A guest joins on a session that outlives the invite, because the invite is younger than the clock. -/
theorem joined (bounded : source.Bounded) (seated : source.Seated) {digest : List UInt8} {now : Instant}
    {invite : InviteRow} {guest : ParticipantRow} {session : SessionRow}
    (admits : source.Admits digest now invite) (young : invite.expiresAt ≤ session.expiresAt)
    (invites : target.invites = source.invites)
    (person : source.participants.insert? guest = some target.participants) (room : guest.roomId = invite.roomId)
    (keyed : source.sessions.insert? session = some target.sessions)
    (same : session.participantId = guest.id) (unrevoked : session.revokedAt = none)
    (dated : session.expiresAt < Rfc3339.YEAR_10000) : target.Bounded := by
  refine ⟨fun roomId => ?_, ?_⟩
  · rw [Table.count_of_insert? person]
    split
    · next named =>
      have free := bounded.count_lt seated admits
      rw [← room, eq_of_beq named] at free
      exact free
    · exact bounded.capacity roomId
  · rw [invites]
    intro other member fresh participant participantMem inside
    rcases (Table.mem_of_insert? person).mp participantMem with held | rfl
    · obtain ⟨old, oldMem, rest⟩ := bounded.covered other member fresh participant held inside
      exact ⟨old, (Table.mem_of_insert? keyed).mpr (Or.inl oldMem), rest⟩
    · refine ⟨session, (Table.mem_of_insert? keyed).mpr (Or.inr rfl), same, unrevoked, dated, ?_⟩
      have only := Table.eq_of_key member (Table.find?_eq_some admits.found).1
        ((isGuestOf_iff.mp inside).1.symm.trans room)
      exact only ▸ young

/-- Deleting the guests of a room leaves the guests of the other rooms their sessions. -/
theorem deleted (bounded : source.Bounded) (seated : source.Seated) {roomId : String} {now : Instant}
    {middle : Db} (participants : middle.participants = source.participants)
    (sessions : middle.sessions = (revokeSessions roomId now source).1.sessions)
    (invites : ∀ invite ∈ middle.invites, invite.roomId ≠ roomId → invite ∈ source.invites) :
    (deleteGuests roomId middle).1.Bounded := by
  refine ⟨fun other => ?_, ?_⟩
  · refine (Table.count_delete_le _ _ _).trans ?_
    rw [participants]
    exact bounded.capacity other
  · intro invite member unrevoked guest guestMem inside
    rw [mem_deleteGuests_participants, participants] at guestMem
    rw [isGuestOf_iff] at inside
    have apart : invite.roomId ≠ roomId := fun same => guestMem.2 ⟨inside.1.trans same, inside.2⟩
    obtain ⟨session, held, named, rest⟩ := bounded.covered invite (invites invite member apart) unrevoked guest
      guestMem.1 (isGuestOf_iff.mpr inside)
    refine ⟨session, (seated.mem_deleted_sessions participants sessions).mpr ⟨held, ?_⟩, named, rest⟩
    obtain ⟨owner, there, same, room, -⟩ := seated.guest session held
    rw [Table.eq_of_key there guestMem.1 (same.trans named)] at room
    exact room ▸ inside.1 ▸ apart

/-- Closing a room keeps its rows and revokes its invite. -/
theorem closed (bounded : source.Bounded) (seated : source.Seated) {roomId : String}
    {closedAt inviteAt sessionAt : Instant} : (source.closed roomId closedAt inviteAt sessionAt).Bounded := by
  refine ⟨fun other => ?_, ?_⟩
  · rw [count_closed_participants fun _ => rfl]
    exact bounded.capacity other
  · intro invite member unrevoked guest guestMem inside
    obtain ⟨old, held, rfl⟩ := mem_closed_invites.mp member
    split at unrevoked
    · cases unrevoked
    · next spared =>
      rw [if_neg spared] at inside ⊢
      obtain ⟨person, there, rfl⟩ := mem_closed_participants.mp guestMem
      have before : isGuestOf old.roomId person := by
        split at inside <;> exact inside
      obtain ⟨session, kept, named, live, later⟩ := bounded.covered old held unrevoked person there before
      refine ⟨session, mem_revokeSessions.mpr ⟨session, kept, if_neg ?_⟩, ?_, live, later⟩
      · obtain ⟨owner, ownerMem, same, room, -⟩ := seated.guest session kept
        rw [Table.eq_of_key ownerMem there (same.trans named)] at room
        rw [← room, (isGuestOf_iff.mp before).1]
        simp only [unrevoked, Option.isNone_none, Bool.and_true] at spared
        simp [spared]
      · rw [named]
        split <;> rfl

end Bounded

end Db

/-- An invite is issued at the reading of the call that issued it. -/
theorem Event.issuedAt_eq {event : Event} {issue : Issue} (issued : event.deed.issues = some issue) :
    issue.issuedAt = event.draws.now 0 := by
  simp only [Event.deed] at issued
  split at issued <;> simp [Deed.issues] at issued <;> rw [← issued]

theorem Event.joinedAt_eq {event : Event} {admission : Admission} (joined : event.deed.joins = some admission) :
    admission.joinedAt = event.draws.now 0 := by
  simp only [Event.deed] at joined
  split at joined <;> simp [Deed.joins] at joined
  rw [← joined]

/-- Every expiry that a call may write can be read: it is before the year 10000. -/
def Readable (past : List Event) : Prop :=
  ∀ event ∈ past, event.draws.now 0 + seconds Limits.SESSION_TTL_SECS < Rfc3339.YEAR_10000

/-- With a clock that does not go back, every state that is reached while expiries can be read is bounded. -/
theorem bounded_of_run {crates : Crates} {events : List Event} {db : Db}
    (run : (storeMachine crates).Run events db) (forward : Forward events) (dated : Readable events) : db.Bounded := by
  refine run.history (fun past state => Forward past → Readable past → state.Bounded)
    (fun _ initial _ _ => initial ▸ .empty) (fun past source event target before bounded step ordered dated => ?_)
    forward dated
  have earlier := List.pairwise_append.mp ordered
  specialize bounded earlier.1 fun old member => dated old (List.mem_append_left _ member)
  have seated := seated_of_run before
  have effect := Event.effect step
  cases deed : event.deed with
  | other =>
    rw [deed] at effect
    exact bounded.congr effect.1 effect.2.1 effect.2.2
  | created issue =>
    rw [deed] at effect
    obtain ⟨room, host, named, roomed, invited, hosts, role, hosted, sessions⟩ := effect
    exact bounded.created seated roomed invited hosted ⟨hosts.trans named.symm, named.symm⟩ role sessions
  | rotated issue =>
    rw [deed] at effect
    obtain ⟨-, rfl⟩ := effect
    refine bounded.deleted seated (by rfl) (by rfl) fun invite member apart => ?_
    obtain ⟨old, held, rfl⟩ := Db.mem_rotated_invites.mp member
    split at apart
    · next same => exact absurd (eq_of_beq same) apart
    · next other => rwa [if_neg other]
  | revoked roomId =>
    rw [deed] at effect
    obtain ⟨inviteAt, sessionAt, rfl⟩ := effect
    refine bounded.deleted seated (by rfl) (by rfl) fun invite member apart => ?_
    change invite ∈ (source.revoked roomId inviteAt sessionAt).invites at member
    obtain ⟨old, held, rfl⟩ := Db.mem_revoked_invites.mp member
    split at apart
    · next same => exact absurd (by simpa using (Bool.and_eq_true_iff.mp same).1) apart
    · next other => rwa [if_neg other]
  | closed roomId =>
    rw [deed] at effect
    obtain ⟨-, _, _, _, rfl⟩ := effect
    exact bounded.closed seated
  | joined admission =>
    rw [deed] at effect
    obtain ⟨digest, invite, name, admits, room, -, -, invites, person, keyed⟩ := effect
    have reads : admission.joinedAt = event.draws.now 0 := Event.joinedAt_eq (by rw [deed]; rfl)
    have late := dated event (by simp)
    rw [← reads] at late
    refine bounded.joined seated admits ?_ invites person room.symm keyed rfl rfl late
    obtain ⟨issue, live, fills⟩ :=
      (access_of_run before).invite_live invite (Table.find?_eq_some admits.found).1 admits.unrevoked
    obtain ⟨_, deedMem, issued⟩ := Live.mem live
    obtain ⟨first, firstMem, rfl⟩ := List.mem_map.mp deedMem
    have young : first.draws.now 0 ≤ event.draws.now 0 := earlier.2.2 first firstMem event (by simp)
    rw [fills.expiry, Event.issuedAt_eq issued, newSession, reads]
    exact Nat.add_le_add young (by decide)

/-- After any history with a clock that does not go back, each room has exactly one host row and, while expiries
can be read, at most `MAX_PARTICIPANTS` participant rows, live or not. -/
theorem participants_bounded {crates : Crates} {events : List Event} {db : Db}
    (run : (storeMachine crates).Run events db) (forward : Forward events) :
    ∀ room ∈ db.rooms,
      db.participants.count (fun participant => participant.roomId == room.id && participant.role == .host) = 1 ∧
        (Readable events → db.participants.count (·.roomId == room.id) ≤ Limits.MAX_PARTICIPANTS) := by
  intro room member
  exact ⟨(seated_of_run run).host_count ⟨room, member, rfl⟩, fun dated =>
    (bounded_of_run run forward dated).capacity room.id⟩

namespace Sample

/-- A room with one guest. -/
def oneGuest : List Call :=
  [⟨.compat, draws 1 10, false, .createRoom ⟨"llama", origin⟩⟩,
    ⟨.compat, draws 4 20, false, .exchangeInvite (opaqueSecret (.ofNat 3)) "Ada"⟩]

/-- A room of the last hour of the year 9999 and so many guests. -/
def lateGuests (guests : ℕ) : List Call :=
  ⟨.compat, draws 1 (Rfc3339.YEAR_10000 - seconds 1000), false, .createRoom ⟨"llama", origin⟩⟩ ::
    (List.range guests).map fun i => ⟨.compat, draws (4 + 3 * i) (Rfc3339.YEAR_10000 - seconds 900), false,
      .exchangeInvite (opaqueSecret (.ofNat 3)) "Ada"⟩

end Sample

theorem participants_bounded_oneGuest :
    let db := (history Sample.crates Sample.oneGuest .empty).2
    db.participants.rows.length = 2 ∧ ∀ room ∈ db.rooms,
      db.participants.count (fun participant => participant.roomId == room.id && participant.role == .host) = 1 ∧
        db.participants.count (·.roomId == room.id) ≤ Limits.MAX_PARTICIPANTS := by
  have run := run_history Sample.crates Sample.oneGuest
  have checked : Forward (history Sample.crates Sample.oneGuest .empty).1 ∧
      Readable (history Sample.crates Sample.oneGuest .empty).1 := by
    unfold Forward Readable
    decide +kernel
  refine ⟨by decide +kernel, fun room member => ?_⟩
  obtain ⟨host, capacity⟩ := participants_bounded run checked.1 room member
  exact ⟨host, capacity checked.2⟩

/-- Before a new year that has no timestamps, more guests join a room than it has places. -/
theorem not_participants_bounded_lateGuests : ¬ ∀ (crates : Crates) (events : List Event) (db : Db),
    (storeMachine crates).Run events db → Forward events → ∀ room ∈ db.rooms,
      db.participants.count (·.roomId == room.id) ≤ Limits.MAX_PARTICIPANTS := by
  intro bounded
  have checked : Forward (history Sample.crates (Sample.lateGuests 8) .empty).1 ∧
      (history Sample.crates (Sample.lateGuests 8) .empty).2.rooms.rows.map (fun room =>
        (history Sample.crates (Sample.lateGuests 8) .empty).2.participants.count (·.roomId == room.id)) = [9] := by
    unfold Forward
    decide +kernel
  obtain ⟨forward, nine⟩ := checked
  have listed : 9 ∈ (history Sample.crates (Sample.lateGuests 8) .empty).2.rooms.rows.map (fun room =>
      (history Sample.crates (Sample.lateGuests 8) .empty).2.participants.count (·.roomId == room.id)) := by
    rw [nine]
    exact List.mem_singleton.mpr rfl
  obtain ⟨room, member, count⟩ := List.mem_map.mp listed
  have few := bounded _ _ _ (run_history Sample.crates (Sample.lateGuests 8)) forward room member
  rw [count] at few
  exact absurd few (by decide)

end RyuRooms
