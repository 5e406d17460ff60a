import Mathlib.Data.List.Pairwise
import RyuRooms.Store.Capacity

/-! # Which invites are accepted

`exchange_invite` scans the invites of all rooms for a digest and then asks about expiry, revocation,
the status of the room and its capacity. With fresh secrets and digests that do not collide the row it
finds is the row of the room the secret was issued for, so it accepts exactly the latest invite of an
open room with a free place, while that invite is neither expired nor revoked and its expiry can be read.
-/

namespace RyuRooms

open Foundation

/-- Every row keeps the digest of a secret that was given out: an invite's for its own room. -/
structure Origins (crates : Crates) (past : List Event) (db : Db) : Prop where
  invite : ∀ invite ∈ db.invites, ∃ event ∈ past, ∃ issue, event.deed.issues = some issue ∧
    issue.roomId = invite.roomId ∧ invite.digest = crates.sha256 issue.secret
  session : ∀ session ∈ db.sessions, ∃ secret ∈ secretsOf past, session.digest = crates.sha256 secret

namespace Origins

variable {crates : Crates} {past : List Event} {event : Event} {source target : Db}

theorem empty : Origins crates [] .empty :=
  ⟨fun _ member => absurd member (Table.not_mem_empty _), fun _ member => absurd member (Table.not_mem_empty _)⟩

/-- Rows that were there before, and rows that hold what the call gave out, have their origin. -/
theorem extend (origins : Origins crates past source)
    (invites : ∀ invite ∈ target.invites,
      (∃ old ∈ source.invites, old.roomId = invite.roomId ∧ old.digest = invite.digest) ∨
        ∃ issue, event.deed.issues = some issue ∧ issue.roomId = invite.roomId ∧
          invite.digest = crates.sha256 issue.secret)
    (sessions : ∀ session ∈ target.sessions, (∃ old ∈ source.sessions, old.digest = session.digest) ∨
      ∃ secret ∈ event.deed.secrets, session.digest = crates.sha256 secret) :
    Origins crates (past ++ [event]) target := by
  refine ⟨fun invite member => ?_, fun session member => ?_⟩
  · rcases invites invite member with ⟨old, held, room, digest⟩ | ⟨issue, issued, rest⟩
    · obtain ⟨first, firstMem, issue, issued, named, hashed⟩ := origins.invite old held
      exact ⟨first, List.mem_append_left _ firstMem, issue, issued, named.trans room, digest.symm.trans hashed⟩
    · exact ⟨event, by simp, issue, issued, rest⟩
  · simp only [secretsOf, List.flatMap_append, List.flatMap_singleton, List.mem_append]
    rcases sessions session member with ⟨old, held, digest⟩ | ⟨secret, given, hashed⟩
    · obtain ⟨secret, given, hashed⟩ := origins.session old held
      exact ⟨secret, Or.inl given, digest.symm.trans hashed⟩
    · exact ⟨secret, Or.inr given, hashed⟩

/-- Revoking a session keeps its digest. -/
private theorem of_mem_revokeSessions {roomId : String} {now : Instant} {session : SessionRow}
    (member : session ∈ (Db.revokeSessions roomId now source).1.sessions) :
    ∃ old ∈ source.sessions, old.digest = session.digest := by
  obtain ⟨old, held, rfl⟩ := Db.mem_revokeSessions.mp member
  refine ⟨old, held, ?_⟩
  split <;> rfl

theorem step (origins : Origins crates past source) (effect : event.deed.Effect crates source target) :
    Origins crates (past ++ [event]) target := by
  cases deed : event.deed with
  | other =>
    rw [deed] at effect
    obtain ⟨invites, -, sessions⟩ := effect
    exact origins.extend (fun invite member => Or.inl ⟨invite, invites ▸ member, rfl, rfl⟩)
      fun session member => Or.inl ⟨session, sessions ▸ member, rfl⟩
  | created issue =>
    rw [deed] at effect
    obtain ⟨_, _, -, -, invited, -, -, -, sessions⟩ := effect
    refine origins.extend (fun invite member => ?_) fun session member => Or.inl ⟨session, sessions ▸ member, rfl⟩
    rcases (Table.mem_of_insert? invited).mp member with held | rfl
    · exact Or.inl ⟨invite, held, rfl, rfl⟩
    · exact Or.inr ⟨issue, by rw [deed]; rfl, rfl, rfl⟩
  | joined admission =>
    rw [deed] at effect
    obtain ⟨_, _, _, -, -, -, -, invites, -, keyed⟩ := effect
    refine origins.extend (fun invite member => Or.inl ⟨invite, invites ▸ member, rfl, rfl⟩) fun session member => ?_
    rcases (Table.mem_of_insert? keyed).mp member with held | rfl
    · exact Or.inl ⟨session, held, rfl⟩
    · exact Or.inr ⟨admission.session.secret, by rw [deed]; exact List.mem_singleton.mpr rfl, rfl⟩
  | rotated issue =>
    rw [deed] at effect
    obtain ⟨-, rfl⟩ := effect
    refine origins.extend (fun invite member => ?_) fun session member =>
      Or.inl (of_mem_revokeSessions (Db.mem_deleteGuests_sessions.mp member).1)
    obtain ⟨old, held, rfl⟩ := Db.mem_rotated_invites.mp member
    split
    · next named => exact Or.inr ⟨issue, by rw [deed]; rfl, (eq_of_beq named).symm, rfl⟩
    · exact Or.inl ⟨old, held, rfl, rfl⟩
  | revoked roomId =>
    rw [deed] at effect
    obtain ⟨inviteAt, sessionAt, rfl⟩ := effect
    refine origins.extend (fun invite member => Or.inl ?_) fun session member =>
      Or.inl (of_mem_revokeSessions (Db.mem_deleteGuests_sessions.mp member).1)
    obtain ⟨old, held, rfl⟩ := Db.mem_revoked_invites.mp member
    refine ⟨old, held, ?_⟩
    split <;> exact ⟨rfl, rfl⟩
  | closed roomId =>
    rw [deed] at effect
    obtain ⟨-, closedAt, inviteAt, sessionAt, rfl⟩ := effect
    refine origins.extend (fun invite member => Or.inl ?_) fun session member =>
      Or.inl (of_mem_revokeSessions member)
    obtain ⟨old, held, rfl⟩ := Db.mem_closed_invites.mp member
    refine ⟨old, held, ?_⟩
    split <;> exact ⟨rfl, rfl⟩

end Origins

/-- An invite of an open room, neither expired nor revoked, with an expiry that can be read, and a free place in the
room. -/
structure Issue.Accepted (past : List Event) (db : Db) (now : Instant) (issue : Issue) : Prop where
  live : LiveInvite past issue
  opened : db.IsOpen issue.roomId
  unexpired : now < issue.issuedAt + seconds Limits.INVITE_TTL_SECS
  dated : issue.issuedAt + seconds Limits.INVITE_TTL_SECS < Rfc3339.YEAR_10000
  place : 1 + db.participants.count (db.isLiveGuest issue.roomId now) < Limits.MAX_PARTICIPANTS

section Exchange

variable {crates : Crates} {past : List Event} {db : Db} {raw : String}

theorem origins_of_run (run : (storeMachine crates).Run past db) : Origins crates past db :=
  run.history (Origins crates) (fun _ initial => initial ▸ .empty) fun _ _ _ _ _ origins step =>
    origins.step (Event.effect step)

/-- A secret that was issued once was issued for one room. -/
theorem issue_unique (fresh : (secretsOf past).Nodup) {first second : Event} {left right : Issue}
    (firstMem : first ∈ past) (secondMem : second ∈ past) (leftIssued : first.deed.issues = some left)
    (rightIssued : second.deed.issues = some right) (same : left.secret = right.secret) : left = right := by
  have symmetric : Std.Symm (Function.onFun List.Disjoint fun event : Event => event.deed.secrets) :=
    ⟨fun _ _ disjoint => disjoint.symm⟩
  by_cases equal : first = second
  · subst equal
    exact Option.some.inj (leftIssued.symm.trans rightIssued)
  · have apart := (List.nodup_flatMap.mp fresh).2.forall firstMem secondMem equal
    exact absurd (same ▸ Deed.secret_mem_of_issues rightIssued) (apart (Deed.secret_mem_of_issues leftIssued))

/-- What the tables admit is an invite that is accepted, and the other way round. -/
theorem admits_iff_accepted (run : (storeMachine crates).Run past db) (now : Instant) (fresh : (secretsOf past).Nodup)
    (collisionFree : Set.InjOn crates.sha256 {value | value = trim raw ∨ value ∈ secretsOf past}) :
    (∀ invite, db.Admits (crates.sha256 (trim raw)) now invite →
      ∃ issue : Issue, issue.Accepted past db now ∧ issue.secret = trim raw ∧ issue.roomId = invite.roomId) ∧
    ∀ issue : Issue, issue.Accepted past db now → issue.secret = trim raw →
      ∃ invite, db.Admits (crates.sha256 (trim raw)) now invite ∧ invite.roomId = issue.roomId := by
  have access := access_of_run run
  have origins := origins_of_run run
  have seated := seated_of_run run
  constructor
  · rintro invite ⟨found, unrevoked, unexpired, dated, opened, capacity⟩
    obtain ⟨member, hashed⟩ := Table.find?_eq_some found
    obtain ⟨issue, live, fills⟩ := access.invite_live invite member unrevoked
    refine ⟨issue, ⟨live, fills.room ▸ opened, fills.expiry ▸ unexpired, fills.expiry ▸ dated, ?_⟩, ?_,
      fills.room.symm⟩
    · obtain ⟨room, roomMem, named, -⟩ := opened
      rw [← fills.room, ← seated.liveParticipants_length ⟨room, roomMem, named⟩]
      exact capacity
    · exact collisionFree (Or.inr (mem_secretsOf_of_liveInvite live)) (Or.inl rfl)
        (fills.digest.symm.trans (eq_of_beq hashed))
  · rintro issue ⟨live, opened, unexpired, dated, place⟩ secret
    obtain ⟨invite, member, fills, status⟩ := access.invite_held issue live
    obtain ⟨room, roomMem, named, notClosed⟩ := opened
    have unrevoked : invite.revokedAt = none := by
      refine status.resolve_right ?_
      rintro ⟨other, otherMem, same, shut⟩
      exact notClosed (Table.eq_of_key roomMem otherMem (named.trans same.symm) ▸ shut)
    refine ⟨invite, ⟨?_, unrevoked, fills.expiry.symm ▸ unexpired, fills.expiry.symm ▸ dated,
      ⟨room, roomMem, named.trans fills.room.symm, notClosed⟩, ?_⟩, fills.room⟩
    · cases found : db.invites.find? (·.digest == crates.sha256 (trim raw)) with
      | none =>
        refine absurd (Table.find?_eq_none.mp found invite member) ?_
        simp [fills.digest, secret]
      | some other =>
        obtain ⟨otherMem, hashed⟩ := Table.find?_eq_some found
        obtain ⟨event, held, origin, issued, room, digest⟩ := origins.invite other otherMem
        obtain ⟨_, deedMem, granted⟩ := Live.mem live
        obtain ⟨first, firstMem, rfl⟩ := List.mem_map.mp deedMem
        have given : origin.secret ∈ secretsOf past :=
          List.mem_flatMap.mpr ⟨event, held, Deed.secret_mem_of_issues issued⟩
        have secrets : origin.secret = trim raw :=
          collisionFree (Or.inr given) (Or.inl rfl) (digest.symm.trans (eq_of_beq hashed))
        have equal := issue_unique fresh held firstMem issued granted (secrets.trans secret.symm)
        rw [Table.eq_of_key otherMem member (room.symm.trans (equal ▸ fills.room.symm))]
    · rw [fills.room, seated.liveParticipants_length ⟨room, roomMem, named⟩]
      exact place

/-- After any history, an exchange with a valid name succeeds exactly when its text is the secret of an
accepted invite. Then it adds one guest and one session to the invite's room and nothing else; otherwise
it changes nothing. -/
theorem exchange_iff_accepted (run : (storeMachine crates).Run past db) {sealing : StoreSeal} {draws : Draws}
    {displayName name cell : String} (validName : Limits.validateDisplayName displayName = .ok name)
    (seals : sealing.sealText (draws.nonce 0) name
      (ctx "room_participants" "display_name" (opaqueId "member_" (draws.uuid 1))) = .ok cell)
    (fresh : (opaqueSecret (draws.uuid 0) :: secretsOf past).Nodup)
    (freshId : ∀ participant ∈ db.participants, participant.id ≠ opaqueId "member_" (draws.uuid 1))
    (collisionFree : Set.InjOn crates.sha256
      {value | value = trim raw ∨ value ∈ opaqueSecret (draws.uuid 0) :: secretsOf past}) :
    let store : RoomStore := ⟨crates, sealing⟩
    ((∃ session target, store.exchangeInvite draws.env raw displayName db = .ok session target) ↔
      ∃ issue : Issue, issue.Accepted past db (draws.now 0) ∧ issue.secret = trim raw) ∧
    (∀ session target, store.exchangeInvite draws.env raw displayName db = .ok session target →
      ∃ issue : Issue, issue.Accepted past db (draws.now 0) ∧ issue.secret = trim raw ∧
        ∃ guest row, guest.roomId = issue.roomId ∧ guest.role = .guest ∧ row.roomId = issue.roomId ∧
          row.participantId = guest.id ∧ target.participants.rows = db.participants.rows ++ [guest] ∧
          target.sessions.rows = db.sessions.rows ++ [row] ∧ target.rooms = db.rooms ∧
          target.messages = db.messages ∧ target.runs = db.runs ∧ target.invites = db.invites) ∧
    ∀ error target, store.exchangeInvite draws.env raw displayName db = .error error target → target = db := by
  have short : Set.InjOn crates.sha256 {value | value = trim raw ∨ value ∈ secretsOf past} :=
    collisionFree.mono fun value => Or.imp_right (List.mem_cons_of_mem _)
  obtain ⟨accepted, admitted⟩ :=
    admits_iff_accepted run (draws.now 0) (List.nodup_cons.mp fresh).2 short
  refine ⟨⟨?_, ?_⟩, ?_, fun _ _ failed => (RoomStore.exchangeInvite_error failed).symm⟩
  · rintro ⟨session, target, success⟩
    obtain ⟨_, _, invite, _, -, -, -, admits, -⟩ := RoomStore.exchangeInvite_ok_iff.mp success
    obtain ⟨issue, held, secret, -⟩ := accepted invite admits
    exact ⟨issue, held, secret⟩
  · rintro ⟨issue, held, secret⟩
    obtain ⟨invite, admits, room⟩ := admitted issue held secret
    obtain ⟨uuid, drawn⟩ := secrets_of_run run _ (mem_secretsOf_of_liveInvite held.live)
    obtain ⟨room, roomMem, named, -⟩ := admits.opened
    have known : db.hasRoom invite.roomId := Db.hasRoom_iff.mpr ⟨room, roomMem, named⟩
    obtain ⟨participants, person⟩ := Table.exists_insert? (newParticipant invite.roomId (draws.now 0) .guest
      (opaqueId "member_" (draws.uuid 1)) cell) freshId
    have unused : ∀ session ∈ db.sessions, session.digest ≠ crates.sha256 (opaqueSecret (draws.uuid 0)) := by
      intro session member same
      obtain ⟨old, given, hashed⟩ := (origins_of_run run).session session member
      have equal := collisionFree (Or.inr (List.mem_cons_of_mem _ given)) (Or.inr List.mem_cons_self)
        (hashed.symm.trans same)
      exact (List.nodup_cons.mp fresh).1 (equal ▸ given)
    obtain ⟨sessions, keyed⟩ := Table.exists_insert? (newSession invite.roomId (draws.now 0)
      (crates.sha256 (opaqueSecret (draws.uuid 0))) (opaqueId "member_" (draws.uuid 1))) unused
    refine ⟨_, { db with participants, sessions }, RoomStore.exchangeInvite_ok_iff.mpr ⟨name, cell, invite,
      { db with participants }, validName, ?_, seals, admits, ?_, ?_, rfl⟩⟩
    · rw [← secret, drawn]
      exact opaqueSecret_readable uuid
    · exact Db.insertParticipant_eq_some_iff.mpr ⟨known, participants, person, rfl⟩
    · refine Db.insertSession_eq_some_iff.mpr ⟨⟨known, ?_⟩, sessions, keyed, rfl⟩
      exact Db.hasParticipant_iff.mpr ⟨_, (Table.mem_of_insert? person).mpr (Or.inr rfl), rfl⟩
  · intro session target success
    obtain ⟨_, _, invite, _, -, -, -, admits, first, second, -⟩ := RoomStore.exchangeInvite_ok_iff.mp success
    obtain ⟨issue, held, secret, room⟩ := accepted invite admits
    obtain ⟨-, _, person, rfl⟩ := Db.insertParticipant_eq_some_iff.mp first
    obtain ⟨-, _, keyed, rfl⟩ := Db.insertSession_eq_some_iff.mp second
    exact ⟨issue, held, secret, _, _, room.symm, rfl, room.symm, rfl, (Table.insert?_eq_some_iff.mp person).2,
      (Table.insert?_eq_some_iff.mp keyed).2, rfl, rfl, rfl, rfl⟩

end Exchange

/-- The sample room, before anyone joins. -/
def Sample.newRoom : List Call := [⟨.compat, draws 1 10, false, .createRoom ⟨"llama", origin⟩⟩]

theorem exchange_iff_accepted_newRoom :
    let db := (history Sample.crates Sample.newRoom .empty).2
    let past := (history Sample.crates Sample.newRoom .empty).1
    let raw := opaqueSecret (.ofNat 3)
    ((Sample.store.exchangeInvite (Sample.draws 4 20).env raw "Ada" db) matches .ok _ _) = true ∧
      ((∃ session target,
          Sample.store.exchangeInvite (Sample.draws 4 20).env raw "Ada" db = .ok session target) ↔
        ∃ issue : Issue, issue.Accepted past db 20 ∧ issue.secret = trim raw) := by
  intro db past raw
  have secrets : secretsOf past = [opaqueSecret (.ofNat 3)] := by decide +kernel
  have given : opaqueSecret ((Sample.draws 4 20).uuid 0) :: secretsOf past =
      [opaqueSecret (.ofNat 4), opaqueSecret (.ofNat 3)] := by rw [secrets]; rfl
  have collisionFree : Set.InjOn Sample.crates.sha256
      {value | value = trim raw ∨ value ∈ opaqueSecret ((Sample.draws 4 20).uuid 0) :: secretsOf past} :=
    Sample.collisionFree given (by decide +kernel) (by decide +kernel)
  have others : ∀ participant ∈ db.participants.rows,
      participant.id ≠ opaqueId "member_" ((Sample.draws 4 20).uuid 1) := by decide +kernel
  have valid : Limits.validateDisplayName "Ada" = .ok "Ada" := by decide +kernel
  exact ⟨by decide +kernel, (exchange_iff_accepted (run_history Sample.crates Sample.newRoom) valid rfl
    (by rw [given]; decide +kernel) others collisionFree).1⟩

/-- A room of the last minutes of the year 9999, before anyone joins. -/
def Sample.lateRoom : List Call :=
  [⟨.compat, draws 1 (Rfc3339.YEAR_10000 - seconds 300), false, .createRoom ⟨"llama", origin⟩⟩]

/-- An invite whose expiry cannot be read is refused, although it is live and has not expired. -/
theorem not_exchange_of_live_lateRoom : ¬ ∀ (crates : Crates) (past : List Event) (db : Db) (sealing : StoreSeal)
    (draws : Draws) (raw displayName name cell : String) (issue : Issue), (storeMachine crates).Run past db →
      Forward past → (∀ event ∈ past, event.draws.now 0 ≤ draws.now 0) →
      Limits.validateDisplayName displayName = .ok name →
      sealing.sealText (draws.nonce 0) name
        (ctx "room_participants" "display_name" (opaqueId "member_" (draws.uuid 1))) = .ok cell →
      (opaqueSecret (draws.uuid 0) :: secretsOf past).Nodup →
      (∀ participant ∈ db.participants, participant.id ≠ opaqueId "member_" (draws.uuid 1)) →
      Set.InjOn crates.sha256 {value | value = trim raw ∨ value ∈ opaqueSecret (draws.uuid 0) :: secretsOf past} →
      LiveInvite past issue → db.IsOpen issue.roomId →
      draws.now 0 < issue.issuedAt + seconds Limits.INVITE_TTL_SECS →
      1 + db.participants.count (db.isLiveGuest issue.roomId (draws.now 0)) < Limits.MAX_PARTICIPANTS →
      issue.secret = trim raw →
      ∃ session target, (RoomStore.mk crates sealing).exchangeInvite draws.env raw displayName db = .ok session target := by
  intro exchanges
  set past := (history Sample.crates Sample.lateRoom .empty).1 with isPast
  set db := (history Sample.crates Sample.lateRoom .empty).2 with isDb
  set draws := Sample.draws 4 (Rfc3339.YEAR_10000 - seconds 200) with isDraws
  have checked : (Forward past ∧ ∀ event ∈ past, event.draws.now 0 ≤ draws.now 0) ∧
      secretsOf past = [opaqueSecret (.ofNat 3)] ∧
      (∀ participant ∈ db.participants.rows, participant.id ≠ opaqueId "member_" (draws.uuid 1)) ∧
      ((past.getLast?.bind fun event => event.deed.issues).map fun issue => (issue.roomId, issue.issuedAt, issue.secret)) =
        some (opaqueId "room_" (.ofNat 1), Rfc3339.YEAR_10000 - seconds 300, opaqueSecret (.ofNat 3)) ∧
      db.rooms.rows.map (fun room => (room.id, room.status)) = [(opaqueId "room_" (.ofNat 1), .idle)] ∧
      1 + db.participants.count (db.isLiveGuest (opaqueId "room_" (.ofNat 1)) (draws.now 0)) < Limits.MAX_PARTICIPANTS ∧
      (Sample.store.exchangeInvite draws.env (opaqueSecret (.ofNat 3)) "Ada" db matches .error _ _) = true := by
    unfold Forward
    decide +kernel
  obtain ⟨⟨forward, earlier⟩, secrets, others, issues, rooms, place, refused⟩ := checked
  obtain ⟨issue, issued, parts⟩ := Option.map_eq_some_iff.mp issues
  obtain ⟨event, isLast, granted⟩ := Option.bind_eq_some_iff.mp issued
  obtain ⟨before, split⟩ := List.getLast?_eq_some_iff.mp isLast
  have live : LiveInvite past issue := split ▸ liveInvite_snoc_iff.mpr (Or.inl granted)
  obtain ⟨roomId, rest⟩ := Prod.mk.inj parts
  obtain ⟨issuedAt, secret⟩ := Prod.mk.inj rest
  have opened : db.IsOpen issue.roomId := by
    have listed : (issue.roomId, RoomStatus.idle) ∈ db.rooms.rows.map fun room => (room.id, room.status) := by
      rw [rooms, roomId]
      exact List.mem_singleton.mpr rfl
    obtain ⟨room, member, same⟩ := List.mem_map.mp listed
    obtain ⟨named, idle⟩ := Prod.mk.inj same
    exact ⟨room, member, named, by simp [idle]⟩
  have given : opaqueSecret (draws.uuid 0) :: secretsOf past = [opaqueSecret (.ofNat 4), opaqueSecret (.ofNat 3)] := by
    rw [secrets]
    rfl
  have collisionFree : Set.InjOn Sample.crates.sha256
      {value | value = trim (opaqueSecret (.ofNat 3)) ∨ value ∈ opaqueSecret (draws.uuid 0) :: secretsOf past} :=
    Sample.collisionFree given (by decide +kernel) (by decide +kernel)
  obtain ⟨session, target, joined⟩ := exchanges Sample.crates past db .compat draws (opaqueSecret (.ofNat 3)) "Ada" "Ada"
    "Ada" issue (run_history Sample.crates _) forward earlier (by decide +kernel) rfl (by rw [given]; decide +kernel)
    others collisionFree live opened (by rw [issuedAt]; decide) (by rw [roomId]; exact place)
    (secret.trans (by decide +kernel))
  change Sample.store.exchangeInvite draws.env (opaqueSecret (.ofNat 3)) "Ada" db = _ at joined
  rw [joined] at refused
  cases refused

end RyuRooms
