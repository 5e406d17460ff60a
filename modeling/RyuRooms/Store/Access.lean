import RyuRooms.Foundation.Grants
import RyuRooms.Store.Guests
import RyuRooms.Store.RunLink

/-! # Who a history lets in

Seen from outside, a history issues invites and joins sessions, and rotations, revocations and closes
end them: a `Deed` is what one call did in these terms. `Access` ties the tables to that reading. An
unrevoked invite row is a live invite with its digest and expiry, an unrevoked session row is a live
session with its own. Rotating and revoking delete guest rows and rely on the cascade to take the
sessions with them, so that an ended session does not stay behind rests on every session belonging to a
guest of its room.
-/

namespace RyuRooms

open Foundation

/-- An invite that was issued for a room. -/
structure Issue where
  roomId : String
  secret : String
  issuedAt : Instant

/-- A session that an exchange returned. -/
structure Admission where
  session : RoomSession
  joinedAt : Instant

/-- What a call did about the access to rooms. -/
inductive Deed where
  | created (issue : Issue)
  | rotated (issue : Issue)
  | joined (admission : Admission)
  | revoked (roomId : String)
  | closed (roomId : String)
  | other

/-- The deed of a call, which only an Ok reply makes one about access. -/
def Event.deed (event : Event) : Deed :=
  match event.op, event.reply with
  | .createRoom _, .ok (.created created) => .created ⟨created.room.id, created.invite, event.draws.now 0⟩
  | .issueInvite roomId, .ok (.issued issued) => .rotated ⟨trim roomId, issued.invite, event.draws.now 0⟩
  | .exchangeInvite _ _, .ok (.joined session) => .joined ⟨session, event.draws.now 0⟩
  | .revokeInvite roomId, .ok _ => .revoked (trim roomId)
  | .closeRoom roomId, .ok _ => .closed (trim roomId)
  | _, _ => .other

namespace Deed

/-- The invite that a deed issues. -/
def issues : Deed → Option Issue
  | created issue | rotated issue => some issue
  | joined _ | revoked _ | closed _ | other => none

/-- The session that a deed joins. -/
def joins : Deed → Option Admission
  | joined admission => some admission
  | created _ | rotated _ | revoked _ | closed _ | other => none

/-- The secrets that a deed gives out. -/
def secrets : Deed → List String
  | created issue | rotated issue => [issue.secret]
  | joined admission => [admission.session.secret]
  | revoked _ | closed _ | other => []

/-- A newer invite for the room, or its revocation, ends an invite. -/
def EndsInvite (deed : Deed) (issue : Issue) : Prop :=
  match deed with
  | created newer | rotated newer => newer.roomId = issue.roomId
  | revoked roomId => roomId = issue.roomId
  | joined _ | closed _ | other => False

/-- A rotation, revocation or close of its room ends a session. -/
def EndsSession (deed : Deed) (admission : Admission) : Prop :=
  match deed with
  | rotated issue => issue.roomId = admission.session.roomId
  | revoked roomId | closed roomId => roomId = admission.session.roomId
  | created _ | joined _ | other => False

/-- What a deed does to the tables of invites, participants and sessions. -/
def Effect (crates : Crates) (source target : Db) : Deed → Prop
  | created issue => ∃ room host, room.id = issue.roomId ∧ source.rooms.insert? room = some target.rooms ∧
      source.invites.insert? (newInvite issue.roomId issue.issuedAt (crates.sha256 issue.secret)) =
        some target.invites ∧
      host.roomId = issue.roomId ∧ host.role = .host ∧
      source.participants.insert? host = some target.participants ∧ target.sessions = source.sessions
  | rotated issue => (∃ invite ∈ source.invites, invite.roomId = issue.roomId) ∧
      target = source.rotated issue.roomId (crates.sha256 issue.secret) issue.issuedAt
  | joined admission => ∃ digest invite name, source.Admits digest admission.joinedAt invite ∧
      invite.roomId = admission.session.roomId ∧ admission.session.role = .guest ∧
      target.rooms = source.rooms ∧ target.invites = source.invites ∧
      source.participants.insert? (newParticipant admission.session.roomId admission.joinedAt .guest
        admission.session.participantId name) = some target.participants ∧
      source.sessions.insert? (newSession admission.session.roomId admission.joinedAt
        (crates.sha256 admission.session.secret) admission.session.participantId) = some target.sessions
  | revoked roomId => ∃ inviteAt sessionAt, target = source.revoked roomId inviteAt sessionAt
  | closed roomId => source.IsOpen roomId ∧
      ∃ closedAt inviteAt sessionAt, target = source.closed roomId closedAt inviteAt sessionAt
  | other => target.invites = source.invites ∧ target.participants = source.participants ∧
      target.sessions = source.sessions

end Deed

/-- The most recently issued invite of its room, not revoked since. -/
def LiveInvite (past : List Event) (issue : Issue) : Prop :=
  Live Deed.issues Deed.EndsInvite (past.map Event.deed) issue

/-- A session whose room was not rotated, revoked or closed since it joined. -/
def LiveSession (past : List Event) (admission : Admission) : Prop :=
  Live Deed.joins Deed.EndsSession (past.map Event.deed) admission

/-- Every call reads the clock no earlier than the calls before it. -/
def Forward (past : List Event) : Prop :=
  past.Pairwise fun earlier later => earlier.draws.now 0 ≤ later.draws.now 0

/-- The secrets that a history gave out. -/
def secretsOf (past : List Event) : List String := past.flatMap fun event => event.deed.secrets

theorem Deed.secret_mem_of_issues {deed : Deed} {issue : Issue} (issued : deed.issues = some issue) :
    issue.secret ∈ deed.secrets := by
  cases deed <;> simp_all [Deed.issues, Deed.secrets]

theorem mem_secretsOf_of_liveInvite {past : List Event} {issue : Issue} (live : LiveInvite past issue) :
    issue.secret ∈ secretsOf past := by
  obtain ⟨deed, member, issued⟩ := Live.mem live
  obtain ⟨event, held, rfl⟩ := List.mem_map.mp member
  exact List.mem_flatMap.mpr ⟨event, held, Deed.secret_mem_of_issues issued⟩

theorem mem_secretsOf_of_joins {past : List Event} {event : Event} {admission : Admission}
    (member : event ∈ past) (joined : event.deed.joins = some admission) :
    admission.session.secret ∈ secretsOf past := by
  refine List.mem_flatMap.mpr ⟨event, member, ?_⟩
  cases deed : event.deed <;> simp_all [Deed.joins, Deed.secrets]

theorem LiveSession.joined {past : List Event} {admission : Admission} (live : LiveSession past admission) :
    ∃ event ∈ past, event.deed.joins = some admission := by
  obtain ⟨deed, member, joined⟩ := Live.mem live
  obtain ⟨event, held, rfl⟩ := List.mem_map.mp member
  exact ⟨event, held, joined⟩

/-- A uuid is a secret that the store looks up. -/
theorem opaqueSecret_readable (uuid : Uuid) :
    opaqueSecret uuid ≠ "" ∧ (opaqueSecret uuid).utf8ByteSize ≤ 128 ∧
      anyChar isControl (opaqueSecret uuid) = false := by
  have size := uuid.utf8ByteSize_simple
  refine ⟨?_, ?_, ?_⟩
  · intro empty
    rw [opaqueSecret] at empty
    rw [empty] at size
    cases size
  · rw [opaqueSecret, size]
    decide
  · simp only [anyChar, List.any_eq_false, Bool.not_eq_true]
    intro c member
    exact (isHexDigit_spec (uuid.digit member)).2.1

theorem validateRoomId_ok {value id : String} (valid : validateRoomId value = .ok id) : id = trim value := by
  rw [validateRoomId] at valid
  split at valid
  · cases valid
  · exact (Except.ok.inj valid).symm

section Effects

variable {crates : Crates} {event : Event} {source target : Db}

/-- A deed about access comes from an Ok reply. -/
theorem Event.deed_of_error {error : StoreError} (replied : event.reply = .error error) :
    event.deed = .other := by
  rw [Event.deed, replied]
  cases event.op <;> rfl

/-- A turn is no deed about access. -/
theorem Event.deed_of_turn (turn : event.op.isTurn) : event.deed = .other := by
  rw [Event.deed]
  cases op : event.op <;> simp_all [Op.isTurn]

/-- Every step has the effect of its deed. -/
theorem Event.effect (step : (storeMachine crates).step? source event = some target) :
    event.deed.Effect crates source target := by
  cases turn : event.op.isTurn with
  | true =>
    rw [deed_of_turn turn]
    exact (runChange step turn).sameAccess
  | false =>
    cases replied : event.reply with
    | error error =>
      rw [deed_of_error replied]
      obtain rfl := unchanged_of_error step turn replied
      exact ⟨rfl, rfl, rfl⟩
    | ok reply =>
      have success := ok_of_step step replied
      rw [Event.deed, replied]
      cases op : event.op with
      | createRoom input =>
        rw [op] at success
        obtain ⟨created, made, rfl⟩ := map_ok_iff.mp success
        obtain ⟨modelId, hostName, _, _, first, second, third, secret, named⟩ := RoomStore.createRoom_ok made
        obtain ⟨_, roomed, rfl⟩ := Db.insertRoom_eq_some_iff.mp first
        obtain ⟨-, _, invited, rfl⟩ := Db.insertInvite_eq_some_iff.mp second
        obtain ⟨-, _, hosted, rfl⟩ := Db.insertParticipant_eq_some_iff.mp third
        exact ⟨_, _, named.symm, roomed, by rw [named, secret]; exact invited, named.symm, rfl, hosted, rfl⟩
      | exchangeInvite raw displayName =>
        rw [op] at success
        obtain ⟨session, made, rfl⟩ := map_ok_iff.mp success
        obtain ⟨name, cell, invite, _, -, -, -, admits, first, second, rfl⟩ :=
          RoomStore.exchangeInvite_ok_iff.mp made
        obtain ⟨-, _, seated, rfl⟩ := Db.insertParticipant_eq_some_iff.mp first
        obtain ⟨-, _, keyed, rfl⟩ := Db.insertSession_eq_some_iff.mp second
        exact ⟨_, invite, cell, admits, rfl, rfl, rfl, rfl, seated, keyed⟩
      | issueInvite roomId =>
        rw [op] at success
        obtain ⟨issued, made, rfl⟩ := map_ok_iff.mp success
        obtain ⟨_, valid, -, known, secret, rfl⟩ := RoomStore.issueInvite_ok made
        obtain rfl := validateRoomId_ok valid
        exact ⟨known, by rw [secret]⟩
      | revokeInvite roomId =>
        rw [op] at success
        obtain ⟨_, made, rfl⟩ := map_ok_iff.mp success
        obtain ⟨_, valid, -, rfl⟩ := RoomStore.revokeInvite_ok made
        obtain rfl := validateRoomId_ok valid
        exact ⟨_, _, rfl⟩
      | closeRoom roomId =>
        rw [op] at success
        obtain ⟨_, made, rfl⟩ := map_ok_iff.mp success
        obtain ⟨_, valid, opened, rfl⟩ := RoomStore.closeRoom_ok made
        obtain rfl := validateRoomId_ok valid
        exact ⟨opened, _, _, _, rfl⟩
      | appendUserTurn | appendDelta | finishRun | stopRun | recoverRunning =>
        rw [op] at turn
        cases turn

/-- Every secret a step gives out is a uuid it drew. -/
theorem Event.secrets_step (step : (storeMachine crates).step? source event = some target) {secret : String}
    (given : secret ∈ event.deed.secrets) : ∃ uuid, secret = opaqueSecret uuid := by
  cases replied : event.reply with
  | error error => simp [deed_of_error replied, Deed.secrets] at given
  | ok reply =>
    have success := ok_of_step step replied
    rw [Event.deed, replied] at given
    cases op : event.op with
    | createRoom input =>
      rw [op] at success given
      obtain ⟨created, made, rfl⟩ := map_ok_iff.mp success
      obtain ⟨_, _, _, _, -, -, -, drawn, -⟩ := RoomStore.createRoom_ok made
      exact ⟨_, (List.mem_singleton.mp given).trans drawn⟩
    | exchangeInvite raw displayName =>
      rw [op] at success given
      obtain ⟨session, made, rfl⟩ := map_ok_iff.mp success
      obtain ⟨_, _, _, _, -, -, -, -, -, -, rfl⟩ := RoomStore.exchangeInvite_ok_iff.mp made
      exact ⟨_, List.mem_singleton.mp given⟩
    | issueInvite roomId =>
      rw [op] at success given
      obtain ⟨issued, made, rfl⟩ := map_ok_iff.mp success
      obtain ⟨_, -, -, -, drawn, -⟩ := RoomStore.issueInvite_ok made
      exact ⟨_, (List.mem_singleton.mp given).trans drawn⟩
    | revokeInvite | closeRoom | appendUserTurn | appendDelta | finishRun | stopRun | recoverRunning =>
      simp [op, Deed.secrets] at given

end Effects

section Live

variable {past : List Event} {event : Event}

theorem liveInvite_snoc_iff {issue : Issue} : LiveInvite (past ++ [event]) issue ↔
    event.deed.issues = some issue ∨ (LiveInvite past issue ∧ ¬ event.deed.EndsInvite issue) := by
  rw [LiveInvite, List.map_append, List.map_singleton, live_snoc_iff]
  rfl

theorem liveSession_snoc_iff {admission : Admission} : LiveSession (past ++ [event]) admission ↔
    event.deed.joins = some admission ∨ (LiveSession past admission ∧ ¬ event.deed.EndsSession admission) := by
  rw [LiveSession, List.map_append, List.map_singleton, live_snoc_iff]
  rfl

end Live

/-- The row of a session that joined. -/
def Admission.row (crates : Crates) (admission : Admission) : SessionRow :=
  newSession admission.session.roomId admission.joinedAt (crates.sha256 admission.session.secret)
    admission.session.participantId

/-- The row holds the invite that was issued. -/
structure Issue.Fills (crates : Crates) (issue : Issue) (invite : InviteRow) : Prop where
  room : invite.roomId = issue.roomId
  digest : invite.digest = crates.sha256 issue.secret
  expiry : invite.expiresAt = issue.issuedAt + seconds Limits.INVITE_TTL_SECS

/-- The tables hold the live invites and sessions of a history. -/
structure Access (crates : Crates) (past : List Event) (db : Db) : Prop where
  invite_live : ∀ invite ∈ db.invites, invite.revokedAt = none →
    ∃ issue, LiveInvite past issue ∧ issue.Fills crates invite
  invite_held : ∀ issue, LiveInvite past issue → ∃ invite ∈ db.invites, issue.Fills crates invite ∧
    (invite.revokedAt = none ∨ ∃ room ∈ db.rooms, room.id = issue.roomId ∧ room.status = .closed)
  session_live : ∀ session ∈ db.sessions, session.revokedAt = none →
    ∃ admission, LiveSession past admission ∧ session = admission.row crates
  session_held : ∀ admission, LiveSession past admission → admission.row crates ∈ db.sessions

namespace Access

variable {crates : Crates} {past : List Event} {event : Event} {source target : Db}

theorem empty : Access crates [] .empty :=
  ⟨by simp [Db.empty], fun _ live => absurd live not_live_nil, by simp [Db.empty],
    fun _ live => absurd live not_live_nil⟩

/-- A room that was closed stays closed. -/
private theorem stays_shut (change : Change source target) {roomId : String} :
    (∃ room ∈ source.rooms, room.id = roomId ∧ room.status = .closed) →
      ∃ room ∈ target.rooms, room.id = roomId ∧ room.status = .closed := by
  rintro ⟨room, member, named, status⟩
  obtain ⟨next, held, same, still⟩ := change.stays_closed member status
  exact ⟨next, held, same.trans named, still⟩

variable (crates past target) in
/-- The invites of a database are those that a history left live. -/
structure Invited : Prop where
  live : ∀ invite ∈ target.invites, invite.revokedAt = none →
    ∃ issue, LiveInvite past issue ∧ issue.Fills crates invite
  held : ∀ issue, LiveInvite past issue → ∃ invite ∈ target.invites, issue.Fills crates invite ∧
    (invite.revokedAt = none ∨ ∃ room ∈ target.rooms, room.id = issue.roomId ∧ room.status = .closed)

private theorem invites_kept (access : Access crates past source) (change : Change source target)
    (invites : target.invites = source.invites) (none : event.deed.issues = none)
    (spared : ∀ issue, ¬ event.deed.EndsInvite issue) : Invited crates (past ++ [event]) target where
  live invite member fresh := by
    obtain ⟨issue, live, fills⟩ := access.invite_live invite (invites ▸ member) fresh
    exact ⟨issue, liveInvite_snoc_iff.mpr (Or.inr ⟨live, spared issue⟩), fills⟩
  held issue live := by
    rcases liveInvite_snoc_iff.mp live with issued | ⟨live, -⟩
    · simp [none] at issued
    · obtain ⟨invite, member, fills, status⟩ := access.invite_held issue live
      exact ⟨invite, invites ▸ member, fills, status.imp_right (stays_shut change)⟩

private theorem invites_created (access : Access crates past source) (change : Change source target) {newest : Issue}
    (deed : event.deed = .created newest) (effect : event.deed.Effect crates source target) :
    Invited crates (past ++ [event]) target := by
  rw [deed] at effect
  obtain ⟨_, _, -, -, invited, -⟩ := effect
  have rows (invite : InviteRow) : invite ∈ target.invites ↔ invite ∈ source.invites ∨ invite = _ :=
    Table.mem_of_insert? invited
  have apart := (Table.insert?_eq_some_iff.mp invited).1
  constructor <;> simp only [liveInvite_snoc_iff, deed]
  · intro invite member fresh
    rcases (rows invite).mp member with held | rfl
    · obtain ⟨issue, live, fills⟩ := access.invite_live invite held fresh
      exact ⟨issue, Or.inr ⟨live, fun same => apart invite held (fills.room.trans same.symm)⟩, fills⟩
    · exact ⟨newest, Or.inl rfl, rfl, rfl, rfl⟩
  · rintro issue (issued | ⟨live, -⟩)
    · obtain rfl := Option.some.inj issued
      exact ⟨_, (rows _).mpr (Or.inr rfl), ⟨rfl, rfl, rfl⟩, Or.inl rfl⟩
    · obtain ⟨invite, member, fills, status⟩ := access.invite_held issue live
      exact ⟨invite, (rows invite).mpr (Or.inl member), fills, status.imp_right (stays_shut change)⟩

private theorem invites_rotated (access : Access crates past source) (change : Change source target) {newest : Issue}
    (deed : event.deed = .rotated newest) (effect : event.deed.Effect crates source target) :
    Invited crates (past ++ [event]) target := by
  rw [deed] at effect
  obtain ⟨⟨known, knownMem, knownRoom⟩, rfl⟩ := effect
  constructor <;> simp only [liveInvite_snoc_iff, deed]
  · intro invite member fresh
    obtain ⟨old, held, rfl⟩ := Db.mem_rotated_invites.mp member
    split at fresh
    · next named =>
      refine ⟨newest, Or.inl rfl, ?_⟩
      rw [if_pos named]
      exact ⟨eq_of_beq named, rfl, rfl⟩
    · next other =>
      obtain ⟨issue, live, fills⟩ := access.invite_live old held fresh
      refine ⟨issue, Or.inr ⟨live, fun same => other (beq_iff_eq.mpr (fills.room.trans same.symm))⟩, ?_⟩
      rwa [if_neg other]
  · rintro issue (issued | ⟨live, spared⟩)
    · obtain rfl := Option.some.inj issued
      refine ⟨_, Db.mem_rotated_invites.mpr ⟨known, knownMem, rfl⟩, ?_⟩
      rw [if_pos (beq_iff_eq.mpr knownRoom)]
      exact ⟨⟨knownRoom, rfl, rfl⟩, Or.inl rfl⟩
    · obtain ⟨invite, member, fills, status⟩ := access.invite_held issue live
      refine ⟨_, Db.mem_rotated_invites.mpr ⟨invite, member, rfl⟩, ?_⟩
      rw [if_neg fun named => spared ((eq_of_beq named).symm.trans fills.room)]
      exact ⟨fills, status.imp_right (stays_shut change)⟩

private theorem invites_revoked (access : Access crates past source) (change : Change source target) {roomId : String}
    (deed : event.deed = .revoked roomId) (effect : event.deed.Effect crates source target) :
    Invited crates (past ++ [event]) target := by
  rw [deed] at effect
  obtain ⟨inviteAt, sessionAt, rfl⟩ := effect
  constructor <;> simp only [liveInvite_snoc_iff, deed]
  · intro invite member fresh
    obtain ⟨old, held, rfl⟩ := Db.mem_revoked_invites.mp member
    split at fresh
    · cases fresh
    · next other =>
      obtain ⟨issue, live, fills⟩ := access.invite_live old held fresh
      refine ⟨issue, Or.inr ⟨live, fun same => other ?_⟩, ?_⟩
      · simp [fills.room, fresh, show roomId = issue.roomId from same]
      · rwa [if_neg other]
  · rintro issue (issued | ⟨live, spared⟩)
    · cases issued
    · obtain ⟨invite, member, fills, status⟩ := access.invite_held issue live
      refine ⟨_, Db.mem_revoked_invites.mpr ⟨invite, member, rfl⟩, ?_⟩
      rw [if_neg fun named => spared ?_]
      · exact ⟨fills, status.imp_right (stays_shut change)⟩
      · simp only [Bool.and_eq_true, beq_iff_eq] at named
        exact named.1.symm.trans fills.room

private theorem invites_closed (access : Access crates past source) (change : Change source target) {roomId : String}
    (deed : event.deed = .closed roomId) (effect : event.deed.Effect crates source target) :
    Invited crates (past ++ [event]) target := by
  rw [deed] at effect
  obtain ⟨⟨room, roomMem, rfl, opened⟩, closedAt, inviteAt, sessionAt, rfl⟩ := effect
  constructor <;> simp only [liveInvite_snoc_iff, deed]
  · intro invite member fresh
    obtain ⟨old, held, rfl⟩ := Db.mem_closed_invites.mp member
    split at fresh
    · cases fresh
    · next other =>
      obtain ⟨issue, live, fills⟩ := access.invite_live old held fresh
      exact ⟨issue, Or.inr ⟨live, id⟩, by rwa [if_neg other]⟩
  · rintro issue (issued | ⟨live, -⟩)
    · cases issued
    · obtain ⟨invite, member, fills, status⟩ := access.invite_held issue live
      refine ⟨_, Db.mem_closed_invites.mpr ⟨invite, member, rfl⟩, ?_⟩
      split
      · next named =>
        simp only [Bool.and_eq_true, beq_iff_eq] at named
        refine ⟨⟨fills.room, fills.digest, fills.expiry⟩, Or.inr ?_⟩
        refine ⟨_, Db.mem_closed_rooms.mpr ⟨room, roomMem, rfl⟩, ?_⟩
        rw [if_pos (by simp [opened])]
        exact ⟨named.1.symm.trans fills.room, rfl⟩
      · exact ⟨fills, status.imp_right (stays_shut change)⟩

/-- Invites go on as the deed says. -/
private theorem invites_step (access : Access crates past source) (change : Change source target)
    (effect : event.deed.Effect crates source target) : Invited crates (past ++ [event]) target := by
  cases deed : event.deed with
  | other =>
    rw [deed] at effect
    exact access.invites_kept change effect.1 (by rw [deed]; rfl) fun _ => by rw [deed]; exact id
  | joined admission =>
    rw [deed] at effect
    obtain ⟨_, _, _, -, -, -, -, invites, -⟩ := effect
    exact access.invites_kept change invites (by rw [deed]; rfl) fun _ => by rw [deed]; exact id
  | created newest => exact access.invites_created change deed effect
  | rotated newest => exact access.invites_rotated change deed effect
  | revoked roomId => exact access.invites_revoked change deed effect
  | closed roomId => exact access.invites_closed change deed effect

variable (crates past target) in
/-- The sessions of a database are those that a history left live. -/
structure Joined : Prop where
  live : ∀ session ∈ target.sessions, session.revokedAt = none →
    ∃ admission, LiveSession past admission ∧ session = admission.row crates
  held : ∀ admission, LiveSession past admission → admission.row crates ∈ target.sessions

private theorem sessions_kept (access : Access crates past source) (sessions : target.sessions = source.sessions)
    (none : event.deed.joins = none) (spared : ∀ admission, ¬ event.deed.EndsSession admission) :
    Joined crates (past ++ [event]) target where
  live session member fresh := by
    obtain ⟨admission, live, row⟩ := access.session_live session (sessions ▸ member) fresh
    exact ⟨admission, liveSession_snoc_iff.mpr (Or.inr ⟨live, spared admission⟩), row⟩
  held admission live := by
    rcases liveSession_snoc_iff.mp live with joined | ⟨live, -⟩
    · simp [none] at joined
    · exact sessions ▸ access.session_held admission live

/-- Rotating and revoking leave exactly the sessions of the other rooms. -/
private theorem sessions_dropped (access : Access crates past source) (roomId : String) (none : event.deed.joins = none)
    (ends : ∀ admission, event.deed.EndsSession admission ↔ roomId = admission.session.roomId)
    (sessions : ∀ session, session ∈ target.sessions ↔ session ∈ source.sessions ∧ session.roomId ≠ roomId) :
    Joined crates (past ++ [event]) target where
  live session member fresh := by
    obtain ⟨held, apart⟩ := (sessions session).mp member
    obtain ⟨admission, live, rfl⟩ := access.session_live session held fresh
    refine ⟨admission, liveSession_snoc_iff.mpr (Or.inr ⟨live, fun ended => apart ?_⟩), rfl⟩
    exact ((ends admission).mp ended).symm
  held admission live := by
    rcases liveSession_snoc_iff.mp live with joined | ⟨live, spared⟩
    · simp [none] at joined
    · refine (sessions _).mpr ⟨access.session_held admission live, fun same => spared ?_⟩
      exact (ends admission).mpr same.symm

private theorem sessions_joined (access : Access crates past source) {admission : Admission}
    (deed : event.deed = .joined admission) (effect : event.deed.Effect crates source target) :
    Joined crates (past ++ [event]) target := by
  rw [deed] at effect
  obtain ⟨_, _, _, -, -, -, -, -, -, keyed⟩ := effect
  have rows (session : SessionRow) : session ∈ target.sessions ↔ session ∈ source.sessions ∨
      session = admission.row crates := Table.mem_of_insert? keyed
  constructor <;> simp only [liveSession_snoc_iff, deed]
  · intro session member fresh
    rcases (rows session).mp member with held | rfl
    · obtain ⟨earlier, live, row⟩ := access.session_live session held fresh
      exact ⟨earlier, Or.inr ⟨live, id⟩, row⟩
    · exact ⟨admission, Or.inl rfl, rfl⟩
  · rintro other (joined | ⟨live, -⟩)
    · exact (rows _).mpr (Or.inr (by rw [Option.some.inj joined]))
    · exact (rows _).mpr (Or.inl (access.session_held other live))

private theorem sessions_closed (access : Access crates past source) {roomId : String}
    (deed : event.deed = .closed roomId) (effect : event.deed.Effect crates source target) :
    Joined crates (past ++ [event]) target := by
  rw [deed] at effect
  obtain ⟨-, closedAt, inviteAt, sessionAt, rfl⟩ := effect
  constructor <;> simp only [liveSession_snoc_iff, deed]
  · intro session member fresh
    obtain ⟨old, held, rfl⟩ := Db.mem_revokeSessions.mp member
    split at fresh
    · cases fresh
    · next other =>
      obtain ⟨admission, live, rfl⟩ := access.session_live old held fresh
      refine ⟨admission, Or.inr ⟨live, fun same => other ?_⟩, if_neg other⟩
      simp [Admission.row, newSession, show roomId = admission.session.roomId from same]
  · rintro admission (joined | ⟨live, spared⟩)
    · cases joined
    · refine Db.mem_revokeSessions.mpr ⟨_, access.session_held admission live, if_neg fun named => spared ?_⟩
      simp only [Bool.and_eq_true, beq_iff_eq] at named
      exact named.1.symm

/-- Sessions go on as the deed says. -/
private theorem sessions_step (access : Access crates past source) (seated : source.Seated)
    (effect : event.deed.Effect crates source target) : Joined crates (past ++ [event]) target := by
  cases deed : event.deed with
  | other =>
    rw [deed] at effect
    exact access.sessions_kept effect.2.2 (by rw [deed]; rfl) fun _ => by rw [deed]; exact id
  | created newest =>
    rw [deed] at effect
    obtain ⟨_, _, -, -, -, -, -, -, sessions⟩ := effect
    exact access.sessions_kept sessions (by rw [deed]; rfl) fun _ => by rw [deed]; exact id
  | rotated newest =>
    rw [deed] at effect
    obtain ⟨-, rfl⟩ := effect
    exact access.sessions_dropped newest.roomId (by rw [deed]; rfl) (fun _ => by rw [deed]; rfl) fun _ =>
      seated.mem_deleted_sessions (by rfl) (by rfl)
  | revoked roomId =>
    rw [deed] at effect
    obtain ⟨inviteAt, sessionAt, rfl⟩ := effect
    exact access.sessions_dropped roomId (by rw [deed]; rfl) (fun _ => by rw [deed]; rfl) fun _ =>
      seated.mem_deleted_sessions (by rfl) (by rfl)
  | joined admission => exact access.sessions_joined deed effect
  | closed roomId => exact access.sessions_closed deed effect

/-- One more call keeps the tables true to the history. -/
theorem step (access : Access crates past source) (seated : source.Seated)
    (step : (storeMachine crates).step? source event = some target) : Access crates (past ++ [event]) target := by
  obtain ⟨live, held⟩ := access.invites_step (Event.change step) (Event.effect step)
  obtain ⟨sessionLive, sessionHeld⟩ := access.sessions_step seated (Event.effect step)
  exact ⟨live, held, sessionLive, sessionHeld⟩

end Access

section Histories

variable {crates : Crates} {events : List Event} {db : Db}

/-- Every reachable state keeps guests, hosts and sessions in their rooms. -/
theorem seated_of_run (run : (storeMachine crates).Run events db) : db.Seated :=
  run.invariant (fun _ initial => initial ▸ .empty) fun _ _ _ seated step => seated.change (Event.change step)

/-- Every reachable state holds the live invites and sessions of its history. -/
theorem access_of_run (run : (storeMachine crates).Run events db) : Access crates events db :=
  run.history (Access crates) (fun _ initial => initial ▸ .empty) fun _ _ _ _ before access step =>
    access.step (seated_of_run before) step

/-- Every secret of a history is a uuid. -/
theorem secrets_of_run (run : (storeMachine crates).Run events db) :
    ∀ secret ∈ secretsOf events, ∃ uuid, secret = opaqueSecret uuid := by
  refine run.history (fun past _ => ∀ secret ∈ secretsOf past, ∃ uuid, secret = opaqueSecret uuid)
    (fun _ _ => by simp [secretsOf]) fun past _ event _ _ drawn step => ?_
  intro secret member
  rw [secretsOf, List.flatMap_append, List.mem_append, List.flatMap_singleton] at member
  exact member.elim (drawn secret) fun last => Event.secrets_step step last

end Histories

/-- The hash of the samples tells apart the secrets that it was checked on. -/
theorem Sample.collisionFree {uuid : Uuid} {given secrets : List String} (same : given = secrets)
    (apart : (secrets.map crates.sha256).Nodup) (inside : opaqueSecret uuid ∈ secrets) :
    Set.InjOn crates.sha256 {value | value = trim (opaqueSecret uuid) ∨ value ∈ given} := by
  have trimmed : trim (opaqueSecret uuid) = opaqueSecret uuid := Uuid.trim_simple _
  intro left leftMem right rightMem
  refine List.inj_on_of_nodup_map apart ?_ ?_
  · exact leftMem.elim (fun first => by rwa [first, trimmed]) fun member => same ▸ member
  · exact rightMem.elim (fun first => by rwa [first, trimmed]) fun member => same ▸ member

end RyuRooms
