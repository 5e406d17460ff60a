import RyuRooms.Runtime.Sample
import RyuRooms.Runtime.Sound
import RyuRooms.Store.Access

/-! # Turns of revoked guests

A guest's turn is authorized in one section of the store and appended in a later one, which looks at the
session's role only. `RevokesIdle` says that requests come through their handlers, and that a step which
revokes the guests of a room finds no turn of such a guest between the two sections. In runs of such steps
a guest who was let in before a revocation appends nothing after it.
-/

namespace RyuRooms

open Foundation

namespace Db

/-- A participant of a room in a role. -/
def HasSeat (db : Db) (id roomId : String) (role : ParticipantRole) : Prop :=
  ∃ participant ∈ db.participants, participant.id = id ∧ participant.roomId = roomId ∧ participant.role = role

end Db

namespace Runtime

/-- The room whose guests a step revokes. -/
def revokedRoom (store : RoomStore) (state : Runtime) : Label → Option String
  | .access (.issueInvite roomId) draws fails =>
    if (state.read fails (store.issueInvite draws.env roomId)).isOk then (validateRoomId roomId).toOption
    else none
  | .access (.revokeInvite roomId) draws fails =>
    if (state.read fails (RoomStore.revokeInvite draws.env roomId)).isOk then (validateRoomId roomId).toOption
    else none
  | _ => none

/-- A request that comes through its handler. -/
def isHandled : Label → Bool
  | .begin (.submitTurn _ _) => false
  | _ => true

/-- A guest's turn for the room, authorized and about to be appended. -/
def appendsGuest (roomId : String) : Thread → Bool
  | .call (.guestTurn _ _) (.append session _) => session.roomId == roomId
  | .call _ _ | .task _ _ => false

/-- Requests come through their handlers, and no guest's turn is under way when its room is revoked. -/
def RevokesIdle (store : RoomStore) (state : Runtime) (label : Label) : Prop :=
  isHandled label ∧ ∀ roomId ∈ revokedRoom store state label, ∀ thread ∈ state.threads, ¬ appendsGuest roomId thread

instance (store : RoomStore) (state : Runtime) (label : Label) :
    Decidable (RevokesIdle store state label) :=
  inferInstanceAs (Decidable (_ ∧ _))

/-- How a step changes who is in which room. -/
inductive Seating (store : RoomStore) (state : Runtime) (label : Label) (next : Runtime) : Prop
  | kept (same : ∀ id room role, next.db.HasSeat id room role ↔ state.db.HasSeat id room role)
      (guests : next.guests = state.guests)
  | hosted {uuid : Uuid} {newRoom : String} (fresh : uuid ∉ state.drawn) (drawn : uuid ∈ next.drawn)
      (added : ∀ id room role, next.db.HasSeat id room role ↔ state.db.HasSeat id room role ∨
        (id = opaqueId "member_" uuid ∧ room = newRoom ∧ role = .host)) (guests : next.guests = state.guests)
  | joined {uuid : Uuid} {newRoom : String} (fresh : uuid ∉ state.drawn) (drawn : uuid ∈ next.drawn)
      (added : ∀ id room role, next.db.HasSeat id room role ↔ state.db.HasSeat id room role ∨
        (id = opaqueId "member_" uuid ∧ room = newRoom ∧ role = .guest))
      (guests : next.guests = opaqueId "member_" uuid :: state.guests)
  | cleared {roomId : String} (revokes : revokedRoom store state label = some roomId)
      (left : ∀ id room role, next.db.HasSeat id room role ↔
        state.db.HasSeat id room role ∧ ¬ (room = roomId ∧ role = .guest)) (guests : next.guests = state.guests)

section Step

variable {store : RoomStore} {draws : Draws} {fails : Bool} {state next : Runtime} {label : Label}

/-- A new participant takes the seat it was inserted for. -/
private theorem hasSeat_of_insert? (source target : Db) (row : ParticipantRow)
    (inserted : source.participants.insert? row = some target.participants) (id room : String)
    (role : ParticipantRole) : target.HasSeat id room role ↔ source.HasSeat id room role ∨
      (id = row.id ∧ room = row.roomId ∧ role = row.role) := by
  simp only [Db.HasSeat, Table.mem_of_insert? inserted]
  constructor
  · rintro ⟨participant, old | rfl, rfl, rfl, rfl⟩
    · exact Or.inl ⟨participant, old, rfl, rfl, rfl⟩
    · exact Or.inr ⟨rfl, rfl, rfl⟩
  · rintro (⟨participant, old, rest⟩ | ⟨rfl, rfl, rfl⟩)
    · exact ⟨participant, Or.inl old, rest⟩
    · exact ⟨row, Or.inr rfl, rfl, rfl, rfl⟩

/-- Deleting the guests of a room clears their seats. -/
private theorem hasSeat_deleteGuests {source middle : Db} {roomId : String}
    (participants : middle.participants = source.participants) (id room : String) (role : ParticipantRole) :
    (Db.deleteGuests roomId middle).1.HasSeat id room role ↔
      source.HasSeat id room role ∧ ¬ (room = roomId ∧ role = .guest) := by
  simp only [Db.HasSeat, Db.mem_deleteGuests_participants, participants]
  constructor
  · rintro ⟨participant, ⟨member, stays⟩, rfl, rfl, rfl⟩
    exact ⟨⟨participant, member, rfl, rfl, rfl⟩, stays⟩
  · rintro ⟨⟨participant, member, rfl, rfl, rfl⟩, stays⟩
    exact ⟨participant, ⟨member, stays⟩, rfl, rfl, rfl⟩

private theorem hasSeat_closed {source : Db} {roomId : String} {closedAt inviteAt sessionAt : Instant}
    (id room : String) (role : ParticipantRole) :
    (source.closed roomId closedAt inviteAt sessionAt).HasSeat id room role ↔ source.HasSeat id room role := by
  constructor
  · rintro ⟨_, member, rfl, rfl, rfl⟩
    obtain ⟨old, held, rfl⟩ := Db.mem_closed_participants.mp member
    refine ⟨old, held, ?_⟩
    split <;> exact ⟨rfl, rfl, rfl⟩
  · rintro ⟨participant, member, rfl, rfl, rfl⟩
    refine ⟨_, Db.mem_closed_participants.mpr ⟨participant, member, rfl⟩, ?_⟩
    split <;> exact ⟨rfl, rfl, rfl⟩

/-- Who is in which room changes with the requests for access only. -/
theorem Step.seating (step : Step store state label next) : Seating store state label next := by
  have same (participants : next.db.participants = state.db.participants) (guests : next.guests = state.guests) :
      Seating store state label next :=
    .kept (fun id room role => by rw [Db.HasSeat, participants, Db.HasSeat]) guests
  have ran {middle : Db} (change : RunChange state.db middle) (tables : next.db = middle)
      (guests : next.guests = state.guests) : Seating store state label next :=
    same (tables ▸ change.sameAccess.2.1) guests
  cases step with
  | begun => exact same rfl rfl
  | dropped => exact same rfl rfl
  | called held step =>
    cases step with
    | appended fresh success => exact ran (change_of_ok (.of_appendTurn _ _) success) rfl rfl
    | started => exact same (by rw [put_db, startRun_logs.db]) (by rw [put_guests, startRun_logs.guests])
    | signalled => exact same (by rw [put_db, signal_logs.db]) (by rw [put_guests, signal_logs.guests])
    | stopped success =>
      obtain ⟨_, _, -, -, rfl⟩ := RoomStore.stopRun_ok success
      exact same rfl rfl
    | removedStopped =>
      exact same (by rw [put_db, removeActive_logs.db]) (by rw [put_guests, removeActive_logs.guests])
    | closed success =>
      obtain ⟨_, -, -, rfl⟩ := RoomStore.closeRoom_ok success
      exact .kept hasSeat_closed rfl
    | _ => exact same rfl rfl
  | ran held step =>
    cases step with
    | extended success =>
      obtain ⟨-, _, rfl⟩ := RoomStore.appendDelta_ok success
      exact same rfl rfl
    | completed fresh accepts success => exact ran (change_of_ok (.of_settleRun _ _ rfl) success) rfl rfl
    | failed accepts success => exact ran (change_of_ok (.of_settleRun _ _ rfl) success) rfl rfl
    | removed => exact same (by rw [put_db, removeActive_logs.db]) (by rw [put_guests, removeActive_logs.guests])
    | _ => exact same rfl rfl
  | heard held step => cases step <;> exact same rfl rfl
  | @accessed op draws fails _ fresh step =>
    have drawn : draws.uuid 1 ∈ (state.draw draws).drawn := by simp [draw, Draws.uuids]
    cases step with
    | refused => exact same rfl rfl
    | created success =>
      obtain ⟨_, _, _, _, first, second, third, -, -⟩ := RoomStore.createRoom_ok success
      obtain ⟨_, -, rfl⟩ := Db.insertRoom_eq_some_iff.mp first
      obtain ⟨-, _, -, rfl⟩ := Db.insertInvite_eq_some_iff.mp second
      obtain ⟨-, _, inserted, rfl⟩ := Db.insertParticipant_eq_some_iff.mp third
      exact .hosted (fresh 1) drawn (hasSeat_of_insert? state.db _ (newParticipant _ _ _ _ _) inserted) rfl
    | joined success =>
      obtain ⟨_, _, _, _, -, -, -, -, first, second, rfl⟩ := RoomStore.exchangeInvite_ok_iff.mp success
      obtain ⟨-, _, inserted, rfl⟩ := Db.insertParticipant_eq_some_iff.mp first
      obtain ⟨-, _, -, rfl⟩ := Db.insertSession_eq_some_iff.mp second
      exact .joined (fresh 1) drawn (hasSeat_of_insert? state.db _ (newParticipant _ _ _ _ _) inserted) rfl
    | issued granted success =>
      obtain ⟨id, valid, -, -, -, rfl⟩ := RoomStore.issueInvite_ok success
      refine .cleared ?_ (hasSeat_deleteGuests rfl) rfl
      simp [revokedRoom, read, granted, outcome, show store.issueInvite draws.env _ state.db = _ from success,
        Except.isOk, Except.toBool, valid, Except.toOption]
    | revoked granted success =>
      obtain ⟨id, valid, -, rfl⟩ := RoomStore.revokeInvite_ok success
      refine .cleared ?_ (hasSeat_deleteGuests rfl) rfl
      simp [revokedRoom, read, granted, outcome, show RoomStore.revokeInvite draws.env _ state.db = _ from success,
        Except.isOk, Except.toBool, valid, Except.toOption]

/-- A message after a step was there before it, is the model's, or is the turn of an authorized session. -/
theorem Step.messages_cases (step : Step store state label next) {message : MessageRow}
    (member : message ∈ next.db.messages) :
    message ∈ state.db.messages ∨ message.participantId = none ∨
      ∃ (index : ℕ) (request : Request) (session : RoomSession) (input : SubmitTurnInput),
        state.threads[index]? = some (.call request (.append session input)) ∧
          message.roomId = session.roomId ∧ message.participantId = some session.participantId := by
  have settles {generation : Generation} {terminal : RunTerminal} {draws : Draws} {target : Db}
      (success : store.settleRun draws.env generation.roomId generation.runId terminal state.db = .ok () target)
      (held : message ∈ target.messages) : message ∈ state.db.messages ∨ message.participantId = none := by
    obtain ⟨_, -, _, -, -, ⟨-, rfl⟩ | ⟨-, answered, _, answer, rfl⟩⟩ := RoomStore.settleRun_ok success
    · exact Or.inl held
    · have held : message ∈ answered.messages := (Table.mem_delete.mp held).1
      rcases answer with rfl | ⟨-, _, inserted⟩
      · exact Or.inl held
      · obtain ⟨-, _, added, rfl⟩ := Db.insertMessage_eq_some_iff.mp inserted
        rcases (Table.mem_of_insert? added).mp held with old | rfl
        · exact Or.inl old
        · exact Or.inr rfl
  cases step with
  | begun => exact Or.inl member
  | dropped => exact Or.inl member
  | called held step =>
    cases step with
    | @appended session input turn db fresh success =>
      obtain ⟨-, ⟨-, -, rfl, -⟩ | ⟨_, _, inserted⟩⟩ := RoomStore.appendTurn_ok success
      · exact Or.inl member
      · obtain ⟨_, _, _, _, _, -, -, first, second, rfl⟩ := RoomStore.insertTurn_ok inserted
        obtain ⟨-, _, added, rfl⟩ := Db.insertMessage_eq_some_iff.mp first
        obtain ⟨-, _, -, rfl⟩ := Db.insertRun_eq_some_iff.mp second
        rcases (Table.mem_of_insert? added).mp member with old | rfl
        · exact Or.inl old
        · exact Or.inr (Or.inr ⟨_, _, session, input, held, rfl, rfl⟩)
    | started => exact Or.inl (by rwa [put_db, startRun_logs.db] at member)
    | signalled => exact Or.inl (by rwa [put_db, signal_logs.db] at member)
    | stopped success =>
      obtain ⟨_, _, -, -, rfl⟩ := RoomStore.stopRun_ok success
      exact Or.inl member
    | removedStopped => exact Or.inl (by rwa [put_db, removeActive_logs.db] at member)
    | closed success =>
      obtain ⟨_, -, -, rfl⟩ := RoomStore.closeRoom_ok success
      exact Or.inl member
    | _ => exact Or.inl member
  | ran held step =>
    cases step with
    | extended success =>
      obtain ⟨-, _, rfl⟩ := RoomStore.appendDelta_ok success
      exact Or.inl member
    | completed fresh accepts success => exact (settles success member).imp_right Or.inl
    | failed accepts success => exact (settles success member).imp_right Or.inl
    | removed => exact Or.inl (by rwa [put_db, removeActive_logs.db] at member)
    | _ => exact Or.inl member
  | heard held step => cases step <;> exact Or.inl member
  | accessed fresh step => exact Or.inl (step.sameTurns.messages ▸ member)

/-- A turn about to be appended is that of a participant of its room, as its handler found it. -/
def TurnSound (db : Db) : Thread → Prop
  | .call (.guestTurn _ _) (.append session _) => db.HasSeat session.participantId session.roomId .guest
  | .call (.hostTurn _ _) (.append session _) => db.HasSeat session.participantId session.roomId .host
  | .call (.guestTurn _ _) (.authorizeGuest _ _) | .call (.hostTurn _ _) (.authorizeHost _ _) => True
  | .call _ (.append _ _) | .call _ (.authorizeGuest _ _) | .call _ (.authorizeHost _ _) => False
  | .call _ _ | .task _ _ => True

/-- Guests are known by ids that were drawn for them, and turns are appended for participants only. -/
structure Attributed (state : Runtime) : Prop where
  seated : state.db.Seated
  members : ∀ id room role, state.db.HasSeat id room role → ∃ uuid ∈ state.drawn, id = opaqueId "member_" uuid
  guests : ∀ id ∈ state.guests, (∃ uuid ∈ state.drawn, id = opaqueId "member_" uuid) ∧
    ∀ room role, state.db.HasSeat id room role → role = .guest
  turns : ∀ (k : ℕ) (thread : Thread), state.threads[k]? = some thread → TurnSound state.db thread

namespace Seating

/-- A seat stays unless its room's guests are revoked. -/
theorem stays (seating : Seating store state label next) {id room : String} {role : ParticipantRole}
    (seat : state.db.HasSeat id room role)
    (spared : role = .guest → revokedRoom store state label ≠ some room) : next.db.HasSeat id room role := by
  cases seating with
  | kept same => exact (same id room role).mpr seat
  | hosted fresh drawn added => exact (added id room role).mpr (Or.inl seat)
  | joined fresh drawn added => exact (added id room role).mpr (Or.inl seat)
  | cleared revokes left =>
    refine (left id room role).mpr ⟨seat, ?_⟩
    rintro ⟨rfl, guest⟩
    exact spared guest revokes

/-- A seat was there before, or was just taken by a participant with a new id. -/
theorem of_seat (seating : Seating store state label next) {id room : String} {role : ParticipantRole}
    (seat : next.db.HasSeat id room role) : state.db.HasSeat id room role ∨
      ∃ uuid ∈ next.drawn, uuid ∉ state.drawn ∧ id = opaqueId "member_" uuid ∧ (id ∈ next.guests → role = .guest ∨
        id ∈ state.guests) := by
  cases seating with
  | kept same => exact Or.inl ((same id room role).mp seat)
  | hosted fresh drawn added guests =>
    refine ((added id room role).mp seat).imp_right ?_
    rintro ⟨rfl, -, -⟩
    exact ⟨_, drawn, fresh, rfl, fun guest => Or.inr (guests ▸ guest)⟩
  | joined fresh drawn added =>
    refine ((added id room role).mp seat).imp_right ?_
    rintro ⟨rfl, -, guest⟩
    exact ⟨_, drawn, fresh, rfl, fun _ => Or.inl guest⟩
  | cleared revokes left => exact Or.inl ((left id room role).mp seat).1

theorem of_guest (seating : Seating store state label next) {id : String} (guest : id ∈ next.guests) :
    id ∈ state.guests ∨ ∃ uuid ∈ next.drawn, uuid ∉ state.drawn ∧ id = opaqueId "member_" uuid := by
  cases seating with
  | kept same guests => exact Or.inl (guests ▸ guest)
  | hosted fresh drawn added guests => exact Or.inl (guests ▸ guest)
  | joined fresh drawn added guests =>
    rw [guests, List.mem_cons] at guest
    exact guest.symm.imp_right fun same => ⟨_, drawn, fresh, same⟩
  | cleared revokes left guests => exact Or.inl (guests ▸ guest)

theorem guest_kept (seating : Seating store state label next) {id : String} (guest : id ∈ state.guests) :
    id ∈ next.guests := by
  cases seating with
  | kept same guests => exact guests ▸ guest
  | hosted fresh drawn added guests => exact guests ▸ guest
  | joined fresh drawn added guests => exact guests ▸ List.mem_cons_of_mem _ guest
  | cleared revokes left guests => exact guests ▸ guest

end Seating

/-- The points of a turn up to its append. -/
def isEntry : CallPoint → Bool
  | .authorizeHost _ _ | .authorizeGuest _ _ | .append _ _ => true
  | _ => false

theorem turnSound_of_past {db : Db} {request : Request} {point : CallPoint} (past : isEntry point = false) :
    TurnSound db (.call request point) := by
  cases point with
  | authorizeHost | authorizeGuest | append => cases past
  | _ => cases request <;> trivial

/-- A handler's step authorizes a participant, or takes the turn on. -/
theorem TurnSound.called (seated : state.db.Seated) {request : Request} {point reached : CallPoint}
    {middle : Runtime} {db : Db} (sound : TurnSound state.db (.call request point))
    (called : CallStep store draws fails state point reached middle) (same : isEntry reached → db = state.db) :
    TurnSound db (.call request reached) := by
  cases called with
  | authorizedHost found =>
    obtain ⟨_, found⟩ := found
    obtain ⟨-, host, member, named, role, room, -⟩ := RoomStore.hostSession_ok found
    cases request with
    | hostTurn => exact same rfl ▸ ⟨host, member, named, room, role⟩
    | _ => exact sound.elim
  | authorizedGuest resolved =>
    obtain ⟨_, resolved⟩ := resolved
    obtain ⟨-, session, participant, _, -, found, -, -, rfl⟩ := RoomStore.resolveSession_some_iff.mp resolved
    obtain ⟨⟨sessionMem, -⟩, -, -⟩ := RoomStore.findSession_eq_some_iff.mp found
    cases request with
    | guestTurn => exact same rfl ▸ seated.guest session sessionMem
    | _ => exact sound.elim
  | refused refuses =>
    refine turnSound_of_past ?_
    cases point with
    | stop closing room run => cases closing <;> rfl
    | readStopped closing room run => cases closing <;> rfl
    | _ => rfl
  | publishedAccepted =>
    refine turnSound_of_past ?_
    split <;> rfl
  | @publishedCanceled closing => exact turnSound_of_past (by cases closing <;> rfl)
  | readClosing =>
    refine turnSound_of_past ?_
    rw [closingPoint]
    split <;> rfl
  | _ => exact turnSound_of_past rfl

/-- A step revokes the guests of no room in which a guest's turn is under way. -/
theorem RevokesIdle.spares (idle : RevokesIdle store state label) {k : ℕ} {secret : String}
    {input turn : SubmitTurnInput} {session : RoomSession}
    (held : state.threads[k]? = some (.call (.guestTurn secret input) (.append session turn))) :
    revokedRoom store state label ≠ some session.roomId := by
  intro revokes
  exact idle.2 _ revokes _ (List.mem_of_getElem? held) (by simp [appendsGuest])

theorem Attributed.turns_step (inv : Attributed state) (step : Step store state label next)
    (idle : RevokesIdle store state label) :
    ∀ (k : ℕ) (thread : Thread), next.threads[k]? = some thread → TurnSound next.db thread := by
  have seating := step.seating
  refine step.each (fun k thread => state.threads[k]? = some thread ∧ TurnSound state.db thread)
    (fun _ => TurnSound next.db) (fun k thread held => ⟨held, inv.turns k thread held⟩) ?_ ?_ ?_ ?_ ?_ ?_ ?_
  · rintro k old found - keeps ⟨held, sound⟩
    cases keeps with
    | flagged => trivial
    | same =>
      cases old with
      | task generation point => trivial
      | call request point =>
        cases point with
        | append session turn =>
          cases request with
          | hostTurn roomId input => exact seating.stays sound nofun
          | guestTurn secret input => exact seating.stays sound fun _ => idle.spares held
          | _ => exact sound.elim
        | authorizeHost roomId turn =>
          cases request with
          | hostTurn => trivial
          | _ => exact sound.elim
        | authorizeGuest secret turn =>
          cases request with
          | guestTurn => trivial
          | _ => exact sound.elim
        | _ => exact turnSound_of_past rfl
  · rintro k request rfl
    cases request with
    | submitTurn session input => cases idle.1
    | hostTurn roomId input => trivial
    | guestTurn secret input => trivial
    | stopRun roomId runId => trivial
    | closeRoom roomId => trivial
  · exact fun k request => turnSound_of_past rfl
  · rintro index draws fails request point reached middle rfl held called rfl ⟨-, sound⟩
    refine TurnSound.called inv.seated sound called fun entry => ?_
    cases called with
    | authorizedHost => rfl
    | authorizedGuest => rfl
    | refused => rfl
    | publishedAccepted => rfl
    | readClosing => rfl
    | publishedCanceled => rfl
    | _ => cases entry
  · intro index draws fails request accepted advanced held free after sound
    trivial
  · intro index draws fails generation point reached middle advanced held ran after sound
    trivial
  · intro index received generation point changed reached middle advanced held heard after sound
    trivial

/-- Every step keeps guests and turns attributed, if it revokes no room with a guest's turn under way. -/
theorem Attributed.step (inv : Attributed state) (step : Step store state label next)
    (idle : RevokesIdle store state label) : Attributed next where
  seated := inv.seated.change step.change
  members id room role seat := by
    rcases step.seating.of_seat seat with old | ⟨uuid, drawn, -, named, -⟩
    · obtain ⟨uuid, drawn, named⟩ := inv.members id room role old
      exact ⟨uuid, step.drawn drawn, named⟩
    · exact ⟨uuid, drawn, named⟩
  guests id guest := by
    have unseated {uuid : Uuid} (fresh : uuid ∉ state.drawn) (named : id = opaqueId "member_" uuid) {room : String}
        {role : ParticipantRole} : ¬ state.db.HasSeat id room role := by
      intro seat
      obtain ⟨other, drawn, same⟩ := inv.members id room role seat
      rw [named, opaqueId_inj] at same
      exact fresh (same ▸ drawn)
    rcases step.seating.of_guest guest with old | ⟨uuid, drawn, fresh, named⟩
    · obtain ⟨⟨uuid, drawn, named⟩, roles⟩ := inv.guests id old
      refine ⟨⟨uuid, step.drawn drawn, named⟩, fun room role seat => ?_⟩
      rcases step.seating.of_seat seat with before | ⟨other, -, fresh, same, -⟩
      · exact roles room role before
      · rw [named, opaqueId_inj] at same
        exact absurd (same ▸ drawn) fresh
    · refine ⟨⟨uuid, drawn, named⟩, fun room role seat => ?_⟩
      rcases step.seating.of_seat seat with before | ⟨_, -, -, -, isGuest⟩
      · exact absurd before (unseated fresh named)
      · rcases isGuest guest with role | old
        · exact role
        · obtain ⟨⟨other, known, same⟩, -⟩ := inv.guests id old
          rw [named, opaqueId_inj] at same
          exact absurd (same ▸ known) fresh
  turns := inv.turns_step step idle

theorem Initial.attributed (initial : Initial state) : Attributed state where
  seated := by
    obtain ⟨_, _, run⟩ := initial.reached
    exact seated_of_run run
  members := by
    rintro id room role ⟨participant, member, rfl, -, -⟩
    exact initial.memberIds participant member
  guests := by
    intro id guest
    obtain ⟨participant, member, role, rfl⟩ := (initial.guests id).mp guest
    refine ⟨initial.memberIds participant member, ?_⟩
    rintro room other ⟨same, sameMem, named, -, rfl⟩
    rw [Table.eq_of_key sameMem member named, role]
  turns := by simp [initial.threads]

/-- What holds after the guests of a room were revoked: none of `old` is back, and what was added since is
nobody's of them. -/
structure Severed (old : List String) (roomId : String) (messages : MessageRow → Prop) (state : Runtime) : Prop where
  attributed : Attributed state
  known : ∀ id ∈ old, id ∈ state.guests
  gone : ∀ id ∈ old, ¬ state.db.HasSeat id roomId .guest
  added : ∀ message ∈ state.db.messages, message.roomId = roomId →
    messages message ∨ ∀ id ∈ message.participantId, id ∉ old

/-- No step brings a revoked guest back. -/
theorem Severed.step {old : List String} {roomId : String} {messages : MessageRow → Prop}
    (inv : Severed old roomId messages state) (step : Step store state label next)
    (idle : RevokesIdle store state label) : Severed old roomId messages next where
  attributed := inv.attributed.step step idle
  known id former := step.seating.guest_kept (inv.known id former)
  gone id former seat := by
    rcases step.seating.of_seat seat with before | ⟨uuid, -, fresh, named, -⟩
    · exact inv.gone id former before
    · obtain ⟨⟨other, drawn, same⟩, -⟩ := inv.attributed.guests id (inv.known id former)
      rw [named, opaqueId_inj] at same
      exact fresh (same ▸ drawn)
  added message member inRoom := by
    rcases step.messages_cases member with before | modelled | ⟨k, request, session, input, held, room, author⟩
    · exact inv.added message before inRoom
    · exact Or.inr (by simp [modelled])
    · refine Or.inr fun id author' former => ?_
      obtain rfl : session.participantId = id := Option.some.inj (author.symm.trans author')
      have sound := inv.attributed.turns k _ held
      cases request with
      | guestTurn => exact inv.gone _ former (inRoom ▸ room ▸ sound)
      | hostTurn =>
        have guest := (inv.attributed.guests _ (inv.known _ former)).2 _ _ sound
        cases guest
      | _ => exact sound.elim

/-- A section that is read as a success is written as one. -/
private theorem write_of_read {α : Type} {action : StoreM α} (success : (state.read fails action).isOk) :
    ∃ value db, action state.db = .ok value db ∧ (state.write fails action).2 = { state with db } := by
  cases wrote : state.write fails action with
  | mk result after =>
    rw [← write_fst, wrote] at success
    cases result with
    | error error => cases success
    | ok value =>
      obtain ⟨db, acted, rfl⟩ := write_ok wrote
      exact ⟨value, db, acted, rfl⟩

/-- A step that revokes the guests of a room leaves it none. -/
theorem clears_of_revokedRoom {roomId : String} (stepped : step? store state label = some next)
    (revokes : revokedRoom store state label = some roomId) (id : String) :
    ¬ next.db.HasSeat id roomId .guest := by
  cases label with
  | access op draws fails =>
    simp only [step?] at stepped
    split at stepped
    · obtain rfl := Option.some.inj stepped
      have named {raw valid : String} (same : validateRoomId raw = .ok valid)
          (revoked : (validateRoomId raw).toOption = some roomId) : valid = roomId := by
        rw [same] at revoked
        exact Option.some.inj revoked
      cases op with
      | issueInvite raw =>
        simp only [revokedRoom] at revokes
        split at revokes
        · next success =>
          obtain ⟨issued, db, acted, after⟩ := @write_of_read _ (state.draw draws) _ _ success
          obtain ⟨valid, same, -, -, -, rfl⟩ := RoomStore.issueInvite_ok acted
          obtain rfl := named same revokes
          simp only [accessStep, after]
          exact fun seat => ((hasSeat_deleteGuests rfl id valid .guest).mp seat).2 ⟨rfl, rfl⟩
        · cases revokes
      | revokeInvite raw =>
        simp only [revokedRoom] at revokes
        split at revokes
        · next success =>
          obtain ⟨_, db, acted, after⟩ := @write_of_read _ (state.draw draws) _ _ success
          obtain ⟨valid, same, -, rfl⟩ := RoomStore.revokeInvite_ok acted
          obtain rfl := named same revokes
          simp only [accessStep, after]
          exact fun seat => ((hasSeat_deleteGuests rfl id valid .guest).mp seat).2 ⟨rfl, rfl⟩
        · cases revokes
      | createRoom => cases revokes
      | exchangeInvite => cases revokes
    · cases stepped
  | _ => cases revokes

/-- Revoking the guests of a room severs all who were let in so far. -/
theorem Attributed.severed (inv : Attributed state) (stepped : step? store state label = some next)
    (idle : RevokesIdle store state label) {roomId : String}
    (revokes : revokedRoom store state label = some roomId) :
    Severed state.guests roomId (· ∈ state.db.messages) next where
  attributed := inv.step (.of_step? stepped) idle
  known id guest := (Step.of_step? stepped).seating.guest_kept guest
  gone id guest := clears_of_revokedRoom stepped revokes id
  added message member _ := by
    cases Step.of_step? stepped with
    | accessed fresh access => exact Or.inl (access.sameTurns.messages ▸ member)
    | _ => cases revokes

end Step

end Runtime

section Runs

/-- A guest joins the room, on the session `Uuid` 4 with the participant id of `Uuid` 5. -/
def Sample.joining : List Label :=
  [Sample.opening, .access (.exchangeInvite (opaqueSecret (.ofNat 3)) "guest") (Sample.draws 4 20) false]

def Sample.revoking : Label := .access (.revokeInvite Sample.roomId) (Sample.draws 30 30) false

/-- The host revokes the invite between the authorization of a guest's turn and its append: the turn of the
revoked guest is appended. -/
theorem revoked_guest_turn_appended : ∃ before after state : Runtime,
    (runtimeMachine Sample.store).Run (Sample.joining ++
      [.begin (.guestTurn (opaqueSecret (.ofNat 4)) ⟨"hello", none⟩), Sample.go 2 0]) before ∧
    Runtime.revokedRoom Sample.store before Sample.revoking = some Sample.roomId ∧
    (runtimeMachine Sample.store).step? before Sample.revoking = some after ∧
    (runtimeMachine Sample.store).Path after [Sample.go 4 0] state ∧
    ∃ message ∈ state.db.messages.rows, message.roomId = Sample.roomId ∧ message ∉ before.db.messages.rows ∧
      ∃ id ∈ message.participantId, id ∈ before.guests := by
  have checked : ∃ before, (runtimeMachine Sample.store).Run (Sample.joining ++
      [.begin (.guestTurn (opaqueSecret (.ofNat 4)) ⟨"hello", none⟩), Sample.go 2 0]) before ∧
      Runtime.revokedRoom Sample.store before Sample.revoking = some Sample.roomId ∧
      ∃ after ∈ (runtimeMachine Sample.store).step? before Sample.revoking,
        ∃ state ∈ (runtimeMachine Sample.store).run? after [Sample.go 4 0],
          ∃ message ∈ state.db.messages.rows, message.roomId = Sample.roomId ∧
            message ∉ before.db.messages.rows ∧ ∃ id ∈ message.participantId, id ∈ before.guests :=
    Machine.Run.of_check Sample.runtime_initial (by decide +kernel)
  obtain ⟨before, run, revokes, after, step, state, path, appended⟩ := checked
  exact ⟨before, after, state, run, revokes, step, path, appended⟩

/-- In a run whose requests come through their handlers and whose revocations find no turn of a guest of
the room under way, no guest who was let in before a revocation appends to the room after it. -/
theorem severed_of_revokesIdle {store : RoomStore} {first later : List Label} {label : Label}
    {before after state : Runtime} {roomId : String}
    (run : ((runtimeMachine store).guard (Runtime.RevokesIdle store)).Run first before)
    (revokes : Runtime.revokedRoom store before label = some roomId)
    (step : ((runtimeMachine store).guard (Runtime.RevokesIdle store)).step? before label = some after)
    (path : ((runtimeMachine store).guard (Runtime.RevokesIdle store)).Path after later state) :
    ∀ message ∈ state.db.messages, message.roomId = roomId → message ∉ before.db.messages →
      ∀ id ∈ message.participantId, id ∉ before.guests := by
  have inv : before.Attributed := run.invariant (fun _ => Runtime.Initial.attributed) fun state label next inv step =>
    let ⟨idle, stepped⟩ := Machine.guard_step_iff.mp step
    inv.step (.of_step? stepped) idle
  obtain ⟨idle, stepped⟩ := Machine.guard_step_iff.mp step
  have severed : state.Severed before.guests roomId (· ∈ before.db.messages) :=
    path.invariant (Runtime.Severed before.guests roomId (· ∈ before.db.messages))
      (inv.severed stepped idle revokes) fun state label next inv step =>
        let ⟨idle, stepped⟩ := Machine.guard_step_iff.mp step
        inv.step (.of_step? stepped) idle
  intro message member inRoom new
  exact (severed.added message member inRoom).resolve_left new

/-- A guest's turn is answered, the invite is revoked, and the guest is turned away. -/
theorem severed_of_revokesIdle_answered : ∃ before state : Runtime, before.guests.length = 1 ∧
    state.threads.length = 2 ∧ ∀ message ∈ state.db.messages, message.roomId = Sample.roomId →
      message ∉ before.db.messages → ∀ id ∈ message.participantId, id ∉ before.guests := by
  have checked : ∃ before, ((runtimeMachine Sample.store).guard (Runtime.RevokesIdle Sample.store)).Run
      (Sample.joining ++ [.begin (.guestTurn (opaqueSecret (.ofNat 4)) ⟨"hello", none⟩), Sample.go 2 0,
        Sample.go 4 0]) before ∧ before.guests.length = 1 ∧
      Runtime.revokedRoom Sample.store before Sample.revoking = some Sample.roomId ∧
      ∃ after ∈ ((runtimeMachine Sample.store).guard (Runtime.RevokesIdle Sample.store)).step? before
          Sample.revoking,
        ∃ state ∈ ((runtimeMachine Sample.store).guard (Runtime.RevokesIdle Sample.store)).run? after
          [.begin (.guestTurn (opaqueSecret (.ofNat 4)) ⟨"again", none⟩), Sample.go 5 1],
          state.threads.length = 2 :=
    Machine.Run.of_check Sample.runtime_initial (by decide +kernel)
  obtain ⟨before, run, joined, revokes, after, step, state, path, threads⟩ := checked
  exact ⟨before, state, joined, threads, severed_of_revokesIdle run revokes step path⟩

end Runs

end RyuRooms
