import RyuRooms.Store.Capacity

/-! # Which session secrets resolve

`resolve_session` accepts a secret exactly while the session that an exchange returned with it is live:
the tables answer a question about the whole history. Nothing here depends on the order of the clock
readings. Once a session has ended, fresh secrets keep every later exchange from bringing it back. A session
whose expiry would be in the year 10000 is never live: RFC 3339 has no text for it that could be read.
-/

namespace RyuRooms

open Foundation

/-- The admission is live, and its session has not expired and has an expiry that can be read. -/
structure Admission.ValidAt (past : List Event) (now : Instant) (admission : Admission) : Prop where
  live : LiveSession past admission
  unexpired : now < admission.joinedAt + seconds Limits.SESSION_TTL_SECS
  dated : admission.joinedAt + seconds Limits.SESSION_TTL_SECS < Rfc3339.YEAR_10000

/-- The display names of the participants open. -/
def NamesOpen (sealing : StoreSeal) (db : Db) : Prop :=
  ∀ participant ∈ db.participants, ∃ name,
    sealing.openText participant.displayName (ctx "room_participants" "display_name" participant.id) = .ok name

theorem namesOpen_of_all {sealing : StoreSeal} {db : Db}
    (checked : db.participants.rows.all fun participant => (sealing.openText participant.displayName
      (ctx "room_participants" "display_name" participant.id)).isOk) : NamesOpen sealing db := by
  exact fun participant member => isOk_iff.mp (List.all_eq_true.mp checked participant member)

section Resolve

variable {crates : Crates} {past : List Event} {db target : Db} {sealing : StoreSeal} {draws : Draws}
  {raw : String}

/-- A secret that resolves is the secret of a valid admission, and resolves to its room and participant. -/
theorem valid_of_resolves (run : (storeMachine crates).Run past db)
    (collisionFree : Set.InjOn crates.sha256 {value | value = trim raw ∨ value ∈ secretsOf past})
    {resolved : RoomSession}
    (resolves : (RoomStore.mk crates sealing).resolveSession draws.env raw db = .ok (some resolved) target) :
    ∃ admission : Admission, admission.ValidAt past (draws.now 0) ∧ admission.session.secret = trim raw ∧
      resolved.roomId = admission.session.roomId ∧
      resolved.participantId = admission.session.participantId ∧ resolved.role = .guest := by
  obtain ⟨rfl, session, participant, name, -, found, live, -, rfl⟩ :=
    RoomStore.resolveSession_some_iff.mp resolves
  obtain ⟨⟨member, same⟩, -⟩ := RoomStore.findSession_eq_some_iff.mp found
  rw [Db.isLiveAt_iff] at live
  obtain ⟨admission, joined, rfl⟩ := (access_of_run run).session_live session member live.1
  obtain ⟨event, held, granted⟩ := joined.joined
  refine ⟨admission, ⟨joined, live.2.1, live.2.2⟩, ?_, rfl, rfl, rfl⟩
  exact collisionFree (Or.inr (mem_secretsOf_of_joins held granted)) (Or.inl rfl) same

/-- The secret of a valid admission resolves. -/
theorem resolves_of_valid (run : (storeMachine crates).Run past db) (opens : NamesOpen sealing db)
    {admission : Admission} (valid : admission.ValidAt past (draws.now 0))
    (secret : admission.session.secret = trim raw) :
    ∃ resolved, (RoomStore.mk crates sealing).resolveSession draws.env raw db = .ok (some resolved) db := by
  have held := (access_of_run run).session_held admission valid.live
  obtain ⟨guest, there, named, -, -⟩ := (seated_of_run run).guest _ held
  obtain ⟨name, opened⟩ := opens guest there
  obtain ⟨event, member, granted⟩ := valid.live.joined
  obtain ⟨uuid, drawn⟩ := secrets_of_run run _ (mem_secretsOf_of_joins member granted)
  obtain ⟨nonempty, short, -⟩ := opaqueSecret_readable uuid
  rw [← drawn, secret] at nonempty short
  refine ⟨_, RoomStore.resolveSession_some_iff.mpr ⟨rfl, admission.row crates, guest, name,
    ⟨nonempty, short⟩, ?_, ?_, ?_, rfl⟩⟩
  · refine RoomStore.findSession_eq_some_iff.mpr ⟨⟨held, ?_⟩, there, named⟩
    rw [← secret]
    rfl
  · exact Db.isLiveAt_iff.mpr ⟨rfl, valid.unexpired, valid.dated⟩
  · rwa [← named]

/-- After any history a secret resolves exactly when it is the secret of a session that joined, has not
expired, and was not ended since; it resolves to that session's room and participant, as a guest; and a
secret that was given out and does not resolve does not resolve after any longer history either. -/
theorem resolves_iff_valid {more : List Event} {later : Db} (run : (storeMachine crates).Run past db)
    (path : (storeMachine crates).Path db more later)
    (collisionFree : Set.InjOn crates.sha256 {value | value = trim raw ∨ value ∈ secretsOf (past ++ more)})
    (fresh : (secretsOf (past ++ more)).Nodup) (opens : NamesOpen sealing db) :
    let store : RoomStore := ⟨crates, sealing⟩
    ((∃ resolved target, store.resolveSession draws.env raw db = .ok (some resolved) target) ↔
      ∃ admission : Admission, admission.ValidAt past (draws.now 0) ∧ admission.session.secret = trim raw) ∧
    (∀ resolved target, store.resolveSession draws.env raw db = .ok (some resolved) target →
      ∃ admission : Admission, admission.ValidAt past (draws.now 0) ∧ admission.session.secret = trim raw ∧
        resolved.roomId = admission.session.roomId ∧
        resolved.participantId = admission.session.participantId ∧ resolved.role = .guest) ∧
    ∀ (other : StoreSeal) (next : Draws), draws.now 0 ≤ next.now 0 →
      (∃ event ∈ past, ∃ admission, event.deed.joins = some admission ∧ admission.session.secret = trim raw) →
      (¬ ∃ resolved target, store.resolveSession draws.env raw db = .ok (some resolved) target) →
      ¬ ∃ resolved target,
        (RoomStore.mk crates other).resolveSession next.env raw later = .ok (some resolved) target := by
  have short : Set.InjOn crates.sha256 {value | value = trim raw ∨ value ∈ secretsOf past} := by
    refine collisionFree.mono fun value => Or.imp_right fun member => ?_
    rw [secretsOf, List.flatMap_append]
    exact List.mem_append_left _ member
  refine ⟨⟨?_, ?_⟩, fun _ _ => valid_of_resolves run short, ?_⟩
  · rintro ⟨resolved, target, resolves⟩
    obtain ⟨admission, valid, secret, -⟩ := valid_of_resolves run short resolves
    exact ⟨admission, valid, secret⟩
  · rintro ⟨admission, valid, secret⟩
    obtain ⟨resolved, resolves⟩ := resolves_of_valid run opens valid secret
    exact ⟨resolved, db, resolves⟩
  · rintro other next forward ⟨event, member, earlier, joined, given⟩ ended ⟨resolved, target, resolves⟩
    obtain ⟨admission, ⟨live, unexpired, dated⟩, secret, -⟩ := valid_of_resolves (run.append path) collisionFree resolves
    rw [LiveSession, List.map_append] at live
    rcases live.of_append with before | ⟨deed, deedMem, granted⟩
    · obtain ⟨resolved, resolves⟩ :=
        resolves_of_valid run opens ⟨before, forward.trans_lt unexpired, dated⟩ secret
      exact ended ⟨resolved, db, resolves⟩
    · obtain ⟨again, againMem, rfl⟩ := List.mem_map.mp deedMem
      rw [secretsOf, List.flatMap_append] at fresh
      refine (List.nodup_append.mp fresh).2.2 _ ?_ _ ?_ (given.trans secret.symm)
      · exact mem_secretsOf_of_joins member joined
      · exact mem_secretsOf_of_joins againMem granted

end Resolve

/-- A guest joins the sample room, and the host revokes the invite. -/
def Sample.joined : List Call :=
  [⟨.compat, draws 1 10, false, .createRoom ⟨"llama", origin⟩⟩,
    ⟨.compat, draws 4 20, false, .exchangeInvite (opaqueSecret (.ofNat 3)) "Ada"⟩]

def Sample.revoked : List Call :=
  [⟨.compat, draws 6 40, false, .revokeInvite (opaqueId "room_" (.ofNat 1))⟩]

theorem resolves_iff_valid_joined :
    let db := (history Sample.crates Sample.joined .empty).2
    let past := (history Sample.crates Sample.joined .empty).1
    let raw := opaqueSecret (.ofNat 4)
    ((Sample.store.resolveSession (Sample.draws 6 30).env raw db) matches .ok (some _) _) = true ∧
      ((∃ resolved target, Sample.store.resolveSession (Sample.draws 6 30).env raw db = .ok (some resolved) target) ↔
        ∃ admission : Admission, admission.ValidAt past 30 ∧ admission.session.secret = trim raw) := by
  intro db past raw
  have secrets : secretsOf (past ++ (history Sample.crates Sample.revoked db).1) =
      [opaqueSecret (.ofNat 3), opaqueSecret (.ofNat 4)] := by decide +kernel
  have collisionFree : Set.InjOn Sample.crates.sha256
      {value | value = trim raw ∨ value ∈ secretsOf (past ++ (history Sample.crates Sample.revoked db).1)} :=
    Sample.collisionFree secrets (by decide +kernel) (by decide +kernel)
  have opens : NamesOpen Sample.store.sealing db := namesOpen_of_all (by decide +kernel)
  exact ⟨by decide +kernel, (resolves_iff_valid (run_history Sample.crates Sample.joined)
    (path_history Sample.crates Sample.revoked db) collisionFree (by rw [secrets]; decide +kernel) opens).1⟩

/-- A session whose expiry cannot be read does not resolve, although it is live and has not expired. -/
theorem not_resolves_of_live_lateGuests : ¬ ∀ (crates : Crates) (past : List Event) (db : Db) (sealing : StoreSeal)
    (draws : Draws) (raw : String) (admission : Admission), (storeMachine crates).Run past db → Forward past →
      (∀ event ∈ past, event.draws.now 0 ≤ draws.now 0) →
      Set.InjOn crates.sha256 {value | value = trim raw ∨ value ∈ secretsOf past} → (secretsOf past).Nodup →
      NamesOpen sealing db → LiveSession past admission →
      draws.now 0 < admission.joinedAt + seconds Limits.SESSION_TTL_SECS → admission.session.secret = trim raw →
      ∃ resolved target, (RoomStore.mk crates sealing).resolveSession draws.env raw db = .ok (some resolved) target := by
  intro resolves
  set past := (history Sample.crates (Sample.lateGuests 1) .empty).1 with isPast
  set db := (history Sample.crates (Sample.lateGuests 1) .empty).2 with isDb
  set draws := Sample.draws 7 (Rfc3339.YEAR_10000 - seconds 800) with isDraws
  have checked : (Forward past ∧ ∀ event ∈ past, event.draws.now 0 ≤ draws.now 0) ∧
      secretsOf past = [opaqueSecret (.ofNat 3), opaqueSecret (.ofNat 4)] ∧
      ((past.getLast?.bind fun event => event.deed.joins).map fun admission =>
        (admission.joinedAt, admission.session.secret)) =
          some (Rfc3339.YEAR_10000 - seconds 900, opaqueSecret (.ofNat 4)) ∧
      ((outcome (Sample.store.resolveSession draws.env (opaqueSecret (.ofNat 4))) db).1.toOption.bind id).isNone := by
    unfold Forward
    decide +kernel
  obtain ⟨⟨forward, earlier⟩, secrets, joins, unresolved⟩ := checked
  obtain ⟨admission, joined, parts⟩ := Option.map_eq_some_iff.mp joins
  obtain ⟨event, isLast, granted⟩ := Option.bind_eq_some_iff.mp joined
  obtain ⟨before, split⟩ := List.getLast?_eq_some_iff.mp isLast
  have live : LiveSession past admission := split ▸ liveSession_snoc_iff.mpr (Or.inl granted)
  obtain ⟨joinedAt, secret⟩ := Prod.mk.inj parts
  have collisionFree : Set.InjOn Sample.crates.sha256
      {value | value = trim (opaqueSecret (.ofNat 4)) ∨ value ∈ secretsOf past} :=
    Sample.collisionFree secrets (by decide +kernel) (by decide +kernel)
  obtain ⟨resolved, target, found⟩ := resolves Sample.crates past db .compat draws (opaqueSecret (.ofNat 4)) admission
    (run_history Sample.crates _) forward earlier collisionFree (by rw [secrets]; decide +kernel)
    (namesOpen_of_all (by decide +kernel)) live (by rw [joinedAt]; decide) (secret.trans (by decide +kernel))
  change Sample.store.resolveSession draws.env (opaqueSecret (.ofNat 4)) db = _ at found
  rw [outcome_ok_iff.mpr found] at unresolved
  cases unresolved

end RyuRooms
