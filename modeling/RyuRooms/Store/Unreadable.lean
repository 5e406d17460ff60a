import RyuRooms.Store.Answers
import RyuRooms.Store.Corrupted

/-! # Writing to a room with unreadable rows

Snapshots tolerate a cell that does not open, but two operations open a cell before they write or answer:
`host_session` the name of the host, and `finish_run` the partial text of the run, whatever it is finished with.
So a room serves its host exactly where those cells open. Submitting a new turn and `stop_run` open nothing.
-/

namespace RyuRooms

open Foundation

namespace RoomStore

/-- A turn that is no retry, with ids that are new, by a caller who may take turns, while the clock is not behind
as many messages of the room as a snapshot holds. -/
structure NewTurn (db : Db) (draws : Draws) (session : RoomSession) (input : SubmitTurnInput) : Prop where
  allowed : session.role ≠ .viewer
  prompt : ∃ text, Limits.validatePrompt input.text = .ok text
  unretried : ∃ key, input.idempotencyKey.mapM Limits.validateIdempotencyKey = .ok key ∧
    (key.isSome → ∀ run ∈ db.runs, run.roomId = session.roomId → run.idempotencyKey ≠ key)
  message : ∀ message ∈ db.messages, message.id ≠ draws.newMessageId
  run : ∀ run ∈ db.runs, run.id ≠ draws.newRunId
  newest : laterMessages db session.roomId draws.newMessageId (draws.now 0) < Limits.MAX_HISTORY_MESSAGES

/-- A room works: its host gets a session, a new turn is accepted while no run is unfinished, and every unfinished
run can be failed and stopped. -/
structure Serves (store : RoomStore) (db : Db) (roomId : String) : Prop where
  enters : ∀ draws : Draws, ∃ session, store.hostSession draws.env roomId db = .ok session db
  submits : (∀ run ∈ db.runs, ¬ Db.isActiveIn roomId run) → ∀ draws session input, session.roomId = roomId →
    NewTurn db draws session input → ∃ accepted target,
      store.appendUserTurn draws.env session input db = .ok accepted target
  fails : ∀ run ∈ db.runs, Db.isActiveIn roomId run → ∀ (draws : Draws) errorCode errorMessage, ∃ snapshot target,
    store.finishRun draws.env roomId run.id ⟨.failed, errorCode, errorMessage⟩ db = .ok snapshot target ∧
      ∀ row ∈ target.runs, row.id = run.id → row.status = .failed
  stops : ∀ run ∈ db.runs, Db.isActiveIn roomId run → ∀ draws : Draws, ∃ target,
    store.stopRun draws.env roomId run.id db = .ok () target ∧
      ∀ row ∈ target.runs, row.id = run.id → row.status = .canceled

/-- The name of a room's host opens. -/
def HostOpens (store : RoomStore) (db : Db) (roomId : String) : Prop :=
  ∀ host ∈ db.participants, host.roomId = roomId → host.role = .host →
    ∃ name, store.sealing.openText host.displayName (ctx "room_participants" "display_name" host.id) = .ok name

/-- The partial text of every unfinished run of a room opens. -/
def RunsOpen (store : RoomStore) (db : Db) (roomId : String) : Prop :=
  ∀ run ∈ db.runs, Db.isActiveIn roomId run →
    ∃ text, store.sealing.openText run.partialText (ctx "room_runs" "partial_text" run.id) = .ok text

variable {store : RoomStore} {draws : Draws} {source target : Db} {roomId : String}

section Operations

/-- The host gets a session exactly where the name of the host opens. -/
theorem hostSession_ok_iff {host : ParticipantRow} (valid : validateRoomId roomId = .ok roomId)
    (hosts : source.participants.find? (fun row => row.roomId == roomId && row.role == .host) = some host) :
    (∃ session, store.hostSession draws.env roomId source = .ok session source) ↔
      ∃ name, store.sealing.openText host.displayName (ctx "room_participants" "display_name" host.id) = .ok name := by
  simp only [hostSession, bind_ok_iff, returnExcept_ok_iff, query_ok_iff, orFail_ok_iff, openCell_ok_iff, pure_ok_iff]
  constructor
  · rintro ⟨_, _, _, ⟨named, rfl⟩, _, _, ⟨rfl, rfl⟩, found, _, ⟨isFound, rfl⟩, name, _, ⟨opened, rfl⟩, -⟩
    obtain rfl := Except.ok.inj (valid.symm.trans named)
    obtain rfl := Option.some.inj (hosts.symm.trans isFound)
    exact ⟨name, opened⟩
  · rintro ⟨name, opened⟩
    exact ⟨_, roomId, source, ⟨valid, rfl⟩, _, source, ⟨rfl, rfl⟩, host, source, ⟨hosts, rfl⟩, name, source,
      ⟨opened, rfl⟩, rfl, rfl⟩

/-- A new turn is accepted by a room without an unfinished run. -/
theorem appendUserTurn_of_new (lawful : store.sealing.Lawful) (writable : store.sealing.ensureWritable = .ok ())
    (rooted : source.Rooted) {session : RoomSession} {input : SubmitTurnInput} (opened : source.IsOpen session.roomId)
    (free : ∀ run ∈ source.runs, ¬ Db.isActiveIn session.roomId run) (new : NewTurn source draws session input) :
    ∃ accepted target, store.appendUserTurn draws.env session input source = .ok accepted target := by
  obtain ⟨allowed, ⟨text, valid⟩, ⟨key, keyed, unretried⟩, message, run, newest⟩ := new
  have passes (points : List ℕ) : draws.env.Passes points := fun _ _ => rfl
  obtain ⟨room, there, named, -⟩ := id opened
  have known : source.hasRoom session.roomId := Db.hasRoom_iff.mpr ⟨room, there, named⟩
  have validId : validateRoomId session.roomId = .ok session.roomId := named ▸ rooted.rooms room there
  obtain ⟨turn, target, inserted⟩ := @insertTurn_of_fresh store draws.env source session text key known unretried free
    writable message run (passes _)
  obtain ⟨commits, -⟩ := appendTurn_changes_iff.mpr
    ⟨text, key, allowed, valid, keyed, passes _, opened, fun _ => passes _, unretried, inserted⟩
  have answers : ¬ Fails (store.snapshotOrNotFound draws.env 13 turn.roomId >>= store.acceptTurn draws.env turn)
      target := by
    rw [accepting_fails_iff lawful validId known inserted, not_or]
    exact ⟨Env.not_breaks_iff.mpr (passes _), not_le.mpr newest⟩
  cases answered : (store.snapshotOrNotFound draws.env 13 turn.roomId >>= store.acceptTurn draws.env turn) target with
  | error error after => exact absurd ⟨error, after, answered⟩ answers
  | ok accepted after => exact ⟨accepted, after, (bind_eq_of_ok commits).trans answered⟩

/-- An unfinished run is failed exactly where its partial text opens. -/
theorem finishRun_failed_iff (lawful : store.sealing.Lawful) (writable : store.sealing.ensureWritable = .ok ())
    (rooted : source.Rooted) {run : RunRow} (member : run ∈ source.runs) (active : run.status.isActive)
    {errorCode errorMessage : Option String} :
    (∃ snapshot target,
        store.finishRun draws.env run.roomId run.id ⟨.failed, errorCode, errorMessage⟩ source = .ok snapshot target ∧
          ∀ row ∈ target.runs, row.id = run.id → row.status = .failed) ↔
      ∃ text, store.sealing.openText run.partialText (ctx "room_runs" "partial_text" run.id) = .ok text := by
  have known : source.hasRoom run.roomId := rooted.runs run member
  obtain ⟨room, there, named⟩ := Db.hasRoom_iff.mp known
  have valid : validateRoomId run.roomId = .ok run.roomId := named ▸ rooted.rooms room there
  constructor
  · rintro ⟨snapshot, target, finished, -⟩
    obtain ⟨_, middle, settled, -⟩ := bind_ok_iff.mp finished
    obtain ⟨other, otherMem, same, -, ⟨ended, -⟩ | ⟨-, text, opened, -⟩⟩ := settleRun_adds lawful settled
    · obtain rfl := Table.eq_of_key otherMem member same
      rw [ended] at active
      cases active
    · obtain rfl := Table.eq_of_key otherMem member same
      exact ⟨text, opened⟩
  · rintro ⟨text, opened⟩
    obtain ⟨snapshot, target, finished⟩ := @finishRun_of_active store draws source run.roomId writable rooted run member
      active ⟨.failed, errorCode, errorMessage⟩ rfl valid text opened fun answers => by simp at answers
    refine ⟨snapshot, target, finished, ?_⟩
    obtain ⟨_, middle, settled, shown⟩ := bind_ok_iff.mp finished
    obtain rfl := (snapshotOrNotFound_readOnly _ _).of_ok shown
    obtain ⟨other, otherMem, same, ends⟩ := settleRun_finished settled
    obtain rfl := Table.eq_of_key otherMem member same
    intro row rowMem named
    rw [ends row rowMem named, if_pos active]

/-- An unfinished run can always be stopped. -/
theorem stopRun_of_active (writable : store.sealing.ensureWritable = .ok ())
    (rooted : source.Rooted) {run : RunRow} (member : run ∈ source.runs) (active : run.status.isActive) :
    ∃ target, store.stopRun draws.env run.roomId run.id source = .ok () target ∧
      ∀ row ∈ target.runs, row.id = run.id → row.status = .canceled := by
  obtain ⟨room, there, named⟩ := Db.hasRoom_iff.mp (rooted.runs run member)
  have valid : validateRoomId run.roomId = .ok run.roomId := named ▸ rooted.rooms room there
  obtain ⟨cell, explained⟩ := StoreSeal.sealText_isOk_iff.mpr writable
  have found : (Db.cancelRun run.roomId run.id cell (draws.now 0) source).2 ≠ 0 :=
    Table.count_ne_zero.mpr ⟨run, member, by simp [Db.isActiveIn, active]⟩
  have stopped : store.stopRun draws.env run.roomId run.id source =
      .ok () (source.stopped run.roomId run.id cell (draws.now 0) (draws.now 1)) := by
    simp only [stopRun, bind_ok_iff, returnExcept_ok_iff, sealCell_ok_iff, execute_ok_iff, failIf_ok_iff, pure_ok_iff,
      env_now]
    exact ⟨_, source, ⟨valid, rfl⟩, cell, source, ⟨explained, rfl⟩, _, _, ⟨rfl, rfl⟩, (), _, ⟨found, rfl⟩, _, _,
      ⟨rfl, rfl⟩, trivial, rfl⟩
  exact ⟨_, stopped, stopRun_canceled stopped⟩

/-- A room works exactly where the name of its host and the partial text of its unfinished run open. -/
theorem serves_iff (lawful : store.sealing.Lawful) (writable : store.sealing.ensureWritable = .ok ())
    (rooted : source.Rooted) (seated : source.Seated) (opened : source.IsOpen roomId) :
    store.Serves source roomId ↔ store.HostOpens source roomId ∧ store.RunsOpen source roomId := by
  obtain ⟨room, there, rfl, -⟩ := id opened
  have valid := rooted.rooms room there
  obtain ⟨host, hostMem, inRoom, isHost⟩ := seated.hosted room there
  obtain ⟨found, hosts⟩ := Option.isSome_iff_exists.mp ((@List.find?_isSome _ source.participants.rows
    fun row => row.roomId == room.id && row.role == .host).mpr ⟨host, hostMem, by simp [inRoom, isHost]⟩)
  obtain ⟨foundMem, chosen⟩ := Table.find?_eq_some hosts
  simp only [Bool.and_eq_true, beq_iff_eq] at chosen
  obtain rfl := seated.single host hostMem found foundMem isHost chosen.2 (inRoom.trans chosen.1.symm)
  have enters (draws : Draws) := @hostSession_ok_iff store draws source room.id host valid hosts
  have owned {run : RunRow} (active : Db.isActiveIn room.id run) : run.roomId = room.id ∧ run.status.isActive :=
    Db.isActiveIn_iff.mp active
  have someDraws : Draws := Sample.draws 1 0
  constructor
  · rintro ⟨entered, -, failed, -⟩
    refine ⟨fun other otherMem sameRoom otherHost => ?_, fun run member active => ?_⟩
    · obtain rfl := seated.single host hostMem other otherMem isHost otherHost (inRoom.trans sameRoom.symm)
      exact (enters _).mp (entered someDraws)
    · obtain ⟨same, alive⟩ := owned active
      have failable := failed run member active someDraws none none
      rw [← same] at failable
      exact (finishRun_failed_iff lawful writable rooted member alive).mp failable
  · rintro ⟨hostOpens, runsOpen⟩
    refine ⟨fun draws => (enters draws).mpr (hostOpens host hostMem inRoom isHost), ?_, ?_, ?_⟩
    · rintro free draws session input same new
      exact appendUserTurn_of_new lawful writable rooted (same ▸ opened) (same ▸ free) new
    · intro run member active draws errorCode errorMessage
      obtain ⟨same, alive⟩ := owned active
      rw [← same]
      exact (finishRun_failed_iff lawful writable rooted member alive).mpr (runsOpen run member active)
    · intro run member active draws
      obtain ⟨same, alive⟩ := owned active
      rw [← same]
      exact stopRun_of_active writable rooted member alive

end Operations

section Histories

variable {crates : Crates} {events : List Event} {db : Db} {room : RoomRow}

/-- Whatever the sealed columns of an open room hold, it works exactly where the name of its host and the partial
text of its unfinished run still open. -/
theorem corrupted_serves_iff (run : (storeMachine crates).Run events db) (lawful : store.sealing.Lawful)
    (healthy : store.sealing.ensureWritable = .ok ()) (corruption : Corruption) (member : room ∈ db.rooms)
    (opened : room.status ≠ .closed) : store.Serves (corruption.apply db) room.id ↔
      store.HostOpens (corruption.apply db) room.id ∧ store.RunsOpen (corruption.apply db) room.id :=
  serves_iff lawful healthy (Corruption.rooted_apply (.of_history run)) (Corruption.seated_apply (seated_of_run run))
    ⟨room, member, rfl, opened⟩

end Histories

end RoomStore

namespace Sample

/-- A toy cipher that marks what it seals and opens nothing else. -/
def marking : ContentCipher where
  sealText _ value _ := "encb:v1:~" ++ value
  openText stored _ := (stripPrefix stored "encb:v1:~").elim (.error "does not open") fun value => .ok ⟨value, false⟩

theorem marking_lawful : marking.Lawful where
  sealed _ value _ := StoreSeal.startsWith_iff.mpr ⟨"~" ++ value, by
    rw [marking, CONTENT_TEXT_PREFIX, ← String.append_assoc]
    rfl⟩
  opens _ value _ := by
    change (stripPrefix ("encb:v1:~" ++ value) "encb:v1:~").elim _ _ = _
    rw [StoreSeal.stripPrefix_append, Option.elim_some]

/-- A store with a key. -/
def keyedStore : RoomStore := ⟨crates, .sealing marking⟩

/-- The first turn in a store with a key. -/
def keyedTurn : List Call := firstTurn.map fun call => { call with sealing := .sealing marking }

/-- The same cells with an envelope that does not open in the names of the participants. -/
def nameless : Corruption := { garbled with
  messageText row := row.text
  inputText row := row.inputText
  partialText row := row.partialText
  errorMessage row := row.errorMessage }

/-- The same cells with an envelope that does not open everywhere but in the names and the partial texts. -/
def wordless : Corruption := { garbled with
  displayName row := row.displayName
  partialText row := row.partialText }

end Sample

/-- Once the name of the host does not open, the host of an open room is refused for good; once the partial text of
its run does not, the run cannot be failed. -/
theorem not_corrupted_serves_nameless :
    let db := (history Sample.crates Sample.keyedTurn .empty).2
    Sample.keyedStore.sealing.Lawful ∧ Sample.keyedStore.sealing.ensureWritable = .ok () ∧
      db.IsOpen Sample.host.roomId ∧
      (outcome (Sample.keyedStore.hostSession (Sample.draws 21 30).env Sample.host.roomId) (Sample.nameless.apply db)).1 =
        .error (.sealing "does not open") ∧
      (outcome (Sample.keyedStore.finishRun (Sample.draws 21 30).env Sample.host.roomId (opaqueId "run_" (.ofNat 12))
        ⟨.failed, none, none⟩) (Sample.garbled.apply db)).1 = .error (.sealing "does not open") ∧
      ¬ Sample.keyedStore.Serves (Sample.nameless.apply db) Sample.host.roomId ∧
      ¬ Sample.keyedStore.Serves (Sample.garbled.apply db) Sample.host.roomId := by
  intro db
  have refused : (outcome (Sample.keyedStore.hostSession (Sample.draws 21 30).env Sample.host.roomId)
      (Sample.nameless.apply db)).1 = .error (.sealing "does not open") := by decide +kernel
  have stuck : (outcome (Sample.keyedStore.finishRun (Sample.draws 21 30).env Sample.host.roomId
      (opaqueId "run_" (.ofNat 12)) ⟨.failed, none, none⟩) (Sample.garbled.apply db)).1 =
        .error (.sealing "does not open") := by decide +kernel
  have running : ∃ run ∈ (Sample.garbled.apply db).runs.rows,
      run.id = opaqueId "run_" (.ofNat 12) ∧ Db.isActiveIn Sample.host.roomId run := by decide +kernel
  have opened : ∃ room ∈ db.rooms.rows, room.id = Sample.host.roomId ∧ room.status ≠ .closed := by decide +kernel
  refine ⟨Sample.marking_lawful, rfl, opened, refused, stuck, fun serves => ?_, fun serves => ?_⟩
  · obtain ⟨session, entered⟩ := serves.enters (Sample.draws 21 30)
    rw [outcome_ok_iff.mpr entered] at refused
    cases refused
  · obtain ⟨run, member, named, active⟩ := running
    obtain ⟨snapshot, target, failed, -⟩ := serves.fails run member active (Sample.draws 21 30) none none
    rw [← named, outcome_ok_iff.mpr failed] at stuck
    cases stuck

/-- With every other cell unreadable, the room of the first turn still works. -/
theorem corrupted_serves_wordless :
    let db := (history Sample.crates Sample.keyedTurn .empty).2
    Sample.keyedStore.Serves (Sample.wordless.apply db) Sample.host.roomId := by
  intro db
  have opened : ∃ room ∈ db.rooms.rows, Sample.host.roomId = room.id ∧ room.status ≠ .closed := by decide +kernel
  have names : (Sample.wordless.apply db).participants.rows.all fun host => (Sample.keyedStore.sealing.openText
      host.displayName (ctx "room_participants" "display_name" host.id)).isOk := by decide +kernel
  have texts : (Sample.wordless.apply db).runs.rows.all fun run => (Sample.keyedStore.sealing.openText
      run.partialText (ctx "room_runs" "partial_text" run.id)).isOk := by decide +kernel
  obtain ⟨room, member, named, opened⟩ := opened
  rw [named]
  refine (@RoomStore.corrupted_serves_iff Sample.keyedStore _ _ _ _ (run_history Sample.crates Sample.keyedTurn)
    Sample.marking_lawful rfl Sample.wordless member opened).mpr
    ⟨fun host there _ _ => ?_, fun run there _ => ?_⟩
  · exact isOk_iff.mp (List.all_eq_true.mp names host there)
  · exact isOk_iff.mp (List.all_eq_true.mp texts run there)

end RyuRooms
