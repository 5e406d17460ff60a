import RyuRooms.Store.Torn

/-! # Calls that fail after their commit

`create_room`, `finish_run` and `append_user_turn` commit one transaction and then read the snapshot
they return. They are torn exactly where the commit changed something and a later read fails; a new turn
is also answered with an error when a clock that went back hides its message from the snapshot.
-/

namespace RyuRooms

open Foundation

namespace RoomStore

/-- `create_room` commits, and the snapshot it returns is not read. -/
structure TornCreate (store : RoomStore) (env : Env) (db : Db) (input : CreateRoomInput) (modelId origin : String) :
    Prop where
  model : Limits.validateModelId input.modelId = .ok modelId
  share : Limits.validateShareOrigin store.crates.parseUrl input.shareOrigin = .ok origin
  writable : store.sealing.ensureWritable = .ok ()
  room : ∀ room ∈ db.rooms, room.id ≠ opaqueId "room_" (env.uuid 0)
  invite : ∀ invite ∈ db.invites, invite.roomId ≠ opaqueId "room_" (env.uuid 0)
  host : ∀ participant ∈ db.participants, participant.id ≠ opaqueId "member_" (env.uuid 1)
  passes : env.Passes [0, 1, 2, 3, 4, 5]
  breaks : env.Breaks [6, 7, 8, 9]

/-- `finish_run` commits the end of a run, and the snapshot it returns is not read. -/
structure TornFinish (store : RoomStore) (env : Env) (db : Db) (roomId runId : String) (terminal : RunTerminal)
    (id text : String) (run : RunRow) : Prop where
  valid : validateRoomId roomId = .ok id
  active : run ∈ db.runs ∧ run.id = runId ∧ Db.isActiveIn id run
  opened : store.sealing.openText run.partialText (ctx "room_runs" "partial_text" runId) = .ok text
  answered : terminal.status = .completed ∧ text ≠ "" → store.sealing.ensureWritable = .ok () ∧
    (∀ message ∈ db.messages, message.id ≠ opaqueId "msg_" (env.uuid 0)) ∧ env.Passes [3, 4]
  explained : terminal.errorMessage.isSome → store.sealing.ensureWritable = .ok () ∧ env.Passes [5]
  passes : env.Passes [0, 1, 2, 6, 7, 8, 9, 10]
  breaks : env.Breaks [11, 12, 13, 14]

/-- The messages of a room that come after a new one in the order of a snapshot. -/
def laterMessages (db : Db) (roomId messageId : String) (now : Instant) : ℕ :=
  db.messages.count fun message => message.roomId == roomId &&
    (decide (now < message.createdAt) || message.createdAt == now && decide (messageId < message.id))

/-- `append_user_turn` commits a new turn, and then does not read the snapshot it returns or does not find
the new message in it, because enough other messages carry a later time stamp. -/
structure TornTurn (store : RoomStore) (env : Env) (db : Db) (session : RoomSession) (input : SubmitTurnInput)
    (text : String) (key : Option String) : Prop where
  allowed : session.role ≠ .viewer
  valid : Limits.validatePrompt input.text = .ok text
  keyed : input.idempotencyKey.mapM Limits.validateIdempotencyKey = .ok key
  opened : db.IsOpen session.roomId
  unretried : key.isSome → ∀ run ∈ db.runs, run.roomId = session.roomId → run.idempotencyKey ≠ key
  free : ∀ run ∈ db.runs, ¬ Db.isActiveIn session.roomId run
  writable : store.sealing.ensureWritable = .ok ()
  message : ∀ message ∈ db.messages, message.id ≠ opaqueId "msg_" (env.uuid 0)
  run : ∀ run ∈ db.runs, run.id ≠ opaqueId "run_" (env.uuid 1)
  passes : env.Passes [0, 1, 5, 6, 7, 8, 9, 10, 11, 12]
  looked : key.isSome → env.Passes [2]
  ends : env.Breaks [13, 14, 15, 16] ∨
    Limits.MAX_HISTORY_MESSAGES ≤ laterMessages db session.roomId (opaqueId "msg_" (env.uuid 0)) (env.now 0)

variable {store : RoomStore} {env : Env} {source target : Db} {roomId runId : String}

section Snapshot

theorem snapshotOrNotFound_eq_ok_iff {first : ℕ} {id : String} {snapshot : RoomSnapshot}
    (valid : validateRoomId roomId = .ok id) (known : source.hasRoom id) :
    store.snapshotOrNotFound env first roomId source = .ok snapshot target ↔
      env.Passes [first, first + 1, first + 2, first + 3] ∧ store.snapshotFrom source id = some snapshot ∧
        source = target := by
  simp only [snapshotOrNotFound, RoomStore.snapshot, bind_ok_iff, returnExcept_ok_iff, valid, Except.ok.injEq,
    Env.query_ok_iff, orFail_ok_iff, Env.passes_cons, Env.passes_nil, and_true]
  constructor
  · rintro ⟨_, _, ⟨_, _, ⟨rfl, rfl⟩, _, _, ⟨e0, rfl, rfl⟩, rest⟩, rfl, rfl⟩
    rw [if_pos known] at rest
    simp only [bind_ok_iff, Env.attempt_ok_iff, Env.query_ok_iff] at rest
    obtain ⟨_, _, ⟨e1, rfl⟩, _, _, ⟨e2, rfl⟩, e3, found, rfl⟩ := rest
    exact ⟨⟨e0, e1, e2, e3⟩, found, rfl⟩
  · rintro ⟨⟨e0, e1, e2, e3⟩, found, rfl⟩
    refine ⟨some snapshot, source, ⟨id, source, ⟨rfl, rfl⟩, _, source, ⟨e0, rfl, rfl⟩, ?_⟩, rfl, rfl⟩
    rw [if_pos known]
    simp only [bind_ok_iff, Env.attempt_ok_iff, Env.query_ok_iff]
    exact ⟨(), source, ⟨e1, rfl⟩, (), source, ⟨e2, rfl⟩, e3, found, rfl⟩

/-- The snapshot of a room that exists fails exactly where one of its queries does. -/
theorem snapshotOrNotFound_fails_iff {first : ℕ} {id : String} (valid : validateRoomId roomId = .ok id)
    (known : source.hasRoom id) : Fails (store.snapshotOrNotFound env first roomId) source ↔
      env.Breaks [first, first + 1, first + 2, first + 3] := by
  have found : ∃ snapshot, store.snapshotFrom source id = some snapshot :=
    Option.isSome_iff_exists.mp (snapshotFrom_isSome_iff.mpr known)
  rw [(snapshotOrNotFound_readOnly _ _).fails_iff, ← not_iff_not, not_not, Env.not_breaks_iff]
  simp only [snapshotOrNotFound_eq_ok_iff valid known, and_true, exists_and_left, found]

end Snapshot

section Commits

/-- A room, its invite and its host are inserted when their keys are new; the room is there afterwards. -/
theorem exists_created_iff {room : RoomRow} {invite : InviteRow} {host : ParticipantRow}
    (invited : invite.roomId = room.id) (hosted : host.roomId = room.id) :
    (∃ roomed made target, source.insertRoom room = some roomed ∧ roomed.insertInvite invite = some made ∧
      made.insertParticipant host = some target) ↔
      (∀ other ∈ source.rooms, other.id ≠ room.id) ∧ (∀ other ∈ source.invites, other.roomId ≠ room.id) ∧
        ∀ other ∈ source.participants, other.id ≠ host.id := by
  constructor
  · rintro ⟨roomed, made, target, first, second, third⟩
    obtain ⟨rooms, freshRoom, rfl⟩ := Db.insertRoom_eq_some_iff.mp first
    obtain ⟨-, invites, freshInvite, rfl⟩ := Db.insertInvite_eq_some_iff.mp second
    obtain ⟨-, participants, freshHost, rfl⟩ := Db.insertParticipant_eq_some_iff.mp third
    exact ⟨(Table.insert?_eq_some_iff.mp freshRoom).1, invited ▸ (Table.insert?_eq_some_iff.mp freshInvite).1,
      (Table.insert?_eq_some_iff.mp freshHost).1⟩
  · rintro ⟨freshRoom, freshInvite, freshHost⟩
    obtain ⟨rooms, first⟩ := Table.exists_insert? room freshRoom
    obtain ⟨invites, second⟩ := Table.exists_insert? invite (invited.symm ▸ freshInvite)
    obtain ⟨participants, third⟩ := Table.exists_insert? host freshHost
    have known : { source with rooms }.hasRoom room.id :=
      Db.hasRoom_iff.mpr ⟨room, (Table.mem_of_insert? first).mpr (Or.inr rfl), rfl⟩
    refine ⟨{ source with rooms }, { source with rooms, invites }, { source with rooms, invites, participants },
      Db.insertRoom_eq_some_iff.mpr ⟨rooms, first, rfl⟩,
      Db.insertInvite_eq_some_iff.mpr ⟨invited.symm ▸ known, invites, second, rfl⟩,
      Db.insertParticipant_eq_some_iff.mpr ⟨hosted.symm ▸ known, participants, third, rfl⟩⟩

theorem created_spec {room : RoomRow} {invite : InviteRow} {host : ParticipantRow} {roomed made : Db}
    (first : source.insertRoom room = some roomed) (second : roomed.insertInvite invite = some made)
    (third : made.insertParticipant host = some target) : target ≠ source ∧ target.hasRoom room.id := by
  obtain ⟨rooms, added, rfl⟩ := Db.insertRoom_eq_some_iff.mp first
  obtain ⟨-, invites, -, rfl⟩ := Db.insertInvite_eq_some_iff.mp second
  obtain ⟨-, participants, -, rfl⟩ := Db.insertParticipant_eq_some_iff.mp third
  have there : room ∈ rooms := (Table.mem_of_insert? added).mpr (Or.inr rfl)
  refine ⟨fun same => ?_, Db.hasRoom_iff.mpr ⟨room, there, rfl⟩⟩
  have known : room ∈ source.rooms := congrArg Db.rooms same ▸ there
  exact (Table.insert?_eq_some_iff.mp added).1 room known rfl

/-- The transaction of `create_room` commits when its ids are new and none of its steps fails. -/
theorem insertCreatedRoom_ok_iff {participantId modelId origin hostName : String} {digest : List UInt8}
    {result : Unit} :
    insertCreatedRoom env roomId participantId modelId origin hostName digest source = .ok result target ↔
      env.Passes [1, 2, 3, 4, 5] ∧ ∃ roomed invited,
        source.insertRoom (newRoom roomId (env.now 0) modelId origin) = some roomed ∧
        roomed.insertInvite (newInvite roomId (env.now 0) digest) = some invited ∧
        invited.insertParticipant (newParticipant roomId (env.now 0) .host participantId hostName) = some target := by
  simp only [insertCreatedRoom, transaction_ok_iff, bind_ok_iff, Env.attempt_ok_iff, Env.insert_ok_iff,
    Env.passes_cons, Env.passes_nil, and_true]
  constructor
  · rintro ⟨_, _, ⟨e1, rfl⟩, _, roomed, ⟨e2, first⟩, _, invited, ⟨e3, second⟩, _, _, ⟨e4, third⟩, e5, rfl⟩
    exact ⟨⟨e1, e2, e3, e4, e5⟩, roomed, invited, first, second, third⟩
  · rintro ⟨⟨e1, e2, e3, e4, e5⟩, roomed, invited, first, second, third⟩
    exact ⟨(), source, ⟨e1, rfl⟩, (), roomed, ⟨e2, first⟩, (), invited, ⟨e3, second⟩, (), target, ⟨e4, third⟩, e5, rfl⟩

theorem insertCreatedRoom_atomic {participantId modelId origin hostName : String} {digest : List UInt8} :
    ¬ Tears source (insertCreatedRoom env roomId participantId modelId origin hostName digest) source :=
  not_tears_transaction _

theorem createRoom_tears_iff {input : CreateRoomInput} : Tears source (store.createRoom env input) source ↔
    ∃ modelId origin, TornCreate store env source input modelId origin := by
  simp only [createRoom, orInvalid, tears_returnExcept_bind, tears_sealCell_bind, mapError_eq_ok_iff, ne_eq,
    not_true_eq_false, and_false, false_or, insertCreatedRoom_ok_iff,
    tears_bind_readOnly_iff insertCreatedRoom_atomic fun _ => .bind (snapshotOrNotFound_readOnly _ _) fun _ => .pure _,
    fails_bind_of_forall fun _ _ => iff_of_false (not_fails_pure _) not_false, or_false]
  have valid := validateRoomId_opaqueId (env.uuid 0)
  constructor
  · rintro ⟨modelId, model, origin, share, first, cell, sealed, _, target, ⟨passes, roomed, invited, inserted, second,
      third⟩, -, fails⟩
    obtain ⟨room, invite, host⟩ := (exists_created_iff (by rfl) (by rfl)).mp ⟨_, _, _, inserted, second, third⟩
    refine ⟨modelId, origin, model, share, StoreSeal.sealText_isOk_iff.mp ⟨cell, sealed⟩, room, invite, host, ?_, ?_⟩
    · rw [Env.passes_cons]
      exact ⟨first, passes⟩
    · exact (snapshotOrNotFound_fails_iff valid (created_spec inserted second third).2).mp fails
  · rintro ⟨modelId, origin, model, share, writable, room, invite, host, passes, breaks⟩
    obtain ⟨first, passes⟩ := Env.passes_cons.mp passes
    obtain ⟨cell, sealed⟩ := StoreSeal.sealText_isOk_iff.mpr writable
    refine ⟨modelId, model, origin, share, first, cell, sealed, (), ?_⟩
    obtain ⟨roomed, invited, target, inserted, second, third⟩ :=
      (@exists_created_iff source (newRoom _ (env.now 0) modelId origin) (newInvite _ (env.now 0)
        (store.crates.sha256 (opaqueSecret (env.uuid 2)))) (newParticipant _ (env.now 0) .host _ cell) rfl rfl).mpr
        ⟨room, invite, host⟩
    obtain ⟨changed, known⟩ := created_spec inserted second third
    exact ⟨target, ⟨passes, roomed, invited, inserted, second, third⟩, changed,
      (snapshotOrNotFound_fails_iff valid known).mpr breaks⟩

/-- The answer is inserted where the store can seal it and its message id is new. -/
theorem insertAnswer_commits_iff {text : String} {status : RunStatus} (known : source.hasRoom roomId) :
    (∃ target, store.insertAnswer env roomId text status source = .ok () target) ↔
      (status = .completed ∧ text ≠ "" → store.sealing.ensureWritable = .ok () ∧
        (∀ message ∈ source.messages, message.id ≠ opaqueId "msg_" (env.uuid 0)) ∧ env.Passes [3, 4]) := by
  rw [insertAnswer]
  split
  · next answers =>
    rw [imp_iff_right answers]
    simp only [bind_ok_iff, sealCell_eq_ok_iff, Env.insert_ok_iff, Env.passes_cons, Env.passes_nil, and_true]
    constructor
    · rintro ⟨target, cell, _, ⟨third, sealed, rfl⟩, fourth, inserted⟩
      obtain ⟨-, messages, added, -⟩ := Db.insertMessage_eq_some_iff.mp inserted
      exact ⟨StoreSeal.sealText_isOk_iff.mp ⟨cell, sealed⟩, (Table.insert?_eq_some_iff.mp added).1, third, fourth⟩
    · rintro ⟨writable, fresh, third, fourth⟩
      obtain ⟨cell, sealed⟩ := StoreSeal.sealText_isOk_iff.mpr writable
      obtain ⟨messages, added⟩ := Table.exists_insert?
        (newMessage roomId (env.now 0) .assistant (opaqueId "msg_" (env.uuid 0)) cell none) fresh
      exact ⟨_, cell, source, ⟨third, sealed, rfl⟩, fourth, Db.insertMessage_eq_some_iff.mpr ⟨known, messages, added, rfl⟩⟩
  · next silent => exact iff_of_true ⟨source, rfl⟩ fun answers => absurd answers silent

theorem insertAnswer_spec {text : String} {status : RunStatus} {result : Unit}
    (success : store.insertAnswer env roomId text status source = .ok result target) :
    target.rooms = source.rooms ∧ target.runs = source.runs := by
  rw [insertAnswer] at success
  split at success
  · simp only [bind_ok_iff, sealCell_eq_ok_iff, Env.insert_ok_iff] at success
    obtain ⟨_, _, ⟨-, -, rfl⟩, -, inserted⟩ := success
    obtain ⟨-, messages, -, rfl⟩ := Db.insertMessage_eq_some_iff.mp inserted
    exact ⟨rfl, rfl⟩
  · obtain ⟨-, rfl⟩ := pure_ok_iff.mp success
    exact ⟨rfl, rfl⟩

/-- An optional message is sealed where there is none, or the store can seal it. -/
theorem sealOpt_commits_iff {point draw : ℕ} {value : Option String} {context : ContentContext} :
    (∃ cell, store.sealOpt env point draw value context source = .ok cell source) ↔
      (value.isSome → store.sealing.ensureWritable = .ok () ∧ env.Passes [point]) := by
  cases value with
  | none => exact iff_of_true ⟨none, rfl⟩ nofun
  | some value =>
    simp only [sealOpt, map_ok_iff, sealCell_eq_ok_iff, Option.isSome_some, true_imp_iff, Env.passes_cons,
      Env.passes_nil, and_true]
    constructor
    · rintro ⟨_, cell, ⟨passes, sealed⟩, -⟩
      exact ⟨StoreSeal.sealText_isOk_iff.mp ⟨cell, sealed⟩, passes⟩
    · rintro ⟨writable, passes⟩
      obtain ⟨cell, sealed⟩ := StoreSeal.sealText_isOk_iff.mpr writable
      exact ⟨some cell, cell, ⟨passes, sealed⟩, rfl⟩

theorem settleRun_atomic {terminal : RunTerminal} :
    ¬ Tears source (store.settleRun env roomId runId terminal) source := by
  simp only [settleRun, tears_returnExcept_bind, ne_eq, not_true_eq_false, and_false, false_or, not_exists, not_and]
  exact fun _ _ => not_tears_transaction _

/-- What `finish_run` commits on an unfinished run. -/
theorem recordTerminal_ok_iff {id : String} {run : RunRow} {terminal : RunTerminal} :
    (∃ middle, store.recordTerminal env id run terminal source = .ok () middle ∧ target = middle.trimmed id) ↔
      env.Passes [2, 6, 7] ∧ ∃ text answered cell,
        store.sealing.openText run.partialText (ctx "room_runs" "partial_text" run.id) = .ok text ∧
        store.insertAnswer env id text terminal.status source = .ok () answered ∧
        store.sealOpt env 5 1 terminal.errorMessage (ctx "room_runs" "error_message" run.id) answered =
          .ok cell answered ∧
        target = (answered.settled id run.id terminal.status terminal.errorCode cell (env.now 0)).trimmed id := by
  simp only [recordTerminal, bind_ok_iff, openCell_eq_ok_iff, Env.execute_ok_iff, pure_ok_iff, Env.passes_cons,
    Env.passes_nil, and_true]
  constructor
  · rintro ⟨middle, ⟨text, _, ⟨second, opened, rfl⟩, _, answered, answer, cell, _, explained, _, _, ⟨sixth, -, rfl⟩, _, _,
      ⟨seventh, -, rfl⟩, -, rfl⟩, rfl⟩
    obtain rfl := (sealOpt_readOnly _ _ _ _).of_ok explained
    exact ⟨⟨second, sixth, seventh⟩, text, answered, cell, opened, answer, explained, rfl⟩
  · rintro ⟨⟨second, sixth, seventh⟩, text, answered, cell, opened, answer, explained, rfl⟩
    exact ⟨_, ⟨text, source, ⟨second, opened, rfl⟩, (), answered, answer, cell, answered, explained, _, _,
      ⟨sixth, rfl, rfl⟩, _, _, ⟨seventh, rfl, rfl⟩, trivial, rfl⟩, rfl⟩

/-- The transaction of `finish_run` commits a change exactly on an unfinished run. -/
theorem settleRun_changes_iff {terminal : RunTerminal} (ends : terminal.status.isActive = false) :
    (store.settleRun env roomId runId terminal source = .ok () target ∧ target ≠ source) ↔
      ∃ id run, validateRoomId roomId = .ok id ∧ (run ∈ source.runs ∧ run.id = runId ∧ Db.isActiveIn id run) ∧
        env.Passes [0, 1, 8, 9, 10] ∧
        ∃ middle, store.recordTerminal env id run terminal source = .ok () middle ∧ target = middle.trimmed id := by
  have finds (id : String) (run : RunRow) : source.runs.find? (fun run => run.id == runId && run.roomId == id) =
      some run ↔ run ∈ source.runs ∧ run.id = runId ∧ run.roomId = id := by
    rw [Table.find?_eq_some_iff fun left right => by simp +contextual]
    simp
  simp only [settleRun, bind_ok_iff, returnExcept_ok_iff, transaction_ok_iff, Env.attempt_ok_iff, Env.query_ok_iff,
    orFail_ok_iff, trimHistory, Env.passes_cons, Env.passes_nil, and_true]
  constructor
  · rintro ⟨⟨id, _, ⟨valid, rfl⟩, _, _, ⟨zeroth, rfl⟩, _, _, ⟨first, rfl, rfl⟩, run, _, ⟨found, rfl⟩, rest⟩, changed⟩
    obtain ⟨member, named, owned⟩ := (finds id run).mp found
    split at rest
    · next active =>
      simp only [bind_ok_iff, Env.execute_ok_iff, pure_ok_iff, Env.attempt_ok_iff] at rest
      obtain ⟨_, middle, recorded, _, _, ⟨_, _, ⟨eighth, -, rfl⟩, _, _, ⟨ninth, -, rfl⟩, -, rfl⟩, tenth, rfl⟩ := rest
      exact ⟨id, run, valid, ⟨member, named, by simp [Db.isActiveIn, owned, active]⟩,
        ⟨zeroth, first, eighth, ninth, tenth⟩, middle, recorded, rfl⟩
    · exact absurd (Env.attempt_ok_iff.mp rest).2.symm changed
  · rintro ⟨id, run, valid, ⟨member, named, running⟩, ⟨zeroth, first, eighth, ninth, tenth⟩, middle, recorded, rfl⟩
    obtain ⟨owned, active⟩ : run.roomId = id ∧ run.status.isActive := by simpa [Db.isActiveIn] using running
    refine ⟨⟨id, source, ⟨valid, rfl⟩, (), source, ⟨zeroth, rfl⟩, _, source, ⟨first, rfl, rfl⟩, run, source,
      ⟨(finds id run).mpr ⟨member, named, owned⟩, rfl⟩, ?_⟩, ?_⟩
    · rw [if_pos active]
      simp only [bind_ok_iff, Env.execute_ok_iff, pure_ok_iff, Env.attempt_ok_iff]
      exact ⟨(), middle, recorded, (), _, ⟨_, _, ⟨eighth, rfl, rfl⟩, _, _, ⟨ninth, rfl, rfl⟩, trivial, rfl⟩, tenth, rfl⟩
    · intro same
      obtain ⟨-, _, answered, _, -, answer, -, settled⟩ := recordTerminal_ok_iff.mp ⟨middle, recorded, rfl⟩
      have kept : run ∈ (middle.trimmed id).runs := same ▸ member
      rw [settled] at kept
      obtain ⟨old, -, became⟩ := Db.mem_settled_runs.mp (Db.of_mem_trimmed_runs kept)
      split at became
      · rw [← became, ends] at active
        cases active
      · next other =>
        subst became
        simp [owned] at other

theorem settled_hasRoom {terminal : RunTerminal} {id : String} {run : RunRow} {middle : Db}
    (recorded : store.recordTerminal env id run terminal source = .ok () middle) (known : source.hasRoom roomId) :
    (middle.trimmed id).hasRoom roomId := by
  obtain ⟨-, _, answered, _, -, answer, -, settled⟩ := recordTerminal_ok_iff.mp ⟨middle, recorded, rfl⟩
  obtain ⟨room, member, named⟩ := Db.hasRoom_iff.mp known
  rw [settled]
  exact Db.hasRoom_iff.mpr ⟨_, Db.mem_setRoomStatus.mpr ⟨room, (insertAnswer_spec answer).1 ▸ member, rfl⟩, by
    split <;> exact named⟩

theorem finishRun_tears_iff {terminal : RunTerminal} (ends : terminal.status.isActive = false) (rooted : source.Rooted) :
    Tears source (store.finishRun env roomId runId terminal) source ↔
      ∃ id text run, TornFinish store env source roomId runId terminal id text run := by
  rw [finishRun, tears_bind_readOnly_iff settleRun_atomic fun _ => snapshotOrNotFound_readOnly _ _]
  have owner {id : String} {run : RunRow} (active : run ∈ source.runs ∧ run.id = runId ∧ Db.isActiveIn id run) :
      source.hasRoom id := by
    obtain ⟨member, -, running⟩ := active
    obtain ⟨rfl, -⟩ : run.roomId = id ∧ run.status.isActive := by simpa [Db.isActiveIn] using running
    exact rooted.runs run member
  constructor
  · rintro ⟨_, target, commits, changed, fails⟩
    obtain ⟨id, run, valid, active, passes, middle, recorded, rfl⟩ := (settleRun_changes_iff ends).mp ⟨commits, changed⟩
    obtain ⟨more, text, answered, cell, opened, answer, explained, -⟩ := recordTerminal_ok_iff.mp ⟨middle, recorded, rfl⟩
    obtain rfl := active.2.1
    refine ⟨id, text, run, valid, active, opened, (insertAnswer_commits_iff (owner active)).mp ⟨_, answer⟩,
      sealOpt_commits_iff.mp ⟨cell, explained⟩, ?_,
      (snapshotOrNotFound_fails_iff valid (settled_hasRoom recorded (owner active))).mp fails⟩
    simp only [Env.passes_cons, Env.passes_nil, and_true] at passes more ⊢
    simp only [passes, more, and_self]
  · rintro ⟨id, text, run, valid, active, opened, answers, explains, passes, breaks⟩
    obtain rfl := active.2.1
    obtain ⟨answered, answer⟩ := insertAnswer_commits_iff (owner active) |>.mpr answers
    obtain ⟨cell, explained⟩ := sealOpt_commits_iff.mpr explains
    simp only [Env.passes_cons, Env.passes_nil, and_true] at passes
    obtain ⟨middle, recorded, -⟩ := recordTerminal_ok_iff.mpr
      ⟨by simp [passes], text, answered, cell, opened, answer, explained, rfl⟩
    obtain ⟨commits, changed⟩ := (settleRun_changes_iff ends).mpr
      ⟨id, run, valid, active, by simp [passes], middle, recorded, rfl⟩
    exact ⟨(), _, commits, changed,
      (snapshotOrNotFound_fails_iff valid (settled_hasRoom recorded (owner active))).mpr breaks⟩

end Commits

section Turns

variable {session : RoomSession} {input : SubmitTurnInput} {turn : AppendedTurn} {text : String}
  {key : Option String}

theorem validKey_ok_iff {value result : Option String} :
    validKey value source = .ok result target ↔
      value.mapM Limits.validateIdempotencyKey = .ok result ∧ source = target := by
  cases value with
  | none =>
    rw [validKey, pure_ok_iff, Option.mapM_none]
    exact and_congr_left fun _ => (Except.ok.injEq _ _).symm.to_iff
  | some value =>
    simp only [validKey, orInvalid, map_ok_iff, returnExcept_ok_iff, mapError_eq_ok_iff, Option.mapM_some]
    cases Limits.validateIdempotencyKey value <;> simp [Functor.map, Except.map, and_comm]

/-- A retry is looked up by its key, if it has one. -/
theorem findRetried_eq_none_iff :
    findRetried env roomId key source = .ok none target ↔ (key.isSome → env.Passes [2]) ∧
      (key.isSome → ∀ run ∈ source.runs, run.roomId = roomId → run.idempotencyKey ≠ key) ∧ source = target := by
  cases key with
  | none => simp [findRetried]
  | some key =>
    simp only [findRetried, Env.query_ok_iff, Table.find?_eq_none, Option.isSome_some, true_imp_iff, Env.passes_cons,
      Env.passes_nil, and_true, Bool.and_eq_true, beq_iff_eq, not_and]

/-- The inserting branch of `append_user_turn`, with its checks and the rows it writes. -/
theorem insertTurn_ok_iff : store.insertTurn env session key text source = .ok turn target ↔
    env.Passes [5, 6, 7, 8, 9, 10, 11, 12] ∧ (∀ run ∈ source.runs, ¬ Db.isActiveIn session.roomId run) ∧
      turn = ⟨session.roomId, opaqueId "run_" (env.uuid 1), some (opaqueId "msg_" (env.uuid 0)), text⟩ ∧
      ∃ messageText inputText partialText messaged ran,
        store.sealing.sealText (env.nonce 0) text (ctx "room_messages" "text" (opaqueId "msg_" (env.uuid 0))) =
          .ok messageText ∧
        store.sealing.sealText (env.nonce 1) text (ctx "room_runs" "input_text" (opaqueId "run_" (env.uuid 1))) =
          .ok inputText ∧
        store.sealing.sealText (env.nonce 2) "" (ctx "room_runs" "partial_text" (opaqueId "run_" (env.uuid 1))) =
          .ok partialText ∧
        source.insertMessage (newMessage session.roomId (env.now 0) .user (opaqueId "msg_" (env.uuid 0)) messageText
          (some session.participantId)) = some messaged ∧
        messaged.insertRun (newRun session.roomId (env.now 0) (opaqueId "run_" (env.uuid 1))
          (opaqueId "req_" (env.uuid 2)) key inputText partialText) = some ran ∧
        target = (Db.setRoomStatus session.roomId (fun _ => .running) (env.now 0) ran).1 := by
  simp only [insertTurn, bind_ok_iff, Env.query_ok_iff, failIf_ok_iff, sealCell_eq_ok_iff, Env.insert_ok_iff,
    Env.execute_ok_iff, Env.attempt_ok_iff, pure_ok_iff, Env.passes_cons, Env.passes_nil, and_true]
  constructor
  · rintro ⟨_, _, ⟨e5, rfl, rfl⟩, _, _, ⟨free, rfl⟩, messageText, _, ⟨e6, messageSealed, rfl⟩, inputText, _,
      ⟨e7, inputSealed, rfl⟩, partialText, _, ⟨e8, partialSealed, rfl⟩, _, messaged, ⟨e9, first⟩, _, ran, ⟨e10, second⟩,
      _, _, ⟨e11, -, rfl⟩, _, _, ⟨e12, rfl⟩, rfl, rfl⟩
    exact ⟨⟨e5, e6, e7, e8, e9, e10, e11, e12⟩, Table.count_eq_zero.mp (Nat.eq_zero_of_not_pos free), rfl, messageText,
      inputText, partialText, messaged, ran, messageSealed, inputSealed, partialSealed, first, second, rfl⟩
  · rintro ⟨⟨e5, e6, e7, e8, e9, e10, e11, e12⟩, free, rfl, messageText, inputText, partialText, messaged, ran,
      messageSealed, inputSealed, partialSealed, first, second, rfl⟩
    exact ⟨_, source, ⟨e5, rfl, rfl⟩, (), source, ⟨Nat.not_lt.mpr (Table.count_eq_zero.mpr free).le, rfl⟩, messageText,
      source, ⟨e6, messageSealed, rfl⟩, inputText, source, ⟨e7, inputSealed, rfl⟩, partialText, source,
      ⟨e8, partialSealed, rfl⟩, (), messaged, ⟨e9, first⟩, (), ran, ⟨e10, second⟩, _, _, ⟨e11, rfl, rfl⟩, (), _,
      ⟨e12, rfl⟩, rfl, rfl⟩

/-- The rows that `insertTurn` leaves behind. -/
theorem insertTurn_spec (success : store.insertTurn env session key text source = .ok turn target) :
    target ≠ source ∧ (∀ id, source.hasRoom id → target.hasRoom id) ∧
      (∃ run ∈ target.runs, run.roomId = session.roomId ∧ run.status = .running) ∧
      ∃ messageText, store.sealing.sealText (env.nonce 0) text
          (ctx "room_messages" "text" (opaqueId "msg_" (env.uuid 0))) = .ok messageText ∧
        target.messages.rows = source.messages.rows ++ [newMessage session.roomId (env.now 0) .user
          (opaqueId "msg_" (env.uuid 0)) messageText (some session.participantId)] := by
  obtain ⟨-, -, -, messageText, inputText, partialText, messaged, ran, sealed, -, -, first, second, rfl⟩ :=
    insertTurn_ok_iff.mp success
  obtain ⟨-, messages, message, rfl⟩ := Db.insertMessage_eq_some_iff.mp first
  obtain ⟨-, runs, run, rfl⟩ := Db.insertRun_eq_some_iff.mp second
  obtain ⟨fresh, rows⟩ := Table.insert?_eq_some_iff.mp message
  refine ⟨fun same => ?_, fun id known => ?_, ⟨_, (Table.mem_of_insert? run).mpr (Or.inr rfl), rfl, rfl⟩, messageText,
    sealed, rows⟩
  · have there : newMessage session.roomId (env.now 0) .user (opaqueId "msg_" (env.uuid 0)) messageText
        (some session.participantId) ∈ source.messages :=
      congrArg Db.messages same ▸ (Table.mem_of_insert? message).mpr (Or.inr rfl)
    exact fresh _ there rfl
  · obtain ⟨room, member, named⟩ := Db.hasRoom_iff.mp known
    exact Db.hasRoom_iff.mpr ⟨_, Db.mem_setRoomStatus.mpr ⟨room, member, rfl⟩, by split <;> exact named⟩

/-- A free room that exists takes the turn when the store can seal it and its ids are new. -/
theorem insertTurn_of_fresh (known : source.hasRoom session.roomId)
    (unretried : key.isSome → ∀ run ∈ source.runs, run.roomId = session.roomId → run.idempotencyKey ≠ key)
    (free : ∀ run ∈ source.runs, ¬ Db.isActiveIn session.roomId run)
    (writable : store.sealing.ensureWritable = .ok ())
    (newMessageId : ∀ message ∈ source.messages, message.id ≠ opaqueId "msg_" (env.uuid 0))
    (newRunId : ∀ run ∈ source.runs, run.id ≠ opaqueId "run_" (env.uuid 1))
    (passes : env.Passes [5, 6, 7, 8, 9, 10, 11, 12]) :
    ∃ turn target, store.insertTurn env session key text source = .ok turn target := by
  obtain ⟨messageText, messageSealed⟩ := StoreSeal.sealText_isOk_iff.mpr writable
  obtain ⟨inputText, inputSealed⟩ := StoreSeal.sealText_isOk_iff.mpr writable
  obtain ⟨partialText, partialSealed⟩ := StoreSeal.sealText_isOk_iff.mpr writable
  obtain ⟨messages, first⟩ := Table.exists_insert? (newMessage session.roomId (env.now 0) .user
    (opaqueId "msg_" (env.uuid 0)) messageText (some session.participantId)) newMessageId
  obtain ⟨runs, second⟩ := Table.exists_insert? (newRun session.roomId (env.now 0) (opaqueId "run_" (env.uuid 1))
    (opaqueId "req_" (env.uuid 2)) key inputText partialText) newRunId
  have untaken : source.keyTaken session.roomId key = false := by
    simp only [Db.keyTaken, Bool.and_eq_false_iff, List.any_eq_false, Bool.and_eq_true, beq_iff_eq]
    cases some : key.isSome with
    | false => exact Or.inl rfl
    | true => exact Or.inr fun run member both => unretried some run member both.1 both.2
  exact ⟨_, _, insertTurn_ok_iff.mpr ⟨passes, free, rfl, messageText, inputText, partialText, { source with messages },
    { source with messages, runs }, messageSealed, inputSealed, partialSealed,
    Db.insertMessage_eq_some_iff.mpr ⟨known, messages, first, rfl⟩,
    Db.insertRun_eq_some_iff.mpr ⟨⟨known, untaken⟩, runs, second, rfl⟩, rfl⟩⟩

theorem appendTurn_atomic : ¬ Tears source (store.appendTurn env session input) source := by
  have keyed : ReadOnly (validKey input.idempotencyKey) := by
    cases input.idempotencyKey with
    | none => exact .pure _
    | some value => exact (ReadOnly.returnExcept _).map _
  simp only [appendTurn, orInvalid, tears_failIf_bind, tears_returnExcept_bind, keyed.tears_bind_iff, ne_eq,
    not_true_eq_false, and_false, false_or, not_exists, not_and]
  exact fun _ _ _ _ _ => not_tears_transaction _

/-- The transaction of `append_user_turn` commits a change exactly where it inserts a turn. -/
theorem appendTurn_changes_iff : (store.appendTurn env session input source = .ok turn target ∧ target ≠ source) ↔
    ∃ text key, session.role ≠ .viewer ∧ Limits.validatePrompt input.text = .ok text ∧
      input.idempotencyKey.mapM Limits.validateIdempotencyKey = .ok key ∧ env.Passes [0, 1] ∧
      source.IsOpen session.roomId ∧ (key.isSome → env.Passes [2]) ∧
      (key.isSome → ∀ run ∈ source.runs, run.roomId = session.roomId → run.idempotencyKey ≠ key) ∧
      store.insertTurn env session key text source = .ok turn target := by
  simp only [appendTurn, orInvalid, bind_ok_iff, failIf_ok_iff, returnExcept_ok_iff, mapError_eq_ok_iff, validKey_ok_iff,
    transaction_ok_iff, Env.attempt_ok_iff, Env.query_ok_iff, orFail_ok_iff, Db.IsOpen, open_room_iff, Env.passes_cons,
    Env.passes_nil, and_true]
  constructor
  · rintro ⟨⟨_, _, ⟨allowed, rfl⟩, text, _, ⟨valid, rfl⟩, key, _, ⟨keyed, rfl⟩, _, _, ⟨e0, rfl⟩, _, _, ⟨e1, rfl, rfl⟩,
      room, _, ⟨known, rfl⟩, _, _, ⟨opened, rfl⟩, found, _, looked, rest⟩, changed⟩
    cases found with
    | none =>
      obtain ⟨passes, unretried, rfl⟩ := findRetried_eq_none_iff.mp looked
      exact ⟨text, key, allowed, valid, keyed, ⟨e0, e1⟩, ⟨room, known, opened⟩,
        by simpa using passes, unretried, rest⟩
    | some run =>
      have quiet : ReadOnly (store.retryTurn env session text run) :=
        .bind (openCell_readOnly _ _ _) fun _ => .bind (.failIf _ _) fun _ => .bind (env.attempt_readOnly _) fun _ =>
          .pure _
      have looks : ReadOnly (findRetried env session.roomId key) := by
        cases key with
        | none => exact .pure _
        | some key => exact env.query_readOnly _ _
      exact absurd ((looks.of_ok looked).trans (quiet.of_ok rest)).symm changed
  · rintro ⟨text, key, allowed, valid, keyed, ⟨e0, e1⟩, ⟨room, known, opened⟩, passes, unretried, inserted⟩
    exact ⟨⟨(), source, ⟨allowed, rfl⟩, text, source, ⟨valid, rfl⟩, key, source, ⟨keyed, rfl⟩, (), source, ⟨e0, rfl⟩, _,
      source, ⟨e1, rfl, rfl⟩, room, source, ⟨known, rfl⟩, (), source, ⟨opened, rfl⟩, none, source,
      findRetried_eq_none_iff.mpr ⟨by simpa using passes, unretried, rfl⟩, inserted⟩, (insertTurn_spec inserted).1⟩

/-- A snapshot shows the newest messages that open. -/
theorem mem_loadMessages_iff {message : RoomMessage} : message ∈ store.loadMessages source roomId ↔
    ∃ row ∈ newest MessageRow.createdAt MessageRow.id Limits.MAX_HISTORY_MESSAGES
      (source.messages.select (·.roomId == roomId)), ∃ text,
        store.sealing.openText row.text (ctx "room_messages" "text" row.id) = .ok text ∧
        message = ⟨row.id, row.role, text, row.participantId, row.createdAt⟩ := by
  simp only [loadMessages, List.mem_filterMap, List.mem_reverse]
  refine exists_congr fun row => and_congr_right fun _ => ?_
  cases store.sealing.openText row.text (ctx "room_messages" "text" row.id) <;> simp [eq_comm]

/-- A row is counted as later exactly where a new message does not come before it. -/
theorem later_eq_not_comesFirst {row message : MessageRow} :
    (decide (row.createdAt < message.createdAt) ||
      message.createdAt == row.createdAt && decide (row.id < message.id)) =
      !comesFirst MessageRow.createdAt MessageRow.id row message := by
  have ids : (row.id < message.id) ↔ ¬ message.id ≤ row.id := String.not_le.symm
  simp only [comesFirst, Bool.not_or, Bool.not_and, ← decide_not, not_lt, ids]
  rcases lt_trichotomy row.createdAt message.createdAt with before | same | after
  · simp [before, before.le, before.ne']
  · simp [same]
  · simp [after.not_gt, after.ne, after.not_ge]

/-- The message of a new turn is missing from the snapshot after it exactly where enough others come later. -/
theorem acceptedMessage_eq_none_iff (lawful : store.sealing.Lawful)
    (inserted : store.insertTurn env session key text source = .ok turn target) {snapshot : RoomSnapshot}
    (shown : snapshot.messages = store.loadMessages target session.roomId) :
    acceptedMessage turn snapshot = none ↔
      Limits.MAX_HISTORY_MESSAGES ≤ laterMessages source session.roomId (opaqueId "msg_" (env.uuid 0)) (env.now 0) := by
  obtain ⟨-, -, -, messageText, sealed, rows⟩ := insertTurn_spec inserted
  obtain ⟨-, -, rfl, -⟩ := insertTurn_ok_iff.mp inserted
  set row := newMessage session.roomId (env.now 0) .user (opaqueId "msg_" (env.uuid 0)) messageText
    (some session.participantId) with isRow
  have member : row ∈ target.messages := Table.mem_rows.mp (by simp [rows])
  have chosen : row ∈ target.messages.select (·.roomId == session.roomId) :=
    Table.mem_select.mpr ⟨member, by simp [isRow, newMessage]⟩
  have counted : (target.messages.select (·.roomId == session.roomId)).countP
      (fun other => !comesFirst MessageRow.createdAt MessageRow.id row other) =
        laterMessages source session.roomId row.id row.createdAt := by
    rw [Table.select, List.countP_filter, rows, List.countP_append, laterMessages, Table.count]
    simp only [later_eq_not_comesFirst, Bool.and_comm]
    simp [comesFirst]
  have placed := @mem_newest_iff _ MessageRow.createdAt MessageRow.id Limits.MAX_HISTORY_MESSAGES
    (target.messages.select (·.roomId == session.roomId)) row
    (target.messages.keys_nodup.sublist (List.filter_sublist.map _)) chosen
  rw [counted] at placed
  change _ ↔ Limits.MAX_HISTORY_MESSAGES ≤ laterMessages source session.roomId row.id row.createdAt
  rw [← not_lt, ← placed, acceptedMessage, List.find?_eq_none, shown]
  constructor
  · intro none there
    refine none ⟨row.id, row.role, text, row.participantId, row.createdAt⟩ ?_ (by simp [isRow, newMessage])
    exact List.mem_reverse.mpr
      (mem_loadMessages_iff.mpr ⟨row, there, text, StoreSeal.openText_of_sealText lawful sealed, rfl⟩)
  · rintro absent message listed found
    obtain ⟨other, there, _, -, rfl⟩ := mem_loadMessages_iff.mp (List.mem_reverse.mp listed)
    simp only [Bool.and_eq_true, beq_iff_eq, Option.all_some] at found
    have same : other = row := Table.eq_of_key (Table.mem_select.mp (mem_of_mem_newest there)).1 member found.2
    exact absent (same ▸ there)

/-- After a new turn was committed, the rest of the call fails where the snapshot is not read or lacks its message. -/
theorem accepting_fails_iff (lawful : store.sealing.Lawful) (valid : validateRoomId session.roomId = .ok session.roomId)
    (known : source.hasRoom session.roomId) (inserted : store.insertTurn env session key text source = .ok turn target) :
    Fails (store.snapshotOrNotFound env 13 turn.roomId >>= store.acceptTurn env turn) target ↔
      env.Breaks [13, 14, 15, 16] ∨
        Limits.MAX_HISTORY_MESSAGES ≤ laterMessages source session.roomId (opaqueId "msg_" (env.uuid 0)) (env.now 0) := by
  obtain ⟨-, knows, ⟨run, member, owned, running⟩, -⟩ := insertTurn_spec inserted
  obtain ⟨-, -, isTurn, -⟩ := insertTurn_ok_iff.mp inserted
  have named : turn.roomId = session.roomId := isTurn ▸ rfl
  have messaged : turn.messageId = some (opaqueId "msg_" (env.uuid 0)) := isTurn ▸ rfl
  have there := knows _ known
  obtain ⟨snapshot, shown⟩ := Option.isSome_iff_exists.mp (snapshotFrom_isSome_iff.mpr there)
  obtain ⟨room, -, isSnapshot⟩ := Option.map_eq_some_iff.mp shown
  have shownMessages : snapshot.messages = store.loadMessages target session.roomId := isSnapshot ▸ rfl
  have current : (currentRow target session.roomId).isSome := by
    have chosen : run ∈ target.runs.select fun run => run.roomId == session.roomId && run.status.isCurrent :=
      Table.mem_select.mpr ⟨member, by simp [owned, running, RunStatus.isCurrent]⟩
    rw [currentRow, newest, List.head?_take, if_neg one_ne_zero, List.isSome_head?, ← List.length_pos_iff_ne_nil,
      List.length_insertionSort]
    exact List.length_pos_of_mem chosen
  obtain ⟨row, current⟩ := Option.isSome_iff_exists.mp current
  have shownRun : snapshot.currentRun = some (store.openRunOrBlank (rowToRun row)) := by
    rw [← isSnapshot, current]
    rfl
  rw [named, fails_bind_iff, snapshotOrNotFound_fails_iff valid there,
    ← acceptedMessage_eq_none_iff lawful inserted shownMessages]
  simp only [snapshotOrNotFound_eq_ok_iff valid there, shown, Option.some.injEq]
  have accepts : Fails (store.acceptTurn env turn snapshot) target ↔ acceptedMessage turn snapshot = none := by
    simp [acceptTurn, acceptedRun, messaged, shownRun, fails_bind_iff]
  constructor
  · rintro (breaks | ⟨_, _, ⟨-, rfl, rfl⟩, fails⟩)
    · exact Or.inl breaks
    · exact Or.inr (accepts.mp fails)
  · rintro (breaks | missing)
    · exact Or.inl breaks
    · by_cases breaks : env.Breaks [13, 14, 15, 16]
      · exact Or.inl breaks
      · exact Or.inr ⟨snapshot, target, ⟨Env.not_breaks_iff.mp breaks, rfl, rfl⟩, accepts.mpr missing⟩

theorem appendUserTurn_tears_iff (lawful : store.sealing.Lawful) (rooted : source.Rooted) :
    Tears source (store.appendUserTurn env session input) source ↔
      ∃ text key, TornTurn store env source session input text key := by
  rw [appendUserTurn, tears_bind_readOnly_iff appendTurn_atomic fun _ =>
    .bind (snapshotOrNotFound_readOnly _ _) fun _ => acceptTurn_readOnly _ _]
  have owner (opened : source.IsOpen session.roomId) :
      source.hasRoom session.roomId ∧ validateRoomId session.roomId = .ok session.roomId := by
    obtain ⟨room, member, named, -⟩ := opened
    exact ⟨Db.hasRoom_iff.mpr ⟨room, member, named⟩, named ▸ rooted.rooms room member⟩
  constructor
  · rintro ⟨turn, target, commits, changed, fails⟩
    obtain ⟨text, key, allowed, valid, keyed, first, opened, looked, unretried, inserted⟩ :=
      appendTurn_changes_iff.mp ⟨commits, changed⟩
    obtain ⟨known, validId⟩ := owner opened
    have ends := (accepting_fails_iff lawful validId known inserted).mp fails
    obtain ⟨passes, free, rfl, messageText, inputText, partialText, messaged, ran, sealed, -, -, message, run, -⟩ :=
      insertTurn_ok_iff.mp inserted
    obtain ⟨-, messages, added, rfl⟩ := Db.insertMessage_eq_some_iff.mp message
    obtain ⟨-, runs, started, rfl⟩ := Db.insertRun_eq_some_iff.mp run
    have newMessageId := (Table.insert?_eq_some_iff.mp added).1
    have newRunId := (Table.insert?_eq_some_iff.mp started).1
    refine ⟨text, key, allowed, valid, keyed, opened, unretried, free, StoreSeal.sealText_isOk_iff.mp ⟨_, sealed⟩,
      newMessageId, newRunId, ?_, looked, ends⟩
    simp only [Env.passes_cons, Env.passes_nil, and_true] at first passes ⊢
    exact ⟨first.1, first.2, passes⟩
  · rintro ⟨text, key, allowed, valid, keyed, opened, unretried, free, writable, message, run, passes, looked, ends⟩
    obtain ⟨known, validId⟩ := owner opened
    simp only [Env.passes_cons, Env.passes_nil, and_true] at passes
    obtain ⟨turn, target, inserted⟩ : ∃ turn target, store.insertTurn env session key text source = .ok turn target :=
      insertTurn_of_fresh known unretried free writable message run (by simp [passes])
    obtain ⟨commits, changed⟩ := appendTurn_changes_iff.mpr ⟨text, key, allowed, valid, keyed, by simp [passes], opened,
      looked, unretried, inserted⟩
    exact ⟨turn, target, commits, changed, (accepting_fails_iff lawful validId known inserted).mpr ends⟩

end Turns

end RoomStore

end RyuRooms
