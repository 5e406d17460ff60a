import RyuRooms.Store.Answers

/-! # What an inserting call returns

`append_user_turn` commits a new turn, releases its connection, and reads a snapshot afterwards. It takes
the snapshot's current run for its own, so it returns the turn it inserted exactly where its run is still
the newest current one and its message still among the newest of the room. Other calls between the commit
and the snapshot, or a clock that moved back, can put another run there or none.
-/

namespace RyuRooms

open Foundation

/-- No change takes a room away. -/
theorem Change.hasRoom {source target : Db} {roomId : String} (change : Change source target)
    (known : source.hasRoom roomId) : target.hasRoom roomId := by
  rw [Db.hasRoom_iff] at known ⊢
  cases change with
  | ran change => exact change.room_id_iff.mpr known
  | created valid first second third =>
    obtain ⟨rooms, inserted, rfl⟩ := Db.insertRoom_eq_some_iff.mp first
    obtain ⟨-, _, -, rfl⟩ := Db.insertInvite_eq_some_iff.mp second
    obtain ⟨-, _, -, rfl⟩ := Db.insertParticipant_eq_some_iff.mp third
    obtain ⟨room, member, named⟩ := known
    exact ⟨room, (Table.mem_of_insert? inserted).mpr (Or.inl member), named⟩
  | joined admits first second =>
    obtain ⟨-, _, -, rfl⟩ := Db.insertParticipant_eq_some_iff.mp first
    obtain ⟨-, _, -, rfl⟩ := Db.insertSession_eq_some_iff.mp second
    exact known
  | rotated opened => exact known
  | revoked => exact known
  | closed =>
    obtain ⟨room, member, named⟩ := known
    refine ⟨_, Db.mem_closed_rooms.mpr ⟨room, member, rfl⟩, ?_⟩
    split <;> exact named

theorem hasRoom_of_path {crates : Crates} {events : List Event} {source target : Db} {roomId : String}
    (path : (storeMachine crates).Path source events target) (known : source.hasRoom roomId) : target.hasRoom roomId := by
  refine path.invariant (fun db => db.hasRoom roomId) known ?_
  intro db event next there step
  exact (Event.change step).hasRoom there

namespace RoomStore

/-- The rest of `append_user_turn`, after its transaction. -/
def answerTurn (store : RoomStore) (env : Env) (turn : AppendedTurn) : StoreM AcceptedRun := do
  let snapshot ← store.snapshotOrNotFound env 13 turn.roomId
  store.acceptTurn env turn snapshot

theorem appendUserTurn_eq (store : RoomStore) (env : Env) (session : RoomSession) (input : SubmitTurnInput) :
    store.appendUserTurn env session input = store.appendTurn env session input >>= store.answerTurn env := rfl

/-- The message that an inserting call adds, as a snapshot shows it. -/
def insertedMessage (draws : Draws) (session : RoomSession) (turn : AppendedTurn) : RoomMessage :=
  ⟨draws.newMessageId, .user, turn.text, some session.participantId, draws.now 0⟩

/-- The rest of an inserting call returns the run and the message it inserted. -/
def ReturnsInserted (store : RoomStore) (draws : Draws) (session : RoomSession) (turn : AppendedTurn) (later : Db) :
    Prop :=
  ∃ accepted, store.answerTurn draws.env turn later = .ok accepted later ∧ accepted.run.runId = draws.newRunId ∧
    accepted.run.requestId = draws.newRequestId ∧ accepted.userMessage = insertedMessage draws session turn

/-- What has become of an inserted turn leaves it the newest of its room: its run has neither completed nor
been canceled and no other current run comes before it, and fewer messages than a snapshot holds come after
its own. -/
structure StillNewest (store : RoomStore) (draws : Draws) (session : RoomSession) (turn : AppendedTurn) (later : Db) :
    Prop where
  run : ∃ run ∈ later.runs, run.id = draws.newRunId ∧ run.requestId = draws.newRequestId ∧
    run.roomId = session.roomId ∧ run.status.isCurrent ∧ ∀ other ∈ later.runs, other.roomId = session.roomId →
      other.status.isCurrent → comesFirst RunRow.createdAt RunRow.id run other
  message : ∃ message ∈ later.messages, message.roomId = session.roomId ∧ store.sealing.openText message.text
      (ctx "room_messages" "text" message.id) = .ok turn.text ∧
    insertedMessage draws session turn = ⟨message.id, message.role, turn.text, message.participantId, message.createdAt⟩ ∧
    laterMessages later session.roomId message.id message.createdAt < Limits.MAX_HISTORY_MESSAGES

variable {store : RoomStore} {draws : Draws} {source target later : Db} {roomId : String}

section Reads

/-- The current run of a room comes before every other queued, running or failed run of it. -/
theorem currentRow_eq_some_iff {run : RunRow} : currentRow source roomId = some run ↔
    run ∈ source.runs ∧ run.roomId = roomId ∧ run.status.isCurrent ∧ ∀ other ∈ source.runs, other.roomId = roomId →
      other.status.isCurrent → comesFirst RunRow.createdAt RunRow.id run other := by
  have distinct : ((source.runs.select fun run => run.roomId == roomId && run.status.isCurrent).map RunRow.id).Nodup :=
    source.runs.keys_nodup.sublist (List.filter_sublist.map _)
  rw [currentRow, head?_newest_eq_some_iff distinct]
  simp only [Table.mem_select, Bool.and_eq_true, beq_iff_eq, and_imp, and_assoc]

/-- A snapshot reads the message rows that fewer than its limit come after. -/
theorem mem_newest_messages_iff {row : MessageRow} :
    row ∈ newest MessageRow.createdAt MessageRow.id Limits.MAX_HISTORY_MESSAGES
        (source.messages.select (·.roomId == roomId)) ↔
      row ∈ source.messages ∧ row.roomId = roomId ∧
        laterMessages source roomId row.id row.createdAt < Limits.MAX_HISTORY_MESSAGES := by
  have counted : (source.messages.select (·.roomId == roomId)).countP
      (fun other => !comesFirst MessageRow.createdAt MessageRow.id row other) =
        laterMessages source roomId row.id row.createdAt := by
    rw [Table.select, List.countP_filter, laterMessages, Table.count]
    simp only [later_eq_not_comesFirst, Bool.and_comm]
  have distinct : ((source.messages.select (·.roomId == roomId)).map MessageRow.id).Nodup :=
    source.messages.keys_nodup.sublist (List.filter_sublist.map _)
  constructor
  · intro shown
    have chosen := mem_of_mem_newest shown
    rw [mem_newest_iff distinct chosen, counted] at shown
    obtain ⟨member, owned⟩ := Table.mem_select.mp chosen
    exact ⟨member, eq_of_beq owned, shown⟩
  · rintro ⟨member, owned, few⟩
    have chosen : row ∈ source.messages.select (·.roomId == roomId) :=
      Table.mem_select.mpr ⟨member, beq_iff_eq.mpr owned⟩
    rwa [mem_newest_iff distinct chosen, counted]

/-- Opening a run leaves its ids alone. -/
theorem openRunOrBlank_ids (run : RoomRun) :
    (store.openRunOrBlank run).runId = run.runId ∧ (store.openRunOrBlank run).requestId = run.requestId := by
  simp only [openRunOrBlank]
  split
  · next opened opens =>
    simp only [openRun, bind, Except.bind] at opens
    split at opens
    · cases opens
    · split at opens
      · cases opens
      · obtain rfl := Except.ok.inj opens
        exact ⟨rfl, rfl⟩
  · exact ⟨rfl, rfl⟩

/-- A snapshot shows a message once. -/
theorem eq_of_mem_loadMessages {left right : RoomMessage} (leftMem : left ∈ store.loadMessages source roomId)
    (rightMem : right ∈ store.loadMessages source roomId) (same : left.id = right.id) : left = right := by
  obtain ⟨first, firstMem, _, opened, rfl⟩ := mem_loadMessages_iff.mp leftMem
  obtain ⟨second, secondMem, _, other, rfl⟩ := mem_loadMessages_iff.mp rightMem
  obtain rfl : first = second := Table.eq_of_key (Table.mem_select.mp (mem_of_mem_newest firstMem)).1
    (Table.mem_select.mp (mem_of_mem_newest secondMem)).1 same
  obtain rfl := Except.ok.inj (opened.symm.trans other)
  rfl

end Reads

variable {session : RoomSession} {input : SubmitTurnInput} {turn : AppendedTurn}

/-- What the rest of an inserting call returns is the snapshot's current run and the message it finds. -/
theorem answerTurn_ok_iff {accepted : AcceptedRun} (valid : validateRoomId turn.roomId = .ok turn.roomId)
    (inserted : turn.messageId.isSome) : store.answerTurn draws.env turn source = .ok accepted target ↔
      source = target ∧ ∃ snapshot, store.snapshotFrom source turn.roomId = some snapshot ∧
        snapshot.currentRun = some accepted.run ∧ acceptedMessage turn snapshot = some accepted.userMessage ∧
        accepted.snapshot = snapshot := by
  obtain ⟨messageId, messaged⟩ := Option.isSome_iff_exists.mp inserted
  simp only [answerTurn, acceptTurn, acceptedRun, messaged, bind_ok_iff, snapshotOrNotFound_ok_iff, valid, orFail_ok_iff,
    pure_ok_iff, Except.ok.injEq]
  constructor
  · rintro ⟨snapshot, _, ⟨_, rfl, shown, rfl⟩, run, _, ⟨current, rfl⟩, message, _, ⟨found, rfl⟩, rfl, rfl⟩
    exact ⟨rfl, snapshot, shown, current, found, rfl⟩
  · rintro ⟨rfl, snapshot, shown, current, found, rfl⟩
    exact ⟨accepted.snapshot, source, ⟨_, rfl, shown, rfl⟩, _, source, ⟨current, rfl⟩, _, source, ⟨found, rfl⟩, rfl, rfl⟩

/-- The inserted message is found exactly where the snapshot shows it. -/
theorem acceptedMessage_eq_inserted_iff {snapshot : RoomSnapshot} (messaged : turn.messageId = some draws.newMessageId)
    (shown : snapshot.messages = store.loadMessages source roomId) :
    acceptedMessage turn snapshot = some (insertedMessage draws session turn) ↔
      insertedMessage draws session turn ∈ store.loadMessages source roomId := by
  rw [acceptedMessage, messaged, shown]
  constructor
  · intro found
    exact List.mem_reverse.mp (List.mem_of_find?_eq_some found)
  · intro listed
    cases found : (store.loadMessages source roomId).reverse.find? _ with
    | none =>
      have missed := List.find?_eq_none.mp found _ (List.mem_reverse.mpr listed)
      simp [insertedMessage] at missed
    | some other =>
      have named := List.find?_some found
      simp only [Option.all_some, Bool.and_eq_true, beq_iff_eq] at named
      have there := List.mem_reverse.mp (List.mem_of_find?_eq_some found)
      rw [eq_of_mem_loadMessages there listed named.2]

/-- An inserting call has the ids it drew, and leaves its room in place. -/
theorem appendTurn_inserted (committed : store.appendTurn draws.env session input source = .ok turn target)
    (inserted : turn.messageId.isSome) (rooted : source.Rooted) :
    turn.roomId = session.roomId ∧ turn.messageId = some draws.newMessageId ∧
      validateRoomId session.roomId = .ok session.roomId ∧ target.hasRoom session.roomId := by
  obtain ⟨⟨-, room, member, named, -⟩, ⟨retried, -⟩ | ⟨key, text, insertion⟩⟩ := appendTurn_ok committed
  · simp [retried] at inserted
  · obtain ⟨-, keeps, -, -⟩ := insertTurn_spec insertion
    obtain ⟨_, _, _, _, _, rfl, -⟩ := insertTurn_ok insertion
    exact ⟨rfl, rfl, named ▸ rooted.rooms room member, keeps _ (Db.hasRoom_iff.mpr ⟨room, member, named⟩)⟩

/-- Of every reachable store, an inserting call returns its turn exactly where it still is the newest. -/
theorem returnsInserted_iff {crates : Crates} {past between : List Event} (run : (storeMachine crates).Run past source)
    (committed : store.appendTurn draws.env session input source = .ok turn target) (inserted : turn.messageId.isSome)
    (gap : (storeMachine crates).Path target between later) :
    store.ReturnsInserted draws session turn later ↔ store.StillNewest draws session turn later := by
  obtain ⟨owned, messaged, valid, known⟩ := appendTurn_inserted committed inserted (.of_history run)
  obtain ⟨snapshot, shown⟩ := Option.isSome_iff_exists.mp (snapshotFrom_isSome_iff.mpr (hasRoom_of_path gap known))
  obtain ⟨room, -, isSnapshot⟩ := Option.map_eq_some_iff.mp shown
  have messages : snapshot.messages = store.loadMessages later session.roomId := isSnapshot ▸ rfl
  have current : snapshot.currentRun = (currentRow later session.roomId).map fun row =>
      store.openRunOrBlank (rowToRun row) := isSnapshot ▸ rfl
  simp only [ReturnsInserted, answerTurn_ok_iff (owned.symm ▸ valid) inserted, owned, shown, true_and,
    Option.some.injEq]
  constructor
  · rintro ⟨accepted, ⟨_, rfl, isRun, found, -⟩, runId, requestId, isMessage⟩
    rw [isMessage, acceptedMessage_eq_inserted_iff messaged messages, mem_loadMessages_iff] at found
    obtain ⟨message, listed, text, opened, same⟩ := found
    obtain rfl : turn.text = text := congrArg RoomMessage.text same
    obtain ⟨member, inRoom, few⟩ := mem_newest_messages_iff.mp listed
    rw [current, Option.map_eq_some_iff] at isRun
    obtain ⟨row, first, opens⟩ := isRun
    obtain ⟨there, inRoom', alive, precedes⟩ := currentRow_eq_some_iff.mp first
    obtain ⟨sameId, sameRequest⟩ := @openRunOrBlank_ids store (rowToRun row)
    rw [← opens, sameId] at runId
    rw [← opens, sameRequest] at requestId
    exact ⟨⟨row, there, runId, requestId, inRoom', alive, precedes⟩, message, member, inRoom, opened, same, few⟩
  · rintro ⟨⟨row, there, runId, requestId, inRoom', alive, precedes⟩, message, member, inRoom, opened, same, few⟩
    have listed := mem_newest_messages_iff.mpr ⟨member, inRoom, few⟩
    obtain ⟨sameId, sameRequest⟩ := @openRunOrBlank_ids store (rowToRun row)
    refine ⟨⟨_, insertedMessage draws session turn, snapshot⟩, ⟨snapshot, rfl, ?_, ?_, rfl⟩, sameId.trans runId,
      sameRequest.trans requestId, rfl⟩
    · rw [current, currentRow_eq_some_iff.mpr ⟨there, inRoom', alive, precedes⟩]
      rfl
    · rw [acceptedMessage_eq_inserted_iff messaged messages, mem_loadMessages_iff]
      exact ⟨message, listed, turn.text, opened, same⟩

/-- Where nothing happens in between and the clock is ahead of the room's rows, the turn is still the newest. -/
theorem stillNewest_of_ahead (lawful : store.sealing.Lawful)
    (committed : store.appendTurn draws.env session input source = .ok turn target) (inserted : turn.messageId.isSome)
    (runs : ∀ run ∈ source.runs, run.roomId = session.roomId → run.createdAt < draws.now 0)
    (messages : ∀ message ∈ source.messages, message.roomId = session.roomId → message.createdAt < draws.now 0) :
    store.StillNewest draws session turn target := by
  obtain ⟨-, ⟨retried, -⟩ | ⟨key, text, insertion⟩⟩ := appendTurn_ok committed
  · simp [retried] at inserted
  obtain ⟨-, -, rfl, cell, _, _, messaged, ran, sealed, -, -, first, second, rfl⟩ := insertTurn_ok_iff.mp insertion
  obtain ⟨-, messageRows, added, rfl⟩ := Db.insertMessage_eq_some_iff.mp first
  obtain ⟨-, runRows, started, rfl⟩ := Db.insertRun_eq_some_iff.mp second
  refine ⟨⟨_, (Table.mem_of_insert? started).mpr (Or.inr rfl), rfl, rfl, rfl, rfl, ?_⟩, _,
    (Table.mem_of_insert? added).mpr (Or.inr rfl), rfl, StoreSeal.openText_of_sealText lawful sealed, rfl, ?_⟩
  · intro other member owned current
    rcases (Table.mem_of_insert? started).mp member with there | rfl
    · have before := runs other there owned
      simp [comesFirst, newRun, before]
    · simp [comesFirst]
  · have none : messageRows.count (fun message => message.roomId == session.roomId &&
        (decide (draws.now 0 < message.createdAt) ||
          message.createdAt == draws.now 0 && decide (draws.newMessageId < message.id))) = 0 := by
      rw [Table.count_eq_zero]
      intro message member
      rcases (Table.mem_of_insert? added).mp member with there | rfl
      · by_cases owned : message.roomId = session.roomId
        · have before := messages message there owned
          simp [before.asymm, before.ne]
        · simp [owned]
      · simp [newMessage]
    exact lt_of_eq_of_lt none (Nat.zero_lt_succ _)

end RoomStore

namespace Sample

/-- The sample room, with no turn yet. -/
def opened : List Call := [⟨.compat, draws 1 10, false, .createRoom ⟨"llama", origin⟩⟩]

/-- A first turn fails in the sample room. -/
def failed : List Call :=
  firstTurn ++ [⟨.compat, draws 21 30, false, .finishRun (opaqueId "room_" (.ofNat 1)) (opaqueId "run_" (.ofNat 12))
    ⟨.failed, none, none⟩ (Or.inr rfl)⟩]

/-- The host stops the run that a turn just inserted. -/
def stopsLate : List Call :=
  [⟨.compat, draws 41 50, false, .stopRun (opaqueId "room_" (.ofNat 1)) (opaqueId "run_" (.ofNat 32))⟩]

end Sample

/-- After a failed turn, one that a clock gone back dates before it is answered with the failed run; a turn that
is stopped before its snapshot is read is not found. -/
theorem RoomStore.not_returnsInserted_sample :
    (∃ turn target, Sample.store.appendTurn (Sample.draws 31 15).env Sample.host ⟨"again", none⟩
        (history Sample.crates Sample.failed .empty).2 = .ok turn target ∧ turn.messageId.isSome ∧
      ((outcome (Sample.store.answerTurn (Sample.draws 31 15).env turn) target).1.toOption.map (·.run.runId) =
          some (opaqueId "run_" (.ofNat 12)) ∧
        ¬ Sample.store.ReturnsInserted (Sample.draws 31 15) Sample.host turn target)) ∧
    ∃ turn target, Sample.store.appendTurn (Sample.draws 31 40).env Sample.host ⟨"again", none⟩
        (history Sample.crates Sample.opened .empty).2 = .ok turn target ∧ turn.messageId.isSome ∧
      ((outcome (Sample.store.answerTurn (Sample.draws 31 40).env turn)
          (history Sample.crates Sample.stopsLate target).2).1 = .error .notFound ∧
        ¬ Sample.store.ReturnsInserted (Sample.draws 31 40) Sample.host turn
          (history Sample.crates Sample.stopsLate target).2) := by
  have refused {draws : Draws} {turn : AppendedTurn} {later : Db}
      (other : (outcome (Sample.store.answerTurn draws.env turn) later).1.toOption.map (·.run.runId) ≠
        some draws.newRunId) : ¬ Sample.store.ReturnsInserted draws Sample.host turn later := by
    rintro ⟨accepted, answered, runId, -⟩
    rw [outcome_ok_iff.mpr answered] at other
    exact other (congrArg some runId)
  constructor
  · obtain ⟨turn, target, committed, inserted, answered⟩ := @exists_ok_of_check _ _ _
      (Sample.store.appendTurn (Sample.draws 31 15).env Sample.host ⟨"again", none⟩)
      (history Sample.crates Sample.failed .empty).2
      (fun turn target => turn.messageId.isSome ∧
        (outcome (Sample.store.answerTurn (Sample.draws 31 15).env turn) target).1.toOption.map (·.run.runId) =
          some (opaqueId "run_" (.ofNat 12))) _ (by decide +kernel)
    exact ⟨turn, target, committed, inserted, answered, refused (by rw [answered]; decide +kernel)⟩
  · obtain ⟨turn, target, committed, inserted, answered⟩ := @exists_ok_of_check _ _ _
      (Sample.store.appendTurn (Sample.draws 31 40).env Sample.host ⟨"again", none⟩)
      (history Sample.crates Sample.opened .empty).2
      (fun turn target => turn.messageId.isSome ∧
        (outcome (Sample.store.answerTurn (Sample.draws 31 40).env turn)
          (history Sample.crates Sample.stopsLate target).2).1 = .error .notFound) _ (by decide +kernel)
    exact ⟨turn, target, committed, inserted, answered, refused (by rw [answered]; nofun)⟩

/-- A first turn in the sample room, with a delta before its snapshot, returns its run. -/
theorem RoomStore.returnsInserted_iff_opened :
    let between := [(⟨.compat, Sample.draws 41 50, false, .appendDelta (opaqueId "room_" (.ofNat 1))
      (opaqueId "run_" (.ofNat 32)) "Hi"⟩ : Call)]
    ∃ turn target, Sample.store.appendTurn (Sample.draws 31 40).env Sample.host ⟨"again", none⟩
        (history Sample.crates Sample.opened .empty).2 = .ok turn target ∧
      (Sample.store.ReturnsInserted (Sample.draws 31 40) Sample.host turn (history Sample.crates between target).2 ↔
        Sample.store.StillNewest (Sample.draws 31 40) Sample.host turn (history Sample.crates between target).2) := by
  intro between
  obtain ⟨turn, target, committed, inserted⟩ := @exists_ok_of_check _ _ _
    (Sample.store.appendTurn (Sample.draws 31 40).env Sample.host ⟨"again", none⟩)
    (history Sample.crates Sample.opened .empty).2 (fun turn _ => turn.messageId.isSome) _ (by decide +kernel)
  exact ⟨turn, target, committed, RoomStore.returnsInserted_iff (run_history Sample.crates Sample.opened) committed
    inserted (path_history Sample.crates between target)⟩

end RyuRooms
