import RyuRooms.Foundation.Ordered
import RyuRooms.Store.Accepted
import RyuRooms.Store.Rowwise
import RyuRooms.Store.Turns

/-! # Retrying an accepted turn

A retry finds its run by the idempotency key, compares the opened input, and returns the run by its id. The
message it returns is looked up by its text: the newest user message of the snapshot with that text. So a
retry returns the accepted turn for as long as its message is among the newest of the room and no later one
has the same text, and a retry with another text is a conflict for as long as the run is retained.
-/

namespace RyuRooms

open Foundation

/-- One store opens what another seals. -/
def StoreSeal.Reads (reader writer : StoreSeal) : Prop :=
  ∀ nonce value context cell, writer.sealText nonce value context = .ok cell → reader.openText cell context = .ok value

theorem StoreSeal.Lawful.reads {storeSeal : StoreSeal} (lawful : storeSeal.Lawful) : storeSeal.Reads storeSeal :=
  fun _ _ _ _ => openText_of_sealText lawful

/-- The store machine for as long as it retains a run. -/
def retaining (crates : Crates) (runId : String) : Machine Db Event :=
  (storeMachine crates).guard fun db _ => 0 < db.runs.count (·.id == runId)

namespace RoomStore

/-- With the key and the text of an accepted turn, every later call returns its run and its message. -/
def AnswersRetries (store : RoomStore) (draws : Draws) (session : RoomSession) (turn : AppendedTurn) (key : String)
    (later : Db) : Prop :=
  ∀ (again : Draws) (caller : RoomSession) (retry : SubmitTurnInput), caller.roomId = session.roomId →
    caller.role ≠ .viewer → Limits.validatePrompt retry.text = .ok turn.text →
    retry.idempotencyKey.mapM Limits.validateIdempotencyKey = .ok (some key) →
    ∃ accepted, store.appendUserTurn again.env caller retry later = .ok accepted later ∧
      accepted.run.runId = draws.newRunId ∧ accepted.userMessage = insertedMessage draws session turn

/-- With the key of an accepted turn and another text, every later call is a conflict. -/
def RefusesOthers (store : RoomStore) (session : RoomSession) (turn : AppendedTurn) (key : String) (later : Db) : Prop :=
  ∀ (again : Draws) (caller : RoomSession) (retry : SubmitTurnInput) (text : String), caller.roomId = session.roomId →
    caller.role ≠ .viewer → Limits.validatePrompt retry.text = .ok text → text ≠ turn.text →
    retry.idempotencyKey.mapM Limits.validateIdempotencyKey = .ok (some key) →
    store.appendUserTurn again.env caller retry later = .error .conflict later

/-- The message of an accepted turn is retained among the newest of its room, and no later user message of the
room has its text. -/
def StillLatest (store : RoomStore) (draws : Draws) (session : RoomSession) (turn : AppendedTurn) (later : Db) : Prop :=
  ∃ message ∈ later.messages, message.roomId = session.roomId ∧ store.sealing.openText message.text
      (ctx "room_messages" "text" message.id) = .ok turn.text ∧
    insertedMessage draws session turn = ⟨message.id, message.role, turn.text, message.participantId, message.createdAt⟩ ∧
    laterMessages later session.roomId message.id message.createdAt < Limits.MAX_HISTORY_MESSAGES ∧
    ∀ other ∈ later.messages, other.roomId = session.roomId → other.role = .user →
      store.sealing.openText other.text (ctx "room_messages" "text" other.id) = .ok turn.text →
      comesFirst MessageRow.createdAt MessageRow.id message other

variable {store : RoomStore} {draws : Draws} {source target later : Db} {roomId runId : String}

section Messages

/-- The messages of a snapshot, from the newest on, stand in their order and have ids of their own. -/
theorem loadMessages_ordered : ((store.loadMessages source roomId).reverse.map RoomMessage.id).Nodup ∧
    (store.loadMessages source roomId).reverse.Pairwise fun left right =>
      comesFirst RoomMessage.createdAt RoomMessage.id left right := by
  have distinct : ((newest MessageRow.createdAt MessageRow.id Limits.MAX_HISTORY_MESSAGES
      (source.messages.select (·.roomId == roomId))).map MessageRow.id).Nodup := by
    refine List.Nodup.sublist ((List.take_sublist _ _).map _) ?_
    refine ((List.perm_insertionSort _ _).map MessageRow.id).nodup_iff.mpr ?_
    exact source.messages.keys_nodup.sublist (List.filter_sublist.map _)
  rw [loadMessages, ← List.filterMap_reverse, List.reverse_reverse]
  constructor
  · refine List.pairwise_map.mpr (List.pairwise_filterMap.mpr ((List.pairwise_map.mp distinct).imp ?_))
    intro left right apart first opens second follows same
    split at opens <;> cases opens
    split at follows <;> cases follows
    exact apart same
  · refine List.pairwise_filterMap.mpr (pairwise_newest.imp ?_)
    intro left right before first opens second follows
    split at opens <;> cases opens
    split at follows <;> cases follows
    exact before

/-- A retry finds the newest user message of the snapshot with its text. -/
theorem acceptedMessage_eq_some_iff {turn : AppendedTurn} {snapshot : RoomSnapshot} {message : RoomMessage}
    (retried : turn.messageId = none) (shown : snapshot.messages = store.loadMessages source roomId) :
    acceptedMessage turn snapshot = some message ↔ message ∈ store.loadMessages source roomId ∧
      (message.role = .user ∧ message.text = turn.text) ∧ ∀ other ∈ store.loadMessages source roomId,
        other.role = .user → other.text = turn.text → comesFirst RoomMessage.createdAt RoomMessage.id message other := by
  obtain ⟨distinct, ordered⟩ := @loadMessages_ordered store source roomId
  rw [acceptedMessage, retried, shown, find?_eq_some_iff_of_ordered distinct ordered]
  simp only [List.mem_reverse, Option.all_none, Bool.and_true, Bool.and_eq_true, beq_iff_eq, and_imp]

/-- A retry finds the message of the accepted turn exactly where it is still the latest with its text. -/
theorem acceptedMessage_eq_latest_iff {session : RoomSession} {turn : AppendedTurn} {snapshot : RoomSnapshot}
    (retry : AppendedTurn) (retried : retry.messageId = none) (sameText : retry.text = turn.text)
    (shown : snapshot.messages = store.loadMessages later session.roomId) :
    acceptedMessage retry snapshot = some (insertedMessage draws session turn) ↔
      store.StillLatest draws session turn later := by
  rw [acceptedMessage_eq_some_iff retried shown, sameText, mem_loadMessages_iff]
  constructor
  · rintro ⟨⟨row, listed, text, opened, same⟩, -, first⟩
    obtain rfl : turn.text = text := congrArg RoomMessage.text same
    obtain ⟨member, inRoom, few⟩ := mem_newest_messages_iff.mp listed
    refine ⟨row, member, inRoom, opened, same, few, fun other there owned user speaks => ?_⟩
    by_cases near : other ∈ newest MessageRow.createdAt MessageRow.id Limits.MAX_HISTORY_MESSAGES
        (later.messages.select (·.roomId == session.roomId))
    · have before := first ⟨other.id, other.role, turn.text, other.participantId, other.createdAt⟩
        (mem_loadMessages_iff.mpr ⟨other, near, _, speaks, rfl⟩) user rfl
      rw [same] at before
      exact before
    · by_contra after
      have precedes := (comesFirst_total row other).resolve_left after
      have chosen : other ∈ later.messages.select (·.roomId == session.roomId) :=
        Table.mem_select.mpr ⟨there, beq_iff_eq.mpr owned⟩
      exact near (mem_newest_of_comesFirst (later.messages.keys_nodup.sublist (List.filter_sublist.map _)) chosen precedes
        listed)
  · rintro ⟨row, member, inRoom, opened, same, few, first⟩
    refine ⟨⟨row, mem_newest_messages_iff.mpr ⟨member, inRoom, few⟩, _, opened, same⟩, ⟨rfl, rfl⟩, ?_⟩
    intro other there user speaks
    obtain ⟨near, listed, text, opens, rfl⟩ := mem_loadMessages_iff.mp there
    obtain ⟨nearMem, owned, -⟩ := mem_newest_messages_iff.mp listed
    rw [same]
    exact first near nearMem owned user (speaks ▸ opens)

end Messages

theorem messages_of_snapshotFrom {snapshot : RoomSnapshot} (shown : store.snapshotFrom source roomId = some snapshot) :
    snapshot.messages = store.loadMessages source roomId := by
  obtain ⟨room, -, rfl⟩ := Option.map_eq_some_iff.mp shown
  rfl

section Retained

/-- The texts of a run open for a store. -/
def Opens (store : RoomStore) (row : RunRow) : Prop :=
  (∃ text, store.sealing.openText row.partialText (ctx "room_runs" "partial_text" row.id) = .ok text) ∧
    ∃ message, store.sealing.openOpt row.errorMessage (ctx "room_runs" "error_message" row.id) = .ok message

theorem opens_iff {row : RunRow} : store.Opens row ↔ ∃ run, store.openRun (rowToRun row) = .ok run := by
  simp only [Opens, openRun, rowToRun, bind, Except.bind]
  cases store.sealing.openText row.partialText (ctx "room_runs" "partial_text" row.id) <;>
    cases store.sealing.openOpt row.errorMessage (ctx "room_runs" "error_message" row.id) <;> simp [pure, Except.pure]

/-- The property that the texts of one run open. -/
def runOpens (store : RoomStore) (runId : String) : RowInv where
  room _ := True
  message _ := True
  run row := row.id = runId → store.Opens row
  participant _ := True

theorem runOpens_stable : (store.runOpens runId).Stable := ⟨fun _ _ _ _ => trivial, fun _ _ _ => trivial⟩

/-- What a call writes into a run opens for a store that opens what the call seals. -/
theorem runOpens_allows {sealing : StoreSeal} {crates : Crates} {env : Env} (reads : store.sealing.Reads sealing) (op : Op) :
    (store.runOpens runId).Allows ⟨crates, sealing⟩ env op := by
  have ends {id : String} {message : Option String}
      (opened : ∃ text, store.sealing.openOpt message (ctx "room_runs" "error_message" id) = .ok text) :
      (store.runOpens runId).EndsWith id message := by
    rintro run status code finished held rfl named
    exact ⟨(held named).1, opened⟩
  have sealed {nonce : Nonce} {value cell id : String}
      (seals : sealing.sealText nonce value (ctx "room_runs" "error_message" id) = .ok cell) :
      (store.runOpens runId).EndsWith id (some cell) := by
    refine ends ⟨some value, ?_⟩
    rw [StoreSeal.openOpt, reads _ _ _ _ seals]
    rfl
  cases op with
  | createRoom input => exact ⟨fun _ _ _ => trivial, fun _ _ => trivial⟩
  | exchangeInvite raw displayName => exact fun _ _ _ _ _ => trivial
  | issueInvite | revokeInvite | closeRoom => trivial
  | appendUserTurn session input =>
    refine fun text _ => ⟨fun _ _ => trivial, fun key inputText partialText _ empty _ => ?_⟩
    exact ⟨⟨"", reads _ _ _ _ empty⟩, none, rfl⟩
  | appendDelta roomId id delta =>
    rintro found run text cell - - - - - seals held rfl named
    exact ⟨⟨_, reads _ _ _ _ seals⟩, (held named).2⟩
  | finishRun roomId id terminal finishes =>
    exact ⟨fun _ _ _ _ _ _ _ _ _ _ => trivial, fun _ => ends ⟨none, rfl⟩, fun _ _ _ seals => sealed seals⟩
  | stopRun roomId id => exact fun cell seals => sealed seals
  | recoverRunning => exact fun id => ⟨fun _ => ends ⟨none, rfl⟩, fun _ _ seals => sealed seals⟩

/-- What holds of a run from its insertion on, in a store that retains it. -/
structure Retains (store : RoomStore) (inserted : RunRow) (db : Db) : Prop where
  turn : ∀ row ∈ db.runs, row.id = inserted.id → row.turn = inserted.turn
  opens : db.Every (store.runOpens inserted.id)

theorem Retains.of_path {crates : Crates} {inserted : RunRow} {between : List Event}
    (start : store.Retains inserted target) (path : (retaining crates inserted.id).Path target between later)
    (reads : ∀ event ∈ between, store.sealing.Reads event.sealing) : store.Retains inserted later := by
  induction between generalizing target with
  | nil => exact Machine.path_nil_iff.mp path ▸ start
  | cons event rest ih =>
    obtain ⟨middle, step, path⟩ := Machine.path_cons_iff.mp path
    obtain ⟨there, step⟩ := Machine.guard_step_iff.mp step
    refine ih ⟨fun row member named => ?_, ?_⟩ path fun other listed => reads other (List.mem_cons_of_mem _ listed)
    · rcases ((Event.change step).turnStep).origin member with ⟨old, held, same⟩ | ⟨fresh, -⟩
      · exact same ▸ start.turn old held ((RunRow.id_of_turn same).trans named)
      · obtain ⟨old, held, known⟩ := Table.count_pos.mp there
        exact absurd ((eq_of_beq known).trans named.symm) (fresh old held)
    · obtain rfl : (event.exec crates target).2 = middle := congrArg Prod.snd (Event.step_iff.mp step)
      rw [Call.exec]
      split
      · exact start.opens
      · exact Db.Every.keeps_action runOpens_stable (runOpens_allows (reads event List.mem_cons_self) _) target start.opens

end Retained

section Calls

variable {session caller : RoomSession} {input retry : SubmitTurnInput} {turn : AppendedTurn} {key text : String}
  {again : Draws}

/-- A call with the key of a retained run compares its text and looks no further. -/
theorem appendTurn_eq_retryTurn {row : RunRow} (allowed : caller.role ≠ .viewer)
    (valid : Limits.validatePrompt retry.text = .ok text)
    (keyed : retry.idempotencyKey.mapM Limits.validateIdempotencyKey = .ok (some key)) (opened : later.IsOpen caller.roomId)
    (found : (later.runs.find? fun run => run.roomId == caller.roomId && run.idempotencyKey == some key) = some row) :
    store.appendTurn again.env caller retry later = transaction (store.retryTurn again.env caller text row) later := by
  obtain ⟨room, known, free⟩ := open_room_iff.mp opened
  have looked : findRetried again.env caller.roomId (some key) later = .ok (some row) later :=
    query_ok_iff.mpr ⟨found, rfl⟩
  have passes (condition : Prop) [Decidable condition] (error : StoreError) (holds : ¬ condition) :
      (failIf condition error : StoreM Unit) later = .ok () later := failIf_ok_iff.mpr ⟨holds, rfl⟩
  have started : again.env.attempt 0 later = .ok () later := attempt_ok_iff.mpr rfl
  rw [appendTurn, bind_eq_of_ok (passes _ _ allowed), orInvalid,
    bind_eq_of_ok (returnExcept_ok_iff.mpr ⟨mapError_eq_ok_iff.mpr valid, rfl⟩),
    bind_eq_of_ok (validKey_ok_iff.mpr ⟨keyed, rfl⟩)]
  refine transaction_congr ?_
  rw [bind_eq_of_ok started, bind_eq_of_ok (query_ok_iff.mpr ⟨rfl, rfl⟩),
    bind_eq_of_ok (orFail_ok_iff.mpr ⟨known, rfl⟩), bind_eq_of_ok (passes _ _ free), bind_eq_of_ok looked]

/-- What the rest of a retry returns is the run with its id and the message it finds. -/
theorem answerTurn_retry_iff (turn : AppendedTurn) {accepted : AcceptedRun} {row : RunRow}
    (valid : validateRoomId turn.roomId = .ok turn.roomId)
    (retried : turn.messageId = none)
    (found : (source.runs.find? fun run => run.roomId == turn.roomId && run.id == turn.runId) = some row) :
    store.answerTurn draws.env turn source = .ok accepted target ↔
      source = target ∧ ∃ snapshot, store.snapshotFrom source turn.roomId = some snapshot ∧
        store.openRun (rowToRun row) = .ok accepted.run ∧
        acceptedMessage turn snapshot = some accepted.userMessage ∧ accepted.snapshot = snapshot := by
  have byId {result : Option RoomRun} {after : Db} : store.runById draws.env 17 turn.roomId turn.runId source =
      .ok result after ↔ ∃ run, store.openRun (rowToRun row) = .ok run ∧ some run = result ∧ source = after := by
    rw [runById, bind_eq_of_ok (query_ok_iff.mpr ⟨found, rfl⟩)]
    simp only [map_ok_iff, returnExcept_ok_iff, mapError_eq_ok_iff]
    constructor
    · rintro ⟨run, ⟨opens, same⟩, rfl⟩
      exact ⟨run, opens, rfl, same⟩
    · rintro ⟨run, opens, rfl, same⟩
      exact ⟨run, ⟨opens, same⟩, rfl⟩
  simp only [answerTurn, acceptTurn, acceptedRun, retried, bind_ok_iff, snapshotOrNotFound_ok_iff, valid, orFail_ok_iff,
    pure_ok_iff, Except.ok.injEq]
  constructor
  · rintro ⟨snapshot, _, ⟨_, rfl, shown, rfl⟩, run, _, ⟨_, _, looked, rfl, rfl⟩, message, _, ⟨finds, rfl⟩, rfl, rfl⟩
    obtain ⟨_, opens, same, rfl⟩ := byId.mp looked
    obtain rfl := Option.some.inj same
    exact ⟨rfl, snapshot, shown, opens, finds, rfl⟩
  · rintro ⟨rfl, snapshot, shown, opens, finds, rfl⟩
    exact ⟨accepted.snapshot, source, ⟨_, rfl, shown, rfl⟩, _, source, ⟨_, source, byId.mpr ⟨_, opens, rfl, rfl⟩, rfl, rfl⟩,
      _, source, ⟨finds, rfl⟩, rfl, rfl⟩

/-- An inserting call adds a run with its key, which opens for a store that reads what the call seals. -/
theorem retains_of_appendTurn {acceptor : RoomStore} (reads : store.sealing.Reads acceptor.sealing)
    (committed : acceptor.appendTurn draws.env session input source = .ok turn target) (inserted : turn.messageId.isSome)
    (keyed : input.idempotencyKey.mapM Limits.validateIdempotencyKey = .ok (some key)) :
    session.role ≠ .viewer ∧ Limits.validatePrompt input.text = .ok turn.text ∧
      ∃ row ∈ target.runs, row.id = draws.newRunId ∧ row.roomId = session.roomId ∧ row.idempotencyKey = some key ∧
        store.sealing.openText row.inputText (ctx "room_runs" "input_text" row.id) = .ok turn.text ∧
        store.Retains row target := by
  obtain ⟨-, ⟨retried, -⟩ | ⟨_, _, insertion⟩⟩ := appendTurn_ok committed
  · simp [retried] at inserted
  obtain ⟨text, given, allowed, valid, same, -, -, -, -, insertion⟩ :=
    appendTurn_changes_iff.mp ⟨committed, (insertTurn_spec insertion).1⟩
  obtain rfl : given = some key := Except.ok.inj (same.symm.trans keyed)
  obtain ⟨-, -, rfl, _, cell, empty, messaged, ran, -, sealedInput, sealedEmpty, first, second, rfl⟩ :=
    insertTurn_ok_iff.mp insertion
  obtain ⟨-, _, -, rfl⟩ := Db.insertMessage_eq_some_iff.mp first
  obtain ⟨-, runs, added, rfl⟩ := Db.insertRun_eq_some_iff.mp second
  have listed : newRun session.roomId (draws.now 0) draws.newRunId draws.newRequestId (some key) cell empty ∈ runs :=
    (Table.mem_of_insert? added).mpr (Or.inr rfl)
  have only (row : RunRow) (member : row ∈ runs) (named : row.id = draws.newRunId) :
      row = newRun session.roomId (draws.now 0) draws.newRunId draws.newRequestId (some key) cell empty :=
    Table.eq_of_key member listed named
  refine ⟨allowed, valid, _, listed, rfl, rfl, rfl, reads _ _ _ _ sealedInput, fun row member named => ?_, ?_⟩
  · rw [only row member named]
  · refine ⟨fun _ _ => trivial, fun _ _ => trivial, fun row member named => ?_, fun _ _ => trivial⟩
    rw [only row member named]
    exact ⟨⟨"", reads _ _ _ _ sealedEmpty⟩, none, rfl⟩

theorem retryTurn_ok_iff {row : RunRow} : store.retryTurn again.env caller text row source = .ok turn target ↔
    store.sealing.openText row.inputText (ctx "room_runs" "input_text" row.id) = .ok text ∧
      turn = ⟨caller.roomId, row.id, none, text⟩ ∧ source = target := by
  simp only [retryTurn, bind_ok_iff, openCell_ok_iff, failIf_ok_iff, attempt_ok_iff, pure_ok_iff]
  constructor
  · rintro ⟨previous, _, ⟨opens, rfl⟩, _, _, ⟨same, rfl⟩, _, _, rfl, rfl, rfl⟩
    exact ⟨not_not.mp same ▸ opens, rfl, rfl⟩
  · rintro ⟨opens, rfl, rfl⟩
    exact ⟨text, source, ⟨opens, rfl⟩, (), source, ⟨fun other => other rfl, rfl⟩, (), source, rfl, rfl, rfl⟩

/-- The transaction of `append_user_turn` is a step of the store. -/
theorem step_of_appendTurn {crates : Crates} {writer : StoreSeal}
    (committed : RoomStore.appendTurn ⟨crates, writer⟩ draws.env session input source = .ok turn target) :
    ∃ event, (storeMachine crates).step? source event = some target := by
  let call : Call := ⟨writer, draws, false, .appendUserTurn session input⟩
  have written : (call.exec crates source).2 = target := by
    rw [Call.exec, if_neg Bool.false_ne_true]
    change (outcome (_ <$> _) source).2 = target
    rw [map_eq_pure_bind, ReadOnly.outcome_bind fun _ => .pure _, appendUserTurn, ReadOnly.outcome_bind fun _ => .bind
      (snapshotOrNotFound_readOnly _ _) fun _ => acceptTurn_readOnly _ _, outcome_ok_iff.mpr committed]
  exact ⟨⟨call, (call.exec crates source).1⟩, Event.step_iff.mpr (Prod.ext rfl written)⟩

/-- A retry with the text of its run returns that run and the message it finds. -/
theorem appendUserTurn_retry_iff {row : RunRow} {accepted : AcceptedRun} {opened : RoomRun}
    (valid : validateRoomId caller.roomId = .ok caller.roomId)
    (retried : store.appendTurn again.env caller retry later = .ok ⟨caller.roomId, row.id, none, text⟩ later)
    (found : (later.runs.find? fun run => run.roomId == caller.roomId && run.id == row.id) = some row)
    (opens : store.openRun (rowToRun row) = .ok opened) :
    (store.appendUserTurn again.env caller retry later = .ok accepted later ↔
      ∃ snapshot, store.snapshotFrom later caller.roomId = some snapshot ∧ opened = accepted.run ∧
        acceptedMessage ⟨caller.roomId, row.id, none, text⟩ snapshot = some accepted.userMessage ∧
        accepted.snapshot = snapshot) := by
  rw [appendUserTurn_eq, bind_eq_of_ok retried, answerTurn_retry_iff ⟨caller.roomId, row.id, none, text⟩ valid rfl found,
    opens]
  simp only [true_and, Except.ok.injEq]

/-- After a turn was accepted, and while its run is retained in an open room, retries return the accepted turn
exactly where its message is still the latest with its text; with another text they always conflict. -/
theorem answersRetries_iff {crates : Crates} {writer : StoreSeal} {past between : List Event}
    (run : (storeMachine crates).Run past source)
    (committed : RoomStore.appendTurn ⟨crates, writer⟩ draws.env session input source = .ok turn target)
    (inserted : turn.messageId.isSome)
    (keyed : input.idempotencyKey.mapM Limits.validateIdempotencyKey = .ok (some key))
    (path : (retaining crates draws.newRunId).Path target between later)
    (reads : store.sealing.Reads writer) (rereads : ∀ event ∈ between, store.sealing.Reads event.sealing)
    (retained : ∃ row ∈ later.runs, row.id = draws.newRunId) (opened : later.IsOpen session.roomId) :
    (store.AnswersRetries draws session turn key later ∧ store.RefusesOthers session turn key later) ↔
      store.StillLatest draws session turn later := by
  obtain ⟨-, -, valid, known⟩ := appendTurn_inserted committed inserted (.of_history run)
  obtain ⟨allowed, given, first, there, isRun, owned, itsKey, opensInput, start⟩ :=
    retains_of_appendTurn (by exact reads) committed inserted keyed
  have retains := start.of_path (isRun ▸ path) rereads
  have hasRoom := hasRoom_of_path path.of_guard known
  obtain ⟨event, step⟩ := step_of_appendTurn committed
  have reached := run.append (Machine.path_cons_iff.mpr ⟨_, step, path.of_guard⟩)
  obtain ⟨row, member, named⟩ := retained
  have turns := retains.turn row member (named.trans isRun.symm)
  have inRoom := (RunRow.room_of_turn turns).trans owned
  have hasKey := (RunRow.key_of_turn turns).trans itsKey
  obtain ⟨answer, opens⟩ := opens_iff.mp (retains.opens.runs row member (named.trans isRun.symm))
  have byKey : (later.runs.find? fun run => run.roomId == session.roomId && run.idempotencyKey == some key) = some row := by
    cases looked : later.runs.find? fun run => run.roomId == session.roomId && run.idempotencyKey == some key with
    | none =>
      have absent := Table.find?_eq_none.mp looked row member
      simp [inRoom, hasKey] at absent
    | some other =>
      obtain ⟨otherMem, chosen⟩ := Table.find?_eq_some looked
      simp only [Bool.and_eq_true, beq_iff_eq] at chosen
      rw [keysApart_of_run reached other otherMem row member (chosen.1.trans inRoom.symm) (chosen.2 ▸ rfl)
        (chosen.2.trans hasKey.symm)]
  have byId : (later.runs.find? fun run => run.roomId == session.roomId && run.id == row.id) = some row :=
    (Table.find?_eq_some_iff fun left right => by simp +contextual).mpr ⟨member, by simp [inRoom]⟩
  have retries {again : Draws} {caller : RoomSession} {retry : SubmitTurnInput} {text : String}
      (here : caller.roomId = session.roomId) (may : caller.role ≠ .viewer)
      (isText : Limits.validatePrompt retry.text = .ok text)
      (isKey : retry.idempotencyKey.mapM Limits.validateIdempotencyKey = .ok (some key)) :
      store.appendTurn again.env caller retry later = transaction (store.retryTurn again.env caller text row) later :=
    appendTurn_eq_retryTurn may isText isKey (here ▸ opened) (here ▸ byKey)
  have input : store.sealing.openText row.inputText (ctx "room_runs" "input_text" row.id) = .ok turn.text := by
    rw [RunRow.input_of_turn turns, RunRow.id_of_turn turns, opensInput]
  have returned (again : Draws) {caller : RoomSession} {retry : SubmitTurnInput}
      (here : caller.roomId = session.roomId) (may : caller.role ≠ .viewer)
      (isText : Limits.validatePrompt retry.text = .ok turn.text)
      (isKey : retry.idempotencyKey.mapM Limits.validateIdempotencyKey = .ok (some key)) (accepted : AcceptedRun) :=
    @appendUserTurn_retry_iff store later caller retry turn.text again row accepted answer (here ▸ valid)
      ((retries here may isText isKey).trans (transaction_ok_iff.mpr (retryTurn_ok_iff.mpr ⟨input, rfl, rfl⟩)))
      (here ▸ byId) opens
  constructor
  · rintro ⟨answers, -⟩
    obtain ⟨accepted, success, -, isMessage⟩ := answers draws session _ rfl allowed given keyed
    obtain ⟨snapshot, shown, -, finds, -⟩ := (returned draws rfl allowed given keyed accepted).mp success
    rw [isMessage] at finds
    exact (acceptedMessage_eq_latest_iff ⟨session.roomId, row.id, none, turn.text⟩ rfl rfl (messages_of_snapshotFrom shown)).mp
      finds
  · intro latest
    refine ⟨fun again caller retry here may isText isKey => ?_, fun again caller retry text here may isText other isKey => ?_⟩
    · obtain ⟨snapshot, shown⟩ := Option.isSome_iff_exists.mp (snapshotFrom_isSome_iff.mpr hasRoom)
      have finds := (acceptedMessage_eq_latest_iff ⟨caller.roomId, row.id, none, turn.text⟩ rfl rfl
        (messages_of_snapshotFrom shown)).mpr latest
      exact ⟨⟨answer, _, snapshot⟩, (returned again here may isText isKey _).mpr ⟨snapshot, here ▸ shown, rfl, finds, rfl⟩,
        (openRun_ok opens).1.trans named, rfl⟩
    · have conflicts : store.retryTurn again.env caller text row later = .error .conflict later := by
        rw [retryTurn, bind_eq_of_ok (openCell_ok_iff.mpr ⟨input, rfl⟩)]
        exact bind_error_iff.mpr (Or.inl (failIf_error_iff.mpr ⟨other.symm, rfl, rfl⟩))
      rw [appendUserTurn_eq, bind_error_iff, retries here may isText isKey]
      exact Or.inl (transaction_error_iff.mpr ⟨rfl, later, conflicts⟩)

end Calls

end RoomStore

namespace Sample

/-- A turn that carries a key. -/
def keyedInput : SubmitTurnInput := ⟨"hello", some "k"⟩

/-- The model answers the turn with the key. -/
def answered : List Call :=
  [⟨.compat, draws 21 30, false, .finishRun (opaqueId "room_" (.ofNat 1)) (opaqueId "run_" (.ofNat 12))
    ⟨.completed, none, none⟩ completed_ends⟩]

/-- A guest says the same again, without the key. -/
def repeated : List Call := answered ++ [⟨.compat, draws 31 40, false, .appendUserTurn host ⟨"hello", none⟩⟩]

theorem compat_of_calls {calls : List Call} {db : Db} (keyed : ∀ call ∈ calls, call.sealing = .compat) :
    ∀ event ∈ (history crates calls db).1, StoreSeal.compat.Reads event.sealing := by
  have lawful : StoreSeal.compat.Lawful := trivial
  induction calls generalizing db with
  | nil => simp [history]
  | cons call rest ih =>
    intro event member
    rcases List.mem_cons.mp member with rfl | later
    · exact (keyed call List.mem_cons_self).symm ▸ lawful.reads
    · exact ih (fun other listed => keyed other (List.mem_cons_of_mem _ listed)) event later

/-- The turn with the key in the sample room, and calls after it that retain its run in the open room. -/
theorem exists_keyed_turn (calls : List Call) (holds : RoomStore.AppendedTurn → Db → Prop) [∀ turn db, Decidable (holds turn db)]
    (checked : (outcome (store.appendTurn (draws 11 20).env host keyedInput) (history crates opened .empty).2).1.toOption.any
      fun turn => decide (turn.messageId.isSome ∧
        ((retaining crates (draws 11 20).newRunId).run?
          (outcome (store.appendTurn (draws 11 20).env host keyedInput) (history crates opened .empty).2).2
          (history crates calls
            (outcome (store.appendTurn (draws 11 20).env host keyedInput) (history crates opened .empty).2).2).1).any
          fun later => decide (0 < later.runs.count (·.id == (draws 11 20).newRunId) ∧
            0 < later.rooms.count (fun room => room.id == host.roomId && room.status != .closed) ∧ holds turn later))) :
    ∃ turn target later, store.appendTurn (draws 11 20).env host keyedInput (history crates opened .empty).2 =
        .ok turn target ∧ turn.messageId.isSome ∧
      (retaining crates (draws 11 20).newRunId).Path target (history crates calls target).1 later ∧
      (∃ row ∈ later.runs, row.id = (draws 11 20).newRunId) ∧ later.IsOpen host.roomId ∧ holds turn later := by
  obtain ⟨turn, target, committed, inserted, followed⟩ := @exists_ok_of_check _ _ _
    (store.appendTurn (draws 11 20).env host keyedInput) (history crates opened .empty).2
    (fun turn target => turn.messageId.isSome ∧ ((retaining crates (draws 11 20).newRunId).run? target
      (history crates calls target).1).any fun later => decide (0 < later.runs.count (·.id == (draws 11 20).newRunId) ∧
        0 < later.rooms.count (fun room => room.id == host.roomId && room.status != .closed) ∧ holds turn later)) _ checked
  obtain ⟨later, path, found⟩ := (Option.any_eq_true _ _).mp followed
  obtain ⟨retained, open_, held⟩ := of_decide_eq_true found
  obtain ⟨row, member, named⟩ := Table.count_pos.mp retained
  obtain ⟨room, there, both⟩ := Table.count_pos.mp open_
  simp only [Bool.and_eq_true, beq_iff_eq, bne_iff_ne] at both
  exact ⟨turn, target, later, committed, inserted, path, ⟨row, member, eq_of_beq named⟩, ⟨room, there, both⟩, held⟩

end Sample

/-- A retry after the same text was said again returns the run of the first turn with the message of the second. -/
theorem RoomStore.not_answersRetries_repeated : ∃ turn target later,
    Sample.store.appendTurn (Sample.draws 11 20).env Sample.host Sample.keyedInput
        (history Sample.crates Sample.opened .empty).2 = .ok turn target ∧ turn.messageId.isSome ∧
      (retaining Sample.crates (Sample.draws 11 20).newRunId).Path target
        (history Sample.crates Sample.repeated target).1 later ∧
      (∃ row ∈ later.runs, row.id = (Sample.draws 11 20).newRunId) ∧ later.IsOpen Sample.host.roomId ∧
      ((outcome (Sample.store.appendUserTurn (Sample.draws 51 60).env Sample.host Sample.keyedInput) later).1.toOption.map
          fun accepted => (accepted.run.runId, accepted.userMessage.id)) =
        some ((Sample.draws 11 20).newRunId, (Sample.draws 31 40).newMessageId) ∧
      ¬ Sample.store.AnswersRetries (Sample.draws 11 20) Sample.host turn "k" later := by
  obtain ⟨turn, target, later, committed, inserted, path, retained, open_, text, replied⟩ :=
    Sample.exists_keyed_turn Sample.repeated (fun turn later => turn.text = "hello" ∧
      ((outcome (Sample.store.appendUserTurn (Sample.draws 51 60).env Sample.host Sample.keyedInput) later).1.toOption.map
          fun accepted => (accepted.run.runId, accepted.userMessage.id)) =
        some ((Sample.draws 11 20).newRunId, (Sample.draws 31 40).newMessageId)) (by decide +kernel)
  refine ⟨turn, target, later, committed, inserted, path, retained, open_, replied, fun answers => ?_⟩
  obtain ⟨accepted, success, -, same⟩ := answers (Sample.draws 51 60) Sample.host Sample.keyedInput rfl (by decide)
    (text ▸ by decide +kernel) (by decide +kernel)
  rw [outcome_ok_iff.mpr success] at replied
  have named := (Prod.mk.inj (Option.some.inj replied)).2
  rw [same] at named
  have apart : (Sample.draws 11 20).newMessageId ≠ (Sample.draws 31 40).newMessageId := by decide +kernel
  exact apart named

/-- After the model answered it, a retry of the turn with the key in the sample room returns the accepted turn. -/
theorem RoomStore.answersRetries_iff_answered : ∃ turn target later,
    Sample.store.appendTurn (Sample.draws 11 20).env Sample.host Sample.keyedInput
        (history Sample.crates Sample.opened .empty).2 = .ok turn target ∧
      (retaining Sample.crates (Sample.draws 11 20).newRunId).Path target
        (history Sample.crates Sample.answered target).1 later ∧
      ((Sample.store.AnswersRetries (Sample.draws 11 20) Sample.host turn "k" later ∧
          Sample.store.RefusesOthers Sample.host turn "k" later) ↔
        Sample.store.StillLatest (Sample.draws 11 20) Sample.host turn later) := by
  have lawful : StoreSeal.compat.Lawful := trivial
  obtain ⟨turn, target, later, committed, inserted, path, retained, open_, -⟩ :=
    Sample.exists_keyed_turn Sample.answered (fun _ _ => True) (by decide +kernel)
  exact ⟨turn, target, later, committed, path, RoomStore.answersRetries_iff (run_history Sample.crates Sample.opened)
    committed inserted (by decide +kernel) path lawful.reads (Sample.compat_of_calls (by simp [Sample.answered])) retained open_⟩

end RyuRooms
