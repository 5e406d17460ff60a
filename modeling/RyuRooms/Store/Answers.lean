import RyuRooms.Store.Committed
import RyuRooms.Store.Guests
import RyuRooms.Store.Lifecycle

/-! # From deltas to the answer

A run collects deltas in its partial text and leaves at most one assistant message. `Lifetime` is a
history with one run in view: the calls since it was inserted, each with the tables it found. The
partial text opens to the deltas those calls accepted, in their order, and the first `finish_run` with
`Completed` that finds the run unfinished inserts them as a message, and returns `Ok` unless it fails midway; no
other call inserts one.
-/

namespace RyuRooms

open Foundation

/-- In every history of the store, runs belong to rooms and room ids are valid as they are stored. -/
theorem Db.Rooted.of_history {crates : Crates} {events : List Event} {db : Db}
    (run : (storeMachine crates).Run events db) : db.Rooted := by
  refine run.invariant ?_ ?_
  · rintro _ rfl
    exact ⟨by simp [Db.empty], by simp [Db.empty]⟩
  · rintro source event target rooted step
    obtain rfl : (event.exec crates source).2 = target := congrArg Prod.snd (Event.step_iff.mp step)
    rw [Call.exec]
    split
    · exact rooted
    · exact keeps_action event.op source rooted

/-- The delta that a call delivers to a run: `append_delta` returns `Ok`. -/
def Event.delta (event : Event) (runId : String) : Option String :=
  match event.op, event.reply with
  | .appendDelta _ id delta, .ok _ => if id = runId then some delta else none
  | _, _ => none

/-- `finish_run` with `Completed`, on a run of its room that it finds queued or running. -/
def Event.Completes (event : Event) (source : Db) (runId : String) : Prop :=
  ∃ run ∈ source.runs, run.id = runId ∧ run.status.isActive ∧ ∃ roomId terminal ends,
    event.op = .finishRun roomId runId terminal ends ∧ terminal.status = .completed ∧
      validateRoomId roomId = .ok run.roomId

/-- A call does not fail midway: its statements run, its store can seal, and the message id it draws is new. -/
structure Event.Undisturbed (event : Event) (source : Db) : Prop where
  runs : event.fails = false
  writable : event.sealing.ensureWritable = .ok ()
  fresh : ∀ message ∈ source.messages, message.id ≠ event.draws.newMessageId

/-- A call returns `Ok`. -/
def Event.Succeeds (event : Event) : Prop := ∃ reply, event.reply = .ok reply

namespace Db

/-- No assistant message is added. -/
def AddsNoAnswer (source target : Db) : Prop :=
  ∀ message ∈ target.messages, message.role = .assistant → message ∈ source.messages

theorem AddsNoAnswer.of_eq {source target : Db} (same : target.messages = source.messages) :
    source.AddsNoAnswer target := fun _ member _ => same ▸ member

/-- An assistant message with this text is inserted, and the room's messages are trimmed. -/
def AddsAnswer (source : Db) (sealing : StoreSeal) (roomId text : String) (target : Db) : Prop :=
  ∃ message answered, message.roomId = roomId ∧ message.role = .assistant ∧
    sealing.openText message.text (ctx "room_messages" "text" message.id) = .ok text ∧
    source.insertMessage message = some answered ∧ target.messages = (trimMessages roomId answered).1.messages

end Db

section Calls

variable {store : RoomStore} {draws : Draws} {source target : Db} {roomId runId : String}

namespace RoomStore

/-- A delta is appended to the text its run had, up to the bound on a message. -/
theorem appendDelta_text {delta : String}
    (success : store.appendDelta draws.env roomId runId delta source = .ok () target) :
    ∃ run ∈ source.runs, run.id = runId ∧ ∃ text cell,
      store.sealing.openText run.partialText (ctx "room_runs" "partial_text" runId) = .ok text ∧
      charCount (text ++ delta) ≤ Limits.MAX_MESSAGE_CHARS ∧
      store.sealing.sealText (draws.nonce 0) (text ++ delta) (ctx "room_runs" "partial_text" runId) = .ok cell ∧
      run.roomId = roomId ∧ run.status = .running ∧ target = source.extended roomId runId cell (draws.now 0) := by
  simp only [appendDelta, orInvalid, bind_ok_iff, returnExcept_ok_iff, query_ok_iff, orFail_ok_iff,
    openCell_ok_iff, sealCell_ok_iff, failIf_ok_iff, execute_ok_iff, pure_ok_iff, env_now, mapError_eq_ok_iff] at success
  obtain ⟨_, _, ⟨valid, rfl⟩, _, _, ⟨rfl, rfl⟩, run, _, ⟨found, rfl⟩, text, _, ⟨opened, rfl⟩, _, _, ⟨bounded, rfl⟩,
    cell, _, ⟨sealed, rfl⟩, _, _, ⟨-, rfl⟩, _, _, ⟨-, rfl⟩, -, rfl⟩ := success
  obtain rfl := validateDelta_eq valid
  obtain ⟨member, chosen⟩ := Table.find?_eq_some found
  simp only [Bool.and_eq_true, beq_iff_eq, and_assoc] at chosen
  exact ⟨run, member, chosen.1, text, cell, opened, not_lt.mp bounded, sealed, chosen.2.1, chosen.2.2, rfl⟩

/-- A finish inserts the text of a run that completes, unless it is empty. -/
theorem insertAnswer_adds (lawful : store.sealing.Lawful) {text : String} {status : RunStatus} {answered : Db}
    (success : store.insertAnswer draws.env roomId text status source = .ok () answered)
    (trims : target.messages = (Db.trimMessages roomId answered).1.messages) :
    if status = .completed ∧ text ≠ "" then source.AddsAnswer store.sealing roomId text target
    else source.AddsNoAnswer target := by
  rw [insertAnswer] at success
  split at success
  · next answers =>
    rw [if_pos answers]
    simp only [bind_ok_iff, sealCell_ok_iff, insert_ok_iff, env_now, env_uuid] at success
    obtain ⟨cell, _, ⟨sealed, rfl⟩, inserted⟩ := success
    exact ⟨_, answered, rfl, rfl, StoreSeal.openText_of_sealText lawful sealed, inserted, trims⟩
  · next silent =>
    rw [if_neg silent]
    obtain ⟨-, rfl⟩ := pure_ok_iff.mp success
    intro message member _
    rw [trims] at member
    exact (Table.mem_delete.mp member).1

/-- What a finish does to the messages: nothing for a finished run, and otherwise at most an answer. -/
theorem settleRun_adds (lawful : store.sealing.Lawful) {terminal : RunTerminal}
    (success : store.settleRun draws.env roomId runId terminal source = .ok () target) :
    ∃ run ∈ source.runs, run.id = runId ∧ validateRoomId roomId = .ok run.roomId ∧
      ((run.status.isActive = false ∧ target = source) ∨ (run.status.isActive ∧ ∃ text,
        store.sealing.openText run.partialText (ctx "room_runs" "partial_text" runId) = .ok text ∧
        if terminal.status = .completed ∧ text ≠ "" then source.AddsAnswer store.sealing run.roomId text target
        else source.AddsNoAnswer target)) := by
  simp only [settleRun, bind_ok_iff, returnExcept_ok_iff, transaction_ok_iff, attempt_ok_iff,
    query_ok_iff, orFail_ok_iff] at success
  obtain ⟨id, _, ⟨valid, rfl⟩, _, _, rfl, _, _, ⟨rfl, rfl⟩, run, _, ⟨found, rfl⟩, success⟩ := success
  obtain ⟨member, chosen⟩ := Table.find?_eq_some found
  simp only [Bool.and_eq_true, beq_iff_eq] at chosen
  obtain ⟨rfl, rfl⟩ := chosen
  refine ⟨run, member, rfl, valid, ?_⟩
  split at success
  · next active =>
    simp only [bind_ok_iff, attempt_ok_iff] at success
    obtain ⟨_, middle, recorded, _, _, trims, rfl⟩ := success
    obtain ⟨-, text, answered, _, opened, answer, -, settled⟩ := recordTerminal_ok_iff.mp ⟨middle, recorded, rfl⟩
    refine Or.inr ⟨active, text, opened, insertAnswer_adds lawful answer ?_⟩
    rw [trimHistory_ok trims, settled]
    rfl
  · next finished => exact Or.inl ⟨Bool.eq_false_iff.mpr finished, (attempt_ok_iff.mp success).symm⟩

/-- Finishing an unfinished run succeeds where its partial text opens and its answer can be inserted. -/
theorem finishRun_of_active (writable : store.sealing.ensureWritable = .ok ()) (rooted : source.Rooted) {run : RunRow}
    (member : run ∈ source.runs) (active : run.status.isActive) {terminal : RunTerminal}
    (ends : terminal.status.isActive = false) (valid : validateRoomId roomId = .ok run.roomId) {text : String}
    (opened : store.sealing.openText run.partialText (ctx "room_runs" "partial_text" run.id) = .ok text)
    (fresh : terminal.status = .completed ∧ text ≠ "" →
      ∀ message ∈ source.messages, message.id ≠ opaqueId "msg_" (draws.uuid 0)) :
    ∃ snapshot target, store.finishRun draws.env roomId run.id terminal source = .ok snapshot target := by
  have known : source.hasRoom run.roomId := rooted.runs run member
  have passes (points : List ℕ) : draws.env.Passes points := fun _ _ => rfl
  obtain ⟨answered, answer⟩ := (@insertAnswer_commits_iff store draws.env source run.roomId text terminal.status known).mpr
    fun answers => ⟨writable, fresh answers, passes _⟩
  obtain ⟨cell, explained⟩ := (@sealOpt_commits_iff store draws.env answered 5 1 terminal.errorMessage
    (ctx "room_runs" "error_message" run.id)).mpr fun _ => ⟨writable, passes _⟩
  obtain ⟨middle, recorded, -⟩ := (@recordTerminal_ok_iff store draws.env source _ run.roomId run terminal).mpr
    ⟨passes _, text, answered, cell, opened, answer, explained, rfl⟩
  obtain ⟨settled, -⟩ := (@settleRun_changes_iff store draws.env source (middle.trimmed run.roomId) roomId run.id
    terminal ends).mpr ⟨run.roomId, run, valid, ⟨member, rfl, by simp [Db.isActiveIn, active]⟩, passes _, middle,
      recorded, rfl⟩
  obtain ⟨snapshot, shown⟩ := Option.isSome_iff_exists.mp
    ((@snapshotFrom_isSome_iff store _ _).mpr (settled_hasRoom recorded known))
  exact ⟨snapshot, _, (bind_eq_of_ok settled).trans (snapshotOrNotFound_ok_iff.mpr ⟨_, valid, shown, rfl⟩)⟩

end RoomStore

namespace Op

variable {reply : Except StoreError Reply}

/-- Outside of turns a call leaves runs and messages alone. -/
theorem sameTurns {op : Op} (access : op.isTurn = false)
    (acted : outcome (op.action store draws.env) source = (reply, target)) :
    target.runs = source.runs ∧ target.messages = source.messages := by
  cases reply with
  | error error =>
    obtain rfl := Op.unchanged_of_error access (outcome_error_iff.mp acted)
    exact ⟨rfl, rfl⟩
  | ok reply =>
    have success := outcome_ok_iff.mp acted
    cases op with
    | createRoom input =>
      obtain ⟨_, made, -⟩ := map_ok_iff.mp success
      exact ⟨(RoomStore.createRoom_sameTurns made).runs, (RoomStore.createRoom_sameTurns made).messages⟩
    | exchangeInvite raw displayName =>
      obtain ⟨_, made, -⟩ := map_ok_iff.mp success
      exact ⟨(RoomStore.exchangeInvite_sameTurns made).runs, (RoomStore.exchangeInvite_sameTurns made).messages⟩
    | issueInvite roomId =>
      obtain ⟨_, made, -⟩ := map_ok_iff.mp success
      exact ⟨(RoomStore.issueInvite_sameTurns made).runs, (RoomStore.issueInvite_sameTurns made).messages⟩
    | revokeInvite roomId =>
      obtain ⟨_, made, -⟩ := map_ok_iff.mp success
      exact ⟨(RoomStore.revokeInvite_sameTurns made).runs, (RoomStore.revokeInvite_sameTurns made).messages⟩
    | closeRoom roomId =>
      obtain ⟨_, made, -⟩ := map_ok_iff.mp success
      obtain ⟨_, -, -, rfl⟩ := RoomStore.closeRoom_ok made
      exact ⟨rfl, rfl⟩
    | appendUserTurn | appendDelta | finishRun | stopRun | recoverRunning => cases access

/-- A turn either changes nothing or is inserted, whatever the call then returns. -/
theorem appendUserTurn_cases {session : RoomSession} {input : SubmitTurnInput}
    (acted : outcome ((appendUserTurn session input).action store draws.env) source = (reply, target)) :
    target = source ∨ ∃ key text turn, store.insertTurn draws.env session key text source = .ok turn target := by
  have written : (outcome (store.appendTurn draws.env session input) source).2 = target := by
    have whole := congrArg Prod.snd acted
    rwa [action, map_eq_pure_bind, ReadOnly.outcome_bind fun _ => .pure _, RoomStore.appendUserTurn,
      ReadOnly.outcome_bind fun _ => .bind (RoomStore.snapshotOrNotFound_readOnly _ _)
        fun _ => RoomStore.acceptTurn_readOnly _ _] at whole
  cases first : store.appendTurn draws.env session input source with
  | error error middle =>
    rw [outcome_error_iff.mpr first] at written
    exact Or.inl (written.symm.trans (RoomStore.appendTurn_error first).symm)
  | ok turn middle =>
    rw [outcome_ok_iff.mpr first] at written
    subst written
    obtain ⟨-, ⟨-, -, rfl, -⟩ | ⟨key, text, inserted⟩⟩ := RoomStore.appendTurn_ok first
    · exact Or.inl rfl
    · exact Or.inr ⟨key, text, turn, inserted⟩

/-- A finish returns `Ok` exactly when its transaction commits, and changes nothing otherwise. -/
theorem finishRun_cases (rooted : source.Rooted) {terminal : RunTerminal}
    {ends : terminal.status = .completed ∨ terminal.status = .failed}
    (acted : outcome ((finishRun roomId runId terminal ends).action store draws.env) source = (reply, target)) :
    ((∃ error, reply = .error error) ∧ target = source) ∨
      ((∃ snapshot, reply = .ok snapshot) ∧ store.settleRun draws.env roomId runId terminal source = .ok () target) := by
  cases reply with
  | ok snapshot =>
    obtain ⟨_, finished, -⟩ := map_ok_iff.mp (outcome_ok_iff.mp acted)
    obtain ⟨_, middle, settled, shown⟩ := bind_ok_iff.mp finished
    obtain rfl := (RoomStore.snapshotOrNotFound_readOnly _ _).of_ok shown
    exact Or.inr ⟨⟨_, rfl⟩, settled⟩
  | error error =>
    refine Or.inl ⟨⟨_, rfl⟩, ?_⟩
    rcases bind_error_iff.mp (map_error_iff.mp (outcome_error_iff.mp acted)) with failed | ⟨_, middle, settled, failed⟩
    · exact (RoomStore.settleRun_error failed).symm
    · obtain ⟨id, valid, run, member, ⟨-, owned⟩, -⟩ := RoomStore.settleRun_ok settled
      have inactive : terminal.status.isActive = false := by rcases ends with same | same <;> rw [same] <;> rfl
      have change : RunChange source middle := by
        have change : RunChange source (outcome (store.settleRun draws.env roomId runId terminal) source).2 :=
          .of_settleRun roomId runId inactive
        rwa [outcome_ok_iff.mpr settled] at change
      have known := (change.room_id_iff).mpr (Db.hasRoom_iff.mp (rooted.runs run member))
      exact absurd failed (RoomStore.snapshotOrNotFound_ne_error valid (Db.hasRoom_iff.mpr (owned ▸ known)))

theorem appendDelta_cases {delta : String}
    (acted : outcome ((appendDelta roomId runId delta).action store draws.env) source = (reply, target)) :
    ((∃ error, reply = .error error) ∧ target = source) ∨
      ((∃ value, reply = .ok value) ∧ store.appendDelta draws.env roomId runId delta source = .ok () target) := by
  cases reply with
  | ok value =>
    obtain ⟨_, made, -⟩ := map_ok_iff.mp (outcome_ok_iff.mp acted)
    exact Or.inr ⟨⟨_, rfl⟩, made⟩
  | error error =>
    exact Or.inl ⟨⟨_, rfl⟩, (RoomStore.appendDelta_error (map_error_iff.mp (outcome_error_iff.mp acted))).symm⟩

/-- Stopping and recovering end runs and leave their texts and all messages alone. -/
theorem stopRun_carries
    (acted : outcome ((stopRun roomId runId).action store draws.env) source = (reply, target)) :
    source.OnlyCarries target ∧ target.messages = source.messages := by
  cases reply with
  | ok value =>
    obtain ⟨_, made, -⟩ := map_ok_iff.mp (outcome_ok_iff.mp acted)
    obtain ⟨_, _, -, -, rfl⟩ := RoomStore.stopRun_ok made
    exact ⟨.stopped, rfl⟩
  | error error =>
    obtain rfl := RoomStore.stopRun_error (map_error_iff.mp (outcome_error_iff.mp acted))
    exact ⟨.of_eq rfl, rfl⟩

theorem recoverRunning_carries
    (acted : outcome (recoverRunning.action store draws.env) source = (reply, target)) :
    source.OnlyCarries target ∧ target.messages = source.messages := by
  cases reply with
  | ok value =>
    obtain ⟨_, made, -⟩ := map_ok_iff.mp (outcome_ok_iff.mp acted)
    obtain ⟨_, -, rfl⟩ := RoomStore.recoverRunning_ok made
    exact ⟨Db.OnlyCarries.interrupted, Db.interrupted_messages⟩
  | error error => exact absurd (map_error_iff.mp (outcome_error_iff.mp acted)) RoomStore.recoverRunning_ne_error

end Op

end Calls

/-- Where a row comes from that a call leaves: it was there, a delta extended it, or it is new. -/
inductive RowStep (event : Event) (source : Db) (row : RunRow) : Prop
  | carried {old : RunRow} (held : old ∈ source.runs) (carried : old.Carried row)
      (undelivered : event.delta row.id = none)
  | extended {old : RunRow} {delta text : String} {nonce : Nonce} (held : old ∈ source.runs) (becomes : old.Becomes row)
      (delivered : event.delta row.id = some delta)
      (opened : event.sealing.openText old.partialText (ctx "room_runs" "partial_text" row.id) = .ok text)
      (bounded : charCount (text ++ delta) ≤ Limits.MAX_MESSAGE_CHARS)
      (sealed : event.sealing.sealText nonce (text ++ delta) (ctx "room_runs" "partial_text" row.id) =
        .ok row.partialText)
  | inserted {nonce : Nonce} (fresh : ∀ old ∈ source.runs, old.id ≠ row.id)
      (sealed : event.sealing.sealText nonce "" (ctx "room_runs" "partial_text" row.id) = .ok row.partialText)

namespace Event

variable {crates : Crates} {event : Event} {source target : Db}

theorem delta_eq_some_iff {runId delta : String} : event.delta runId = some delta ↔
    (∃ roomId, event.op = .appendDelta roomId runId delta) ∧ ∃ reply, event.reply = .ok reply := by
  rw [Event.delta]
  split
  · next named replied =>
    simp only [named, replied, Option.ite_none_right_eq_some, Option.some.injEq, Op.appendDelta.injEq]
    constructor
    · rintro ⟨rfl, rfl⟩
      exact ⟨⟨_, rfl, rfl, rfl⟩, _, rfl⟩
    · rintro ⟨⟨_, -, rfl, rfl⟩, -⟩
      exact ⟨rfl, rfl⟩
  · next other =>
    refine iff_of_false nofun ?_
    rintro ⟨⟨_, named⟩, _, replied⟩
    exact other _ _ _ _ named replied

theorem delta_eq_none {runId : String} (undelivered : ∀ roomId delta reply,
    event.op = .appendDelta roomId runId delta → event.reply ≠ .ok reply) : event.delta runId = none := by
  refine Option.eq_none_iff_forall_ne_some.mpr fun delta delivered => ?_
  obtain ⟨⟨_, named⟩, _, replied⟩ := delta_eq_some_iff.mp delivered
  exact undelivered _ _ _ named replied

/-- A call that does not fail from the start is the outcome of its operation. -/
theorem outcome_of_step (step : (storeMachine crates).step? source event = some target) :
    (event.reply = .error .database ∧ target = source) ∨
      outcome (event.op.action ⟨crates, event.sealing⟩ event.draws.env) source = (event.reply, target) := by
  have exec := step_iff.mp step
  rw [Call.exec] at exec
  split at exec
  · obtain ⟨reply, same⟩ := Prod.mk.inj exec
    exact Or.inl ⟨reply.symm, same.symm⟩
  · exact Or.inr exec

/-- Every row after a call was carried, extended by the delta of the call, or inserted with an empty text. -/
theorem rowStep (rooted : source.Rooted) (step : (storeMachine crates).step? source event = some target) {row : RunRow}
    (member : row ∈ target.runs) : RowStep event source row := by
  have carries (other : ∀ roomId runId delta, event.op ≠ .appendDelta roomId runId delta)
      (only : source.OnlyCarries target) : RowStep event source row := by
    obtain ⟨old, held, carried⟩ := only row member
    exact .carried held carried (delta_eq_none fun _ _ _ named => absurd named (other _ _ _))
  have silent (error : StoreError) (replied : event.reply = .error error) (same : target = source) :
      RowStep event source row :=
    .carried (same ▸ member) (.refl row) (delta_eq_none fun _ _ _ _ answered => by simp [replied] at answered)
  rcases outcome_of_step step with ⟨replied, same⟩ | acted
  · exact silent _ replied same
  cases named : event.op with
  | createRoom | exchangeInvite | issueInvite | revokeInvite | closeRoom =>
    refine carries (by simp [named]) (.of_eq (Op.sameTurns ?_ acted).1)
    rw [named]
    rfl
  | appendUserTurn session input =>
    rw [named] at acted
    rcases Op.appendUserTurn_cases acted with rfl | ⟨key, text, turn, inserted⟩
    · exact carries (by simp [named]) (.of_eq rfl)
    · obtain ⟨-, -, -, _, _, cell, messaged, ran, -, -, sealed, first, second, rfl⟩ :=
        RoomStore.insertTurn_ok_iff.mp inserted
      obtain ⟨-, _, -, rfl⟩ := Db.insertMessage_eq_some_iff.mp first
      obtain ⟨-, runs, added, rfl⟩ := Db.insertRun_eq_some_iff.mp second
      rcases (Table.mem_of_insert? added).mp member with held | rfl
      · exact .carried held (.refl row) (delta_eq_none fun _ _ _ other => by simp [named] at other)
      · exact .inserted (Table.insert?_eq_some_iff.mp added).1 sealed
  | appendDelta roomId runId delta =>
    rw [named] at acted
    rcases Op.appendDelta_cases acted with ⟨⟨_, replied⟩, same⟩ | ⟨⟨_, replied⟩, success⟩
    · exact silent _ replied same
    · obtain ⟨run, held, rfl, text, cell, opened, bounded, sealed, rfl, running, rfl⟩ :=
        RoomStore.appendDelta_text success
      obtain ⟨old, oldMem, rfl⟩ := Db.mem_setPartialText.mp member
      by_cases same : old.id = run.id
      · obtain rfl := Table.eq_of_key oldMem held same
        simp only [running, BEq.rfl, Bool.and_self, ↓reduceIte]
        exact .extended held ⟨rfl, rfl, Or.inl running.symm⟩ (delta_eq_some_iff.mpr ⟨⟨_, named⟩, _, replied⟩) opened bounded sealed
      · simp only [same, beq_iff_eq, Bool.and_eq_true, false_and, ↓reduceIte]
        refine .carried oldMem (.refl old) (delta_eq_none fun _ _ _ other => ?_)
        exact absurd (Op.appendDelta.inj (named.symm.trans other)).2.1.symm same
  | finishRun roomId runId terminal ends =>
    rw [named] at acted
    rcases Op.finishRun_cases rooted acted with ⟨⟨_, replied⟩, same⟩ | ⟨-, success⟩
    · exact silent _ replied same
    · have inactive : terminal.status.isActive = false := by rcases ends with ends | ends <;> rw [ends] <;> rfl
      exact carries (by simp [named]) (RoomStore.settleRun_onlyCarries inactive success)
  | stopRun roomId runId =>
    rw [named] at acted
    exact carries (by simp [named]) (Op.stopRun_carries acted).1
  | recoverRunning =>
    rw [named] at acted
    exact carries (by simp [named]) (Op.recoverRunning_carries acted).1

/-- A call adds an answer exactly where it succeeds in completing a run whose text is not empty. -/
theorem answers_cases (rooted : source.Rooted) (lawful : event.sealing.Lawful)
    (step : (storeMachine crates).step? source event = some target) :
    (∃ run ∈ source.runs, event.Completes source run.id ∧ event.Succeeds ∧ ∃ text,
      event.sealing.openText run.partialText (ctx "room_runs" "partial_text" run.id) = .ok text ∧
      if text = "" then source.AddsNoAnswer target else source.AddsAnswer event.sealing run.roomId text target) ∨
    ((event.Succeeds → ∀ runId, ¬ event.Completes source runId) ∧ source.AddsNoAnswer target) := by
  have silent (other : ∀ roomId runId terminal ends, event.op ≠ .finishRun roomId runId terminal ends)
      (adds : source.AddsNoAnswer target) :
      (event.Succeeds → ∀ runId, ¬ event.Completes source runId) ∧ source.AddsNoAnswer target := by
    refine ⟨fun _ runId completes => ?_, adds⟩
    obtain ⟨_, -, -, -, _, _, _, named, -⟩ := completes
    exact other _ _ _ _ named
  have unanswered (error : StoreError) (replied : event.reply = .error error) (same : target = source) :
      (event.Succeeds → ∀ runId, ¬ event.Completes source runId) ∧ source.AddsNoAnswer target := by
    refine ⟨fun ⟨_, answered⟩ => ?_, .of_eq (same ▸ rfl)⟩
    exact absurd (replied.symm.trans answered) nofun
  rcases outcome_of_step step with ⟨replied, same⟩ | acted
  · exact Or.inr (unanswered _ replied same)
  cases named : event.op with
  | createRoom | exchangeInvite | issueInvite | revokeInvite | closeRoom =>
    refine Or.inr (silent (by simp [named]) (.of_eq (Op.sameTurns ?_ acted).2))
    rw [named]
    rfl
  | appendUserTurn session input =>
    rw [named] at acted
    refine Or.inr (silent (by simp [named]) ?_)
    rcases Op.appendUserTurn_cases acted with rfl | ⟨key, text, turn, inserted⟩
    · exact .of_eq rfl
    · obtain ⟨-, -, -, _, _, _, messaged, ran, -, -, -, first, second, rfl⟩ := RoomStore.insertTurn_ok_iff.mp inserted
      obtain ⟨-, messages, added, rfl⟩ := Db.insertMessage_eq_some_iff.mp first
      obtain ⟨-, runs, -, rfl⟩ := Db.insertRun_eq_some_iff.mp second
      intro message member assistant
      rcases (Table.mem_of_insert? added).mp member with held | rfl
      · exact held
      · cases assistant
  | appendDelta roomId runId delta =>
    rw [named] at acted
    refine Or.inr (silent (by simp [named]) ?_)
    rcases Op.appendDelta_cases acted with ⟨-, rfl⟩ | ⟨-, success⟩
    · exact .of_eq rfl
    · obtain ⟨-, _, rfl⟩ := RoomStore.appendDelta_ok success
      exact .of_eq rfl
  | finishRun roomId runId terminal ends =>
    rw [named] at acted
    rcases Op.finishRun_cases rooted acted with ⟨⟨_, replied⟩, same⟩ | ⟨⟨_, replied⟩, success⟩
    · exact Or.inr (unanswered _ replied same)
    obtain ⟨run, member, rfl, valid, ⟨finished, rfl⟩ | ⟨active, text, opened, adds⟩⟩ :=
      RoomStore.settleRun_adds (by exact lawful) success
    · refine Or.inr ⟨fun _ runId completes => ?_, .of_eq rfl⟩
      obtain ⟨again, againMem, same, alive, _, _, _, other, -⟩ := completes
      obtain ⟨-, rfl, -⟩ := Op.finishRun.inj (named.symm.trans other)
      obtain rfl := Table.eq_of_key againMem member same
      simp [finished] at alive
    · by_cases completed : terminal.status = .completed
      · refine Or.inl ⟨run, member, ⟨run, member, rfl, active, _, _, _, named, completed, valid⟩, ⟨_, replied⟩, text,
          opened, ?_⟩
        by_cases empty : text = ""
        · rw [if_pos empty]
          rwa [if_neg fun both => both.2 empty] at adds
        · rw [if_neg empty]
          rwa [if_pos ⟨completed, empty⟩] at adds
      · rw [if_neg fun both => completed both.1] at adds
        refine Or.inr ⟨fun _ runId completes => ?_, adds⟩
        obtain ⟨_, -, -, -, _, _, _, other, ended, -⟩ := completes
        obtain ⟨-, -, rfl⟩ := Op.finishRun.inj (named.symm.trans other)
        exact completed ended
  | stopRun roomId runId =>
    rw [named] at acted
    exact Or.inr (silent (by simp [named]) (.of_eq (Op.stopRun_carries acted).2))
  | recoverRunning =>
    rw [named] at acted
    exact Or.inr (silent (by simp [named]) (.of_eq (Op.recoverRunning_carries acted).2))

/-- A run that was completed is not unfinished any more. -/
theorem Completes.ends (rooted : source.Rooted) (step : (storeMachine crates).step? source event = some target)
    {runId : String} (completes : event.Completes source runId) (succeeds : event.Succeeds) :
    ∀ row ∈ target.runs, row.id = runId → row.status.isActive = false := by
  obtain ⟨-, -, -, -, roomId, terminal, ends, named, completed, -⟩ := completes
  obtain ⟨reply, replied⟩ := succeeds
  rcases outcome_of_step step with ⟨failed, -⟩ | acted
  · exact absurd (failed.symm.trans replied) nofun
  rw [named] at acted
  rcases Op.finishRun_cases rooted acted with ⟨⟨_, failed⟩, -⟩ | ⟨-, success⟩
  · exact absurd (failed.symm.trans replied) nofun
  obtain ⟨run, -, -, became⟩ := RoomStore.settleRun_finished success
  intro row member same
  rw [became row member same, completed]
  split
  · rfl
  · next finished => exact Bool.eq_false_iff.mpr finished

/-- A completion that nothing disturbs returns `Ok`, where the partial text of its run opens. -/
theorem Completes.replies (rooted : source.Rooted) (step : (storeMachine crates).step? source event = some target)
    {runId : String} (completes : event.Completes source runId) (undisturbed : event.Undisturbed source)
    (opens : ∀ run ∈ source.runs, run.id = runId → ∃ text,
      event.sealing.openText run.partialText (ctx "room_runs" "partial_text" run.id) = .ok text) :
    ∃ snapshot, event.reply = .ok (.finished snapshot) := by
  obtain ⟨run, member, rfl, active, roomId, terminal, ends, named, -, valid⟩ := completes
  obtain ⟨text, opened⟩ := opens run member rfl
  have ended : terminal.status.isActive = false := by rcases ends with same | same <;> rw [same] <;> rfl
  obtain ⟨snapshot, after, finished⟩ := @RoomStore.finishRun_of_active ⟨crates, event.sealing⟩ event.draws source roomId
    undisturbed.writable rooted run member active terminal ended valid text opened fun _ => undisturbed.fresh
  have acted := step_iff.mp step
  rw [Call.exec, undisturbed.runs, if_neg Bool.false_ne_true, named] at acted
  have done := outcome_ok_iff.mpr (map_ok_iff.mpr ⟨snapshot, finished, rfl⟩ :
    (Op.finishRun roomId run.id terminal ends).action ⟨crates, event.sealing⟩ event.draws.env source =
      .ok (.finished snapshot) after)
  exact ⟨snapshot, (congrArg Prod.fst (acted.symm.trans done))⟩

end Event

/-- A call with the tables it found. -/
structure Moment where
  event : Event
  source : Db

/-- A history at whose end a run is there, with the calls since it was inserted. -/
inductive Lifetime (crates : Crates) (runId : String) : List Event → List Moment → Db → Prop
  | inserted {past : List Event} {event : Event} {source target : Db} (before : (storeMachine crates).Run past source)
      (step : (storeMachine crates).step? source event = some target) (absent : ∀ run ∈ source.runs, run.id ≠ runId)
      (there : ∃ run ∈ target.runs, run.id = runId) : Lifetime crates runId (past ++ [event]) [] target
  | kept {past : List Event} {moments : List Moment} {event : Event} {source target : Db}
      (life : Lifetime crates runId past moments source)
      (step : (storeMachine crates).step? source event = some target) (there : ∃ run ∈ target.runs, run.id = runId) :
      Lifetime crates runId (past ++ [event]) (moments ++ [⟨event, source⟩]) target

/-- The deltas that calls delivered to a run, one after the other. -/
def delivered (runId : String) (moments : List Moment) : String :=
  String.join (moments.filterMap fun moment => moment.event.delta runId)

theorem delivered_snoc {runId : String} {moments : List Moment} {moment : Moment} :
    delivered runId (moments ++ [moment]) = delivered runId moments ++ (moment.event.delta runId).getD "" := by
  cases delta : moment.event.delta runId <;>
    simp [delivered, List.filterMap_append, delta, String.join, List.foldl_append]

namespace Lifetime

variable {crates : Crates} {sealing : StoreSeal} {runId : String} {past : List Event} {moments : List Moment} {db : Db}

theorem run (life : Lifetime crates runId past moments db) : (storeMachine crates).Run past db := by
  induction life with
  | inserted before step => exact before.append (Machine.path_cons_iff.mpr ⟨_, step, Machine.path_nil_iff.mpr rfl⟩)
  | kept life step there ih => exact ih.append (Machine.path_cons_iff.mpr ⟨_, step, Machine.path_nil_iff.mpr rfl⟩)

theorem there (life : Lifetime crates runId past moments db) : ∃ run ∈ db.runs, run.id = runId := by
  cases life with
  | inserted before step absent there => exact there
  | kept life step there => exact there

/-- Every run of a reachable state has a lifetime. -/
theorem of_run (run : (storeMachine crates).Run past db) (there : ∃ run ∈ db.runs, run.id = runId) :
    ∃ moments, Lifetime crates runId past moments db := by
  refine run.history (fun past db => (∃ run ∈ db.runs, run.id = runId) → ∃ moments, Lifetime crates runId past moments db)
    ?_ ?_ there
  · rintro _ rfl ⟨run, member, -⟩
    exact absurd member (Table.not_mem_empty run)
  · intro past source event target before earlier step there
    by_cases present : ∃ run ∈ source.runs, run.id = runId
    · obtain ⟨moments, life⟩ := earlier present
      exact ⟨_, .kept life step there⟩
    · exact ⟨[], .inserted before step (fun run member same => present ⟨run, member, same⟩) there⟩

/-- What a lifetime leaves in the row of its run. -/
structure Leaves (sealing : StoreSeal) (runId : String) (moments : List Moment) (row : RunRow) : Prop where
  opens : sealing.openText row.partialText (ctx "room_runs" "partial_text" runId) = .ok (delivered runId moments)
  bounded : charCount (delivered runId moments) ≤ Limits.MAX_MESSAGE_CHARS
  ended : (∃ moment ∈ moments, moment.event.Completes moment.source runId ∧ moment.event.Succeeds) →
    row.status.isActive = false

theorem leaves (lawful : sealing.Lawful) (life : Lifetime crates runId past moments db)
    (keyed : ∀ event ∈ past, event.sealing = sealing) :
    ∀ row ∈ db.runs, row.id = runId → Leaves sealing runId moments row := by
  induction life with
  | @inserted past event source target before step absent there =>
    obtain rfl := keyed event (by simp)
    rintro row member rfl
    rcases Event.rowStep (.of_history before) step member with
      ⟨held, carried, -⟩ | ⟨held, becomes, -, -, -, -⟩ | ⟨-, sealed⟩
    · exact absurd carried.id.symm (absent _ held)
    · exact absurd becomes.id.symm (absent _ held)
    · exact ⟨StoreSeal.openText_of_sealText lawful sealed, Nat.zero_le _, fun ⟨_, earlier, _⟩ => absurd earlier List.not_mem_nil⟩
  | @kept past moments event source target life step there ih =>
    have rooted : source.Rooted := .of_history life.run
    have earlier := ih fun other member => keyed other (by simp [member])
    obtain rfl := keyed event (by simp)
    rintro row member rfl
    have ended {old : RunRow} (held : old ∈ source.runs) (becomes : old.Becomes row)
        (completed : ∃ moment ∈ moments ++ [⟨event, source⟩],
          moment.event.Completes moment.source row.id ∧ moment.event.Succeeds) : row.status.isActive = false := by
      obtain ⟨moment, at_, completes, succeeds⟩ := completed
      rcases List.mem_append.mp at_ with before | last
      · have finished := (earlier old held becomes.id.symm).ended ⟨moment, before, completes, succeeds⟩
        rw [becomes.of_finished finished, finished]
      · obtain rfl := List.mem_singleton.mp last
        exact completes.ends rooted step succeeds row member rfl
    cases Event.rowStep rooted step member with
    | carried held carried undelivered =>
      have before := earlier _ held carried.id.symm
      have same : delivered row.id (moments ++ [⟨event, source⟩]) = delivered row.id moments := by
        rw [delivered_snoc, undelivered, Option.getD_none, String.append_empty]
      exact ⟨same ▸ carried.text ▸ before.opens, same ▸ before.bounded, ended held carried.toBecomes⟩
    | @extended old delta text nonce held becomes delivers opened bounded sealed =>
      have before := earlier _ held becomes.id.symm
      obtain rfl := Except.ok.inj (opened.symm.trans before.opens)
      have longer : delivered row.id (moments ++ [⟨event, source⟩]) = delivered row.id moments ++ delta := by
        rw [delivered_snoc, delivers, Option.getD_some]
      rw [← longer] at sealed bounded
      exact ⟨StoreSeal.openText_of_sealText lawful sealed, bounded, ended held becomes⟩
    | inserted fresh =>
      obtain ⟨old, held, same⟩ := life.there
      exact absurd same (fresh old held)

end Lifetime

/-- In every history under one key, the partial text of a run opens to the deltas delivered to it, within the
bound on a message. A `finish_run` with `Completed` that finds the run unfinished and is not disturbed returns `Ok`.
It is then the first to do so, and it inserts the answer, a message with that text, unless the text is empty. No
other call inserts an answer, nor does one that fails. -/
theorem answered_once {crates : Crates} {sealing : StoreSeal} {past : List Event} {db : Db}
    (run : (storeMachine crates).Run past db) (lawful : sealing.Lawful) (keyed : ∀ event ∈ past, event.sealing = sealing)
    {row : RunRow} (member : row ∈ db.runs) : ∃ moments, Lifetime crates row.id past moments db ∧
      sealing.openText row.partialText (ctx "room_runs" "partial_text" row.id) = .ok (delivered row.id moments) ∧
      charCount (delivered row.id moments) ≤ Limits.MAX_MESSAGE_CHARS ∧
      ∀ event target, (storeMachine crates).step? db event = some target → event.sealing = sealing →
        (event.Completes db row.id → event.Undisturbed db → ∃ snapshot, event.reply = .ok (.finished snapshot)) ∧
        (event.Completes db row.id → event.Succeeds →
          (∀ moment ∈ moments, moment.event.Completes moment.source row.id → ¬ moment.event.Succeeds) ∧
          if delivered row.id moments = "" then db.AddsNoAnswer target
          else db.AddsAnswer sealing row.roomId (delivered row.id moments) target) ∧
        ((event.Succeeds → ∀ runId, ¬ event.Completes db runId) → db.AddsNoAnswer target) := by
  obtain ⟨moments, life⟩ := Lifetime.of_run run ⟨row, member, rfl⟩
  have rooted : db.Rooted := .of_history run
  have leaves := life.leaves lawful keyed row member rfl
  refine ⟨moments, life, leaves.opens, leaves.bounded, fun event target step same => ?_⟩
  subst same
  have cases := Event.answers_cases rooted lawful step
  refine ⟨fun completes undisturbed => ?_, fun completes succeeds => ⟨fun moment at_ earlier before => ?_, ?_⟩,
    fun none => ?_⟩
  · refine completes.replies rooted step undisturbed fun other otherMem same => ?_
    obtain rfl := Table.eq_of_key otherMem member same
    exact ⟨_, leaves.opens⟩
  · obtain ⟨again, againMem, named, active, -⟩ := completes
    obtain rfl := Table.eq_of_key againMem member named
    simp [leaves.ended ⟨moment, at_, earlier, before⟩] at active
  · rcases cases with ⟨other, otherMem, completed, -, text, opened, adds⟩ | ⟨none, -⟩
    · obtain ⟨-, -, -, -, _, _, _, named, -⟩ := completes
      obtain ⟨-, -, -, -, _, _, _, named', -⟩ := completed
      have same : row.id = other.id := (Op.finishRun.inj (named.symm.trans named')).2.1
      obtain rfl := Table.eq_of_key member otherMem same
      obtain rfl := Except.ok.inj (opened.symm.trans leaves.opens)
      exact adds
    · exact absurd completes (none succeeds row.id)
  · rcases cases with ⟨other, -, completed, succeeds, -⟩ | ⟨-, adds⟩
    · exact absurd completed (none succeeds other.id)
    · exact adds

namespace Sample

/-- The model starts to answer in the sample room. -/
def answering : List Call :=
  firstTurn ++
    [⟨.compat, draws 21 30, false, .appendDelta (opaqueId "room_" (.ofNat 1)) (opaqueId "run_" (.ofNat 12)) "Hi"⟩,
      ⟨.compat, draws 31 40, false, .appendDelta (opaqueId "room_" (.ofNat 1)) (opaqueId "run_" (.ofNat 12)) " Ada"⟩]

/-- A completed run ended. -/
theorem completed_ends : (RunTerminal.mk .completed none none).status = .completed ∨
    (RunTerminal.mk .completed none none).status = .failed :=
  Or.inl rfl

/-- The answer is complete. -/
def finishing : Call :=
  ⟨.compat, draws 41 50, false, .finishRun (opaqueId "room_" (.ofNat 1)) (opaqueId "run_" (.ofNat 12))
    ⟨.completed, none, none⟩ completed_ends⟩

/-- The first turn is answered. -/
def conversation : List Call := answering ++ [finishing]

end Sample

/-- The sample run collects two deltas, and the call that completes it inserts them as its answer. -/
theorem answered_once_conversation :
    let past := (history Sample.crates Sample.answering .empty).1
    let db := (history Sample.crates Sample.answering .empty).2
    let event : Event := ⟨Sample.finishing, (Sample.finishing.exec Sample.crates db).1⟩
    ∃ row ∈ db.runs, ∃ moments, Lifetime Sample.crates row.id past moments db ∧ delivered row.id moments = "Hi Ada" ∧
      (∃ snapshot, event.reply = .ok (.finished snapshot)) ∧
      (∀ moment ∈ moments, moment.event.Completes moment.source row.id → ¬ moment.event.Succeeds) ∧
      db.AddsAnswer .compat row.roomId "Hi Ada" (Sample.finishing.exec Sample.crates db).2 := by
  intro past db event
  have keyed : ∀ event ∈ past, event.sealing = .compat := by
    simp [past, Sample.answering, Sample.firstTurn, history]
  have checked : (∃ row ∈ db.runs.rows, row.id = opaqueId "run_" (.ofNat 12) ∧
      row.roomId = opaqueId "room_" (.ofNat 1) ∧ row.status = .running ∧ row.partialText = "Hi Ada") ∧
      (∀ message ∈ db.messages.rows, message.id ≠ event.draws.newMessageId) ∧
      validateRoomId (opaqueId "room_" (.ofNat 1)) = .ok (opaqueId "room_" (.ofNat 1)) := by
    decide +kernel
  have readable : stripPrefix "Hi Ada" COMPAT_ESCAPE = none ∧ isSealedText "Hi Ada" = false := by decide +kernel
  obtain ⟨⟨row, member, named, inRoom, running, text⟩, fresh, valid⟩ := checked
  have step : (storeMachine Sample.crates).step? db event = some (Sample.finishing.exec Sample.crates db).2 :=
    step_exec Sample.crates Sample.finishing db
  have completes : event.Completes db row.id :=
    ⟨row, member, rfl, by rw [running]; rfl, opaqueId "room_" (.ofNat 1), ⟨.completed, none, none⟩,
      Sample.completed_ends, by rw [named]; rfl, rfl, valid.trans (congrArg Except.ok inRoom.symm)⟩
  obtain ⟨moments, life, opens, -, finishes⟩ :=
    @answered_once Sample.crates .compat past db (run_history Sample.crates Sample.answering) trivial keyed row member
  have collected : delivered row.id moments = "Hi Ada" := by
    rw [text, StoreSeal.openText, StoreSeal.openTextDetailed, readable.1] at opens
    simpa [readable.2, Except.map] using opens.symm
  obtain ⟨replies, answers, -⟩ := finishes event _ step rfl
  obtain ⟨snapshot, replied⟩ := replies completes ⟨rfl, rfl, fresh⟩
  obtain ⟨first, adds⟩ := answers completes ⟨_, replied⟩
  rw [collected, if_neg (by decide)] at adds
  exact ⟨row, member, moments, life, collected, ⟨snapshot, replied⟩, first, adds⟩

end RyuRooms
