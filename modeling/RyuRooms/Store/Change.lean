import RyuRooms.Store.Outcomes

/-! # The ten changes of the tables

`Change` lists what one operation can do to the tables, guards included, and every operation's
outcome is one of its cases. The five operations on turns make a `RunChange`, which never touches the
tables of invites, participants and sessions; the other five never touch messages and runs. An
invariant of the tables is then a case analysis, for the store on its own and for the tasks and calls
of the runtime that share it.
-/

namespace RyuRooms

open Foundation

namespace Db

/-- The room is there and not closed. -/
def IsOpen (db : Db) (roomId : String) : Prop := ∃ room ∈ db.rooms, room.id = roomId ∧ room.status ≠ .closed

end Db

/-- A change of messages, runs and room statuses, with what the operation checked first. -/
inductive RunChange (source : Db) : Db → Prop
  | unchanged : RunChange source source
  | accepted {roomId messageId text participantId runId requestId inputText partialText : String}
      {key : Option String} {now : Instant} {messaged ran : Db} (opened : source.IsOpen roomId)
      (free : ∀ run ∈ source.runs, ¬ Db.isActiveIn roomId run)
      (first : source.insertMessage
        (newMessage roomId now .user messageId text (some participantId)) = some messaged)
      (second : messaged.insertRun
        (newRun roomId now runId requestId key inputText partialText) = some ran) :
      RunChange source (Db.setRoomStatus roomId (fun _ => .running) now ran).1
  | extended {roomId runId cell : String} {now : Instant} :
      RunChange source (source.extended roomId runId cell now)
  | settled {roomId runId : String} {status : RunStatus} {errorCode message : Option String}
      {now : Instant} {answered : Db} (terminal : status.isActive = false)
      (active : ∃ run ∈ source.runs, run.id = runId ∧ Db.isActiveIn roomId run)
      (answer : source = answered ∨ (status = .completed ∧ ∃ messageId cell,
        source.insertMessage (newMessage roomId now .assistant messageId cell none) = some answered)) :
      RunChange source ((answered.settled roomId runId status errorCode message now).trimmed roomId)
  | stopped {roomId runId message : String} {runAt roomAt : Instant}
      (active : ∃ run ∈ source.runs, run.id = runId ∧ Db.isActiveIn roomId run) :
      RunChange source (source.stopped roomId runId message runAt roomAt)
  | recovered {messages : List (String × Option String)} {now : Instant}
      (listed : messages.map Prod.fst = (source.runs.select (·.status.isActive)).map RunRow.id) :
      RunChange source (Db.failRunningRooms now (Db.interrupted now messages source)).1

/-- One change an operation makes to the tables, with what the operation checked first. -/
inductive Change (source : Db) : Db → Prop
  | ran {target : Db} (change : RunChange source target) : Change source target
  | created {roomId modelId shareOrigin hostId hostName : String} {digest : List UInt8} {now : Instant}
      {roomed invited target : Db} (valid : validateRoomId roomId = .ok roomId)
      (first : source.insertRoom (newRoom roomId now modelId shareOrigin) = some roomed)
      (second : roomed.insertInvite (newInvite roomId now digest) = some invited)
      (third : invited.insertParticipant (newParticipant roomId now .host hostId hostName) = some target) :
      Change source target
  | joined {inviteDigest sessionDigest : List UInt8} {participantId name : String} {now : Instant}
      {invite : InviteRow} {seated target : Db} (admits : source.Admits inviteDigest now invite)
      (first : source.insertParticipant
        (newParticipant invite.roomId now .guest participantId name) = some seated)
      (second : seated.insertSession
        (newSession invite.roomId now sessionDigest participantId) = some target) : Change source target
  | rotated {roomId : String} {digest : List UInt8} {now : Instant} (opened : source.IsOpen roomId) :
      Change source (source.rotated roomId digest now)
  | revoked {roomId : String} {inviteAt sessionAt : Instant} :
      Change source (source.revoked roomId inviteAt sessionAt)
  | closed {roomId : String} {closedAt inviteAt sessionAt : Instant} :
      Change source (source.closed roomId closedAt inviteAt sessionAt)

/-- What an action does when it succeeds it does as an outcome, if it changes nothing when it fails. -/
theorem outcome_cases {α : Type} {action : StoreM α} {source : Db} {relation : Db → Db → Prop}
    (unchanged : relation source source)
    (success : ∀ result target, action source = .ok result target → relation source target)
    (failure : ∀ error target, action source = .error error target → source = target) :
    relation source (outcome action source).2 := by
  cases acted : action source with
  | ok result target =>
    rw [outcome_ok_iff.mpr acted]
    exact success result target acted
  | error error target =>
    rw [outcome_error_iff.mpr acted]
    exact failure error target acted ▸ unchanged

section Operations

variable {store : RoomStore} {draws : Draws} {source : Db}

namespace RunChange

theorem of_appendTurn (session : RoomSession) (input : SubmitTurnInput) :
    RunChange source (outcome (store.appendTurn draws.env session input) source).2 := by
  refine outcome_cases unchanged (fun _ _ success => ?_) fun _ _ => RoomStore.appendTurn_error
  obtain ⟨⟨-, opened⟩, ⟨-, -, rfl, -⟩ | ⟨_, _, inserted⟩⟩ := RoomStore.appendTurn_ok success
  · exact unchanged
  · obtain ⟨_, _, _, _, _, -, free, first, second, rfl⟩ := RoomStore.insertTurn_ok inserted
    exact accepted opened free first second

theorem of_appendDelta (roomId runId delta : String) :
    RunChange source (outcome (store.appendDelta draws.env roomId runId delta) source).2 := by
  refine outcome_cases unchanged (fun _ _ success => ?_) fun _ _ => RoomStore.appendDelta_error
  obtain ⟨-, _, rfl⟩ := RoomStore.appendDelta_ok success
  exact extended

theorem of_settleRun (roomId runId : String) {terminal : RunTerminal}
    (ended : terminal.status.isActive = false) :
    RunChange source (outcome (store.settleRun draws.env roomId runId terminal) source).2 := by
  refine outcome_cases unchanged (fun _ _ success => ?_) fun _ _ => RoomStore.settleRun_error
  obtain ⟨_, -, run, member, ⟨named, owned⟩, ⟨-, rfl⟩ | ⟨active, answered, _, answer, rfl⟩⟩ :=
    RoomStore.settleRun_ok success
  · exact unchanged
  · exact settled ended ⟨run, member, named, by simp [Db.isActiveIn, owned, active]⟩
      (answer.imp_right fun ⟨completed, cell, inserted⟩ => ⟨completed, _, cell, inserted⟩)

theorem of_stopRun (roomId runId : String) :
    RunChange source (outcome (store.stopRun draws.env roomId runId) source).2 := by
  refine outcome_cases unchanged (fun _ _ success => ?_) fun _ _ => RoomStore.stopRun_error
  obtain ⟨_, _, -, active, rfl⟩ := RoomStore.stopRun_ok success
  exact stopped active

theorem of_recoverRunning : RunChange source (outcome (store.recoverRunning draws.env) source).2 := by
  refine outcome_cases unchanged (fun _ _ success => ?_) fun _ _ failed =>
    absurd failed RoomStore.recoverRunning_ne_error
  obtain ⟨_, listed, rfl⟩ := RoomStore.recoverRunning_ok success
  exact recovered listed

/-- Turns never touch the tables that let guests in. -/
theorem sameAccess {target : Db} (change : RunChange source target) :
    target.invites = source.invites ∧ target.participants = source.participants ∧
      target.sessions = source.sessions := by
  have interrupted (messages : List (String × Option String)) (now : Instant) (db : Db) :
      (Db.interrupted now messages db).invites = db.invites ∧
        (Db.interrupted now messages db).participants = db.participants ∧
        (Db.interrupted now messages db).sessions = db.sessions := by
    induction messages generalizing db with
    | nil => exact ⟨rfl, rfl, rfl⟩
    | cons first rest ih => exact ih _
  cases change with
  | unchanged => exact ⟨rfl, rfl, rfl⟩
  | accepted opened free first second =>
    obtain ⟨-, _, -, rfl⟩ := Db.insertMessage_eq_some_iff.mp first
    obtain ⟨-, _, -, rfl⟩ := Db.insertRun_eq_some_iff.mp second
    exact ⟨rfl, rfl, rfl⟩
  | extended => exact ⟨rfl, rfl, rfl⟩
  | settled terminal active answer =>
    rcases answer with rfl | ⟨-, _, _, inserted⟩
    · exact ⟨rfl, rfl, rfl⟩
    · obtain ⟨-, _, -, rfl⟩ := Db.insertMessage_eq_some_iff.mp inserted
      exact ⟨rfl, rfl, rfl⟩
  | stopped active => exact ⟨rfl, rfl, rfl⟩
  | recovered listed => exact interrupted _ _ _

end RunChange

namespace Change

theorem unchanged : Change source source := ran .unchanged

theorem of_createRoom (input : CreateRoomInput) :
    Change source (outcome (store.createRoom draws.env input) source).2 := by
  refine outcome_cases unchanged (fun _ _ success => ?_) fun _ _ => RoomStore.createRoom_error
  obtain ⟨_, _, _, _, first, second, third, -⟩ := RoomStore.createRoom_ok success
  exact created (RoomStore.validateRoomId_opaqueId _) first second third

theorem of_exchangeInvite (raw displayName : String) :
    Change source (outcome (store.exchangeInvite draws.env raw displayName) source).2 := by
  refine outcome_cases unchanged (fun _ _ success => ?_) fun _ _ => RoomStore.exchangeInvite_error
  obtain ⟨_, _, _, _, -, -, -, admits, first, second, -⟩ := RoomStore.exchangeInvite_ok_iff.mp success
  exact joined admits first second

theorem of_issueInvite (roomId : String) :
    Change source (outcome (store.issueInvite draws.env roomId) source).2 := by
  refine outcome_cases unchanged (fun _ _ success => ?_) fun _ _ => RoomStore.issueInvite_error
  obtain ⟨_, -, opened, -, -, rfl⟩ := RoomStore.issueInvite_ok success
  exact rotated opened

theorem of_revokeInvite (roomId : String) :
    Change source (outcome (RoomStore.revokeInvite draws.env roomId) source).2 := by
  refine outcome_cases unchanged (fun _ _ success => ?_) fun _ _ => RoomStore.revokeInvite_error
  obtain ⟨_, -, -, rfl⟩ := RoomStore.revokeInvite_ok success
  exact revoked

theorem of_closeRoom (roomId : String) :
    Change source (outcome (RoomStore.closeRoom draws.env roomId) source).2 := by
  refine outcome_cases unchanged (fun _ _ success => ?_) fun _ _ => RoomStore.closeRoom_error
  obtain ⟨_, -, -, rfl⟩ := RoomStore.closeRoom_ok success
  exact closed

end Change

end Operations

end RyuRooms
