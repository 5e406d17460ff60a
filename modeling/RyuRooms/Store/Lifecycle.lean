import RyuRooms.Store.RunLink

/-! # What becomes of a run's row

`RunRow.Becomes` relates a row to what it is later: the same run in the same room, whose status only
ever ends. Every operation on turns either adds the row of one new run or leaves rows that became
what they are. The remaining operations leave messages, runs and rooms with runs alone, and every
room id in the tables is one that `validate_room_id` accepts unchanged.
-/

namespace RyuRooms

open Foundation

/-- Ids that start alike differ in their uuid. -/
theorem opaqueId_inj {start : String} {left right : Uuid} :
    opaqueId start left = opaqueId start right ↔ left = right := by
  refine ⟨fun same => ?_, congrArg _⟩
  rw [opaqueId, opaqueId, String.append_right_inj] at same
  cases left
  cases right
  simpa using same

/-- The same run later. -/
structure RunRow.Becomes (old new : RunRow) : Prop where
  id : new.id = old.id
  room : new.roomId = old.roomId
  status : new.status = old.status ∨ (old.status.isActive ∧ new.status.isActive = false)

namespace RunRow.Becomes

variable {old new : RunRow}

theorem refl (row : RunRow) : row.Becomes row := ⟨rfl, rfl, Or.inl rfl⟩

/-- A run that is unfinished later has the status it had. -/
theorem of_active (becomes : old.Becomes new) (active : new.status.isActive) : new.status = old.status :=
  becomes.status.resolve_right fun ⟨_, ended⟩ => by simp [active] at ended

/-- A finished run keeps its status. -/
theorem of_finished (becomes : old.Becomes new) (finished : old.status.isActive = false) :
    new.status = old.status :=
  becomes.status.resolve_right fun ⟨active, _⟩ => by simp [active] at finished

end RunRow.Becomes

/-- The same run later, with the partial text it had. -/
structure RunRow.Carried (old new : RunRow) : Prop extends old.Becomes new where
  text : new.partialText = old.partialText

theorem RunRow.Carried.refl (row : RunRow) : row.Carried row := ⟨.refl row, rfl⟩

namespace Db

variable {source target : Db} {roomId runId : String}

/-- No run is added, and runs only end. -/
def OnlyEnds (source target : Db) : Prop := ∀ row ∈ target.runs, ∃ old ∈ source.runs, old.Becomes row

/-- No run is added, runs only end, and partial texts stay. -/
def OnlyCarries (source target : Db) : Prop := ∀ row ∈ target.runs, ∃ old ∈ source.runs, old.Carried row

namespace OnlyCarries

theorem onlyEnds (carries : source.OnlyCarries target) : source.OnlyEnds target := by
  intro row member
  obtain ⟨old, held, carried⟩ := carries row member
  exact ⟨old, held, carried.toBecomes⟩

theorem of_eq (same : target.runs = source.runs) : source.OnlyCarries target := by
  intro row member
  exact ⟨row, same ▸ member, .refl row⟩

theorem stopped {message : String} {runAt roomAt : Instant} :
    source.OnlyCarries (source.stopped roomId runId message runAt roomAt) := by
  intro row member
  obtain ⟨old, held, rfl⟩ := mem_stopped_runs.mp member
  refine ⟨old, held, ?_⟩
  split
  · next chosen =>
    simp only [Bool.and_eq_true, isActiveIn_iff] at chosen
    exact ⟨⟨rfl, rfl, Or.inr ⟨chosen.2.2, rfl⟩⟩, rfl⟩
  · exact .refl old

theorem settled {answered : Db} {status : RunStatus} {errorCode message : Option String} {now : Instant}
    (terminal : status.isActive = false) (runs : answered.runs = source.runs)
    (active : ∃ run ∈ source.runs, run.id = runId ∧ run.status.isActive) :
    source.OnlyCarries ((answered.settled roomId runId status errorCode message now).trimmed roomId) := by
  intro row member
  obtain ⟨old, held, rfl⟩ := mem_settled_runs.mp (of_mem_trimmed_runs member)
  rw [runs] at held
  refine ⟨old, held, ?_⟩
  split
  · next chosen =>
    simp only [Bool.and_eq_true, beq_iff_eq] at chosen
    obtain ⟨run, runMem, named, alive⟩ := active
    obtain rfl := Table.eq_of_key held runMem (chosen.1.trans named.symm)
    exact ⟨⟨rfl, rfl, Or.inr ⟨alive, terminal⟩⟩, rfl⟩
  · exact .refl old

theorem interrupted {messages : List (String × Option String)} {now : Instant} :
    source.OnlyCarries (Db.interrupted now messages source) := by
  induction messages generalizing source with
  | nil => exact .of_eq rfl
  | cons first rest ih =>
    intro row member
    obtain ⟨middle, held, carried⟩ := ih row member
    obtain ⟨old, oldMem, rfl⟩ := mem_interruptRun.mp held
    refine ⟨old, oldMem, ?_⟩
    split at carried
    · next chosen =>
      simp only [Bool.and_eq_true] at chosen
      exact ⟨⟨carried.id, carried.room, Or.inr ⟨chosen.2, carried.of_finished rfl ▸ rfl⟩⟩, carried.text⟩
    · exact carried

end OnlyCarries

namespace OnlyEnds

theorem of_eq (same : target.runs = source.runs) : source.OnlyEnds target := (OnlyCarries.of_eq same).onlyEnds

theorem extended {cell : String} {now : Instant} : source.OnlyEnds (source.extended roomId runId cell now) := by
  intro row member
  obtain ⟨old, held, rfl⟩ := mem_setPartialText.mp member
  refine ⟨old, held, ?_⟩
  split <;> exact ⟨rfl, rfl, Or.inl rfl⟩

end OnlyEnds

/-- Messages and runs are left alone, and rooms are only added, idle and without a run. -/
structure SameTurns (source target : Db) : Prop where
  messages : target.messages = source.messages
  runs : target.runs = source.runs
  kept : ∀ room ∈ source.rooms, room ∈ target.rooms
  added : ∀ room ∈ target.rooms, room ∈ source.rooms ∨ ∀ other ∈ source.rooms, other.id ≠ room.id

theorem SameTurns.of_rooms (messages : target.messages = source.messages) (runs : target.runs = source.runs)
    (rooms : target.rooms = source.rooms) : source.SameTurns target :=
  ⟨messages, runs, fun _ member => rooms ▸ member, fun _ member => Or.inl (rooms ▸ member)⟩

/-- Every room id is valid as it is stored. -/
def ValidRooms (db : Db) : Prop := ∀ room ∈ db.rooms, validateRoomId room.id = .ok room.id

theorem ValidRooms.of_ids (valid : source.ValidRooms)
    (ids : ∀ room ∈ target.rooms, ∃ old ∈ source.rooms, old.id = room.id) : target.ValidRooms := by
  intro room member
  obtain ⟨old, held, same⟩ := ids room member
  exact same ▸ valid old held

end Db

namespace RunChange

variable {source target : Db}

/-- Changes of runs leave the room ids alone. -/
theorem room_ids (change : RunChange source target) {room : RoomRow} (member : room ∈ target.rooms) :
    ∃ old ∈ source.rooms, old.id = room.id := by
  have moved {db : Db} {roomId : String} {status : RoomStatus → RoomStatus} {now : Instant}
      (member : room ∈ (Db.setRoomStatus roomId status now db).1.rooms) : ∃ old ∈ db.rooms, old.id = room.id := by
    obtain ⟨old, held, rfl⟩ := Db.mem_setRoomStatus.mp member
    refine ⟨old, held, ?_⟩
    split <;> rfl
  cases change with
  | unchanged => exact ⟨room, member, rfl⟩
  | accepted opened free first second =>
    obtain ⟨-, _, -, rfl⟩ := Db.insertMessage_eq_some_iff.mp first
    obtain ⟨-, _, -, rfl⟩ := Db.insertRun_eq_some_iff.mp second
    obtain ⟨old, held, same⟩ := moved member
    exact ⟨old, held, same⟩
  | extended => exact moved member
  | settled terminal active answer =>
    obtain ⟨old, held, same⟩ := moved member
    rcases answer with rfl | ⟨-, _, _, inserted⟩
    · exact ⟨old, held, same⟩
    · obtain ⟨-, _, -, rfl⟩ := Db.insertMessage_eq_some_iff.mp inserted
      exact ⟨old, held, same⟩
  | stopped active => exact moved member
  | recovered listed =>
    obtain ⟨old, held, rfl⟩ := Db.mem_failRunningRooms.mp member
    refine ⟨old, by rwa [Db.interrupted_rooms] at held, ?_⟩
    split <;> rfl

end RunChange

/-- Every change keeps room ids valid. -/
theorem Db.ValidRooms.change {source target : Db} (valid : source.ValidRooms) (change : Change source target) :
    target.ValidRooms := by
  cases change with
  | ran change => exact valid.of_ids fun _ member => change.room_ids member
  | created isValid first second third =>
    obtain ⟨rooms, inserted, rfl⟩ := Db.insertRoom_eq_some_iff.mp first
    obtain ⟨-, _, -, rfl⟩ := Db.insertInvite_eq_some_iff.mp second
    obtain ⟨-, _, -, rfl⟩ := Db.insertParticipant_eq_some_iff.mp third
    intro room member
    rcases (Table.mem_of_insert? inserted).mp member with held | rfl
    · exact valid room held
    · exact isValid
  | joined admits first second =>
    obtain ⟨-, _, -, rfl⟩ := Db.insertParticipant_eq_some_iff.mp first
    obtain ⟨-, _, -, rfl⟩ := Db.insertSession_eq_some_iff.mp second
    exact valid
  | rotated opened => exact valid
  | revoked => exact valid
  | closed =>
    refine valid.of_ids fun room member => ?_
    obtain ⟨old, held, rfl⟩ := Db.mem_closed_rooms.mp member
    refine ⟨old, held, ?_⟩
    split <;> rfl

/-- In every history of the store, room ids are valid as they are stored. -/
theorem validRooms_of_run {crates : Crates} {events : List Event} {db : Db}
    (run : (storeMachine crates).Run events db) : db.ValidRooms :=
  run.invariant (fun _ initial room member => by simp [show _ = Db.empty from initial, Db.empty] at member)
    fun _ _ _ valid step => valid.change (Event.change step)

section Operations

variable {store : RoomStore} {draws : Draws} {source target : Db}

namespace RoomStore

theorem appendDelta_onlyEnds {roomId runId delta : String}
    (success : store.appendDelta draws.env roomId runId delta source = .ok () target) : source.OnlyEnds target := by
  obtain ⟨-, _, rfl⟩ := appendDelta_ok success
  exact .extended

theorem stopRun_onlyEnds {roomId runId : String}
    (success : store.stopRun draws.env roomId runId source = .ok () target) : source.OnlyEnds target := by
  obtain ⟨_, _, -, -, rfl⟩ := stopRun_ok success
  exact Db.OnlyCarries.stopped.onlyEnds

theorem settleRun_onlyCarries {roomId runId : String} {terminal : RunTerminal}
    (ends : terminal.status.isActive = false)
    (success : store.settleRun draws.env roomId runId terminal source = .ok () target) :
    source.OnlyCarries target := by
  obtain ⟨id, -, run, member, ⟨named, -⟩, ⟨-, rfl⟩ | ⟨active, answered, _, answer, rfl⟩⟩ := settleRun_ok success
  · exact .of_eq rfl
  · refine .settled ends ?_ ⟨run, member, named, active⟩
    rcases answer with rfl | ⟨-, _, inserted⟩
    · rfl
    · obtain ⟨-, _, -, rfl⟩ := Db.insertMessage_eq_some_iff.mp inserted
      rfl

/-- After a stop the run is canceled. -/
theorem stopRun_canceled {roomId runId : String}
    (success : store.stopRun draws.env roomId runId source = .ok () target) :
    ∀ row ∈ target.runs, row.id = runId → row.status = .canceled := by
  obtain ⟨id, _, -, ⟨run, member, named, active⟩, rfl⟩ := stopRun_ok success
  intro row rowMem same
  obtain ⟨old, held, rfl⟩ := Db.mem_stopped_runs.mp rowMem
  have sameOld : old.id = runId := by
    rw [← same]
    split <;> rfl
  obtain rfl := Table.eq_of_key held member (sameOld.trans named.symm)
  simp [named, show Db.isActiveIn id old from active]

/-- After `finish_run` the run is finished; if it was unfinished, with the terminal status. -/
theorem settleRun_finished {roomId runId : String} {terminal : RunTerminal}
    (success : store.settleRun draws.env roomId runId terminal source = .ok () target) :
    ∃ run ∈ source.runs, run.id = runId ∧ ∀ row ∈ target.runs, row.id = runId →
      row.status = if run.status.isActive then terminal.status else run.status := by
  obtain ⟨id, -, run, member, ⟨named, owned⟩, ⟨finished, rfl⟩ | ⟨active, answered, _, answer, rfl⟩⟩ :=
    settleRun_ok success
  · refine ⟨run, member, named, fun row rowMem same => ?_⟩
    obtain rfl := Table.eq_of_key rowMem member (same.trans named.symm)
    simp [finished]
  · refine ⟨run, member, named, fun row rowMem same => ?_⟩
    obtain ⟨old, held, rfl⟩ := Db.mem_settled_runs.mp (Db.of_mem_trimmed_runs rowMem)
    have runs : answered.runs = source.runs := by
      rcases answer with rfl | ⟨-, _, inserted⟩
      · rfl
      · obtain ⟨-, _, -, rfl⟩ := Db.insertMessage_eq_some_iff.mp inserted
        rfl
    have sameOld : old.id = runId := by
      rw [← same]
      split <;> rfl
    obtain rfl := Table.eq_of_key (runs ▸ held) member (sameOld.trans named.symm)
    simp [named, owned, active]

/-- An accepted turn either retries a run of its room or adds a running one. -/
theorem appendTurn_runs {session : RoomSession} {input : SubmitTurnInput} {turn : AppendedTurn}
    (success : store.appendTurn draws.env session input source = .ok turn target) :
    turn.roomId = session.roomId ∧ (∃ room ∈ source.rooms, room.id = turn.roomId ∧ room.status ≠ .closed) ∧
      ((target = source ∧ turn.messageId = none ∧
          ∃ run ∈ source.runs, run.id = turn.runId ∧ run.roomId = turn.roomId) ∨
        (turn.messageId.isSome ∧ turn.runId = opaqueId "run_" (draws.uuid 1) ∧
          ∃ row, row.id = turn.runId ∧ row.roomId = turn.roomId ∧ row.status = .running ∧
            ∀ other, other ∈ target.runs ↔ other ∈ source.runs ∨ other = row)) := by
  obtain ⟨⟨-, opened⟩, ⟨retried, owned, rfl, found⟩ | ⟨_, _, inserted⟩⟩ := appendTurn_ok success
  · exact ⟨owned, owned ▸ opened, Or.inl ⟨rfl, retried, owned ▸ found⟩⟩
  · obtain ⟨_, _, _, _, ran, rfl, -, first, second, rfl⟩ := insertTurn_ok inserted
    obtain ⟨-, _, -, rfl⟩ := Db.insertMessage_eq_some_iff.mp first
    obtain ⟨-, _, added, rfl⟩ := Db.insertRun_eq_some_iff.mp second
    exact ⟨rfl, opened, Or.inr ⟨rfl, rfl, _, rfl, rfl, rfl, fun other => Table.mem_of_insert? added⟩⟩

/-- Opening a run leaves its id and status alone. -/
theorem openRun_ok {run opened : RoomRun} (success : store.openRun run = .ok opened) :
    opened.runId = run.runId ∧ opened.status = run.status := by
  simp only [openRun, bind, Except.bind] at success
  split at success
  · cases success
  · split at success
    · cases success
    · obtain rfl := Except.ok.inj success
      exact ⟨rfl, rfl⟩

theorem openRunOrBlank_same (run : RoomRun) :
    (store.openRunOrBlank run).runId = run.runId ∧ (store.openRunOrBlank run).status = run.status := by
  simp only [openRunOrBlank]
  split
  · next opens => exact openRun_ok opens
  · exact ⟨rfl, rfl⟩

/-- The current run of a snapshot is a row of its room, with the row's status. -/
theorem snapshotFrom_currentRun {id : String} {snapshot : RoomSnapshot}
    (shown : store.snapshotFrom source id = some snapshot) :
    snapshot.id = id ∧ ∀ run ∈ snapshot.currentRun, ∃ row ∈ source.runs,
      row.id = run.runId ∧ row.roomId = id ∧ row.status = run.status := by
  obtain ⟨room, -, rfl⟩ := Option.map_eq_some_iff.mp shown
  refine ⟨rfl, fun run current => ?_⟩
  obtain ⟨row, first, rfl⟩ := Option.map_eq_some_iff.mp current
  have member := mem_of_mem_newest (List.mem_of_mem_head? first)
  simp only [Table.mem_select, Bool.and_eq_true, beq_iff_eq] at member
  obtain ⟨sameId, sameStatus⟩ := @openRunOrBlank_same store (rowToRun row)
  exact ⟨row, member.1, sameId.symm, member.2.1, sameStatus.symm⟩

theorem runById_some {point : ℕ} {roomId runId : String} {run : RoomRun}
    (success : store.runById draws.env point roomId runId source = .ok (some run) target) :
    ∃ row ∈ source.runs, row.id = runId ∧ row.roomId = roomId ∧ run.runId = row.id ∧ run.status = row.status := by
  simp only [runById, bind_ok_iff, query_ok_iff] at success
  obtain ⟨found, _, ⟨looked, rfl⟩, success⟩ := success
  cases found with
  | none => simp at success
  | some row =>
    simp only [map_ok_iff, returnExcept_ok_iff, Option.some.injEq] at success
    obtain ⟨opened, ⟨opens, -⟩, rfl⟩ := success
    obtain ⟨member, chosen⟩ := Table.find?_eq_some looked
    simp only [Bool.and_eq_true, beq_iff_eq] at chosen
    have same : opened.runId = row.id ∧ opened.status = row.status := by
      cases result : store.openRun (rowToRun row) with
      | error reason => simp [result, Except.mapError] at opens
      | ok value =>
        obtain rfl : value = opened := by simpa [result, Except.mapError] using opens
        exact openRun_ok result
    exact ⟨row, member, chosen.2, chosen.1, same⟩

/-- An accepted turn shows the snapshot's run when it was inserted, and the retried run otherwise. -/
theorem acceptTurn_ok {turn : AppendedTurn} {snapshot : RoomSnapshot} {accepted : AcceptedRun}
    (success : store.acceptTurn draws.env turn snapshot source = .ok accepted target) :
    accepted.snapshot = snapshot ∧
      ((turn.messageId.isSome ∧ snapshot.currentRun = some accepted.run) ∨
        (turn.messageId = none ∧ ∃ row ∈ source.runs, row.id = turn.runId ∧ row.roomId = turn.roomId ∧
          accepted.run.runId = row.id ∧ accepted.run.status = row.status)) := by
  simp only [acceptTurn, bind_ok_iff, orFail_ok_iff, pure_ok_iff] at success
  obtain ⟨run, _, taken, message, _, ⟨-, rfl⟩, rfl, rfl⟩ := success
  refine ⟨rfl, ?_⟩
  simp only [acceptedRun] at taken
  cases messageId : turn.messageId with
  | some id =>
    simp only [messageId, orFail_ok_iff] at taken
    exact Or.inl ⟨rfl, taken.1⟩
  | none =>
    simp only [messageId, bind_ok_iff, orFail_ok_iff] at taken
    obtain ⟨_, _, found, rfl, rfl⟩ := taken
    exact Or.inr ⟨rfl, runById_some found⟩

theorem createRoom_sameTurns {input : CreateRoomInput} {created : CreatedRoom}
    (success : store.createRoom draws.env input source = .ok created target) : source.SameTurns target := by
  obtain ⟨_, _, _, _, first, second, third, -⟩ := createRoom_ok success
  obtain ⟨rooms, inserted, rfl⟩ := Db.insertRoom_eq_some_iff.mp first
  obtain ⟨-, _, -, rfl⟩ := Db.insertInvite_eq_some_iff.mp second
  obtain ⟨-, _, -, rfl⟩ := Db.insertParticipant_eq_some_iff.mp third
  have rows (room : RoomRow) : room ∈ rooms ↔ room ∈ source.rooms ∨ room = _ := Table.mem_of_insert? inserted
  refine ⟨rfl, rfl, fun room member => (rows room).mpr (Or.inl member), fun room member => ?_⟩
  rcases (rows room).mp member with held | rfl
  · exact Or.inl held
  · exact Or.inr (Table.insert?_eq_some_iff.mp inserted).1

theorem exchangeInvite_sameTurns {raw displayName : String} {session : RoomSession}
    (success : store.exchangeInvite draws.env raw displayName source = .ok session target) :
    source.SameTurns target := by
  obtain ⟨_, _, _, _, -, -, -, -, first, second, -⟩ := exchangeInvite_ok_iff.mp success
  obtain ⟨-, _, -, rfl⟩ := Db.insertParticipant_eq_some_iff.mp first
  obtain ⟨-, _, -, rfl⟩ := Db.insertSession_eq_some_iff.mp second
  exact .of_rooms rfl rfl rfl

theorem issueInvite_sameTurns {roomId : String} {issued : IssuedInvite}
    (success : store.issueInvite draws.env roomId source = .ok issued target) : source.SameTurns target := by
  obtain ⟨_, -, -, -, -, rfl⟩ := issueInvite_ok success
  exact .of_rooms rfl rfl rfl

theorem revokeInvite_sameTurns {roomId : String}
    (success : RoomStore.revokeInvite draws.env roomId source = .ok () target) : source.SameTurns target := by
  obtain ⟨_, -, -, rfl⟩ := revokeInvite_ok success
  exact .of_rooms rfl rfl rfl

end RoomStore

end Operations

end RyuRooms
