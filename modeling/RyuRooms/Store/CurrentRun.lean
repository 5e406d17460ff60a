import RyuRooms.Store.Created
import RyuRooms.Store.Messages

/-! # The run a snapshot shows

The current run of a snapshot is chosen among the queued, running and failed runs of its room, before they are
ordered. So it is the last run created in the room, or none once that run completed or was canceled, exactly
where no earlier failed run is retained: a run that completes or is canceled while a failed one stays lets the
failed one show again. The runs are ordered by the texts of their timestamps, which up to the year 9999 are
ordered as the instants are.
-/

namespace RyuRooms

open Foundation

/-- The last run created in a room, as the tables hold it. -/
def latestRun (db : Db) (log : List RunRow) : Option RunRow :=
  log.getLast?.bind fun entry => db.runs.find? (·.id == entry.id)

/-- The runs that stay in a room when a call completes or cancels its unfinished run. -/
def Event.remaining (event : Event) (db : Db) : List RunRow :=
  match event.op with
  | .finishRun _ runId terminal _ =>
    if terminal.status = .completed then
      (db.runs.select fun run => run.id == runId && run.status.isActive).flatMap fun run =>
        newest RunRow.createdAt RunRow.id Limits.MAX_RETAINED_RUNS (db.runs.select (·.roomId == run.roomId))
    else []
  | .stopRun _ runId =>
    (db.runs.select fun run => run.id == runId && run.status.isActive).flatMap fun run =>
      db.runs.select (·.roomId == run.roomId)
  | _ => []

/-- No failed run stays in a room when a successful call completes or cancels a later one. -/
def Event.LeavesNoFailed (db : Db) (event : Event) : Prop :=
  event.reply.isOk → ∀ run ∈ event.remaining db, run.status ≠ .failed

instance (db : Db) (event : Event) : Decidable (event.LeavesNoFailed db) :=
  inferInstanceAs (Decidable (event.reply.isOk = true → ∀ run ∈ event.remaining db, run.status ≠ .failed))

namespace Db

variable {log : List RunRow} {db source target : Db} {roomId : String}

/-- The last created run is current, or no run of the room failed. -/
def ShowsNoOlder (db : Db) (log : List RunRow) (roomId : String) : Prop :=
  (∃ row, latestRun db log = some row ∧ row.status.isCurrent) ∨
    ∀ row ∈ db.runs, row.roomId = roomId → row.status ≠ .failed

section State

theorem latestRun_eq_some_iff (holds : db.Holds log roomId) {row : RunRow} : latestRun db log = some row ↔
    row ∈ db.runs ∧ ∃ entry, log.getLast? = some entry ∧ entry.turn = row.turn := by
  have finds (id : String) (row : RunRow) : db.runs.find? (·.id == id) = some row ↔ row ∈ db.runs ∧ row.id = id := by
    rw [Table.find?_eq_some_iff fun left right => by simp +contextual]
    simp
  simp only [latestRun, Option.bind_eq_some_iff, finds]
  constructor
  · rintro ⟨entry, isLast, member, named⟩
    obtain ⟨other, there, turn⟩ := holds.latest entry isLast
    obtain rfl := Table.eq_of_key member there (named.trans (RunRow.id_of_turn turn).symm)
    exact ⟨member, entry, isLast, turn.symm⟩
  · rintro ⟨member, entry, isLast, turn⟩
    exact ⟨entry, isLast, member, (RunRow.id_of_turn turn).symm⟩

theorem room_of_latest (holds : db.Holds log roomId) {row : RunRow} (latest : latestRun db log = some row) :
    row.roomId = roomId := by
  obtain ⟨-, entry, isLast, turn⟩ := (latestRun_eq_some_iff holds).mp latest
  rw [← RunRow.room_of_turn turn]
  exact holds.owned entry (List.mem_of_getLast? isLast)

/-- The last created run, while it is current, is the one a snapshot shows. -/
theorem currentRow_of_latest (holds : db.Holds log roomId) (increasing : Increasing log) {row : RunRow}
    (latest : latestRun db log = some row) (current : row.status.isCurrent) :
    RoomStore.currentRow db roomId = some row := by
  obtain ⟨member, entry, isLast, turn⟩ := (latestRun_eq_some_iff holds).mp latest
  exact RoomStore.currentRow_eq_some_iff.mpr ⟨member, room_of_latest holds latest, current,
    fun other there inRoom _ => holds.comesFirst_of_latest increasing isLast turn.symm there inRoom⟩

/-- A current run other than the last created one failed. -/
theorem failed_of_current (holds : db.Holds log roomId) {row : RunRow} (member : row ∈ db.runs)
    (inRoom : row.roomId = roomId) (current : row.status.isCurrent) (other : latestRun db log ≠ some row) :
    row.status = .failed := by
  cases status : row.status with
  | failed => rfl
  | completed | canceled => simp [status, RunStatus.isCurrent] at current
  | queued | running =>
    obtain ⟨entry, isLast, turn⟩ := holds.active row member inRoom (by simp [status, RunStatus.isActive])
    exact absurd ((latestRun_eq_some_iff holds).mpr ⟨member, entry, isLast, turn⟩) other

/-- A snapshot shows the last created run while it is current, and none afterwards, exactly where no older run
can show. -/
theorem currentRow_eq_latest_iff (holds : db.Holds log roomId) (increasing : Increasing log) :
    RoomStore.currentRow db roomId = (latestRun db log).filter (·.status.isCurrent) ↔
      db.ShowsNoOlder log roomId := by
  constructor
  · intro shows
    by_contra older
    simp only [ShowsNoOlder, not_or, not_exists, not_and, not_forall, not_not] at older
    obtain ⟨ended, row, member, inRoom, failed⟩ := older
    have none : (latestRun db log).filter (·.status.isCurrent) = none := by
      rw [Option.filter_eq_none_iff]
      exact fun latest isLatest => ended latest isLatest
    rw [none, RoomStore.currentRow, newest, List.head?_take, if_neg one_ne_zero, List.head?_eq_none_iff,
      ← List.length_eq_zero_iff, List.length_insertionSort, List.length_eq_zero_iff] at shows
    have chosen : row ∈ db.runs.select fun run => run.roomId == roomId && run.status.isCurrent :=
      Table.mem_select.mpr ⟨member, by simp [inRoom, failed, RunStatus.isCurrent]⟩
    rw [shows] at chosen
    cases chosen
  · rintro (⟨row, latest, current⟩ | unfailed)
    · rw [currentRow_of_latest holds increasing latest current, latest, Option.filter_some, if_pos current]
    · cases shown : RoomStore.currentRow db roomId with
      | none =>
        rw [eq_comm, Option.filter_eq_none_iff]
        intro latest isLatest current
        rw [currentRow_of_latest holds increasing isLatest current] at shown
        cases shown
      | some row =>
        obtain ⟨member, inRoom, current, -⟩ := RoomStore.currentRow_eq_some_iff.mp shown
        by_cases latest : latestRun db log = some row
        · rw [latest, Option.filter_some, if_pos current]
        · exact absurd (failed_of_current holds member inRoom current latest) (unfailed row member inRoom)

end State

section Idle

/-- Interrupting a run leaves its status or makes it failed. -/
theorem status_of_mem_interrupted {messages : List (String × Option String)} {now : Instant} {row : RunRow}
    (member : row ∈ (interrupted now messages db).runs) :
    ∃ old ∈ db.runs, old.id = row.id ∧ (row.status = old.status ∨ row.status = .failed) := by
  induction messages generalizing db with
  | nil => exact ⟨row, member, rfl, Or.inl rfl⟩
  | cons first rest ih =>
    obtain ⟨middle, held, same, status⟩ := ih member
    obtain ⟨old, there, became⟩ := mem_interruptRun.mp held
    split at became
    · subst became
      exact ⟨old, there, same, Or.inr (status.elim id id)⟩
    · subst became
      exact ⟨old, there, same, status⟩

/-- Every row of a room that a change leaves was there before. -/
def OnlyOld (source target : Db) (roomId : String) : Prop :=
  ∀ row ∈ target.runs, row.roomId = roomId → ∃ old ∈ source.runs, old.turn = row.turn ∧ old.Becomes row

theorem OnlyOld.of_eq (same : target.runs = source.runs) : source.OnlyOld target roomId :=
  fun row member _ => ⟨row, same ▸ member, rfl, .refl row⟩

/-- Where no run is inserted, every row was there before. -/
theorem TurnStep.onlyOld (step : source.TurnStep target)
    (none : ∀ row ∈ target.runs, row.roomId = roomId → ∃ old ∈ source.runs, old.id = row.id) :
    source.OnlyOld target roomId := by
  intro row member inRoom
  have both (turns : ∃ old ∈ source.runs, old.turn = row.turn) (ends : source.OnlyEnds target) :
      ∃ old ∈ source.runs, old.turn = row.turn ∧ old.Becomes row := by
    obtain ⟨old, held, turn⟩ := turns
    obtain ⟨other, there, becomes⟩ := ends row member
    obtain rfl := Table.eq_of_key held there ((RunRow.id_of_turn turn).trans becomes.id)
    exact ⟨old, held, turn, becomes⟩
  cases step with
  | kept same ends => exact both (List.mem_map.mp (same ▸ List.mem_map_of_mem member)) ends
  | @inserted new fresh untaken free running rows =>
    rw [← Table.mem_rows, rows, List.mem_append, List.mem_singleton] at member
    rcases member with held | rfl
    · exact ⟨row, held, rfl, .refl row⟩
    · obtain ⟨old, held, same⟩ := none row (by rw [← Table.mem_rows, rows]; simp) inRoom
      exact absurd same (fresh old held)
  | trimmed same runs ends =>
    exact both (List.mem_map.mp (same ▸ List.mem_map_of_mem (Table.mem_delete.mp (runs ▸ member)).1)) ends

/-- The unfinished run of a room completes or is canceled. -/
def Retired (source target : Db) (roomId : String) : Prop :=
  ∃ run ∈ source.runs, run.roomId = roomId ∧ run.status.isActive ∧
    ∀ row ∈ target.runs, row.id = run.id → row.status.isCurrent = false

/-- A room that is idle after a run was settled was so before, or the run was retired. -/
theorem idle_settled {answered : Db} {runId : String} {status : RunStatus} {errorCode message : Option String} {now : Instant}
    (terminal : status.isActive = false) (same : answered.runs = source.runs ∧ answered.rooms = source.rooms)
    (active : ∃ run ∈ source.runs, run.id = runId ∧ Db.isActiveIn roomId run) {room : RoomRow}
    (member : room ∈ ((answered.settled roomId runId status errorCode message now).trimmed roomId).rooms)
    (idle : room.status = .idle) : (∃ old ∈ source.rooms, old.id = room.id ∧ old.status = .idle) ∨
      source.Retired ((answered.settled roomId runId status errorCode message now).trimmed roomId) room.id := by
  obtain ⟨run, there, named, alive⟩ := active
  obtain ⟨owned, running⟩ := isActiveIn_iff.mp alive
  obtain ⟨old, held, rfl⟩ := mem_setRoomStatus.mp member
  split at idle
  · next chosen =>
    rw [if_pos chosen]
    refine Or.inr ⟨run, there, owned.trans (eq_of_beq chosen).symm, running, fun row rowMem sameId => ?_⟩
    have settles : RoomStore.settledStatus status = .idle := by
      cases closed : old.status <;> simp_all [unlessClosed]
    obtain ⟨known, knownMem, rfl⟩ := mem_settled_runs.mp (of_mem_trimmed_runs rowMem)
    have knownId : known.id = run.id := by
      rw [← sameId]
      split <;> rfl
    obtain rfl := Table.eq_of_key (same.1 ▸ knownMem : known ∈ source.runs) there knownId
    rw [if_pos (by simp [named, owned])]
    cases status <;> simp_all [RoomStore.settledStatus, RunStatus.isCurrent, RunStatus.isActive]
  · next other =>
    rw [if_neg other]
    exact Or.inl ⟨old, same.2 ▸ held, rfl, idle⟩

/-- A room that is idle after a run was stopped was so before, or the run was retired. -/
theorem idle_stopped {runId message : String} {runAt roomAt : Instant}
    (active : ∃ run ∈ source.runs, run.id = runId ∧ Db.isActiveIn roomId run) {room : RoomRow}
    (member : room ∈ (source.stopped roomId runId message runAt roomAt).rooms) (idle : room.status = .idle) :
    (∃ old ∈ source.rooms, old.id = room.id ∧ old.status = .idle) ∨
      source.Retired (source.stopped roomId runId message runAt roomAt) room.id := by
  obtain ⟨run, there, named, alive⟩ := active
  obtain ⟨owned, running⟩ := isActiveIn_iff.mp alive
  obtain ⟨old, held, rfl⟩ := mem_setRoomStatus.mp member
  split at idle
  · next chosen =>
    rw [if_pos chosen]
    refine Or.inr ⟨run, there, owned.trans (eq_of_beq chosen).symm, running, fun row rowMem sameId => ?_⟩
    obtain ⟨known, knownMem, rfl⟩ := mem_stopped_runs.mp rowMem
    have knownId : known.id = run.id := by
      rw [← sameId]
      split <;> rfl
    obtain rfl := Table.eq_of_key knownMem there knownId
    rw [if_pos (by simp [named, owned, running])]
    rfl
  · next other =>
    rw [if_neg other]
    exact Or.inl ⟨old, held, rfl, idle⟩

end Idle

end Db

/-- A room is idle after a change of runs when it was before, or when its unfinished run was retired. -/
theorem RunChange.idle {source target : Db} (change : RunChange source target) {room : RoomRow}
    (member : room ∈ target.rooms) (idle : room.status = .idle) :
    source.OnlyOld target room.id ∧
      ((∃ old ∈ source.rooms, old.id = room.id ∧ old.status = .idle) ∨ source.Retired target room.id) := by
  have steps := change.turnStep
  have kept (ends : source.OnlyEnds target) : source.OnlyOld target room.id :=
    steps.onlyOld fun row there _ =>
      let ⟨old, held, becomes⟩ := ends row there
      ⟨old, held, becomes.id.symm⟩
  cases change with
  | unchanged => exact ⟨.of_eq rfl, Or.inl ⟨room, member, rfl, idle⟩⟩
  | accepted opened free first second =>
    obtain ⟨-, _, -, rfl⟩ := Db.insertMessage_eq_some_iff.mp first
    obtain ⟨-, _, added, rfl⟩ := Db.insertRun_eq_some_iff.mp second
    obtain ⟨old, held, rfl⟩ := Db.mem_setRoomStatus.mp member
    split at idle
    · cases idle
    · next other =>
      rw [if_neg other]
      refine ⟨steps.onlyOld fun row there inRoom => ?_, Or.inl ⟨old, held, rfl, idle⟩⟩
      rcases (Table.mem_of_insert? added).mp there with before | rfl
      · exact ⟨row, before, rfl⟩
      · exact absurd (beq_iff_eq.mpr inRoom.symm) other
  | extended =>
    obtain ⟨old, held, rfl⟩ := Db.mem_setRoomStatus.mp member
    refine ⟨kept .extended, Or.inl ⟨old, held, ?_⟩⟩
    split at idle <;> simp_all
  | @settled roomId runId status errorCode message now answered terminal active answer =>
    have same : answered.runs = source.runs ∧ answered.rooms = source.rooms := by
      rcases answer with rfl | ⟨-, _, _, inserted⟩
      · exact ⟨rfl, rfl⟩
      · obtain ⟨-, _, -, rfl⟩ := Db.insertMessage_eq_some_iff.mp inserted
        exact ⟨rfl, rfl⟩
    have idled := Db.idle_settled terminal same active member idle
    obtain ⟨run, there, named, alive⟩ := active
    have running := (Db.isActiveIn_iff.mp alive).2
    exact ⟨kept (Db.OnlyCarries.settled terminal same.1 ⟨run, there, named, running⟩).onlyEnds, idled⟩
  | stopped active => exact ⟨kept Db.OnlyCarries.stopped.onlyEnds, Db.idle_stopped active member idle⟩
  | recovered listed =>
    obtain ⟨old, held, rfl⟩ := Db.mem_failRunningRooms.mp member
    rw [Db.interrupted_rooms] at held
    refine ⟨kept Db.OnlyCarries.interrupted.onlyEnds, ?_⟩
    split at idle
    · cases idle
    · next other =>
      rw [if_neg other]
      exact Or.inl ⟨old, held, rfl, idle⟩

theorem RunStatus.isCurrent_of_isActive {status : RunStatus} (active : status.isActive) : status.isCurrent := by
  cases status <;> first | rfl | cases active

namespace Db

variable {source answered : Db} {roomId runId : String} {status : RunStatus} {errorCode message : Option String}
  {now : Instant}

/-- Where none of the newest runs of a room failed, none is left failed once a run of it settled otherwise. -/
theorem unfailed_settled (runs : answered.runs = source.runs) (ended : status ≠ .failed)
    (clean : ∀ run ∈ newest RunRow.createdAt RunRow.id Limits.MAX_RETAINED_RUNS
      (source.runs.select (·.roomId == roomId)), run.status ≠ .failed) :
    ∀ other ∈ ((answered.settled roomId runId status errorCode message now).trimmed roomId).runs,
      other.roomId = roomId → other.status ≠ .failed := by
  intro other member inRoom
  set settle := fun run : RunRow => if run.id == runId && run.roomId == roomId then
    { run with status, errorCode, errorMessage := message, finishedAt := some now } else run with isSettle
  have ids (run : RunRow) : (settle run).id = run.id := by
    simp only [isSettle]
    split <;> rfl
  have stamps (run : RunRow) : (settle run).createdAt = run.createdAt := by
    simp only [isSettle]
    split <;> rfl
  have rooms (run : RunRow) : (settle run).roomId = run.roomId := by
    simp only [isSettle]
    split <;> rfl
  have settled : (answered.settled roomId runId status errorCode message now).runs.rows =
      source.runs.rows.map settle := by
    rw [← runs]
    rfl
  have selected : (answered.settled roomId runId status errorCode message now).runs.select (·.roomId == roomId) =
      (source.runs.select (·.roomId == roomId)).map settle := by
    rw [Table.select, settled, List.filter_map, Table.select]
    refine congrArg (List.map settle) (List.filter_congr fun run _ => ?_)
    simp only [Function.comp_apply, rooms]
  obtain ⟨there, kept⟩ := Table.mem_delete.mp member
  have listed : other.id ∈ (newest RunRow.createdAt RunRow.id Limits.MAX_RETAINED_RUNS
      ((answered.settled roomId runId status errorCode message now).runs.select (·.roomId == roomId))).map RunRow.id := by
    by_contra gone
    exact kept (by simpa [inRoom] using gone)
  rw [selected, newest_map stamps ids, List.map_map] at listed
  obtain ⟨near, nearMem, sameId⟩ := List.mem_map.mp listed
  obtain ⟨old, held, rfl⟩ := List.mem_map.mp (settled ▸ there : other ∈ source.runs.rows.map settle)
  obtain rfl := Table.eq_of_key (Table.mem_select.mp (mem_of_mem_newest nearMem)).1 held
    ((ids near).symm.trans (sameId.trans (ids old)))
  simp only [isSettle]
  split
  · exact ended
  · exact clean near nearMem

/-- Where no run of a room failed, none is left failed once a run of it was stopped. -/
theorem unfailed_stopped {message : String} {runAt roomAt : Instant}
    (clean : ∀ run ∈ source.runs, run.roomId = roomId → run.status ≠ .failed) :
    ∀ other ∈ (source.stopped roomId runId message runAt roomAt).runs, other.roomId = roomId →
      other.status ≠ .failed := by
  intro other member inRoom
  obtain ⟨old, held, rfl⟩ := mem_stopped_runs.mp member
  split
  · nofun
  · next same =>
    rw [if_neg same] at inRoom
    exact clean old held inRoom

end Db

section Retired

variable {store : RoomStore} {draws : Draws} {source target : Db} {roomId runId : String} {run row : RunRow}

/-- A finish that retires a run completed it, and leaves no failed run in its room where none of the newest failed. -/
theorem RoomStore.retires_of_settleRun {terminal : RunTerminal}
    (ends : terminal.status = .completed ∨ terminal.status = .failed)
    (success : store.settleRun draws.env roomId runId terminal source = .ok () target) (member : run ∈ source.runs)
    (active : run.status.isActive) (there : row ∈ target.runs) (same : row.id = run.id)
    (ended : row.status.isCurrent = false) : run.id = runId ∧ terminal.status = .completed ∧
      ((∀ near ∈ newest RunRow.createdAt RunRow.id Limits.MAX_RETAINED_RUNS
          (source.runs.select (·.roomId == run.roomId)), near.status ≠ .failed) →
        ∀ other ∈ target.runs, other.roomId = run.roomId → other.status ≠ .failed) := by
  obtain ⟨id, -, found, foundMem, ⟨rfl, rfl⟩, ⟨-, rfl⟩ | ⟨alive, answered, message, answer, rfl⟩⟩ :=
    RoomStore.settleRun_ok success
  · obtain rfl := Table.eq_of_key there member same
    rw [RunStatus.isCurrent_of_isActive active] at ended
    cases ended
  have runs : answered.runs = source.runs := by
    rcases answer with rfl | ⟨-, _, inserted⟩
    · rfl
    · obtain ⟨-, _, -, rfl⟩ := Db.insertMessage_eq_some_iff.mp inserted
      rfl
  obtain ⟨old, held, became⟩ := Db.mem_settled_runs.mp (Db.of_mem_trimmed_runs there)
  have oldId : old.id = run.id := by
    rw [← same, ← became]
    split <;> rfl
  obtain rfl := Table.eq_of_key (runs ▸ held : old ∈ source.runs) member oldId
  split at became
  · next chosen =>
    subst became
    simp only [Bool.and_eq_true, beq_iff_eq] at chosen
    obtain rfl := Table.eq_of_key member foundMem chosen.1
    have completed : terminal.status = .completed := by
      refine ends.resolve_right fun failed => ?_
      simp [failed, RunStatus.isCurrent] at ended
    exact ⟨rfl, completed, Db.unfailed_settled runs (by simp [completed])⟩
  · subst became
    rw [RunStatus.isCurrent_of_isActive active] at ended
    cases ended

/-- A stop that retires a run leaves no failed run in its room where none failed. -/
theorem RoomStore.retires_of_stopRun (success : store.stopRun draws.env roomId runId source = .ok () target)
    (member : run ∈ source.runs) (active : run.status.isActive) (there : row ∈ target.runs) (same : row.id = run.id)
    (ended : row.status.isCurrent = false) : run.id = runId ∧
      ((∀ near ∈ source.runs, near.roomId = run.roomId → near.status ≠ .failed) →
        ∀ other ∈ target.runs, other.roomId = run.roomId → other.status ≠ .failed) := by
  obtain ⟨id, message, -, ⟨found, foundMem, rfl, alive⟩, rfl⟩ := RoomStore.stopRun_ok success
  obtain ⟨rfl, -⟩ := Db.isActiveIn_iff.mp alive
  obtain ⟨old, held, became⟩ := Db.mem_stopped_runs.mp there
  have oldId : old.id = run.id := by
    rw [← same, ← became]
    split <;> rfl
  obtain rfl := Table.eq_of_key held member oldId
  split at became
  · next chosen =>
    simp only [Bool.and_eq_true, beq_iff_eq] at chosen
    obtain rfl := Table.eq_of_key member foundMem chosen.1
    exact ⟨rfl, Db.unfailed_stopped⟩
  · subst became
    rw [RunStatus.isCurrent_of_isActive active] at ended
    cases ended

/-- Starting to recover never retires a run: it fails what was unfinished. -/
theorem RoomStore.current_of_recoverRunning {count : ℕ}
    (success : store.recoverRunning draws.env source = .ok count target) (member : run ∈ source.runs)
    (active : run.status.isActive) (there : row ∈ target.runs) (same : row.id = run.id) : row.status.isCurrent := by
  obtain ⟨messages, -, rfl⟩ := RoomStore.recoverRunning_ok success
  obtain ⟨old, held, sameId, status | failed⟩ := Db.status_of_mem_interrupted there
  · obtain rfl := Table.eq_of_key held member (sameId.trans same)
    rw [status]
    exact RunStatus.isCurrent_of_isActive active
  · rw [failed]
    rfl

/-- A delta leaves an unfinished run unfinished. -/
theorem RoomStore.current_of_appendDelta {delta : String}
    (success : store.appendDelta draws.env roomId runId delta source = .ok () target) (member : run ∈ source.runs)
    (active : run.status.isActive) (there : row ∈ target.runs) (same : row.id = run.id) : row.status.isCurrent := by
  obtain ⟨-, cell, rfl⟩ := RoomStore.appendDelta_ok success
  obtain ⟨old, held, became⟩ := Db.mem_setPartialText.mp there
  have oldId : old.id = run.id := by
    rw [← same, ← became]
    split <;> rfl
  obtain rfl := Table.eq_of_key held member oldId
  subst became
  split <;> exact RunStatus.isCurrent_of_isActive active

/-- A turn leaves an unfinished run as it is. -/
theorem RoomStore.mem_of_insertTurn {session : RoomSession} {key : Option String} {text : String} {turn : AppendedTurn}
    (inserted : store.insertTurn draws.env session key text source = .ok turn target) (member : run ∈ source.runs) :
    run ∈ target.runs := by
  obtain ⟨_, _, _, _, _, -, -, first, second, rfl⟩ := RoomStore.insertTurn_ok inserted
  obtain ⟨-, _, -, rfl⟩ := Db.insertMessage_eq_some_iff.mp first
  obtain ⟨-, _, added, rfl⟩ := Db.insertRun_eq_some_iff.mp second
  exact (Table.mem_of_insert? added).mpr (Or.inl member)

end Retired

namespace Event

variable {crates : Crates} {event : Event} {source target : Db}

/-- When a call completes or cancels a run and leaves no failed run with it, the room has none. -/
theorem unfailed_of_retired (step : (storeMachine crates).step? source event = some target) (rooted : source.Rooted)
    (clean : event.LeavesNoFailed source) {run row : RunRow} (member : run ∈ source.runs) (active : run.status.isActive)
    (there : row ∈ target.runs) (same : row.id = run.id) (ended : row.status.isCurrent = false) :
    ∀ other ∈ target.runs, other.roomId = run.roomId → other.status ≠ .failed := by
  -- a call that leaves the run unfinished or fails it is not one of those
  have stays (current : row.status.isCurrent) : False := by simp [ended] at current
  have kept (held : run ∈ target.runs) : False := by
    obtain rfl := Table.eq_of_key there held same
    exact stays (RunStatus.isCurrent_of_isActive active)
  rcases outcome_of_step step with ⟨-, rfl⟩ | acted
  · exact (kept member).elim
  cases named : event.op with
  | createRoom | exchangeInvite | issueInvite | revokeInvite | closeRoom =>
    have runs : target.runs = source.runs := (Op.sameTurns (by rw [named]; rfl) acted).1
    exact (kept (runs ▸ member)).elim
  | appendUserTurn session input =>
    rw [named] at acted
    rcases Op.appendUserTurn_cases acted with rfl | ⟨key, text, turn, inserted⟩
    · exact (kept member).elim
    · exact (kept (RoomStore.mem_of_insertTurn inserted member)).elim
  | appendDelta roomId runId delta =>
    rw [named] at acted
    rcases Op.appendDelta_cases acted with ⟨-, rfl⟩ | ⟨-, success⟩
    · exact (kept member).elim
    · exact (stays (RoomStore.current_of_appendDelta success member active there same)).elim
  | finishRun roomId runId terminal ends =>
    rw [named] at acted
    rcases Op.finishRun_cases rooted acted with ⟨-, rfl⟩ | ⟨⟨_, replied⟩, success⟩
    · exact (kept member).elim
    obtain ⟨rfl, completed, unfailed⟩ := RoomStore.retires_of_settleRun ends success member active there same ended
    refine unfailed fun near nearMem => clean (by rw [replied]; rfl) near ?_
    simp only [remaining, named, completed, if_pos]
    exact List.mem_flatMap.mpr ⟨run, Table.mem_select.mpr ⟨member, by simp [active]⟩, nearMem⟩
  | stopRun roomId runId =>
    rw [named] at acted
    cases replied : event.reply with
    | error error =>
      rw [replied] at acted
      obtain rfl := RoomStore.stopRun_error (map_error_iff.mp (outcome_error_iff.mp acted))
      exact (kept member).elim
    | ok value =>
      rw [replied] at acted
      obtain ⟨_, made, -⟩ := map_ok_iff.mp (outcome_ok_iff.mp acted)
      obtain ⟨rfl, unfailed⟩ := RoomStore.retires_of_stopRun made member active there same ended
      refine unfailed fun near nearMem inRoom => clean (by rw [replied]; rfl) near ?_
      simp only [remaining, named]
      exact List.mem_flatMap.mpr ⟨run, Table.mem_select.mpr ⟨member, by simp [active]⟩,
        Table.mem_select.mpr ⟨nearMem, by simp [inRoom]⟩⟩
  | recoverRunning =>
    rw [named] at acted
    cases replied : event.reply with
    | error error =>
      rw [replied] at acted
      exact absurd (map_error_iff.mp (outcome_error_iff.mp acted)) RoomStore.recoverRunning_ne_error
    | ok value =>
      rw [replied] at acted
      obtain ⟨_, made, -⟩ := map_ok_iff.mp (outcome_ok_iff.mp acted)
      exact (stays (RoomStore.current_of_recoverRunning made member active there same)).elim

end Event

/-- A room is idle after a change when it is new, when it was idle before, or when its unfinished run was retired. -/
theorem Change.idle {source target : Db} (change : Change source target) {room : RoomRow} (member : room ∈ target.rooms)
    (idle : room.status = .idle) :
    ((∀ old ∈ source.rooms, old.id ≠ room.id) ∧ target.runs = source.runs) ∨ (source.OnlyOld target room.id ∧
      ((∃ old ∈ source.rooms, old.id = room.id ∧ old.status = .idle) ∨ source.Retired target room.id)) := by
  cases change with
  | ran change => exact Or.inr (change.idle member idle)
  | created valid first second third =>
    obtain ⟨rooms, added, rfl⟩ := Db.insertRoom_eq_some_iff.mp first
    obtain ⟨-, _, -, rfl⟩ := Db.insertInvite_eq_some_iff.mp second
    obtain ⟨-, _, -, rfl⟩ := Db.insertParticipant_eq_some_iff.mp third
    rcases (Table.mem_of_insert? added).mp member with held | rfl
    · exact Or.inr ⟨.of_eq rfl, Or.inl ⟨room, held, rfl, idle⟩⟩
    · exact Or.inl ⟨(Table.insert?_eq_some_iff.mp added).1, rfl⟩
  | joined admits first second =>
    obtain ⟨-, _, -, rfl⟩ := Db.insertParticipant_eq_some_iff.mp first
    obtain ⟨-, _, -, rfl⟩ := Db.insertSession_eq_some_iff.mp second
    exact Or.inr ⟨.of_eq rfl, Or.inl ⟨room, member, rfl, idle⟩⟩
  | rotated opened => exact Or.inr ⟨.of_eq rfl, Or.inl ⟨room, member, rfl, idle⟩⟩
  | revoked => exact Or.inr ⟨.of_eq rfl, Or.inl ⟨room, member, rfl, idle⟩⟩
  | closed =>
    obtain ⟨old, held, rfl⟩ := Db.mem_closed_rooms.mp member
    split at idle
    · cases idle
    · next other =>
      rw [if_neg other]
      exact Or.inr ⟨.of_eq rfl, Or.inl ⟨old, held, rfl, idle⟩⟩

/-- The last created run of an idle room completed or was canceled. -/
def Db.IdleEnded (db : Db) (log : List RunRow) (roomId : String) : Prop :=
  ∀ room ∈ db.rooms, room.id = roomId → room.status = .idle → ∀ row, latestRun db log = some row →
    row.status.isCurrent = false

section Steps

variable {crates : Crates} {event : Event} {source target : Db} {log : List RunRow} {roomId : String}

/-- Where every row of the room was there before, no run of it is created. -/
theorem Db.added_eq_nil_of_old (old : ∀ row ∈ target.runs, row.roomId = roomId → ∃ old ∈ source.runs, old.id = row.id) :
    (source.runs.added target.runs).filter (·.roomId == roomId) = [] := by
  rw [List.filter_eq_nil_iff]
  intro row member inRoom
  obtain ⟨there, fresh⟩ := List.mem_filter.mp member
  obtain ⟨known, held, same⟩ := old row there (eq_of_beq inRoom)
  exact of_decide_eq_true fresh (List.mem_map.mpr ⟨known, held, same⟩)

/-- A step whose call leaves no failed run behind shows no older run afterwards. -/
theorem Db.ShowsNoOlder.step (before : source.ShowsNoOlder log roomId) (rooted : source.Rooted)
    (holds : source.Holds log roomId)
    (after : target.Holds (log ++ (source.runs.added target.runs).filter (·.roomId == roomId)) roomId)
    (step : (storeMachine crates).step? source event = some target) (clean : event.LeavesNoFailed source) :
    target.ShowsNoOlder (log ++ (source.runs.added target.runs).filter (·.roomId == roomId)) roomId := by
  have change := (Event.change step).turnStep
  by_cases old : ∀ row ∈ target.runs, row.roomId = roomId → ∃ old ∈ source.runs, old.id = row.id
  · have onlyOld := change.onlyOld old
    rw [Db.added_eq_nil_of_old old, List.append_nil] at after ⊢
    rcases before with ⟨run, latest, current⟩ | unfailed
    · obtain ⟨member, entry, isLast, turn⟩ := (Db.latestRun_eq_some_iff holds).mp latest
      obtain ⟨row, there, sameTurn⟩ := after.latest entry isLast
      have latestAfter := (Db.latestRun_eq_some_iff after).mpr ⟨there, entry, isLast, sameTurn.symm⟩
      cases ended : row.status.isCurrent with
      | true => exact Or.inl ⟨row, latestAfter, ended⟩
      | false =>
        have inRoom := Db.room_of_latest holds latest
        obtain ⟨known, held, knownTurn, becomes⟩ := onlyOld row there (Db.room_of_latest after latestAfter)
        obtain rfl := Table.eq_of_key held member (RunRow.id_of_turn (knownTurn.trans (sameTurn.trans turn)))
        have active : known.status.isActive := by
          by_contra finished
          rw [becomes.of_finished (Bool.eq_false_iff.mpr finished), current] at ended
          cases ended
        exact Or.inr (inRoom ▸ Event.unfailed_of_retired step rooted clean member active there becomes.id ended)
    · by_cases failed : ∃ row ∈ target.runs, row.roomId = roomId ∧ row.status = .failed
      · obtain ⟨row, there, inRoom, failed⟩ := failed
        obtain ⟨known, held, turn, becomes⟩ := onlyOld row there inRoom
        have knownRoom := (RunRow.room_of_turn turn).trans inRoom
        have active : known.status.isActive := by
          by_contra finished
          have same := becomes.of_finished (Bool.eq_false_iff.mpr finished)
          exact unfailed known held knownRoom (same.symm.trans failed)
        obtain ⟨entry, isLast, entryTurn⟩ := holds.active known held knownRoom active
        exact Or.inl ⟨row, (Db.latestRun_eq_some_iff after).mpr ⟨there, entry, isLast, entryTurn.trans turn⟩,
          by rw [failed]; rfl⟩
      · refine Or.inr fun row there inRoom isFailed => failed ⟨row, there, inRoom, isFailed⟩
  · simp only [not_forall, not_exists, not_and] at old
    obtain ⟨row, there, inRoom, fresh⟩ := old
    cases change with
    | kept same ends =>
      obtain ⟨known, held, becomes⟩ := ends row there
      exact absurd becomes.id.symm (fresh known held)
    | trimmed same runs ends =>
      obtain ⟨known, held, becomes⟩ := ends row there
      exact absurd becomes.id.symm (fresh known held)
    | @inserted new newId untaken free running rows =>
      rw [← Table.mem_rows, rows, List.mem_append, List.mem_singleton] at there
      obtain rfl := there.resolve_left fun held => fresh row held rfl
      rw [Table.added_of_rows newId rows, List.filter_cons_of_pos (by simpa using inRoom), List.filter_nil] at after ⊢
      refine Or.inl ⟨row, (Db.latestRun_eq_some_iff after).mpr ⟨?_, row, List.getLast?_concat, rfl⟩, by rw [running]; rfl⟩
      rw [← Table.mem_rows, rows]
      simp

/-- What becomes of an idle room follows every step. -/
theorem Db.IdleEnded.step (before : source.IdleEnded log roomId) (rooted : source.Rooted) (holds : source.Holds log roomId)
    (after : target.Holds (log ++ (source.runs.added target.runs).filter (·.roomId == roomId)) roomId)
    (change : Change source target) :
    target.IdleEnded (log ++ (source.runs.added target.runs).filter (·.roomId == roomId)) roomId := by
  rintro room member rfl idle row latest
  rcases change.idle member idle with ⟨fresh, runs⟩ | ⟨onlyOld, was⟩
  · have inRoom := Db.room_of_latest after latest
    obtain ⟨there, -⟩ := (Db.latestRun_eq_some_iff after).mp latest
    obtain ⟨old, held, same⟩ := Db.hasRoom_iff.mp (rooted.runs row (runs ▸ there))
    exact absurd (same.trans inRoom) (fresh old held)
  · have old : ∀ row ∈ target.runs, row.roomId = room.id → ∃ old ∈ source.runs, old.id = row.id := fun row there inRoom =>
      let ⟨known, held, turn, _⟩ := onlyOld row there inRoom
      ⟨known, held, RunRow.id_of_turn turn⟩
    rw [Db.added_eq_nil_of_old old, List.append_nil] at after latest
    obtain ⟨there, entry, isLast, entryTurn⟩ := (Db.latestRun_eq_some_iff after).mp latest
    obtain ⟨known, held, turn, becomes⟩ := onlyOld row there (Db.room_of_latest after latest)
    rcases was with ⟨oldRoom, roomMem, named, wasIdle⟩ | ⟨run, runMem, owned, active, ends⟩
    · have ended := before oldRoom roomMem named wasIdle known
        ((Db.latestRun_eq_some_iff holds).mpr ⟨held, entry, isLast, entryTurn.trans turn.symm⟩)
      have finished : known.status.isActive = false := by
        by_contra active
        rw [RunStatus.isCurrent_of_isActive (by simpa using active)] at ended
        cases ended
      rw [becomes.of_finished finished, ended]
    · obtain ⟨other, isLast', turn'⟩ := holds.active run runMem owned active
      obtain rfl := Option.some.inj (isLast.symm.trans isLast')
      exact ends row there (RunRow.id_of_turn (entryTurn.symm.trans turn'))

end Steps

section Histories

variable {crates : Crates} {store : RoomStore} {past : List Event} {db : Db} {roomId : String}

/-- In every history before the year 10000 whose calls leave no failed run behind one they complete or cancel, and
whose insertions have increasing clock readings, the last created run of a room is retained, a snapshot shows it
while it is current, and none afterwards; an idle room shows none. -/
theorem currentRun_eq_latest (chrono : Chrono)
    (run : ((storeMachine crates).guard fun db event => event.LeavesNoFailed db).Run past db)
    (increasing : Increasing (created crates past roomId))
    (early : ∀ event ∈ past, event.draws.now 0 < Rfc3339.YEAR_10000) {snapshot : RoomSnapshot}
    (shown : store.snapshotFromAsText chrono db roomId = some snapshot) :
    (∀ last, (created crates past roomId).getLast? = some last →
        ∃ row, latestRun db (created crates past roomId) = some row ∧ row.turn = last.turn) ∧
      snapshot.currentRun = ((latestRun db (created crates past roomId)).filter (·.status.isCurrent)).map
        (fun row => store.openRunOrBlank (RoomStore.rowToRun row)) ∧
      (snapshot.status = .idle → snapshot.currentRun = none) := by
  have shows : db.ShowsNoOlder (created crates past roomId) roomId ∧ db.IdleEnded (created crates past roomId) roomId := by
    refine run.history (fun past db => Increasing (created crates past roomId) →
      db.ShowsNoOlder (created crates past roomId) roomId ∧ db.IdleEnded (created crates past roomId) roomId) ?_ ?_ increasing
    · rintro _ rfl -
      exact ⟨Or.inr fun row member => absurd member (Table.not_mem_empty row),
        fun room member => absurd member (Table.not_mem_empty room)⟩
    · intro past source event target before held step increasing
      obtain ⟨clean, step⟩ := Machine.guard_step_iff.mp step
      have reached := before.of_guard
      have rooted : source.Rooted := .of_history reached
      rw [created_snoc reached step] at increasing ⊢
      have earlier : Increasing (created crates past roomId) := by
        rw [Increasing, List.map_append, List.pairwise_append] at increasing
        exact increasing.1
      have holds := holds_of_run reached earlier
      have after := holds.step (Event.change step).turnStep increasing
      obtain ⟨older, idle⟩ := held earlier
      exact ⟨older.step rooted holds after step clean, idle.step rooted holds after (Event.change step)⟩
  have holds := holds_of_run run.of_guard increasing
  have current : RoomStore.currentRowAsText chrono db roomId =
      (latestRun db (created crates past roomId)).filter (·.status.isCurrent) := by
    rw [RoomStore.currentRowAsText_eq (dated_of_run run.of_guard early)]
    exact (Db.currentRow_eq_latest_iff holds increasing).mpr shows.1
  obtain ⟨_, read, rfl⟩ := Option.map_eq_some_iff.mp shown
  obtain ⟨room, found, rfl⟩ := Option.map_eq_some_iff.mp read
  refine ⟨fun last isLast => ?_,
    congrArg (Option.map fun row => store.openRunOrBlank (RoomStore.rowToRun row)) current, fun idle => ?_⟩
  · obtain ⟨row, member, turn⟩ := holds.latest last isLast
    exact ⟨row, (Db.latestRun_eq_some_iff holds).mpr ⟨member, last, isLast, turn.symm⟩, turn⟩
  obtain ⟨member, named⟩ := Table.find?_eq_some found
  have none : (latestRun db (created crates past roomId)).filter (·.status.isCurrent) = none := by
    rw [Option.filter_eq_none_iff]
    intro row latest
    rw [shows.2 room member (eq_of_beq named) idle row latest]
    exact Bool.false_ne_true
  simp only [current, none, Option.map_none]

end Histories

namespace Sample

/-- The same calls, with a clock that advances at every reading. -/
def ticking (calls : List Call) : List Call :=
  calls.map fun call => { call with draws := { call.draws with now := fun i => call.draws.now i + i } }

/-- A second turn in the sample room, which the model answers. -/
def resumed : List Call :=
  [⟨.compat, draws 31 40, false, .appendUserTurn host ⟨"again", none⟩⟩,
    ⟨.compat, draws 41 50, false, .finishRun (opaqueId "room_" (.ofNat 1)) (opaqueId "run_" (.ofNat 32))
      ⟨.completed, none, none⟩ completed_ends⟩]

end Sample

/-- Once a turn after a failed one completed, the idle room shows the failed run again. -/
theorem not_currentRun_eq_latest_resumed :
    let past := history Sample.crates (Sample.ticking (Sample.failed ++ Sample.resumed)) .empty
    (storeMachine Sample.crates).Run past.1 past.2 ∧
      Increasing (created Sample.crates past.1 Sample.host.roomId) ∧
      (latestRun past.2 (created Sample.crates past.1 Sample.host.roomId)).map (fun run => (run.id, run.status)) =
        some (opaqueId "run_" (.ofNat 32), .completed) ∧
      (Sample.store.snapshotFromAsText Sample.chrono past.2 Sample.host.roomId).map (fun snapshot =>
          (snapshot.status, snapshot.currentRun.map fun run => (run.runId, run.status))) =
        some (.idle, some (opaqueId "run_" (.ofNat 12), .failed)) := by
  refine ⟨run_history Sample.crates _, ?_, ?_, ?_⟩
  · unfold Increasing
    decide +kernel
  · decide +kernel
  · decide +kernel

/-- A turn that the model answers leaves the sample room idle, with no current run. -/
theorem currentRun_eq_latest_resumed :
    ∃ past db snapshot, ((storeMachine Sample.crates).guard fun db event => event.LeavesNoFailed db).Run past db ∧
      Sample.store.snapshotFromAsText Sample.chrono db Sample.host.roomId = some snapshot ∧ snapshot.status = .idle ∧
      snapshot.currentRun = ((latestRun db (created Sample.crates past Sample.host.roomId)).filter
        (·.status.isCurrent)).map (fun row => Sample.store.openRunOrBlank (RoomStore.rowToRun row)) ∧
      snapshot.currentRun = none := by
  set past := (history Sample.crates (Sample.ticking (Sample.opened ++ Sample.resumed)) .empty).1
    with isPast
  have readings : Increasing (created Sample.crates past Sample.host.roomId) ∧
      (past.all fun event => decide (event.draws.now 0 < Rfc3339.YEAR_10000)) := by
    unfold Increasing
    decide +kernel
  obtain ⟨increasing, early⟩ := readings
  obtain ⟨db, run, idle⟩ := @Machine.Run.of_check _ _
    ((storeMachine Sample.crates).guard fun db event => event.LeavesNoFailed db) .empty past rfl
    (fun db => (Sample.store.snapshotFromAsText Sample.chrono db Sample.host.roomId).map (·.status) = some .idle) _
    (by decide +kernel)
  obtain ⟨snapshot, shown, status⟩ := Option.map_eq_some_iff.mp idle
  obtain ⟨-, latest, none⟩ := currentRun_eq_latest Sample.chrono run increasing
    (fun event member => of_decide_eq_true (List.all_eq_true.mp early event member)) shown
  exact ⟨past, db, snapshot, run, shown, status, latest, none status⟩

end RyuRooms
