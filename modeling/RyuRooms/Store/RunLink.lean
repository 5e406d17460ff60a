import RyuRooms.Model.Sample
import RyuRooms.Store.History
import RyuRooms.Store.Rows

/-! # A room's status and its runs

`Linked` relates `rooms.status` to `room_runs.status` in one state of the tables: no room has two
unfinished runs, an open room is running exactly while it has one, and a closed room may keep one.
Every change of the tables keeps the link, although each operation writes the two tables separately.
The trims of `finish_run` go by creation time alone, and the link is what keeps them from deleting
an unfinished run: when they run, their room has none.
-/

namespace RyuRooms

open Foundation

namespace Db

/-- The link between the rooms and their unfinished runs. -/
structure Linked (db : Db) : Prop where
  owned : ∀ run ∈ db.runs, ∃ room ∈ db.rooms, room.id = run.roomId
  single : ∀ left ∈ db.runs, ∀ right ∈ db.runs, left.status.isActive → right.status.isActive →
    left.roomId = right.roomId → left = right
  busy : ∀ room ∈ db.rooms, room.status = .running → ∃ run ∈ db.runs, isActiveIn room.id run
  free : ∀ room ∈ db.rooms, ∀ run ∈ db.runs, isActiveIn room.id run →
    room.status = .running ∨ room.status = .closed

namespace Linked

variable {source target : Db}

theorem empty : Db.empty.Linked :=
  ⟨by simp [Db.empty], by simp [Db.empty], by simp [Db.empty], by simp [Db.empty]⟩

/-- The link reads only rooms and runs. -/
theorem congr (linked : source.Linked) (rooms : target.rooms = source.rooms)
    (runs : target.runs = source.runs) : target.Linked := by
  obtain ⟨owned, single, busy, free⟩ := linked
  exact ⟨by rwa [rooms, runs], by rwa [runs], by rwa [rooms, runs], by rwa [rooms, runs]⟩

/-- A new room is idle and has no runs. -/
theorem created (linked : source.Linked) {room : RoomRow} (idle : room.status = .idle)
    (inserted : source.rooms.insert? room = some target.rooms) (runs : target.runs = source.runs) :
    target.Linked := by
  have added (other : RoomRow) : other ∈ target.rooms ↔ other ∈ source.rooms ∨ other = room :=
    Table.mem_of_insert? inserted
  have fresh := (Table.insert?_eq_some_iff.mp inserted).1
  refine ⟨?_, runs ▸ linked.single, ?_, ?_⟩
  · rw [runs]
    intro run member
    obtain ⟨owner, held, named⟩ := linked.owned run member
    exact ⟨owner, (added owner).mpr (Or.inl held), named⟩
  · rw [runs]
    intro other member running
    rcases (added other).mp member with held | rfl
    · exact linked.busy other held running
    · rw [idle] at running
      cases running
  · rw [runs]
    intro other member run ran active
    rcases (added other).mp member with held | rfl
    · exact linked.free other held run ran active
    · obtain ⟨owner, held, named⟩ := linked.owned run ran
      exact absurd (named.trans (isActiveIn_iff.mp active).1) (fresh owner held)

/-- A turn is accepted only while its room has no unfinished run, and makes the room running. -/
theorem accepted (linked : source.Linked) {run : RunRow} {runs : Table RunRow RunRow.id} {now : Instant}
    (free : ∀ other ∈ source.runs, ¬ isActiveIn run.roomId other) (running : run.status.isActive)
    (opened : ∃ room ∈ source.rooms, room.id = run.roomId)
    (inserted : source.runs.insert? run = some runs) (ran : target.runs = runs)
    (rooms : target.rooms = (setRoomStatus run.roomId (fun _ => .running) now source).1.rooms) :
    target.Linked := by
  have added (other : RunRow) : other ∈ target.runs ↔ other ∈ source.runs ∨ other = run := by
    rw [ran]
    exact Table.mem_of_insert? inserted
  have moved (room : RoomRow) : room ∈ target.rooms ↔ ∃ old ∈ source.rooms,
      (if old.id == run.roomId then { old with status := .running, updatedAt := now } else old) = room := by
    rw [rooms, mem_setRoomStatus]
  have image (room : RoomRow) (member : room ∈ source.rooms) : ∃ next ∈ target.rooms, next.id = room.id := by
    refine ⟨_, (moved _).mpr ⟨room, member, rfl⟩, ?_⟩
    split <;> rfl
  have notIn (other : RunRow) (member : other ∈ source.runs) (active : other.status.isActive) :
      other.roomId ≠ run.roomId := fun same => free other member (isActiveIn_iff.mpr ⟨same, active⟩)
  refine ⟨?_, ?_, ?_, ?_⟩
  · intro other member
    rcases (added other).mp member with held | rfl
    · obtain ⟨owner, kept, named⟩ := linked.owned other held
      obtain ⟨next, there, same⟩ := image owner kept
      exact ⟨next, there, same.trans named⟩
    · obtain ⟨owner, kept, named⟩ := opened
      obtain ⟨next, there, same⟩ := image owner kept
      exact ⟨next, there, same.trans named⟩
  · intro left leftMem right rightMem leftActive rightActive same
    rcases (added left).mp leftMem with leftOld | rfl <;> rcases (added right).mp rightMem with rightOld | rfl
    · exact linked.single left leftOld right rightOld leftActive rightActive same
    · exact absurd same (notIn left leftOld leftActive)
    · exact absurd same.symm (notIn right rightOld rightActive)
    · rfl
  · intro room member busy
    obtain ⟨old, kept, rfl⟩ := (moved room).mp member
    split at busy
    · next named =>
      refine ⟨run, (added run).mpr (Or.inr rfl), ?_⟩
      rw [if_pos named]
      exact isActiveIn_iff.mpr ⟨(eq_of_beq named).symm, running⟩
    · next other =>
      rw [if_neg other]
      obtain ⟨active, held, inside⟩ := linked.busy old kept busy
      exact ⟨active, (added active).mpr (Or.inl held), inside⟩
  · intro room member other ran active
    obtain ⟨old, kept, rfl⟩ := (moved room).mp member
    split
    · exact Or.inl rfl
    · next apart =>
      rw [if_neg apart] at active
      rcases (added other).mp ran with held | rfl
      · exact linked.free old kept other held active
      · exact absurd (isActiveIn_iff.mp active).1 fun same => apart (beq_iff_eq.mpr same.symm)

/-- Extending a run leaves every status alone. -/
theorem extended (linked : source.Linked) {roomId runId cell : String} {now : Instant} :
    (source.extended roomId runId cell now).Linked := by
  have room_image (room : RoomRow) (member : room ∈ (source.extended roomId runId cell now).rooms) :
      ∃ old ∈ source.rooms, old.id = room.id ∧ old.status = room.status := by
    obtain ⟨old, held, rfl⟩ := mem_setRoomStatus.mp member
    refine ⟨old, held, ?_⟩
    split <;> exact ⟨rfl, rfl⟩
  have run_image (run : RunRow) (member : run ∈ (source.extended roomId runId cell now).runs) :
      ∃ old ∈ source.runs, old.id = run.id ∧ old.roomId = run.roomId ∧ old.status = run.status := by
    obtain ⟨old, held, rfl⟩ := mem_setPartialText.mp member
    refine ⟨old, held, ?_⟩
    split <;> exact ⟨rfl, rfl, rfl⟩
  refine ⟨?_, ?_, ?_, ?_⟩
  · intro run member
    obtain ⟨old, held, -, sameRoom, -⟩ := run_image run member
    obtain ⟨owner, kept, named⟩ := linked.owned old held
    refine ⟨_, mem_setRoomStatus.mpr ⟨owner, kept, rfl⟩, ?_⟩
    rw [← sameRoom, ← named]
    split <;> rfl
  · intro left leftMem right rightMem leftActive rightActive same
    obtain ⟨oldLeft, leftHeld, leftId, leftRoom, leftStatus⟩ := run_image left leftMem
    obtain ⟨oldRight, rightHeld, rightId, rightRoom, rightStatus⟩ := run_image right rightMem
    have equal := linked.single oldLeft leftHeld oldRight rightHeld (leftStatus ▸ leftActive)
      (rightStatus ▸ rightActive) (leftRoom.trans (same.trans rightRoom.symm))
    exact Table.eq_of_key leftMem rightMem (leftId.symm.trans (equal ▸ rightId))
  · intro room member busy
    obtain ⟨old, held, named, status⟩ := room_image room member
    obtain ⟨run, ran, active⟩ := linked.busy old held (status.trans busy)
    refine ⟨_, mem_setPartialText.mpr ⟨run, ran, rfl⟩, ?_⟩
    rw [isActiveIn_iff, named] at active
    rw [isActiveIn_iff]
    split <;> exact active
  · intro room member run ran active
    obtain ⟨old, held, named, status⟩ := room_image room member
    obtain ⟨oldRun, runHeld, -, runRoom, runStatus⟩ := run_image run ran
    rw [isActiveIn_iff, ← named, ← runRoom, ← runStatus, ← isActiveIn_iff] at active
    exact status ▸ linked.free old held oldRun runHeld active

/-- Ending the one unfinished run of a room frees the room, whatever rows of the room are deleted. -/
theorem ended (linked : source.Linked) {roomId runId : String} (settled : RoomStatus) {now : Instant}
    (idle : settled ≠ .running) (active : ∃ run ∈ source.runs, run.id = runId ∧ isActiveIn roomId run)
    (rooms : target.rooms = (setRoomStatus roomId (unlessClosed settled) now source).1.rooms)
    (runs : ∀ run ∈ target.runs, ∃ old ∈ source.runs, old.roomId = run.roomId ∧
      (run.status.isActive → old = run ∧ run.id ≠ runId))
    (kept : ∀ run ∈ source.runs, run.roomId ≠ roomId → run ∈ target.runs) : target.Linked := by
  have moved (room : RoomRow) : room ∈ target.rooms ↔ ∃ old ∈ source.rooms,
      (if old.id == roomId then { old with status := unlessClosed settled old.status, updatedAt := now }
        else old) = room := by
    rw [rooms, mem_setRoomStatus]
  have elsewhere (run : RunRow) (member : run ∈ target.runs) (alive : run.status.isActive) :
      run ∈ source.runs ∧ run.roomId ≠ roomId := by
    obtain ⟨old, held, -, still⟩ := runs run member
    obtain ⟨rfl, other⟩ := still alive
    obtain ⟨last, lastMem, rfl, inside⟩ := active
    obtain ⟨owned, lastAlive⟩ := isActiveIn_iff.mp inside
    refine ⟨held, fun same => other ?_⟩
    rw [linked.single old held last lastMem alive lastAlive (same.trans owned.symm)]
  refine ⟨?_, ?_, ?_, ?_⟩
  · intro run member
    obtain ⟨old, held, sameRoom, -⟩ := runs run member
    obtain ⟨owner, there, named⟩ := linked.owned old held
    refine ⟨_, (moved _).mpr ⟨owner, there, rfl⟩, ?_⟩
    rw [← sameRoom, ← named]
    split <;> rfl
  · intro left leftMem right rightMem leftActive rightActive same
    exact linked.single left (elsewhere left leftMem leftActive).1 right
      (elsewhere right rightMem rightActive).1 leftActive rightActive same
  · intro room member busy
    obtain ⟨old, held, rfl⟩ := (moved room).mp member
    split at busy
    · next named =>
      cases status : old.status <;> simp [status, unlessClosed, idle] at busy
    · next other =>
      rw [if_neg other]
      obtain ⟨run, ran, inside⟩ := linked.busy old held busy
      refine ⟨run, kept run ran ?_, inside⟩
      rw [(isActiveIn_iff.mp inside).1]
      simpa using other
  · intro room member run ran inside
    obtain ⟨old, held, rfl⟩ := (moved room).mp member
    obtain ⟨owned, alive⟩ := isActiveIn_iff.mp inside
    obtain ⟨there, apart⟩ := elsewhere run ran alive
    split at owned
    · next named => exact absurd (owned.trans (eq_of_beq named)) apart
    · next other =>
      rw [if_neg other]
      exact linked.free old held run there (isActiveIn_iff.mpr ⟨owned, alive⟩)

/-- A closed room keeps its runs. -/
theorem closed (linked : source.Linked) {roomId : String} {closedAt inviteAt sessionAt : Instant} :
    (source.closed roomId closedAt inviteAt sessionAt).Linked := by
  have image (room : RoomRow) (member : room ∈ (source.closed roomId closedAt inviteAt sessionAt).rooms) :
      ∃ old ∈ source.rooms, old.id = room.id ∧ (room.status = .closed ∨ room.status = old.status) := by
    obtain ⟨old, held, rfl⟩ := mem_closed_rooms.mp member
    refine ⟨old, held, ?_⟩
    split
    · exact ⟨rfl, Or.inl rfl⟩
    · exact ⟨rfl, Or.inr rfl⟩
  refine ⟨?_, linked.single, ?_, ?_⟩
  · intro run member
    obtain ⟨owner, held, named⟩ := linked.owned run member
    refine ⟨_, mem_closed_rooms.mpr ⟨owner, held, rfl⟩, ?_⟩
    rw [← named]
    split <;> rfl
  · intro room member busy
    obtain ⟨old, held, named, shut | same⟩ := image room member
    · rw [shut] at busy
      cases busy
    · rw [← named]
      exact linked.busy old held (same.symm.trans busy)
  · intro room member run ran inside
    obtain ⟨old, held, named, shut | same⟩ := image room member
    · exact Or.inr shut
    · rw [← named] at inside
      exact same ▸ linked.free old held run ran inside

/-- Recovery ends every unfinished run. -/
theorem recovered_inactive {messages : List (String × Option String)} {now : Instant}
    (listed : messages.map Prod.fst = (source.runs.select (·.status.isActive)).map RunRow.id)
    {run : RunRow} (member : run ∈ (failRunningRooms now (interrupted now messages source)).1.runs) :
    run.status.isActive = false := by
  obtain ⟨old, held, -, -, still⟩ := of_mem_interrupted member
  by_contra alive
  rw [Bool.not_eq_false] at alive
  obtain ⟨rfl, absent⟩ := still alive
  exact absent (listed ▸ List.mem_map.mpr ⟨old, Table.mem_select.mpr ⟨held, alive⟩, rfl⟩)

/-- Recovery leaves no room running. -/
theorem recovered_not_running {now : Instant} {room : RoomRow}
    (member : room ∈ (failRunningRooms now source).1.rooms) : room.status ≠ .running := by
  obtain ⟨old, held, rfl⟩ := mem_failRunningRooms.mp member
  split
  · simp
  · next other => simpa using other

theorem recovered {messages : List (String × Option String)} {now : Instant} (linked : source.Linked)
    (listed : messages.map Prod.fst = (source.runs.select (·.status.isActive)).map RunRow.id) :
    (failRunningRooms now (interrupted now messages source)).1.Linked := by
  refine ⟨?_, ?_, ?_, ?_⟩
  · intro run member
    obtain ⟨old, held, -, sameRoom, -⟩ := of_mem_interrupted member
    obtain ⟨owner, there, named⟩ := linked.owned old held
    refine ⟨_, mem_failRunningRooms.mpr ⟨owner, by rwa [interrupted_rooms], rfl⟩, ?_⟩
    rw [← sameRoom, ← named]
    split <;> rfl
  · intro left leftMem _ _ leftActive
    exact absurd leftActive (by simp [recovered_inactive listed leftMem])
  · intro room member busy
    exact absurd busy (recovered_not_running member)
  · intro room _ run ran inside
    exact absurd (isActiveIn_iff.mp inside).2 (by simp [recovered_inactive listed ran])

end Linked

/-- Every change of runs keeps the link. -/
theorem Linked.runChange {source target : Db} (linked : source.Linked) (change : RunChange source target) :
    target.Linked := by
  cases change with
  | unchanged => exact linked
  | accepted opened free first second =>
    obtain ⟨-, _, -, rfl⟩ := insertMessage_eq_some_iff.mp first
    obtain ⟨-, _, inserted, rfl⟩ := insertRun_eq_some_iff.mp second
    obtain ⟨room, member, named, -⟩ := opened
    exact linked.accepted free rfl ⟨room, member, named⟩ inserted rfl rfl
  | extended => exact linked.extended
  | @settled roomId runId status errorCode message now answered terminal active answer =>
    have same : answered.rooms = source.rooms ∧ answered.runs = source.runs := by
      rcases answer with rfl | ⟨-, _, _, inserted⟩
      · exact ⟨rfl, rfl⟩
      · obtain ⟨-, _, -, rfl⟩ := insertMessage_eq_some_iff.mp inserted
        exact ⟨rfl, rfl⟩
    have before : answered.Linked := linked.congr same.1 same.2
    refine before.ended (RoomStore.settledStatus status) ?_ (same.2 ▸ active) rfl ?_ ?_
    · rw [RoomStore.settledStatus]
      split <;> simp
    · intro run member
      obtain ⟨old, held, rfl⟩ := mem_settled_runs.mp (of_mem_trimmed_runs member)
      refine ⟨old, held, ?_⟩
      split
      · exact ⟨rfl, fun alive => absurd alive (by simp [terminal])⟩
      · next other =>
        refine ⟨rfl, fun alive => ⟨rfl, fun named => ?_⟩⟩
        obtain ⟨last, lastMem, lastNamed, inside⟩ := active
        obtain rfl := Table.eq_of_key held (same.2 ▸ lastMem) (named.trans lastNamed.symm)
        exact other (by simp [named, (isActiveIn_iff.mp inside).1])
    · intro run member other
      refine mem_trimmed_runs_of_ne (mem_settled_runs.mpr ⟨run, member, if_neg ?_⟩) other
      simp [other]
  | @stopped roomId runId message runAt roomAt active =>
    refine linked.ended .idle (by simp) active rfl ?_ ?_
    · intro run member
      obtain ⟨old, held, rfl⟩ := mem_stopped_runs.mp member
      refine ⟨old, held, ?_⟩
      split
      · exact ⟨rfl, fun alive => absurd alive (by simp [RunStatus.isActive])⟩
      · next other =>
        refine ⟨rfl, fun alive => ⟨rfl, fun named => ?_⟩⟩
        obtain ⟨last, lastMem, lastNamed, inside⟩ := active
        obtain rfl := Table.eq_of_key held lastMem (named.trans lastNamed.symm)
        exact other (by simpa [named] using inside)
    · intro run member other
      exact mem_stopped_runs.mpr ⟨run, member, if_neg (by simp [other])⟩
  | recovered listed => exact linked.recovered listed

/-- Every change of the tables keeps the link. -/
theorem Linked.change {source target : Db} (linked : source.Linked) (change : Change source target) :
    target.Linked := by
  cases change with
  | ran change => exact linked.runChange change
  | created valid first second third =>
    obtain ⟨rooms, inserted, rfl⟩ := insertRoom_eq_some_iff.mp first
    obtain ⟨-, _, -, rfl⟩ := insertInvite_eq_some_iff.mp second
    obtain ⟨-, _, -, rfl⟩ := insertParticipant_eq_some_iff.mp third
    exact linked.created rfl inserted rfl
  | joined admits first second =>
    obtain ⟨-, _, -, rfl⟩ := insertParticipant_eq_some_iff.mp first
    obtain ⟨-, _, -, rfl⟩ := insertSession_eq_some_iff.mp second
    exact linked.congr rfl rfl
  | rotated opened => exact linked.congr rfl rfl
  | revoked => exact linked.congr rfl rfl
  | closed => exact linked.closed

/-- The unfinished runs of a room, as its status tells. -/
structure RunsFollow (db : Db) (room : RoomRow) : Prop where
  single : db.runs.count (isActiveIn room.id) ≤ 1
  running : room.status ≠ .closed → (room.status = .running ↔ db.runs.count (isActiveIn room.id) = 1)
  free : room.status = .idle ∨ room.status = .failed → db.runs.count (isActiveIn room.id) = 0

theorem Linked.runsFollow {db : Db} (linked : db.Linked) {room : RoomRow} (member : room ∈ db.rooms) :
    db.RunsFollow room := by
  have single : db.runs.count (isActiveIn room.id) ≤ 1 := by
    rw [Table.count_le_one]
    intro left leftMem right rightMem leftActive rightActive
    rw [isActiveIn_iff] at leftActive rightActive
    exact linked.single left leftMem right rightMem leftActive.2 rightActive.2
      (leftActive.1.trans rightActive.1.symm)
  have some : room.status = .running → 0 < db.runs.count (isActiveIn room.id) := fun running =>
    Table.count_pos.mpr (linked.busy room member running)
  have none : 0 < db.runs.count (isActiveIn room.id) → room.status = .running ∨ room.status = .closed := by
    intro positive
    obtain ⟨run, ran, active⟩ := Table.count_pos.mp positive
    exact linked.free room member run ran active
  refine ⟨single, fun opened => ⟨fun running => ?_, fun one => ?_⟩, fun quiet => ?_⟩
  · have := some running
    omega
  · exact (none (one ▸ Nat.one_pos)).resolve_right opened
  · by_contra positive
    rcases none (Nat.pos_of_ne_zero positive) with status | status <;> simp [status] at quiet

end Db

namespace Change

/-- Setting a status that spares closed rooms leaves a closed room closed. -/
private theorem closed_setRoomStatus {db : Db} {roomId : String} {status : RoomStatus → RoomStatus}
    {now : Instant} {room : RoomRow} (member : room ∈ db.rooms) (shut : room.status = .closed)
    (spares : room.id = roomId → status .closed = .closed) :
    ∃ next ∈ (Db.setRoomStatus roomId status now db).1.rooms, next.id = room.id ∧ next.status = .closed := by
  refine ⟨_, Db.mem_setRoomStatus.mpr ⟨room, member, rfl⟩, ?_⟩
  split
  · next named => exact ⟨rfl, shut.symm ▸ spares (eq_of_beq named)⟩
  · exact ⟨rfl, shut⟩

/-- No change of runs opens a closed room. -/
private theorem runChange_stays_closed {source target : Db} (change : RunChange source target) {room : RoomRow}
    (member : room ∈ source.rooms) (shut : room.status = .closed) :
    ∃ next ∈ target.rooms, next.id = room.id ∧ next.status = .closed := by
  cases change with
  | unchanged => exact ⟨room, member, rfl, shut⟩
  | accepted opened free first second =>
    obtain ⟨-, _, -, rfl⟩ := Db.insertMessage_eq_some_iff.mp first
    obtain ⟨-, _, -, rfl⟩ := Db.insertRun_eq_some_iff.mp second
    refine closed_setRoomStatus member shut fun named => ?_
    obtain ⟨other, held, same, notClosed⟩ := opened
    exact absurd shut (Table.eq_of_key member held (named.trans same.symm) ▸ notClosed)
  | extended => exact closed_setRoomStatus member shut fun _ => rfl
  | settled terminal active answer =>
    refine closed_setRoomStatus ?_ shut fun _ => rfl
    rcases answer with rfl | ⟨-, _, _, inserted⟩
    · exact member
    · obtain ⟨-, _, -, rfl⟩ := Db.insertMessage_eq_some_iff.mp inserted
      exact member
  | stopped active => exact closed_setRoomStatus member shut fun _ => rfl
  | recovered listed =>
    refine ⟨_, Db.mem_failRunningRooms.mpr ⟨room, by rwa [Db.interrupted_rooms], rfl⟩, ?_⟩
    rw [if_neg (by simp [shut])]
    exact ⟨rfl, shut⟩

/-- No change opens a closed room. -/
theorem stays_closed {source target : Db} (change : Change source target) {room : RoomRow}
    (member : room ∈ source.rooms) (shut : room.status = .closed) :
    ∃ next ∈ target.rooms, next.id = room.id ∧ next.status = .closed := by
  cases change with
  | ran change => exact runChange_stays_closed change member shut
  | created valid first second third =>
    obtain ⟨rooms, inserted, rfl⟩ := Db.insertRoom_eq_some_iff.mp first
    obtain ⟨-, _, -, rfl⟩ := Db.insertInvite_eq_some_iff.mp second
    obtain ⟨-, _, -, rfl⟩ := Db.insertParticipant_eq_some_iff.mp third
    exact ⟨room, (Table.mem_of_insert? inserted).mpr (Or.inl member), rfl, shut⟩
  | joined admits first second =>
    obtain ⟨-, _, -, rfl⟩ := Db.insertParticipant_eq_some_iff.mp first
    obtain ⟨-, _, -, rfl⟩ := Db.insertSession_eq_some_iff.mp second
    exact ⟨room, member, rfl, shut⟩
  | rotated opened => exact ⟨room, member, rfl, shut⟩
  | revoked => exact ⟨room, member, rfl, shut⟩
  | closed =>
    refine ⟨_, Db.mem_closed_rooms.mpr ⟨room, member, rfl⟩, ?_⟩
    split <;> exact ⟨rfl, by simp [shut]⟩

end Change

section Trim

variable {store : RoomStore} {draws : Draws} {source middle target : Db}

/-- When `finish_run` trims, the room of the run it ended has no unfinished run left. -/
theorem Db.Linked.none_active_of_recordTerminal (linked : source.Linked) {roomId : String} {run : RunRow}
    {terminal : RunTerminal} (ends : terminal.status.isActive = false) (member : run ∈ source.runs)
    (active : Db.isActiveIn roomId run)
    (recorded : store.recordTerminal draws.env roomId run terminal source = .ok () middle) :
    ∀ other ∈ middle.runs, ¬ Db.isActiveIn roomId other := by
  obtain ⟨answered, message, answer, rfl⟩ := RoomStore.recordTerminal_ok recorded
  have same : answered.runs = source.runs := by
    rcases answer with rfl | ⟨-, _, inserted⟩
    · rfl
    · obtain ⟨-, _, -, rfl⟩ := Db.insertMessage_eq_some_iff.mp inserted
      rfl
  rw [Db.isActiveIn_iff] at active
  intro other otherMem inside
  obtain ⟨old, held, rfl⟩ := Db.mem_settled_runs.mp otherMem
  rw [same] at held
  rw [Db.isActiveIn_iff] at inside
  split at inside
  · simp [ends] at inside
  · next apart =>
    obtain rfl := linked.single old held run member inside.2 active.2 (inside.1.trans active.1.symm)
    simp [inside.1] at apart

/-- The two trims delete only finished runs, whatever the clock said when the runs were created. -/
theorem Db.Linked.kept_by_trimHistory (linked : source.Linked) {roomId : String} {run : RunRow}
    {terminal : RunTerminal} (ends : terminal.status.isActive = false) (member : run ∈ source.runs)
    (active : Db.isActiveIn roomId run)
    (recorded : store.recordTerminal draws.env roomId run terminal source = .ok () middle)
    (trims : RoomStore.trimHistory draws.env roomId middle = .ok () target) :
    ∀ other ∈ middle.runs, other.status.isActive → other ∈ target.runs := by
  intro other otherMem alive
  rw [RoomStore.trimHistory_ok trims]
  refine Db.mem_trimmed_runs_of_ne otherMem fun inside => ?_
  exact linked.none_active_of_recordTerminal ends member active recorded other otherMem
    (Db.isActiveIn_iff.mpr ⟨inside, alive⟩)

end Trim

section Histories

variable {crates : Crates} {events : List Event} {db : Db}

/-- Every reachable state of the store links its rooms to their runs. -/
theorem linked_of_run (run : (storeMachine crates).Run events db) : db.Linked :=
  run.invariant (fun _ initial => initial ▸ .empty) fun _ _ _ linked step => linked.change (Event.change step)

/-- A closed room is closed in every later state. -/
theorem stays_closed_of_path {later : List Event} {target : Db} (path : (storeMachine crates).Path db later target)
    {room : RoomRow} (member : room ∈ db.rooms) (shut : room.status = .closed) :
    ∃ next ∈ target.rooms, next.id = room.id ∧ next.status = .closed := by
  refine path.invariant (fun state => ∃ next ∈ state.rooms, next.id = room.id ∧ next.status = .closed)
    ⟨room, member, rfl, shut⟩ fun state event next => ?_
  rintro ⟨held, heldMem, same, still⟩ step
  obtain ⟨after, afterMem, named, status⟩ := (Event.change step).stays_closed heldMem still
  exact ⟨after, afterMem, named.trans same, status⟩

/-- In every history, unfinished runs follow the status of their room, a closed room stays closed, no
trim deletes an unfinished run, and recovery leaves no run unfinished and no room running. -/
theorem runs_follow_rooms (run : (storeMachine crates).Run events db) :
    (∀ room ∈ db.rooms, db.RunsFollow room) ∧
      (∀ later target, (storeMachine crates).Path db later target → ∀ room ∈ db.rooms,
        room.status = .closed → ∃ next ∈ target.rooms, next.id = room.id ∧ next.status = .closed) ∧
      (∀ (store : RoomStore) (draws : Draws) (roomId runId : String) (row : RunRow) (terminal : RunTerminal)
        (middle target : Db), (terminal.status = .completed ∨ terminal.status = .failed) →
        (db.runs.find? fun other => other.id == runId && other.roomId == roomId) = some row →
        row.status.isActive →
        store.recordTerminal draws.env roomId row terminal db = .ok () middle →
        RoomStore.trimHistory draws.env roomId middle = .ok () target →
        ∀ other ∈ middle.runs, other.status.isActive → other ∈ target.runs) ∧
      ∀ (store : RoomStore) (draws : Draws) (changed : ℕ) (target : Db),
        store.recoverRunning draws.env db = .ok changed target →
        (∀ other ∈ target.runs, other.status.isActive = false) ∧
          ∀ room ∈ target.rooms, room.status ≠ .running := by
  have linked := linked_of_run run
  refine ⟨fun room => linked.runsFollow, fun _ _ path room => stays_closed_of_path path, ?_, ?_⟩
  · intro store draws roomId runId row terminal middle target ends found active recorded trims
    obtain ⟨member, chosen⟩ := Table.find?_eq_some found
    simp only [Bool.and_eq_true, beq_iff_eq] at chosen
    refine linked.kept_by_trimHistory ?_ member (Db.isActiveIn_iff.mpr ⟨chosen.2, active⟩) recorded trims
    rcases ends with same | same <;> rw [same] <;> rfl
  · intro store draws changed target recovered
    obtain ⟨messages, listed, rfl⟩ := RoomStore.recoverRunning_ok recovered
    exact ⟨fun _ => Db.Linked.recovered_inactive listed, fun _ => Db.Linked.recovered_not_running⟩

/-- A room is created and its host takes a turn. -/
def Sample.firstTurn : List Call :=
  [⟨.compat, draws 1 10, false, .createRoom ⟨"llama", origin⟩⟩,
    ⟨.compat, draws 11 20, false, .appendUserTurn host ⟨"hello", none⟩⟩]

theorem runs_follow_rooms_firstTurn :
    let db := (history Sample.crates Sample.firstTurn .empty).2
    db.rooms.rows.map RoomRow.status = [.running] ∧ ∀ room ∈ db.rooms, db.RunsFollow room :=
  ⟨by decide +kernel, (runs_follow_rooms (run_history Sample.crates Sample.firstTurn)).1⟩

end Histories

end RyuRooms
