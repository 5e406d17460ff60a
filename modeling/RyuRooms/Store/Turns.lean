import RyuRooms.Store.Lifecycle

/-! # What a run keeps

A run's ids, its idempotency key, its input and its times of creation and start are set when it is inserted
and never again: every operation on turns inserts a run, or leaves those of all runs as they are, or drops
runs by a trim. So the runs of a room that carry one idempotency key are one run.
-/

namespace RyuRooms

open Foundation

/-- A run as it was inserted, apart from the text of its answer. -/
def RunRow.turn (row : RunRow) : RunRow :=
  { row with status := .running, partialText := "", errorCode := none, errorMessage := none, finishedAt := none }

namespace RunRow

variable {left right : RunRow}

theorem id_of_turn (same : left.turn = right.turn) : left.id = right.id :=
  (congrArg RunRow.id same :)

theorem room_of_turn (same : left.turn = right.turn) : left.roomId = right.roomId :=
  (congrArg RunRow.roomId same :)

theorem key_of_turn (same : left.turn = right.turn) : left.idempotencyKey = right.idempotencyKey :=
  (congrArg RunRow.idempotencyKey same :)

theorem input_of_turn (same : left.turn = right.turn) : left.inputText = right.inputText :=
  (congrArg RunRow.inputText same :)

theorem created_of_turn (same : left.turn = right.turn) : left.createdAt = right.createdAt :=
  (congrArg RunRow.createdAt same :)

end RunRow

namespace Db

/-- What a change does to the runs. -/
inductive TurnStep (source target : Db) : Prop
  | kept (same : target.runs.rows.map RunRow.turn = source.runs.rows.map RunRow.turn) (ends : source.OnlyEnds target)
  | inserted {row : RunRow} (fresh : ∀ other ∈ source.runs, other.id ≠ row.id)
      (untaken : source.keyTaken row.roomId row.idempotencyKey = false)
      (free : ∀ other ∈ source.runs, ¬ isActiveIn row.roomId other) (running : row.status = .running)
      (rows : target.runs.rows = source.runs.rows ++ [row])
  | trimmed {roomId : String} {middle : Db}
      (same : middle.runs.rows.map RunRow.turn = source.runs.rows.map RunRow.turn)
      (runs : target.runs = (trimRuns roomId middle).1.runs) (ends : source.OnlyEnds target)

namespace TurnStep

variable {source target : Db}

/-- Only an insertion adds a run. -/
theorem origin (step : source.TurnStep target) {row : RunRow} (member : row ∈ target.runs) :
    (∃ old ∈ source.runs, old.turn = row.turn) ∨
      ((∀ other ∈ source.runs, other.id ≠ row.id) ∧ source.keyTaken row.roomId row.idempotencyKey = false ∧
        ∀ other, other ∈ target.runs ↔ other ∈ source.runs ∨ other = row) := by
  have held {middle : Db} (same : middle.runs.rows.map RunRow.turn = source.runs.rows.map RunRow.turn)
      (there : row ∈ middle.runs) : ∃ old ∈ source.runs, old.turn = row.turn := by
    have listed : row.turn ∈ source.runs.rows.map RunRow.turn := same ▸ List.mem_map_of_mem there
    exact List.mem_map.mp listed
  cases step with
  | kept same ends => exact Or.inl (held same member)
  | @inserted new fresh untaken free running rows =>
    have listed (other : RunRow) : other ∈ target.runs ↔ other ∈ source.runs ∨ other = new := by
      rw [← Table.mem_rows, rows, List.mem_append, List.mem_singleton, Table.mem_rows]
    rcases (listed row).mp member with there | rfl
    · exact Or.inl ⟨row, there, rfl⟩
    · exact Or.inr ⟨fresh, untaken, listed⟩
  | trimmed same runs ends =>
    rw [runs] at member
    exact Or.inl (held same (Table.mem_delete.mp member).1)

end TurnStep

theorem interrupted_turns {messages : List (String × Option String)} {now : Instant} {db : Db} :
    (interrupted now messages db).runs.rows.map RunRow.turn = db.runs.rows.map RunRow.turn := by
  induction messages generalizing db with
  | nil => rfl
  | cons first rest ih => exact ih.trans (Table.map_update (fun _ => by rfl) fun _ => by rfl)

end Db

/-- Every change of runs inserts a run, keeps all of them, or trims them. -/
theorem RunChange.turnStep {source target : Db} (change : RunChange source target) : source.TurnStep target := by
  cases change with
  | unchanged => exact .kept rfl (.of_eq rfl)
  | accepted opened free first second =>
    obtain ⟨-, _, -, rfl⟩ := Db.insertMessage_eq_some_iff.mp first
    obtain ⟨⟨-, untaken⟩, _, added, rfl⟩ := Db.insertRun_eq_some_iff.mp second
    obtain ⟨fresh, rows⟩ := Table.insert?_eq_some_iff.mp added
    exact .inserted fresh untaken free rfl rows
  | extended => exact .kept (Table.map_update (fun _ => by rfl) fun _ => by rfl) .extended
  | @settled roomId runId status errorCode message now answered terminal active answer =>
    have runs : answered.runs = source.runs := by
      rcases answer with rfl | ⟨-, _, _, inserted⟩
      · rfl
      · obtain ⟨-, _, -, rfl⟩ := Db.insertMessage_eq_some_iff.mp inserted
        rfl
    have ended : source.OnlyCarries ((answered.settled roomId runId status errorCode message now).trimmed roomId) := by
      obtain ⟨run, member, named, alive⟩ := active
      exact .settled terminal runs ⟨run, member, named, (Db.isActiveIn_iff.mp alive).2⟩
    refine @Db.TurnStep.trimmed _ _ roomId (answered.settled roomId runId status errorCode message now) ?_ rfl
      ended.onlyEnds
    rw [← runs]
    exact Table.map_update (fun _ => by rfl) fun _ => by rfl
  | stopped active => exact .kept (Table.map_update (fun _ => by rfl) fun _ => by rfl) Db.OnlyCarries.stopped.onlyEnds
  | recovered listed => exact .kept Db.interrupted_turns Db.OnlyCarries.interrupted.onlyEnds

/-- What a change that is not one of runs does to messages and runs: nothing. -/
theorem Change.turnStep {source target : Db} (change : Change source target) : source.TurnStep target := by
  cases change with
  | ran change => exact change.turnStep
  | created valid first second third =>
    obtain ⟨_, -, rfl⟩ := Db.insertRoom_eq_some_iff.mp first
    obtain ⟨-, _, -, rfl⟩ := Db.insertInvite_eq_some_iff.mp second
    obtain ⟨-, _, -, rfl⟩ := Db.insertParticipant_eq_some_iff.mp third
    exact .kept rfl (.of_eq rfl)
  | joined admits first second =>
    obtain ⟨-, _, -, rfl⟩ := Db.insertParticipant_eq_some_iff.mp first
    obtain ⟨-, _, -, rfl⟩ := Db.insertSession_eq_some_iff.mp second
    exact .kept rfl (.of_eq rfl)
  | rotated opened => exact .kept rfl (.of_eq rfl)
  | revoked => exact .kept rfl (.of_eq rfl)
  | closed => exact .kept rfl (.of_eq rfl)

/-- The runs of a room that carry one idempotency key are one run. -/
def Db.KeysApart (db : Db) : Prop := ∀ left ∈ db.runs, ∀ right ∈ db.runs, left.roomId = right.roomId →
  left.idempotencyKey.isSome → left.idempotencyKey = right.idempotencyKey → left = right

theorem keysApart_of_run {crates : Crates} {past : List Event} {db : Db} (run : (storeMachine crates).Run past db) :
    db.KeysApart := by
  refine run.invariant ?_ ?_
  · rintro _ rfl left member
    exact absurd member (Table.not_mem_empty left)
  intro source event target apart step left leftMem right rightMem inRoom keyed same
  have change := (Event.change step).turnStep
  have clash {old new : RunRow} (held : old ∈ source.runs) (untaken : source.keyTaken new.roomId new.idempotencyKey = false)
      (inRoom : old.roomId = new.roomId) (keyed : new.idempotencyKey.isSome)
      (same : old.idempotencyKey = new.idempotencyKey) : False := by
    simp only [Db.keyTaken, keyed, Bool.true_and, List.any_eq_false, Bool.and_eq_true, beq_iff_eq] at untaken
    exact untaken old held ⟨inRoom, same⟩
  rcases change.origin leftMem with ⟨first, firstMem, firstTurn⟩ | ⟨fresh, untaken, listed⟩
  · rcases change.origin rightMem with ⟨second, secondMem, secondTurn⟩ | ⟨-, untaken, -⟩
    · have rooms : first.roomId = second.roomId :=
        (RunRow.room_of_turn firstTurn).trans (inRoom.trans (RunRow.room_of_turn secondTurn).symm)
      have keys : first.idempotencyKey = second.idempotencyKey :=
        (RunRow.key_of_turn firstTurn).trans (same.trans (RunRow.key_of_turn secondTurn).symm)
      have one := apart first firstMem second secondMem rooms (RunRow.key_of_turn firstTurn ▸ keyed) keys
      refine Table.eq_of_key leftMem rightMem ?_
      rw [← RunRow.id_of_turn firstTurn, one, RunRow.id_of_turn secondTurn]
    · exact (clash firstMem untaken ((RunRow.room_of_turn firstTurn).trans inRoom) (same ▸ keyed)
        ((RunRow.key_of_turn firstTurn).trans same)).elim
  · rcases (listed right).mp rightMem with there | rfl
    · exact (clash there untaken inRoom.symm keyed same.symm).elim
    · rfl

end RyuRooms
