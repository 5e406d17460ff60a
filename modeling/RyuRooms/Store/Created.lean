import RyuRooms.Foundation.Ordered
import RyuRooms.Store.Accepted
import RyuRooms.Store.Turns

/-! # The runs ever created in a room

`created` lists the runs that a history inserted into a room, in the order of their insertion. Trims drop old
runs from the tables and never the last one, as long as the clock readings of the insertions increase; every
run the tables still hold is one of the list, and only the last of them can be unfinished.
-/

namespace RyuRooms

open Foundation

/-- The runs that a history inserted into a room, in the order of their insertion. -/
def created (crates : Crates) (past : List Event) (roomId : String) : List RunRow :=
  ((storeMachine crates).collect (fun source target => source.runs.added target.runs) .empty past).filter
    (·.roomId == roomId)

/-- The clock readings of a list of runs increase. -/
def Increasing (runs : List RunRow) : Prop := (runs.map RunRow.createdAt).Pairwise (· < ·)

namespace Db

/-- The tables hold the runs of a list of created ones, the last of them certainly, and no other unfinished. -/
structure Holds (log : List RunRow) (db : Db) (roomId : String) : Prop where
  listed : ∀ row ∈ db.runs, row.roomId = roomId → ∃ entry ∈ log, entry.turn = row.turn
  latest : ∀ entry, log.getLast? = some entry → ∃ row ∈ db.runs, row.turn = entry.turn
  active : ∀ row ∈ db.runs, row.roomId = roomId → row.status.isActive →
    ∃ entry, log.getLast? = some entry ∧ entry.turn = row.turn
  owned : ∀ entry ∈ log, entry.roomId = roomId

namespace Holds

variable {log : List RunRow} {source target db : Db} {roomId : String}

theorem empty : Db.empty.Holds [] roomId :=
  ⟨fun row member => absurd member (Table.not_mem_empty row), nofun,
    fun row member => absurd member (Table.not_mem_empty row), nofun⟩

/-- A run that is not the last one was created before it. -/
theorem created_le (increasing : Increasing log) {entry last : RunRow} (member : entry ∈ log)
    (isLast : log.getLast? = some last) : entry.createdAt < last.createdAt ∨ entry = last := by
  obtain ⟨before, rfl⟩ := List.getLast?_eq_some_iff.mp isLast
  rcases List.mem_append.mp member with earlier | same
  · rw [Increasing, List.map_append, List.pairwise_append] at increasing
    exact Or.inl (increasing.2.2 _ (List.mem_map_of_mem earlier) _ (List.mem_map_of_mem (List.mem_singleton.mpr rfl)))
  · exact Or.inr (List.mem_singleton.mp same)

/-- The last created run comes before every other run of its room. -/
theorem comesFirst_of_latest (holds : db.Holds log roomId) (increasing : Increasing log) {entry row other : RunRow}
    (isLast : log.getLast? = some entry) (turn : row.turn = entry.turn) (member : other ∈ db.runs)
    (inRoom : other.roomId = roomId) : comesFirst RunRow.createdAt RunRow.id row other := by
  obtain ⟨known, there, same⟩ := holds.listed other member inRoom
  have created := RunRow.created_of_turn turn
  have id := RunRow.id_of_turn turn
  rcases created_le increasing there isLast with before | rfl
  · rw [RunRow.created_of_turn same] at before
    simp [comesFirst, created, before]
  · rw [comesFirst, created, id, RunRow.created_of_turn same, RunRow.id_of_turn same]
    simp

/-- What the tables hold of the list stays where no run is new and the last one of the list is still there. -/
theorem of_old (holds : source.Holds log roomId) (old : ∀ row ∈ target.runs, ∃ old ∈ source.runs, old.turn = row.turn)
    (ends : source.OnlyEnds target) (latest : ∀ entry, log.getLast? = some entry → ∃ row ∈ target.runs, row.turn = entry.turn) :
    target.Holds log roomId := by
  refine ⟨fun row member inRoom => ?_, latest, fun row member inRoom alive => ?_, holds.owned⟩
  · obtain ⟨known, held, same⟩ := old row member
    obtain ⟨entry, there, turn⟩ := holds.listed known held ((RunRow.room_of_turn same).trans inRoom)
    exact ⟨entry, there, turn.trans same⟩
  · obtain ⟨known, held, same⟩ := old row member
    obtain ⟨before, heldBefore, becomes⟩ := ends row member
    obtain rfl := Table.eq_of_key held heldBefore ((RunRow.id_of_turn same).trans becomes.id)
    obtain ⟨entry, isLast, turn⟩ := holds.active known held ((RunRow.room_of_turn same).trans inRoom)
      (becomes.of_active alive ▸ alive)
    exact ⟨entry, isLast, turn.trans same⟩

/-- A run of the room that is inserted while no run of the room is active is the last of the list. -/
theorem inserted {row : RunRow} (holds : source.Holds log row.roomId)
    (free : ∀ other ∈ source.runs, ¬ isActiveIn row.roomId other)
    (listed : ∀ other, other ∈ target.runs ↔ other ∈ source.runs ∨ other = row) :
    target.Holds (log ++ [row]) row.roomId := by
  refine ⟨fun other member inRoom => ?_, fun entry isLast => ?_, fun other member inRoom alive => ?_, ?_⟩
  · rcases (listed other).mp member with held | rfl
    · obtain ⟨entry, there, turn⟩ := holds.listed other held inRoom
      exact ⟨entry, List.mem_append_left _ there, turn⟩
    · exact ⟨other, List.mem_append_right _ (List.mem_singleton.mpr rfl), rfl⟩
  · rw [List.getLast?_concat] at isLast
    obtain rfl := Option.some.inj isLast
    exact ⟨row, (listed row).mpr (Or.inr rfl), rfl⟩
  · rcases (listed other).mp member with held | rfl
    · exact absurd (isActiveIn_iff.mpr ⟨inRoom, alive⟩) (free other held)
    · exact ⟨other, List.getLast?_concat, rfl⟩
  · intro entry member
    rcases List.mem_append.mp member with there | same
    · exact holds.owned entry there
    · rw [List.mem_singleton.mp same]

/-- A run of another room does not count. -/
theorem elsewhere {row : RunRow} (holds : source.Holds log roomId) (other : row.roomId ≠ roomId)
    (listed : ∀ other, other ∈ target.runs ↔ other ∈ source.runs ∨ other = row) : target.Holds log roomId := by
  have known {run : RunRow} (member : run ∈ target.runs) (inRoom : run.roomId = roomId) : run ∈ source.runs := by
    rcases (listed run).mp member with held | rfl
    · exact held
    · exact absurd inRoom other
  refine ⟨fun run member inRoom => holds.listed run (known member inRoom) inRoom, fun entry isLast => ?_,
    fun run member inRoom alive => holds.active run (known member inRoom) inRoom alive, holds.owned⟩
  obtain ⟨run, held, turn⟩ := holds.latest entry isLast
  exact ⟨run, (listed run).mpr (Or.inl held), turn⟩

/-- The last run of the list stays where the turns of all runs do. -/
theorem latest_of_same (holds : source.Holds log roomId)
    (same : target.runs.rows.map RunRow.turn = source.runs.rows.map RunRow.turn) {entry : RunRow}
    (isLast : log.getLast? = some entry) : ∃ row ∈ target.runs, row.turn = entry.turn := by
  obtain ⟨row, held, turn⟩ := holds.latest entry isLast
  obtain ⟨later, there, still⟩ := List.mem_map.mp (same.symm ▸ List.mem_map_of_mem held :
    row.turn ∈ target.runs.rows.map RunRow.turn)
  exact ⟨later, there, still.trans turn⟩

/-- The trim of a room keeps the last run of the list, which is among the newest of its room. -/
theorem latest_trimmed {middle : Db} {trimmedId : String} (holds : source.Holds log roomId)
    (same : middle.runs.rows.map RunRow.turn = source.runs.rows.map RunRow.turn) (increasing : Increasing log)
    {entry : RunRow} (isLast : log.getLast? = some entry) :
    ∃ row ∈ (trimRuns trimmedId middle).1.runs, row.turn = entry.turn := by
  obtain ⟨later, there, turn⟩ := holds.latest_of_same same isLast
  refine ⟨later, Table.mem_delete.mpr ⟨there, ?_⟩, turn⟩
  simp only [Bool.and_eq_true, beq_iff_eq, Bool.not_eq_true', not_and, Bool.not_eq_false, List.contains_iff_mem]
  intro inTrimmed
  have inRoom : later.roomId = roomId := by
    rw [RunRow.room_of_turn turn]
    exact holds.owned entry (List.mem_of_getLast? isLast)
  have chosen : later ∈ middle.runs.select (·.roomId == trimmedId) :=
    Table.mem_select.mpr ⟨there, beq_iff_eq.mpr inTrimmed⟩
  have distinct : ((middle.runs.select (·.roomId == trimmedId)).map RunRow.id).Nodup :=
    middle.runs.keys_nodup.sublist (List.filter_sublist.map _)
  refine List.mem_map_of_mem ((mem_newest_iff distinct chosen).mpr ?_)
  -- no other run of the room comes before it
  rw [List.countP_eq_zero.mpr]
  · exact Nat.zero_lt_succ _
  · intro other member
    obtain ⟨held, owned⟩ := Table.mem_select.mp member
    obtain ⟨known, knownMem, sameTurn⟩ := List.mem_map.mp (same ▸ List.mem_map_of_mem held)
    have room : known.roomId = roomId :=
      (RunRow.room_of_turn sameTurn).trans ((eq_of_beq owned).trans (inTrimmed.symm.trans inRoom))
    have first := holds.comesFirst_of_latest increasing isLast turn knownMem room
    have precedes : comesFirst RunRow.createdAt RunRow.id later other := by
      simpa only [comesFirst, RunRow.created_of_turn sameTurn, RunRow.id_of_turn sameTurn] using first
    simp [precedes]

/-- What the tables hold of the list follows every change of runs. -/
theorem step (holds : source.Holds log roomId) (change : source.TurnStep target)
    (increasing : Increasing (log ++ (source.runs.added target.runs).filter (·.roomId == roomId))) :
    target.Holds (log ++ (source.runs.added target.runs).filter (·.roomId == roomId)) roomId := by
  have quiet (old : ∀ row ∈ target.runs, ∃ old ∈ source.runs, old.turn = row.turn) :
      source.runs.added target.runs = [] :=
    Table.added_eq_nil fun row member =>
      let ⟨known, held, same⟩ := old row member
      ⟨known, held, RunRow.id_of_turn same⟩
  cases change with
  | kept same ends =>
    have old (row : RunRow) (member : row ∈ target.runs) : ∃ old ∈ source.runs, old.turn = row.turn :=
      List.mem_map.mp (same ▸ List.mem_map_of_mem member)
    rw [quiet old, List.filter_nil, List.append_nil]
    exact holds.of_old old ends fun entry isLast => holds.latest_of_same same isLast
  | @inserted row fresh untaken free running rows =>
    have listed (other : RunRow) : other ∈ target.runs ↔ other ∈ source.runs ∨ other = row := by
      rw [← Table.mem_rows, rows, List.mem_append, List.mem_singleton, Table.mem_rows]
    rw [Table.added_of_rows fresh rows]
    by_cases here : row.roomId = roomId
    · subst here
      rw [List.filter_cons_of_pos (by simp), List.filter_nil]
      exact holds.inserted free listed
    · rw [List.filter_cons_of_neg (by simpa using here), List.filter_nil, List.append_nil]
      exact holds.elsewhere here listed
  | @trimmed trimmedId middle same runs ends =>
    have old (row : RunRow) (member : row ∈ target.runs) : ∃ old ∈ source.runs, old.turn = row.turn :=
      List.mem_map.mp (same ▸ List.mem_map_of_mem (Table.mem_delete.mp (runs ▸ member)).1)
    rw [quiet old, List.filter_nil, List.append_nil] at increasing ⊢
    exact holds.of_old old ends fun entry isLast => runs ▸ holds.latest_trimmed same increasing isLast

end Holds

end Db

theorem created_snoc {crates : Crates} {past : List Event} {event : Event} {source target : Db} {roomId : String}
    (run : (storeMachine crates).Run past source) (step : (storeMachine crates).step? source event = some target) :
    created crates (past ++ [event]) roomId =
      created crates past roomId ++ (source.runs.added target.runs).filter (·.roomId == roomId) := by
  obtain ⟨_, rfl, path⟩ := run
  rw [created, Machine.collect_snoc path step, List.filter_append, created]

/-- In every history whose insertions into a room have increasing clock readings, the tables hold what it created. -/
theorem holds_of_run {crates : Crates} {past : List Event} {db : Db} {roomId : String}
    (run : (storeMachine crates).Run past db) (increasing : Increasing (created crates past roomId)) :
    db.Holds (created crates past roomId) roomId := by
  refine run.history (fun past db => Increasing (created crates past roomId) → db.Holds (created crates past roomId) roomId)
    ?_ ?_ increasing
  · rintro _ rfl -
    exact .empty
  · intro past source event target before held step increasing
    rw [created_snoc before step] at increasing ⊢
    have earlier : Increasing (created crates past roomId) := by
      rw [Increasing, List.map_append, List.pairwise_append] at increasing
      exact increasing.1
    exact (held earlier).step (Event.change step).turnStep increasing

end RyuRooms
