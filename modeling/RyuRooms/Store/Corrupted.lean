import RyuRooms.Store.Access
import RyuRooms.Store.Retries

/-! # Snapshots of unreadable rows

A corruption puts other texts into the sealed columns of any rows and leaves the rest of the tables alone. The
rows a snapshot reads and their order do not depend on those columns, so it stays available: a message or a
participant that does not open is left out, and a run that does not open is shown without its texts.
-/

namespace RyuRooms

open Foundation

/-- What the sealed columns hold instead; a cell that was not hit holds the text of its row. -/
structure Corruption where
  messageText : MessageRow → String
  displayName : ParticipantRow → String
  inputText : RunRow → String
  partialText : RunRow → String
  errorMessage : RunRow → Option String

namespace Corruption

variable (corruption : Corruption)

def message (row : MessageRow) : MessageRow := { row with text := corruption.messageText row }

def participant (row : ParticipantRow) : ParticipantRow := { row with displayName := corruption.displayName row }

def run (row : RunRow) : RunRow :=
  { row with inputText := corruption.inputText row, partialText := corruption.partialText row,
             errorMessage := corruption.errorMessage row }

/-- The tables with their sealed columns corrupted. -/
def apply (db : Db) : Db :=
  { db with messages := db.messages.update (fun _ => true) corruption.message fun _ => rfl
            runs := db.runs.update (fun _ => true) corruption.run fun _ => rfl
            participants := db.participants.update (fun _ => true) corruption.participant fun _ => rfl }

variable {corruption} {db : Db}

theorem messages_apply : (corruption.apply db).messages.rows = db.messages.rows.map corruption.message := by
  simp [apply, Table.update]

theorem runs_apply : (corruption.apply db).runs.rows = db.runs.rows.map corruption.run := by
  simp [apply, Table.update]

theorem participants_apply :
    (corruption.apply db).participants.rows = db.participants.rows.map corruption.participant := by
  simp [apply, Table.update]

theorem mem_runs_apply {row : RunRow} :
    row ∈ (corruption.apply db).runs ↔ ∃ old ∈ db.runs, corruption.run old = row := by
  rw [← Table.mem_rows, runs_apply, List.mem_map]
  rfl

theorem mem_participants_apply {row : ParticipantRow} :
    row ∈ (corruption.apply db).participants ↔ ∃ old ∈ db.participants, corruption.participant old = row := by
  rw [← Table.mem_rows, participants_apply, List.mem_map]
  rfl

/-- A corruption leaves runs in their rooms. -/
theorem rooted_apply (rooted : db.Rooted) : (corruption.apply db).Rooted where
  runs row member := by
    obtain ⟨old, held, rfl⟩ := mem_runs_apply.mp member
    exact rooted.runs old held
  rooms := rooted.rooms

/-- A corruption leaves everybody in their room and on their session. -/
theorem seated_apply (seated : db.Seated) : (corruption.apply db).Seated where
  inside row member := by
    obtain ⟨old, held, rfl⟩ := mem_participants_apply.mp member
    exact seated.inside old held
  hosted room member := by
    obtain ⟨host, held, found⟩ := seated.hosted room member
    exact ⟨_, mem_participants_apply.mpr ⟨host, held, rfl⟩, found⟩
  single left leftMem right rightMem leftHost rightHost same := by
    obtain ⟨first, firstMem, rfl⟩ := mem_participants_apply.mp leftMem
    obtain ⟨second, secondMem, rfl⟩ := mem_participants_apply.mp rightMem
    rw [seated.single first firstMem second secondMem leftHost rightHost same]
  guest session member := by
    obtain ⟨guest, held, found⟩ := seated.guest session member
    exact ⟨_, mem_participants_apply.mpr ⟨guest, held, rfl⟩, found⟩
  role row member := by
    obtain ⟨old, held, rfl⟩ := mem_participants_apply.mp member
    exact seated.role old held

end Corruption

namespace Db

/-- The newest messages of a room, as many as a snapshot holds, in the order in which they were written. -/
structure Recent (db : Db) (roomId : String) (rows : List MessageRow) : Prop where
  ordered : rows.Pairwise fun earlier later => comesFirst MessageRow.createdAt MessageRow.id later earlier
  distinct : rows.Nodup
  newest : ∀ row, row ∈ rows ↔ row ∈ db.messages ∧ row.roomId = roomId ∧
    RoomStore.laterMessages db roomId row.id row.createdAt < Limits.MAX_HISTORY_MESSAGES

/-- The participants of a room, in the order in which they came. -/
structure Roster (db : Db) (roomId : String) (rows : List ParticipantRow) : Prop where
  ordered : rows.Pairwise fun earlier later => comesFirst ParticipantRow.createdAt ParticipantRow.id later earlier
  distinct : rows.Nodup
  every : ∀ row, row ∈ rows ↔ row ∈ db.participants ∧ row.roomId = roomId

variable {db : Db} {roomId : String}

theorem recent_newest : db.Recent roomId (newest MessageRow.createdAt MessageRow.id Limits.MAX_HISTORY_MESSAGES
    (db.messages.select (·.roomId == roomId))).reverse where
  ordered := List.pairwise_reverse.mpr pairwise_newest
  distinct := List.nodup_reverse.mpr (nodup_newest (db.messages.keys_nodup.sublist (List.filter_sublist.map _)))
  newest row := by rw [List.mem_reverse, RoomStore.mem_newest_messages_iff]

theorem roster_newest : db.Roster roomId (newest ParticipantRow.createdAt ParticipantRow.id
    db.participants.rows.length (db.participants.select (·.roomId == roomId))).reverse where
  ordered := List.pairwise_reverse.mpr pairwise_newest
  distinct := List.nodup_reverse.mpr (nodup_newest (db.participants.keys_nodup.sublist (List.filter_sublist.map _)))
  every row := by
    have whole : newest ParticipantRow.createdAt ParticipantRow.id db.participants.rows.length
        (db.participants.select (·.roomId == roomId)) = List.insertionSort
          (fun left right => comesFirst ParticipantRow.createdAt ParticipantRow.id left right)
          (db.participants.select (·.roomId == roomId)) :=
      List.take_of_length_le (by rw [List.length_insertionSort]; exact List.length_filter_le _ _)
    rw [List.mem_reverse, whole, List.mem_insertionSort, Table.mem_select, beq_iff_eq]

end Db

namespace RoomStore

section Shown

variable (store : RoomStore)

/-- A message whose cell opens, as a snapshot shows it. -/
def shownMessage (row : MessageRow) : Option RoomMessage :=
  (store.sealing.openText row.text (ctx "room_messages" "text" row.id)).toOption.map fun text =>
    ⟨row.id, row.role, text, row.participantId, row.createdAt⟩

/-- A participant whose name opens, as a snapshot shows it. -/
def shownParticipant (row : ParticipantRow) : Option RoomParticipantSummary :=
  (store.sealing.openText row.displayName (ctx "room_participants" "display_name" row.id)).toOption.map fun name =>
    ⟨row.id, name, row.role, row.online⟩

/-- How a snapshot shows a run: with both of its texts where both open, and with neither otherwise. -/
structure ShowsRun (row : RunRow) (shown : RoomRun) : Prop where
  columns : shown = { rowToRun row with partialText := shown.partialText, errorMessage := shown.errorMessage }
  opened : ∀ partialText errorMessage,
    store.sealing.openText row.partialText (ctx "room_runs" "partial_text" row.id) = .ok partialText →
    store.sealing.openOpt row.errorMessage (ctx "room_runs" "error_message" row.id) = .ok errorMessage →
    shown.partialText = partialText ∧ shown.errorMessage = errorMessage
  blanked : (¬ ∃ partialText,
      store.sealing.openText row.partialText (ctx "room_runs" "partial_text" row.id) = .ok partialText) ∨
    (¬ ∃ errorMessage,
      store.sealing.openOpt row.errorMessage (ctx "room_runs" "error_message" row.id) = .ok errorMessage) →
    shown.partialText = "" ∧ shown.errorMessage = none

variable {store} {db : Db} {roomId : String} {corruption : Corruption}

theorem showsRun_openRunOrBlank (row : RunRow) : store.ShowsRun row (store.openRunOrBlank (rowToRun row)) := by
  cases text : store.sealing.openText row.partialText (ctx "room_runs" "partial_text" row.id) with
  | error reason =>
    have blank : store.openRunOrBlank (rowToRun row) = { rowToRun row with partialText := "", errorMessage := none } := by
      simp only [openRunOrBlank, openRun, rowToRun, text, bind, Except.bind]
    rw [blank]
    exact ⟨rfl, fun _ _ opened => by simp [text] at opened, fun _ => ⟨rfl, rfl⟩⟩
  | ok partialText =>
    cases message : store.sealing.openOpt row.errorMessage (ctx "room_runs" "error_message" row.id) with
    | error reason =>
      have blank : store.openRunOrBlank (rowToRun row) =
          { rowToRun row with partialText := "", errorMessage := none } := by
        simp only [openRunOrBlank, openRun, rowToRun, text, message, bind, Except.bind]
      rw [blank]
      exact ⟨rfl, fun _ _ _ opened => by simp [message] at opened, fun _ => ⟨rfl, rfl⟩⟩
    | ok errorMessage =>
      have opens : store.openRunOrBlank (rowToRun row) = { rowToRun row with partialText, errorMessage } := by
        simp only [openRunOrBlank, openRun, rowToRun, text, message, bind, Except.bind, pure, Except.pure]
      rw [opens]
      refine ⟨rfl, fun _ _ first second => ?_, fun unread => ?_⟩
      · exact ⟨Except.ok.inj (text.symm.trans first), Except.ok.inj (message.symm.trans second)⟩
      · exact absurd unread (not_or.mpr ⟨not_not.mpr ⟨_, text⟩, not_not.mpr ⟨_, message⟩⟩)

/-- The messages of a corrupted room are those of its newest rows that still open. -/
theorem loadMessages_apply : store.loadMessages (corruption.apply db) roomId =
    (newest MessageRow.createdAt MessageRow.id Limits.MAX_HISTORY_MESSAGES
      (db.messages.select (·.roomId == roomId))).reverse.filterMap (store.shownMessage ∘ corruption.message) := by
  have rows : (corruption.apply db).messages.select (·.roomId == roomId) =
      (db.messages.select (·.roomId == roomId)).map corruption.message := by
    rw [Table.select, Corruption.messages_apply, List.filter_map]
    rfl
  rw [loadMessages, rows, @newest_map _ _ _ _ _ corruption.message (fun _ => rfl) fun _ => rfl, ← List.map_reverse,
    List.filterMap_map]
  refine List.filterMap_congr fun row _ => ?_
  simp only [Function.comp_apply, shownMessage]
  split <;> simp only [*] <;> rfl

/-- The participants of a corrupted room are those of its rows whose name still opens. -/
theorem loadParticipants_apply : store.loadParticipants (corruption.apply db) roomId =
    (newest ParticipantRow.createdAt ParticipantRow.id db.participants.rows.length
      (db.participants.select (·.roomId == roomId))).reverse.filterMap
        (store.shownParticipant ∘ corruption.participant) := by
  have rows : (corruption.apply db).participants.select (·.roomId == roomId) =
      (db.participants.select (·.roomId == roomId)).map corruption.participant := by
    rw [Table.select, Corruption.participants_apply, List.filter_map]
    rfl
  rw [loadParticipants, rows, Corruption.participants_apply, List.length_map,
    @newest_map _ _ _ _ _ corruption.participant (fun _ => rfl) fun _ => rfl, ← List.map_reverse, List.filterMap_map]
  refine List.filterMap_congr fun row _ => ?_
  simp only [Function.comp_apply, shownParticipant]
  split <;> simp only [*] <;> rfl

/-- The run a snapshot shows is chosen by columns that are not sealed. -/
theorem currentRow_apply : currentRow (corruption.apply db) roomId = (currentRow db roomId).map corruption.run := by
  have rows : (corruption.apply db).runs.select (fun run => run.roomId == roomId && run.status.isCurrent) =
      (db.runs.select fun run => run.roomId == roomId && run.status.isCurrent).map corruption.run := by
    rw [Table.select, Corruption.runs_apply, List.filter_map]
    rfl
  rw [currentRow, rows, @newest_map _ _ _ _ _ corruption.run (fun _ => rfl) fun _ => rfl, List.head?_map]
  rfl

end Shown

section Snapshot

variable {crates : Crates} {events : List Event} {db : Db} {room : RoomRow} {value : String} {corruption : Corruption}

/-- The snapshot of a room in tables that have the rooms of a history, read without a fault. -/
theorem snapshot_eq_some (run : (storeMachine crates).Run events db) (member : room ∈ db.rooms)
    (named : trim value = room.id) (store : RoomStore) (draws : Draws) (first : ℕ) {tables : Db}
    (same : tables.rooms = db.rooms) : ∃ snapshot,
      store.snapshot draws.env first value tables = .ok (some snapshot) tables ∧
        store.snapshotFrom tables room.id = some snapshot := by
  have valid : validateRoomId value = .ok room.id := by
    have own := validRooms_of_run run room member
    have trimmed : trim room.id = room.id := (validateRoomId_ok own).symm
    rw [← own, validateRoomId, validateRoomId, named, trimmed]
  have known : tables.hasRoom room.id := Db.hasRoom_iff.mpr ⟨room, same ▸ member, rfl⟩
  obtain ⟨snapshot, shown⟩ := Option.isSome_iff_exists.mp (snapshotFrom_isSome_iff.mpr known)
  exact ⟨snapshot, snapshot_ok_iff.mpr ⟨_, valid, shown, rfl⟩, shown⟩

/-- Whatever texts the sealed columns hold, the snapshot of every room is available, and shows exactly the
rows it would have shown apart from the messages and the participants that do not open. -/
theorem snapshot_of_corrupted (run : (storeMachine crates).Run events db) (member : room ∈ db.rooms)
    (named : trim value = room.id) (corruption : Corruption) (store : RoomStore) (draws : Draws) (first : ℕ) :
    ∃ snapshot plain recent roster,
      store.snapshot draws.env first value (corruption.apply db) = .ok (some snapshot) (corruption.apply db) ∧
      store.snapshot draws.env first value db = .ok (some plain) db ∧
      db.Recent room.id recent ∧
      snapshot.messages = recent.filterMap (store.shownMessage ∘ corruption.message) ∧
      db.Roster room.id roster ∧
      snapshot.participants = roster.filterMap (store.shownParticipant ∘ corruption.participant) ∧
      Option.Rel (fun shown before => ∃ row ∈ db.runs, row.roomId = room.id ∧
        store.ShowsRun (corruption.run row) shown ∧ store.ShowsRun row before)
        snapshot.currentRun plain.currentRun := by
  obtain ⟨snapshot, reads, shown⟩ := snapshot_eq_some run member named store draws first
    (rfl : (corruption.apply db).rooms = db.rooms)
  obtain ⟨plain, readsPlain, shownPlain⟩ := snapshot_eq_some run member named store draws first (rfl : db.rooms = _)
  obtain ⟨_, -, rfl⟩ := Option.map_eq_some_iff.mp shown
  obtain ⟨_, -, rfl⟩ := Option.map_eq_some_iff.mp shownPlain
  refine ⟨_, _, _, _, reads, readsPlain, Db.recent_newest, loadMessages_apply, Db.roster_newest,
    loadParticipants_apply, ?_⟩
  simp only [currentRow_apply]
  cases current : currentRow db room.id with
  | none => exact .none
  | some row =>
    obtain ⟨there, inRoom, -⟩ := currentRow_eq_some_iff.mp current
    exact .some ⟨row, there, inRoom, showsRun_openRunOrBlank _, showsRun_openRunOrBlank _⟩

end Snapshot

end RoomStore

namespace Sample

/-- The sealed columns of a store without a key, with an envelope in every cell. -/
def garbled : Corruption where
  messageText _ := "encb:v1:torn"
  displayName _ := "encb:v1:torn"
  inputText _ := "encb:v1:torn"
  partialText _ := "encb:v1:torn"
  errorMessage row := row.errorMessage.map fun _ => "encb:v1:torn"

theorem openText_garbled (context : ContentContext) :
    ∃ reason, Sample.store.sealing.openText "encb:v1:torn" context = .error reason := ⟨_, rfl⟩

end Sample

/-- Where no cell of the first turn's room opens, its snapshot shows no message, nobody, and no text of its run. -/
theorem snapshot_of_corrupted_garbled :
    let db := (history Sample.crates Sample.firstTurn .empty).2
    ∃ snapshot, Sample.store.snapshot (Sample.draws 21 30).env 0 Sample.host.roomId (Sample.garbled.apply db) =
        .ok (some snapshot) (Sample.garbled.apply db) ∧
      snapshot.messages = [] ∧ snapshot.participants = [] ∧ ∀ run ∈ snapshot.currentRun, run.partialText = "" := by
  intro db
  have named : ∃ room ∈ db.rooms.rows, trim Sample.host.roomId = room.id := by decide +kernel
  obtain ⟨room, member, named⟩ := named
  obtain ⟨snapshot, plain, recent, roster, reads, -, -, messages, -, participants, run⟩ :=
    RoomStore.snapshot_of_corrupted (run_history Sample.crates Sample.firstTurn) member named Sample.garbled
      Sample.store (Sample.draws 21 30) 0
  refine ⟨snapshot, reads, ?_, ?_, fun shown isShown => ?_⟩
  · rw [messages, List.filterMap_eq_nil_iff]
    intro row _
    obtain ⟨reason, fails⟩ := Sample.openText_garbled (ctx "room_messages" "text" row.id)
    simp [RoomStore.shownMessage, Corruption.message, Sample.garbled, fails, Except.toOption]
  · rw [participants, List.filterMap_eq_nil_iff]
    intro row _
    obtain ⟨reason, fails⟩ := Sample.openText_garbled (ctx "room_participants" "display_name" row.id)
    simp [RoomStore.shownParticipant, Corruption.participant, Sample.garbled, fails, Except.toOption]
  · rw [Option.mem_def.mp isShown] at run
    generalize plain.currentRun = before at run
    obtain ⟨row, -, -, shows, -⟩ | _ := run
    obtain ⟨reason, fails⟩ := Sample.openText_garbled (ctx "room_runs" "partial_text" row.id)
    refine (shows.blanked (.inl ?_)).1
    rintro ⟨text, opens⟩
    exact absurd (fails.symm.trans opens) nofun

end RyuRooms
