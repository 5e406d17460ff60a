import RyuRooms.Foundation.Ordered
import RyuRooms.Model.Timestamps
import RyuRooms.Store.Answers
import RyuRooms.Store.Corrupted
import RyuRooms.Store.Turns

/-! # The messages ever inserted in a room

`inserted` lists the messages that a history inserted into a room, in the order of their insertion. As long as
the clock readings of its calls increase, the tables hold the last of them, at least as many as a snapshot
shows, whatever the widths of the fractions in their timestamps: up to the year 9999 the texts of two instants
are ordered as the instants are. A trim keeps what a snapshot shows, in any order of the rows.
-/

namespace RyuRooms

open Foundation

section Texts

variable {ρ : Type*} {text id : ρ → String} {chrono : Chrono}

theorem comesFirstAsText_total (left right : ρ) :
    comesFirstAsText text id left right ∨ comesFirstAsText text id right left := by
  simp only [comesFirstAsText, Bool.or_eq_true, Bool.and_eq_true, decide_eq_true_eq]
  rcases lt_trichotomy (text left) (text right) with before | same | after
  · exact Or.inr (Or.inl before)
  · exact (le_total (id right) (id left)).imp (fun ids => Or.inr ⟨same.symm, ids⟩) fun ids => Or.inr ⟨same, ids⟩
  · exact Or.inl (Or.inl after)

theorem comesFirstAsText_trans {left middle right : ρ} (first : comesFirstAsText text id left middle)
    (second : comesFirstAsText text id middle right) : comesFirstAsText text id left right := by
  simp only [comesFirstAsText, Bool.or_eq_true, Bool.and_eq_true, decide_eq_true_eq] at first second ⊢
  rcases first with before | ⟨same, ids⟩ <;> rcases second with later | ⟨equal, others⟩
  · exact Or.inl (later.trans before)
  · exact Or.inl (equal ▸ before)
  · exact Or.inl (same ▸ later)
  · exact Or.inr ⟨equal.trans same, others.trans ids⟩

theorem id_eq_of_comesFirstAsText {left right : ρ} (first : comesFirstAsText text id left right)
    (second : comesFirstAsText text id right left) : id left = id right := by
  simp only [comesFirstAsText, Bool.or_eq_true, Bool.and_eq_true, decide_eq_true_eq] at first second
  rcases first with before | ⟨same, ids⟩ <;> rcases second with later | ⟨equal, others⟩
  · exact absurd before later.asymm
  · exact absurd before equal.not_gt
  · exact absurd later same.not_gt
  · exact le_antisymm others ids

/-- Keeping the newest rows does not change which are the newest. -/
theorem newestAsText_kept {limit : ℕ} {rows : List ρ} (distinct : (rows.map id).Nodup) :
    newestAsText text id limit (rows.filter fun row => ((newestAsText text id limit rows).map id).contains (id row)) =
      newestAsText text id limit rows := by
  have total : Std.Total fun left right : ρ => (comesFirstAsText text id left right : Prop) := ⟨comesFirstAsText_total⟩
  have trans : IsTrans ρ fun left right => comesFirstAsText text id left right := ⟨fun _ _ _ => comesFirstAsText_trans⟩
  exact take_insertionSort_kept distinct limit fun _ _ => id_eq_of_comesFirstAsText

namespace Chrono

/-- Up to the year 9999 the texts of instants are ordered as the instants are. -/
theorem toRfc3339_lt_iff {left right : Instant} (leftEarly : left < Rfc3339.YEAR_10000)
    (rightEarly : right < Rfc3339.YEAR_10000) : chrono.toRfc3339 left < chrono.toRfc3339 right ↔ left < right := by
  rw [chrono.rfc3339 left leftEarly, chrono.rfc3339 right rightEarly]
  exact Rfc3339.toRfc3339_lt_iff leftEarly rightEarly

theorem toRfc3339_inj {left right : Instant} (leftEarly : left < Rfc3339.YEAR_10000)
    (rightEarly : right < Rfc3339.YEAR_10000) : chrono.toRfc3339 left = chrono.toRfc3339 right ↔ left = right := by
  refine ⟨fun same => ?_, congrArg _⟩
  by_contra apart
  rcases lt_or_gt_of_ne apart with before | after
  · have texts : chrono.toRfc3339 left < chrono.toRfc3339 right := (toRfc3339_lt_iff leftEarly rightEarly).mpr before
    exact absurd texts (same ▸ lt_irrefl _)
  · have texts : chrono.toRfc3339 right < chrono.toRfc3339 left := (toRfc3339_lt_iff rightEarly leftEarly).mpr after
    exact absurd texts (same ▸ lt_irrefl _)

end Chrono

/-- Up to the year 9999 the newest rows by their texts are the newest rows. -/
theorem newestAsText_eq {stamp : ρ → Instant} {limit : ℕ} {rows : List ρ}
    (dated : ∀ row ∈ rows, stamp row < Rfc3339.YEAR_10000) :
    newestAsText (chrono.toRfc3339 ∘ stamp) id limit rows = newest stamp id limit rows := by
  have sorted := List.map_insertionSort
    (fun left right => (comesFirstAsText (chrono.toRfc3339 ∘ stamp) id left right : Prop))
    (fun left right => (comesFirst stamp id left right : Prop)) (fun row => row) rows
    fun left leftMem right rightMem => by
      simp only [comesFirstAsText, comesFirst, Function.comp_apply,
        Chrono.toRfc3339_lt_iff (dated right rightMem) (dated left leftMem),
        Chrono.toRfc3339_inj (dated right rightMem) (dated left leftMem)]
  rw [List.map_id', List.map_id'] at sorted
  rw [newestAsText, newest, sorted]

end Texts

namespace Db

/-- The rows that the trims and the reading of messages order were created before the year 10000. -/
structure Dated (db : Db) : Prop where
  messages : ∀ row ∈ db.messages, row.createdAt < Rfc3339.YEAR_10000
  runs : ∀ row ∈ db.runs, row.createdAt < Rfc3339.YEAR_10000

variable {chrono : Chrono} {db : Db} {roomId : String}

theorem Dated.trimRuns_eq (dated : db.Dated) : trimRunsAsText chrono roomId db = trimRuns roomId db := by
  rw [trimRunsAsText, trimRuns, newestAsText_eq fun row member => dated.runs row (Table.mem_select.mp member).1]

theorem Dated.trimMessages_eq (dated : db.Dated) :
    trimMessagesAsText chrono roomId db = trimMessages roomId db := by
  rw [trimMessagesAsText, trimMessages,
    newestAsText_eq fun row member => dated.messages row (Table.mem_select.mp member).1]

theorem Dated.trimRuns (dated : db.Dated) (roomId : String) : (trimRuns roomId db).1.Dated :=
  ⟨dated.messages, fun row member => dated.runs row (Table.mem_delete.mp member).1⟩

end Db

namespace RoomStore

variable {chrono : Chrono} {store : RoomStore} {draws : Draws} {source db : Db} {roomId : String}

theorem loadMessages_eq_filterMap : store.loadMessages db roomId =
    (newest MessageRow.createdAt MessageRow.id Limits.MAX_HISTORY_MESSAGES
      (db.messages.select (·.roomId == roomId))).reverse.filterMap store.shownMessage := by
  rw [loadMessages]
  refine List.filterMap_congr fun row _ => ?_
  simp only [shownMessage]
  split <;> simp only [*] <;> rfl

theorem loadMessagesAsText_eq_filterMap : store.loadMessagesAsText chrono db roomId =
    (newestAsText (chrono.toRfc3339 ∘ MessageRow.createdAt) MessageRow.id Limits.MAX_HISTORY_MESSAGES
      (db.messages.select (·.roomId == roomId))).reverse.filterMap store.shownMessage := by
  rw [loadMessagesAsText]
  refine List.filterMap_congr fun row _ => ?_
  simp only [shownMessage]
  split <;> simp only [*] <;> rfl

theorem loadMessagesAsText_eq (dated : db.Dated) :
    store.loadMessagesAsText chrono db roomId = store.loadMessages db roomId := by
  rw [loadMessagesAsText_eq_filterMap, loadMessages_eq_filterMap,
    newestAsText_eq fun row member => dated.messages row (Table.mem_select.mp member).1]

theorem currentRowAsText_eq (dated : db.Dated) : currentRowAsText chrono db roomId = currentRow db roomId := by
  rw [currentRowAsText, currentRow, newestAsText_eq fun row member => dated.runs row (Table.mem_select.mp member).1]

/-- The two trims never change which messages a snapshot shows. -/
theorem loadMessagesAsText_trimmed (trimmed : String) :
    store.loadMessagesAsText chrono
        (Db.trimMessagesAsText chrono trimmed (Db.trimRunsAsText chrono trimmed db).1).1 roomId =
      store.loadMessagesAsText chrono db roomId := by
  have distinct : ((db.messages.select (·.roomId == roomId)).map MessageRow.id).Nodup :=
    db.messages.keys_nodup.sublist (List.filter_sublist.map _)
  have newest : newestAsText (chrono.toRfc3339 ∘ MessageRow.createdAt) MessageRow.id Limits.MAX_HISTORY_MESSAGES
      ((Db.trimMessagesAsText chrono trimmed (Db.trimRunsAsText chrono trimmed db).1).1.messages.select
        (·.roomId == roomId)) =
        newestAsText (chrono.toRfc3339 ∘ MessageRow.createdAt) MessageRow.id Limits.MAX_HISTORY_MESSAGES
          (db.messages.select (·.roomId == roomId)) := by
    by_cases same : roomId = trimmed
    · subst same
      simp only [Db.trimMessagesAsText, Db.trimRunsAsText, Table.select_delete_and]
      exact newestAsText_kept distinct
    · simp only [Db.trimMessagesAsText, Db.trimRunsAsText]
      rw [Table.select_delete_of_apart]
      intro row deleted
      simp only [Bool.and_eq_true, beq_iff_eq] at deleted
      exact beq_eq_false_iff_ne.mpr fun here => same (here.symm.trans deleted.1)
  rw [loadMessagesAsText_eq_filterMap, loadMessagesAsText_eq_filterMap, newest]

/-- What the statements before the trims leave has the timestamps of before, and the reading of the clock. -/
theorem recordTerminal_dated (dated : source.Dated) (now : draws.now 0 < Rfc3339.YEAR_10000) {run : RunRow}
    {terminal : RunTerminal} {target : Db} {result : Unit}
    (recorded : store.recordTerminal draws.env roomId run terminal source = .ok result target) : target.Dated := by
  obtain ⟨answered, message, answer, rfl⟩ := recordTerminal_ok recorded
  have messages : ∀ row ∈ answered.messages, row.createdAt < Rfc3339.YEAR_10000 := by
    rcases answer with rfl | ⟨-, cell, inserted⟩
    · exact dated.messages
    · obtain ⟨-, _, added, rfl⟩ := Db.insertMessage_eq_some_iff.mp inserted
      intro row member
      rcases (Table.mem_of_insert? added).mp member with old | rfl
      · exact dated.messages row old
      · exact now
  have runs : answered.runs = source.runs := by
    rcases answer with rfl | ⟨-, cell, inserted⟩
    · rfl
    · obtain ⟨-, _, -, rfl⟩ := Db.insertMessage_eq_some_iff.mp inserted
      rfl
  refine ⟨messages, fun row member => ?_⟩
  obtain ⟨old, held, rfl⟩ := List.mem_map.mp member
  split
  · exact dated.runs old (runs ▸ held)
  · exact dated.runs old (runs ▸ held)

theorem trimHistoryAsText_eq {env : Env} (dated : source.Dated) :
    trimHistoryAsText chrono env roomId source = trimHistory env roomId source := by
  rw [trimHistoryAsText, trimHistory, bind_congr_of_eq (Env.execute_congr dated.trimRuns_eq)]
  refine bind_congr_of_ok fun _ middle trimmed => ?_
  obtain ⟨-, -, rfl⟩ := Env.execute_ok_iff.mp trimmed
  exact bind_congr_of_eq (Env.execute_congr (dated.trimRuns roomId).trimMessages_eq)

/-- Up to the year 9999 `finish_run` does the same whether its trims order rows by their texts or their instants. -/
theorem settleRunAsText_eq (dated : source.Dated) (now : draws.now 0 < Rfc3339.YEAR_10000) (runId : String)
    (terminal : RunTerminal) :
    store.settleRunAsText chrono draws.env roomId runId terminal source =
      store.settleRun draws.env roomId runId terminal source := by
  refine bind_congr_of_ok fun id middle valid => ?_
  obtain ⟨-, rfl⟩ := returnExcept_ok_iff.mp valid
  refine transaction_congr (bind_congr_of_ok fun _ middle begun => ?_)
  obtain rfl := attempt_ok_iff.mp begun
  refine bind_congr_of_ok fun found middle queried => ?_
  obtain ⟨-, rfl⟩ := query_ok_iff.mp queried
  refine bind_congr_of_ok fun run middle isFound => ?_
  obtain ⟨-, rfl⟩ := orFail_ok_iff.mp isFound
  split
  · refine bind_congr_of_ok fun _ middle recorded => ?_
    refine bind_congr_of_eq (trimHistoryAsText_eq (recordTerminal_dated dated now recorded))
  · rfl

end RoomStore

/-- The messages that a history inserted into a room, in the order of their insertion. -/
def inserted (crates : Crates) (past : List Event) (roomId : String) : List MessageRow :=
  ((storeMachine crates).collect (fun source target => source.messages.added target.messages) .empty past).filter
    (·.roomId == roomId)

/-- The clock readings of successive calls increase. -/
def Ticking (past : List Event) : Prop := (past.map fun event => event.draws.now 0).Pairwise (· < ·)

namespace Db

variable {now : Instant} {source target : Db} {roomId : String}

/-- What a call does to the messages: it inserts one at most, at its reading of the clock, and trims one room at
most. -/
def MessageStep (now : Instant) (source target : Db) : Prop :=
  ∃ (new : Option MessageRow) (middle : Db),
    (∀ row ∈ new, row.createdAt = now ∧ ∀ other ∈ source.messages, other.id ≠ row.id) ∧
    middle.messages.rows = source.messages.rows ++ new.toList ∧
    (target.messages = middle.messages ∨ ∃ roomId, target.messages = (trimMessages roomId middle).1.messages)

namespace MessageStep

theorem kept (same : target.messages = source.messages) : source.MessageStep now target :=
  ⟨none, source, nofun, (List.append_nil _).symm, Or.inl same⟩

theorem trimmed (same : target.messages = (trimMessages roomId source).1.messages) : source.MessageStep now target :=
  ⟨none, source, nofun, (List.append_nil _).symm, Or.inr ⟨roomId, same⟩⟩

theorem added {row : MessageRow} {middle : Db} (inserted : source.insertMessage row = some middle)
    (stamped : row.createdAt = now)
    (trims : target.messages = middle.messages ∨ ∃ roomId, target.messages = (trimMessages roomId middle).1.messages) :
    source.MessageStep now target := by
  obtain ⟨-, messages, added, rfl⟩ := insertMessage_eq_some_iff.mp inserted
  obtain ⟨fresh, rows⟩ := Table.insert?_eq_some_iff.mp added
  refine ⟨some row, { source with messages }, fun other member => ?_, rows, trims⟩
  obtain rfl := Option.some.inj member
  exact ⟨stamped, fresh⟩

/-- Only the message that a call inserts is new, and it has the reading of its clock. -/
theorem createdAt (step : source.MessageStep now target) {row : MessageRow} (member : row ∈ target.messages) :
    row ∈ source.messages ∨ row.createdAt = now := by
  obtain ⟨new, middle, stamped, rows, trims⟩ := step
  have there : row ∈ middle.messages.rows := by
    rcases trims with same | ⟨roomId, trimmed⟩
    · exact same ▸ member
    · exact (Table.mem_delete.mp (trimmed ▸ member)).1
  rw [rows, List.mem_append, Option.mem_toList] at there
  exact there.imp_right fun isNew => (stamped row isNew).1

/-- What a call leaves of the messages of a room: those of before and the new one, without some of the first, where
their times increase. -/
theorem select (step : source.MessageStep now target)
    (increasing : ((source.messages.select (·.roomId == roomId)).map MessageRow.createdAt).Pairwise (· < ·))
    (older : ∀ row ∈ source.messages, row.roomId = roomId → row.createdAt < now) :
    ∃ (new : Option MessageRow) (dropped : ℕ),
      (∀ row ∈ new, row.createdAt = now ∧ row.roomId = roomId ∧ ∀ other ∈ source.messages, other.id ≠ row.id) ∧
      dropped ≤ (source.messages.select (·.roomId == roomId) ++ new.toList).length - Limits.MAX_HISTORY_MESSAGES ∧
      target.messages.select (·.roomId == roomId) =
        (source.messages.select (·.roomId == roomId) ++ new.toList).drop dropped := by
  obtain ⟨new, middle, stamped, rows, trims⟩ := step
  have middleRows : middle.messages.select (·.roomId == roomId) =
      source.messages.select (·.roomId == roomId) ++ (new.filter (·.roomId == roomId)).toList := by
    rw [Table.select, rows, List.filter_append, Table.select, Option.toList_filter]
  have here (row : MessageRow) (member : row ∈ new.filter (·.roomId == roomId)) :
      row.createdAt = now ∧ row.roomId = roomId ∧ ∀ other ∈ source.messages, other.id ≠ row.id := by
    obtain ⟨isNew, inRoom⟩ := Option.mem_filter_iff.mp member
    exact ⟨(stamped row isNew).1, eq_of_beq inRoom, (stamped row isNew).2⟩
  have grows : ((middle.messages.select (·.roomId == roomId)).map MessageRow.createdAt).Pairwise (· < ·) := by
    rw [middleRows]
    cases isNew : new.filter (·.roomId == roomId) with
    | none => simpa using increasing
    | some row =>
      rw [Option.toList_some, List.map_append, List.map_singleton, List.pairwise_append]
      refine ⟨increasing, List.pairwise_singleton _ _, ?_⟩
      simp only [List.mem_map, List.mem_singleton]
      rintro _ ⟨old, held, rfl⟩ _ rfl
      obtain ⟨held, inRoom⟩ := Table.mem_select.mp held
      rw [(here row isNew).1]
      exact older old held (eq_of_beq inRoom)
  refine ⟨new.filter (·.roomId == roomId), ?_⟩
  rw [← middleRows]
  by_cases trimmed : target.messages = (trimMessages roomId middle).1.messages
  · refine ⟨(middle.messages.select (·.roomId == roomId)).length - Limits.MAX_HISTORY_MESSAGES, here, le_rfl, ?_⟩
    have distinct : ((middle.messages.select (·.roomId == roomId)).map MessageRow.id).Nodup :=
      middle.messages.keys_nodup.sublist (List.filter_sublist.map _)
    rw [trimmed, trimMessages, Table.select_delete_and]
    exact filter_newest_of_increasing grows distinct
  · refine ⟨0, here, Nat.zero_le _, ?_⟩
    rw [List.drop_zero]
    rcases trims with same | ⟨other, same⟩
    · rw [same]
    · rw [same, trimMessages, Table.select_delete_of_apart]
      intro row deleted
      rw [Bool.and_eq_true, beq_iff_eq] at deleted
      refine beq_eq_false_iff_ne.mpr fun inRoom => trimmed ?_
      rw [same, ← deleted.1, inRoom]

end MessageStep

/-- What a call does to the messages, and the times of the runs that it leaves. -/
structure Stamps (now : Instant) (source target : Db) : Prop where
  messages : source.MessageStep now target
  runs : ∀ row ∈ target.runs, (∃ old ∈ source.runs, old.createdAt = row.createdAt) ∨ row.createdAt = now

theorem Stamps.of_ends (messages : source.MessageStep now target) (step : source.TurnStep target)
    (ends : source.OnlyEnds target) : source.Stamps now target := by
  refine ⟨messages, fun row member => Or.inl ?_⟩
  rcases step.origin member with ⟨old, held, same⟩ | ⟨fresh, -⟩
  · exact ⟨old, held, RunRow.created_of_turn same⟩
  · obtain ⟨old, held, becomes⟩ := ends row member
    exact absurd becomes.id.symm (fresh old held)

end Db

namespace Event

variable {crates : Crates} {event : Event} {source target : Db}

/-- Every call stamps the message and the run that it inserts with its reading of the clock. -/
theorem stamps (rooted : source.Rooted) (step : (storeMachine crates).step? source event = some target) :
    source.Stamps (event.draws.now 0) target := by
  have turnStep := (Event.change step).turnStep
  have exec := step_iff.mp step
  rw [Call.exec] at exec
  split at exec
  · obtain rfl : source = target := congrArg Prod.snd exec
    exact .of_ends (.kept rfl) turnStep (.of_eq rfl)
  obtain ⟨⟨sealing, draws, fails, op⟩, reply⟩ := event
  cases op with
  | createRoom | exchangeInvite | issueInvite | revokeInvite | closeRoom =>
    obtain ⟨runs, messages⟩ := Op.sameTurns rfl exec
    exact .of_ends (.kept messages) turnStep (.of_eq runs)
  | appendUserTurn session input =>
    rcases Op.appendUserTurn_cases exec with rfl | ⟨key, text, turn, made⟩
    · exact .of_ends (.kept rfl) turnStep (.of_eq rfl)
    · obtain ⟨messageText, inputText, partialText, messaged, ran, -, -, first, second, rfl⟩ :=
        RoomStore.insertTurn_ok made
      obtain ⟨-, runs, added, rfl⟩ := Db.insertRun_eq_some_iff.mp second
      refine ⟨.added first rfl (Or.inl rfl), fun row member => ?_⟩
      rcases (Table.mem_of_insert? added).mp member with old | rfl
      · obtain ⟨-, messages, -, rfl⟩ := Db.insertMessage_eq_some_iff.mp first
        exact Or.inl ⟨row, old, rfl⟩
      · exact Or.inr rfl
  | appendDelta roomId runId delta =>
    rcases Op.appendDelta_cases exec with ⟨-, rfl⟩ | ⟨-, appended⟩
    · exact .of_ends (.kept rfl) turnStep (.of_eq rfl)
    · obtain ⟨-, cell, rfl⟩ := RoomStore.appendDelta_ok appended
      exact .of_ends (.kept rfl) turnStep .extended
  | finishRun roomId runId terminal ends =>
    rcases Op.finishRun_cases rooted exec with ⟨-, rfl⟩ | ⟨-, settled⟩
    · exact .of_ends (.kept rfl) turnStep (.of_eq rfl)
    · have ended : terminal.status.isActive = false := by rcases ends with same | same <;> rw [same] <;> rfl
      obtain ⟨id, -, run, member, ⟨named, owned⟩, ⟨-, rfl⟩ | ⟨active, answered, message, answer, rfl⟩⟩ :=
        RoomStore.settleRun_ok settled
      · exact .of_ends (.kept rfl) turnStep (.of_eq rfl)
      · have settles : answered.runs = source.runs := by
          rcases answer with rfl | ⟨-, cell, inserted⟩
          · rfl
          · obtain ⟨-, _, -, rfl⟩ := Db.insertMessage_eq_some_iff.mp inserted
            rfl
        refine .of_ends ?_ turnStep (Db.OnlyCarries.settled ended settles ⟨run, member, named, active⟩).onlyEnds
        rcases answer with rfl | ⟨-, cell, inserted⟩
        · exact .trimmed rfl
        · exact .added inserted rfl (Or.inr ⟨id, rfl⟩)
  | stopRun roomId runId =>
    obtain ⟨carries, messages⟩ := Op.stopRun_carries exec
    exact .of_ends (.kept messages) turnStep carries.onlyEnds
  | recoverRunning =>
    obtain ⟨carries, messages⟩ := Op.recoverRunning_carries exec
    exact .of_ends (.kept messages) turnStep carries.onlyEnds

end Event

namespace Db

variable {past : List Event} {log : List MessageRow} {source target : Db} {roomId : String} {event : Event}

/-- The tables hold the last of a list of messages, at least as many as a snapshot shows; their times increase, and
are readings of the clock. -/
structure Retains (past : List Event) (log : List MessageRow) (db : Db) (roomId : String) : Prop where
  last : ∃ dropped ≤ log.length - Limits.MAX_HISTORY_MESSAGES,
    db.messages.select (·.roomId == roomId) = log.drop dropped
  increasing : (log.map MessageRow.createdAt).Pairwise (· < ·)
  read : ∀ row ∈ log, ∃ event ∈ past, row.createdAt = event.draws.now 0

namespace Retains

theorem empty : Db.empty.Retains [] [] roomId := ⟨⟨0, le_rfl, rfl⟩, .nil, nofun⟩

/-- What the tables hold of the list follows every call that is later than those before. -/
theorem step (retains : source.Retains past log roomId) (step : source.MessageStep (event.draws.now 0) target)
    (later : ∀ earlier ∈ past, earlier.draws.now 0 < event.draws.now 0) :
    target.Retains (past ++ [event]) (log ++ (source.messages.added target.messages).filter (·.roomId == roomId))
      roomId := by
  obtain ⟨dropped, few, held⟩ := retains.last
  have older (row : MessageRow) (member : row ∈ log) : row.createdAt < event.draws.now 0 := by
    obtain ⟨earlier, there, same⟩ := retains.read row member
    exact same ▸ later earlier there
  obtain ⟨new, more, stamped, limited, left⟩ := @MessageStep.select _ _ _ roomId step
    (held ▸ retains.increasing.sublist ((List.drop_sublist _ _).map _)) fun row member inRoom => older row <| by
      have there : row ∈ source.messages.select (·.roomId == roomId) :=
        Table.mem_select.mpr ⟨member, beq_iff_eq.mpr inRoom⟩
      exact List.mem_of_mem_drop (held ▸ there)
  have single : new.toList.length ≤ 1 := by cases new <;> simp
  -- the new message is one of the last, so that no trim takes it
  have added : (source.messages.added target.messages).filter (·.roomId == roomId) = new.toList := by
    have kept : (source.messages.select (·.roomId == roomId) ++ new.toList).drop more =
        (source.messages.select (·.roomId == roomId)).drop more ++ new.toList := by
      rw [List.length_append] at limited
      refine List.drop_append_of_le_length (limited.trans ?_)
      have many : 1 ≤ Limits.MAX_HISTORY_MESSAGES := by decide
      omega
    have swapped : (source.messages.added target.messages).filter (·.roomId == roomId) =
        (target.messages.select (·.roomId == roomId)).filter fun row =>
          decide (row.id ∉ source.messages.rows.map MessageRow.id) := by
      rw [Table.added, Table.select, List.filter_filter, List.filter_filter]
      exact List.filter_congr fun row _ => Bool.and_comm _ _
    rw [swapped, left, kept, List.filter_append, List.filter_eq_nil_iff.mpr, List.filter_eq_self.mpr, List.nil_append]
    · intro row member
      obtain ⟨-, -, fresh⟩ := stamped row (Option.mem_toList.mp member)
      simp only [decide_eq_true_eq, List.mem_map, not_exists, not_and]
      exact fresh
    · intro row member
      simp only [decide_eq_true_eq, not_not]
      exact List.mem_map_of_mem (Table.mem_select.mp (List.mem_of_mem_drop member)).1
  rw [added]
  refine ⟨⟨dropped + more, ?_, ?_⟩, ?_, fun row member => ?_⟩
  · rw [held, List.length_append, List.length_drop] at limited
    rw [List.length_append]
    omega
  · rw [left, held, ← List.drop_drop, ← List.drop_append_of_le_length (few.trans (Nat.sub_le _ _))]
  · rw [List.map_append, List.pairwise_append]
    refine ⟨retains.increasing, ?_, ?_⟩
    · cases new with
      | none => exact .nil
      | some row => exact List.pairwise_singleton _ _
    · simp only [List.mem_map, Option.mem_toList]
      rintro _ ⟨old, there, rfl⟩ _ ⟨row, isNew, rfl⟩
      exact (stamped row isNew).1 ▸ older old there
  · rcases List.mem_append.mp member with old | isNew
    · obtain ⟨earlier, there, same⟩ := retains.read row old
      exact ⟨earlier, List.mem_append_left _ there, same⟩
    · exact ⟨event, List.mem_append_right _ (List.mem_singleton.mpr rfl), (stamped row (Option.mem_toList.mp isNew)).1⟩

end Retains

end Db

section Histories

variable {crates : Crates} {past : List Event} {source target db : Db} {event : Event} {roomId : String}

theorem inserted_snoc (run : (storeMachine crates).Run past source)
    (step : (storeMachine crates).step? source event = some target) : inserted crates (past ++ [event]) roomId =
      inserted crates past roomId ++ (source.messages.added target.messages).filter (·.roomId == roomId) := by
  obtain ⟨_, rfl, path⟩ := run
  rw [inserted, Machine.collect_snoc path step, List.filter_append, inserted]

/-- In every history whose clock readings increase, the tables hold the last of the messages ever inserted. -/
theorem retains_of_run (run : (storeMachine crates).Run past db) (ticking : Ticking past) :
    db.Retains past (inserted crates past roomId) roomId := by
  refine run.history (fun past db => Ticking past → db.Retains past (inserted crates past roomId) roomId) ?_ ?_ ticking
  · rintro _ rfl -
    exact .empty
  · intro past source event target before held step ticking
    rw [Ticking, List.map_append, List.pairwise_append] at ticking
    rw [inserted_snoc before step]
    refine (held ticking.1).step (Event.stamps (.of_history before) step).messages fun earlier member => ?_
    exact ticking.2.2 _ (List.mem_map_of_mem member) _ (List.mem_singleton.mpr rfl)

/-- In every history before the year 10000, so are the rows that its tables hold. -/
theorem dated_of_run (run : (storeMachine crates).Run past db)
    (early : ∀ event ∈ past, event.draws.now 0 < Rfc3339.YEAR_10000) : db.Dated := by
  refine run.history (fun past db => (∀ event ∈ past, event.draws.now 0 < Rfc3339.YEAR_10000) → db.Dated) ?_ ?_ early
  · rintro _ rfl -
    exact ⟨fun row member => absurd member (Table.not_mem_empty row),
      fun row member => absurd member (Table.not_mem_empty row)⟩
  · intro past source event target before held step early
    have dated := held fun earlier member => early earlier (List.mem_append_left _ member)
    have now := early event (List.mem_append_right _ (List.mem_singleton.mpr rfl))
    obtain ⟨messages, runs⟩ := Event.stamps (.of_history before) step
    refine ⟨fun row member => ?_, fun row member => ?_⟩
    · rcases messages.createdAt member with old | same
      · exact dated.messages row old
      · exact same ▸ now
    · rcases runs row member with ⟨old, there, same⟩ | same
      · exact same ▸ dated.runs old there
      · exact same ▸ now

/-- In every history before the year 10000 whose clock readings increase, a snapshot shows the last of the messages
ever inserted into the room, in the order of their insertion; its statements order texts as they order instants,
and a trim never changes what a snapshot shows. -/
theorem snapshot_shows_last (chrono : Chrono) (run : (storeMachine crates).Run past db) (ticking : Ticking past)
    (early : ∀ event ∈ past, event.draws.now 0 < Rfc3339.YEAR_10000) :
    (∀ (store : RoomStore) (roomId : String) (snapshot : RoomSnapshot), store.snapshotFrom db roomId = some snapshot →
      (∀ row ∈ db.messages, row.roomId = roomId → ∃ text,
        store.sealing.openText row.text (ctx "room_messages" "text" row.id) = .ok text) →
      snapshot.messages = store.loadMessagesAsText chrono db roomId ∧
        snapshot.messages.map some =
          ((inserted crates past roomId).rtake Limits.MAX_HISTORY_MESSAGES).map store.shownMessage) ∧
    (∀ (store : RoomStore) (draws : Draws) (roomId runId : String) (terminal : RunTerminal),
      draws.now 0 < Rfc3339.YEAR_10000 → store.settleRunAsText chrono draws.env roomId runId terminal db =
        store.settleRun draws.env roomId runId terminal db) ∧
    ∀ (store : RoomStore) (trimmed roomId : String) (tables : Db),
      store.loadMessagesAsText chrono
          (Db.trimMessagesAsText chrono trimmed (Db.trimRunsAsText chrono trimmed tables).1).1 roomId =
        store.loadMessagesAsText chrono tables roomId := by
  have dated := dated_of_run run early
  refine ⟨fun store roomId snapshot shown opens => ?_,
    fun store draws roomId runId terminal now => RoomStore.settleRunAsText_eq dated now runId terminal,
    fun store trimmed roomId tables => RoomStore.loadMessagesAsText_trimmed trimmed⟩
  obtain ⟨room, -, rfl⟩ := Option.map_eq_some_iff.mp shown
  refine ⟨(RoomStore.loadMessagesAsText_eq dated).symm, ?_⟩
  have retains := @retains_of_run _ _ _ roomId run ticking
  obtain ⟨dropped, few, held⟩ := retains.last
  have last : (newest MessageRow.createdAt MessageRow.id Limits.MAX_HISTORY_MESSAGES
      (db.messages.select (·.roomId == roomId))).reverse =
        (inserted crates past roomId).rtake Limits.MAX_HISTORY_MESSAGES := by
    rw [newest_of_increasing (held ▸ retains.increasing.sublist ((List.drop_sublist _ _).map _)),
      ← List.rtake_eq_reverse_take_reverse, held, List.rtake, List.rtake, List.drop_drop, List.length_drop]
    congr 1
    omega
  change (store.loadMessages db roomId).map some = _
  rw [RoomStore.loadMessages_eq_filterMap, last, List.map_filterMap_some_eq_filter_map_isSome, List.filter_eq_self]
  intro shown member
  obtain ⟨row, there, rfl⟩ := List.mem_map.mp member
  rw [← last] at there
  obtain ⟨held, inRoom⟩ := Table.mem_select.mp (mem_of_mem_newest (List.mem_reverse.mp there))
  obtain ⟨text, opened⟩ := opens row held (eq_of_beq inRoom)
  rw [RoomStore.shownMessage, opened]
  rfl

end Histories

namespace Sample

/-- `chrono` with the sign that it writes before a later year. -/
def chrono : Chrono := ⟨Rfc3339.toRfc3339, fun _ _ => rfl⟩

/-- The last turn of the year 9999 is stopped, and another one begins the next year. -/
def newYear : List Call :=
  [⟨.compat, draws 1 (Rfc3339.YEAR_10000 - 30), false, .createRoom ⟨"llama", origin⟩⟩,
    ⟨.compat, draws 11 (Rfc3339.YEAR_10000 - 20), false, .appendUserTurn host ⟨"hello", none⟩⟩,
    ⟨.compat, draws 21 (Rfc3339.YEAR_10000 - 10), false,
      .stopRun (opaqueId "room_" (.ofNat 1)) (opaqueId "run_" (.ofNat 12))⟩,
    ⟨.compat, draws 31 Rfc3339.YEAR_10000, false, .appendUserTurn host ⟨"again", none⟩⟩]

end Sample

/-- A snapshot shows the turn and its answer. -/
theorem snapshot_shows_last_conversation :
    ∃ past db snapshot, (storeMachine Sample.crates).Run past db ∧
      Sample.store.snapshotFrom db Sample.host.roomId = some snapshot ∧
      snapshot.messages.map some = ((inserted Sample.crates past Sample.host.roomId).rtake
        Limits.MAX_HISTORY_MESSAGES).map Sample.store.shownMessage ∧
      snapshot.messages.map (·.text) = ["hello", "Hi Ada"] := by
  set past := (history Sample.crates Sample.conversation .empty).1 with isPast
  set db := (history Sample.crates Sample.conversation .empty).2 with isDb
  have run : (storeMachine Sample.crates).Run past db := run_history Sample.crates Sample.conversation
  have checked : Ticking past ∧ (past.all fun event => decide (event.draws.now 0 < Rfc3339.YEAR_10000)) ∧
      (db.messages.rows.all fun row => (Sample.store.sealing.openText row.text
        (ctx "room_messages" "text" row.id)).isOk) ∧
      (Sample.store.snapshotFrom db Sample.host.roomId).map (fun snapshot => snapshot.messages.map (·.text)) =
        some ["hello", "Hi Ada"] := by
    unfold Ticking
    decide +kernel
  obtain ⟨ticking, early, opens, texts⟩ := checked
  obtain ⟨snapshot, shown, isTexts⟩ := Option.map_eq_some_iff.mp texts
  obtain ⟨last, -⟩ := snapshot_shows_last Sample.chrono run ticking fun event member =>
    of_decide_eq_true (List.all_eq_true.mp early event member)
  exact ⟨past, db, snapshot, run, shown, (last Sample.store _ snapshot shown fun row member _ =>
    isOk_iff.mp (List.all_eq_true.mp opens row member)).2, isTexts⟩

/-- In the year 10000 a snapshot shows the newer of two messages first, whose timestamp begins with a sign. -/
theorem not_snapshot_shows_last_newYear : ¬ ∀ (crates : Crates) (past : List Event) (db : Db) (chrono : Chrono)
    (store : RoomStore) (roomId : String), (storeMachine crates).Run past db → Ticking past →
      (∀ row ∈ db.messages, row.roomId = roomId → ∃ text,
        store.sealing.openText row.text (ctx "room_messages" "text" row.id) = .ok text) →
      (store.loadMessagesAsText chrono db roomId).map some =
        ((inserted crates past roomId).rtake Limits.MAX_HISTORY_MESSAGES).map store.shownMessage := by
  intro shows
  set past := (history Sample.crates Sample.newYear .empty).1 with isPast
  set db := (history Sample.crates Sample.newYear .empty).2 with isDb
  have checked : Ticking past ∧ (db.messages.rows.all fun row => (Sample.store.sealing.openText row.text
        (ctx "room_messages" "text" row.id)).isOk) ∧
      (Sample.store.loadMessagesAsText Sample.chrono db Sample.host.roomId).map (fun message => some message.text) ≠
        ((inserted Sample.crates past Sample.host.roomId).rtake Limits.MAX_HISTORY_MESSAGES).map fun row =>
          (Sample.store.shownMessage row).map (·.text) := by
    unfold Ticking
    decide +kernel
  obtain ⟨ticking, opens, different⟩ := checked
  have last := shows _ past db Sample.chrono Sample.store Sample.host.roomId
    (run_history Sample.crates Sample.newYear) ticking fun row member _ =>
      isOk_iff.mp (List.all_eq_true.mp opens row member)
  have texts := congrArg (List.map (Option.map RoomMessage.text)) last
  rw [List.map_map, List.map_map] at texts
  exact different texts

end RyuRooms
