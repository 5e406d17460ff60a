import RyuRooms.Foundation.Rfc3339
import RyuRooms.Model.RoomStore

/-! # Timestamps as the columns hold them

The column `created_at` holds the text that `to_rfc3339` gives an instant, and the statements that order rows
order them by it: those of a snapshot and the two trims. They are written here once more as SQLite runs them, on
the texts. The crate `chrono` is a parameter that writes RFC 3339, which knows the years up to 9999.
-/

namespace RyuRooms

open Foundation

/-- The crate `chrono`, as far as the store writes timestamps with it. -/
structure Chrono where
  toRfc3339 : Instant → String
  rfc3339 : ∀ instant < Rfc3339.YEAR_10000, toRfc3339 instant = Rfc3339.toRfc3339 instant

section Order

variable {ρ : Type*} (text id : ρ → String)

/-- `left` comes before `right` in the order `text DESC, id DESC`. -/
def comesFirstAsText (left right : ρ) : Bool :=
  decide (text right < text left) || (decide (text right = text left) && decide (id right ≤ id left))

/-- `ORDER BY text DESC, id DESC LIMIT limit`. -/
def newestAsText (limit : ℕ) (rows : List ρ) : List ρ :=
  (rows.insertionSort fun left right => comesFirstAsText text id left right).take limit

end Order

namespace Db

variable (chrono : Chrono) (roomId : String) (db : Db)

/-- The statement of `trim_runs`, on texts. -/
def trimRunsAsText : Db × ℕ :=
  let kept := (newestAsText (chrono.toRfc3339 ∘ RunRow.createdAt) RunRow.id Limits.MAX_RETAINED_RUNS
    (db.runs.select (·.roomId == roomId))).map RunRow.id
  let choose := fun run : RunRow => run.roomId == roomId && !kept.contains run.id
  ({ db with runs := db.runs.delete choose }, db.runs.count choose)

/-- The statement of `trim_messages`, on texts. -/
def trimMessagesAsText : Db × ℕ :=
  let kept := (newestAsText (chrono.toRfc3339 ∘ MessageRow.createdAt) MessageRow.id Limits.MAX_HISTORY_MESSAGES
    (db.messages.select (·.roomId == roomId))).map MessageRow.id
  let choose := fun message : MessageRow => message.roomId == roomId && !kept.contains message.id
  ({ db with messages := db.messages.delete choose }, db.messages.count choose)

end Db

namespace RoomStore

variable (chrono : Chrono) (store : RoomStore)

/-- `load_messages`, on texts. -/
def loadMessagesAsText (db : Db) (roomId : String) : List RoomMessage :=
  let rows := newestAsText (chrono.toRfc3339 ∘ MessageRow.createdAt) MessageRow.id Limits.MAX_HISTORY_MESSAGES
    (db.messages.select (·.roomId == roomId))
  rows.reverse.filterMap fun row =>
    match store.sealing.openText row.text (ctx "room_messages" "text" row.id) with
    | .ok text => some ⟨row.id, row.role, text, row.participantId, row.createdAt⟩
    | .error _ => none

/-- `load_participants`, on texts. -/
def loadParticipantsAsText (db : Db) (roomId : String) : List RoomParticipantSummary :=
  let rows := (newestAsText (chrono.toRfc3339 ∘ ParticipantRow.createdAt) ParticipantRow.id
    db.participants.rows.length (db.participants.select (·.roomId == roomId))).reverse
  rows.filterMap fun row =>
    match store.sealing.openText row.displayName (ctx "room_participants" "display_name" row.id) with
    | .ok displayName => some ⟨row.id, displayName, row.role, row.online⟩
    | .error _ => none

/-- The row of a snapshot's current run, on texts. -/
def currentRowAsText (db : Db) (roomId : String) : Option RunRow :=
  (newestAsText (chrono.toRfc3339 ∘ RunRow.createdAt) RunRow.id 1
    (db.runs.select fun run => run.roomId == roomId && run.status.isCurrent)).head?

/-- `snapshot_from_connection`, on texts. -/
def snapshotFromAsText (db : Db) (roomId : String) : Option RoomSnapshot :=
  (store.snapshotFrom db roomId).map fun snapshot =>
    { snapshot with
      messages := store.loadMessagesAsText chrono db roomId
      currentRun := (currentRowAsText chrono db roomId).map fun row => store.openRunOrBlank (rowToRun row)
      participants := store.loadParticipantsAsText chrono db roomId }

/-- `trim_runs` and `trim_messages`, on texts. -/
def trimHistoryAsText (env : Env) (roomId : String) : StoreM Unit := do
  let _ ← env.execute 8 (Db.trimRunsAsText chrono roomId)
  let _ ← env.execute 9 (Db.trimMessagesAsText chrono roomId)

/-- The first locked section of `finish_run`, with its trims on texts. -/
def settleRunAsText (env : Env) (roomId runId : String) (terminal : RunTerminal) : StoreM Unit := do
  let roomId ← returnExcept (validateRoomId roomId)
  transaction do
    env.attempt 0
    let found ← env.query 1 fun db => db.runs.find? fun run => run.id == runId && run.roomId == roomId
    let run ← orFail found .notFound
    if run.status.isActive then
      store.recordTerminal env roomId run terminal
      trimHistoryAsText chrono env roomId
      env.attempt 10
    else env.attempt 10

end RoomStore

end RyuRooms
