import Mathlib.Data.List.AList
import RyuRooms.Foundation.Ends
import RyuRooms.Model.Content

/-! # Sealing what a store already holds

`content_sqlite.rs`: the migration that seals the values of the planned columns, the record of the key a
store is sealed under, and the compaction that rids the file of freed plaintext. Each planned column is
known by its rows in the order of their key. An `Environment` is what one call meets: at each point it can
stop, the nonces it draws, and what the disk and the clock answer. `Traces` is bookkeeping.
-/

namespace RyuRooms.Crypto

open Foundation

def BATCH_SIZE : ℕ := 500
def SCRUB_CHUNK_BYTES : ℕ := 64 * 1024 * 1024
def VACUUM_NOW_MAX_BYTES : ℕ := 256 * 1024 * 1024
def VACUUM_HEADROOM_BYTES : ℕ := 256 * 1024 * 1024
def VACUUM_RETRY_SECS : ℤ := 24 * 60 * 60
def CHECKPOINT_ATTEMPTS : ℕ := 3
def SUPPORTED_MIN_READER : ℤ := 2
def SCRUBBED_CURSOR : String := "scrubbed"

/-- A value of a cell; a REAL is known by its text. -/
inductive Value where
  | null
  | integer (n : ℤ)
  | real (shown : String)
  | text (text : String)
  | blob (bytes : Bytes)
deriving DecidableEq

/-- SQLite's order of the values that are keys. -/
def Value.before : Value → Value → Bool
  | .integer left, .integer right => left < right
  | .integer _, .text _ => true
  | .text left, .text right => (utf8 left).lex (utf8 right) fun one other => one < other
  | _, _ => false

inductive ColumnKind where
  | text
  | blob
deriving DecidableEq

inductive KeyKind where
  | text
  | integer
deriving DecidableEq

/-- `RowKey`. -/
structure RowKey where
  values : List (String × Value)

namespace RowKey

/-- `RowKey::text`. -/
def text (row : RowKey) (column : String) : String :=
  match row.values.find? (·.1 = column) with
  | some (_, .text text) => text
  | some (_, .integer n) => toString n
  | some (_, .real shown) => shown
  | _ => ""

/-- `RowKey::key`. -/
def key (row : RowKey) : String := (row.values.head?.map fun first => row.text first.1).getD ""

end RowKey

/-- `ColumnPlan`. -/
structure ColumnPlan where
  table : String
  column : String
  key : String
  keyKind : KeyKind
  kind : ColumnKind
  contextColumns : List String
  context : RowKey → ContentContext

/-- A row as a plan sees it: its key, the planned value, and the values of the context columns. -/
structure Row where
  key : Value
  value : Value
  extras : List Value
deriving DecidableEq

/-- The rows of a planned column in the order of their key. -/
structure Column where
  rows : List Row
  ordered : rows.Pairwise fun left right => left.key.before right.key

namespace ColumnPlan

variable (plan : ColumnPlan)

/-- `ColumnPlan::item`. -/
def item : String := plan.table ++ "." ++ plan.column

/-- `ColumnPlan::row_key`. -/
def rowKey (key : Value) (extras : List Value) : RowKey := ⟨(plan.key, key) :: plan.contextColumns.zip extras⟩

/-- `ColumnPlan::context_for`, of a row. -/
def contextFor (row : Row) : ContentContext := plan.context (plan.rowKey row.key row.extras)

/-- `ColumnPlan::cursor_value`. -/
def cursorValue (cursor : String) : Except String Value :=
  match plan.keyKind with
  | .text => .ok (.text cursor)
  | .integer =>
    match parseI64 cursor with
    | some n => .ok (.integer n)
    | none => .error ("corrupt migration cursor for " ++ plan.item)

end ColumnPlan

/-- The rows that `select_sql` finds after a cursor. -/
def Column.select (column : Column) (cursor : Option Value) : List Row :=
  (column.rows.filter fun row => cursor.all (·.before row.key)).take BATCH_SIZE

/-- The assignment of `UPDATE … SET column = ?1 WHERE key = ?2 AND column IS ?3`. -/
def Row.assign (key value sealed : Value) (row : Row) : Row :=
  if row.key = key ∧ row.value = value then { row with value := sealed } else row

/-- The update of a row of a batch, and how many rows it changed. -/
def Column.update (column : Column) (key value sealed : Value) : Column × ℕ :=
  (⟨column.rows.map (Row.assign key value sealed), by
    rw [List.pairwise_map]
    refine column.ordered.imp fun before => ?_
    simp only [Row.assign]
    split <;> split <;> exact before⟩,
  column.rows.countP fun row => row.key = key ∧ row.value = value)

/-- `MigrationReport`. -/
structure MigrationReport where
  sealed : ℕ := 0
  alreadySealed : ℕ := 0
  unreadable : ℕ := 0
  raced : ℕ := 0
  finishedItems : ℕ := 0
deriving DecidableEq

/-- `Outcome`. -/
inductive Outcome where
  | sealed (value : Value)
  | already
  | unreadable
deriving DecidableEq

/-- A cell of a TEXT column as text, if it is one. -/
def Value.asText : Value → Option String
  | .text shown => some shown
  | .integer n => some (toString n)
  | .real shown => some shown
  | .blob bytes => fromUtf8 bytes
  | .null => none

/-- A cell of a BLOB column as bytes. -/
def Value.asBytes : Value → Option Bytes
  | .blob bytes => some bytes
  | .text shown => some (utf8 shown)
  | .integer n => some (utf8 (toString n))
  | .real shown => some (utf8 shown)
  | .null => none

/-- `reseal_value`. -/
def resealValue (crates : Crates) (cipher : ContentCipher) (kind : ColumnKind) (stored : Value)
    (context : ContentContext) (nonce : Nonce) : Outcome :=
  if stored = .null then .already
  else
    match kind with
    | .text =>
      match stored.asText with
      | none => .unreadable
      | some text =>
        match cipher.openText crates text context with
        | .error _ => .unreadable
        | .ok opened =>
          if opened.needsReseal then
            let plain :=
              if startsWith text CONTENT_TEXT_PREFIX then opened.value
              else (stripPrefix opened.value COMPAT_ESCAPE).getD opened.value
            .sealed (.text (cipher.sealText crates nonce plain context))
          else .already
    | .blob =>
      match stored.asBytes with
      | none => .unreadable
      | some bytes =>
        match cipher.openBytes crates bytes context with
        | .error _ => .unreadable
        | .ok opened =>
          if opened.needsReseal then
            match cipher.sealBytes crates nonce opened.value context with
            | .ok sealed => .sealed (.blob sealed)
            | .error _ => .unreadable
          else .already

/-- The states of an item. -/
inductive ItemState where
  | pending
  | sealing
  | sealed
deriving DecidableEq

/-- The row of an item in the state table. -/
structure ItemRow where
  state : ItemState
  cursor : Option String
deriving DecidableEq

/-- The states of the store row. -/
inductive StoreState where
  | ok
  | vacuumPending
deriving DecidableEq

/-- The store row of the state table. -/
structure StoreRow where
  state : StoreState
  cursor : Option String
  kcv : Option String
  minReader : ℤ
deriving DecidableEq

/-- What was done to the file: the cells that were sealed, the items that were planned, whether a cell was ever
rewritten, and what was completed since: a scrub, a `VACUUM`, and a truncation of the WAL after such a `VACUUM`. -/
structure Traces where
  sealed : List (String × Value) := []
  planned : List String := []
  rewritten : Bool := false
  scrubbed : Bool := false
  vacuumed : Bool := false
  truncated : Bool := false

/-- A database file with its state table. -/
structure Disk where
  columns : String → Column
  items : AList fun _ : String => ItemRow
  record : Option StoreRow
  traces : Traces

section Notes

variable (disk : Disk)

def Disk.noteScrubbed : Disk := { disk with traces := { disk.traces with scrubbed := true } }

def Disk.noteVacuumed : Disk := { disk with traces := { disk.traces with vacuumed := true } }

def Disk.noteTruncated : Disk :=
  { disk with traces := { disk.traces with truncated := disk.traces.truncated || disk.traces.vacuumed } }

end Notes

/-- Why a call stops: an operation fails, or the process dies. -/
inductive Stop where
  | failed (message : String)
  | crashed
deriving DecidableEq

structure World where
  disk : Disk
  point : ℕ

/-- What a call meets at each of its points. -/
structure Environment where
  stops : ℕ → Option Stop
  nonces : String → Value → Nonce
  now : ℤ
  secureDelete : ℕ → ℤ
  checkpoint : ℕ → ℤ × ℤ × ℤ
  freelistCount : ℕ → ℤ
  pageSize : ℕ → ℤ
  freeSpace : ℕ → Option ℕ
  storeSize : ℕ → ℕ

abbrev Call := EStateM Stop World

section Primitives

variable {α : Type} (env : Environment)

/-- A point of a call: it stops here, or tells which point it is. -/
def reach : Call ℕ := fun world =>
  match env.stops world.point with
  | some stop => .error stop { world with point := world.point + 1 }
  | none => .ok world.point { world with point := world.point + 1 }

def failed (message : String) : Call α := throw (.failed message)

/-- A statement that commits by itself. -/
def statement (change : Disk → Disk) : Call Unit := do
  let _ ← reach env
  modify fun world => { world with disk := change world.disk }
  let _ ← reach env

def readDisk : Call Disk := do
  let _ ← reach env
  return (← get).disk

/-- `BEGIN IMMEDIATE … COMMIT`. -/
def inTransaction (body : Call α) : Call α := fun world =>
  match (do
    let _ ← reach env
    let result ← body
    let _ ← reach env
    return result : Call α) world with
  | .ok result next => .ok result next
  | .error stop next => .error stop { next with disk := world.disk }

/-- `require_secure_delete`. -/
def requireSecureDelete : Call Unit := do
  let point ← reach env
  if env.secureDelete point ≠ 1 then
    failed ("secure_delete is not on for this connection; call enable_secure_delete before " ++
      "migrating or finishing a sealed store")

/-- `ensure_busy_timeout`. -/
def ensureBusyTimeout : Call Unit := statement env id

/-- `ensure_state_table`. -/
def ensureStateTable : Call Unit := statement env id

/-- `item_row`, of an item. -/
def itemRow (item : String) : Call (Option ItemRow) := return (← readDisk env).items.lookup item

/-- `set_item`. -/
def setItem (item : String) (state : ItemState) (cursor : Option String) : Call Unit :=
  statement env fun disk => { disk with items := disk.items.insert item ⟨state, cursor⟩ }

end Primitives

section Record

variable (env : Environment)

/-- `StoreKeyState`. -/
inductive StoreKeyState where
  | recorded
  | current
  | retired
  | mismatch (recorded : String)
deriving DecidableEq

/-- What `record_store_kcv` makes of the store row. -/
def recordedRow (kcv : String) : Option StoreRow → StoreRow
  | none => ⟨.ok, none, some kcv, SUPPORTED_MIN_READER⟩
  | some row => { row with kcv := some kcv, minReader := max row.minReader SUPPORTED_MIN_READER }

/-- `record_store_kcv`. -/
def recordStoreKcv (kcv : String) : Call Unit := do
  ensureStateTable env
  statement env fun disk => { disk with record := some (recordedRow kcv disk.record) }

/-- `check_store_key`. -/
def checkStoreKey (cipher : ContentCipher) : Call StoreKeyState := do
  ensureStateTable env
  match (← readDisk env).record with
  | none => recordStoreKcv env cipher.current.rootKcv; return .recorded
  | some record =>
    if SUPPORTED_MIN_READER < record.minReader then
      failed (cipher.store ++ " was written by a newer Ryu (needs reader format " ++ toString record.minReader ++
        ", this build reads " ++ toString SUPPORTED_MIN_READER ++ "); update Ryu")
    else
      match record.kcv with
      | none => recordStoreKcv env cipher.current.rootKcv; return .recorded
      | some kcv =>
        match cipher.matchKcv kcv with
        | .current => return .current
        | .retired => return .retired
        | .unknown => return .mismatch kcv

/-- What `set_store_state` makes of the store row. -/
def stateRow (state : StoreState) (cursor : Option String) : Option StoreRow → StoreRow
  | none => ⟨state, cursor, none, SUPPORTED_MIN_READER⟩
  | some row => { row with state, cursor }

/-- `set_store_state`. -/
def setStoreState (state : StoreState) (cursor : Option String) : Call Unit :=
  statement env fun disk => { disk with record := some (stateRow state cursor disk.record) }

/-- `PendingCursor`. -/
structure PendingCursor where
  scrubbed : Bool := false
  lastAttempt : Option ℤ := none
deriving DecidableEq

namespace PendingCursor

/-- `PendingCursor::parse`. -/
def parse : Option String → PendingCursor
  | none => {}
  | some cursor =>
    match stripPrefix cursor SCRUBBED_CURSOR with
    | some rest => ⟨true, (stripPrefix rest ":").bind parseI64⟩
    | none => ⟨false, parseI64 cursor⟩

/-- `PendingCursor::encode`. -/
def encode : PendingCursor → Option String
  | ⟨false, none⟩ => none
  | ⟨false, some at_⟩ => some (toString at_)
  | ⟨true, none⟩ => some SCRUBBED_CURSOR
  | ⟨true, some at_⟩ => some (SCRUBBED_CURSOR ++ ":" ++ toString at_)

end PendingCursor

/-- `set_pending`. -/
def setPending (cursor : PendingCursor) : Call Unit := setStoreState env .vacuumPending cursor.encode

/-- `mark_scrub_owed`. -/
def markScrubOwed : Call Unit := do
  match (← readDisk env).record with
  | none => setStoreState env .vacuumPending none
  | some row =>
    match row.state with
    | .ok => setStoreState env .vacuumPending none
    | .vacuumPending =>
      let parsed := PendingCursor.parse row.cursor
      if parsed.scrubbed then setPending env { parsed with scrubbed := false } else pure ()

end Record

section Migration

variable (crates : Crates) (env : Environment) (cipher : ContentCipher)

/-- The body of the loop over the rows of a batch. -/
def resealRow (plan : ColumnPlan) (state : Column × MigrationReport) (row : Row) : Column × MigrationReport :=
  let (column, report) := state
  match resealValue crates cipher plan.kind row.value (plan.contextFor row) (env.nonces plan.item row.key) with
  | .sealed sealed =>
    let (updated, changed) := column.update row.key row.value sealed
    (updated, if changed = 1 then { report with sealed := report.sealed + 1 } else { report with raced := report.raced + 1 })
  | .already => (column, { report with alreadySealed := report.alreadySealed + 1 })
  | .unreadable => (column, { report with unreadable := report.unreadable + 1 })

/-- The cells of a batch that are sealed. -/
def sealedCells (plan : ColumnPlan) (batch : List Row) : List (String × Value) :=
  (batch.filter fun row => match resealValue crates cipher plan.kind row.value (plan.contextFor row)
      (env.nonces plan.item row.key) with
    | .sealed _ => true
    | .already | .unreadable => false).map fun row => (plan.item, row.key)

/-- What a batch leaves of the file. -/
def batchDisk (plan : ColumnPlan) (batch : List Row) (column : Column) (cursor : Option String) (disk : Disk) : Disk :=
  let cells := sealedCells crates env cipher plan batch
  { disk with
    columns := Function.update disk.columns plan.item column
    items := disk.items.insert plan.item ⟨.sealing, cursor⟩
    traces :=
      if cells = [] then disk.traces
      else { disk.traces with
        sealed := disk.traces.sealed ++ cells
        rewritten := true, scrubbed := false, vacuumed := false, truncated := false } }

/-- One transaction of the paging loop: the cursor after it, the report, and whether more rows may follow. -/
def migrateBatch (plan : ColumnPlan) (cursor : Option String) (report : MigrationReport) :
    Call (Option String × MigrationReport × Bool) :=
  inTransaction env do
    let column := (← readDisk env).columns plan.item
    match cursor.mapM plan.cursorValue with
    | .error message => failed message
    | .ok after =>
      let batch := column.select after
      let (column, report) := batch.foldl (resealRow crates env cipher plan) (column, report)
      let cursor := (batch.getLast?.map fun row => (plan.rowKey row.key []).key).or cursor
      statement env (batchDisk crates env cipher plan batch column cursor)
      return (cursor, report, batch.length = BATCH_SIZE)

/-- The paging loop, which every full batch moves on. -/
def migratePages (plan : ColumnPlan) : ℕ → Option String → MigrationReport → Call MigrationReport
  | 0, _, _ => failed "no progress"
  | fuel + 1, cursor, report => do
    let (cursor, report, more) ← migrateBatch crates env cipher plan cursor report
    if more then migratePages plan fuel cursor report else return report

/-- `all_items_sealed`. -/
def allItemsSealed (disk : Disk) : Bool := disk.items.entries.all (·.2.state = .sealed)

/-- The loop over the plans of `migrate_columns`, for one plan. -/
def migrateItem (wasRetired : Bool) (report : MigrationReport) (plan : ColumnPlan) : Call MigrationReport := do
  let row := (← itemRow env plan.item).getD ⟨.pending, none⟩
  if row.state = .sealed then return { report with finishedItems := report.finishedItems + 1 }
  inTransaction env do
    markScrubOwed env
    setItem env plan.item .sealing row.cursor
  let rows := ((← get).disk.columns plan.item).rows.length
  let report ← migratePages crates env cipher plan (rows + 1) row.cursor report
  inTransaction env do
    setItem env plan.item .sealed none
    if wasRetired ∧ report.unreadable = 0 then
      if allItemsSealed (← readDisk env) then recordStoreKcv env cipher.current.rootKcv
  return report

/-- Bookkeeping of the items that were planned. -/
def notePlanned (plans : List ColumnPlan) : Call Unit :=
  modify fun world => { world with disk := { world.disk with
    traces := { world.disk.traces with planned := world.disk.traces.planned ++ plans.map ColumnPlan.item } } }

/-- `migrate_columns`. -/
def migrateColumns (plans : List ColumnPlan) : Call MigrationReport := do
  notePlanned plans
  requireSecureDelete env
  ensureBusyTimeout env
  ensureStateTable env
  let keyState ← checkStoreKey env cipher
  match keyState with
  | .mismatch _ =>
    failed (cipher.store ++ " is sealed under a different key than this process holds; writes are refused " ++
      "to protect it (run `ryu-core keys status`)")
  | _ => plans.foldlM (migrateItem crates env cipher (keyState = .retired)) {}

/-- `reset_items`. -/
def resetItems (plans : List ColumnPlan) : Call Unit := do
  notePlanned plans
  ensureStateTable env
  plans.forM fun plan => setItem env plan.item .pending none

end Migration

section Compaction

variable {α : Type} (env : Environment)

/-- An action whose failure is looked at before it is passed on. -/
def attempt (action : Call α) : Call (Except String α) := fun world =>
  match action world with
  | .ok value next => .ok (.ok value) next
  | .error (.failed message) next => .ok (.error message) next
  | .error .crashed next => .error .crashed next

/-- `?`. -/
def orFailed : Except String α → Call α
  | .ok value => return value
  | .error message => failed message

/-- The attempts that are left of `checkpoint_truncate`, after one with this result. -/
def checkpointAgain : ℕ → ℤ × ℤ × ℤ → Call Unit
  | 0, (busy, frames, copied) =>
    failed ("the WAL could not be checkpointed and truncated (busy " ++ toString busy ++ ", " ++ toString frames ++
      " frames, " ++ toString copied ++ " copied); another connection holds the store open")
  | attempts + 1, _ => do
    let (busy, frames, copied) := env.checkpoint (← reach env)
    if busy = 0 ∧ frames = copied then modify fun world => { world with disk := world.disk.noteTruncated }
    else checkpointAgain attempts (busy, frames, copied)

/-- `checkpoint_truncate`. -/
def checkpointTruncate : Call Unit := checkpointAgain env CHECKPOINT_ATTEMPTS (0, 0, 0)

/-- `drop_scrub_table`. -/
def dropScrubTable : Call Unit := do
  statement env id
  let dropped ← attempt (statement env id)
  let restored ← attempt (statement env id)
  orFailed dropped
  orFailed restored
  checkpointTruncate env

/-- `VacuumPolicy`, apart from its probe. -/
structure VacuumPolicy where
  vacuumNowMaxBytes : ℕ := VACUUM_NOW_MAX_BYTES
  headroomBytes : ℕ := VACUUM_HEADROOM_BYTES

/-- `ungated_policy`. -/
def ungatedPolicy : VacuumPolicy := { vacuumNowMaxBytes := 2 ^ 64 - 1 }

/-- `start_policy`. -/
def startPolicy (gated : Bool) : VacuumPolicy := if gated then {} else ungatedPolicy

/-- A saturating sum of sizes. -/
def saturatingSum (left right : ℕ) : ℕ := min (left + right) (2 ^ 64 - 1)

/-- `has_room`. -/
def hasRoom (needed : ℕ) : Call Bool := do
  return (env.freeSpace (← reach env)).any (needed ≤ ·)

/-- The loop of `scrub_freelist`. -/
def fillChunks (policy : VacuumPolicy) (remaining : ℕ) : Call Bool :=
  if _done : remaining = 0 then return true
  else do
    let chunk := min remaining SCRUB_CHUNK_BYTES
    if ← hasRoom env (saturatingSum chunk policy.headroomBytes) then
      statement env id
      checkpointTruncate env
      fillChunks policy (remaining - chunk)
    else return false
termination_by remaining
decreasing_by
  have : 0 < min remaining SCRUB_CHUNK_BYTES := Nat.lt_min.mpr ⟨Nat.pos_of_ne_zero _done, by decide⟩
  omega

/-- Bookkeeping of a scrub that is complete. -/
def markScrubbed : Call Unit := modify fun world => { world with disk := world.disk.noteScrubbed }

/-- `scrub_freelist`. -/
def scrubFreelist (policy : VacuumPolicy) : Call (Option ℤ) := do
  dropScrubTable env
  let freePages := env.freelistCount (← reach env)
  if freePages ≤ 0 then
    markScrubbed
    return some 0
  let pageSize := env.pageSize (← reach env)
  statement env id
  let filled ← attempt (fillChunks env policy (freePages * pageSize).toNat)
  let dropped ← attempt (dropScrubTable env)
  let filled ← orFailed filled
  orFailed dropped
  if filled then
    markScrubbed
    return some freePages
  return none

/-- `store_size`. -/
def storeSize : Call ℕ := return env.storeSize (← reach env)

/-- `vacuum_fits`. -/
def vacuumFits (size : ℕ) (policy : VacuumPolicy) : Call Bool :=
  hasRoom env (saturatingSum (saturatingSum size size) policy.headroomBytes)

/-- `VACUUM`. -/
def vacuum : Call Unit := statement env Disk.noteVacuumed

/-- `FinishOutcome`. -/
structure FinishOutcome where
  scrubbedPages : ℤ := 0
  vacuumed : Bool := false
  vacuumPending : Bool := false
deriving DecidableEq

/-- Whether the store row records a finished scrub. -/
def scrubRecorded (disk : Disk) : Bool :=
  disk.record.any fun row => row.state = .vacuumPending ∧ (PendingCursor.parse row.cursor).scrubbed

/-- `finish_store_inner`. -/
def finishStoreInner (policy : VacuumPolicy) : Call FinishOutcome := do
  checkpointTruncate env
  let alreadyScrubbed := scrubRecorded (← readDisk env)
  match ← (if alreadyScrubbed then pure (some 0) else scrubFreelist env policy) with
  | none =>
    setPending env {}
    return { vacuumPending := true }
  | some scrubbedPages =>
    let size ← storeSize env
    let now ← (if size ≤ policy.vacuumNowMaxBytes then vacuumFits env size policy else pure false)
    if now then
      vacuum env
      checkpointTruncate env
      setStoreState env .ok none
      return { scrubbedPages, vacuumed := true }
    else
      setPending env { scrubbed := true }
      return { scrubbedPages, vacuumPending := true }

/-- `finish_store_with`. -/
def finishStoreWith (policy : VacuumPolicy) : Call FinishOutcome := do
  requireSecureDelete env
  ensureBusyTimeout env
  ensureStateTable env
  match ← attempt (finishStoreInner env policy) with
  | .ok outcome => return outcome
  | .error message =>
    let _ ← attempt (setStoreState env .vacuumPending none)
    failed message

/-- `run_pending_vacuum_with`. -/
def runPendingVacuumWith (policy : VacuumPolicy) : Call Bool := do
  ensureStateTable env
  match (← readDisk env).record with
  | none => return false
  | some row =>
    if row.state ≠ .vacuumPending then return false
    let cursor := PendingCursor.parse row.cursor
    if cursor.lastAttempt.any (env.now - · < VACUUM_RETRY_SECS) then return false
    requireSecureDelete env
    ensureBusyTimeout env
    checkpointTruncate env
    if !cursor.scrubbed then
      if (← scrubFreelist env policy).isNone then
        setPending env { cursor with lastAttempt := some env.now }
        return false
      setPending env { scrubbed := true }
    let cursor := if cursor.scrubbed then cursor else { scrubbed := true }
    let size ← storeSize env
    if policy.vacuumNowMaxBytes < size then return false
    if !(← vacuumFits env size policy) then
      setPending env { cursor with lastAttempt := some env.now }
      return false
    vacuum env
    checkpointTruncate env
    setStoreState env .ok none
    return true

/-- `run_pending_vacuum`, and with `gated` `run_pending_vacuum_gated`. -/
def runPendingVacuum (gated : Bool) : Call Bool := runPendingVacuumWith env (startPolicy gated)

/-- `compact_deferred`. -/
def compactDeferred : Call Bool := runPendingVacuumWith env ungatedPolicy

end Compaction

section Runs

variable (crates : Crates) (cipher : ContentCipher)

/-- A call that an owner of a store makes on its connection. -/
inductive StoreCall where
  | checkStoreKey
  | resetItems (plans : List ColumnPlan)
  | migrateColumns (plans : List ColumnPlan)
  | finishStore (policy : VacuumPolicy)
  | runPendingVacuum (policy : VacuumPolicy)

/-- The plans that a call is given. -/
def StoreCall.plans : StoreCall → List ColumnPlan
  | .resetItems plans | .migrateColumns plans => plans
  | .checkStoreKey | .finishStore _ | .runPendingVacuum _ => []

/-- What a call does, without its result. -/
def StoreCall.act (env : Environment) : StoreCall → Call Unit
  | .checkStoreKey => do let _ ← Crypto.checkStoreKey env cipher
  | .resetItems plans => Crypto.resetItems env plans
  | .migrateColumns plans => do let _ ← Crypto.migrateColumns crates env cipher plans
  | .finishStore policy => do let _ ← finishStoreWith env policy
  | .runPendingVacuum policy => do let _ ← runPendingVacuumWith env policy

/-- The file after a call, whether it returned, failed or was cut off. -/
def StoreCall.run (env : Environment) (call : StoreCall) (disk : Disk) : Disk :=
  (outcome (call.act crates cipher env) ⟨disk, 0⟩).2.disk

/-- The file after some calls. -/
def runCalls (calls : List (Environment × StoreCall)) (disk : Disk) : Disk :=
  calls.foldl (fun disk call => call.2.run crates cipher call.1 disk) disk

end Runs

end RyuRooms.Crypto
