import RyuRooms.Crypto.Batches
import RyuRooms.Crypto.Calls

/-! # The transactions of the migration

What each transaction of `migrate_columns` leaves on the disk, and the rule that takes a property of the disk
through the migration of one item: where it starts, from batch to batch, and where the item is finished.
-/

namespace RyuRooms.Crypto

open Foundation

variable {crates : Crates} {env : Environment} {cipher : ContentCipher} {plan : ColumnPlan}

/-- What `mark_scrub_owed` makes of the store row. -/
def owedRow : Option StoreRow → StoreRow
  | none => stateRow .vacuumPending none none
  | some row =>
    match row.state with
    | .ok => { row with state := .vacuumPending, cursor := none }
    | .vacuumPending =>
      let parsed := PendingCursor.parse row.cursor
      if parsed.scrubbed then { row with cursor := PendingCursor.encode { parsed with scrubbed := false } } else row

/-- The disk on which an item starts. -/
def Disk.started (plan : ColumnPlan) (cursor : Option String) (disk : Disk) : Disk :=
  { disk with record := some (owedRow disk.record), items := disk.items.insert plan.item ⟨.sealing, cursor⟩ }

/-- The disk on which an item is finished. -/
def Disk.finished (plan : ColumnPlan) (disk : Disk) : Disk :=
  { disk with items := disk.items.insert plan.item ⟨.sealed, none⟩ }

/-- The disk whose record names a key. -/
def Disk.recorded (kcv : String) (disk : Disk) : Disk := { disk with record := some (recordedRow kcv disk.record) }

/-- A batch was processed: the cursor and the report after it, and whether more rows may follow. -/
structure Batched (crates : Crates) (env : Environment) (cipher : ContentCipher) (plan : ColumnPlan) (cursor : Option String)
    (report : MigrationReport) (disk : Disk) (result : Option String × MigrationReport × Bool) (after : Option Value)
    (next : Disk) : Prop where
  decoded : cursor.mapM plan.cursorValue = .ok after
  rows : (next.columns plan.item).rows = (disk.columns plan.item).rows.map fun row =>
    if row ∈ (disk.columns plan.item).select after then row.resealed crates env cipher plan else row
  others : ∀ item, item ≠ plan.item → next.columns item = disk.columns item
  cursor : result.1 = (((disk.columns plan.item).select after).getLast?.map fun row => (plan.rowKey row.key []).key).or cursor
  items : next.items = disk.items.insert plan.item ⟨.sealing, result.1⟩
  unreadable : result.2.1.unreadable = report.unreadable + ((disk.columns plan.item).select after).countP
    fun row => reseal crates env cipher plan row = .unreadable
  more : result.2.2 = (((disk.columns plan.item).select after).length = BATCH_SIZE : Bool)
  record : next.record = disk.record
  planned : next.traces.planned = disk.traces.planned
  sealed : next.traces.sealed = disk.traces.sealed ++ sealedCells crates env cipher plan ((disk.columns plan.item).select after)
  kept : sealedCells crates env cipher plan ((disk.columns plan.item).select after) = [] → next.traces = disk.traces

theorem select_subset {column : Column} {after : Option Value} : ∀ row ∈ column.select after, row ∈ column.rows :=
  fun _ member => List.mem_of_mem_filter (List.mem_of_mem_take member)

theorem nodup_select (column : Column) (after : Option Value) : (column.select after).Nodup :=
  ((List.Nodup.of_map _ column.nodup_keys).filter _).sublist (List.take_sublist _ _)

section Triples

variable {bad : Disk → Prop} {disk : Disk} {report : MigrationReport} {cursor : Option String}

theorem leaves_markScrubOwed (stopped : ∀ target, env.Stops → bad target) :
    Leaves (fun _ target => target = { disk with record := some (owedRow disk.record) }) bad (markScrubOwed env) disk := by
  have read : Leaves (fun found target => target = disk ∧ found = disk) bad (readDisk env) disk :=
    Leaves.readDisk (stopped _) ⟨rfl, rfl⟩
  refine read.bind fun found middle here => ?_
  obtain ⟨rfl, rfl⟩ := here
  cases recorded : found.record with
  | none => exact Leaves.statement (stopped _) (stopped _) (by rw [recorded]; rfl)
  | some row =>
    simp only
    cases state : row.state with
    | ok =>
      refine Leaves.statement (stopped _) (stopped _) ?_
      rw [recorded]
      simp only [owedRow, state, stateRow]
    | vacuumPending =>
      simp only [owedRow, state]
      split
      · rw [setPending, setStoreState]
        refine Leaves.statement (stopped _) (stopped _) ?_
        rw [recorded]
        simp only [stateRow]
      · exact Leaves.pure (recorded ▸ rfl)

theorem leaves_recordStoreKcv (kcv : String) (before : env.Stops → bad disk) (after : env.Stops → bad (disk.recorded kcv)) :
    Leaves (fun _ target => target = disk.recorded kcv) bad (recordStoreKcv env kcv) disk := by
  have first : Leaves (fun _ target => target = disk) bad (ensureStateTable env) disk := Leaves.statement before before rfl
  refine first.bind fun _ middle here => ?_
  subst here
  exact Leaves.statement before after rfl

/-- A batch that stops leaves the disk as it was. -/
theorem leaves_migrateBatch (stopped : env.Stops → bad disk)
    (corrupt : ∀ message, cursor.mapM plan.cursorValue = .error message → bad disk) :
    Leaves (fun result target => ∃ after, Batched crates env cipher plan cursor report disk result after target) bad
      (migrateBatch crates env cipher plan cursor report) disk := by
  refine Leaves.inTransaction stopped ?_
  have read : Leaves (fun found target => target = disk ∧ found = disk) (fun _ => bad disk) (readDisk env) disk :=
    Leaves.readDisk stopped ⟨rfl, rfl⟩
  refine read.bind fun found middle here => ?_
  obtain ⟨rfl, rfl⟩ := here
  cases decoded : cursor.mapM plan.cursorValue with
  | error message => exact Leaves.failed (corrupt message decoded)
  | ok after =>
    simp only
    obtain ⟨rows, unreadable⟩ := @foldl_resealRow crates env cipher plan (found.columns plan.item) report _
      (@select_subset (found.columns plan.item) after) (nodup_select _ after)
    have wrote : Leaves (fun _ target => target = batchDisk crates env cipher plan ((found.columns plan.item).select after)
        (((found.columns plan.item).select after).foldl (resealRow crates env cipher plan) (found.columns plan.item, report)).1
        ((((found.columns plan.item).select after).getLast?.map fun row => (plan.rowKey row.key []).key).or cursor) found)
        (fun _ => bad found) (statement env _) found := Leaves.statement stopped stopped rfl
    refine wrote.bind fun _ target changed => ?_
    subst changed
    refine Leaves.pure ⟨after, ?_⟩
    refine ⟨decoded, ?_, ?_, rfl, rfl, unreadable, rfl, rfl, ?_, ?_, ?_⟩
    · simp only [batchDisk, Function.update_self]
      exact rows
    · intro item other
      simp only [batchDisk, Function.update_of_ne other]
    · simp only [batchDisk]
      split <;> rfl
    · simp only [batchDisk]
      split
      · next none => rw [none, List.append_nil]
      · rfl
    · intro none
      simp only [batchDisk, none, if_true]

end Triples

section Rules

/-- The disk after the last transaction of an item, which moves the record where it may. -/
def Disk.closed (plan : ColumnPlan) (wasRetired : Bool) (report : MigrationReport) (kcv : String) (disk : Disk) : Disk :=
  if wasRetired ∧ report.unreadable = 0 ∧ allItemsSealed (disk.finished plan) then (disk.finished plan).recorded kcv
  else disk.finished plan

variable {before bad : Disk → Prop} {during : ℕ → Option String → MigrationReport → Disk → Prop}
  {ended done : MigrationReport → Disk → Prop} {disk : Disk} {report : MigrationReport} {wasRetired : Bool}

/-- What every batch takes on, the paging loop takes to its end. -/
theorem leaves_migratePages
    (stops : ∀ fuel cursor report disk, during fuel cursor report disk → env.Stops → bad disk)
    (corrupt : ∀ fuel cursor report disk message, during fuel cursor report disk →
      cursor.mapM plan.cursorValue = .error message → bad disk)
    (exhausted : ∀ cursor report disk, during 0 cursor report disk → bad disk)
    (step : ∀ fuel cursor report disk result after next, during (fuel + 1) cursor report disk →
      Batched crates env cipher plan cursor report disk result after next →
        if result.2.2 then during fuel result.1 result.2.1 next else ended result.2.1 next)
    (fuel : ℕ) (cursor : Option String) (started : during fuel cursor report disk) :
    Leaves ended bad (migratePages crates env cipher plan fuel cursor report) disk := by
  induction fuel generalizing cursor report disk with
  | zero => exact Leaves.failed (exhausted cursor report disk started)
  | succ fuel ih =>
    have batch : Leaves _ bad (migrateBatch crates env cipher plan cursor report) disk :=
      leaves_migrateBatch (stops _ _ _ _ started) fun message => corrupt _ _ _ _ message started
    refine batch.bind fun result next batched => ?_
    obtain ⟨after, batched⟩ := batched
    have onward := step _ _ _ _ _ _ _ started batched
    obtain ⟨cursor, report, more⟩ := result
    cases more with
    | true => exact ih cursor onward
    | false => exact Leaves.pure onward

theorem leaves_itemRow (stopped : env.Stops → bad disk) :
    Leaves (fun found target => target = disk ∧ found = disk.items.lookup plan.item) bad (itemRow env plan.item) disk := by
  have whole : Leaves (fun found target => target = disk ∧ found = disk) bad (readDisk env) disk :=
    Leaves.readDisk stopped ⟨rfl, rfl⟩
  refine whole.bind fun found target here => Leaves.pure ?_
  obtain ⟨rfl, rfl⟩ := here
  exact ⟨rfl, rfl⟩

/-- The transaction that starts an item. -/
theorem leaves_startItem (cursor : Option String) (stopped : env.Stops → bad disk) :
    Leaves (fun _ next => next = disk.started plan cursor) bad (inTransaction env do
      markScrubOwed env
      setItem env plan.item .sealing cursor) disk := by
  refine Leaves.inTransaction stopped ?_
  refine (leaves_markScrubOwed fun _ => stopped).bind fun _ middle owed => ?_
  subst owed
  exact Leaves.statement stopped stopped rfl

/-- The transaction that finishes an item. -/
theorem leaves_finishItem (stopped : env.Stops → bad disk) :
    Leaves (fun _ next => next = disk.closed plan wasRetired report cipher.current.rootKcv) bad (inTransaction env do
      setItem env plan.item .sealed none
      if wasRetired ∧ report.unreadable = 0 then
        if allItemsSealed (← readDisk env) then recordStoreKcv env cipher.current.rootKcv) disk := by
  refine Leaves.inTransaction stopped ?_
  have set : Leaves (fun _ next => next = disk.finished plan) (fun _ => bad disk) (setItem env plan.item .sealed none)
      disk := Leaves.statement stopped stopped rfl
  refine set.bind fun _ middle here => ?_
  subst here
  refine Leaves.ite (fun clean => ?_) fun unclean => Leaves.pure ?_
  · have whole : Leaves (fun found next => next = disk.finished plan ∧ found = disk.finished plan) (fun _ => bad disk)
        (readDisk env) (disk.finished plan) := Leaves.readDisk stopped ⟨rfl, rfl⟩
    refine whole.bind fun found next here => ?_
    obtain ⟨rfl, rfl⟩ := here
    refine Leaves.ite (fun all => ?_) fun some_ => Leaves.pure ?_
    · have recording : Leaves _ (fun _ => bad disk) (recordStoreKcv env cipher.current.rootKcv) (disk.finished plan) :=
        @leaves_recordStoreKcv _ (fun _ => bad disk) _ _ stopped stopped
      refine recording.imp fun _ next recorded => ?_
      rw [recorded, Disk.closed, if_pos ⟨clean.1, clean.2, all⟩]
    · rw [Disk.closed, if_neg fun all => some_ all.2.2]
  · rw [Disk.closed, if_neg fun all => unclean ⟨all.1, all.2.1⟩]

/-- A property goes through the migration of an item when it goes through its transactions. -/
theorem leaves_migrateItem (stopped : env.Stops → bad disk)
    (skips : ∀ cursor, disk.items.lookup plan.item = some ⟨.sealed, cursor⟩ →
      done { report with finishedItems := report.finishedItems + 1 } disk)
    (starts : ∀ row, (disk.items.lookup plan.item).getD ⟨.pending, none⟩ = row → row.state ≠ .sealed →
      during ((disk.columns plan.item).rows.length + 1) row.cursor report (disk.started plan row.cursor))
    (stops : ∀ fuel cursor report disk, during fuel cursor report disk → env.Stops → bad disk)
    (corrupt : ∀ fuel cursor report disk message, during fuel cursor report disk →
      cursor.mapM plan.cursorValue = .error message → bad disk)
    (exhausted : ∀ cursor report disk, during 0 cursor report disk → bad disk)
    (step : ∀ fuel cursor report disk result after next, during (fuel + 1) cursor report disk →
      Batched crates env cipher plan cursor report disk result after next →
        if result.2.2 then during fuel result.1 result.2.1 next else ended result.2.1 next)
    (stopsEnded : ∀ report disk, ended report disk → env.Stops → bad disk)
    (closes : ∀ report disk, ended report disk →
      done report (disk.closed plan wasRetired report cipher.current.rootKcv)) :
    Leaves done bad (migrateItem crates env cipher wasRetired report plan) disk := by
  refine (leaves_itemRow stopped).bind fun found target here => ?_
  obtain ⟨rfl, rfl⟩ := here
  generalize picked : (target.items.lookup plan.item).getD ⟨.pending, none⟩ = row
  refine Leaves.ite (fun sealed => ?_) fun unsealed => ?_
  · have found : target.items.lookup plan.item = some ⟨.sealed, row.cursor⟩ := by
      cases found : target.items.lookup plan.item with
      | none =>
        rw [found, Option.getD_none] at picked
        rw [← picked] at sealed
        cases sealed
      | some there =>
        rw [found, Option.getD_some] at picked
        obtain ⟨state, cursor⟩ := there
        obtain rfl := picked
        obtain rfl : state = .sealed := sealed
        rfl
    exact Leaves.pure (skips row.cursor found)
  · refine (leaves_startItem row.cursor stopped).bind fun _ begun here => ?_
    subst here
    have counted : Leaves (fun world next => next = target.started plan row.cursor ∧ world.disk = next) bad
        (get : Call World) (target.started plan row.cursor) := fun _ => ⟨rfl, rfl⟩
    refine counted.bind fun world next here => ?_
    obtain ⟨rfl, here⟩ := here
    rw [here]
    have pages := @leaves_migratePages crates env cipher plan bad during ended (target.started plan row.cursor) report
      stops corrupt exhausted step _ _ (starts row picked unsealed)
    refine pages.bind fun report paged held => ?_
    refine (leaves_finishItem (stopsEnded report paged held)).bind fun _ next here => Leaves.pure ?_
    subst here
    exact closes report paged held

end Rules

section Runs

/-- The disk when a call notes its plans. -/
def Disk.noted (plans : List ColumnPlan) (disk : Disk) : Disk :=
  { disk with traces := { disk.traces with planned := disk.traces.planned ++ plans.map ColumnPlan.item } }

/-- The record names no key. -/
def Disk.Unkeyed (disk : Disk) : Prop := ∀ row, disk.record = some row → row.kcv = none

/-- The record names a key which a cipher knows as this. -/
def Disk.KeyedAs (cipher : ContentCipher) (found : KcvMatch) (disk : Disk) : Prop :=
  ∃ row kcv, disk.record = some row ∧ row.kcv = some kcv ∧ cipher.matchKcv kcv = found

/-- The record was written by a newer build. -/
def Disk.Newer (disk : Disk) : Prop := ∃ row, disk.record = some row ∧ SUPPORTED_MIN_READER < row.minReader

/-- What `check_store_key` answers, and the disk after it. -/
def KeyChecked (cipher : ContentCipher) (disk : Disk) (state : StoreKeyState) (target : Disk) : Prop :=
  match state with
  | .recorded => disk.Unkeyed ∧ target = disk.recorded cipher.current.rootKcv
  | .current => disk.KeyedAs cipher .current ∧ target = disk
  | .retired => disk.KeyedAs cipher .retired ∧ target = disk
  | .mismatch _ => disk.KeyedAs cipher .unknown ∧ target = disk

variable {bad : Disk → Prop} {disk : Disk} {plans : List ColumnPlan}

theorem leaves_checkStoreKey (stopped : env.Stops → bad disk)
    (stoppedAfter : env.Stops → disk.Unkeyed → bad (disk.recorded cipher.current.rootKcv)) (newer : disk.Newer → bad disk) :
    Leaves (KeyChecked cipher disk) bad (checkStoreKey env cipher) disk := by
  have ensured : Leaves (fun _ target => target = disk) bad (ensureStateTable env) disk :=
    Leaves.statement stopped stopped rfl
  refine ensured.bind fun _ middle here => ?_
  subst here
  have read : Leaves (fun found target => target = middle ∧ found = middle) bad (readDisk env) middle :=
    Leaves.readDisk stopped ⟨rfl, rfl⟩
  refine read.bind fun found target here => ?_
  obtain ⟨rfl, rfl⟩ := here
  have recording (unkeyed : found.Unkeyed) : Leaves (KeyChecked cipher found) bad (do
      recordStoreKcv env cipher.current.rootKcv
      return StoreKeyState.recorded) found := by
    refine (leaves_recordStoreKcv _ stopped fun stops => stoppedAfter stops unkeyed).bind fun _ target here => ?_
    exact Leaves.pure ⟨unkeyed, here⟩
  cases recorded : found.record with
  | none =>
    exact recording fun row here => by rw [recorded] at here; cases here
  | some row =>
    refine Leaves.ite (fun later => Leaves.failed (newer ⟨row, recorded, later⟩)) fun _ => ?_
    cases keyed : row.kcv with
    | none =>
      exact recording fun other here => by rw [recorded] at here; obtain rfl := Option.some.inj here; exact keyed
    | some kcv =>
      have known (state : KcvMatch) (matched : cipher.matchKcv kcv = state) : found.KeyedAs cipher state :=
        ⟨row, kcv, recorded, keyed, matched⟩
      simp only
      cases matched : cipher.matchKcv kcv with
      | current => exact Leaves.pure ⟨known _ matched, rfl⟩
      | retired => exact Leaves.pure ⟨known _ matched, rfl⟩
      | unknown => exact Leaves.pure ⟨known _ matched, rfl⟩

/-- A property goes through `migrate_columns` when it goes through the check of the key and through each item. -/
theorem leaves_migrateColumns {inside : Bool → List ColumnPlan → MigrationReport → Disk → Prop}
    (stopped : env.Stops → bad (disk.noted plans))
    (insecure : (∃ point, env.secureDelete point ≠ 1) → bad (disk.noted plans))
    (newer : disk.Newer → bad (disk.noted plans))
    (stoppedAfter : env.Stops → disk.Unkeyed → bad ((disk.noted plans).recorded cipher.current.rootKcv))
    (mismatch : disk.KeyedAs cipher .unknown → bad (disk.noted plans))
    (starts : ∀ state target, KeyChecked cipher (disk.noted plans) state target → (∀ kcv, state ≠ .mismatch kcv) →
      inside (state = .retired) [] {} target)
    (items : ∀ wasRetired done plan rest report target, plans = done ++ plan :: rest → inside wasRetired done report target →
      Leaves (inside wasRetired (done ++ [plan])) bad (migrateItem crates env cipher wasRetired report plan) target) :
    Leaves (fun report target => ∃ wasRetired, inside wasRetired plans report target) bad
      (migrateColumns crates env cipher plans) disk := by
  have note : Leaves (fun _ target => target = disk.noted plans) bad (notePlanned plans) disk := fun _ => rfl
  refine note.bind fun _ noted here => ?_
  have secure : Leaves (fun _ target => target = noted) bad (requireSecureDelete env) noted := by
    have asked : Leaves (fun _ target => target = noted) bad (reach env) noted :=
      Leaves.reach (here ▸ stopped) fun _ => rfl
    refine asked.bind fun point target same => Leaves.ite (fun off => Leaves.failed ?_) fun _ => Leaves.pure same
    rw [same, here]
    exact insecure ⟨point, off⟩
  refine secure.bind fun _ target same => ?_
  subst same
  have waited : Leaves (fun _ after => after = target) bad (ensureBusyTimeout env) target :=
    Leaves.statement (here ▸ stopped) (here ▸ stopped) rfl
  refine waited.bind fun _ after same => ?_
  subst same
  have ensured : Leaves (fun _ last => last = after) bad (ensureStateTable env) after :=
    Leaves.statement (here ▸ stopped) (here ▸ stopped) rfl
  refine ensured.bind fun _ last same => ?_
  subst same here
  have checked := @leaves_checkStoreKey env cipher bad (disk.noted plans) stopped stoppedAfter newer
  refine checked.bind fun state target checked => ?_
  have onward (admitted : ∀ kcv, state ≠ .mismatch kcv) : Leaves (fun report target => ∃ wasRetired, inside wasRetired plans
      report target) bad (plans.foldlM (migrateItem crates env cipher (state = .retired)) {}) target := by
    have each (rest : List ColumnPlan) : ∀ done report middle, plans = done ++ rest → inside (state = .retired) done report middle →
        Leaves (fun report target => ∃ wasRetired, inside wasRetired plans report target) bad
          (rest.foldlM (migrateItem crates env cipher (state = .retired)) report) middle := by
      induction rest with
      | nil =>
        intro done report middle split held
        rw [List.append_nil] at split
        exact Leaves.pure ⟨_, split ▸ held⟩
      | cons plan rest ih =>
        intro done report middle split held
        rw [List.foldlM_cons]
        refine (items _ done plan rest report middle split held).bind fun report middle held => ?_
        exact ih (done ++ [plan]) report middle (by rw [split, List.append_assoc]; rfl) held
    exact each plans [] {} target rfl (starts state target checked admitted)
  cases state with
  | mismatch kcv => exact Leaves.failed (checked.2 ▸ mismatch checked.1)
  | recorded => exact onward fun _ same => by cases same
  | current => exact onward fun _ same => by cases same
  | retired => exact onward fun _ same => by cases same

/-- A property that items may leave pending goes through `reset_items`. -/
theorem leaves_resetItems {held : Disk → Prop} (noted : held (disk.noted plans))
    (resets : ∀ plan ∈ plans, ∀ target, held target →
      held { target with items := target.items.insert plan.item ⟨.pending, none⟩ }) :
    Leaves (fun _ target => held target) held (resetItems env plans) disk := by
  have note : Leaves (fun _ target => held target) held (notePlanned plans) disk := fun _ => noted
  refine note.bind fun _ first here => ?_
  have ensured : Leaves (fun _ target => held target) held (ensureStateTable env) first :=
    Leaves.statement (fun _ => here) (fun _ => here) here
  refine ensured.bind fun _ second here => ?_
  clear noted note
  induction plans generalizing second with
  | nil => exact Leaves.pure here
  | cons plan rest ih =>
    have after := resets plan List.mem_cons_self second here
    have reset : Leaves (fun _ target => held target) held (setItem env plan.item .pending none) second :=
      Leaves.statement (fun _ => here) (fun _ => after) after
    change Leaves _ _ (setItem env plan.item .pending none >>= fun _ => rest.forM _) second
    refine reset.bind fun _ third here => ?_
    exact ih (fun other member => resets other (List.mem_cons_of_mem _ member)) third here

end Runs

end RyuRooms.Crypto
