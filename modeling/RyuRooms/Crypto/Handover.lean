import RyuRooms.Crypto.Migration

/-! # When the record of the key moves on

A migration moves the record of a retired key to the current one when it finishes an item, met no unreadable
value, and every item on record is sealed. It does not look again at what earlier runs passed, nor at items
that have no record yet. `Resumable` is what makes up for both: under it a record that moves leaves no value
behind that does not open under the current key.
-/

namespace RyuRooms.Crypto

open Foundation

section Rows

variable (crates : Crates) (cipher : ContentCipher) (plan : ColumnPlan)

/-- The value of a row is NULL or opens under the current key. -/
def Row.Fine (row : Row) : Prop := row.value = .null ∨ ∃ plain, row.OpensTo crates cipher plan plain

/-- Every value of a planned column is NULL or opens under the current key. -/
def Whole (disk : Disk) : Prop := ∀ row ∈ (disk.columns plan.item).rows, row.Fine crates cipher plan

variable {crates cipher plan} {env : Environment} {row : Row}

theorem Row.Fine.settled (fine : row.Fine crates cipher plan) : row.Settled crates cipher plan := by
  rcases fine with null | opened
  · exact .inl null
  · exact .inr (.inl opened)

/-- A row that the migration can read is fine after it. -/
theorem fine_resealed (opens : crates.Opens) (decodes : crates.Decodes) (read : reseal crates env cipher plan row ≠ .unreadable) :
    (row.resealed crates env cipher plan).Fine crates cipher plan := by
  cases outcome : reseal crates env cipher plan row with
  | sealed sealed =>
    obtain ⟨-, plain, -, opened⟩ := opensTo_resealed opens decodes outcome
    exact .inr ⟨plain, opened⟩
  | already =>
    rw [Row.resealed, outcome]
    exact resealValue_eq_already outcome
  | unreadable => exact absurd outcome read

end Rows

section Records

/-- The record names a key. -/
def Disk.Names (kcv : String) (disk : Disk) : Prop := disk.record.bind StoreRow.kcv = some kcv

instance (kcv : String) (disk : Disk) : Decidable (disk.Names kcv) := inferInstanceAs (Decidable (_ = _))

theorem lookup_insert_of (items : AList fun _ : String => ItemRow) (item other : String) (row : ItemRow) :
    (items.insert item row).lookup other = if other = item then some row else items.lookup other := by
  split
  · next same =>
    rw [same]
    exact AList.lookup_insert _
  · next different => exact AList.lookup_insert_ne different

theorem sealed_of_allItemsSealed {disk : Disk} (all : allItemsSealed disk) {item : String} {row : ItemRow}
    (found : disk.items.lookup item = some row) : row.state = .sealed :=
  of_decide_eq_true (List.all_eq_true.mp all _ (AList.mem_lookup_iff.mp found))

theorem kcv_owedRow (row : Option StoreRow) : (some (owedRow row)).bind StoreRow.kcv = row.bind StoreRow.kcv := by
  cases row with
  | none => rfl
  | some row =>
    rw [owedRow]
    cases row.state with
    | ok => rfl
    | vacuumPending =>
      simp only
      split <;> rfl

end Records

section Items

variable (crates : Crates) (cipher : ContentCipher) (plans chosen : List ColumnPlan)

/-- Every item that was ever planned is whole. -/
def HandedOver (disk : Disk) : Prop := ∀ plan ∈ plans, plan.item ∈ disk.traces.planned → Whole crates cipher plan disk

/-- What a migration of these plans may rely on in a store under a retired key: no value that does not open under
the current key was passed before, and whenever it works on an item, an item that is not sealed comes later, or every
item that was ever planned is on record by then or holds no value that is not fine. -/
structure Resumable (disk : Disk) : Prop where
  passed : ∀ plan ∈ plans, Behind (Row.Fine crates cipher plan) plan disk
  recorded : ∀ done plan rest, chosen = done ++ plan :: rest →
    (∀ cursor, disk.items.lookup plan.item ≠ some ⟨.sealed, cursor⟩) →
      (∃ item row, disk.items.lookup item = some row ∧ row.state ≠ .sealed ∧ ∀ other ∈ done ++ [plan], other.item ≠ item) ∨
      ∀ other ∈ plans, other.item ∈ disk.traces.planned ++ chosen.map ColumnPlan.item →
        (∃ row, disk.items.lookup other.item = some row) ∨ other ∈ done ++ [plan] ∨ Whole crates cipher other disk

/-- What holds in a migration that started with a disk and has worked on some items. -/
structure Handing (start : Disk) (done : List ColumnPlan) (clean : Prop) (disk : Disk) : Prop where
  keys : ∀ plan ∈ plans, ∀ row ∈ (disk.columns plan.item).rows, plan.Keyed row.key
  planned : disk.traces.planned = start.traces.planned ++ chosen.map ColumnPlan.item
  whole : ∀ plan ∈ plans, Whole crates cipher plan start → Whole crates cipher plan disk
  behind : clean → ∀ plan ∈ plans, Behind (Row.Fine crates cipher plan) plan disk
  kept : ∀ item, (∃ row, start.items.lookup item = some row) → ∃ row, disk.items.lookup item = some row
  untouched : ∀ item, (∀ plan ∈ done, plan.item ≠ item) → disk.items.lookup item = start.items.lookup item
  present : ∀ plan ∈ done, ∃ row, disk.items.lookup plan.item = some row
  moved : disk.Names cipher.current.rootKcv → HandedOver crates cipher plans disk

variable {crates cipher plans chosen} {env : Environment} {plan : ColumnPlan} {start disk next : Disk} {done : List ColumnPlan}
  {clean : Prop} {cursor : Option String} {report : MigrationReport} {result : Option String × MigrationReport × Bool}
  {after : Option Value}

namespace Handing

/-- A step that sets the item which is worked on and changes no cell. -/
theorem insert {worked : List ColumnPlan} (handing : Handing crates cipher plans chosen start done clean disk) (row : ItemRow)
    (distinct : (plans.map ColumnPlan.item).Nodup) (member : plan ∈ plans) (here : plan ∈ worked)
    (only : ∀ other ∈ worked, other ∈ done ∨ other = plan) (more : done ⊆ worked)
    (columns : next.columns = disk.columns) (planned : next.traces.planned = disk.traces.planned)
    (names : next.record.bind StoreRow.kcv = disk.record.bind StoreRow.kcv)
    (items : next.items = disk.items.insert plan.item row)
    (passed : clean → ∀ other ∈ (disk.columns plan.item).rows, Passed plan row other.key → other.Fine crates cipher plan) :
    Handing crates cipher plans chosen start worked clean next where
  keys other otherMember := columns ▸ handing.keys other otherMember
  planned := planned.trans handing.planned
  whole other otherMember whole := by
    rw [Whole, columns]
    exact handing.whole other otherMember whole
  behind isClean other otherMember item found := by
    rw [items, lookup_insert_of] at found
    rw [columns]
    split at found
    · next same =>
      obtain rfl := List.inj_on_of_nodup_map distinct otherMember member same
      obtain rfl := Option.some.inj found
      exact passed isClean
    · exact handing.behind isClean other otherMember item found
  kept item there := by
    rw [items, lookup_insert_of]
    split
    · exact ⟨row, rfl⟩
    · exact handing.kept item there
  untouched item fresh := by
    rw [items, lookup_insert_of, if_neg fun same => fresh plan here same.symm]
    exact handing.untouched item fun other otherMember => fresh other (more otherMember)
  present other otherMember := by
    rw [items, lookup_insert_of]
    split
    · exact ⟨row, rfl⟩
    · next different =>
      rcases only other otherMember with earlier | last
      · exact handing.present other earlier
      · exact absurd (congrArg ColumnPlan.item last) different
  moved named := by
    rw [Disk.Names, names] at named
    intro other otherMember wanted
    rw [planned] at wanted
    rw [Whole, columns]
    exact handing.moved named other otherMember wanted

end Handing

/-- A whole column stays whole. -/
theorem Whole.batched (opens : crates.Opens) (decodes : crates.Decodes) {other : ColumnPlan}
    (same : other.item = plan.item → other = plan) (whole : Whole crates cipher other disk)
    (batched : Batched crates env cipher plan cursor report disk result after next) : Whole crates cipher other next := by
  by_cases here : other.item = plan.item
  · obtain rfl := same here
    intro row member
    refine batched.forall_rows (fun source chosen => ?_) (fun source sourceMember _ _ => whole source sourceMember) row member rfl
    have fine := whole source (select_subset source chosen)
    rwa [resealed_of_settled opens decodes fine.settled]
  · rw [Whole, batched.others _ here]
    exact whole

/-- A batch in which every value is readable leaves its rows fine. -/
theorem fine_of_unreadable (opens : crates.Opens) (decodes : crates.Decodes)
    (batched : Batched crates env cipher plan cursor report disk result after next) (clean : result.2.1.unreadable = 0) :
    ∀ row ∈ (disk.columns plan.item).select after, (row.resealed crates env cipher plan).Fine crates cipher plan := by
  have none : ((disk.columns plan.item).select after).countP (fun row => reseal crates env cipher plan row = .unreadable) = 0 := by
    have count := batched.unreadable
    omega
  intro row member
  have read := List.countP_eq_zero.mp none row member
  exact fine_resealed opens decodes fun outcome => read (decide_eq_true outcome)

theorem Handing.batched (opens : crates.Opens) (decodes : crates.Decodes) (distinct : (plans.map ColumnPlan.item).Nodup)
    (member : plan ∈ plans) (here : plan ∈ done) (handing : Handing crates cipher plans chosen start done (report.unreadable = 0) disk)
    (item : disk.items.lookup plan.item = some ⟨.sealing, cursor⟩)
    (batched : Batched crates env cipher plan cursor report disk result after next) :
    Handing crates cipher plans chosen start done (result.2.1.unreadable = 0) next where
  keys other otherMember row rowMember := by
    by_cases same : other.item = plan.item
    · obtain rfl := List.inj_on_of_nodup_map distinct otherMember member same
      have key : row.key ∈ (next.columns other.item).rows.map Row.key := List.mem_map_of_mem rowMember
      rw [batched.keys] at key
      obtain ⟨source, sourceMember, sameKey⟩ := List.mem_map.mp key
      exact sameKey ▸ handing.keys other otherMember source sourceMember
    · rw [batched.others _ same] at rowMember
      exact handing.keys other otherMember row rowMember
  planned := batched.planned.trans handing.planned
  whole other otherMember whole :=
    (handing.whole other otherMember whole).batched opens decodes (List.inj_on_of_nodup_map distinct otherMember member) batched
  behind clean other otherMember := by
    have before : report.unreadable = 0 := by
      have count := batched.unreadable
      omega
    by_cases same : other.item = plan.item
    · obtain rfl := List.inj_on_of_nodup_map distinct otherMember member same
      exact batched.behind (handing.keys other otherMember) item (handing.behind before other otherMember)
        (fine_of_unreadable opens decodes batched clean)
    · intro row found
      rw [batched.items, lookup_insert_of, if_neg same] at found
      rw [batched.others _ same]
      exact handing.behind before other otherMember row found
  kept item there := by
    rw [batched.items, lookup_insert_of]
    split
    · exact ⟨_, rfl⟩
    · exact handing.kept item there
  untouched item fresh := by
    rw [batched.items, lookup_insert_of, if_neg fun same => fresh plan here same.symm]
    exact handing.untouched item fresh
  present other otherMember := by
    rw [batched.items, lookup_insert_of]
    split
    · exact ⟨_, rfl⟩
    · exact handing.present other otherMember
  moved named := by
    rw [Disk.Names, batched.record] at named
    intro other otherMember wanted
    rw [batched.planned] at wanted
    exact (handing.moved named other otherMember wanted).batched opens decodes
      (List.inj_on_of_nodup_map distinct otherMember member) batched

namespace Handing

variable {rest : List ColumnPlan}

/-- An item that is sealed already is on record. -/
theorem skip (handing : Handing crates cipher plans chosen start done clean disk) {row : ItemRow}
    (found : disk.items.lookup plan.item = some row) : Handing crates cipher plans chosen start (done ++ [plan]) clean disk where
  keys := handing.keys
  planned := handing.planned
  whole := handing.whole
  behind := handing.behind
  kept := handing.kept
  untouched item fresh := handing.untouched item fun other otherMember => fresh other (List.mem_append_left _ otherMember)
  present other otherMember := by
    rcases List.mem_append.mp otherMember with earlier | last
    · exact handing.present other earlier
    · exact (List.mem_singleton.mp last) ▸ ⟨row, found⟩
  moved := handing.moved

theorem recorded (handing : Handing crates cipher plans chosen start done clean disk) (kcv : String)
    (handed : HandedOver crates cipher plans disk) : Handing crates cipher plans chosen start done clean (disk.recorded kcv) :=
  { handing with moved := fun _ => handed }

/-- Where the record may move after an item, every planned item is whole. -/
theorem handedOver (handing : Handing crates cipher plans chosen start (done ++ [plan]) clean disk)
    (split : chosen = done ++ plan :: rest) (resumable : Resumable crates cipher plans chosen start)
    (unsealed : ∀ cursor, start.items.lookup plan.item ≠ some ⟨.sealed, cursor⟩) (isClean : clean) (all : allItemsSealed disk) :
    HandedOver crates cipher plans disk := by
  intro other otherMember wanted
  rw [handing.planned] at wanted
  have whole {row : ItemRow} (found : disk.items.lookup other.item = some row) : Whole crates cipher other disk :=
    fun value valueMember => handing.behind isClean other otherMember row found value valueMember
      (.inl (sealed_of_allItemsSealed all found))
  rcases resumable.recorded done plan rest split unsealed with ⟨item, row, found, open_, later⟩ | every
  · rw [← handing.untouched item later] at found
    exact absurd (sealed_of_allItemsSealed all found) open_
  · rcases every other otherMember wanted with there | worked | whole_
    · obtain ⟨row, found⟩ := handing.kept other.item there
      exact whole found
    · obtain ⟨row, found⟩ := handing.present other worked
      exact whole found
    · exact handing.whole other otherMember whole_

end Handing

variable (crates cipher plans) in
/-- What is known of a store wherever a migration stops. -/
structure Known (disk : Disk) : Prop where
  keys : ∀ plan ∈ plans, ∀ row ∈ (disk.columns plan.item).rows, plan.Keyed row.key
  moved : disk.Names cipher.current.rootKcv → HandedOver crates cipher plans disk

theorem Handing.known (handing : Handing crates cipher plans chosen start done clean disk) : Known crates cipher plans disk :=
  ⟨handing.keys, handing.moved⟩

variable (crates cipher plans chosen) in
/-- What holds while an item is worked on that was not sealed when the migration started. -/
structure Working (start : Disk) (done : List ColumnPlan) (plan : ColumnPlan) (clean : Prop) (disk : Disk) : Prop where
  handing : Handing crates cipher plans chosen start (done ++ [plan]) clean disk
  apart : ∀ other ∈ done, other.item ≠ plan.item
  sealed : ∀ other ∈ done, ∃ cursor, disk.items.lookup other.item = some ⟨.sealed, cursor⟩
  unsealed : ∀ cursor, start.items.lookup plan.item ≠ some ⟨.sealed, cursor⟩

/-- The items before stay sealed when the item is set. -/
theorem sealed_insert (apart : ∀ other ∈ done, other.item ≠ plan.item)
    (sealed : ∀ other ∈ done, ∃ cursor, disk.items.lookup other.item = some ⟨.sealed, cursor⟩) {row : ItemRow}
    (items : next.items = disk.items.insert plan.item row) :
    ∀ other ∈ done, ∃ cursor, next.items.lookup other.item = some ⟨.sealed, cursor⟩ := by
  intro other member
  rw [items, lookup_insert_of, if_neg (apart other member)]
  exact sealed other member

theorem mem_worked {other : ColumnPlan} (member : other ∈ done ++ [plan]) : other ∈ done ∨ other = plan :=
  (List.mem_append.mp member).imp_right List.mem_singleton.mp

/-- What the cursor of an item has passed is fine when the item starts. -/
theorem Handing.passed_started (handing : Handing crates cipher plans chosen start done clean disk) (member : plan ∈ plans)
    {row : ItemRow} (picked : (disk.items.lookup plan.item).getD ⟨.pending, none⟩ = row) (isClean : clean) :
    ∀ value ∈ (disk.columns plan.item).rows, Passed plan ⟨.sealing, row.cursor⟩ value.key → value.Fine crates cipher plan := by
  rintro value valueMember (ended | ⟨after, decoded, passed⟩)
  · cases ended
  · cases there : disk.items.lookup plan.item with
    | none =>
      rw [there, Option.getD_none] at picked
      rw [← picked] at decoded
      obtain rfl := Except.ok.inj decoded
      cases passed
    | some old =>
      rw [there, Option.getD_some] at picked
      subst picked
      exact handing.behind isClean plan member old there value valueMember (.inr ⟨after, decoded, passed⟩)

/-- An item that is not sealed starts. -/
theorem Handing.started (handing : Handing crates cipher plans chosen start done clean disk)
    (distinct : (plans.map ColumnPlan.item).Nodup) (member : plan ∈ plans)
    (sealed : ∀ other ∈ done, ∃ cursor, disk.items.lookup other.item = some ⟨.sealed, cursor⟩) {row : ItemRow}
    (picked : (disk.items.lookup plan.item).getD ⟨.pending, none⟩ = row) (unsealed : row.state ≠ .sealed) :
    Working crates cipher plans chosen start done plan clean (disk.started plan row.cursor) := by
  have unsealed (cursor : Option String) : disk.items.lookup plan.item ≠ some ⟨.sealed, cursor⟩ := by
    intro found
    rw [found, Option.getD_some] at picked
    exact unsealed (picked ▸ rfl)
  have apart : ∀ other ∈ done, other.item ≠ plan.item := by
    intro other otherMember same
    obtain ⟨cursor, found⟩ := sealed other otherMember
    exact unsealed cursor (same ▸ found)
  have items : (disk.started plan row.cursor).items = disk.items.insert plan.item ⟨.sealing, row.cursor⟩ := rfl
  exact
    { handing := handing.insert ⟨.sealing, row.cursor⟩ distinct member
        (List.mem_append_right _ (List.mem_singleton_self plan)) (fun other => mem_worked) (List.subset_append_left _ _) rfl rfl
        (kcv_owedRow _) items (handing.passed_started member picked)
      apart
      sealed := sealed_insert apart sealed items
      unsealed := fun cursor => handing.untouched plan.item apart ▸ unsealed cursor }

namespace Working

theorem known (working : Working crates cipher plans chosen start done plan clean disk) : Known crates cipher plans disk :=
  working.handing.known

/-- A batch keeps what holds. -/
theorem batched (opens : crates.Opens) (decodes : crates.Decodes) (distinct : (plans.map ColumnPlan.item).Nodup)
    (member : plan ∈ plans) (working : Working crates cipher plans chosen start done plan (report.unreadable = 0) disk)
    (found : disk.items.lookup plan.item = some ⟨.sealing, cursor⟩)
    (batched : Batched crates env cipher plan cursor report disk result after next) :
    Working crates cipher plans chosen start done plan (result.2.1.unreadable = 0) next where
  handing := working.handing.batched opens decodes distinct member
    (List.mem_append_right _ (List.mem_singleton_self plan)) found batched
  apart := working.apart
  sealed := sealed_insert working.apart working.sealed batched.items
  unsealed := working.unsealed

/-- The last batch leaves the column whole when every value was readable. -/
theorem whole_batched (opens : crates.Opens) (decodes : crates.Decodes) (member : plan ∈ plans)
    (working : Working crates cipher plans chosen start done plan (report.unreadable = 0) disk)
    (found : disk.items.lookup plan.item = some ⟨.sealing, cursor⟩)
    (batched : Batched crates env cipher plan cursor report disk result after next) (last : result.2.2 = false)
    (clean : result.2.1.unreadable = 0) : Whole crates cipher plan next := by
  have before : report.unreadable = 0 := by
    have count := batched.unreadable
    omega
  exact batched.finished found (working.handing.behind before plan member) (fine_of_unreadable opens decodes batched clean) last

/-- The item is closed, and the record moves only when every planned item is whole. -/
theorem closed {rest : List ColumnPlan} (distinct : (plans.map ColumnPlan.item).Nodup) (member : plan ∈ plans)
    (split : chosen = done ++ plan :: rest) (resumable : Resumable crates cipher plans chosen start)
    (working : Working crates cipher plans chosen start done plan (report.unreadable = 0) disk)
    (whole : report.unreadable = 0 → Whole crates cipher plan disk) (wasRetired : Bool) :
    let closed := disk.closed plan wasRetired report cipher.current.rootKcv
    Handing crates cipher plans chosen start (done ++ [plan]) (report.unreadable = 0) closed ∧
      ∀ other ∈ done ++ [plan], ∃ cursor, closed.items.lookup other.item = some ⟨.sealed, cursor⟩ := by
  have items : (disk.finished plan).items = disk.items.insert plan.item ⟨.sealed, none⟩ := rfl
  have finished : Handing crates cipher plans chosen start (done ++ [plan]) (report.unreadable = 0) (disk.finished plan) :=
    working.handing.insert ⟨.sealed, none⟩ distinct member (List.mem_append_right _ (List.mem_singleton_self plan))
      (fun _ => .inl) (List.Subset.refl _) rfl rfl rfl items fun clean value valueMember _ => whole clean value valueMember
  have ended (other : ColumnPlan) (otherMember : other ∈ done ++ [plan]) :
      ∃ cursor, (disk.finished plan).items.lookup other.item = some ⟨.sealed, cursor⟩ := by
    rcases mem_worked otherMember with earlier | same
    · exact sealed_insert working.apart working.sealed items other earlier
    · exact same ▸ ⟨none, AList.lookup_insert _⟩
  intro closed
  simp only [closed, Disk.closed]
  split
  · next moves =>
    exact ⟨finished.recorded _ (finished.handedOver split resumable working.unsealed moves.2.1 moves.2.2), ended⟩
  · exact ⟨finished, ended⟩

end Working

theorem leaves_migrateItem_handing (opens : crates.Opens) (decodes : crates.Decodes) (distinct : (plans.map ColumnPlan.item).Nodup)
    (member : plan ∈ plans) {rest : List ColumnPlan} (split : chosen = done ++ plan :: rest)
    (resumable : Resumable crates cipher plans chosen start) {wasRetired : Bool}
    (handing : Handing crates cipher plans chosen start done (report.unreadable = 0) disk)
    (sealed : ∀ other ∈ done, ∃ cursor, disk.items.lookup other.item = some ⟨.sealed, cursor⟩) :
    Leaves (fun report target => Handing crates cipher plans chosen start (done ++ [plan]) (report.unreadable = 0) target ∧
        ∀ other ∈ done ++ [plan], ∃ cursor, target.items.lookup other.item = some ⟨.sealed, cursor⟩)
      (Known crates cipher plans) (migrateItem crates env cipher wasRetired report plan) disk := by
  refine @leaves_migrateItem crates env cipher plan _
    (fun _ cursor report target => Working crates cipher plans chosen start done plan (report.unreadable = 0) target ∧
      target.items.lookup plan.item = some ⟨.sealing, cursor⟩)
    (fun report target => Working crates cipher plans chosen start done plan (report.unreadable = 0) target ∧
      (report.unreadable = 0 → Whole crates cipher plan target))
    _ disk report wasRetired ?_ ?_ ?_ ?_ ?_ ?_ ?_ ?_ ?_
  · exact fun _ => handing.known
  · intro cursor found
    refine ⟨handing.skip found, fun other otherMember => ?_⟩
    rcases mem_worked otherMember with earlier | same
    · exact sealed other earlier
    · exact same ▸ ⟨cursor, found⟩
  · exact fun row picked unsealed => ⟨handing.started distinct member sealed picked unsealed, AList.lookup_insert _⟩
  · exact fun _ _ _ _ held _ => held.1.known
  · exact fun _ _ _ _ _ held _ => held.1.known
  · exact fun _ _ _ held => held.1.known
  · rintro fuel cursor report target result after next ⟨working, found⟩ batched
    have onward := working.batched opens decodes distinct member found batched
    split
    · exact ⟨onward, batched.lookup⟩
    · next short =>
      exact ⟨onward, working.whole_batched opens decodes member found batched (Bool.eq_false_iff.mpr short)⟩
  · exact fun _ _ held _ => held.1.known
  · exact fun report target held => held.1.closed distinct member split resumable held.2 wasRetired

end Items

section Runs

variable {crates : Crates} {cipher : ContentCipher} {plans chosen : List ColumnPlan} {env : Environment} {disk : Disk}
  {call : StoreCall}

/-- A record of a retired key does not name the current one. -/
theorem not_names_of_retired (retired : disk.KeyedAs cipher .retired) : ¬ disk.Names cipher.current.rootKcv := by
  intro named
  obtain ⟨row, kcv, recorded, keyed, matched⟩ := retired
  rw [Disk.Names, recorded, Option.bind_some, keyed] at named
  obtain rfl := Option.some.inj named
  rw [ContentCipher.matchKcv, if_pos rfl] at matched
  cases matched

theorem KeyedAs.unique {one other : KcvMatch} (first : disk.KeyedAs cipher one) (second : disk.KeyedAs cipher other) :
    one = other := by
  obtain ⟨row, kcv, recorded, keyed, matched⟩ := first
  obtain ⟨row', kcv', recorded', keyed', matched'⟩ := second
  obtain rfl := Option.some.inj (recorded.symm.trans recorded')
  obtain rfl := Option.some.inj (keyed.symm.trans keyed')
  exact matched.symm.trans matched'

/-- A migration of a store under a retired key moves the record only when every planned item is whole. -/
theorem leaves_migrateColumns_handing (opens : crates.Opens) (decodes : crates.Decodes)
    (distinct : (plans.map ColumnPlan.item).Nodup) (among : chosen ⊆ plans)
    (keys : ∀ plan ∈ plans, ∀ row ∈ (disk.columns plan.item).rows, plan.Keyed row.key)
    (retired : disk.KeyedAs cipher .retired) (resumable : Resumable crates cipher plans chosen disk) :
    Leaves (fun _ => Known crates cipher plans) (Known crates cipher plans) (migrateColumns crates env cipher chosen) disk := by
  have start : Handing crates cipher plans chosen disk [] (({} : MigrationReport).unreadable = 0) (disk.noted chosen) :=
    { keys := keys
      planned := rfl
      whole := fun _ _ whole => whole
      behind := fun _ => resumable.passed
      kept := fun _ there => there
      untouched := fun _ _ => rfl
      present := fun _ none => by cases none
      moved := fun named => absurd named (not_names_of_retired retired) }
  have known := start.known
  have unkeyed {held : Prop} (unkeyed : disk.Unkeyed) : held := by
    obtain ⟨row, kcv, recorded, keyed, -⟩ := retired
    cases (unkeyed row recorded).symm.trans keyed
  refine (@leaves_migrateColumns crates env cipher _ disk chosen (fun _ done report target =>
    Handing crates cipher plans chosen disk done (report.unreadable = 0) target ∧
      ∀ other ∈ done, ∃ cursor, target.items.lookup other.item = some ⟨.sealed, cursor⟩)
    (fun _ => known) (fun _ => known) (fun _ => known) (fun _ none => unkeyed none) (fun _ => known) ?_ ?_).imp
    fun _ _ held => held.elim fun _ held => held.1.known
  · intro state target checked admitted
    cases state with
    | recorded => exact unkeyed checked.1
    | current => cases KeyedAs.unique retired checked.1
    | retired => exact checked.2 ▸ ⟨start, fun other none => by cases none⟩
    | mismatch kcv => exact absurd rfl (admitted kcv)
  · intro wasRetired done plan rest report target split held
    have here : plan ∈ chosen := split ▸ List.mem_append_right _ List.mem_cons_self
    exact leaves_migrateItem_handing opens decodes distinct (among here) split resumable held.1 held.2

/-- The keys of every column are those of a disk. -/
def SameKeys (source disk : Disk) : Prop := ∀ item, (disk.columns item).rows.map Row.key = (source.columns item).rows.map Row.key

theorem leaves_migrateColumns_keys {source : Disk} (same : SameKeys source disk) :
    Leaves (fun _ => SameKeys source) (SameKeys source) (migrateColumns crates env cipher chosen) disk := by
  refine (@leaves_migrateColumns crates env cipher _ disk chosen (fun _ _ _ => SameKeys source) (fun _ => same) (fun _ => same)
    (fun _ => same) (fun _ _ => same) (fun _ => same) ?_ ?_).imp fun _ _ held => held.elim fun _ held => held
  · intro state target checked admitted
    cases state with
    | recorded => exact checked.2 ▸ same
    | current => exact checked.2 ▸ same
    | retired => exact checked.2 ▸ same
    | mismatch kcv => exact absurd rfl (admitted kcv)
  · intro wasRetired done plan rest report target _ here
    refine @leaves_migrateItem crates env cipher plan _ (fun _ _ _ => SameKeys source) (fun _ => SameKeys source) _ target report
      wasRetired (fun _ => here) (fun _ _ => here) (fun _ _ _ => here) (fun _ _ _ _ held _ => held) (fun _ _ _ _ _ held _ => held)
      (fun _ _ _ held => held) ?_ (fun _ _ held _ => held) ?_
    · intro fuel cursor report disk result after next held batched
      have keys : SameKeys source next := by
        intro item
        by_cases same : item = plan.item
        · rw [same, batched.keys]
          exact held plan.item
        · rw [batched.others _ same]
          exact held item
      split <;> exact keys
    · intro report target held
      rw [Disk.closed]
      split <;> exact held

/-- The calls that migrate a store. -/
def StoreCall.Migrates : StoreCall → Prop
  | .checkStoreKey | .resetItems _ | .migrateColumns _ => True
  | .finishStore _ | .runPendingVacuum _ => False

theorem keys_run {source : Disk} (migrates : call.Migrates) (same : SameKeys source disk) :
    SameKeys source (call.run crates cipher env disk) := by
  refine run_of_leaves ?_
  cases call with
  | checkStoreKey =>
    refine (@leaves_checkStoreKey env cipher _ disk (fun _ => same) (fun _ _ => same) fun _ => same).bind
      fun state target checked => Leaves.pure ?_
    cases state with
    | recorded => exact checked.2 ▸ same
    | current => exact checked.2 ▸ same
    | retired => exact checked.2 ▸ same
    | mismatch kcv => exact checked.2 ▸ same
  | resetItems chosen => exact leaves_resetItems same fun _ _ _ held => held
  | migrateColumns chosen => exact (leaves_migrateColumns_keys same).bind fun _ _ held => Leaves.pure held
  | finishStore policy => exact migrates.elim
  | runPendingVacuum policy => exact migrates.elim

theorem keys_runCalls {source : Disk} (calls : List (Environment × StoreCall)) (migrates : ∀ call ∈ calls, call.2.Migrates)
    (same : SameKeys source disk) : SameKeys source (runCalls crates cipher calls disk) := by
  induction calls generalizing disk with
  | nil => exact same
  | cons call rest ih =>
    refine ih (fun other member => migrates other (List.mem_cons_of_mem _ member)) ?_
    exact keys_run (migrates call List.mem_cons_self) same

/-- In every run of which each migration of a store under a retired key is resumable, a migration that moves the record
to the current key, cut off or not, leaves every value of every item that was ever planned NULL or open under it. -/
theorem record_moves_when_whole (opens : crates.Opens) (decodes : crates.Decodes) (distinct : (plans.map ColumnPlan.item).Nodup)
    (keyed : ∀ plan ∈ plans, ∀ row ∈ (disk.columns plan.item).rows, plan.Keyed row.key)
    (calls : List (Environment × StoreCall)) (migrates : ∀ call ∈ calls, call.2.Migrates)
    (among : ∀ call ∈ calls, call.2.plans ⊆ plans)
    (meets : ∀ before env chosen after, calls = before ++ (env, .migrateColumns chosen) :: after →
      (runCalls crates cipher before disk).KeyedAs cipher .retired →
        Resumable crates cipher plans chosen (runCalls crates cipher before disk)) :
    ∀ before env chosen after, calls = before ++ (env, .migrateColumns chosen) :: after →
      (runCalls crates cipher before disk).KeyedAs cipher .retired →
      (runCalls crates cipher (before ++ [(env, .migrateColumns chosen)]) disk).Names cipher.current.rootKcv →
        ∀ plan ∈ plans, plan.item ∈ (runCalls crates cipher (before ++ [(env, .migrateColumns chosen)]) disk).traces.planned →
          ∀ row ∈ ((runCalls crates cipher (before ++ [(env, .migrateColumns chosen)]) disk).columns plan.item).rows,
            row.value = .null ∨ ∃ plain, row.OpensTo crates cipher plan plain := by
  intro before env chosen after split retired moved
  have here : (env, StoreCall.migrateColumns chosen) ∈ calls := split ▸ List.mem_append_right _ List.mem_cons_self
  have earlier : ∀ call ∈ before, call.2.Migrates := fun call member => migrates call (split ▸ List.mem_append_left _ member)
  have keys : ∀ plan ∈ plans, ∀ row ∈ ((runCalls crates cipher before disk).columns plan.item).rows, plan.Keyed row.key := by
    intro plan member row rowMember
    have key : row.key ∈ ((runCalls crates cipher before disk).columns plan.item).rows.map Row.key := List.mem_map_of_mem rowMember
    have same : SameKeys disk (runCalls crates cipher before disk) := keys_runCalls before earlier fun _ => rfl
    rw [same plan.item] at key
    obtain ⟨source, sourceMember, sameKey⟩ := List.mem_map.mp key
    exact sameKey ▸ keyed plan member source sourceMember
  have leaves := @leaves_migrateColumns_handing crates cipher plans chosen env _ opens decodes distinct (among _ here) keys retired
    (meets before env chosen after split retired)
  have known : Known crates cipher plans ((StoreCall.migrateColumns chosen).run crates cipher env
      (runCalls crates cipher before disk)) := run_of_leaves (leaves.bind fun _ _ held => Leaves.pure held)
  rw [runCalls, List.foldl_append] at moved ⊢
  exact known.moved moved

theorem KeyedAs.of_names {kcv : String} {found : KcvMatch} (named : disk.Names kcv) (matched : cipher.matchKcv kcv = found) :
    disk.KeyedAs cipher found := by
  obtain ⟨row, recorded, keyed⟩ := Option.bind_eq_some_iff.mp named
  exact ⟨row, kcv, recorded, keyed, matched⟩

/-- A run that meets an unreadable value and a later one that has one more item move the record past the value. -/
theorem record_moves_too_early :
    let first : Environment × StoreCall := (Sample.fair, .migrateColumns [Sample.messages])
    let second : Environment × StoreCall := (Sample.fair, .migrateColumns [Sample.messages, Sample.files])
    let before := runCalls Sample.crates Sample.cipher [first] (Sample.disk (some "k5"))
    let after := runCalls Sample.crates Sample.cipher [first, second] (Sample.disk (some "k5"))
    before.KeyedAs Sample.cipher .retired ∧ after.Names Sample.cipher.current.rootKcv ∧
      Sample.messages.item ∈ after.traces.planned ∧ ∃ row ∈ (after.columns Sample.messages.item).rows,
        ¬ (row.value = .null ∨ ∃ plain, row.OpensTo Sample.crates Sample.cipher Sample.messages plain) := by
  intro first second before after
  have named : before.Names "k5" := by decide +kernel
  have moved : after.Names Sample.cipher.current.rootKcv := by decide +kernel
  have planned : Sample.messages.item ∈ after.traces.planned := by decide +kernel
  have there : (⟨.integer 10, .text "encb:v1:", []⟩ : Row) ∈ (after.columns Sample.messages.item).rows := by decide +kernel
  refine ⟨KeyedAs.of_names named (by decide +kernel), moved, planned, _, there, ?_⟩
  rintro (null | ⟨plain, text, shown, value, -, opened⟩)
  · cases null
  · have refused : (ContentCipher.openText Sample.crates Sample.cipher "encb:v1:"
        (Sample.messages.contextFor ⟨.integer 10, .text "encb:v1:", []⟩)).isOk = false := by decide +kernel
    rw [← Option.some.inj shown] at opened
    rw [opened] at refused
    cases refused

/-- A store of one item is migrated to the current key in one run. -/
theorem record_moves_when_whole_files :
    (runCalls Sample.crates Sample.cipher [(Sample.fair, .migrateColumns [Sample.files])] (Sample.disk (some "k5"))).Names
      Sample.cipher.current.rootKcv ∧
    ∀ row ∈ ((runCalls Sample.crates Sample.cipher [(Sample.fair, .migrateColumns [Sample.files])]
        (Sample.disk (some "k5"))).columns Sample.files.item).rows,
      row.value = .null ∨ ∃ plain, row.OpensTo Sample.crates Sample.cipher Sample.files plain := by
  have keyed : ∀ plan ∈ [Sample.files], ∀ row ∈ ((Sample.disk (some "k5")).columns plan.item).rows, plan.Keyed row.key :=
    fun plan member => Sample.unmigrated.keyed plan (List.mem_cons_of_mem _ member)
  have migrates : ∀ call ∈ [(Sample.fair, StoreCall.migrateColumns [Sample.files])], call.2.Migrates := by
    intro call member
    obtain rfl := List.mem_singleton.mp member
    trivial
  have among : ∀ call ∈ [(Sample.fair, StoreCall.migrateColumns [Sample.files])], call.2.plans ⊆ [Sample.files] := by
    intro call member
    obtain rfl := List.mem_singleton.mp member
    exact List.Subset.refl _
  have resumable : Resumable Sample.crates Sample.cipher [Sample.files] [Sample.files] (Sample.disk (some "k5")) := by
    constructor
    · intro plan _ item found
      cases found
    · intro done plan rest split _
      refine .inr fun other member _ => .inr (.inl ?_)
      rcases done with _ | ⟨head, done⟩
      · obtain ⟨rfl, -⟩ := List.cons.inj split
        exact member
      · cases (List.append_eq_nil_iff.mp (List.cons.inj split).2.symm).2
  have meets : ∀ before env chosen after, [(Sample.fair, StoreCall.migrateColumns [Sample.files])] =
      before ++ (env, .migrateColumns chosen) :: after →
      (runCalls Sample.crates Sample.cipher before (Sample.disk (some "k5"))).KeyedAs Sample.cipher .retired →
        Resumable Sample.crates Sample.cipher [Sample.files] chosen
          (runCalls Sample.crates Sample.cipher before (Sample.disk (some "k5"))) := by
    intro before env chosen after split _
    rcases before with _ | ⟨head, before⟩
    · obtain ⟨same, -⟩ := List.cons.inj split
      rw [← StoreCall.migrateColumns.inj (Prod.mk.inj same).2]
      exact resumable
    · cases (List.append_eq_nil_iff.mp (List.cons.inj split).2.symm).2
  have retired : (Sample.disk (some "k5")).KeyedAs Sample.cipher .retired := by
    have named : (Sample.disk (some "k5")).Names "k5" := rfl
    exact KeyedAs.of_names named (by decide +kernel)
  have distinct : ([Sample.files].map ColumnPlan.item).Nodup := List.nodup_singleton _
  have run := record_moves_when_whole Sample.opens Sample.decodes distinct keyed _ migrates among meets []
    Sample.fair [Sample.files] [] rfl retired
  rw [List.nil_append] at run
  have moved : (runCalls Sample.crates Sample.cipher [(Sample.fair, .migrateColumns [Sample.files])]
    (Sample.disk (some "k5"))).Names Sample.cipher.current.rootKcv := by decide +kernel
  have planned : Sample.files.item ∈ (runCalls Sample.crates Sample.cipher [(Sample.fair, .migrateColumns [Sample.files])]
    (Sample.disk (some "k5"))).traces.planned := by decide +kernel
  exact ⟨moved, run moved Sample.files List.mem_cons_self planned⟩

end Runs

end RyuRooms.Crypto
