import RyuRooms.Crypto.Compaction
import RyuRooms.Crypto.Progress

/-! # What a migration does to a store

`Progress` relates the rows of a planned column to the rows it had before the first run: a row is as it was,
or its value was sealed from what it read as, and no row that the item has passed is sealed again. Every
transaction of every call keeps it, so it holds wherever a run is cut off; a run that returns has passed
every row of every item that it was given.
-/

namespace RyuRooms.Crypto

open Foundation

section Rows

variable (crates : Crates) (cipher : ContentCipher) (plan : ColumnPlan)

/-- What a store with the key reads from a row. -/
def Row.reads (row : Row) : Option Bytes := row.value.reads crates cipher plan.kind (plan.contextFor row)

/-- The value of a row opens under the current key. -/
def Row.OpensTo (plain : Bytes) (row : Row) : Prop := row.value.OpensTo crates cipher plan.kind (plan.contextFor row) plain

/-- No migration changes the row. -/
def Row.Settled (row : Row) : Prop :=
  row.value = .null ∨ (∃ plain, row.OpensTo crates cipher plan plain) ∨ row.reads crates cipher plan = none

/-- A row whose value was sealed, if it is a BLOB, by `seal_bytes`. -/
def Row.Ready (row : Row) : Prop :=
  row.Settled crates cipher plan ∨ (plan.kind = .blob → row.value.Genuine crates cipher (plan.contextFor row))

/-- What may have become of a row. -/
structure Row.Becomes (old new : Row) : Prop where
  key : new.key = old.key
  extras : new.extras = old.extras
  value : new = old ∨ ¬ old.Settled crates cipher plan ∧ new.value.IsOf plan.kind ∧
    ∃ plain, old.reads crates cipher plan = some plain ∧ new.OpensTo crates cipher plan plain

/-- What has become of a row when the migration is complete. -/
structure Row.Migrated (old new : Row) : Prop where
  key : new.key = old.key
  extras : new.extras = old.extras
  kind : new.value = old.value ∨ new.value.IsOf plan.kind
  current : (∃ plain, old.OpensTo crates cipher plan plain) → new.value = old.value
  unread : old.reads crates cipher plan = none → new.value = old.value
  opens : ∀ plain, old.reads crates cipher plan = some plain → new.OpensTo crates cipher plan plain

variable {crates cipher plan} {env : Environment} {old row new : Row}

theorem contextFor_resealed (row : Row) : plan.contextFor (row.resealed crates env cipher plan) = plan.contextFor row := by
  rw [ColumnPlan.contextFor, ColumnPlan.contextFor, key_resealed, extras_resealed]

theorem Row.Becomes.refl (row : Row) : Row.Becomes crates cipher plan row row := ⟨rfl, rfl, .inl rfl⟩

theorem reseal_of_settled (opens : crates.Opens) (decodes : crates.Decodes) (settled : row.Settled crates cipher plan)
    (sealed : Value) : reseal crates env cipher plan row ≠ .sealed sealed := by
  intro outcome
  obtain ⟨-, plain, reads, -⟩ := resealValue_eq_sealed opens decodes outcome
  rcases settled with null | ⟨plain, opened⟩ | unread
  · rw [null, reads_null] at reads
    cases reads
  · rw [reseal, resealValue_of_opensTo opened] at outcome
    cases outcome
  · exact Option.some_ne_none _ (reads.symm.trans unread)

/-- A settled row stays as it is. -/
theorem resealed_of_settled (opens : crates.Opens) (decodes : crates.Decodes) (settled : row.Settled crates cipher plan) :
    row.resealed crates env cipher plan = row := by
  rw [Row.resealed]
  split
  · next sealed outcome => exact absurd outcome (reseal_of_settled opens decodes settled sealed)
  · rfl
  · rfl

/-- A row that is resealed is sealed from what it read as. -/
theorem opensTo_resealed (opens : crates.Opens) (decodes : crates.Decodes) {sealed : Value}
    (outcome : reseal crates env cipher plan row = .sealed sealed) :
    (row.resealed crates env cipher plan).value.IsOf plan.kind ∧ ∃ plain, row.reads crates cipher plan = some plain ∧
      (row.resealed crates env cipher plan).OpensTo crates cipher plan plain := by
  obtain ⟨kind, plain, reads, opened⟩ := resealValue_eq_sealed opens decodes outcome
  have value : (row.resealed crates env cipher plan).value = sealed := by rw [Row.resealed, outcome]
  simp only [Row.OpensTo, contextFor_resealed, value]
  exact ⟨kind, plain, reads, opened⟩

theorem becomes_resealed (opens : crates.Opens) (decodes : crates.Decodes) (becomes : Row.Becomes crates cipher plan old row) :
    Row.Becomes crates cipher plan old (row.resealed crates env cipher plan) := by
  refine ⟨(key_resealed row).trans becomes.key, (extras_resealed row).trans becomes.extras, ?_⟩
  by_cases settled : row.Settled crates cipher plan
  · rw [resealed_of_settled opens decodes settled]
    exact becomes.value
  · rcases becomes.value with rfl | ⟨-, -, plain, -, opened⟩
    · cases outcome : reseal crates env cipher plan row with
      | sealed sealed =>
        exact .inr ⟨settled, opensTo_resealed opens decodes outcome⟩
      | already => exact .inl (by rw [Row.resealed, outcome])
      | unreadable => exact .inl (by rw [Row.resealed, outcome])
    · exact absurd (.inr (.inl ⟨plain, opened⟩)) settled

theorem settled_resealed (opens : crates.Opens) (decodes : crates.Decodes) (ready : row.Ready crates cipher plan) :
    (row.resealed crates env cipher plan).Settled crates cipher plan := by
  rcases ready with settled | genuine
  · rwa [resealed_of_settled opens decodes settled]
  · cases outcome : reseal crates env cipher plan row with
    | sealed sealed =>
      obtain ⟨-, plain, -, opened⟩ := opensTo_resealed opens decodes outcome
      exact .inr (.inl ⟨plain, opened⟩)
    | already =>
      rw [Row.resealed, outcome]
      rcases resealValue_eq_already outcome with null | opened
      · exact .inl null
      · exact .inr (.inl opened)
    | unreadable =>
      rw [Row.resealed, outcome]
      exact .inr (.inr (resealValue_eq_unreadable genuine outcome))

namespace Row.Becomes

theorem ready (becomes : Row.Becomes crates cipher plan old new) (ready : old.Ready crates cipher plan) :
    new.Ready crates cipher plan := by
  rcases becomes.value with rfl | ⟨-, -, plain, -, opened⟩
  · exact ready
  · exact .inl (.inr (.inl ⟨plain, opened⟩))

/-- A settled row is what the migration makes of the row it comes from. -/
theorem migrated (becomes : Row.Becomes crates cipher plan old new) (settled : new.Settled crates cipher plan) :
    Row.Migrated crates cipher plan old new := by
  refine ⟨becomes.key, becomes.extras, ?_, fun opened => ?_, fun unread => ?_, fun plain reads => ?_⟩
  · exact becomes.value.imp (congrArg Row.value) fun sealed => sealed.2.1
  · rcases becomes.value with rfl | ⟨unsettled, -⟩
    · rfl
    · exact absurd (.inr (.inl opened)) unsettled
  · rcases becomes.value with rfl | ⟨-, -, plain, reads, -⟩
    · rfl
    · exact absurd (reads.symm.trans unread) (Option.some_ne_none _)
  · rcases becomes.value with rfl | ⟨-, -, other, otherReads, opened⟩
    · rcases settled with null | ⟨other, opened⟩ | unread
      · rw [Row.reads, null, reads_null] at reads
        cases reads
      · have same := (OpensTo.reads opened).symm.trans reads
        exact Option.some.inj same ▸ opened
      · exact absurd (reads.symm.trans unread) (Option.some_ne_none _)
    · exact Option.some.inj (otherReads.symm.trans reads) ▸ opened

end Row.Becomes

end Rows

theorem exists_of_forall₂ {α β : Type} {related : α → β → Prop} {olds : List α} {news : List β}
    (all : List.Forall₂ related olds news) : ∀ new ∈ news, ∃ old ∈ olds, related old new := by
  induction all with
  | nil => exact fun new member => by cases member
  | cons first _ ih =>
    rintro new (_ | ⟨_, member⟩)
    · exact ⟨_, List.mem_cons_self, first⟩
    · obtain ⟨old, oldMember, related⟩ := ih new member
      exact ⟨old, List.mem_cons_of_mem _ oldMember, related⟩

/-- A relation of two lists may use what is known of their members. -/
theorem forall₂_of_mem {α β : Type} {related kept : α → β → Prop} {olds : List α} {news : List β}
    (all : List.Forall₂ related olds news) (each : ∀ old ∈ olds, ∀ new ∈ news, related old new → kept old new) :
    List.Forall₂ kept olds news := by
  induction all with
  | nil => exact .nil
  | cons first _ ih =>
    refine .cons (each _ List.mem_cons_self _ List.mem_cons_self first) (ih fun old oldMember new newMember => ?_)
    exact each old (List.mem_cons_of_mem _ oldMember) new (List.mem_cons_of_mem _ newMember)

section Cells

variable {crates : Crates} {env : Environment} {cipher : ContentCipher} {plan : ColumnPlan} {column : Column}
  {after : Option Value} {key : Value}

theorem mem_sealedCells {batch : List Row} (member : (plan.item, key) ∈ sealedCells crates env cipher plan batch) :
    ∃ row ∈ batch, row.key = key ∧ ∃ sealed, reseal crates env cipher plan row = .sealed sealed := by
  obtain ⟨row, chosen, same⟩ := List.mem_map.mp member
  obtain ⟨rowMember, outcome⟩ := List.mem_filter.mp chosen
  refine ⟨row, rowMember, (Prod.mk.inj same).2, ?_⟩
  split at outcome
  · next sealed resealed => exact ⟨sealed, resealed⟩
  · cases outcome
  · cases outcome

theorem count_sealedCells_le : (sealedCells crates env cipher plan (column.select after)).count (plan.item, key) ≤ 1 := by
  refine List.nodup_iff_count_le_one.mp (List.pairwise_map.mpr ?_) _
  have ordered : (column.select after).Pairwise fun left right => left.key.before right.key :=
    (column.ordered.filter _).sublist (List.take_sublist _ _)
  refine (ordered.filter _).imp fun before same => ?_
  rw [(Prod.mk.inj same).2, Value.before_irrefl] at before
  cases before

theorem count_sealedCells_other {item : String} (different : item ≠ plan.item) (batch : List Row) :
    (sealedCells crates env cipher plan batch).count (item, key) = 0 := by
  refine List.count_eq_zero.mpr fun member => ?_
  obtain ⟨row, -, same⟩ := List.mem_map.mp member
  exact different (Prod.mk.inj same).1.symm

end Cells

section Progress

variable (crates : Crates) (cipher : ContentCipher) (plan : ColumnPlan)

/-- How far the migration of a planned column has come since a disk. -/
structure Progress (source disk : Disk) : Prop where
  rows : List.Forall₂ (Row.Becomes crates cipher plan) (source.columns plan.item).rows (disk.columns plan.item).rows
  behind : Behind (Row.Settled crates cipher plan) plan disk
  cursor : ∀ item, disk.items.lookup plan.item = some item → ∃ after, item.cursor.mapM plan.cursorValue = .ok after
  once : ∀ key, disk.traces.sealed.count (plan.item, key) ≤ 1
  sealed : ∀ row ∈ (disk.columns plan.item).rows, 0 < disk.traces.sealed.count (plan.item, row.key) →
    row.Settled crates cipher plan

/-- The rows of a planned column are such as the migration expects. -/
structure Fits (disk : Disk) : Prop where
  keyed : ∀ row ∈ (disk.columns plan.item).rows, plan.Keyed row.key
  ready : ∀ row ∈ (disk.columns plan.item).rows, row.Ready crates cipher plan

variable {crates cipher plan} {env : Environment} {source disk next : Disk} {cursor : Option String}
  {report : MigrationReport} {result : Option String × MigrationReport × Bool} {after : Option Value}

namespace Progress

theorem fits (progress : Progress crates cipher plan source disk) (fits : Fits crates cipher plan source) :
    Fits crates cipher plan disk := by
  constructor
  · intro row member
    obtain ⟨old, oldMember, becomes⟩ := exists_of_forall₂ progress.rows row member
    exact becomes.key.symm ▸ fits.keyed old oldMember
  · intro row member
    obtain ⟨old, oldMember, becomes⟩ := exists_of_forall₂ progress.rows row member
    exact becomes.ready (fits.ready old oldMember)

/-- What has come so far may be where the rest starts. -/
theorem rebase (progress : Progress crates cipher plan source disk) : Progress crates cipher plan disk disk :=
  { progress with rows := List.forall₂_same.mpr fun row _ => .refl row }

/-- A step that leaves the rows as they are. -/
theorem update (progress : Progress crates cipher plan source disk) (columns : next.columns plan.item = disk.columns plan.item)
    (traces : ∀ key, next.traces.sealed.count (plan.item, key) = disk.traces.sealed.count (plan.item, key))
    (items : ∀ item, next.items.lookup plan.item = some item → (∃ after, item.cursor.mapM plan.cursorValue = .ok after) ∧
      ∀ row ∈ (disk.columns plan.item).rows, Passed plan item row.key → row.Settled crates cipher plan) :
    Progress crates cipher plan source next where
  rows := columns ▸ progress.rows
  behind item found := columns ▸ (items item found).2
  cursor item found := (items item found).1
  once key := traces key ▸ progress.once key
  sealed row member sealed := by
    rw [traces] at sealed
    exact progress.sealed row (columns ▸ member) sealed

/-- A step of another item. -/
theorem frame (progress : Progress crates cipher plan source disk) (columns : next.columns plan.item = disk.columns plan.item)
    (traces : ∀ key, next.traces.sealed.count (plan.item, key) = disk.traces.sealed.count (plan.item, key))
    (items : next.items.lookup plan.item = disk.items.lookup plan.item) : Progress crates cipher plan source next :=
  progress.update columns traces fun item found =>
    ⟨progress.cursor item (items ▸ found), progress.behind item (items ▸ found)⟩

theorem started (progress : Progress crates cipher plan source disk) {row : ItemRow}
    (picked : (disk.items.lookup plan.item).getD ⟨.pending, none⟩ = row) :
    Progress crates cipher plan source (disk.started plan row.cursor) := by
  refine progress.update rfl (fun _ => rfl) fun item found => ?_
  obtain rfl := Option.some.inj ((AList.lookup_insert _).symm.trans found)
  cases there : disk.items.lookup plan.item with
  | none =>
    rw [there, Option.getD_none] at picked
    rw [← picked]
    refine ⟨⟨none, rfl⟩, fun row member passed => ?_⟩
    rcases passed with sealed | ⟨after, decoded, passed⟩
    · cases sealed
    · obtain rfl := Except.ok.inj decoded
      cases passed
  | some old =>
    rw [there, Option.getD_some] at picked
    subst picked
    refine ⟨progress.cursor old there, fun row member passed => progress.behind old there row member ?_⟩
    rcases passed with sealed | passed
    · cases sealed
    · exact .inr passed

theorem finished (progress : Progress crates cipher plan source disk)
    (settled : ∀ row ∈ (disk.columns plan.item).rows, row.Settled crates cipher plan) :
    Progress crates cipher plan source (disk.finished plan) := by
  refine progress.update rfl (fun _ => rfl) fun item found => ?_
  obtain rfl := Option.some.inj ((AList.lookup_insert _).symm.trans found)
  exact ⟨⟨none, rfl⟩, fun row member _ => settled row member⟩

theorem reset (progress : Progress crates cipher plan source disk) :
    Progress crates cipher plan source { disk with items := disk.items.insert plan.item ⟨.pending, none⟩ } := by
  refine progress.update rfl (fun _ => rfl) fun item found => ?_
  obtain rfl := Option.some.inj ((AList.lookup_insert _).symm.trans found)
  refine ⟨⟨none, rfl⟩, fun row member passed => ?_⟩
  rcases passed with sealed | ⟨after, decoded, passed⟩
  · cases sealed
  · obtain rfl := Except.ok.inj decoded
    cases passed

theorem batched (opens : crates.Opens) (decodes : crates.Decodes) (progress : Progress crates cipher plan source disk)
    (fits : Fits crates cipher plan disk) (item : disk.items.lookup plan.item = some ⟨.sealing, cursor⟩)
    (batched : Batched crates env cipher plan cursor report disk result after next) :
    Progress crates cipher plan source next := by
  have fresh (row : Row) (member : row ∈ (disk.columns plan.item).select after) :
      (row.resealed crates env cipher plan).Settled crates cipher plan :=
    settled_resealed opens decodes (fits.ready row (select_subset row member))
  refine ⟨?_, batched.behind fits.keyed item progress.behind fresh, fun row found => ?_, fun key => ?_, fun row member => ?_⟩
  · rw [batched.rows]
    refine List.forall₂_map_right_iff.mpr (progress.rows.imp fun old row becomes => ?_)
    split
    · exact becomes_resealed opens decodes becomes
    · exact becomes
  · obtain rfl := Option.some.inj (batched.lookup.symm.trans found)
    exact ⟨_, batched.advance fits.keyed⟩
  · rw [batched.sealed, List.count_append]
    by_cases chosen : (plan.item, key) ∈ sealedCells crates env cipher plan ((disk.columns plan.item).select after)
    · obtain ⟨row, member, rfl, sealed, outcome⟩ := mem_sealedCells chosen
      have new : disk.traces.sealed.count (plan.item, row.key) = 0 := by
        by_contra old
        exact reseal_of_settled opens decodes (progress.sealed row (select_subset row member) (Nat.pos_of_ne_zero old)) sealed
          outcome
      rw [new, Nat.zero_add]
      exact count_sealedCells_le
    · rw [List.count_eq_zero.mpr chosen]
      exact progress.once key
  · rw [batched.sealed, List.count_append]
    intro sealed
    refine batched.forall_rows fresh (fun source member same unchosen => progress.sealed source member ?_) row member rfl
    have none : (sealedCells crates env cipher plan ((disk.columns plan.item).select after)).count (plan.item, row.key) = 0 := by
      refine List.count_eq_zero.mpr fun chosen => unchosen ?_
      obtain ⟨other, otherMember, otherSame, -⟩ := mem_sealedCells chosen
      have equal := Column.eq_of_key (select_subset other otherMember) member (otherSame.trans same.symm)
      exact equal ▸ otherMember
    rw [same]
    omega

end Progress

end Progress

section Calls

variable {crates : Crates} {env : Environment} {cipher : ContentCipher} {plans chosen done : List ColumnPlan}
  {plan : ColumnPlan} {source disk next : Disk} {report : MigrationReport} {call : StoreCall}

variable (crates cipher) in
/-- Every row of a planned column is settled. -/
def Done (plan : ColumnPlan) (disk : Disk) : Prop := ∀ row ∈ (disk.columns plan.item).rows, row.Settled crates cipher plan

variable (crates cipher plans) in
/-- Every planned column has come this far. -/
def Underway (source disk : Disk) : Prop := ∀ plan ∈ plans, Progress crates cipher plan source disk

/-- What keeps a migration from its end. -/
def Blocked (env : Environment) (cipher : ContentCipher) (disk : Disk) : Prop :=
  env.Stops ∨ (∃ point, env.secureDelete point ≠ 1) ∨ disk.Newer ∨ disk.KeyedAs cipher .unknown

/-- A step of one item leaves the other planned columns where they are. -/
theorem Underway.step (distinct : (plans.map ColumnPlan.item).Nodup) (underway : Underway crates cipher plans source disk)
    (member : plan ∈ plans) (own : Progress crates cipher plan source next)
    (columns : ∀ item, item ≠ plan.item → next.columns item = disk.columns item)
    (items : ∀ item, item ≠ plan.item → next.items.lookup item = disk.items.lookup item)
    (traces : ∀ item key, item ≠ plan.item → next.traces.sealed.count (item, key) = disk.traces.sealed.count (item, key)) :
    Underway crates cipher plans source next := by
  intro other otherMember
  by_cases same : other.item = plan.item
  · obtain rfl := List.inj_on_of_nodup_map distinct otherMember member same
    exact own
  · exact (underway other otherMember).frame (columns _ same) (fun key => traces _ key same) (items _ same)

theorem lookup_insert_ne {items : AList fun _ : String => ItemRow} {item other : String} (different : other ≠ item)
    (row : ItemRow) : (items.insert item row).lookup other = items.lookup other := AList.lookup_insert_ne different

/-- A settled column stays settled. -/
theorem Done.batched (opens : crates.Opens) (decodes : crates.Decodes) {other : ColumnPlan} {cursor : Option String}
    {result : Option String × MigrationReport × Bool} {after : Option Value} (same : other.item = plan.item → other = plan)
    (done : Done crates cipher other disk) (batched : Batched crates env cipher plan cursor report disk result after next) :
    Done crates cipher other next := by
  by_cases here : other.item = plan.item
  · obtain rfl := same here
    intro row member
    refine batched.forall_rows (fun source chosen => ?_) (fun source sourceMember _ _ => done source sourceMember) row member rfl
    exact settled_resealed opens decodes (.inl (done source (select_subset source chosen)))
  · rw [Done, batched.others _ here]
    exact done

theorem leaves_migrateItem_underway (opens : crates.Opens) (decodes : crates.Decodes)
    (distinct : (plans.map ColumnPlan.item).Nodup) (fits : ∀ plan ∈ plans, Fits crates cipher plan source) {wasRetired : Bool}
    (member : plan ∈ plans) (among : done ⊆ plans) (underway : Underway crates cipher plans source disk)
    (settled : ∀ plan ∈ done, Done crates cipher plan disk) :
    Leaves (fun _ target => Underway crates cipher plans source target ∧ ∀ other ∈ done ++ [plan], Done crates cipher other target)
      (fun target => Underway crates cipher plans source target ∧ env.Stops) (migrateItem crates env cipher wasRetired report plan)
      disk := by
  have all {target : Disk} (settled : ∀ plan ∈ done, Done crates cipher plan target) (own : Done crates cipher plan target) :
      ∀ other ∈ done ++ [plan], Done crates cipher other target := by
    intro other otherMember
    rcases List.mem_append.mp otherMember with earlier | last
    · exact settled other earlier
    · exact (List.mem_singleton.mp last) ▸ own
  -- The fuel is more than the keys that the item still has before it.
  let during (fuel : ℕ) (cursor : Option String) (_ : MigrationReport) (target : Disk) : Prop :=
    Underway crates cipher plans source target ∧ (∀ plan ∈ done, Done crates cipher plan target) ∧
      target.items.lookup plan.item = some ⟨.sealing, cursor⟩ ∧
      ∃ after, cursor.mapM plan.cursorValue = .ok after ∧ ((target.columns plan.item).waiting after).length < fuel
  refine @leaves_migrateItem crates env cipher plan _ during (fun _ target => Underway crates cipher plans source target ∧
    (∀ plan ∈ done, Done crates cipher plan target) ∧ Done crates cipher plan target) _ disk report wasRetired ?_ ?_ ?_ ?_ ?_ ?_
    ?_ ?_ ?_
  · exact fun stops => ⟨underway, stops⟩
  · intro cursor sealed
    refine ⟨underway, all settled fun row rowMember => ?_⟩
    exact (underway plan member).behind _ sealed row rowMember (.inl rfl)
  · intro row picked unsealed
    have own := (underway plan member).started picked
    have begun : Underway crates cipher plans source (disk.started plan row.cursor) :=
      underway.step distinct member own (fun _ _ => rfl) (fun _ different => lookup_insert_ne different _) fun _ _ _ => rfl
    have found : (disk.started plan row.cursor).items.lookup plan.item = some ⟨.sealing, row.cursor⟩ := AList.lookup_insert _
    obtain ⟨after, decoded⟩ := own.cursor _ found
    refine ⟨begun, settled, found, after, decoded, Nat.lt_succ_of_le ?_⟩
    exact (List.length_filter_le _ _).trans (List.length_map _).le
  · exact fun fuel cursor report target held stops => ⟨held.1, stops⟩
  · rintro fuel cursor report target message ⟨-, -, -, after, decoded, -⟩ corrupt
    cases decoded.symm.trans corrupt
  · rintro cursor report target ⟨-, -, -, after, -, few⟩
    cases few
  · rintro fuel cursor report target result after next ⟨underway, settled, found, start, decoded, few⟩ batched
    obtain rfl := Except.ok.inj (decoded.symm.trans batched.decoded)
    have fitting := (underway plan member).fits (fits plan member)
    have own := (underway plan member).batched opens decodes fitting found batched
    have onward : Underway crates cipher plans source next := by
      refine underway.step distinct member own batched.others (fun item different => ?_) fun item key different => ?_
      · rw [batched.items, lookup_insert_ne different]
      · rw [batched.sealed, List.count_append, count_sealedCells_other different, Nat.add_zero]
    have still : ∀ plan ∈ done, Done crates cipher plan next := fun other otherMember =>
      (settled other otherMember).batched opens decodes
        (fun same => List.inj_on_of_nodup_map distinct (among otherMember) member same) batched
    split
    · next full =>
      refine ⟨onward, still, batched.lookup, _, batched.advance fitting.keyed, ?_⟩
      have fewer := batched.waiting full
      omega
    · next short =>
      refine ⟨onward, still, batched.finished found (underway plan member).behind (fun row chosen => ?_)
        (Bool.eq_false_iff.mpr short)⟩
      exact settled_resealed opens decodes (fitting.ready row (select_subset row chosen))
  · exact fun report target held stops => ⟨held.1, stops⟩
  · rintro report target ⟨underway, settled, own⟩
    have closed : Underway crates cipher plans source (target.finished plan) :=
      underway.step distinct member ((underway plan member).finished own) (fun _ _ => rfl)
        (fun _ different => lookup_insert_ne different _) fun _ _ _ => rfl
    rw [Disk.closed]
    split
    · exact ⟨fun other otherMember => (closed other otherMember).frame rfl (fun _ => rfl) rfl, all settled own⟩
    · exact ⟨closed, all settled own⟩

/-- A migration that is not blocked settles every row that it was given, and one that is cut off loses nothing. -/
theorem leaves_migrateColumns_underway (opens : crates.Opens) (decodes : crates.Decodes)
    (distinct : (plans.map ColumnPlan.item).Nodup) (fits : ∀ plan ∈ plans, Fits crates cipher plan source)
    (among : chosen ⊆ plans) (underway : Underway crates cipher plans source disk) :
    Leaves (fun _ target => Underway crates cipher plans source target ∧ ∀ plan ∈ chosen, Done crates cipher plan target)
      (fun target => Underway crates cipher plans source target ∧ Blocked env cipher disk)
      (migrateColumns crates env cipher chosen) disk := by
  have same {target : Disk} (columns : target.columns = disk.columns) (items : target.items = disk.items)
      (traces : target.traces.sealed = disk.traces.sealed) : Underway crates cipher plans source target := fun plan member =>
    (underway plan member).frame (congrFun columns _) (fun _ => by rw [traces]) (by rw [items])
  have noted : Underway crates cipher plans source (disk.noted chosen) := same rfl rfl rfl
  have recorded : Underway crates cipher plans source ((disk.noted chosen).recorded cipher.current.rootKcv) := same rfl rfl rfl
  refine (@leaves_migrateColumns crates env cipher _ disk chosen (fun _ done _ target =>
    Underway crates cipher plans source target ∧ ∀ plan ∈ done, Done crates cipher plan target)
    (fun stops => ⟨noted, .inl stops⟩) (fun insecure => ⟨noted, .inr (.inl insecure)⟩)
    (fun newer => ⟨noted, .inr (.inr (.inl newer))⟩) (fun stops _ => ⟨recorded, .inl stops⟩)
    (fun unknown => ⟨noted, .inr (.inr (.inr unknown))⟩) ?_ ?_).imp fun _ _ held => held.elim fun _ held => held
  · intro state target checked admitted
    refine ⟨?_, fun plan member => by cases member⟩
    cases state with
    | recorded => exact checked.2 ▸ recorded
    | current => exact checked.2 ▸ noted
    | retired => exact checked.2 ▸ noted
    | mismatch kcv => exact absurd rfl (admitted kcv)
  · intro wasRetired done plan rest report target split held
    have here : plan ∈ chosen := split ▸ List.mem_append_right _ List.mem_cons_self
    have earlier : done ⊆ plans := fun other member => among (split ▸ List.mem_append_left _ member)
    exact (leaves_migrateItem_underway opens decodes distinct fits (among here) earlier held.1 held.2).mono
      (fun _ _ held => held) fun _ held => ⟨held.1, .inl held.2⟩

/-- Every call leaves the planned columns underway. -/
theorem underway_run (opens : crates.Opens) (decodes : crates.Decodes) (distinct : (plans.map ColumnPlan.item).Nodup)
    (fits : ∀ plan ∈ plans, Fits crates cipher plan source) (among : call.plans ⊆ plans) (owes : Owes disk)
    (underway : Underway crates cipher plans source disk) :
    Underway crates cipher plans source (call.run crates cipher env disk) := by
  have same {target : Disk} (columns : target.columns = disk.columns) (items : target.items = disk.items)
      (traces : target.traces.sealed = disk.traces.sealed) : Underway crates cipher plans source target := fun plan member =>
    (underway plan member).frame (congrFun columns _) (fun _ => by rw [traces]) (by rw [items])
  have compacted {target : Disk} (kept : Kept disk target) : Underway crates cipher plans source target :=
    same kept.cells.columns kept.cells.items kept.cells.sealed
  have kept : Kept disk disk := ⟨.refl disk, owes⟩
  refine run_of_leaves ?_
  cases call with
  | checkStoreKey =>
    have recorded : Underway crates cipher plans source (disk.recorded cipher.current.rootKcv) := same rfl rfl rfl
    have checked := @leaves_checkStoreKey env cipher _ disk (fun _ => underway) (fun _ _ => recorded) fun _ => underway
    refine checked.bind fun state target checked => Leaves.pure ?_
    cases state with
    | recorded => exact checked.2 ▸ recorded
    | current => exact checked.2 ▸ underway
    | retired => exact checked.2 ▸ underway
    | mismatch kcv => exact checked.2 ▸ underway
  | resetItems chosen =>
    refine leaves_resetItems (same rfl rfl rfl) fun plan member target underway => ?_
    exact underway.step distinct (among member) (underway plan (among member)).reset (fun _ _ => rfl)
      (fun _ different => lookup_insert_ne different _) fun _ _ _ => rfl
  | migrateColumns chosen =>
    have migrated := (@leaves_migrateColumns_underway crates env cipher plans chosen source disk opens decodes distinct fits
      among underway).mono (fun _ _ held => held.1) fun _ held => held.1
    exact migrated.bind fun _ _ underway => Leaves.pure underway
  | finishStore policy =>
    have ends : Leaves (fun _ => Kept disk) (Kept disk) (StoreCall.act crates cipher env (.finishStore policy)) disk :=
      (leaves_finishStoreWith kept).bind fun _ _ kept => Leaves.pure kept
    exact ends.mono (fun _ _ kept => compacted kept) fun _ kept => compacted kept
  | runPendingVacuum policy =>
    have ends : Leaves (fun _ => Kept disk) (Kept disk) (StoreCall.act crates cipher env (.runPendingVacuum policy)) disk :=
      (leaves_runPendingVacuumWith kept).bind fun _ _ kept => Leaves.pure kept
    exact ends.mono (fun _ _ kept => compacted kept) fun _ kept => compacted kept

theorem underway_runCalls (opens : crates.Opens) (decodes : crates.Decodes) (distinct : (plans.map ColumnPlan.item).Nodup)
    (fits : ∀ plan ∈ plans, Fits crates cipher plan source) (calls : List (Environment × StoreCall))
    (among : ∀ call ∈ calls, call.2.plans ⊆ plans) (owes : Owes disk) (underway : Underway crates cipher plans source disk) :
    Underway crates cipher plans source (runCalls crates cipher calls disk) := by
  induction calls generalizing disk with
  | nil => exact underway
  | cons call rest ih =>
    refine ih (fun other member => among other (List.mem_cons_of_mem _ member)) (owes_run owes) ?_
    exact underway_run opens decodes distinct fits (among call List.mem_cons_self) owes underway

end Calls

section Complete

variable (crates : Crates) (cipher : ContentCipher) (plans : List ColumnPlan) (disk : Disk)

/-- A store before its first migration: every planned column has keys of the kind that its plan declares, and its
BLOBs that are sealed were sealed by `seal_bytes`. -/
structure Unmigrated : Prop where
  distinct : (plans.map ColumnPlan.item).Nodup
  keyed : ∀ plan ∈ plans, ∀ row ∈ (disk.columns plan.item).rows, plan.Keyed row.key
  genuine : ∀ plan ∈ plans, plan.kind = .blob → ∀ row ∈ (disk.columns plan.item).rows,
    row.value.Genuine crates cipher (plan.contextFor row)
  items : ∀ plan ∈ plans, disk.items.lookup plan.item = none
  traces : disk.traces = {}

variable {crates cipher plans disk}

namespace Unmigrated

theorem owes (unmigrated : Unmigrated crates cipher plans disk) : Owes disk := by
  have unwritten : disk.traces.rewritten = false := by rw [unmigrated.traces]
  constructor
  · intro rewritten
    cases unwritten.symm.trans rewritten
  · intro _ rewritten
    cases unwritten.symm.trans rewritten

theorem fits (unmigrated : Unmigrated crates cipher plans disk) : ∀ plan ∈ plans, Fits crates cipher plan disk :=
  fun plan member => ⟨unmigrated.keyed plan member, fun row rowMember => .inr fun blob =>
    unmigrated.genuine plan member blob row rowMember⟩

theorem underway (unmigrated : Unmigrated crates cipher plans disk) : Underway crates cipher plans disk disk := by
  intro plan member
  have none := unmigrated.items plan member
  have unsealed (key : Value) : disk.traces.sealed.count (plan.item, key) = 0 := by
    rw [unmigrated.traces]
    rfl
  refine ⟨List.forall₂_same.mpr fun row _ => .refl row, fun item found => ?_, fun item found => ?_, fun key => ?_,
    fun row _ sealed => ?_⟩
  · cases none.symm.trans found
  · cases none.symm.trans found
  · rw [unsealed]
    exact Nat.zero_le 1
  · rw [unsealed] at sealed
    cases sealed

end Unmigrated

section Returned

variable {calls : List (Environment × StoreCall)} {env : Environment} {chosen : List ColumnPlan} {point : ℕ}
  {report : MigrationReport} {after : World}

theorem ends_migrateColumns (opens : crates.Opens) (decodes : crates.Decodes) (unmigrated : Unmigrated crates cipher plans disk)
    (among : ∀ call ∈ calls, call.2.plans ⊆ plans) (chosenAmong : chosen ⊆ plans) :
    Leaves (fun _ target => Underway crates cipher plans disk target ∧ ∀ plan ∈ chosen, Done crates cipher plan target)
      (fun target => Underway crates cipher plans disk target ∧ Blocked env cipher (runCalls crates cipher calls disk))
      (migrateColumns crates env cipher chosen) (runCalls crates cipher calls disk) :=
  leaves_migrateColumns_underway opens decodes unmigrated.distinct unmigrated.fits chosenAmong
    (underway_runCalls opens decodes unmigrated.distinct unmigrated.fits calls among unmigrated.owes unmigrated.underway)

/-- A migration returns unless something blocks it. -/
theorem migrateColumns_returns (opens : crates.Opens) (decodes : crates.Decodes) (unmigrated : Unmigrated crates cipher plans disk)
    (among : ∀ call ∈ calls, call.2.plans ⊆ plans) (chosenAmong : chosen ⊆ plans)
    (free : ¬ Blocked env cipher (runCalls crates cipher calls disk)) : ∃ report after,
      migrateColumns crates env cipher chosen ⟨runCalls crates cipher calls disk, point⟩ = .ok report after := by
  have ends := @ends_migrateColumns _ _ _ _ _ env _ opens decodes unmigrated among chosenAmong point
  cases returned : migrateColumns crates env cipher chosen ⟨runCalls crates cipher calls disk, point⟩ with
  | ok report after => exact ⟨report, after, rfl⟩
  | error stop after => exact absurd (ends.of_error returned).2 free

/-- A migration that returned has migrated every row of its plans. -/
theorem migrated_of_returned (opens : crates.Opens) (decodes : crates.Decodes) (unmigrated : Unmigrated crates cipher plans disk)
    (among : ∀ call ∈ calls, call.2.plans ⊆ plans) (chosenAmong : chosen ⊆ plans)
    (returned : migrateColumns crates env cipher chosen ⟨runCalls crates cipher calls disk, point⟩ = .ok report after) :
    ∀ plan ∈ chosen, List.Forall₂ (Row.Migrated crates cipher plan) (disk.columns plan.item).rows
      (after.disk.columns plan.item).rows := by
  intro plan member
  obtain ⟨complete, settled⟩ := (ends_migrateColumns opens decodes unmigrated among chosenAmong point).of_ok returned
  exact forall₂_of_mem (complete plan (chosenAmong member)).rows fun old _ new newMember becomes =>
    becomes.migrated (settled plan member new newMember)

/-- After a migration that returned no call changes a cell of its plans. -/
theorem unchanged_of_returned (opens : crates.Opens) (decodes : crates.Decodes) (unmigrated : Unmigrated crates cipher plans disk)
    (among : ∀ call ∈ calls, call.2.plans ⊆ plans) (chosenAmong : chosen ⊆ plans)
    (returned : migrateColumns crates env cipher chosen ⟨runCalls crates cipher calls disk, point⟩ = .ok report after)
    (later : List (Environment × StoreCall)) (laterAmong : ∀ call ∈ later, call.2.plans ⊆ plans) :
    ∀ plan ∈ chosen,
      ((runCalls crates cipher later after.disk).columns plan.item).rows = (after.disk.columns plan.item).rows ∧
        ∀ key, (runCalls crates cipher later after.disk).traces.sealed.count (plan.item, key) ≤ 1 := by
  intro plan member
  obtain ⟨complete, settled⟩ := (ends_migrateColumns opens decodes unmigrated among chosenAmong point).of_ok returned
  have owes : Owes after.disk := (leaves_migrateColumns_owes (owes_runCalls calls unmigrated.owes) point).of_ok returned
  have progress := underway_runCalls opens decodes unmigrated.distinct
    (fun plan member => (complete plan member).fits (unmigrated.fits plan member)) later laterAmong owes
    (fun plan member => (complete plan member).rebase) plan (chosenAmong member)
  refine ⟨Eq.symm ?_, progress.once⟩
  have same : List.Forall₂ Eq (after.disk.columns plan.item).rows
      ((runCalls crates cipher later after.disk).columns plan.item).rows := by
    refine forall₂_of_mem progress.rows fun old oldMember new _ becomes => ?_
    rcases becomes.value with unchanged | ⟨unsettled, -⟩
    · exact unchanged.symm
    · exact absurd (settled plan member old oldMember) unsettled
  rwa [List.forall₂_eq_eq_eq] at same

end Returned

/-- After any calls on a store, each cut off anywhere, a migration returns unless something blocks it. Once it has
returned, every value of its plans that was readable opens under the current key to what it read as, and every value
that did so before, or was not readable, is as it was; and no later call changes a cell of them, so no value was or
will be sealed twice. -/
theorem migrateColumns_complete (opens : crates.Opens) (decodes : crates.Decodes) (unmigrated : Unmigrated crates cipher plans disk)
    (calls : List (Environment × StoreCall)) (among : ∀ call ∈ calls, call.2.plans ⊆ plans) (env : Environment)
    {chosen : List ColumnPlan} (chosenAmong : chosen ⊆ plans) (point : ℕ) :
    (¬ Blocked env cipher (runCalls crates cipher calls disk) → ∃ report after,
      migrateColumns crates env cipher chosen ⟨runCalls crates cipher calls disk, point⟩ = .ok report after) ∧
    ∀ report after, migrateColumns crates env cipher chosen ⟨runCalls crates cipher calls disk, point⟩ = .ok report after →
      (∀ plan ∈ chosen, List.Forall₂ (Row.Migrated crates cipher plan) (disk.columns plan.item).rows
        (after.disk.columns plan.item).rows) ∧
      ∀ later : List (Environment × StoreCall), (∀ call ∈ later, call.2.plans ⊆ plans) → ∀ plan ∈ chosen,
        ((runCalls crates cipher later after.disk).columns plan.item).rows = (after.disk.columns plan.item).rows ∧
          ∀ key, (runCalls crates cipher later after.disk).traces.sealed.count (plan.item, key) ≤ 1 :=
  ⟨migrateColumns_returns opens decodes unmigrated among chosenAmong, fun _ _ returned =>
    ⟨migrated_of_returned opens decodes unmigrated among chosenAmong returned,
      unchanged_of_returned opens decodes unmigrated among chosenAmong returned⟩⟩

theorem Sample.unmigrated : Unmigrated Sample.crates Sample.cipher [Sample.messages, Sample.files] (Sample.disk none) where
  distinct := by decide
  keyed plan member row rowMember := by
    rcases List.mem_cons.mp member with rfl | member
    · rcases List.mem_cons.mp rowMember with rfl | rowMember
      · exact ⟨1, rfl, by decide⟩
      · rcases List.mem_cons.mp rowMember with rfl | rowMember
        · exact ⟨2, rfl, by decide⟩
        · obtain rfl := List.mem_singleton.mp rowMember
          exact ⟨10, rfl, by decide⟩
    · obtain rfl := List.mem_singleton.mp member
      rcases List.mem_cons.mp rowMember with rfl | rowMember
      · exact ⟨"a", rfl⟩
      · obtain rfl := List.mem_singleton.mp rowMember
        exact ⟨"b", rfl⟩
  genuine plan member blob row rowMember bytes opened shown magic := by
    rcases List.mem_cons.mp member with rfl | member
    · cases blob
    · obtain rfl := List.mem_singleton.mp member
      rcases List.mem_cons.mp rowMember with rfl | rowMember
      · obtain rfl := Option.some.inj shown
        cases magic
      · obtain rfl := List.mem_singleton.mp rowMember
        obtain rfl := Option.some.inj shown
        cases magic
  items _ _ := rfl
  traces := rfl

/-- A migration that is cut off after its first batch, and the next one. -/
theorem migrateColumns_complete_cut :
    let now := runCalls Sample.crates Sample.cipher [(Sample.dying 40, .migrateColumns [Sample.messages, Sample.files])]
      (Sample.disk none)
    ∃ report after, migrateColumns Sample.crates Sample.fair Sample.cipher [Sample.files, Sample.messages] ⟨now, 0⟩ =
        .ok report after ∧
      List.Forall₂ (Row.Migrated Sample.crates Sample.cipher Sample.messages) Sample.bodies.rows
        (after.disk.columns Sample.messages.item).rows := by
  intro now
  have record : now.record.all (fun row => row.minReader ≤ SUPPORTED_MIN_READER ∧
      row.kcv.all fun kcv => Sample.cipher.matchKcv kcv = .current) = true := by decide +kernel
  have free : ¬ Blocked Sample.fair Sample.cipher now := by
    rintro (⟨point, stop, stops⟩ | ⟨point, off⟩ | ⟨row, recorded, newer⟩ | ⟨row, kcv, recorded, keyed, unknown⟩)
    · cases stops
    · exact off rfl
    · rw [recorded, Option.all_some, decide_eq_true_eq] at record
      omega
    · rw [recorded, Option.all_some, decide_eq_true_eq, keyed, Option.all_some, decide_eq_true_eq, unknown] at record
      cases record.2
  have chosen : [Sample.files, Sample.messages] ⊆ [Sample.messages, Sample.files] := by
    intro plan member
    simp only [List.mem_cons, List.not_mem_nil, or_false] at member ⊢
    exact member.symm
  have among : ∀ call ∈ [(Sample.dying 40, StoreCall.migrateColumns [Sample.messages, Sample.files])],
      call.2.plans ⊆ [Sample.messages, Sample.files] := by
    intro call member
    obtain rfl := List.mem_singleton.mp member
    exact List.Subset.refl _
  obtain ⟨returns, complete⟩ := migrateColumns_complete Sample.opens Sample.decodes Sample.unmigrated _ among Sample.fair chosen 0
  obtain ⟨report, after, returned⟩ := returns free
  exact ⟨report, after, returned, (complete report after returned).1 _ (List.mem_cons_of_mem _ List.mem_cons_self)⟩

end Complete

end RyuRooms.Crypto
