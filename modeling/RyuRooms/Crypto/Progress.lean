import RyuRooms.Crypto.MigrationSteps

/-! # How far an item has come

The keys an item has passed are those up to its recorded cursor, and all of them once it is sealed. A batch
passes exactly its own rows: whatever holds of the rows behind the cursor and of the rows of the batch after
their reseal holds of the rows behind the new cursor, and of every row when the batch was not full.
-/

namespace RyuRooms.Crypto

open Foundation

/-- A key has the kind that the plan declares. -/
def ColumnPlan.Keyed (plan : ColumnPlan) (key : Value) : Prop :=
  match plan.keyKind with
  | .text => ∃ text, key = .text text
  | .integer => ∃ n, key = .integer n ∧ InI64 n

/-- A key is not behind a cursor. -/
def Waits (after : Option Value) (key : Value) : Bool := after.all (·.before key)

/-- An item has passed a key. -/
def Passed (plan : ColumnPlan) (row : ItemRow) (key : Value) : Prop :=
  row.state = .sealed ∨ ∃ after, row.cursor.mapM plan.cursorValue = .ok after ∧ Waits after key = false

/-- Every row that an item has passed is done. -/
def Behind (done : Row → Prop) (plan : ColumnPlan) (disk : Disk) : Prop :=
  ∀ item, disk.items.lookup plan.item = some item → ∀ row ∈ (disk.columns plan.item).rows, Passed plan item row.key → done row

/-- The keys of a column that a cursor has not passed. -/
def Column.waiting (column : Column) (after : Option Value) : List Value := (column.rows.map Row.key).filter (Waits after)

section Cursors

variable {plan : ColumnPlan} {key : Value}

/-- The text of a key finds the key again. -/
theorem cursorValue_key (keyed : plan.Keyed key) (extras : List Value) :
    plan.cursorValue (plan.rowKey key extras).key = .ok key := by
  have shown : (plan.rowKey key extras).key = (plan.rowKey key extras).text plan.key := rfl
  have first : (plan.rowKey key extras).values.find? (·.1 = plan.key) = some (plan.key, key) :=
    List.find?_cons_of_pos (decide_eq_true rfl)
  rw [shown, RowKey.text, first, ColumnPlan.cursorValue]
  rw [ColumnPlan.Keyed] at keyed
  cases kind : plan.keyKind with
  | text =>
    simp only [kind] at keyed
    obtain ⟨text, rfl⟩ := keyed
    rfl
  | integer =>
    simp only [kind] at keyed
    obtain ⟨n, rfl, bounded⟩ := keyed
    simp only [parseI64_toString bounded]

end Cursors

section Selects

variable {column : Column} {after : Option Value} {row last : Row}

theorem mem_select (member : row ∈ column.select after) : row ∈ column.rows ∧ Waits after row.key := by
  have found := List.mem_of_mem_take member
  rw [List.mem_filter] at found
  exact found

/-- A row that is not behind a cursor is in the batch or behind its last row. -/
theorem mem_select_or_before (member : row ∈ column.rows) (waits : Waits after row.key)
    (ends : (column.select after).getLast? = some last) : row ∈ column.select after ∨ last.key.before row.key := by
  have pending : row ∈ column.rows.filter fun row => Waits after row.key := List.mem_filter.mpr ⟨member, waits⟩
  have sorted := column.ordered.filter fun row => Waits after row.key
  rw [← List.take_append_drop BATCH_SIZE (column.rows.filter _)] at pending sorted
  rcases List.mem_append.mp pending with early | late
  · exact .inl early
  · exact .inr ((List.pairwise_append.mp sorted).2.2 last (List.mem_of_getLast? ends) row late)

/-- A batch that is not full holds every row that is not behind the cursor. -/
theorem mem_select_of_length (member : row ∈ column.rows) (waits : Waits after row.key)
    (short : (column.select after).length ≠ BATCH_SIZE) : row ∈ column.select after := by
  have pending : row ∈ column.rows.filter fun row => Waits after row.key := List.mem_filter.mpr ⟨member, waits⟩
  have few : (column.rows.filter fun row => Waits after row.key).length ≤ BATCH_SIZE := by
    have length : (column.select after).length = _ := List.length_take
    change _ = min BATCH_SIZE (column.rows.filter fun row => Waits after row.key).length at length
    omega
  change row ∈ List.take BATCH_SIZE (column.rows.filter fun row => Waits after row.key)
  rw [List.take_of_length_le few]
  exact pending

/-- Behind the last row of a batch fewer keys wait. -/
theorem length_waiting_lt (ends : (column.select after).getLast? = some last) :
    (column.waiting (some last.key)).length < (column.waiting after).length := by
  obtain ⟨member, waits⟩ := mem_select (List.mem_of_getLast? ends)
  have onward (key : Value) (later : Waits (some last.key) key) : Waits after key := by
    cases after with
    | none => rfl
    | some start => exact Value.before_trans waits later
  have fewer : column.waiting (some last.key) = (column.waiting after).filter (Waits (some last.key)) := by
    rw [Column.waiting, Column.waiting, List.filter_filter]
    refine List.filter_congr fun key _ => ?_
    cases later : Waits (some last.key) key with
    | false => rfl
    | true => rw [onward key later, Bool.and_self]
  rw [fewer, List.length_filter_lt_length_iff_exists]
  refine ⟨last.key, List.mem_filter.mpr ⟨List.mem_map_of_mem member, waits⟩, ?_⟩
  rw [Waits, Option.all_some, Value.before_irrefl]
  exact Bool.false_ne_true

end Selects

section Batches

variable {crates : Crates} {env : Environment} {cipher : ContentCipher} {plan : ColumnPlan} {cursor : Option String}
  {report : MigrationReport} {disk next : Disk} {result : Option String × MigrationReport × Bool} {after : Option Value}
  {done : Row → Prop}

namespace Batched

/-- The cursor after a batch is behind its last row. -/
theorem advance (batched : Batched crates env cipher plan cursor report disk result after next)
    (keyed : ∀ row ∈ (disk.columns plan.item).rows, plan.Keyed row.key) :
    result.1.mapM plan.cursorValue =
      .ok ((((disk.columns plan.item).select after).getLast?.map Row.key).or after) := by
  rw [batched.cursor]
  cases ends : ((disk.columns plan.item).select after).getLast? with
  | none => exact batched.decoded
  | some last =>
    have member := (mem_select (List.mem_of_getLast? ends)).1
    simp only [Option.map_some, Option.some_or]
    change Option.some <$> plan.cursorValue (plan.rowKey last.key []).key = _
    rw [cursorValue_key (keyed last member)]
    rfl

theorem keys (batched : Batched crates env cipher plan cursor report disk result after next) :
    (next.columns plan.item).rows.map Row.key = (disk.columns plan.item).rows.map Row.key := by
  rw [batched.rows, List.map_map]
  refine List.map_congr_left fun row _ => ?_
  rw [Function.comp_apply]
  split
  · exact key_resealed row
  · rfl

/-- What held of the row that a row comes from, or of every row of the batch, holds of the row. -/
theorem forall_rows (batched : Batched crates env cipher plan cursor report disk result after next)
    (fresh : ∀ row ∈ (disk.columns plan.item).select after, done (row.resealed crates env cipher plan))
    {key : Value} (old : ∀ row ∈ (disk.columns plan.item).rows, row.key = key →
      row ∉ (disk.columns plan.item).select after → done row) :
    ∀ row ∈ (next.columns plan.item).rows, row.key = key → done row := by
  intro row member same
  rw [batched.rows] at member
  obtain ⟨source, sourceMember, rfl⟩ := List.mem_map.mp member
  by_cases chosen : source ∈ (disk.columns plan.item).select after
  · rw [if_pos chosen]
    exact fresh source chosen
  · rw [if_neg chosen] at same ⊢
    exact old source sourceMember same chosen

theorem lookup (batched : Batched crates env cipher plan cursor report disk result after next) :
    next.items.lookup plan.item = some ⟨.sealing, result.1⟩ := by
  rw [batched.items]
  exact AList.lookup_insert _

/-- A batch passes its own rows and no others. -/
theorem behind (batched : Batched crates env cipher plan cursor report disk result after next)
    (keyed : ∀ row ∈ (disk.columns plan.item).rows, plan.Keyed row.key)
    (item : disk.items.lookup plan.item = some ⟨.sealing, cursor⟩) (behind : Behind done plan disk)
    (fresh : ∀ row ∈ (disk.columns plan.item).select after, done (row.resealed crates env cipher plan)) :
    Behind done plan next := by
  intro found here row member passed
  obtain rfl := Option.some.inj (batched.lookup.symm.trans here)
  rcases passed with ended | ⟨now, decoded, passed⟩
  · cases ended
  obtain rfl := Except.ok.inj ((batched.advance keyed).symm.trans decoded)
  refine batched.forall_rows fresh (fun source sourceMember same unchosen => ?_) row member rfl
  refine behind _ item source sourceMember (.inr ⟨after, batched.decoded, Bool.eq_false_iff.mpr fun waits => ?_⟩)
  cases ends : ((disk.columns plan.item).select after).getLast? with
  | none =>
    rw [ends] at passed
    rw [same] at waits
    exact Bool.false_ne_true (passed.symm.trans waits)
  | some last =>
    rcases mem_select_or_before sourceMember waits ends with chosen | later
    · exact unchosen chosen
    · rw [ends, ← same] at passed
      exact Bool.false_ne_true (passed.symm.trans later)

/-- After a batch that was not full every row is done. -/
theorem finished (batched : Batched crates env cipher plan cursor report disk result after next)
    (item : disk.items.lookup plan.item = some ⟨.sealing, cursor⟩) (behind : Behind done plan disk)
    (fresh : ∀ row ∈ (disk.columns plan.item).select after, done (row.resealed crates env cipher plan))
    (short : result.2.2 = false) : ∀ row ∈ (next.columns plan.item).rows, done row := by
  intro row member
  refine batched.forall_rows fresh (fun source sourceMember _ unchosen => ?_) row member rfl
  refine behind _ item source sourceMember (.inr ⟨after, batched.decoded, Bool.eq_false_iff.mpr fun waits => ?_⟩)
  have few := batched.more.symm.trans short
  exact unchosen (mem_select_of_length sourceMember waits (of_decide_eq_false few))

/-- After a full batch fewer keys wait. -/
theorem waiting (batched : Batched crates env cipher plan cursor report disk result after next) (full : result.2.2 = true) :
    ((next.columns plan.item).waiting ((((disk.columns plan.item).select after).getLast?.map Row.key).or after)).length <
      ((disk.columns plan.item).waiting after).length := by
  have length := of_decide_eq_true (batched.more.symm.trans full)
  cases ends : ((disk.columns plan.item).select after).getLast? with
  | none =>
    rw [List.getLast?_eq_none_iff.mp ends] at length
    cases length
  | some last =>
    rw [Column.waiting, batched.keys]
    exact length_waiting_lt ends

end Batched

end Batches

end RyuRooms.Crypto
