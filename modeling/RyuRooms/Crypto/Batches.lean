import RyuRooms.Crypto.Reseal

/-! # One batch of the migration

A batch is the next rows after the cursor, each of which is resealed at most once; the cursor after it is the
key of its last row, which the next batch starts behind.
-/

namespace RyuRooms.Crypto

open Foundation

section Order

theorem Value.before_irrefl (key : Value) : key.before key = false := by
  cases key <;> simp [Value.before]

theorem Value.before_trans {first second third : Value} (one : first.before second) (two : second.before third) :
    first.before third := by
  cases first with
  | null => cases one
  | real shown => cases one
  | blob bytes => cases one
  | integer n =>
    cases second with
    | integer m =>
      cases third with
      | integer k =>
        simp only [Value.before, decide_eq_true_eq] at one two ⊢
        omega
      | text _ => rfl
      | _ => cases two
    | text _ =>
      cases third with
      | text _ => rfl
      | _ => cases two
    | _ => cases one
  | text left =>
    cases second with
    | text middle =>
      cases third with
      | text right =>
        simp only [Value.before, List.lex_eq_true_iff_lex] at one two ⊢
        exact List.lex_trans (fun one two => decide_eq_true (UInt8.lt_trans (of_decide_eq_true one) (of_decide_eq_true two)))
          one two
      | _ => cases two
    | _ => cases one

end Order

namespace Column

variable {column : Column} {row other : Row}

theorem nodup_keys (column : Column) : (column.rows.map Row.key).Nodup := by
  refine List.pairwise_map.mpr (column.ordered.imp fun before same => ?_)
  rw [same, Value.before_irrefl] at before
  cases before

theorem eq_of_key (member : row ∈ column.rows) (otherMember : other ∈ column.rows) (same : row.key = other.key) :
    row = other :=
  List.inj_on_of_nodup_map column.nodup_keys member otherMember same

end Column

section Rows

variable (crates : Crates) (env : Environment) (cipher : ContentCipher) (plan : ColumnPlan)

/-- What the migration makes of a row. -/
def reseal (row : Row) : Outcome :=
  resealValue crates cipher plan.kind row.value (plan.contextFor row) (env.nonces plan.item row.key)

/-- A row after the migration. -/
def Row.resealed (row : Row) : Row :=
  match reseal crates env cipher plan row with
  | .sealed sealed => { row with value := sealed }
  | .already | .unreadable => row

variable {crates : Crates} {env : Environment} {cipher : ContentCipher} {plan : ColumnPlan} {column : Column} {row : Row}
  {report : MigrationReport} {batch : List Row}

@[simp] theorem key_resealed (row : Row) : (row.resealed crates env cipher plan).key = row.key := by
  rw [Row.resealed]
  split <;> rfl

@[simp] theorem extras_resealed (row : Row) : (row.resealed crates env cipher plan).extras = row.extras := by
  rw [Row.resealed]
  split <;> rfl

/-- A row of a batch is resealed, and the other rows stay as they are. -/
theorem resealRow_spec (member : row ∈ column.rows) :
    (resealRow crates env cipher plan (column, report) row).1.rows =
        column.rows.map (fun other => if other = row then row.resealed crates env cipher plan else other) ∧
      (resealRow crates env cipher plan (column, report) row).2.unreadable =
        report.unreadable + if reseal crates env cipher plan row = .unreadable then 1 else 0 := by
  have unchanged (same : row.resealed crates env cipher plan = row) :
      column.rows = column.rows.map fun other => if other = row then row.resealed crates env cipher plan else other := by
    conv_lhs => rw [← column.rows.map_id]
    refine List.map_congr_left fun other _ => ?_
    split
    · next here => rw [same, here]; rfl
    · rfl
  have found : resealValue crates cipher plan.kind row.value (plan.contextFor row) (env.nonces plan.item row.key) =
      reseal crates env cipher plan row := rfl
  rw [resealRow]
  simp only [found]
  cases outcome : reseal crates env cipher plan row with
  | sealed sealed =>
    have resealed : row.resealed crates env cipher plan = { row with value := sealed } := by
      rw [Row.resealed, outcome]
    refine ⟨?_, ?_⟩
    · simp only [Column.update, resealed]
      refine List.map_congr_left fun other otherMember => ?_
      rw [Row.assign]
      by_cases here : other = row
      · rw [if_pos here, if_pos ⟨congrArg Row.key here, congrArg Row.value here⟩, here]
      · rw [if_neg here, if_neg fun same => here (Column.eq_of_key otherMember member same.1)]
    · simp only [reduceCtorEq, if_false, Nat.add_zero]
      split <;> rfl
  | already =>
    have same : row.resealed crates env cipher plan = row := by rw [Row.resealed, outcome]
    exact ⟨unchanged same, by simp⟩
  | unreadable =>
    have same : row.resealed crates env cipher plan = row := by rw [Row.resealed, outcome]
    exact ⟨unchanged same, by simp⟩

/-- A batch reseals its rows and counts those that are not readable. -/
theorem foldl_resealRow (members : ∀ row ∈ batch, row ∈ column.rows) (nodup : batch.Nodup) :
    (batch.foldl (resealRow crates env cipher plan) (column, report)).1.rows =
        column.rows.map (fun row => if row ∈ batch then row.resealed crates env cipher plan else row) ∧
      (batch.foldl (resealRow crates env cipher plan) (column, report)).2.unreadable =
        report.unreadable + batch.countP fun row => reseal crates env cipher plan row = .unreadable := by
  induction batch generalizing column report with
  | nil => exact ⟨by simp, by simp⟩
  | cons row rest ih =>
    obtain ⟨fresh, nodup⟩ := List.nodup_cons.mp nodup
    have member := members row List.mem_cons_self
    obtain ⟨rows, unreadable⟩ := @resealRow_spec crates env cipher plan column row report member
    have onward (other : Row) (otherMember : other ∈ rest) :
        other ∈ (resealRow crates env cipher plan (column, report) row).1.rows := by
      rw [rows]
      refine List.mem_map.mpr ⟨other, members other (List.mem_cons_of_mem _ otherMember), if_neg fun same => ?_⟩
      exact fresh (same ▸ otherMember)
    obtain ⟨restRows, restUnreadable⟩ := @ih (resealRow crates env cipher plan (column, report) row).1
      (resealRow crates env cipher plan (column, report) row).2 onward nodup
    rw [List.foldl_cons]
    refine ⟨restRows.trans ?_, restUnreadable.trans ?_⟩
    · rw [rows, List.map_map]
      refine List.map_congr_left fun other otherMember => ?_
      rw [Function.comp_apply]
      by_cases here : other = row
      · have gone : row.resealed crates env cipher plan ∉ rest := fun again => fresh
          (Column.eq_of_key member (members _ (List.mem_cons_of_mem _ again)) (key_resealed row).symm ▸ again)
        rw [here, if_pos rfl, if_neg gone, if_pos List.mem_cons_self]
      · rw [if_neg here]
        simp only [List.mem_cons, here, false_or]
    · rw [unreadable, List.countP_cons, Nat.add_assoc, Nat.add_comm (List.countP _ _)]
      simp only [decide_eq_true_eq]

end Rows

end RyuRooms.Crypto
