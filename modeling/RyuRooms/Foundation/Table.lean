import Mathlib.Data.List.Nodup
import Mathlib.Data.List.Sort

/-! # Tables with a primary key

A table is its rows in insertion order together with the fact that no two of them share a key, so
a statement that would break the key cannot produce a table at all. `insert?` is refused on a taken
key; `update` takes the proof that its assignment leaves the key alone; `delete` and `select` only
drop rows. Each statement has one membership lemma, which is all that proofs about statements use.
`newest` is `ORDER BY stamp DESC, id DESC LIMIT n`.
-/

namespace RyuRooms.Foundation

/-- Rows in insertion order, told apart by their key. -/
structure Table (ρ : Type*) {κ : Type*} (key : ρ → κ) where
  rows : List ρ
  keys_nodup : (rows.map key).Nodup

namespace Table

variable {ρ κ : Type*} {key : ρ → κ}

instance : Membership ρ (Table ρ key) := ⟨fun table row => row ∈ table.rows⟩

theorem mem_rows {table : Table ρ key} {row : ρ} : row ∈ table.rows ↔ row ∈ table := Iff.rfl

theorem ext_rows {left right : Table ρ key} (same : left.rows = right.rows) : left = right := by
  cases left
  cases right
  simpa using same

/-- Two rows of one table with the same key are the same row. -/
theorem eq_of_key {table : Table ρ key} {left right : ρ} (leftMem : left ∈ table)
    (rightMem : right ∈ table) (same : key left = key right) : left = right :=
  List.inj_on_of_nodup_map table.keys_nodup leftMem rightMem same

/-- The table without rows. -/
def empty : Table ρ key := ⟨[], List.nodup_nil⟩

@[simp] theorem not_mem_empty (row : ρ) : row ∉ (empty : Table ρ key) := List.not_mem_nil

/-- The rows that satisfy a condition. -/
def select (table : Table ρ key) (choose : ρ → Bool) : List ρ := table.rows.filter choose

/-- `SELECT COUNT(*) … WHERE`. -/
def count (table : Table ρ key) (choose : ρ → Bool) : ℕ := table.rows.countP choose

/-- The first row, in scan order, that satisfies a condition. -/
def find? (table : Table ρ key) (choose : ρ → Bool) : Option ρ := table.rows.find? choose

@[simp] theorem mem_select {table : Table ρ key} {choose : ρ → Bool} {row : ρ} :
    row ∈ table.select choose ↔ row ∈ table ∧ choose row := List.mem_filter

theorem find?_eq_some {table : Table ρ key} {choose : ρ → Bool} {row : ρ}
    (found : table.find? choose = some row) : row ∈ table ∧ choose row :=
  ⟨List.mem_of_find?_eq_some found, List.find?_some found⟩

theorem find?_eq_none {table : Table ρ key} {choose : ρ → Bool} :
    table.find? choose = none ↔ ∀ row ∈ table, ¬ choose row := List.find?_eq_none

/-- A lookup by a condition that fixes the key finds the row that satisfies it. -/
theorem find?_eq_some_iff {table : Table ρ key} {choose : ρ → Bool}
    (fixes : ∀ left right, choose left → choose right → key left = key right) {row : ρ} :
    table.find? choose = some row ↔ row ∈ table ∧ choose row := by
  refine ⟨find?_eq_some, fun ⟨member, chosen⟩ => ?_⟩
  cases found : table.find? choose with
  | none => exact absurd chosen (find?_eq_none.mp found row member)
  | some other =>
    obtain ⟨otherMem, otherChosen⟩ := find?_eq_some found
    rw [eq_of_key otherMem member (fixes _ _ otherChosen chosen)]

theorem count_eq_zero {table : Table ρ key} {choose : ρ → Bool} :
    table.count choose = 0 ↔ ∀ row ∈ table, ¬ choose row := List.countP_eq_zero

theorem count_pos {table : Table ρ key} {choose : ρ → Bool} :
    0 < table.count choose ↔ ∃ row ∈ table, choose row := List.countP_pos_iff

theorem count_ne_zero {table : Table ρ key} {choose : ρ → Bool} :
    table.count choose ≠ 0 ↔ ∃ row ∈ table, choose row := Nat.pos_iff_ne_zero.symm.trans count_pos

/-- At most one row is counted exactly when any two that would be are the same row. -/
theorem count_le_one {table : Table ρ key} {choose : ρ → Bool} :
    table.count choose ≤ 1 ↔
      ∀ left ∈ table, ∀ right ∈ table, choose left → choose right → left = right := by
  have distinct : (table.select choose).Nodup := table.keys_nodup.of_map.filter _
  have chosen (row : ρ) : row ∈ table → choose row → row ∈ table.select choose :=
    fun member holds => mem_select.mpr ⟨member, holds⟩
  rw [count, List.countP_eq_length_filter]
  change (table.select choose).length ≤ 1 ↔ _
  constructor
  · intro bound left leftMem right rightMem leftChosen rightChosen
    match table.select choose, bound, chosen left leftMem leftChosen, chosen right rightMem rightChosen with
    | [row], _, isLeft, isRight =>
      exact (List.mem_singleton.mp isLeft).trans (List.mem_singleton.mp isRight).symm
  · intro same
    match selected : table.select choose, distinct with
    | [], _ => exact Nat.zero_le _
    | [row], _ => exact le_rfl
    | first :: second :: rest, distinct =>
      have inFirst := mem_select.mp (selected ▸ List.mem_cons_self : first ∈ table.select choose)
      have inSecond := mem_select.mp (by simp [selected] : second ∈ table.select choose)
      have equal := same first inFirst.1 second inSecond.1 inFirst.2 inSecond.2
      exact absurd (equal ▸ List.mem_cons_self) (List.nodup_cons.mp distinct).1

theorem count_congr {table : Table ρ key} {left right : ρ → Bool}
    (same : ∀ row ∈ table, left row ↔ right row) : table.count left = table.count right :=
  List.countP_congr same

/-- Conditions that exclude each other are counted apart. -/
theorem count_or {table : Table ρ key} {left right : ρ → Bool}
    (apart : ∀ row ∈ table, left row → ¬ right row) :
    table.count (fun row => left row || right row) = table.count left + table.count right := by
  have separate (rows : List ρ) (disjoint : ∀ row ∈ rows, left row → ¬ right row) :
      rows.countP (fun row => left row || right row) = rows.countP left + rows.countP right := by
    induction rows with
    | nil => rfl
    | cons row rest ih =>
      have tail := ih fun other member => disjoint other (List.mem_cons_of_mem _ member)
      have head := disjoint row List.mem_cons_self
      simp only [List.countP_cons, tail]
      cases leftRow : left row <;> cases rightRow : right row <;> simp_all <;> omega
  exact separate table.rows apart

/-- `INSERT`, refused when the key is taken. -/
def insert? [DecidableEq κ] (table : Table ρ key) (row : ρ) : Option (Table ρ key) :=
  if fresh : key row ∉ table.rows.map key then
    some ⟨table.rows ++ [row], by
      rw [List.map_append, List.map_singleton]
      exact List.nodup_append.mpr ⟨table.keys_nodup, List.nodup_singleton _, by
        intro taken takenMem other otherMem same
        rw [List.mem_singleton.mp otherMem] at same
        exact fresh (same ▸ takenMem)⟩⟩
  else none

theorem insert?_eq_some_iff [DecidableEq κ] {table next : Table ρ key} {row : ρ} :
    table.insert? row = some next ↔
      (∀ other ∈ table, key other ≠ key row) ∧ next.rows = table.rows ++ [row] := by
  unfold insert?
  split
  · next fresh =>
    have apart : ∀ other ∈ table, key other ≠ key row := fun other member same =>
      fresh (List.mem_map.mpr ⟨other, member, same⟩)
    constructor
    · intro inserted
      exact ⟨apart, by rw [← Option.some.inj inserted]⟩
    · rintro ⟨-, rows⟩
      exact congrArg some (ext_rows rows.symm)
  · next taken =>
    simp only [reduceCtorEq, false_iff, not_and]
    intro apart
    obtain ⟨other, member, same⟩ := List.mem_map.mp (not_not.mp taken)
    exact absurd same (apart other member)

theorem exists_insert? [DecidableEq κ] {table : Table ρ key} (row : ρ)
    (fresh : ∀ other ∈ table, key other ≠ key row) : ∃ next, table.insert? row = some next := by
  have free : key row ∉ table.rows.map key := by
    intro taken
    obtain ⟨other, member, same⟩ := List.mem_map.mp taken
    exact fresh other member same
  exact ⟨_, dif_pos free⟩

theorem mem_of_insert? [DecidableEq κ] {table next : Table ρ key} {row : ρ}
    (inserted : table.insert? row = some next) {other : ρ} :
    other ∈ next ↔ other ∈ table ∨ other = row := by
  rw [← mem_rows, (insert?_eq_some_iff.mp inserted).2, List.mem_append, List.mem_singleton, mem_rows]

theorem count_of_insert? [DecidableEq κ] {table next : Table ρ key} {row : ρ}
    (inserted : table.insert? row = some next) (choose : ρ → Bool) :
    next.count choose = table.count choose + if choose row then 1 else 0 := by
  rw [count, (insert?_eq_some_iff.mp inserted).2, List.countP_append, List.countP_singleton]
  rfl

/-- The rows of a later table whose key the earlier one does not have. -/
def added [DecidableEq κ] (source target : Table ρ key) : List ρ :=
  target.rows.filter fun row => decide (key row ∉ source.rows.map key)

theorem added_eq_nil [DecidableEq κ] {source target : Table ρ key}
    (known : ∀ row ∈ target, ∃ old ∈ source, key old = key row) : source.added target = [] := by
  rw [added, List.filter_eq_nil_iff]
  intro row member
  obtain ⟨old, held, same⟩ := known row member
  simp only [decide_eq_true_eq, not_not]
  exact List.mem_map.mpr ⟨old, held, same⟩

/-- An insertion adds its row. -/
theorem added_of_rows [DecidableEq κ] {source target : Table ρ key} {row : ρ}
    (fresh : ∀ other ∈ source, key other ≠ key row) (rows : target.rows = source.rows ++ [row]) :
    source.added target = [row] := by
  rw [added, rows, List.filter_append, List.filter_eq_nil_iff.mpr, List.nil_append, List.filter_eq_self]
  · intro other member
    obtain rfl := List.mem_singleton.mp member
    simp only [decide_eq_true_eq, List.mem_map, not_exists, not_and]
    exact fun old held => fresh old held
  · intro other member
    simp only [decide_eq_true_eq, not_not]
    exact List.mem_map_of_mem member

/-- `UPDATE … SET assign WHERE choose`, for an assignment that leaves the key alone. -/
def update (table : Table ρ key) (choose : ρ → Bool) (assign : ρ → ρ)
    (keeps : ∀ row, key (assign row) = key row) : Table ρ key where
  rows := table.rows.map fun row => if choose row then assign row else row
  keys_nodup := by
    have same : (table.rows.map fun row => if choose row then assign row else row).map key =
        table.rows.map key := by
      rw [List.map_map]
      apply List.map_congr_left
      intro row _
      simp only [Function.comp_apply]
      split <;> simp only [keeps]
    rw [same]
    exact table.keys_nodup

theorem mem_update {table : Table ρ key} {choose : ρ → Bool} {assign : ρ → ρ}
    {keeps : ∀ row, key (assign row) = key row} {row : ρ} :
    row ∈ table.update choose assign keeps ↔
      ∃ old ∈ table, (if choose old then assign old else old) = row := List.mem_map

/-- What an assignment leaves alone, an update leaves alone in every row. -/
theorem map_update {α : Type*} {table : Table ρ key} {choose : ρ → Bool} {assign : ρ → ρ}
    (keeps : ∀ row, key (assign row) = key row) {part : ρ → α} (same : ∀ row, part (assign row) = part row) :
    (table.update choose assign keeps).rows.map part = table.rows.map part := by
  rw [update, List.map_map]
  refine List.map_congr_left fun row _ => ?_
  simp only [Function.comp_apply]
  split
  · exact same row
  · rfl

/-- An update that finds no row changes nothing. -/
theorem update_of_count_eq_zero {table : Table ρ key} {choose : ρ → Bool} {assign : ρ → ρ}
    {keeps : ∀ row, key (assign row) = key row} (none : table.count choose = 0) :
    table.update choose assign keeps = table := by
  apply ext_rows
  have same : ∀ row ∈ table.rows, (if choose row then assign row else row) = row := fun row member =>
    if_neg (count_eq_zero.mp none row member)
  exact (List.map_congr_left same).trans (List.map_id _)

/-- An update that takes a row out of its own condition changes the table. -/
theorem update_ne {table : Table ρ key} {choose : ρ → Bool} {assign : ρ → ρ}
    (keeps : ∀ row, key (assign row) = key row) (some : ∃ row ∈ table, choose row)
    (moves : ∀ row, choose (assign row) = false) : table.update choose assign keeps ≠ table := by
  intro same
  obtain ⟨row, member, chosen⟩ := some
  rw [← same] at member
  obtain ⟨old, -, became⟩ := (@mem_update _ _ _ _ _ _ keeps _).mp member
  split at became
  · rw [← became, moves] at chosen
    cases chosen
  · next unchosen =>
    subst became
    exact unchosen chosen

/-- Rows that are changed without touching a condition are counted as before. -/
theorem count_of_map {table next : Table ρ key} {assign : ρ → ρ} (rows : next.rows = table.rows.map assign)
    {counted : ρ → Bool} (same : ∀ row, counted (assign row) = counted row) :
    next.count counted = table.count counted := by
  rw [count, rows, List.countP_map, count]
  exact List.countP_congr fun row _ => by simp [same]

/-- `DELETE … WHERE choose`. -/
def delete (table : Table ρ key) (choose : ρ → Bool) : Table ρ key where
  rows := table.rows.filter fun row => !choose row
  keys_nodup := table.keys_nodup.sublist (List.filter_sublist.map key)

theorem mem_delete {table : Table ρ key} {choose : ρ → Bool} {row : ρ} :
    row ∈ table.delete choose ↔ row ∈ table ∧ ¬ choose row := by
  simp [← mem_rows, delete]

theorem count_delete_le (table : Table ρ key) (choose counted : ρ → Bool) :
    (table.delete choose).count counted ≤ table.count counted :=
  List.filter_sublist.countP_le

section Apart

variable {table : Table ρ key} {choose : ρ → Bool}

/-- Deleting other rows leaves a selection as it was. -/
theorem select_delete_of_apart {deleted : ρ → Bool} (apart : ∀ row, deleted row → choose row = false) :
    (table.delete deleted).select choose = table.select choose := by
  change (table.rows.filter _).filter _ = table.rows.filter _
  rw [List.filter_filter]
  refine List.filter_congr fun row _ => ?_
  cases gone : deleted row with
  | false => simp
  | true => simp [apart row gone]

/-- What is left of a selection after some of it was deleted. -/
theorem select_delete_and (kept : ρ → Bool) :
    (table.delete fun row => choose row && !kept row).select choose = (table.select choose).filter kept := by
  change (table.rows.filter _).filter _ = (table.rows.filter _).filter _
  rw [List.filter_filter, List.filter_filter]
  refine List.filter_congr fun row _ => ?_
  cases chosen : choose row <;> simp [chosen]

end Apart

end Table

section Newest

variable {ρ : Type*} (stamp : ρ → ℕ) (id : ρ → String)

/-- `left` comes before `right` in the order `stamp DESC, id DESC`. -/
def comesFirst (left right : ρ) : Bool :=
  decide (stamp right < stamp left) || (decide (stamp right = stamp left) && decide (id right ≤ id left))

/-- `ORDER BY stamp DESC, id DESC LIMIT limit`. -/
def newest (limit : ℕ) (rows : List ρ) : List ρ :=
  (rows.insertionSort fun left right => comesFirst stamp id left right).take limit

variable {stamp id}

theorem mem_of_mem_newest {limit : ℕ} {rows : List ρ} {row : ρ} (member : row ∈ newest stamp id limit rows) :
    row ∈ rows :=
  (List.perm_insertionSort _ rows).mem_iff.mp (List.mem_of_mem_take member)

theorem comesFirst_total (left right : ρ) : comesFirst stamp id left right ∨ comesFirst stamp id right left := by
  simp only [comesFirst, Bool.or_eq_true, Bool.and_eq_true, decide_eq_true_eq]
  rcases lt_trichotomy (stamp left) (stamp right) with before | same | after
  · exact Or.inr (Or.inl before)
  · exact (String.le_total (id right) (id left)).imp (fun ids => Or.inr ⟨same.symm, ids⟩) fun ids => Or.inr ⟨same, ids⟩
  · exact Or.inl (Or.inl after)

theorem comesFirst_trans {left middle right : ρ} (first : comesFirst stamp id left middle)
    (second : comesFirst stamp id middle right) : comesFirst stamp id left right := by
  simp only [comesFirst, Bool.or_eq_true, Bool.and_eq_true, decide_eq_true_eq] at first second ⊢
  rcases first with before | ⟨same, ids⟩ <;> rcases second with later | ⟨equal, others⟩
  · exact Or.inl (later.trans before)
  · exact Or.inl (equal ▸ before)
  · exact Or.inl (same ▸ later)
  · exact Or.inr ⟨equal.trans same, String.le_trans others ids⟩

theorem id_eq_of_comesFirst {left right : ρ} (first : comesFirst stamp id left right)
    (second : comesFirst stamp id right left) : id left = id right := by
  simp only [comesFirst, Bool.or_eq_true, Bool.and_eq_true, decide_eq_true_eq] at first second
  rcases first with before | ⟨same, ids⟩ <;> rcases second with later | ⟨equal, others⟩
  · exact absurd before later.asymm
  · exact absurd before equal.not_gt
  · exact absurd later same.not_gt
  · exact String.le_antisymm others ids

/-- Among rows with distinct ids, one is among the newest exactly when fewer than the limit precede it. -/
theorem mem_newest_iff {limit : ℕ} {rows : List ρ} {row : ρ} (distinct : (rows.map id).Nodup) (member : row ∈ rows) :
    row ∈ newest stamp id limit rows ↔ rows.countP (fun other => !comesFirst stamp id row other) < limit := by
  have counted (limit : ℕ) (sorted : List ρ) (ordered : sorted.Pairwise fun left right => comesFirst stamp id left right)
      (distinct : (sorted.map id).Nodup) (member : row ∈ sorted) :
      row ∈ sorted.take limit ↔ sorted.countP (fun other => !comesFirst stamp id row other) < limit := by
    induction sorted generalizing limit with
    | nil => cases member
    | cons first rest ih =>
      obtain ⟨before, ordered⟩ := List.pairwise_cons.mp ordered
      obtain ⟨fresh, distinct⟩ := List.nodup_cons.mp distinct
      rcases List.mem_cons.mp member with rfl | later
      · have none : (row :: rest).countP (fun other => !comesFirst stamp id row other) = 0 := by
          rw [List.countP_eq_zero]
          rintro other (_ | ⟨_, below⟩)
          · simpa using comesFirst_total row row
          · simpa using before other below
        rw [none]
        cases limit <;> simp
      · have other : row ≠ first := by
          rintro rfl
          exact fresh (List.mem_map_of_mem later)
        have precedes : comesFirst stamp id row first = false := by
          rw [Bool.eq_false_iff]
          intro precedes
          exact fresh (id_eq_of_comesFirst precedes (before row later) ▸ List.mem_map_of_mem later)
        rw [List.countP_cons_of_pos (by simp [precedes])]
        cases limit with
        | zero => simp
        | succ limit => simpa [other] using ih limit ordered distinct later
  have permuted := List.perm_insertionSort (fun left right => comesFirst stamp id left right) rows
  have total : Std.Total fun left right : ρ => (comesFirst stamp id left right : Prop) := ⟨comesFirst_total⟩
  have trans : IsTrans ρ fun left right => comesFirst stamp id left right := ⟨fun _ _ _ => comesFirst_trans⟩
  rw [newest, counted limit _ (List.pairwise_insertionSort _ rows) ((permuted.map id).nodup_iff.mpr distinct)
    (permuted.mem_iff.mpr member), permuted.countP_eq]

/-- The newest row is the one that comes before all others. -/
theorem head?_newest_eq_some_iff {rows : List ρ} {row : ρ} (distinct : (rows.map id).Nodup) :
    (newest stamp id 1 rows).head? = some row ↔ row ∈ rows ∧ ∀ other ∈ rows, comesFirst stamp id row other := by
  have only : (newest stamp id 1 rows).head? = some row ↔ row ∈ newest stamp id 1 rows := by
    rw [newest]
    cases List.insertionSort (fun left right => comesFirst stamp id left right) rows <;> simp [eq_comm]
  rw [only]
  constructor
  · intro first
    have member := mem_of_mem_newest first
    have none := (mem_newest_iff distinct member).mp first
    rw [Nat.lt_one_iff, List.countP_eq_zero] at none
    exact ⟨member, fun other there => by simpa using none other there⟩
  · rintro ⟨member, first⟩
    rw [mem_newest_iff distinct member, Nat.lt_one_iff, List.countP_eq_zero]
    intro other there
    simp [first other there]

theorem nodup_newest {limit : ℕ} {rows : List ρ} (distinct : (rows.map id).Nodup) :
    (newest stamp id limit rows).Nodup :=
  ((List.perm_insertionSort _ rows).nodup_iff.mpr (.of_map id distinct)).sublist (List.take_sublist _ _)

/-- A row that is among the newest after it was added takes the place of one other. -/
theorem newest_append_perm {limit : ℕ} {rows : List ρ} {row : ρ} (distinct : ((rows ++ [row]).map id).Nodup)
    (there : row ∈ newest stamp id (limit + 1) (rows ++ [row])) :
    (newest stamp id (limit + 1) (rows ++ [row])).Perm (row :: newest stamp id limit rows) := by
  have others : (rows.map id).Nodup := distinct.sublist ((List.sublist_append_left _ _).map id)
  have newId : id row ∉ rows.map id := by
    rw [List.map_append, List.nodup_append] at distinct
    exact fun member => distinct.2.2 _ member _ (by simp) rfl
  have fresh : row ∉ rows := fun member => newId (List.mem_map_of_mem member)
  have placed {other : ρ} (member : other ∈ rows ++ [row]) :=
    @mem_newest_iff _ stamp id (limit + 1) _ _ distinct member
  have counted (other : ρ) : (rows ++ [row]).countP (fun next => !comesFirst stamp id other next) =
      rows.countP (fun next => !comesFirst stamp id other next) + if comesFirst stamp id other row then 0 else 1 := by
    rw [List.countP_append, List.countP_singleton]
    cases comesFirst stamp id other row <;> rfl
  refine (List.perm_ext_iff_of_nodup (nodup_newest distinct)
    (List.nodup_cons.mpr ⟨fun member => fresh (mem_of_mem_newest member), nodup_newest others⟩)).mpr fun other => ?_
  rw [List.mem_cons]
  by_cases known : other ∈ rows
  · have apart : other ≠ row := fun same => fresh (same ▸ known)
    rw [or_iff_right apart, placed (by simp [known]), mem_newest_iff others known, counted]
    split
    · next first =>
      -- what precedes `other` precedes the new row, and so does `other`
      rw [placed (by simp), counted, if_pos (by simpa using comesFirst_total row row)] at there
      have fewer : rows.countP (fun next => !comesFirst stamp id other next) <
          rows.countP (fun next => !comesFirst stamp id row next) := by
        obtain ⟨before, after, rfl⟩ := List.append_of_mem known
        have precedes (next : ρ) : (!comesFirst stamp id other next) → !comesFirst stamp id row next := by
          simp only [Bool.not_eq_true', Bool.eq_false_iff]
          exact fun later earlier => later (comesFirst_trans first earlier)
        have own : comesFirst stamp id row other = false :=
          Bool.eq_false_iff.mpr fun second => newId (id_eq_of_comesFirst first second ▸ List.mem_map_of_mem known)
        have left := @List.countP_mono_left _ _ _ before fun next _ => precedes next
        have right := @List.countP_mono_left _ _ _ after fun next _ => precedes next
        have itself : comesFirst stamp id other other := by simpa using comesFirst_total other other
        simp only [List.countP_append, List.countP_cons, own, itself] at left right ⊢
        simp only [Bool.not_true, Bool.not_false, Bool.false_eq_true, if_true, if_false]
        omega
      omega
    · omega
  · have outside : other ∉ newest stamp id limit rows := fun member => known (mem_of_mem_newest member)
    rw [or_iff_left outside]
    refine ⟨fun member => ?_, fun same => same ▸ there⟩
    simpa [known] using mem_of_mem_newest member

end Newest

end RyuRooms.Foundation
