import RyuRooms.Foundation.Table

/-! # Newest rows in their order

What `ORDER BY stamp DESC, id DESC LIMIT n` returns is ordered, and it is closed: a row that comes before
one of the newest is one of them. The first row of such a list with some property is the one that comes
before all others with it. Rows whose stamps increase are their own order: the newest are the last ones,
and keeping only the newest drops a beginning of the list.
-/

namespace RyuRooms.Foundation

section Kept

variable {ρ : Type*} {id : ρ → String} {rows : List ρ}

/-- The rows with the ids of some last rows are these last rows. -/
theorem filter_contains_drop (distinct : (rows.map id).Nodup) (count : ℕ) :
    (rows.filter fun row => ((rows.drop count).map id).contains (id row)) = rows.drop count := by
  have apart : ((rows.take count ++ rows.drop count).map id).Nodup := by rwa [List.take_append_drop]
  rw [List.map_append, List.nodup_append] at apart
  calc rows.filter (fun row => ((rows.drop count).map id).contains (id row))
      = (rows.take count ++ rows.drop count).filter
          (fun row => ((rows.drop count).map id).contains (id row)) := by rw [List.take_append_drop]
    _ = rows.drop count := by
      rw [List.filter_append, List.filter_eq_nil_iff.mpr, List.filter_eq_self.mpr, List.nil_append]
      · intro row member
        exact List.contains_iff_mem.mpr (List.mem_map_of_mem member)
      · intro row member listed
        exact apart.2.2 _ (List.mem_map_of_mem member) _ (List.contains_iff_mem.mp listed) rfl

/-- The rows with the ids of some first rows are these first rows. -/
theorem filter_contains_take (distinct : (rows.map id).Nodup) (count : ℕ) :
    (rows.filter fun row => ((rows.take count).map id).contains (id row)) = rows.take count := by
  have apart : ((rows.take count ++ rows.drop count).map id).Nodup := by rwa [List.take_append_drop]
  rw [List.map_append, List.nodup_append] at apart
  calc rows.filter (fun row => ((rows.take count).map id).contains (id row))
      = (rows.take count ++ rows.drop count).filter
          (fun row => ((rows.take count).map id).contains (id row)) := by rw [List.take_append_drop]
    _ = rows.take count := by
      rw [List.filter_append, List.filter_eq_self.mpr, List.filter_eq_nil_iff.mpr, List.append_nil]
      · intro row member listed
        exact apart.2.2 _ (List.contains_iff_mem.mp listed) _ (List.mem_map_of_mem member) rfl
      · intro row member
        exact List.contains_iff_mem.mpr (List.mem_map_of_mem member)

variable {before : ρ → ρ → Prop} [DecidableRel before] [Std.Total before] [IsTrans ρ before]

/-- Sorting what is left of a list leaves what is left of the sorted list. -/
theorem insertionSort_filter
    (apart : ∀ left ∈ rows, ∀ right ∈ rows, before left right → before right left → left = right)
    (chosen : ρ → Bool) : (rows.filter chosen).insertionSort before = (rows.insertionSort before).filter chosen := by
  refine List.Perm.eq_of_pairwise (fun left right first second => ?_) (List.pairwise_insertionSort before _)
    ((List.pairwise_insertionSort before _).sublist List.filter_sublist) ?_
  · refine apart left ?_ right ?_
    · exact List.mem_of_mem_filter ((List.mem_insertionSort before).mp first)
    · exact (List.mem_insertionSort before).mp (List.mem_of_mem_filter second)
  · exact (List.perm_insertionSort before _).trans ((List.perm_insertionSort before rows).symm.filter chosen)

/-- What comes first in an order comes first among the rows that it is kept with. -/
theorem take_insertionSort_kept (distinct : (rows.map id).Nodup) (limit : ℕ)
    (apart : ∀ left right, before left right → before right left → id left = id right) :
    ((rows.filter fun row => (((rows.insertionSort before).take limit).map id).contains (id row)).insertionSort
      before).take limit = (rows.insertionSort before).take limit := by
  have sorted : ((rows.insertionSort before).map id).Nodup :=
    (((List.perm_insertionSort before rows).map id).nodup_iff).mpr distinct
  rw [insertionSort_filter, filter_contains_take sorted, List.take_take, min_self]
  intro left leftMem right rightMem first second
  exact List.inj_on_of_nodup_map distinct leftMem rightMem (apart left right first second)

end Kept

section Newest

variable {ρ : Type*} {stamp : ρ → ℕ} {id : ρ → String} {limit : ℕ} {rows : List ρ} {row : ρ}

/-- The newest rows stand in their order. -/
theorem pairwise_newest : (newest stamp id limit rows).Pairwise fun left right => comesFirst stamp id left right := by
  have total : Std.Total fun left right : ρ => (comesFirst stamp id left right : Prop) := ⟨comesFirst_total⟩
  have trans : IsTrans ρ fun left right => comesFirst stamp id left right := ⟨fun _ _ _ => comesFirst_trans⟩
  exact (List.pairwise_insertionSort _ rows).sublist (List.take_sublist _ _)

/-- What comes before one of the newest rows is one of them. -/
theorem mem_newest_of_comesFirst {other : ρ} (distinct : (rows.map id).Nodup) (member : other ∈ rows)
    (first : comesFirst stamp id other row) (there : row ∈ newest stamp id limit rows) :
    other ∈ newest stamp id limit rows := by
  rw [mem_newest_iff distinct (mem_of_mem_newest there)] at there
  rw [mem_newest_iff distinct member]
  refine lt_of_le_of_lt (List.countP_mono_left fun next _ later => ?_) there
  simp only [Bool.not_eq_true', Bool.eq_false_iff] at later ⊢
  exact fun before => later (comesFirst_trans first before)

/-- The first row with a property in an ordered list comes before all others with it. -/
theorem find?_eq_some_iff_of_ordered {chosen : ρ → Bool} (distinct : (rows.map id).Nodup)
    (ordered : rows.Pairwise fun left right => comesFirst stamp id left right) :
    rows.find? chosen = some row ↔
      row ∈ rows ∧ chosen row ∧ ∀ other ∈ rows, chosen other → comesFirst stamp id row other := by
  induction rows with
  | nil => simp
  | cons head rest ih =>
    obtain ⟨before, ordered⟩ := List.pairwise_cons.mp ordered
    obtain ⟨fresh, distinct⟩ := List.nodup_cons.mp distinct
    rw [List.find?_cons]
    cases here : chosen head with
    | true =>
      simp only [Option.some.injEq]
      constructor
      · rintro rfl
        refine ⟨List.mem_cons_self, here, fun other member _ => ?_⟩
        rcases List.mem_cons.mp member with rfl | later
        · simpa using comesFirst_total other other
        · exact before other later
      · rintro ⟨member, -, first⟩
        rcases List.mem_cons.mp member with rfl | later
        · rfl
        · have same := id_eq_of_comesFirst (first head List.mem_cons_self here) (before row later)
          exact absurd (same ▸ List.mem_map_of_mem later) fresh
    | false =>
      simp only [ih distinct ordered, List.mem_cons]
      constructor
      · rintro ⟨member, found, first⟩
        refine ⟨Or.inr member, found, ?_⟩
        rintro other (rfl | later) holds
        · simp [here] at holds
        · exact first other later holds
      · rintro ⟨rfl | later, found, first⟩
        · simp [here] at found
        · exact ⟨later, found, fun other member => first other (Or.inr member)⟩

/-- Changing rows apart from their stamp and id does not change which are the newest. -/
theorem newest_map {change : ρ → ρ} (stamps : ∀ row, stamp (change row) = stamp row)
    (ids : ∀ row, id (change row) = id row) :
    newest stamp id limit (rows.map change) = (newest stamp id limit rows).map change := by
  have sorted : (rows.insertionSort fun left right => comesFirst stamp id left right).map change =
      (rows.map change).insertionSort fun left right => comesFirst stamp id left right := by
    refine List.map_insertionSort _ _ change rows fun left _ right _ => ?_
    simp only [comesFirst, stamps, ids]
  rw [newest, newest, List.map_take, sorted]

section Increasing

variable (increasing : (rows.map stamp).Pairwise (· < ·))
include increasing

/-- Where stamps increase, the newest rows are the last ones. -/
theorem newest_of_increasing : newest stamp id limit rows = rows.reverse.take limit := by
  have strict (left right : ρ) : stamp right < stamp left → comesFirst stamp id left right := by
    intro before
    simp [comesFirst, before]
  have descending : rows.reverse.Pairwise fun left right => stamp right < stamp left :=
    List.pairwise_reverse.mpr (List.pairwise_map.mp increasing)
  have distinct : (rows.map stamp).Nodup := increasing.imp ne_of_lt
  have sorted : (newest stamp id rows.length rows).Pairwise fun left right => stamp right < stamp left := by
    have apart : (newest stamp id rows.length rows).Pairwise fun left right => stamp left ≠ stamp right := by
      have permuted := List.perm_insertionSort (fun left right => comesFirst stamp id left right) rows
      have nodup := ((permuted.map stamp).nodup_iff).mpr distinct
      exact (List.pairwise_map.mp nodup).sublist (List.take_sublist _ _)
    refine (pairwise_newest.and apart).imp ?_
    rintro left right ⟨first, different⟩
    simp only [comesFirst, Bool.or_eq_true, decide_eq_true_eq, Bool.and_eq_true] at first
    exact first.resolve_right fun same => different same.1.symm
  have whole : newest stamp id rows.length rows =
      rows.insertionSort fun left right => comesFirst stamp id left right :=
    List.take_of_length_le (List.length_insertionSort _ rows).le
  have same : (rows.insertionSort fun left right => comesFirst stamp id left right) = rows.reverse := by
    rw [← whole]
    refine List.Perm.eq_of_pairwise (fun left right _ _ first second => absurd first second.asymm) sorted descending ?_
    rw [whole]
    exact (List.perm_insertionSort _ rows).trans (List.reverse_perm rows).symm
  rw [newest, same]

/-- Keeping the newest rows drops a beginning of the list. -/
theorem filter_newest_of_increasing (distinct : (rows.map id).Nodup) :
    (rows.filter fun row => ((newest stamp id limit rows).map id).contains (id row)) =
      rows.drop (rows.length - limit) := by
  have kept (row : ρ) : ((newest stamp id limit rows).map id).contains (id row) =
      ((rows.drop (rows.length - limit)).map id).contains (id row) := by
    rw [newest_of_increasing increasing, List.take_reverse, List.map_reverse, List.contains_reverse]
  simp only [kept]
  exact filter_contains_drop distinct _

end Increasing

end Newest

end RyuRooms.Foundation
