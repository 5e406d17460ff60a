import Mathlib.Algebra.GroupWithZero.Nat
import Mathlib.Data.List.AList
import Mathlib.Data.List.Perm.Basic

/-! # Weighed maps and packed arrays

A finite map whose values have weights weighs what its values weigh together: looking a value up splits
its weight off, erasing it takes the weight away and a fresh key adds its own. A packed array is a list
out of which a slot is removed by moving the last value into it, so that only one value changes its slot.
-/

namespace RyuRooms.Foundation

section Weight

variable {κ β : Type*} (weight : β → ℕ)

/-- What the values of a map weigh together. -/
def totalWeight (map : AList fun _ : κ => β) : ℕ := (map.entries.map fun entry => weight entry.2).sum

variable {weight} {map : AList fun _ : κ => β} {key : κ} {value : β}

@[simp] theorem totalWeight_empty : totalWeight weight (∅ : AList fun _ : κ => β) = 0 := rfl

variable [DecidableEq κ]

@[simp] theorem entries_erase : (map.erase key).entries = map.entries.kerase key := rfl

/-- Erasing a key a map holds leaves one entry less. -/
theorem length_entries_erase (held : key ∈ map) :
    (map.erase key).entries.length + 1 = map.entries.length := by
  obtain ⟨_, before, after, -, split, erased⟩ := List.exists_of_kerase (AList.mem_keys.mp held)
  rw [entries_erase, erased, split]
  simp only [List.length_append, List.length_cons]
  omega

/-- A value that a map holds can be taken out of its weight. -/
theorem totalWeight_erase_add (weight : β → ℕ) (found : map.lookup key = some value) :
    totalWeight weight (map.erase key) + weight value = totalWeight weight map := by
  have held : key ∈ map.entries.keys := AList.lookup_isSome.mp (Option.isSome_of_eq_some found)
  obtain ⟨other, before, after, apart, split, erased⟩ := List.exists_of_kerase held
  have same : other = value := by
    have member : (⟨key, other⟩ : Sigma fun _ : κ => β) ∈ map.entries := by simp [split]
    exact Option.some.inj ((AList.mem_lookup_iff.mpr member).symm.trans found)
  subst same
  rw [totalWeight, totalWeight, entries_erase, erased, split]
  simp only [List.map_append, List.map_cons, List.sum_append, List.sum_cons]
  omega

theorem erase_of_lookup_eq_none (missing : map.lookup key = none) : map.erase key = map :=
  AList.ext (List.kerase_of_notMem_keys (AList.lookup_eq_none.mp missing))

theorem lookup_erase_eq_some_iff {other : κ} : (map.erase key).lookup other = some value ↔
    other ≠ key ∧ map.lookup other = some value := by
  by_cases same : other = key
  · subst same
    simp
  · simp [same, AList.lookup_erase_ne same]

theorem lookup_insert_eq_some_iff {other : κ} {inserted : β} : (map.insert key inserted).lookup other = some value ↔
    other = key ∧ inserted = value ∨ other ≠ key ∧ map.lookup other = some value := by
  by_cases same : other = key
  · subst same
    simp
  · simp [same, AList.lookup_insert_ne same]

/-- Under a key the weight is that of the value and of the rest of the map. -/
theorem totalWeight_insert : totalWeight weight (map.insert key value) =
    weight value + totalWeight weight (map.erase key) := by
  simp [totalWeight, AList.entries_insert]

/-- No value weighs more than the map that holds it. -/
theorem weight_le_totalWeight (weight : β → ℕ) (found : map.lookup key = some value) : weight value ≤ totalWeight weight map := by
  have split := totalWeight_erase_add weight found
  omega

/-- A map with at most one key weighs what the value under it weighs. -/
theorem totalWeight_le_of_only {bound : ℕ} (only : ∀ entry ∈ map.entries, entry.1 = key)
    (light : ∀ value, map.lookup key = some value → weight value ≤ bound) : totalWeight weight map ≤ bound := by
  have rest : totalWeight weight (map.erase key) = 0 := by
    have none : (map.erase key).entries = [] := by
      apply List.eq_nil_iff_forall_not_mem.mpr
      intro entry member
      have inMap : entry ∈ map.entries := (List.kerase_sublist key map.entries).subset member
      have kept : entry.1 ∈ (map.entries.kerase key).keys := List.mem_keys_of_mem member
      rw [only entry inMap] at kept
      exact List.notMem_keys_kerase key map.nodupKeys kept
    rw [totalWeight, none]
    rfl
  cases found : map.lookup key with
  | none =>
    rw [erase_of_lookup_eq_none found] at rest
    omega
  | some value =>
    have split := totalWeight_erase_add weight found
    have small := light value found
    omega

end Weight

section Slots

variable {α : Type*}

/-- `Vec::swap_remove`: the last value takes the slot of the one removed. -/
def swapRemove (values : List α) (slot : ℕ) : List α :=
  match values.getLast? with
  | none => values
  | some last => (values.set slot last).dropLast

@[simp] theorem length_swapRemove (values : List α) (slot : ℕ) :
    (swapRemove values slot).length = values.length - 1 := by
  unfold swapRemove
  split
  · next empty => simp [List.getLast?_eq_none_iff.mp empty]
  · next last _ => simp

/-- After a removal the last value stands in the freed slot, and every other value where it stood. -/
theorem getElem?_swapRemove (values : List α) (slot place : ℕ) (inside : slot < values.length) :
    (swapRemove values slot)[place]? =
      if place + 1 < values.length then if place = slot then values.getLast? else values[place]? else none := by
  unfold swapRemove
  split
  · next empty => simp [List.getLast?_eq_none_iff.mp empty] at inside
  · next last isLast =>
    rw [List.getElem?_dropLast, List.length_set]
    by_cases early : place + 1 < values.length
    · rw [if_pos (by omega), if_pos early, List.getElem?_set]
      by_cases same : slot = place
      · rw [if_pos same, if_pos same.symm, if_pos (by omega), isLast]
      · rw [if_neg same, if_neg (Ne.symm same)]
    · rw [if_neg (by omega), if_neg early]

/-- A removal takes exactly the value of its slot away. -/
theorem swapRemove_perm {values : List α} {slot : ℕ} {value : α} (held : values[slot]? = some value) :
    values.Perm (value :: swapRemove values slot) := by
  have nonempty : values ≠ [] := by
    intro empty
    simp [empty] at held
  obtain ⟨front, last, rfl⟩ : ∃ front last, values = front ++ [last] :=
    ⟨_, _, (List.dropLast_concat_getLast nonempty).symm⟩
  obtain ⟨inside, here⟩ := List.getElem?_eq_some_iff.mp held
  simp only [swapRemove, List.getLast?_concat]
  by_cases early : slot < front.length
  · rw [List.getElem_append_left early] at here
    rw [List.set_append_left _ _ early, List.dropLast_concat, ← here]
    have filled := List.set_perm_cons_eraseIdx early last
    have freed := List.getElem_cons_eraseIdx_perm early
    calc (front ++ [last]).Perm (last :: front) := List.perm_append_singleton last front
      _ |>.Perm (last :: front[slot] :: front.eraseIdx slot) := freed.symm.cons last
      _ |>.Perm (front[slot] :: last :: front.eraseIdx slot) := List.Perm.swap _ _ _
      _ |>.Perm (front[slot] :: front.set slot last) := filled.symm.cons _
  · have atEnd : slot = front.length := by
      rw [List.length_append, List.length_singleton] at inside
      omega
    subst atEnd
    have isLast : last = value := by simpa using here
    rw [isLast, List.set_append_right _ _ le_rfl, Nat.sub_self, List.set_cons_zero, List.dropLast_concat]
    exact List.perm_append_singleton value front

/-- The weight of a packed array without the value of a slot. -/
theorem sum_swapRemove_add {weights : List ℕ} {slot weight : ℕ} (held : weights[slot]? = some weight) :
    (swapRemove weights slot).sum + weight = weights.sum := by
  rw [(swapRemove_perm held).sum_nat, List.sum_cons, Nat.add_comm]

/-- The weight of a packed array with another value in a slot. -/
theorem sum_set_add {weights : List ℕ} {slot old : ℕ} (held : weights[slot]? = some old) (new : ℕ) :
    (weights.set slot new).sum + old = weights.sum + new := by
  obtain ⟨inside, rfl⟩ := List.getElem?_eq_some_iff.mp held
  have filled := (List.set_perm_cons_eraseIdx inside new).sum_nat
  have freed := (List.getElem_cons_eraseIdx_perm inside).sum_nat
  rw [List.sum_cons] at filled freed
  omega

theorem map_swapRemove {β : Type*} (f : α → β) (values : List α) (slot : ℕ) :
    (swapRemove values slot).map f = swapRemove (values.map f) slot := by
  unfold swapRemove
  rw [List.getLast?_map]
  cases values.getLast? with
  | none => rfl
  | some last => rw [Option.map_some, List.map_dropLast, List.map_set]

end Slots

section Index

variable {κ : Type*} [DecidableEq κ] {positions : AList fun _ : κ => ℕ} {keys : List κ} {key : κ} {slot : ℕ}

/-- A map finds every key of a packed array in its slot, and nothing else. -/
def Indexes (positions : AList fun _ : κ => ℕ) (keys : List κ) : Prop :=
  ∀ key slot, positions.lookup key = some slot ↔ keys[slot]? = some key

namespace Indexes

theorem empty : Indexes (∅ : AList fun _ : κ => ℕ) [] := by
  intro key slot
  simp

/-- A key stands in one slot only. -/
theorem unique (indexes : Indexes positions keys) {first second : ℕ} (here : keys[first]? = some key)
    (there : keys[second]? = some key) : first = second :=
  Option.some.inj (((indexes key first).mpr here).symm.trans ((indexes key second).mpr there))

/-- A key the index lacks is added at the end. -/
theorem push (indexes : Indexes positions keys) (fresh : positions.lookup key = none) :
    Indexes (positions.insert key keys.length) (keys ++ [key]) := by
  have absent (place : ℕ) : keys[place]? ≠ some key := by
    intro here
    rw [(indexes key place).mpr here] at fresh
    cases fresh
  intro other place
  rw [lookup_insert_eq_some_iff, indexes other place, List.getElem?_append]
  split
  · next early =>
    constructor
    · rintro (⟨rfl, rfl⟩ | ⟨_, here⟩)
      · exact absurd early (Nat.lt_irrefl _)
      · exact here
    · intro here
      refine Or.inr ⟨?_, here⟩
      rintro rfl
      exact absent place here
  · next late =>
    rw [List.getElem?_singleton, List.getElem?_eq_none (by omega)]
    constructor
    · rintro (⟨rfl, rfl⟩ | ⟨_, here⟩)
      · rw [if_pos (by omega)]
      · cases here
    · intro here
      split at here
      · next first => exact Or.inl ⟨(Option.some.inj here).symm, by omega⟩
      · cases here

/-- A key that is removed gives its slot to the key that stood last. -/
theorem swapRemove (indexes : Indexes positions keys) (found : positions.lookup key = some slot) :
    Indexes (((Foundation.swapRemove keys slot)[slot]?).elim (positions.erase key) fun moved =>
      (positions.erase key).insert moved slot) (Foundation.swapRemove keys slot) := by
  have here := (indexes key slot).mp found
  obtain ⟨inside, -⟩ := List.getElem?_eq_some_iff.mp here
  have last : keys.getLast? = keys[keys.length - 1]? := List.getLast?_eq_getElem?
  have atSlot := getElem?_swapRemove keys slot slot inside
  rw [if_pos rfl] at atSlot
  intro other place
  rw [getElem?_swapRemove keys slot place inside]
  by_cases isLast : slot + 1 < keys.length
  · rw [if_pos isLast, last] at atSlot
    obtain ⟨moved, stands⟩ : ∃ moved, keys[keys.length - 1]? = some moved :=
      ⟨_, List.getElem?_eq_getElem (by omega)⟩
    rw [atSlot, stands, Option.elim_some]
    simp only [lookup_insert_eq_some_iff, lookup_erase_eq_some_iff, indexes other place]
    constructor
    · rintro (⟨rfl, rfl⟩ | ⟨apart, kept, there⟩)
      · rw [if_pos isLast, if_pos rfl, last, stands]
      · obtain ⟨bound, -⟩ := List.getElem?_eq_some_iff.mp there
        have early : place ≠ keys.length - 1 := by
          rintro rfl
          exact apart (Option.some.inj (there.symm.trans stands))
        have elsewhere : place ≠ slot := by
          rintro rfl
          exact kept (Option.some.inj (there.symm.trans here))
        rw [if_pos (by omega), if_neg elsewhere, there]
    · intro there
      split at there
      · next early =>
        split at there
        · next freed =>
          rw [last, stands] at there
          exact Or.inl ⟨(Option.some.inj there).symm, freed.symm⟩
        · next elsewhere =>
          have apart : other ≠ moved := by
            rintro rfl
            have same := indexes.unique there stands
            omega
          have kept : other ≠ key := by
            rintro rfl
            exact elsewhere (indexes.unique there here)
          exact Or.inr ⟨apart, kept, there⟩
      · cases there
  · rw [if_neg isLast] at atSlot
    rw [atSlot, Option.elim_none]
    simp only [lookup_erase_eq_some_iff, indexes other place]
    constructor
    · rintro ⟨kept, there⟩
      obtain ⟨bound, -⟩ := List.getElem?_eq_some_iff.mp there
      have elsewhere : place ≠ slot := by
        rintro rfl
        exact kept (Option.some.inj (there.symm.trans here))
      rw [if_pos (by omega), if_neg elsewhere, there]
    · intro there
      split at there
      · next early =>
        rw [if_neg (by omega)] at there
        refine ⟨?_, there⟩
        rintro rfl
        have same := indexes.unique there here
        omega
      · cases there

end Indexes

end Index

end RyuRooms.Foundation
