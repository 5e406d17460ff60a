import RyuRooms.Model.VectorIndex

/-! # The vector cache stays within its budget

What is accounted as used is what the resident partitions weigh. Making room ends with enough of it, or
with the partition to keep alone; so a call exceeds the limit only by growing one partition beyond it, which
`upsert` does not refuse. In every run whose upserts each fit, the used bytes stay within the limit.
-/

namespace RyuRooms.Crypto

open Foundation

variable {Single Half : Type} {crates : VectorCrates Single Half}

namespace BudgetState

variable {state : BudgetState Single Half} {key keep : PartitionKey}

/-- The used bytes are those of the partitions in memory. -/
def Accounted (state : BudgetState Single Half) : Prop := state.used = totalWeight Partition.bytes state.partitions

@[simp] theorem partitions_alterMeta (index : ℕ) (change : IndexMeta → IndexMeta) :
    (state.alterMeta index change).partitions = state.partitions := rfl

@[simp] theorem used_alterMeta (index : ℕ) (change : IndexMeta → IndexMeta) :
    (state.alterMeta index change).used = state.used := rfl

@[simp] theorem accounted_alterMeta (index : ℕ) (change : IndexMeta → IndexMeta) :
    (state.alterMeta index change).Accounted ↔ state.Accounted := Iff.rfl

@[simp] theorem partitions_markEvicted : (state.markEvicted key).partitions = state.partitions := rfl

@[simp] theorem used_markEvicted : (state.markEvicted key).used = state.used := rfl

@[simp] theorem partitions_removePartition : (state.removePartition key).partitions = state.partitions.erase key := by
  unfold removePartition
  split
  · next missing => exact (erase_of_lookup_eq_none missing).symm
  · rfl

theorem Accounted.removePartition (accounted : state.Accounted) : (state.removePartition key).Accounted := by
  rw [Accounted, partitions_removePartition]
  unfold BudgetState.removePartition
  split
  · next missing => rw [erase_of_lookup_eq_none missing, accounted]
  · next old found =>
    have split := totalWeight_erase_add Partition.bytes found
    rw [Accounted] at accounted
    simp only
    omega

/-- A partition in memory weighs no more than what is used. -/
theorem Accounted.bytes_le (accounted : state.Accounted) {partition : Partition Single Half}
    (found : state.partitions.lookup key = some partition) : partition.bytes ≤ state.used :=
  accounted ▸ weight_le_totalWeight Partition.bytes found

theorem used_removePartition_le : (state.removePartition key).used ≤ state.used := by
  unfold removePartition
  split
  · exact le_rfl
  · exact Nat.sub_le _ _

/-- A partition put in the place of another one is accounted with what it weighs. -/
theorem Accounted.insert (accounted : state.Accounted) (partition : Partition Single Half) {used : ℕ}
    (counted : used + ((state.partitions.lookup key).elim 0 Partition.bytes) = state.used + partition.bytes) :
    ({ state with partitions := state.partitions.insert key partition, used } : BudgetState Single Half).Accounted := by
  rw [Accounted] at *
  rw [totalWeight_insert]
  cases found : state.partitions.lookup key with
  | none =>
    rw [found, Option.elim_none] at counted
    rw [erase_of_lookup_eq_none found]
    simp only
    omega
  | some old =>
    have split := totalWeight_erase_add Partition.bytes found
    rw [found, Option.elim_some] at counted
    simp only
    omega

/-- A victim is a partition in memory, and not the one to keep. -/
theorem of_victim? {victim : PartitionKey} (chosen : state.victim? keep = some victim) :
    victim ≠ keep ∧ victim ∈ state.partitions := by
  obtain ⟨entry, least, rfl⟩ := Option.map_eq_some_iff.mp chosen
  have member := List.argmin_mem least
  rw [List.mem_filter, decide_eq_true_eq] at member
  exact ⟨member.2, List.mem_keys_of_mem member.1⟩

theorem alone_of_victim? (none : state.victim? keep = none) :
    ∀ entry ∈ state.partitions.entries, entry.1 = keep := by
  rw [victim?, Option.map_eq_none_iff, List.argmin_eq_none, List.filter_eq_nil_iff] at none
  intro entry member
  by_contra other
  exact none entry member (decide_eq_true other)

/-- What making room leaves: enough of it, or the partition to keep alone. -/
structure MadeRoom (limit extra : ℕ) (keep : PartitionKey) (state : BudgetState Single Half)
    (made : BudgetState Single Half × Bool) : Prop where
  accounted : made.1.Accounted
  kept : made.1.partitions.lookup keep = state.partitions.lookup keep
  fits : made.2 → made.1.used + extra ≤ limit
  alone : made.2 = false → ∀ entry ∈ made.1.partitions.entries, entry.1 = keep

theorem madeRoom_evictWhile {limit extra rounds : ℕ} (accounted : state.Accounted)
    (enough : state.partitions.entries.length ≤ rounds) :
    MadeRoom limit extra keep state (evictWhile limit extra keep rounds state) := by
  induction rounds generalizing state with
  | zero =>
    have empty : state.partitions.entries = [] := List.length_eq_zero_iff.mp (Nat.le_zero.mp enough)
    refine ⟨accounted, rfl, fun fits => of_decide_eq_true fits, fun _ entry member => ?_⟩
    rw [evictWhile, empty] at member
    cases member
  | succ rounds ih =>
    rw [evictWhile]
    split
    · split
      · next alone => exact ⟨accounted, rfl, fun fits => (by cases fits), fun _ => alone_of_victim? alone⟩
      · next victim chosen =>
        obtain ⟨other, member⟩ := of_victim? chosen
        have fewer : ((state.removePartition victim).markEvicted victim).partitions.entries.length ≤ rounds := by
          rw [partitions_markEvicted, partitions_removePartition]
          have less := length_entries_erase member
          omega
        have stillAccounted : ((state.removePartition victim).markEvicted victim).Accounted :=
          accounted.removePartition
        have rest := ih stillAccounted fewer
        refine ⟨rest.accounted, rest.kept.trans ?_, rest.fits, rest.alone⟩
        rw [partitions_markEvicted, partitions_removePartition, AList.lookup_erase_ne (Ne.symm other)]
    · next fits => exact ⟨accounted, rfl, fun _ => Nat.le_of_not_lt fits, fun refused => (by cases refused)⟩

theorem madeRoom_makeRoom (limit extra : ℕ) (keep : PartitionKey) (accounted : state.Accounted) :
    MadeRoom limit extra keep state (state.makeRoom limit extra keep) :=
  madeRoom_evictWhile accounted le_rfl

/-- Where the partition to keep and the bytes to come fit together, they fit afterwards. -/
theorem MadeRoom.used_le {limit extra : ℕ} {made : BudgetState Single Half × Bool}
    (room : MadeRoom limit extra keep state made)
    (light : ∀ partition, state.partitions.lookup keep = some partition → partition.bytes + extra ≤ limit)
    (small : extra ≤ limit) : made.1.used + extra ≤ limit := by
  cases fits : made.2 with
  | true => exact room.fits fits
  | false =>
    have bounded : totalWeight Partition.bytes made.1.partitions ≤ limit - extra := by
      apply totalWeight_le_of_only (room.alone fits)
      intro partition found
      have held := light partition (room.kept ▸ found)
      omega
    have accounted := room.accounted
    rw [Accounted] at accounted
    omega

/-- The used bytes are accounted for and within the limit. -/
structure Within (limit : ℕ) (state : BudgetState Single Half) : Prop where
  accounted : state.Accounted
  bounded : state.used ≤ limit

variable {limit : ℕ}

theorem Within.removePartition (within : Within limit state) (key : PartitionKey) :
    Within limit (state.removePartition key) :=
  ⟨within.accounted.removePartition, used_removePartition_le.trans within.bounded⟩

theorem Within.alterMeta (within : Within limit state) (index : ℕ) (change : IndexMeta → IndexMeta) :
    Within limit (state.alterMeta index change) := ⟨within.accounted, within.bounded⟩

/-- Hydrating keeps the account, and a partition that fits the whole budget fits what is left of it. -/
theorem Accounted.hydrate (accounted : state.Accounted) (limit : ℕ) (key : PartitionKey)
    (built : Partition Single Half) :
    (state.hydrate limit key built).1.Accounted ∧
      (state.used ≤ limit → (state.hydrate limit key built).1.used ≤ limit) := by
  unfold BudgetState.hydrate
  have removed : ((state.removePartition key).alterMeta key.1 fun known =>
      known.setTotal key.2 (max (known.totalOf key.2) built.vectors.length)).Accounted := accounted.removePartition
  have less : ((state.removePartition key).alterMeta key.1 fun known =>
      known.setTotal key.2 (max (known.totalOf key.2) built.vectors.length)).used ≤ state.used :=
    used_removePartition_le
  have gone : ((state.removePartition key).alterMeta key.1 fun known =>
      known.setTotal key.2 (max (known.totalOf key.2) built.vectors.length)).partitions.lookup key = none := by
    rw [partitions_alterMeta, partitions_removePartition, AList.lookup_erase]
  generalize (state.removePartition key).alterMeta key.1 _ = counted at *
  simp only
  split
  · exact ⟨removed, less.trans⟩
  · next fits =>
    have room := madeRoom_makeRoom limit built.bytes key removed
    have free : (counted.makeRoom limit built.bytes key).1.used + built.bytes ≤ limit := by
      apply room.used_le _ (Nat.le_of_not_lt fits)
      intro partition found
      rw [gone] at found
      cases found
    refine ⟨(accounted_alterMeta _ _).mpr (room.accounted.insert built ?_), fun _ => free⟩
    rw [room.kept, gone, Option.elim_none, Nat.add_zero]

theorem Within.hydrate (within : Within limit state) (built : Partition Single Half) :
    Within limit (state.hydrate limit key built).1 :=
  ⟨(within.accounted.hydrate limit key built).1, (within.accounted.hydrate limit key built).2 within.bounded⟩

/-- Making room around a partition brings the used bytes within the limit exactly when it fits alone. -/
theorem makeRoom_settles (accounted : state.Accounted) {partition : Partition Single Half}
    (found : state.partitions.lookup key = some partition) :
    (if limit < state.used then (state.makeRoom limit 0 key).1 else state).Accounted ∧
      ((if limit < state.used then (state.makeRoom limit 0 key).1 else state).used ≤ limit ↔
        partition.bytes ≤ limit) := by
  split
  · have room := madeRoom_makeRoom limit 0 key accounted
    have least := weight_le_totalWeight Partition.bytes (room.kept.trans found)
    have counted : (state.makeRoom limit 0 key).1.used = totalWeight Partition.bytes _ := room.accounted
    refine ⟨room.accounted, fun bounded => by omega, fun light => room.used_le ?_ (Nat.zero_le limit)⟩
    intro other same
    obtain rfl := Option.some.inj (found.symm.trans same)
    exact light
  · next fits =>
    have least := weight_le_totalWeight Partition.bytes found
    have counted : state.used = totalWeight Partition.bytes _ := accounted
    exact ⟨accounted, fun _ => by omega, fun _ => Nat.le_of_not_lt fits⟩

/-- A partition that has changed by some bytes is accounted with them. -/
theorem Accounted.replace (accounted : state.Accounted) (grown : Partition Single Half)
    {target : Partition Single Half} (found : state.partitions.lookup key = some target) {delta : ℤ}
    (grows : (grown.bytes : ℤ) = target.bytes + delta) :
    ({ state with
      partitions := state.partitions.insert key grown
      used := ((state.used : ℤ) + delta).toNat } : BudgetState Single Half).Accounted := by
  have least := accounted.bytes_le found
  apply accounted.insert
  rw [found, Option.elim_some]
  omega

/-- Growing a partition leaves the used bytes within the limit exactly when the partition fits it alone. -/
theorem Accounted.grow_iff (accounted : state.Accounted) (grown : Partition Single Half)
    {target : Partition Single Half} (found : state.partitions.lookup key = some target) {delta : ℤ}
    (grows : (grown.bytes : ℤ) = target.bytes + delta) (existed : Bool) :
    (state.grow limit key grown delta existed).Accounted ∧
      ((state.grow limit key grown delta existed).used ≤ limit ↔ grown.bytes ≤ limit) := by
  have changed := accounted.replace grown found grows
  have here : (state.partitions.insert key grown).lookup key = some grown := AList.lookup_insert _
  cases existed with
  | true => exact makeRoom_settles changed here
  | false =>
    have counted := (accounted_alterMeta key.1 fun known => known.setTotal key.2 (known.totalOf key.2 + 1)).mpr changed
    exact makeRoom_settles counted here

theorem Accounted.shrink (accounted : state.Accounted) {left target : Partition Single Half} {removed : ℕ}
    (found : state.partitions.lookup key = some target) (shrinks : left.bytes + removed = target.bytes) :
    (state.shrink key left removed).Accounted := by
  have changed : ({ state with
      partitions := state.partitions.insert key left
      used := state.used - removed } : BudgetState Single Half).Accounted := by
    have least := accounted.bytes_le found
    apply accounted.insert
    rw [found, Option.elim_some]
    omega
  unfold BudgetState.shrink
  simp only
  split
  · exact changed
  · exact changed

theorem used_shrink (left : Partition Single Half) (removed : ℕ) :
    (state.shrink key left removed).used = state.used - removed := by
  unfold BudgetState.shrink
  simp only
  split <;> rfl

theorem Within.shrink (within : Within limit state) {left target : Partition Single Half} {removed : ℕ}
    (found : state.partitions.lookup key = some target) (shrinks : left.bytes + removed = target.bytes) :
    Within limit (state.shrink key left removed) := by
  refine ⟨within.accounted.shrink found shrinks, ?_⟩
  rw [used_shrink]
  exact (Nat.sub_le _ _).trans within.bounded

end BudgetState

section Upserts

variable {budget : VectorBudget Single Half} {partition : Partition Single Half} {id : String}

/-- The bytes a partition holds under an id. -/
def Partition.heldBytes (partition : Partition Single Half) (id : String) : ℕ :=
  match found : partition.positions.lookup id with
  | none => 0
  | some _ => (partition.at_ found).bytes

namespace Partition

theorem heldBytes_of_found {position : ℕ} (found : partition.positions.lookup id = some position) :
    partition.heldBytes id = (partition.at_ found).bytes := by
  unfold heldBytes
  split
  · next missing =>
    rw [missing] at found
    cases found
  · next other same =>
    obtain rfl : other = position := Option.some.inj (same.symm.trans found)
    rfl

theorem heldBytes_of_missing (missing : partition.positions.lookup id = none) : partition.heldBytes id = 0 := by
  unfold heldBytes
  split
  · rfl
  · next other same =>
    rw [missing] at same
    cases same

theorem heldBytes_le (partition : Partition Single Half) (id : String) :
    partition.heldBytes id ≤ partition.bytes := by
  cases found : partition.positions.lookup id with
  | none =>
    rw [heldBytes_of_missing found]
    exact Nat.zero_le _
  | some position =>
    have split := sum_swapRemove_add (getElem?_bytes_at found)
    rw [heldBytes_of_found found, partition.counted]
    omega

/-- A vector is accounted with its own size, in the place of the one it replaces. -/
theorem upsert_bytes (crates : VectorCrates Single Half) (partition : Partition Single Half) (id : String)
    (vector : List Single) :
    (partition.upsert crates id vector).1.bytes + partition.heldBytes id =
        partition.bytes + vectorBytes id vector.length ∧
      (partition.upsert crates id vector).2 = (vectorBytes id vector.length : ℤ) - partition.heldBytes id := by
  have bound := partition.heldBytes_le id
  cases found : partition.positions.lookup id with
  | none =>
    rw [heldBytes_of_missing found, upsert_of_fresh crates found]
    simp [push]
  | some position =>
    rw [heldBytes_of_found found] at bound ⊢
    rw [upsert_of_found crates found]
    simp only [replace, bytes_encode, and_true]
    omega

theorem remove_bytes : (partition.remove id).1.bytes + (partition.remove id).2 = partition.bytes := by
  have bound := partition.heldBytes_le id
  cases found : partition.positions.lookup id with
  | none => rw [remove_of_missing found, Nat.add_zero]
  | some position =>
    rw [heldBytes_of_found found] at bound
    rw [remove_of_found found]
    exact Nat.sub_add_cancel bound

end Partition

end Upserts

section Calls

variable {budget : VectorBudget Single Half} {index : VectorIndex} {name : String}

/-- An upsert leaves its partition within the limit, counted alone. -/
def LeavesRoom (budget : VectorBudget Single Half) : IndexCall Single → Prop
  | .upsert index name id vector => ∀ target ∈ budget.state.partitions.lookup (index.key name),
      target.bytes + vectorBytes id vector.length ≤ budget.limit + target.heldBytes id
  | _ => True

instance (call : IndexCall Single) : Decidable (LeavesRoom budget call) := by
  cases call <;> unfold LeavesRoom <;> infer_instance

theorem limit_after (call : IndexCall Single) : (call.after crates budget).limit = budget.limit := by
  cases call with
  | withBudget name => rfl
  | hydratePartition index name vectors => rfl
  | setPartitionTotal index name total => rfl
  | upsert index name id vector =>
    simp only [IndexCall.after, VectorIndex.upsert]
    split <;> rfl
  | remove index name id =>
    simp only [IndexCall.after, VectorIndex.remove]
    split <;> rfl
  | dropPartition index name => rfl
  | search index name query k =>
    simp only [IndexCall.after, VectorIndex.search, VectorIndex.searchFiltered]
    split <;> rfl
  | searchFiltered index name query k keep =>
    simp only [IndexCall.after, VectorIndex.searchFiltered]
    split <;> rfl

/-- What an upsert adds to its partition is what it reports. -/
theorem Partition.upsert_grows (crates : VectorCrates Single Half) (target : Partition Single Half) (id : String)
    (vector : List Single) :
    ((target.upsert crates id vector).1.bytes : ℤ) = target.bytes + (target.upsert crates id vector).2 := by
  obtain ⟨counted, grows⟩ := target.upsert_bytes crates id vector
  omega

/-- A search only moves the time of a partition's last use. -/
theorem accounted_searchFiltered (accounted : budget.state.Accounted) (query : List Single) (k : ℕ)
    (keep : String → Bool) :
    (index.searchFiltered crates name query k keep budget).1.state.Accounted ∧
      (index.searchFiltered crates name query k keep budget).1.state.used = budget.state.used := by
  unfold VectorIndex.searchFiltered
  split
  · exact ⟨accounted, rfl⟩
  · next target found =>
    refine ⟨accounted.insert _ ?_, rfl⟩
    rw [found]
    rfl

/-- Every call keeps the account. -/
theorem accounted_after (call : IndexCall Single) (accounted : budget.state.Accounted) :
    (call.after crates budget).state.Accounted := by
  cases call with
  | withBudget name => exact accounted
  | hydratePartition index name vectors => exact (accounted.hydrate _ _ _).1
  | setPartitionTotal index name total => exact accounted
  | upsert index name id vector =>
    simp only [IndexCall.after, VectorIndex.upsert]
    split
    · exact accounted
    · next target found =>
      let grown := { (target.upsert crates id vector).1 with lastUsed := budget.clock }
      exact (accounted.grow_iff grown found (target.upsert_grows crates id vector) _).1
  | remove index name id =>
    simp only [IndexCall.after, VectorIndex.remove]
    split
    · exact accounted
    · next target found => exact accounted.shrink found target.remove_bytes
  | dropPartition index name => exact accounted.removePartition
  | search index name query k => exact (accounted_searchFiltered accounted query k _).1
  | searchFiltered index name query k keep => exact (accounted_searchFiltered accounted query k keep).1

/-- A call that leaves room keeps the budget. -/
theorem within_after {call : IndexCall Single} (within : budget.state.Within budget.limit)
    (room : LeavesRoom budget call) : (call.after crates budget).state.Within budget.limit := by
  refine ⟨accounted_after call within.accounted, ?_⟩
  have searched (index : VectorIndex) (name : String) (query : List Single) (k : ℕ) (keep : String → Bool) :
      (index.searchFiltered crates name query k keep budget).1.state.used ≤ budget.limit :=
    (accounted_searchFiltered within.accounted query k keep).2.trans_le within.bounded
  cases call with
  | withBudget name => exact within.bounded
  | hydratePartition index name vectors => exact (within.hydrate _).bounded
  | setPartitionTotal index name total => exact within.bounded
  | upsert index name id vector =>
    simp only [IndexCall.after, VectorIndex.upsert]
    split
    · exact within.bounded
    · next target found =>
      have counted := (target.upsert_bytes crates id vector).1
      have fits := room target found
      let grown := { (target.upsert crates id vector).1 with lastUsed := budget.clock }
      have light : grown.bytes ≤ budget.limit := by
        change (target.upsert crates id vector).1.bytes ≤ _
        omega
      exact (within.accounted.grow_iff grown found (target.upsert_grows crates id vector) _).2.mpr light
  | remove index name id =>
    simp only [IndexCall.after, VectorIndex.remove]
    split
    · exact within.bounded
    · next target found => exact (within.shrink found target.remove_bytes).bounded
  | dropPartition index name => exact (within.removePartition _).bounded
  | search index name query k => exact searched index name query k _
  | searchFiltered index name query k keep => exact searched index name query k keep

/-- In every run whose upserts each leave their partition within the limit, the used bytes stay within it. -/
theorem usedBytes_le_limit {calls : List (IndexCall Single)}
    (run : ((vectorCache crates).guard LeavesRoom).Run calls budget) : budget.usedBytes ≤ budget.limit := by
  have within : (fun budget : VectorBudget Single Half => budget.state.Within budget.limit) budget := by
    apply run.invariant
    · rintro state ⟨limit, rfl⟩
      exact ⟨rfl, Nat.zero_le _⟩
    · intro state call next within step
      obtain ⟨room, moved⟩ := Machine.guard_step_iff.mp step
      cases moved
      rw [limit_after]
      exact within_after within room
  exact within.bounded

end Calls

section Samples

/-- Whole numbers in the place of `f32` and `f16`. -/
def wholeNumbers : VectorCrates ℕ ℕ where
  fromF32 := id
  toF32 := id
  zero := 0
  emptySum := 0
  add := (· + ·)
  mul := (· * ·)
  div := (· / ·)
  sqrt := Nat.sqrt
  positive value := decide (0 < value)
  atMost left right := decide (left ≤ right)
  atMost_total left right := by simpa using Nat.le_total left right
  atMost_trans left middle right := by simpa using Nat.le_trans
  selectNth _ scored := scored.mergeSort fun left right => decide (right.1 ≤ left.1)
  selectNth_perm _ scored := List.mergeSort_perm scored _
  selectNth_atMost nth scored := by
    have sorted : (scored.mergeSort fun left right => decide (right.1 ≤ left.1)).Pairwise
        fun left right => decide (right.1 ≤ left.1) := by
      apply List.pairwise_mergeSort
      · intro first second third
        simpa using fun (left : second.1 ≤ first.1) (right : third.1 ≤ second.1) => right.trans left
      · intro first second
        simpa using Nat.le_total second.1 first.1
    rw [← List.take_append_drop (nth + 1) (List.mergeSort _ _)] at sorted
    intro early earlyMem late lateMem
    exact (List.pairwise_append.mp sorted).2.2 early earlyMem late lateMem

/-- An index, and a partition of one vector that is grown by another one. -/
def growing : List (IndexCall ℕ) :=
  [.withBudget "notes", .hydratePartition ⟨"notes", 1⟩ "space" [("x", [1])], .upsert ⟨"notes", 1⟩ "space" "y" [1]]

end Samples

/-- With room for both vectors the calls stay within the budget. -/
theorem usedBytes_le_limit_growing : ∃ budget : VectorBudget ℕ ℕ,
    ((vectorCache wholeNumbers).guard LeavesRoom).Run growing budget ∧ budget.usedBytes = 136 ∧
      budget.usedBytes ≤ budget.limit := by
  have enabled : (((vectorCache wholeNumbers).guard LeavesRoom).run? (VectorBudget.new 200) growing).any
      fun budget => decide (budget.usedBytes = 136) := by
    decide +kernel
  have initial : ((vectorCache wholeNumbers).guard LeavesRoom).Initial (VectorBudget.new 200) := ⟨200, rfl⟩
  obtain ⟨budget, run, used⟩ := Machine.Run.of_check initial enabled
  exact ⟨budget, run, used, usedBytes_le_limit run⟩

/-- A lone partition is grown beyond a budget of a hundred bytes: nothing is left to evict. -/
theorem usedBytes_gt_limit_growing : ¬ ∀ (calls : List (IndexCall ℕ)) (budget : VectorBudget ℕ ℕ),
    (vectorCache wholeNumbers).Run calls budget → budget.usedBytes ≤ budget.limit := by
  have grown : ((vectorCache wholeNumbers).run? (VectorBudget.new 100) growing).any
      fun budget => decide (budget.usedBytes = 136 ∧ budget.limit = 100) := by
    decide +kernel
  have initial : (vectorCache wholeNumbers).Initial (VectorBudget.new 100) := ⟨100, rfl⟩
  obtain ⟨budget, run, used, limit⟩ := Machine.Run.of_check initial grown
  intro bounded
  have within := bounded growing budget run
  omega

end RyuRooms.Crypto
