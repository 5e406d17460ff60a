import Mathlib.Order.Interval.Set.Defs
import Mathlib.Data.Set.Function
import RyuRooms.Crypto.VectorBudget

/-! # The vector cache agrees with itself

In every reachable state the used bytes are those of the partitions in memory, each of which weighs what
its vectors weigh and pairs its ids with the slots of its packed array, and none of which its index counts
as evicted. What a call takes from a byte count is listed along the call's own path; in a reachable state
no more is ever taken than there is.
-/

namespace RyuRooms.Crypto

open Foundation

variable {Single Half : Type} {crates : VectorCrates Single Half}

namespace Partition

variable {partition : Partition Single Half}

/-- The slot of an id; zero for the ids that have none. -/
def slotOf (partition : Partition Single Half) (id : String) : ℕ := (partition.positions.lookup id).getD 0

theorem lookup_of_mem {id : String} (held : id ∈ partition.positions) :
    partition.positions.lookup id = some (partition.slotOf id) := by
  obtain ⟨slot, found⟩ := Option.isSome_iff_exists.mp (AList.lookup_isSome.mpr held)
  rw [slotOf, found, Option.getD_some]

/-- The ids of a partition and the slots of its packed array are in one-to-one correspondence. -/
theorem bijOn_slotOf (partition : Partition Single Half) :
    Set.BijOn partition.slotOf {id | id ∈ partition.positions} (Set.Iio partition.vectors.length) := by
  refine ⟨fun id held => ?_, fun first here second there same => ?_, fun slot inside => ?_⟩
  · obtain ⟨inside, -⟩ := List.getElem?_eq_some_iff.mp ((partition.indexed id _).mp (lookup_of_mem held))
    simpa using inside
  · have stands := (partition.indexed first _).mp (lookup_of_mem here)
    have other := (partition.indexed second _).mp (lookup_of_mem there)
    rw [same, other] at stands
    exact (Option.some.inj stands).symm
  · have stands : (partition.vectors.map StoredVector.id)[slot]? = some (partition.vectors.get ⟨slot, inside⟩).id := by
      rw [List.getElem?_map, List.getElem?_eq_getElem inside]
      rfl
    have found := (partition.indexed _ slot).mpr stands
    refine ⟨_, AList.lookup_isSome.mp (Option.isSome_of_eq_some found), ?_⟩
    rw [slotOf, found, Option.getD_some]

/-- The vector in the slot of an id is stored under that id. -/
theorem id_of_slotOf {id : String} (held : id ∈ partition.positions) :
    (partition.vectors[partition.slotOf id]?).map StoredVector.id = some id := by
  rw [← List.getElem?_map]
  exact (partition.indexed id _).mp (lookup_of_mem held)

end Partition

namespace BudgetState

variable {state : BudgetState Single Half} {key : PartitionKey}

/-- No partition in memory is counted as evicted by its index. -/
def Apart (state : BudgetState Single Half) : Prop :=
  ∀ key ∈ state.partitions, key.2 ∉ (state.metaOf key.1).evicted

theorem metaOf_alterMeta (index other : ℕ) (change : IndexMeta → IndexMeta) :
    (state.alterMeta index change).metaOf other =
      if other = index then change (state.metaOf index) else state.metaOf other := by
  unfold metaOf alterMeta
  split
  · next same => rw [same, AList.lookup_insert, Option.getD_some, metaOf]
  · next apart => rw [AList.lookup_insert_ne apart]

namespace Apart

/-- Forgetting evictions keeps the two apart. -/
theorem alterMeta (apart : state.Apart) (index : ℕ) (change : IndexMeta → IndexMeta)
    (fewer : ∀ known, (change known).evicted ⊆ known.evicted) : (state.alterMeta index change).Apart := by
  intro key resident evicted
  rw [metaOf_alterMeta] at evicted
  split at evicted
  · next same => exact apart key resident (same ▸ fewer _ evicted)
  · exact apart key resident evicted

theorem setTotal (apart : state.Apart) (index : ℕ) (name : String) (total : IndexMeta → ℕ) :
    (state.alterMeta index fun known => known.setTotal name (total known)).Apart :=
  apart.alterMeta index _ fun _ => Finset.Subset.refl _

theorem removePartition (apart : state.Apart) (key : PartitionKey) : (state.removePartition key).Apart := by
  intro other resident
  rw [partitions_removePartition, AList.mem_erase] at resident
  have same : (state.removePartition key).metaOf other.1 = state.metaOf other.1 := by
    unfold BudgetState.removePartition
    split <;> rfl
  rw [same]
  exact apart other resident.2

/-- A partition that is not in memory may be counted as evicted. -/
theorem markEvicted (apart : state.Apart) (gone : key ∉ state.partitions) : (state.markEvicted key).Apart := by
  intro other resident evicted
  rw [BudgetState.markEvicted, metaOf_alterMeta] at evicted
  rw [partitions_markEvicted] at resident
  split at evicted
  · next same =>
    obtain named | before := Finset.mem_insert.mp evicted
    · exact gone (Prod.ext same named ▸ resident)
    · exact apart other resident (same ▸ before)
  · exact apart other resident evicted

theorem not_mem_removePartition : key ∉ (state.removePartition key).partitions := by
  rw [partitions_removePartition, AList.mem_erase]
  exact fun held => held.1 rfl

theorem evictWhile (apart : state.Apart) (limit extra rounds : ℕ) (keep : PartitionKey) :
    (evictWhile limit extra keep rounds state).1.Apart := by
  induction rounds generalizing state with
  | zero => exact apart
  | succ rounds ih =>
    rw [BudgetState.evictWhile]
    split
    · split
      · exact apart
      · next victim _ => exact ih ((apart.removePartition victim).markEvicted not_mem_removePartition)
    · exact apart

theorem makeRoom (apart : state.Apart) (limit extra : ℕ) (keep : PartitionKey) :
    (state.makeRoom limit extra keep).1.Apart :=
  apart.evictWhile limit extra _ keep

/-- A partition put into memory is no longer counted as evicted. -/
theorem hydrate (apart : state.Apart) (limit : ℕ) (key : PartitionKey) (built : Partition Single Half) :
    (state.hydrate limit key built).1.Apart := by
  unfold BudgetState.hydrate
  have removed := (apart.removePartition key).setTotal key.1 key.2 fun known =>
    max (known.totalOf key.2) built.vectors.length
  simp only
  split
  · exact removed.markEvicted not_mem_removePartition
  · have room := removed.makeRoom limit built.bytes key
    intro other resident evicted
    rw [metaOf_alterMeta] at evicted
    rw [partitions_alterMeta, AList.mem_insert] at resident
    split at evicted
    · next same =>
      obtain ⟨other_ne, before⟩ := Finset.mem_erase.mp evicted
      obtain rfl | stayed := resident
      · exact other_ne rfl
      · exact room other stayed (same ▸ before)
    · next index_ne =>
      obtain rfl | stayed := resident
      · exact index_ne rfl
      · exact room other stayed evicted

/-- Another partition in the place of one in memory changes nothing. -/
theorem insert (apart : state.Apart) (resident : key ∈ state.partitions) (partition : Partition Single Half)
    (used : ℕ) :
    ({ state with partitions := state.partitions.insert key partition, used } : BudgetState Single Half).Apart := by
  intro other held
  obtain rfl | stayed := (AList.mem_insert _).mp held
  · exact apart other resident
  · exact apart other stayed

theorem grow (apart : state.Apart) (resident : key ∈ state.partitions) (limit : ℕ) (grown : Partition Single Half)
    (delta : ℤ) (existed : Bool) : (state.grow limit key grown delta existed).Apart := by
  have changed := apart.insert resident grown ((state.used : ℤ) + delta).toNat
  have settles {other : BudgetState Single Half} (kept : other.Apart) :
      (if limit < other.used then (other.makeRoom limit 0 key).1 else other).Apart := by
    split
    · exact kept.makeRoom limit 0 key
    · exact kept
  cases existed with
  | true => exact settles changed
  | false => exact settles (changed.setTotal key.1 key.2 fun known => known.totalOf key.2 + 1)

theorem shrink (apart : state.Apart) (resident : key ∈ state.partitions) (left : Partition Single Half)
    (removed : ℕ) : (state.shrink key left removed).Apart := by
  have changed := apart.insert resident left (state.used - removed)
  unfold BudgetState.shrink
  simp only
  split
  · apply changed.alterMeta
    intro known
    cases known.totals.lookup key.2 with
    | none => exact Finset.Subset.refl _
    | some total => exact Finset.Subset.refl _
  · exact changed

end Apart

end BudgetState

section Takes

variable {budget : VectorBudget Single Half}

/-- What the methods below list is each subtraction of a byte count that the call makes on its way, as the
count and what is taken from it. -/
def Covered (takes : List (ℕ × ℕ)) : Prop := ∀ take ∈ takes, take.2 ≤ take.1

@[simp] theorem covered_nil : Covered [] := by simp [Covered]

@[simp] theorem covered_append {first second : List (ℕ × ℕ)} :
    Covered (first ++ second) ↔ Covered first ∧ Covered second := by
  simp [Covered, or_imp, forall_and]

@[simp] theorem covered_cons {take : ℕ × ℕ} {rest : List (ℕ × ℕ)} :
    Covered (take :: rest) ↔ take.2 ≤ take.1 ∧ Covered rest := by
  simp [Covered]

namespace Partition

/-- `self.bytes + size - old`. -/
def upsertTakes (partition : Partition Single Half) (id : String) (vector : List Single) : List (ℕ × ℕ) :=
  if (partition.positions.lookup id).isSome then
    [(partition.bytes + vectorBytes id vector.length, partition.heldBytes id)]
  else []

/-- `self.bytes -= size`. -/
def removeTakes (partition : Partition Single Half) (id : String) : List (ℕ × ℕ) :=
  if (partition.positions.lookup id).isSome then [(partition.bytes, partition.heldBytes id)] else []

theorem covered_upsertTakes (partition : Partition Single Half) (id : String) (vector : List Single) :
    Covered (partition.upsertTakes id vector) := by
  unfold upsertTakes
  split
  · simpa using (partition.heldBytes_le id).trans (Nat.le_add_right _ _)
  · exact covered_nil

theorem covered_removeTakes (partition : Partition Single Half) (id : String) :
    Covered (partition.removeTakes id) := by
  unfold removeTakes
  split
  · simpa using partition.heldBytes_le id
  · exact covered_nil

/-- The upserts of a partition that is built. -/
def buildTakes (crates : VectorCrates Single Half) (built : Partition Single Half) :
    List (String × List Single) → List (ℕ × ℕ)
  | [] => []
  | entry :: rest =>
    built.upsertTakes entry.1 entry.2 ++ buildTakes crates (built.upsert crates entry.1 entry.2).1 rest

theorem covered_buildTakes (built : Partition Single Half) (vectors : List (String × List Single)) :
    Covered (built.buildTakes crates vectors) := by
  induction vectors generalizing built with
  | nil => exact covered_nil
  | cons entry rest ih => exact covered_append.mpr ⟨built.covered_upsertTakes _ _, ih _⟩

end Partition

namespace BudgetState

variable {state : BudgetState Single Half} {key : PartitionKey}

/-- `state.used -= old.bytes`. -/
def removePartitionTakes (state : BudgetState Single Half) (key : PartitionKey) : List (ℕ × ℕ) :=
  (state.partitions.lookup key).toList.map fun old => (state.used, old.bytes)

def evictWhileTakes (limit extra : ℕ) (keep : PartitionKey) : ℕ → BudgetState Single Half → List (ℕ × ℕ)
  | 0, _ => []
  | rounds + 1, state =>
    if limit < state.used + extra then
      match state.victim? keep with
      | none => []
      | some victim => state.removePartitionTakes victim ++
          evictWhileTakes limit extra keep rounds ((state.removePartition victim).markEvicted victim)
    else []

def makeRoomTakes (limit : ℕ) (state : BudgetState Single Half) (extra : ℕ) (keep : PartitionKey) : List (ℕ × ℕ) :=
  evictWhileTakes limit extra keep state.partitions.entries.length state

def hydrateTakes (state : BudgetState Single Half) (limit : ℕ) (key : PartitionKey) (built : Partition Single Half) :
    List (ℕ × ℕ) :=
  let left := (state.removePartition key).alterMeta key.1 fun known =>
    known.setTotal key.2 (max (known.totalOf key.2) built.vectors.length)
  state.removePartitionTakes key ++ if limit < built.bytes then [] else left.makeRoomTakes limit built.bytes key

/-- `(state.used as isize + delta) as usize` takes bytes away where `delta` is negative. -/
def growTakes (state : BudgetState Single Half) (limit : ℕ) (key : PartitionKey) (grown : Partition Single Half)
    (delta : ℤ) (existed : Bool) : List (ℕ × ℕ) :=
  let changed := { state with
    partitions := state.partitions.insert key grown
    used := ((state.used : ℤ) + delta).toNat }
  let changed := if existed then changed
    else changed.alterMeta key.1 fun known => known.setTotal key.2 (known.totalOf key.2 + 1)
  (state.used, (-delta).toNat) :: if limit < changed.used then changed.makeRoomTakes limit 0 key else []

theorem Accounted.covered_removePartitionTakes (accounted : state.Accounted) (key : PartitionKey) :
    Covered (state.removePartitionTakes key) := by
  unfold removePartitionTakes
  cases found : state.partitions.lookup key with
  | none => exact covered_nil
  | some old => simpa using accounted.bytes_le found

theorem Accounted.covered_evictWhileTakes (accounted : state.Accounted) (limit extra rounds : ℕ)
    (keep : PartitionKey) : Covered (evictWhileTakes limit extra keep rounds state) := by
  induction rounds generalizing state with
  | zero => exact covered_nil
  | succ rounds ih =>
    rw [evictWhileTakes]
    split
    · split
      · exact covered_nil
      · next victim _ =>
        exact covered_append.mpr ⟨accounted.covered_removePartitionTakes victim, ih accounted.removePartition⟩
    · exact covered_nil

theorem Accounted.covered_makeRoomTakes (accounted : state.Accounted) (limit extra : ℕ) (keep : PartitionKey) :
    Covered (state.makeRoomTakes limit extra keep) :=
  accounted.covered_evictWhileTakes limit extra _ keep

theorem Accounted.covered_hydrateTakes (accounted : state.Accounted) (limit : ℕ) (key : PartitionKey)
    (built : Partition Single Half) : Covered (state.hydrateTakes limit key built) := by
  unfold hydrateTakes
  refine covered_append.mpr ⟨accounted.covered_removePartitionTakes key, ?_⟩
  split
  · exact covered_nil
  · exact ((accounted_alterMeta _ _).mpr accounted.removePartition).covered_makeRoomTakes limit _ key

theorem Accounted.covered_growTakes (accounted : state.Accounted) (limit : ℕ) (grown : Partition Single Half)
    {target : Partition Single Half} (found : state.partitions.lookup key = some target) {delta : ℤ}
    (grows : (grown.bytes : ℤ) = target.bytes + delta) (existed : Bool) :
    Covered (state.growTakes limit key grown delta existed) := by
  have least := accounted.bytes_le found
  have changed := accounted.replace grown found grows
  have room {other : BudgetState Single Half} (kept : other.Accounted) :
      Covered (if limit < other.used then other.makeRoomTakes limit 0 key else []) := by
    split
    · exact kept.covered_makeRoomTakes limit 0 key
    · exact covered_nil
  unfold growTakes
  refine covered_cons.mpr ⟨?_, ?_⟩
  · simp only
    omega
  · cases existed with
    | true => exact room changed
    | false =>
      exact room ((accounted_alterMeta key.1 fun known => known.setTotal key.2 (known.totalOf key.2 + 1)).mpr changed)

end BudgetState

/-- What a call takes from the byte counts, in the order in which it does. -/
def IndexCall.takes (crates : VectorCrates Single Half) (budget : VectorBudget Single Half) :
    IndexCall Single → List (ℕ × ℕ)
  | .hydratePartition index name vectors =>
    let built := vectors.foldl (fun built entry => (built.upsert crates entry.1 entry.2).1) Partition.new
    Partition.new.buildTakes crates vectors ++
      budget.state.hydrateTakes budget.limit (index.key name) { built with lastUsed := budget.clock }
  | .upsert index name id vector =>
    match budget.state.partitions.lookup (index.key name) with
    | none => []
    | some target =>
      let grown := { (target.upsert crates id vector).1 with lastUsed := budget.clock }
      target.upsertTakes id vector ++ budget.state.growTakes budget.limit (index.key name) grown
        (target.upsert crates id vector).2 (target.positions.lookup id).isSome
  | .remove index name id =>
    match budget.state.partitions.lookup (index.key name) with
    | none => []
    | some target => target.removeTakes id ++ [(budget.state.used, (target.remove id).2)]
  | .dropPartition index name => budget.state.removePartitionTakes (index.key name)
  | .withBudget _ | .setPartitionTotal _ _ _ | .search _ _ _ _ | .searchFiltered _ _ _ _ _ => []

/-- No call takes more from an accounted budget than there is. -/
theorem covered_takes (accounted : budget.state.Accounted) (call : IndexCall Single) :
    Covered (call.takes crates budget) := by
  cases call with
  | withBudget name => exact covered_nil
  | hydratePartition index name vectors =>
    exact covered_append.mpr ⟨Partition.covered_buildTakes _ _, accounted.covered_hydrateTakes _ _ _⟩
  | setPartitionTotal index name total => exact covered_nil
  | upsert index name id vector =>
    simp only [IndexCall.takes]
    split
    · exact covered_nil
    · next target found =>
      let grown := { (target.upsert crates id vector).1 with lastUsed := budget.clock }
      exact covered_append.mpr ⟨target.covered_upsertTakes id vector,
        accounted.covered_growTakes _ grown found (target.upsert_grows crates id vector) _⟩
  | remove index name id =>
    simp only [IndexCall.takes]
    split
    · exact covered_nil
    · next target found =>
      refine covered_append.mpr ⟨target.covered_removeTakes id, covered_cons.mpr ⟨?_, covered_nil⟩⟩
      have whole : (target.remove id).1.bytes + (target.remove id).2 = target.bytes := target.remove_bytes
      have least := accounted.bytes_le found
      simp only
      omega
  | dropPartition index name => exact accounted.covered_removePartitionTakes _
  | search index name query k => exact covered_nil
  | searchFiltered index name query k keep => exact covered_nil

end Takes

section Runs

variable {budget : VectorBudget Single Half}

/-- A search neither loads nor evicts. -/
theorem apart_searchFiltered (apart : budget.state.Apart) (index : VectorIndex) (name : String)
    (query : List Single) (k : ℕ) (keep : String → Bool) :
    (index.searchFiltered crates name query k keep budget).1.state.Apart := by
  unfold VectorIndex.searchFiltered
  split
  · exact apart
  · next target found =>
    exact apart.insert (AList.lookup_isSome.mp (Option.isSome_of_eq_some found)) _ _

theorem apart_after (call : IndexCall Single) (apart : budget.state.Apart) :
    (call.after crates budget).state.Apart := by
  cases call with
  | withBudget name => exact apart.alterMeta _ _ fun known => Finset.Subset.refl _
  | hydratePartition index name vectors => exact apart.hydrate _ _ _
  | setPartitionTotal index name total => exact apart.setTotal index.id name fun _ => total
  | upsert index name id vector =>
    simp only [IndexCall.after, VectorIndex.upsert]
    split
    · exact apart
    · next target found => exact apart.grow (AList.lookup_isSome.mp (Option.isSome_of_eq_some found)) _ _ _ _
  | remove index name id =>
    simp only [IndexCall.after, VectorIndex.remove]
    split
    · exact apart
    · next target found => exact apart.shrink (AList.lookup_isSome.mp (Option.isSome_of_eq_some found)) _ _
  | dropPartition index name =>
    exact (apart.removePartition _).alterMeta _ _ fun known => Finset.erase_subset _ _
  | search index name query k => exact apart_searchFiltered apart index name query k _
  | searchFiltered index name query k keep => exact apart_searchFiltered apart index name query k keep

/-- The redundant structures of the shared budget agree with each other. -/
structure BudgetState.Consistent (state : BudgetState Single Half) : Prop where
  accounted : state.used = totalWeight Partition.bytes state.partitions
  weighed : ∀ key partition, state.partitions.lookup key = some partition →
    partition.bytes = (partition.vectors.map fun stored => vectorBytes stored.id stored.values.length).sum
  paired : ∀ key partition, state.partitions.lookup key = some partition →
    Set.BijOn partition.slotOf {id | id ∈ partition.positions} (Set.Iio partition.vectors.length)
  named : ∀ key partition, state.partitions.lookup key = some partition → ∀ id ∈ partition.positions,
    (partition.vectors[partition.slotOf id]?).map StoredVector.id = some id
  apart : ∀ key ∈ state.partitions, key.2 ∉ (state.metaOf key.1).evicted

/-- After every run the shared budget is consistent, and no call takes more from a byte count than it holds. -/
theorem consistent_of_run {calls : List (IndexCall Single)} (run : (vectorCache crates).Run calls budget) :
    budget.state.Consistent ∧ ∀ call : IndexCall Single, ∀ take ∈ call.takes crates budget, take.2 ≤ take.1 := by
  have sound : (fun budget : VectorBudget Single Half => budget.state.Accounted ∧ budget.state.Apart) budget := by
    apply run.invariant
    · rintro state ⟨limit, rfl⟩
      exact ⟨rfl, fun key resident => absurd resident (AList.notMem_empty key)⟩
    · rintro state call next ⟨accounted, apart⟩ step
      cases step
      exact ⟨accounted_after call accounted, apart_after call apart⟩
  obtain ⟨accounted, apart⟩ := sound
  exact ⟨⟨accounted, fun _ partition _ => partition.counted, fun _ partition _ => partition.bijOn_slotOf,
    fun _ _ _ _ held => Partition.id_of_slotOf held, apart⟩, fun call => covered_takes accounted call⟩

end Runs

/-- A partition of one vector, with another one added. -/
theorem consistent_of_run_growing : ∃ budget : VectorBudget ℕ ℕ,
    (vectorCache wholeNumbers).Run growing budget ∧ budget.state.Consistent ∧
      ∀ call : IndexCall ℕ, ∀ take ∈ call.takes wholeNumbers budget, take.2 ≤ take.1 := by
  have enabled : ((vectorCache wholeNumbers).run? (VectorBudget.new 200) growing).isSome := by decide +kernel
  have initial : (vectorCache wholeNumbers).Initial (VectorBudget.new 200) := ⟨200, rfl⟩
  obtain ⟨budget, run⟩ := Machine.Run.of_isSome initial enabled
  exact ⟨budget, run, consistent_of_run run⟩

end RyuRooms.Crypto
