import Mathlib.Data.Finset.Erase
import Mathlib.Data.Finset.Insert
import Mathlib.Data.List.MinMax
import RyuRooms.Foundation.Machine
import RyuRooms.Foundation.Packing

/-! # The in-memory vector index

Every `VectorIndex` of a process shares one `VectorBudget`: its partitions, what each index knows of
them, and the bytes accounted as used. A `Partition` is a packed array of vectors with the positions of
their ids, and cannot be built with a position that is wrong or with a byte count that is not the sum
over its vectors. Hash maps are finite maps, whose order the code never relies on: the clock stamps no two
partitions alike, so there is one least recently used partition. What `half` and `f32` compute is a
parameter, and so is which of two equal scores `select_nth_unstable_by` keeps.
-/

namespace RyuRooms.Crypto

open Foundation

/-- `f32` and `half::f16`, with the selection of the standard library on scored positions. -/
structure VectorCrates (Single Half : Type) where
  fromF32 : Single → Half
  toF32 : Half → Single
  zero : Single
  /-- What the sum of no `f32` is. -/
  emptySum : Single
  add : Single → Single → Single
  mul : Single → Single → Single
  div : Single → Single → Single
  sqrt : Single → Single
  positive : Single → Bool
  /-- `f32::total_cmp`, as at most. -/
  atMost : Single → Single → Bool
  atMost_total : ∀ left right, atMost left right || atMost right left
  atMost_trans : ∀ left middle right, atMost left middle → atMost middle right → atMost left right
  /-- `select_nth_unstable_by` in descending order of the scores. -/
  selectNth : ℕ → List (Single × ℕ) → List (Single × ℕ)
  selectNth_perm : ∀ nth scored, (selectNth nth scored).Perm scored
  selectNth_atMost : ∀ nth scored, ∀ early ∈ (selectNth nth scored).take (nth + 1),
    ∀ late ∈ (selectNth nth scored).drop (nth + 1), atMost late.1 early.1

def PER_VECTOR_OVERHEAD : ℕ := 64

def vectorBytes (id : String) (dims : ℕ) : ℕ := dims * 2 + id.utf8ByteSize * 2 + PER_VECTOR_OVERHEAD

structure StoredVector (Single Half : Type) where
  id : String
  values : List Half
  norm : Single

variable {Single Half : Type} (crates : VectorCrates Single Half)

/-- What a stored vector is accounted with. -/
def StoredVector.bytes (stored : StoredVector Single Half) : ℕ := vectorBytes stored.id stored.values.length

/-- `Iterator::sum`. -/
def VectorCrates.sum (values : List Single) : Single := values.foldl crates.add crates.emptySum

def encode (id : String) (vector : List Single) : StoredVector Single Half :=
  let values := vector.map crates.fromF32
  { id, values, norm := crates.sqrt (crates.sum (values.map fun v => crates.mul (crates.toF32 v) (crates.toF32 v))) }

@[simp] theorem bytes_encode (id : String) (vector : List Single) :
    (encode crates id vector).bytes = vectorBytes id vector.length := by
  simp [encode, StoredVector.bytes]

structure Partition (Single Half : Type) where
  vectors : List (StoredVector Single Half)
  positions : AList fun _ : String => ℕ
  bytes : ℕ
  lastUsed : ℕ
  indexed : Indexes positions (vectors.map StoredVector.id)
  counted : bytes = (vectors.map StoredVector.bytes).sum

namespace Partition

def new : Partition Single Half := ⟨[], ∅, 0, 0, Indexes.empty, rfl⟩

/-- The vector in a slot that the positions name. -/
def at_ (partition : Partition Single Half) {id : String} {position : ℕ}
    (found : partition.positions.lookup id = some position) : StoredVector Single Half :=
  partition.vectors.get ⟨position, by
    obtain ⟨inside, -⟩ := List.getElem?_eq_some_iff.mp ((partition.indexed id position).mp found)
    simpa using inside⟩

variable {partition : Partition Single Half} {id : String} {position : ℕ}

theorem getElem?_at (found : partition.positions.lookup id = some position) :
    partition.vectors[position]? = some (partition.at_ found) :=
  List.getElem?_eq_getElem _

@[simp] theorem id_at (found : partition.positions.lookup id = some position) : (partition.at_ found).id = id := by
  have here := (partition.indexed id position).mp found
  rw [List.getElem?_map, getElem?_at found] at here
  exact Option.some.inj here

theorem getElem?_bytes_at (found : partition.positions.lookup id = some position) :
    (partition.vectors.map StoredVector.bytes)[position]? = some (partition.at_ found).bytes := by
  rw [List.getElem?_map, getElem?_at found, Option.map_some]

/-- `self.vectors[position] = stored`. -/
def replace (partition : Partition Single Half) {id : String} {position : ℕ}
    (found : partition.positions.lookup id = some position) (stored : StoredVector Single Half)
    (same : stored.id = id) : Partition Single Half :=
  { partition with
    vectors := partition.vectors.set position stored
    bytes := partition.bytes + stored.bytes - (partition.at_ found).bytes
    indexed := by
      have kept : (partition.vectors.set position stored).map StoredVector.id =
          partition.vectors.map StoredVector.id := by
        obtain ⟨inside, here⟩ := List.getElem?_eq_some_iff.mp ((partition.indexed id position).mp found)
        rw [List.map_set, same, ← here, List.set_getElem_self]
      rw [kept]
      exact partition.indexed
    counted := by
      have changed := sum_set_add (getElem?_bytes_at found) stored.bytes
      rw [List.map_set, partition.counted]
      omega }

/-- `self.positions.insert(id.to_owned(), self.vectors.len())` and `self.vectors.push(stored)`. -/
def push (partition : Partition Single Half) {id : String} (fresh : partition.positions.lookup id = none)
    (stored : StoredVector Single Half) (same : stored.id = id) : Partition Single Half :=
  { partition with
    vectors := partition.vectors ++ [stored]
    positions := partition.positions.insert id partition.vectors.length
    bytes := partition.bytes + stored.bytes
    indexed := by
      have added := partition.indexed.push fresh
      rw [List.length_map] at added
      rw [List.map_append, List.map_singleton, same]
      exact added
    counted := by
      rw [List.map_append, List.map_singleton, List.sum_append, List.sum_singleton, partition.counted] }

/-- `self.positions.remove(id)`, `self.vectors.swap_remove(position)` and the moved vector's new position. -/
def swapRemove (partition : Partition Single Half) {id : String} {position : ℕ}
    (found : partition.positions.lookup id = some position) : Partition Single Half :=
  { partition with
    vectors := Foundation.swapRemove partition.vectors position
    positions := (((Foundation.swapRemove partition.vectors position).map StoredVector.id)[position]?).elim
      (partition.positions.erase id) fun moved => (partition.positions.erase id).insert moved position
    bytes := partition.bytes - (partition.at_ found).bytes
    indexed := by
      have removed := partition.indexed.swapRemove found
      rw [← map_swapRemove] at removed
      exact removed
    counted := by
      have less := sum_swapRemove_add (getElem?_bytes_at found)
      rw [map_swapRemove, partition.counted]
      omega }

/-- Insert or replace one vector, with what that adds to the bytes. -/
def upsert (partition : Partition Single Half) (id : String) (vector : List Single) : Partition Single Half × ℤ :=
  let stored := encode crates id vector
  match found : partition.positions.lookup id with
  | some _ => (partition.replace found stored rfl, stored.bytes - (partition.at_ found).bytes)
  | none => (partition.push found stored rfl, stored.bytes)

/-- Remove one vector, with the bytes that frees. -/
def remove (partition : Partition Single Half) (id : String) : Partition Single Half × ℕ :=
  match found : partition.positions.lookup id with
  | none => (partition, 0)
  | some _ => (partition.swapRemove found, (partition.at_ found).bytes)

theorem upsert_of_found (found : partition.positions.lookup id = some position) (vector : List Single) :
    partition.upsert crates id vector = (partition.replace found (encode crates id vector) rfl,
      ((encode crates id vector).bytes : ℤ) - (partition.at_ found).bytes) := by
  unfold upsert
  split
  · next other same =>
    obtain rfl : other = position := Option.some.inj (same.symm.trans found)
    rfl
  · next missing =>
    rw [missing] at found
    cases found

theorem upsert_of_fresh (fresh : partition.positions.lookup id = none) (vector : List Single) :
    partition.upsert crates id vector = (partition.push fresh (encode crates id vector) rfl,
      ((encode crates id vector).bytes : ℤ)) := by
  unfold upsert
  split
  · next other same =>
    rw [fresh] at same
    cases same
  · rfl

theorem remove_of_found (found : partition.positions.lookup id = some position) :
    partition.remove id = (partition.swapRemove found, (partition.at_ found).bytes) := by
  unfold remove
  split
  · next missing =>
    rw [missing] at found
    cases found
  · next other same =>
    obtain rfl : other = position := Option.some.inj (same.symm.trans found)
    rfl

theorem remove_of_missing (missing : partition.positions.lookup id = none) : partition.remove id = (partition, 0) := by
  unfold remove
  split
  · rfl
  · next other same =>
    rw [missing] at same
    cases same

end Partition

/-- The `k` best cosine scores of one partition, best first, over the ids that `keep` accepts. -/
def topK (partition : Partition Single Half) (query : List Single) (k : ℕ) (keep : String → Bool) :
    List (String × Single) :=
  if k = 0 then [] else
    let queryNorm := crates.sqrt (crates.sum (query.map fun v => crates.mul v v))
    let scored := (partition.vectors.zipIdx.filter fun (stored, _) =>
        stored.values.length == query.length && keep stored.id).map fun (stored, position) =>
      let dot := crates.sum ((stored.values.zip query).map fun (v, q) => crates.mul (crates.toF32 v) q)
      let denominator := crates.mul stored.norm queryNorm
      (if crates.positive denominator then crates.div dot denominator else crates.zero, position)
    let k := min k scored.length
    if k = 0 then [] else
      let best := (crates.selectNth (k - 1) scored).take k
      (best.mergeSort fun left right => crates.atMost right.1 left.1).filterMap fun (score, position) =>
        partition.vectors[position]?.map fun stored => (stored.id, score)

structure IndexMeta where
  totals : AList fun _ : String => ℕ
  evicted : Finset String

/-- `meta.totals.entry(partition.to_owned()).or_insert(0)`. -/
def IndexMeta.totalOf (known : IndexMeta) (name : String) : ℕ := (known.totals.lookup name).getD 0

def IndexMeta.setTotal (known : IndexMeta) (name : String) (total : ℕ) : IndexMeta :=
  { known with totals := known.totals.insert name total }

/-- An index by its number, and one of its partitions by name. -/
abbrev PartitionKey : Type := ℕ × String

structure BudgetState (Single Half : Type) where
  partitions : AList fun _ : PartitionKey => Partition Single Half
  known : AList fun _ : ℕ => IndexMeta
  used : ℕ

structure VectorBudget (Single Half : Type) where
  limit : ℕ
  state : BudgetState Single Half
  clock : ℕ
  nextIndex : ℕ

structure VectorIndex where
  name : String
  id : ℕ

inductive HydrateError where
  | largerThanBudget (needed limit : ℕ)

namespace BudgetState

/-- `state.meta.entry(id).or_default()`. -/
def metaOf (state : BudgetState Single Half) (index : ℕ) : IndexMeta := (state.known.lookup index).getD ⟨∅, ∅⟩

def alterMeta (state : BudgetState Single Half) (index : ℕ) (change : IndexMeta → IndexMeta) :
    BudgetState Single Half :=
  { state with known := state.known.insert index (change (state.metaOf index)) }

/-- Take a partition out of memory, with its bytes. -/
def removePartition (state : BudgetState Single Half) (key : PartitionKey) : BudgetState Single Half :=
  match state.partitions.lookup key with
  | none => state
  | some old => { state with partitions := state.partitions.erase key, used := state.used - old.bytes }

def markEvicted (state : BudgetState Single Half) (key : PartitionKey) : BudgetState Single Half :=
  state.alterMeta key.1 fun known => { known with evicted := insert key.2 known.evicted }

/-- The least recently used partition other than `keep`. -/
def victim? (state : BudgetState Single Half) (keep : PartitionKey) : Option PartitionKey :=
  ((state.partitions.entries.filter fun entry => entry.1 ≠ keep).argmin fun entry => entry.2.lastUsed).map Sigma.fst

/-- The loop of `make_room`; no more rounds are needed than there are partitions. -/
def evictWhile (limit extra : ℕ) (keep : PartitionKey) : ℕ → BudgetState Single Half → BudgetState Single Half × Bool
  | 0, state => (state, state.used + extra ≤ limit)
  | rounds + 1, state =>
    if limit < state.used + extra then
      match state.victim? keep with
      | none => (state, false)
      | some victim => evictWhile limit extra keep rounds ((state.removePartition victim).markEvicted victim)
    else (state, true)

/-- Evict partitions until `extra` more bytes fit, with whether they do. -/
def makeRoom (limit : ℕ) (state : BudgetState Single Half) (extra : ℕ) (keep : PartitionKey) :
    BudgetState Single Half × Bool :=
  evictWhile limit extra keep state.partitions.entries.length state

/-- `hydrate_partition` on the shared state, with the partition built. -/
def hydrate (state : BudgetState Single Half) (limit : ℕ) (key : PartitionKey) (built : Partition Single Half) :
    BudgetState Single Half × Except HydrateError Unit :=
  let state := (state.removePartition key).alterMeta key.1 fun known =>
    known.setTotal key.2 (max (known.totalOf key.2) built.vectors.length)
  if limit < built.bytes then (state.markEvicted key, .error (.largerThanBudget built.bytes limit))
  else
    let room := (state.makeRoom limit built.bytes key).1
    let state := { room with used := room.used + built.bytes, partitions := room.partitions.insert key built }
    (state.alterMeta key.1 fun known => { known with evicted := known.evicted.erase key.2 }, .ok ())

/-- `upsert` on the shared state, with the partition grown by `delta` bytes. -/
def grow (state : BudgetState Single Half) (limit : ℕ) (key : PartitionKey) (grown : Partition Single Half)
    (delta : ℤ) (existed : Bool) : BudgetState Single Half :=
  let state := { state with
    partitions := state.partitions.insert key grown
    used := ((state.used : ℤ) + delta).toNat }
  let state := if existed then state
    else state.alterMeta key.1 fun known => known.setTotal key.2 (known.totalOf key.2 + 1)
  -- Whether there is room then is not asked.
  if limit < state.used then (state.makeRoom limit 0 key).1 else state

/-- `remove` on the shared state, with `removed` bytes taken out of the partition. -/
def shrink (state : BudgetState Single Half) (key : PartitionKey) (left : Partition Single Half) (removed : ℕ) :
    BudgetState Single Half :=
  let state := { state with partitions := state.partitions.insert key left, used := state.used - removed }
  if 0 < removed then
    state.alterMeta key.1 fun known =>
      (known.totals.lookup key.2).elim known fun total => known.setTotal key.2 (total - 1)
  else state

end BudgetState

namespace VectorBudget

def new (limit : ℕ) : VectorBudget Single Half := ⟨limit, ⟨∅, ∅, 0⟩, 1, 1⟩

/-- The clock's reading moves on each time it is read. -/
def tick (budget : VectorBudget Single Half) : VectorBudget Single Half × ℕ :=
  ({ budget with clock := budget.clock + 1 }, budget.clock)

def usedBytes (budget : VectorBudget Single Half) : ℕ := budget.state.used

end VectorBudget

namespace VectorIndex

def withBudget (name : String) (budget : VectorBudget Single Half) : VectorBudget Single Half × VectorIndex :=
  let id := budget.nextIndex
  ({ budget with nextIndex := id + 1, state := budget.state.alterMeta id fun known => known }, ⟨name, id⟩)

def key (index : VectorIndex) (name : String) : PartitionKey := (index.id, name)

/-- Replace a partition with the vectors opened from the store, each with its id. -/
def hydratePartition (index : VectorIndex) (name : String) (vectors : List (String × List Single))
    (budget : VectorBudget Single Half) : VectorBudget Single Half × Except HydrateError Unit :=
  let built := vectors.foldl (fun built entry => (built.upsert crates entry.1 entry.2).1) Partition.new
  let (budget, now) := budget.tick
  let (state, result) := budget.state.hydrate budget.limit (index.key name) { built with lastUsed := now }
  ({ budget with state }, result)

def setPartitionTotal (index : VectorIndex) (name : String) (total : ℕ) (budget : VectorBudget Single Half) :
    VectorBudget Single Half :=
  { budget with state := budget.state.alterMeta index.id fun known => known.setTotal name total }

def isHydrated (index : VectorIndex) (name : String) (budget : VectorBudget Single Half) : Bool :=
  (budget.state.partitions.lookup (index.key name)).isSome

/-- Insert or replace one vector in a hydrated partition. -/
def upsert (index : VectorIndex) (name id : String) (vector : List Single) (budget : VectorBudget Single Half) :
    VectorBudget Single Half × Bool :=
  match budget.state.partitions.lookup (index.key name) with
  | none => (budget, false)
  | some target =>
    let existed := (target.positions.lookup id).isSome
    let (grown, delta) := target.upsert crates id vector
    let (budget, now) := budget.tick
    let grown := { grown with lastUsed := now }
    ({ budget with state := budget.state.grow budget.limit (index.key name) grown delta existed }, true)

/-- Remove one vector, from memory and from the partition's total. -/
def remove (index : VectorIndex) (name id : String) (budget : VectorBudget Single Half) : VectorBudget Single Half :=
  match budget.state.partitions.lookup (index.key name) with
  | none => budget
  | some target =>
    let (left, removed) := target.remove id
    { budget with state := budget.state.shrink (index.key name) left removed }

/-- Drop a partition entirely. -/
def dropPartition (index : VectorIndex) (name : String) (budget : VectorBudget Single Half) :
    VectorBudget Single Half :=
  let state := budget.state.removePartition (index.key name)
  { budget with state := state.alterMeta index.id fun known =>
      ⟨known.totals.erase name, known.evicted.erase name⟩ }

/-- Cosine top-`k` over one partition, or `none` when it is not hydrated. -/
def searchFiltered (index : VectorIndex) (name : String) (query : List Single) (k : ℕ) (keep : String → Bool)
    (budget : VectorBudget Single Half) : VectorBudget Single Half × Option (List (String × Single)) :=
  match budget.state.partitions.lookup (index.key name) with
  | none => (budget, none)
  | some target =>
    let (budget, now) := budget.tick
    let partitions := budget.state.partitions.insert (index.key name) { target with lastUsed := now }
    ({ budget with state := { budget.state with partitions } }, some (topK crates target query k keep))

def search (index : VectorIndex) (name : String) (query : List Single) (k : ℕ) (budget : VectorBudget Single Half) :
    VectorBudget Single Half × Option (List (String × Single)) :=
  index.searchFiltered crates name query k (fun _ => true) budget

end VectorIndex

/-- A call on any index of the process, with its arguments. -/
inductive IndexCall (Single : Type) where
  | withBudget (name : String)
  | hydratePartition (index : VectorIndex) (name : String) (vectors : List (String × List Single))
  | setPartitionTotal (index : VectorIndex) (name : String) (total : ℕ)
  | upsert (index : VectorIndex) (name id : String) (vector : List Single)
  | remove (index : VectorIndex) (name id : String)
  | dropPartition (index : VectorIndex) (name : String)
  | search (index : VectorIndex) (name : String) (query : List Single) (k : ℕ)
  | searchFiltered (index : VectorIndex) (name : String) (query : List Single) (k : ℕ) (keep : String → Bool)

/-- What a call leaves of the shared budget. -/
def IndexCall.after (budget : VectorBudget Single Half) : IndexCall Single → VectorBudget Single Half
  | .withBudget name => (VectorIndex.withBudget name budget).1
  | .hydratePartition index name vectors => (index.hydratePartition crates name vectors budget).1
  | .setPartitionTotal index name total => index.setPartitionTotal name total budget
  | .upsert index name id vector => (index.upsert crates name id vector budget).1
  | .remove index name id => index.remove name id budget
  | .dropPartition index name => index.dropPartition name budget
  | .search index name query k => (index.search crates name query k budget).1
  | .searchFiltered index name query k keep => (index.searchFiltered crates name query k keep budget).1

/-- The calls of a process on a fresh budget, one after the other. -/
def vectorCache : Machine (VectorBudget Single Half) (IndexCall Single) where
  Initial budget := ∃ limit, budget = VectorBudget.new limit
  step? budget call := some (call.after crates budget)

end RyuRooms.Crypto
