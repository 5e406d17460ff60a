import RyuRooms.Crypto.TopK
import RyuRooms.Crypto.VectorBudget

/-! # A search finds the best of a plain map

Beside the cache runs a plain map of the vectors of every partition, which takes every call at its word and
knows of no memory. A partition in memory holds exactly the encoded vectors of its plain map, in an order of
its own; so a search over it is a best choice among the plain map's vectors, and the streaming collector ends
with the same scores in whatever order it is offered them.
-/

namespace RyuRooms.Crypto

open Foundation

variable {Single Half : Type} {crates : VectorCrates Single Half}

section Plain

/-- The vectors of a partition as a plain map. -/
abbrev PlainMap (Single : Type) : Type := AList fun _ : String => List Single

/-- What a call does to the plain maps of all partitions, whether or not they are in memory. -/
def IndexCall.plain (maps : PartitionKey → PlainMap Single) : IndexCall Single → PartitionKey → PlainMap Single
  | .hydratePartition index name vectors =>
    Function.update maps (index.key name) (vectors.foldl (fun map entry => map.insert entry.1 entry.2) ∅)
  | .upsert index name id vector =>
    Function.update maps (index.key name) ((maps (index.key name)).insert id vector)
  | .remove index name id => Function.update maps (index.key name) ((maps (index.key name)).erase id)
  | .dropPartition index name => Function.update maps (index.key name) ∅
  | .withBudget _ | .setPartitionTotal _ _ _ | .search _ _ _ _ | .searchFiltered _ _ _ _ _ => maps

/-- The plain maps after some calls. -/
def plainMaps (calls : List (IndexCall Single)) : PartitionKey → PlainMap Single :=
  calls.foldl (fun maps call => call.plain maps) fun _ => ∅

/-- The vectors of a plain map that a search is about, with their scores. -/
def candidates (crates : VectorCrates Single Half) (map : PlainMap Single) (query : List Single)
    (keep : String → Bool) : List (String × Single) :=
  (map.entries.filter fun entry => entry.2.length == query.length && keep entry.1).map fun entry =>
    (entry.1, cosine crates query (encode crates entry.1 entry.2))

/-- A partition holds the encoded vectors of a plain map. -/
def Mirrors (crates : VectorCrates Single Half) (partition : Partition Single Half) (map : PlainMap Single) : Prop :=
  ∀ stored, stored ∈ partition.vectors ↔ ∃ vector, map.lookup stored.id = some vector ∧
    encode crates stored.id vector = stored

variable {partition : Partition Single Half} {map : PlainMap Single} {id : String}

namespace Partition

theorem nodup_ids (partition : Partition Single Half) : (partition.vectors.map StoredVector.id).Nodup := by
  rw [List.nodup_iff_injective_get]
  intro first second same
  have here := List.getElem?_eq_getElem first.isLt
  have there := List.getElem?_eq_getElem second.isLt
  rw [List.get_eq_getElem, List.get_eq_getElem] at same
  exact Fin.ext (partition.indexed.unique here (same ▸ there))

/-- The other vectors of a partition are stored under other ids. -/
theorem id_ne_of_perm {stored : StoredVector Single Half} {others : List (StoredVector Single Half)}
    (split : partition.vectors.Perm (stored :: others)) : ∀ other ∈ others, other.id ≠ stored.id := by
  have distinct := partition.nodup_ids
  rw [(split.map StoredVector.id).nodup_iff, List.map_cons, List.nodup_cons] at distinct
  exact fun other member same => distinct.1 (same ▸ List.mem_map_of_mem member)

theorem id_ne_of_missing (missing : partition.positions.lookup id = none) :
    ∀ stored ∈ partition.vectors, stored.id ≠ id := by
  rintro stored member rfl
  obtain ⟨slot, here⟩ := List.getElem?_of_mem (List.mem_map_of_mem (f := StoredVector.id) member)
  rw [(partition.indexed stored.id slot).mpr here] at missing
  cases missing

/-- After an upsert the new vector is there, and every vector under another id. -/
theorem mem_upsert (crates : VectorCrates Single Half) (vector : List Single) {stored : StoredVector Single Half} :
    stored ∈ (partition.upsert crates id vector).1.vectors ↔
      stored = encode crates id vector ∨ stored.id ≠ id ∧ stored ∈ partition.vectors := by
  cases found : partition.positions.lookup id with
  | none =>
    rw [upsert_of_fresh crates found]
    change stored ∈ partition.vectors ++ [encode crates id vector] ↔ _
    rw [List.mem_append, List.mem_singleton, or_comm]
    have apart := id_ne_of_missing found
    constructor
    · exact Or.imp_right fun member => ⟨apart stored member, member⟩
    · exact Or.imp_right fun other => other.2
  | some position =>
    obtain ⟨inside, here⟩ := List.getElem?_eq_some_iff.mp (getElem?_at found)
    have freed := (List.getElem_cons_eraseIdx_perm inside).symm
    have filled := List.set_perm_cons_eraseIdx inside (encode crates id vector)
    have apart := id_ne_of_perm freed
    rw [here, id_at] at apart
    rw [upsert_of_found crates found]
    change stored ∈ partition.vectors.set position (encode crates id vector) ↔ _
    rw [filled.mem_iff, List.mem_cons, freed.mem_iff, List.mem_cons, here]
    constructor
    · exact Or.imp_right fun member => ⟨apart stored member, Or.inr member⟩
    · refine Or.imp_right ?_
      rintro ⟨other, rfl | member⟩
      · exact absurd (id_at found) other
      · exact member

/-- After a removal every vector under another id is there. -/
theorem mem_remove {stored : StoredVector Single Half} :
    stored ∈ (partition.remove id).1.vectors ↔ stored.id ≠ id ∧ stored ∈ partition.vectors := by
  cases found : partition.positions.lookup id with
  | none =>
    rw [remove_of_missing found]
    exact ⟨fun member => ⟨id_ne_of_missing found stored member, member⟩, fun other => other.2⟩
  | some position =>
    have freed := swapRemove_perm (getElem?_at found)
    have apart := id_ne_of_perm freed
    rw [id_at] at apart
    rw [remove_of_found found, freed.mem_iff, List.mem_cons]
    change stored ∈ Foundation.swapRemove partition.vectors position ↔ _
    constructor
    · exact fun member => ⟨apart stored member, Or.inr member⟩
    · rintro ⟨other, rfl | member⟩
      · exact absurd (id_at found) other
      · exact member

end Partition

namespace Mirrors

theorem new : Mirrors crates Partition.new ∅ := by simp [Mirrors, Partition.new]

/-- When a partition was last used says nothing about what it holds. -/
theorem touch (mirrors : Mirrors crates partition map) (now : ℕ) :
    Mirrors crates { partition with lastUsed := now } map := mirrors

theorem upsert (mirrors : Mirrors crates partition map) (id : String) (vector : List Single) :
    Mirrors crates (partition.upsert crates id vector).1 (map.insert id vector) := by
  intro stored
  rw [Partition.mem_upsert, mirrors stored]
  simp only [lookup_insert_eq_some_iff]
  constructor
  · rintro (rfl | ⟨other, held, found, encoded⟩)
    · exact ⟨vector, Or.inl ⟨rfl, rfl⟩, rfl⟩
    · exact ⟨held, Or.inr ⟨other, found⟩, encoded⟩
  · rintro ⟨held, ⟨same, rfl⟩ | ⟨other, found⟩, encoded⟩
    · exact Or.inl (same ▸ encoded.symm)
    · exact Or.inr ⟨other, held, found, encoded⟩

theorem remove (mirrors : Mirrors crates partition map) (id : String) :
    Mirrors crates (partition.remove id).1 (map.erase id) := by
  intro stored
  rw [Partition.mem_remove, mirrors stored]
  simp only [lookup_erase_eq_some_iff]
  constructor
  · rintro ⟨other, vector, found, encoded⟩
    exact ⟨vector, ⟨other, found⟩, encoded⟩
  · rintro ⟨vector, ⟨other, found⟩, encoded⟩
    exact ⟨other, vector, found, encoded⟩

/-- A partition built vector by vector mirrors the map built entry by entry. -/
theorem build (mirrors : Mirrors crates partition map) (vectors : List (String × List Single)) :
    Mirrors crates (vectors.foldl (fun built entry => (built.upsert crates entry.1 entry.2).1) partition)
      (vectors.foldl (fun map entry => map.insert entry.1 entry.2) map) := by
  induction vectors generalizing partition map with
  | nil => exact mirrors
  | cons entry rest ih => exact ih (mirrors.upsert entry.1 entry.2)

/-- A partition that mirrors a map is an arrangement of the map's encoded vectors. -/
theorem perm (mirrors : Mirrors crates partition map) :
    partition.vectors.Perm (map.entries.map fun entry => encode crates entry.1 entry.2) := by
  have distinct : (map.entries.map fun entry => encode crates entry.1 entry.2).Nodup := by
    refine List.Nodup.of_map StoredVector.id ?_
    rw [List.map_map]
    exact map.nodupKeys
  refine (List.perm_ext_iff_of_nodup (List.Nodup.of_map _ partition.nodup_ids) distinct).mpr fun stored => ?_
  rw [mirrors stored, List.mem_map]
  constructor
  · rintro ⟨vector, found, encoded⟩
    exact ⟨⟨stored.id, vector⟩, AList.mem_lookup_iff.mp found, encoded⟩
  · rintro ⟨entry, member, rfl⟩
    exact ⟨entry.2, AList.mem_lookup_iff.mpr member, rfl⟩

/-- The ranked vectors of a partition are the candidates of the map it mirrors. -/
theorem perm_candidates (mirrors : Mirrors crates partition map) (query : List Single) (keep : String → Bool) :
    ((partition.vectors.filter (ranked query keep)).map fun stored => (stored.id, cosine crates query stored)).Perm
      (candidates crates map query keep) := by
  have encoded : (map.entries.map fun entry => encode crates entry.1 entry.2).filter (ranked query keep) =
      (map.entries.filter fun entry => entry.2.length == query.length && keep entry.1).map fun entry =>
        encode crates entry.1 entry.2 := by
    rw [List.filter_map]
    congr 2
    funext entry
    simp [ranked, encode]
  have same := ((mirrors.perm.filter (ranked query keep)).map fun stored => (stored.id, cosine crates query stored))
  rw [encoded, List.map_map] at same
  exact same

end Mirrors

end Plain

section Runs

variable {state : BudgetState Single Half} {key : PartitionKey} {maps : PartitionKey → PlainMap Single}
  {budget : VectorBudget Single Half}

/-- Every partition in memory mirrors its plain map. -/
def AllMirror (crates : VectorCrates Single Half) (state : BudgetState Single Half)
    (maps : PartitionKey → PlainMap Single) : Prop :=
  ∀ key partition, state.partitions.lookup key = some partition → Mirrors crates partition (maps key)

/-- Making room only takes partitions out. -/
theorem lookup_of_evictWhile {limit extra rounds : ℕ} {keep : PartitionKey} {partition : Partition Single Half}
    (found : (BudgetState.evictWhile limit extra keep rounds state).1.partitions.lookup key = some partition) :
    state.partitions.lookup key = some partition := by
  induction rounds generalizing state with
  | zero => exact found
  | succ rounds ih =>
    rw [BudgetState.evictWhile] at found
    split at found
    · split at found
      · exact found
      · have before := ih found
        rw [BudgetState.partitions_markEvicted, BudgetState.partitions_removePartition] at before
        exact (lookup_erase_eq_some_iff.mp before).2
    · exact found

namespace AllMirror

theorem alterMeta (mirror : AllMirror crates state maps) (index : ℕ) (change : IndexMeta → IndexMeta) :
    AllMirror crates (state.alterMeta index change) maps := mirror

theorem makeRoom (mirror : AllMirror crates state maps) (limit extra : ℕ) (keep : PartitionKey) :
    AllMirror crates (state.makeRoom limit extra keep).1 maps :=
  fun key partition found => mirror key partition (lookup_of_evictWhile found)

/-- What becomes of the plain map of a partition that is taken out does not matter. -/
theorem removePartition (mirror : AllMirror crates state maps) (key : PartitionKey) (map : PlainMap Single) :
    AllMirror crates (state.removePartition key) (Function.update maps key map) := by
  intro other partition found
  rw [BudgetState.partitions_removePartition, lookup_erase_eq_some_iff] at found
  rw [Function.update_of_ne found.1]
  exact mirror other partition found.2

/-- A partition is put in with its plain map. -/
theorem insert (mirror : AllMirror crates state maps) (key : PartitionKey) {map : PlainMap Single}
    {partition : Partition Single Half} (mirrors : Mirrors crates partition map) (used : ℕ) :
    AllMirror crates { state with partitions := state.partitions.insert key partition, used }
      (Function.update maps key map) := by
  intro other held found
  obtain ⟨rfl, rfl⟩ | ⟨apart, before⟩ := lookup_insert_eq_some_iff.mp found
  · rwa [Function.update_self]
  · rw [Function.update_of_ne apart]
    exact mirror other held before

theorem hydrate (mirror : AllMirror crates state maps) (limit : ℕ) {map : PlainMap Single}
    {built : Partition Single Half} (mirrors : Mirrors crates built map) :
    AllMirror crates (state.hydrate limit key built).1 (Function.update maps key map) := by
  unfold BudgetState.hydrate
  simp only
  split
  · exact mirror.removePartition key map
  · have removed := mirror.removePartition key map
    have counted := removed.alterMeta key.1 fun known =>
      known.setTotal key.2 (max (known.totalOf key.2) built.vectors.length)
    have placed := (counted.makeRoom limit built.bytes key).insert key mirrors
    rw [Function.update_idem] at placed
    exact (placed _).alterMeta key.1 fun known => { known with evicted := known.evicted.erase key.2 }

theorem grow (mirror : AllMirror crates state maps) (limit : ℕ) {map : PlainMap Single}
    {grown : Partition Single Half} (mirrors : Mirrors crates grown map) (delta : ℤ) (existed : Bool) :
    AllMirror crates (state.grow limit key grown delta existed) (Function.update maps key map) := by
  have changed := mirror.insert key mirrors ((state.used : ℤ) + delta).toNat
  have settles {other : BudgetState Single Half} (kept : AllMirror crates other (Function.update maps key map)) :
      AllMirror crates (if limit < other.used then (other.makeRoom limit 0 key).1 else other)
        (Function.update maps key map) := by
    split
    · exact kept.makeRoom limit 0 key
    · exact kept
  cases existed with
  | true => exact settles changed
  | false =>
    exact settles (changed.alterMeta key.1 fun known => known.setTotal key.2 (known.totalOf key.2 + 1))

theorem shrink (mirror : AllMirror crates state maps) {map : PlainMap Single} {left : Partition Single Half}
    (mirrors : Mirrors crates left map) (removed : ℕ) :
    AllMirror crates (state.shrink key left removed) (Function.update maps key map) := by
  have changed := mirror.insert key mirrors (state.used - removed)
  unfold BudgetState.shrink
  simp only
  split
  · exact changed
  · exact changed

/-- The plain map of a partition that is not in memory may be any. -/
theorem update_of_missing (mirror : AllMirror crates state maps) (missing : state.partitions.lookup key = none)
    (map : PlainMap Single) : AllMirror crates state (Function.update maps key map) := by
  intro other partition found
  have apart : other ≠ key := by
    rintro rfl
    rw [missing] at found
    cases found
  rw [Function.update_of_ne apart]
  exact mirror other partition found

/-- A search moves the time of a partition's last use, and nothing it holds. -/
theorem searchFiltered (mirror : AllMirror crates budget.state maps) (index : VectorIndex) (name : String)
    (query : List Single) (k : ℕ) (keep : String → Bool) :
    AllMirror crates (index.searchFiltered crates name query k keep budget).1.state maps := by
  unfold VectorIndex.searchFiltered
  split
  · exact mirror
  · next target found =>
    rw [← Function.update_eq_self (index.key name) maps]
    exact mirror.insert _ ((mirror _ target found).touch _) _

theorem after (mirror : AllMirror crates budget.state maps) (call : IndexCall Single) :
    AllMirror crates (call.after crates budget).state (call.plain maps) := by
  cases call with
  | withBudget name => exact mirror
  | hydratePartition index name vectors => exact mirror.hydrate _ ((Mirrors.new.build vectors).touch _)
  | setPartitionTotal index name total => exact mirror
  | upsert index name id vector =>
    simp only [IndexCall.after, VectorIndex.upsert]
    split
    · next missing => exact mirror.update_of_missing missing _
    · next target found => exact mirror.grow _ (((mirror _ target found).upsert id vector).touch _) _ _
  | remove index name id =>
    simp only [IndexCall.after, VectorIndex.remove]
    split
    · next missing => exact mirror.update_of_missing missing _
    · next target found => exact mirror.shrink ((mirror _ target found).remove id) _
  | dropPartition index name => exact mirror.removePartition _ ∅
  | search index name query k => exact mirror.searchFiltered index name query k _
  | searchFiltered index name query k keep => exact mirror.searchFiltered index name query k keep

end AllMirror

/-- The partitions in memory mirror the plain maps of the calls so far. -/
theorem allMirror_of_run {calls : List (IndexCall Single)} (run : (vectorCache crates).Run calls budget) :
    AllMirror crates budget.state (plainMaps calls) := by
  refine run.history (fun past budget => AllMirror crates budget.state (plainMaps past)) ?_ ?_
  · rintro budget ⟨limit, rfl⟩ key partition found
    cases found
  · intro past budget call next _ mirror step
    cases step
    rw [plainMaps, List.foldl_append]
    exact mirror.after call

/-- The best `k` of some candidates, each with its score: none of them twice, and none below one left out. -/
structure TopHits (crates : VectorCrates Single Half) (k : ℕ) (candidates hits : List (String × Single)) : Prop where
  length : hits.length = min k candidates.length
  found : ∀ hit ∈ hits, hit ∈ candidates
  once : (hits.map Prod.fst).Nodup
  largest : ∀ candidate ∈ candidates, candidate ∉ hits → ∀ hit ∈ hits, crates.atMost candidate.2 hit.2
  descending : hits.Pairwise fun early late => crates.atMost late.2 early.2

theorem nodup_candidates (map : PlainMap Single) (query : List Single) (keep : String → Bool) :
    ((candidates crates map query keep).map Prod.fst).Nodup := by
  rw [candidates, List.map_map]
  exact List.Nodup.sublist (List.filter_sublist.map Sigma.fst) map.nodupKeys

/-- After every run a search of a partition in memory returns the best `k` of what a plain map with the same
history holds, and the collector the same scores, in whatever order it is offered the candidates. -/
theorem topHits_searchFiltered
    (antisymm : ∀ left right, crates.atMost left right → crates.atMost right left → left = right)
    {calls : List (IndexCall Single)} (run : (vectorCache crates).Run calls budget) {index : VectorIndex} {name : String}
    (hydrated : index.isHydrated name budget) (query : List Single) (k : ℕ) (keep : String → Bool) :
    ∃ hits, (index.searchFiltered crates name query k keep budget).2 = some hits ∧
      TopHits crates k (candidates crates (plainMaps calls (index.key name)) query keep) hits ∧
      ∀ (binaryHeap : ScoredHeap crates) (offered : List (String × Single)),
        offered.Perm (candidates crates (plainMaps calls (index.key name)) query keep) →
          ((offered.foldl (fun top candidate => top.push binaryHeap candidate.1 candidate.2)
            (TopK.new k)).intoSorted crates).map Prod.snd = hits.map Prod.snd := by
  obtain ⟨target, found⟩ := Option.isSome_iff_exists.mp hydrated
  have mirrors := allMirror_of_run run _ target found
  obtain ⟨chosen, descending⟩ := best_topK crates target query k keep
  have best := chosen.perm_candidates (mirrors.perm_candidates query keep)
  refine ⟨topK crates target query k keep, ?_, ?_, ?_⟩
  · simp only [VectorIndex.searchFiltered, found]
  · exact ⟨best.length, fun hit isHit => best.mem isHit, best.nodup_map (nodup_candidates _ query keep),
      fun candidate isCandidate leftOut hit isHit => best.atMost_of_not_mem isCandidate leftOut isHit, descending⟩
  · intro binaryHeap offered perm
    obtain ⟨collected, sorted⟩ := best_intoSorted binaryHeap k offered
    exact collected.scores_eq antisymm crates.atMost_trans crates.atMost_total best (perm.map Prod.snd) sorted descending

end Runs

section Samples

/-- A heap that is sorted whenever its lowest score is asked for. -/
def sortedHeap (crates : VectorCrates Single Half) : ScoredHeap crates where
  push held scored := scored :: held
  peek held := (held.mergeSort fun left right => crates.atMost left.score right.score).head?
  pop held := (held.mergeSort fun left right => crates.atMost left.score right.score).tail
  push_perm _ _ := List.Perm.refl _
  peek_eq_none held none := by
    rw [List.head?_eq_none_iff] at none
    simpa [none] using (List.mergeSort_perm held fun left right => crates.atMost left.score right.score).symm
  peek_least held lowest shown other member := by
    have sorted : (held.mergeSort fun left right => crates.atMost left.score right.score).Pairwise
        fun left right => crates.atMost left.score right.score := by
      apply List.pairwise_mergeSort
      · exact fun _ _ _ => crates.atMost_trans _ _ _
      · exact fun _ _ => crates.atMost_total _ _
    have listed : other ∈ held.mergeSort fun left right => crates.atMost left.score right.score :=
      List.mem_mergeSort.mpr member
    obtain ⟨rest, split⟩ := List.head?_eq_some_iff.mp shown
    rw [split] at sorted listed
    obtain rfl | later := List.mem_cons.mp listed
    · simpa using crates.atMost_total other.score other.score
    · exact (List.pairwise_cons.mp sorted).1 other later
  pop_perm held lowest shown := by
    obtain ⟨rest, split⟩ := List.head?_eq_some_iff.mp shown
    have same := List.mergeSort_perm held fun left right => crates.atMost left.score right.score
    rw [split] at same
    rw [split, List.tail_cons]
    exact same.symm

end Samples

/-- Whole numbers under which every vector has the norm one, so that a score is a dot product. -/
def dotProducts : VectorCrates ℕ ℕ :=
  { wholeNumbers with sqrt := fun _ => 1 }

/-- Three vectors are loaded, the first is removed, and another one comes. -/
def replacing : List (IndexCall ℕ) :=
  [.withBudget "notes",
    .hydratePartition ⟨"notes", 1⟩ "space" [("w", [1, 1, 1]), ("x", [0, 0, 1]), ("y", [1, 1, 0])],
    .remove ⟨"notes", 1⟩ "space" "w", .upsert ⟨"notes", 1⟩ "space" "z" [1, 1, 1]]

/-- Two vectors of three with different scores are asked for, with a heap that is kept as a list. -/
theorem topHits_searchFiltered_replacing : ∃ budget : VectorBudget ℕ ℕ,
    (vectorCache dotProducts).Run replacing budget ∧
      (VectorIndex.searchFiltered dotProducts ⟨"notes", 1⟩ "space" [1, 1, 1] 2 (fun _ => true) budget).2 =
        some [("z", 3), ("y", 2)] ∧
      ((TopK.new 2).push (sortedHeap dotProducts) "y" 2 |>.push (sortedHeap dotProducts) "x" 1
        |>.push (sortedHeap dotProducts) "z" 3 |>.intoSorted dotProducts).map Prod.snd = [3, 2] := by
  have loaded : ((vectorCache dotProducts).run? (VectorBudget.new 1000) replacing).any
      fun budget => decide (VectorIndex.isHydrated ⟨"notes", 1⟩ "space" budget = true) := by
    decide +kernel
  have initial : (vectorCache dotProducts).Initial (VectorBudget.new 1000) := ⟨1000, rfl⟩
  obtain ⟨budget, run, hydrated⟩ := Machine.Run.of_check initial loaded
  have antisymm : ∀ left right, dotProducts.atMost left right → dotProducts.atMost right left → left = right := by
    simpa [dotProducts, wholeNumbers] using fun left right => Nat.le_antisymm
  obtain ⟨hits, found, top, collected⟩ := topHits_searchFiltered antisymm run hydrated [1, 1, 1] 2 fun _ => true
  have shown : candidates dotProducts (plainMaps replacing (VectorIndex.key ⟨"notes", 1⟩ "space")) [1, 1, 1]
      (fun _ => true) = [("z", 3), ("y", 2), ("x", 1)] := by
    decide +kernel
  rw [shown] at top
  have two : hits = [("z", 3), ("y", 2)] := by
    obtain ⟨first, second, rfl⟩ := List.length_eq_two.mp top.length
    have firstShown := top.found first List.mem_cons_self
    have secondShown := top.found second (List.mem_cons_of_mem _ List.mem_cons_self)
    have once := top.once
    have descending := top.descending
    have largest := top.largest
    simp only [List.mem_cons, List.not_mem_nil, or_false] at firstShown secondShown
    obtain rfl | rfl | rfl := firstShown <;> obtain rfl | rfl | rfl := secondShown <;>
      simp [dotProducts, wholeNumbers] at once descending largest ⊢
  rw [two] at found collected
  exact ⟨budget, run, found, collected (sortedHeap dotProducts) [("y", 2), ("x", 1), ("z", 3)] (shown ▸ by decide +kernel)⟩

end RyuRooms.Crypto
