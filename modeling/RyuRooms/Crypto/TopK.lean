import RyuRooms.Foundation.Ranking
import RyuRooms.Model.TopK

/-! # Two selections of the best

`top_k` selects among all scored vectors of a partition at once, by a partial selection and a sort; `TopK`
selects among candidates that are streamed, by a heap whose lowest score makes room. Both end with a best
choice of their candidates, best first.
-/

namespace RyuRooms.Crypto

open Foundation

variable {Single Half : Type} {crates : VectorCrates Single Half}

section Selection

/-- The score of a stored vector for a query, as `top_k` computes it. -/
def cosine (crates : VectorCrates Single Half) (query : List Single) (stored : StoredVector Single Half) : Single :=
  let queryNorm := crates.sqrt (crates.sum (query.map fun v => crates.mul v v))
  let dot := crates.sum ((stored.values.zip query).map fun entry => crates.mul (crates.toF32 entry.1) entry.2)
  let denominator := crates.mul stored.norm queryNorm
  if crates.positive denominator then crates.div dot denominator else crates.zero

/-- The vectors a search ranks. -/
def ranked (query : List Single) (keep : String → Bool) (stored : StoredVector Single Half) : Bool :=
  stored.values.length == query.length && keep stored.id

/-- What `top_k` scores: the score of every ranked vector, with its slot. -/
def scoredSlots (crates : VectorCrates Single Half) (partition : Partition Single Half) (query : List Single)
    (keep : String → Bool) : List (Single × ℕ) :=
  (partition.vectors.zipIdx.filter fun entry => ranked query keep entry.1).map fun entry =>
    (cosine crates query entry.1, entry.2)

/-- What `top_k` returns for a scored slot. -/
def Partition.named (partition : Partition Single Half) (scored : Single × ℕ) : Option (String × Single) :=
  partition.vectors[scored.2]?.map fun stored => (stored.id, scored.1)

variable {partition : Partition Single Half} {query : List Single} {keep : String → Bool} {k : ℕ}

theorem topK_of_pos (positive : k ≠ 0) : topK crates partition query k keep =
    if min k (scoredSlots crates partition query keep).length = 0 then [] else
      (((crates.selectNth (min k (scoredSlots crates partition query keep).length - 1)
        (scoredSlots crates partition query keep)).take
          (min k (scoredSlots crates partition query keep).length)).mergeSort
            fun left right => crates.atMost right.1 left.1).filterMap partition.named := by
  rw [topK, if_neg positive]
  rfl

/-- A scored slot is named with the id of its vector and keeps its score. -/
theorem named_of_mem {scored : Single × ℕ} (member : scored ∈ scoredSlots crates partition query keep) :
    ∃ named, partition.named scored = some named ∧ named.2 = scored.1 := by
  obtain ⟨entry, isEntry, rfl⟩ := List.mem_map.mp member
  have here := List.mem_zipIdx_iff_getElem?.mp (List.mem_filter.mp isEntry).1
  refine ⟨(entry.1.id, cosine crates query entry.1), ?_, rfl⟩
  simp only [Partition.named, here, Option.map_some]

/-- The named slots are the ranked vectors with their scores. -/
theorem filterMap_named : (scoredSlots crates partition query keep).filterMap partition.named =
    (partition.vectors.filter (ranked query keep)).map fun stored => (stored.id, cosine crates query stored) := by
  have names : ∀ entry ∈ partition.vectors.zipIdx.filter fun entry => ranked query keep entry.1,
      partition.named (cosine crates query entry.1, entry.2) = some (entry.1.id, cosine crates query entry.1) := by
    intro entry isEntry
    have here := List.mem_zipIdx_iff_getElem?.mp (List.mem_filter.mp isEntry).1
    simp only [Partition.named, here, Option.map_some]
  have vectors : (partition.vectors.zipIdx.filter fun entry => ranked query keep entry.1).map Prod.fst =
      partition.vectors.filter (ranked query keep) := by
    rw [← List.zipIdx_map_fst 0 partition.vectors, List.filter_map, List.zipIdx_map_fst]
    rfl
  rw [scoredSlots, List.filterMap_map, ← vectors, List.map_map]
  exact (List.filterMap_congr names).trans (congrFun List.filterMap_eq_map' _)

/-- The partial selection is a best choice of the scored slots. -/
theorem best_selectNth (crates : VectorCrates Single Half) (scored : List (Single × ℕ))
    (nonempty : min k scored.length ≠ 0) :
    Best Prod.fst crates.atMost k scored ((crates.selectNth (min k scored.length - 1) scored).take
      (min k scored.length)) := by
  have same := crates.selectNth_perm (min k scored.length - 1) scored
  have ordered := crates.selectNth_atMost (min k scored.length - 1) scored
  rw [Nat.sub_add_cancel (Nat.one_le_iff_ne_zero.mpr nonempty)] at ordered
  refine ⟨?_, (crates.selectNth (min k scored.length - 1) scored).drop (min k scored.length), ?_, ?_⟩
  · rw [List.length_take, same.length_eq]
    omega
  · rw [List.take_append_drop]
    exact same.symm
  · exact fun late isLate early isEarly => ordered early isEarly late isLate

/-- `top_k` returns a best choice of the ranked vectors, best first. -/
theorem best_topK (crates : VectorCrates Single Half) (partition : Partition Single Half) (query : List Single)
    (k : ℕ) (keep : String → Bool) : Best Prod.snd crates.atMost k
    ((partition.vectors.filter (ranked query keep)).map fun stored => (stored.id, cosine crates query stored))
      (topK crates partition query k keep) ∧
    Descending Prod.snd crates.atMost (topK crates partition query k keep) := by
  rw [← filterMap_named]
  by_cases positive : k = 0
  · have none : topK crates partition query k keep = [] := by rw [topK, if_pos positive]
    rw [none, positive]
    exact ⟨Best.zero _, List.Pairwise.nil⟩
  · rw [topK_of_pos positive]
    split
    · next empty =>
      have none : scoredSlots crates partition query keep = [] := by
        rw [← List.length_eq_zero_iff]
        omega
      rw [none]
      exact ⟨Best.nil, List.Pairwise.nil⟩
    · next nonempty =>
      have best := (best_selectNth crates (scoredSlots crates partition query keep) nonempty).perm_chosen
        (List.mergeSort_perm _ fun left right => crates.atMost right.1 left.1).symm
      have sorted := descending_mergeSort Prod.fst crates.atMost_trans crates.atMost_total
        ((crates.selectNth (min k (scoredSlots crates partition query keep).length - 1)
          (scoredSlots crates partition query keep)).take (min k (scoredSlots crates partition query keep).length))
      have keepsScore : ∀ scored ∈ scoredSlots crates partition query keep,
          ∃ named, partition.named scored = some named ∧ named.2 = scored.1 := fun _ => named_of_mem
      exact ⟨best.filterMap keepsScore, sorted.filterMap fun member isChosen => keepsScore member (best.mem isChosen)⟩

end Selection

section Collector

variable (binaryHeap : ScoredHeap crates) {top : TopK Single}

/-- What lies in a heap, as a candidate. -/
def Scored.candidate (scored : Scored Single) : String × Single := (scored.id, scored.score)

/-- What a collector keeps. -/
def TopK.kept (top : TopK Single) : List (String × Single) := top.heap.map Scored.candidate

/-- Candidates offered one after the other. -/
def TopK.collect (top : TopK Single) (offered : List (String × Single)) : TopK Single :=
  offered.foldl (fun top candidate => top.push binaryHeap candidate.1 candidate.2) top

/-- An offer leaves a best choice of the candidates so far. -/
theorem best_push {offered : List (String × Single)} (best : Best Prod.snd crates.atMost top.k offered top.kept)
    (id : String) (score : Single) :
    Best Prod.snd crates.atMost top.k ((id, score) :: offered) (top.push binaryHeap id score).kept ∧
      (top.push binaryHeap id score).k = top.k := by
  have bounded : top.kept.length = min top.k offered.length := best.length
  have sameLength : top.kept.length = top.heap.length := List.length_map _
  unfold TopK.push TopK.accepts
  by_cases none : top.k = 0
  · rw [if_pos none]
    refine ⟨best.pass (by omega) fun kept isKept => ?_, rfl⟩
    have empty : top.kept = [] := List.length_eq_zero_iff.mp (by omega)
    rw [empty] at isKept
    cases isKept
  rw [if_neg none]
  by_cases room : top.heap.length < top.k
  · -- With room left the heap only grows.
    have notFull : top.heap.length ≠ top.k := by omega
    have pushed := (binaryHeap.push_perm top.heap ⟨score, id⟩).map Scored.candidate
    simp only [room, decide_true, Bool.true_or, Bool.not_true, Bool.false_eq_true, if_false, notFull, and_true]
    exact (best.add (by omega)).perm_chosen pushed.symm
  · have full : top.heap.length = top.k := by omega
    simp only [room, decide_false, Bool.false_or]
    cases shown : binaryHeap.peek top.heap with
    | none =>
      have empty := binaryHeap.peek_eq_none top.heap shown
      rw [empty, List.length_nil] at full
      exact absurd full.symm none
    | some lowest =>
      have least : ∀ kept ∈ top.kept, crates.atMost lowest.score kept.2 := by
        intro kept isKept
        obtain ⟨scored, inHeap, rfl⟩ := List.mem_map.mp isKept
        exact binaryHeap.peek_least top.heap lowest shown scored inHeap
      by_cases lower : crates.atMost score lowest.score
      · simp only [Option.any_some, lower, Bool.not_true, Bool.not_false, if_true, and_true]
        exact best.pass (by omega) fun kept isKept => crates.atMost_trans _ _ _ lower (least kept isKept)
      · have higher : crates.atMost lowest.score score := by
          have either := crates.atMost_total lowest.score score
          rw [Bool.or_eq_true] at either
          exact either.resolve_right lower
        have popped := (binaryHeap.pop_perm top.heap lowest shown).map Scored.candidate
        have pushed := (binaryHeap.push_perm (binaryHeap.pop top.heap) ⟨score, id⟩).map Scored.candidate
        simp only [Option.any_some, Bool.not_eq_true _ ▸ lower, Bool.not_false, Bool.not_true, Bool.false_eq_true,
          if_false, full, if_true, and_true]
        have replaced : Best Prod.snd crates.atMost top.k ((id, score) :: offered)
            ((id, score) :: (binaryHeap.pop top.heap).map Scored.candidate) :=
          best.replace (by omega) least popped higher crates.atMost_trans
        exact replaced.perm_chosen pushed.symm

/-- However many candidates are offered, a best choice of them is kept. -/
theorem best_collect (offered : List (String × Single)) {seen : List (String × Single)}
    (best : Best Prod.snd crates.atMost top.k seen top.kept) :
    Best Prod.snd crates.atMost top.k (offered.reverse ++ seen) (top.collect binaryHeap offered).kept := by
  induction offered generalizing top seen with
  | nil => exact best
  | cons candidate rest ih =>
    obtain ⟨next, same⟩ := best_push binaryHeap best candidate.1 candidate.2
    rw [← same] at next ⊢
    rw [List.reverse_cons, List.append_assoc]
    exact ih next

/-- The collector returns a best choice of what it was offered, best first. -/
theorem best_intoSorted (k : ℕ) (offered : List (String × Single)) : Best Prod.snd crates.atMost k offered
      ((TopK.collect binaryHeap (TopK.new k) offered).intoSorted crates) ∧
    Descending Prod.snd crates.atMost ((TopK.collect binaryHeap (TopK.new k) offered).intoSorted crates) := by
  have nothing : Best Prod.snd crates.atMost (TopK.new k : TopK Single).k [] (TopK.new k : TopK Single).kept := Best.nil
  have best : Best Prod.snd crates.atMost k _ _ := best_collect binaryHeap offered nothing
  rw [List.append_nil] at best
  exact ⟨(best.perm_candidates offered.reverse_perm).perm_chosen (List.mergeSort_perm _ _).symm,
    descending_mergeSort Prod.snd crates.atMost_trans crates.atMost_total _⟩

end Collector

end RyuRooms.Crypto
