import Mathlib.Data.List.Perm.Basic

/-! # The best of some candidates

A best choice of `k` candidates is any part of them that has `k` members, or all there are, and none below
one that is left out. Which candidates those are is open where scores are equal, but not their scores: in
order they are the beginning of all the scores in order. A choice can be made from all candidates at once,
or kept up to date while they are offered one after the other.
-/

namespace RyuRooms.Foundation

variable {α β σ : Type*} {score : α → σ} {scoreOf : β → σ} {atMost : σ → σ → Bool} {k : ℕ}
  {candidates chosen others : List α}

/-- A best choice: `k` of the candidates where there are that many, and none of them below one left out. -/
structure Best (score : α → σ) (atMost : σ → σ → Bool) (k : ℕ) (candidates chosen : List α) : Prop where
  length : chosen.length = min k candidates.length
  split : ∃ rest, candidates.Perm (chosen ++ rest) ∧
    ∀ left ∈ rest, ∀ kept ∈ chosen, atMost (score left) (score kept)

/-- A list with the highest scores first. -/
def Descending (score : α → σ) (atMost : σ → σ → Bool) (list : List α) : Prop :=
  list.Pairwise fun early late => atMost (score late) (score early)

/-- Sorted by a total order, the highest first, a list is descending. -/
theorem descending_mergeSort (score : α → σ)
    (trans : ∀ left middle right, atMost left middle → atMost middle right → atMost left right)
    (total : ∀ left right, atMost left right || atMost right left) (list : List α) :
    Descending score atMost (list.mergeSort fun left right => atMost (score right) (score left)) := by
  apply List.pairwise_mergeSort
  · exact fun first second third left right => trans _ _ _ right left
  · exact fun first second => total _ _

/-- Members exchanged for ones of the same score stay in order. -/
theorem Descending.filterMap {list : List α} (descending : Descending score atMost list) {change : α → Option β}
    (same : ∀ member ∈ list, ∃ changed, change member = some changed ∧ scoreOf changed = score member) :
    Descending scoreOf atMost (list.filterMap change) := by
  rw [Descending, List.pairwise_filterMap]
  refine List.Pairwise.imp_of_mem ?_ descending
  intro early late isEarly isLate ordered changedEarly fromEarly changedLate fromLate
  obtain ⟨_, found, sameEarly⟩ := same early isEarly
  obtain ⟨_, found', sameLate⟩ := same late isLate
  obtain rfl := Option.some.inj (found.symm.trans fromEarly)
  obtain rfl := Option.some.inj (found'.symm.trans fromLate)
  rw [sameEarly, sameLate]
  exact ordered

namespace Best

theorem nil : Best score atMost k [] [] := ⟨by simp, [], by simp, by simp⟩

/-- Nothing is chosen where nothing is asked for. -/
theorem zero (candidates : List α) : Best score atMost 0 candidates [] := ⟨by simp, candidates, by simp, by simp⟩

/-- In which order the candidates come does not matter. -/
theorem perm_candidates (best : Best score atMost k candidates chosen) (perm : candidates.Perm others) :
    Best score atMost k others chosen := by
  obtain ⟨length, rest, split, below⟩ := best
  exact ⟨perm.length_eq ▸ length, rest, perm.symm.trans split, below⟩

/-- In which order the chosen are listed does not matter. -/
theorem perm_chosen (best : Best score atMost k candidates chosen) (perm : chosen.Perm others) :
    Best score atMost k candidates others := by
  obtain ⟨length, rest, split, below⟩ := best
  exact ⟨perm.length_eq ▸ length, rest, split.trans (perm.append_right rest),
    fun left isLeft kept isKept => below left isLeft kept (perm.mem_iff.mpr isKept)⟩

theorem mem (best : Best score atMost k candidates chosen) {member : α} (isChosen : member ∈ chosen) :
    member ∈ candidates := by
  obtain ⟨-, rest, split, -⟩ := best
  exact split.mem_iff.mpr (List.mem_append_left _ isChosen)

/-- Keys that differ among the candidates differ among the chosen. -/
theorem nodup_map {κ : Type*} {key : α → κ} (best : Best score atMost k candidates chosen)
    (distinct : (candidates.map key).Nodup) : (chosen.map key).Nodup := by
  obtain ⟨-, rest, split, -⟩ := best
  rw [(split.map key).nodup_iff, List.map_append] at distinct
  exact (List.nodup_append.mp distinct).1

/-- A candidate that is left out is at most any chosen one. -/
theorem atMost_of_not_mem (best : Best score atMost k candidates chosen) {left kept : α}
    (isCandidate : left ∈ candidates) (leftOut : left ∉ chosen) (isKept : kept ∈ chosen) :
    atMost (score left) (score kept) := by
  obtain ⟨-, rest, split, below⟩ := best
  exact below left ((List.mem_append.mp (split.mem_iff.mp isCandidate)).resolve_left leftOut) kept isKept

/-- A choice stays one when every candidate is exchanged for one of the same score. -/
theorem filterMap (best : Best score atMost k candidates chosen) {change : α → Option β}
    (same : ∀ candidate ∈ candidates, ∃ changed, change candidate = some changed ∧ scoreOf changed = score candidate) :
    Best scoreOf atMost k (candidates.filterMap change) (chosen.filterMap change) := by
  have lengthOf (list : List α) (all : ∀ member ∈ list, member ∈ candidates) :
      (list.filterMap change).length = list.length := by
    rw [List.length_filterMap_eq_countP, List.countP_eq_length]
    intro member inList
    obtain ⟨changed, found, -⟩ := same member (all member inList)
    rw [found, Option.isSome_some]
  have isCandidate (member : α) (isChosen : member ∈ chosen) := best.mem isChosen
  obtain ⟨length, rest, split, below⟩ := best
  refine ⟨?_, rest.filterMap change, ?_, ?_⟩
  · rw [lengthOf chosen isCandidate, lengthOf candidates fun _ member => member, length]
  · rw [← List.filterMap_append]
    exact split.filterMap change
  · intro left isLeft kept isKept
    obtain ⟨before, inRest, isChange⟩ := List.mem_filterMap.mp isLeft
    obtain ⟨source, inChosen, isSource⟩ := List.mem_filterMap.mp isKept
    obtain ⟨_, found, sameLeft⟩ := same before (split.mem_iff.mpr (List.mem_append_right _ inRest))
    obtain ⟨_, found', sameKept⟩ := same source (isCandidate source inChosen)
    obtain rfl := Option.some.inj (found.symm.trans isChange)
    obtain rfl := Option.some.inj (found'.symm.trans isSource)
    rw [sameLeft, sameKept]
    exact below before inRest source inChosen

section Scores

variable (antisymm : ∀ left right, atMost left right → atMost right left → left = right)
  (trans : ∀ left middle right, atMost left middle → atMost middle right → atMost left right)
  (total : ∀ left right, atMost left right || atMost right left)

include antisymm trans total

/-- A list of scores in order is what any arrangement of it is sorted to. -/
theorem mergeSort_eq_of_perm {scores ordered : List σ} (perm : scores.Perm ordered)
    (descending : ordered.Pairwise fun left right => atMost right left) :
    (scores.mergeSort fun left right => atMost right left) = ordered := by
  exact List.Perm.eq_of_pairwise (fun left right _ _ after before => antisymm left right before after)
    (descending_mergeSort id trans total scores) descending ((List.mergeSort_perm _ _).trans perm)

/-- The scores of a choice in order are the beginning of all scores in order. -/
theorem scores_eq_take (best : Best score atMost k candidates chosen) (descending : Descending score atMost chosen) :
    chosen.map score = ((candidates.map score).mergeSort fun left right => atMost right left).take k := by
  obtain ⟨length, rest, split, below⟩ := best
  have sorted := descending_mergeSort id trans total (rest.map score)
  have ordered : (chosen.map score ++ (rest.map score).mergeSort fun left right => atMost right left).Pairwise
      fun left right => atMost right left := by
    refine List.pairwise_append.mpr ⟨List.pairwise_map.mpr descending, sorted, ?_⟩
    intro keptScore isKept leftScore isLeft
    obtain ⟨kept, inChosen, rfl⟩ := List.mem_map.mp isKept
    obtain ⟨left, inRest, rfl⟩ := List.mem_map.mp (List.mem_mergeSort.mp isLeft)
    exact below left inRest kept inChosen
  have same : ((candidates.map score).mergeSort fun left right => atMost right left) =
      chosen.map score ++ (rest.map score).mergeSort fun left right => atMost right left := by
    refine mergeSort_eq_of_perm antisymm trans total ?_ ordered
    calc (candidates.map score).Perm (chosen.map score ++ rest.map score) := List.map_append ▸ split.map score
      _ |>.Perm (chosen.map score ++ (rest.map score).mergeSort _) := (List.mergeSort_perm _ _).symm.append_left _
  rw [same]
  have counted := split.length_eq
  rw [List.length_append] at counted
  by_cases few : candidates.length ≤ k
  · have none : rest = [] := List.length_eq_zero_iff.mp (by omega)
    rw [none, List.map_nil, List.mergeSort_nil, List.append_nil, List.take_of_length_le]
    rw [List.length_map]
    omega
  · rw [List.take_append_of_le_length (by rw [List.length_map]; omega), List.take_of_length_le]
    rw [List.length_map]
    omega

/-- Two choices of `k` from candidates of the same scores have the same scores in order. -/
theorem scores_eq {candidatesOf chosenOf : List β} (best : Best score atMost k candidates chosen)
    (other : Best scoreOf atMost k candidatesOf chosenOf)
    (same : (candidates.map score).Perm (candidatesOf.map scoreOf)) (descending : Descending score atMost chosen)
    (otherDescending : Descending scoreOf atMost chosenOf) : chosen.map score = chosenOf.map scoreOf := by
  rw [best.scores_eq_take antisymm trans total descending,
    other.scores_eq_take antisymm trans total otherDescending]
  have equal : ((candidates.map score).mergeSort fun left right => atMost right left) =
      (candidatesOf.map scoreOf).mergeSort fun left right => atMost right left := by
    exact mergeSort_eq_of_perm antisymm trans total (same.trans (List.mergeSort_perm _ _).symm)
      (descending_mergeSort id trans total _)
  rw [equal]

end Scores

section Offers

variable {offered lowest : α}

/-- A choice with room takes whatever is offered. -/
theorem add (best : Best score atMost k candidates chosen) (room : chosen.length < k) :
    Best score atMost k (offered :: candidates) (offered :: chosen) := by
  obtain ⟨length, rest, split, -⟩ := best
  have counted := split.length_eq
  rw [List.length_append] at counted
  have none : rest = [] := List.length_eq_zero_iff.mp (by omega)
  refine ⟨by simp only [List.length_cons]; omega, [], ?_, by simp⟩
  rw [List.append_nil]
  rw [none, List.append_nil] at split
  exact split.cons offered

/-- What is offered to a full choice takes the place of its lowest member, where it is not below that one. -/
theorem replace (best : Best score atMost k candidates chosen) (full : chosen.length = k)
    (least : ∀ kept ∈ chosen, atMost (score lowest) (score kept)) (popped : chosen.Perm (lowest :: others))
    (higher : atMost (score lowest) (score offered))
    (trans : ∀ left middle right, atMost left middle → atMost middle right → atMost left right) :
    Best score atMost k (offered :: candidates) (offered :: others) := by
  obtain ⟨length, rest, split, below⟩ := best
  have isChosen : lowest ∈ chosen := popped.mem_iff.mpr List.mem_cons_self
  have sameLength := popped.length_eq
  simp only [List.length_cons] at sameLength
  refine ⟨by simp only [List.length_cons]; omega, lowest :: rest, ?_, ?_⟩
  · calc (offered :: candidates).Perm (offered :: (chosen ++ rest)) := split.cons offered
      _ |>.Perm (offered :: (lowest :: others ++ rest)) := (popped.append_right rest).cons offered
      _ |>.Perm (offered :: others ++ lowest :: rest) := List.perm_middle.symm.cons offered
  · have aboveLowest : ∀ kept ∈ offered :: others, atMost (score lowest) (score kept) := by
      intro kept isKept
      obtain rfl | before := List.mem_cons.mp isKept
      · exact higher
      · exact least kept (popped.mem_iff.mpr (List.mem_cons_of_mem _ before))
    intro left isLeft kept isKept
    obtain rfl | before := List.mem_cons.mp isLeft
    · exact aboveLowest kept isKept
    · exact trans _ _ _ (below left before lowest isChosen) (aboveLowest kept isKept)

/-- What is offered to a full choice and is not above any of its members is left out. -/
theorem pass (best : Best score atMost k candidates chosen) (full : chosen.length = k)
    (lower : ∀ kept ∈ chosen, atMost (score offered) (score kept)) :
    Best score atMost k (offered :: candidates) chosen := by
  obtain ⟨length, rest, split, below⟩ := best
  refine ⟨by simp only [List.length_cons]; omega, offered :: rest, ?_, ?_⟩
  · exact (split.cons offered).trans List.perm_middle.symm
  · intro left isLeft kept isKept
    obtain rfl | before := List.mem_cons.mp isLeft
    · exact lower kept isKept
    · exact below left before kept isKept

end Offers

end Best

end RyuRooms.Foundation
