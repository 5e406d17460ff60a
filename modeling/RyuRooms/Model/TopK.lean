import RyuRooms.Model.VectorIndex

/-! # The streaming collector

A `TopK` keeps the best of the candidates it is offered one after the other, in a `BinaryHeap` turned
around so that the lowest score lies on top. What the standard library leaves open about such a heap is a
parameter: the order in which it iterates, and which of several lowest scores it shows and takes.
-/

namespace RyuRooms.Crypto

structure Scored (Single : Type) where
  score : Single
  id : String

/-- `BinaryHeap<Reverse<Scored>>` on what lies in it, as a list in the order in which it iterates. -/
structure ScoredHeap {Single Half : Type} (crates : VectorCrates Single Half) where
  push : List (Scored Single) → Scored Single → List (Scored Single)
  peek : List (Scored Single) → Option (Scored Single)
  pop : List (Scored Single) → List (Scored Single)
  push_perm : ∀ held scored, (push held scored).Perm (scored :: held)
  peek_eq_none : ∀ held, peek held = none → held = []
  peek_least : ∀ held lowest, peek held = some lowest → ∀ other ∈ held, crates.atMost lowest.score other.score
  pop_perm : ∀ held lowest, peek held = some lowest → held.Perm (lowest :: pop held)

structure TopK (Single : Type) where
  k : ℕ
  heap : List (Scored Single)

namespace TopK

variable {Single Half : Type} {crates : VectorCrates Single Half} (binaryHeap : ScoredHeap crates)

/-- A collector of the `k` highest scores. -/
def new (k : ℕ) : TopK Single := ⟨k, []⟩

/-- Whether a candidate with this score would be kept. -/
def accepts (top : TopK Single) (score : Single) : Bool :=
  if top.k = 0 then false
  else decide (top.heap.length < top.k) ||
    (binaryHeap.peek top.heap).any fun lowest => !crates.atMost score lowest.score

/-- Offer one candidate. -/
def push (top : TopK Single) (id : String) (score : Single) : TopK Single :=
  if !top.accepts binaryHeap score then top
  else
    let heap := if top.heap.length = top.k then binaryHeap.pop top.heap else top.heap
    { top with heap := binaryHeap.push heap ⟨score, id⟩ }

/-- The kept candidates, best first. -/
def intoSorted (crates : VectorCrates Single Half) (top : TopK Single) : List (String × Single) :=
  (top.heap.map fun scored => (scored.id, scored.score)).mergeSort fun left right => crates.atMost right.2 left.2

end TopK

end RyuRooms.Crypto
