import Mathlib.Algebra.Order.Ring.Nat
import Mathlib.Data.List.Induction

/-! # Byte strings

Big-endian numbers of a fixed width, and texts cut into blocks of one size.
-/

universe u

namespace RyuRooms.Foundation

abbrev Bytes := List UInt8

/-- The last `width` bytes of a number, the highest first. -/
def bigEndian : ℕ → ℕ → Bytes
  | 0, _ => []
  | width + 1, value => bigEndian width (value / 256) ++ [UInt8.ofNat value]

/-- The number that bytes spell, the highest first. -/
def ofBigEndian (bytes : Bytes) : ℕ := bytes.foldl (fun value byte => value * 256 + byte.toNat) 0

@[simp] theorem length_bigEndian (width value : ℕ) : (bigEndian width value).length = width := by
  induction width generalizing value with
  | zero => rfl
  | succ width ih => rw [bigEndian, List.length_append, ih, List.length_singleton]

theorem ofBigEndian_bigEndian (width value : ℕ) : ofBigEndian (bigEndian width value) = value % 256 ^ width := by
  induction width generalizing value with
  | zero => rw [pow_zero, Nat.mod_one]; rfl
  | succ width ih =>
    have step : ofBigEndian (bigEndian width (value / 256) ++ [UInt8.ofNat value]) =
        ofBigEndian (bigEndian width (value / 256)) * 256 + value % 256 := by
      rw [ofBigEndian, List.foldl_append]
      rfl
    rw [bigEndian, step, ih, pow_succ', Nat.mod_mul]
    omega

/-- Bytes are those of the number they spell. -/
theorem bigEndian_ofBigEndian (bytes : Bytes) : bigEndian bytes.length (ofBigEndian bytes) = bytes := by
  induction bytes using List.reverseRecOn with
  | nil => rfl
  | append_singleton bytes byte ih =>
    have step : ofBigEndian (bytes ++ [byte]) = ofBigEndian bytes * 256 + byte.toNat := by
      rw [ofBigEndian, List.foldl_append]
      rfl
    have small := byte.toNat_lt
    have high : (ofBigEndian bytes * 256 + byte.toNat) / 256 = ofBigEndian bytes := by omega
    have low : UInt8.ofNat (ofBigEndian bytes * 256 + byte.toNat) = byte := by
      apply UInt8.toNat_inj.mp
      rw [UInt8.toNat_ofNat']
      omega
    rw [List.length_append, List.length_singleton, bigEndian, step, high, low, ih]

/-- Numbers that fit are told apart by their bytes. -/
theorem bigEndian_inj {width left right : ℕ} (fitsLeft : left < 256 ^ width) (fitsRight : right < 256 ^ width) :
    bigEndian width left = bigEndian width right ↔ left = right := by
  refine ⟨fun same => ?_, fun same => same ▸ rfl⟩
  have values := congrArg ofBigEndian same
  rwa [ofBigEndian_bigEndian, ofBigEndian_bigEndian, Nat.mod_eq_of_lt fitsLeft, Nat.mod_eq_of_lt fitsRight] at values

/-- A stretch of a text is a part that starts it and the stretch after that part. -/
theorem take_append_stretch {α : Type u} {text part rest : List α} {position taken : ℕ}
    (there : text.drop position = part ++ rest) (inside : taken ≤ part.length) (more : ℕ) :
    part.take taken ++ (text.drop (position + taken)).take more = (text.drop position).take (taken + more) := by
  rw [List.take_add, List.drop_drop, there, List.take_append_of_le_length inside]

section Blocks

variable {α : Type u} {blocks : List (List α)} {size : ℕ}

theorem length_flatten_uniform (uniform : ∀ block ∈ blocks, block.length = size) :
    blocks.flatten.length = blocks.length * size := by
  induction blocks with
  | nil => simp
  | cons block blocks ih =>
    rw [List.flatten_cons, List.length_append, ih fun other member => uniform other (List.mem_cons_of_mem _ member),
      uniform block List.mem_cons_self, List.length_cons, Nat.succ_mul, Nat.add_comm]

/-- Blocks of one size are found at the multiples of it. -/
theorem drop_flatten_uniform (uniform : ∀ block ∈ blocks, block.length = size) {index : ℕ}
    (within : index ≤ blocks.length) : blocks.flatten.drop (index * size) = (blocks.drop index).flatten := by
  induction blocks generalizing index with
  | nil => simp
  | cons block blocks ih =>
    cases index with
    | zero => simp
    | succ index =>
      have first := uniform block List.mem_cons_self
      have rest := ih (fun other member => uniform other (List.mem_cons_of_mem _ member)) (Nat.le_of_succ_le_succ within)
      rw [List.flatten_cons, Nat.succ_mul, Nat.add_comm, ← List.drop_drop, List.drop_left' first, rest, List.drop_succ_cons]

end Blocks

section Cut

variable {α : Type u}

/-- How many of some blocks, laid end to end, lie whole within a room. -/
def wholeWithin : List ℕ → ℕ → ℕ
  | [], _ => 0
  | size :: sizes, room => if size ≤ room then wholeWithin sizes (room - size) + 1 else 0

/-- A proper prefix of a block. -/
def Torn (Block : List α → Prop) (part : List α) : Prop := ∃ block, Block block ∧ ∃ kept < block.length, part = block.take kept

variable {Block : List α → Prop}

theorem Torn.nil {block : List α} (known : Block block) (nonempty : block ≠ []) : Torn Block [] :=
  ⟨block, known, 0, List.length_pos_iff.mpr nonempty, rfl⟩

theorem Torn.take {part : List α} (torn : Torn Block part) (room : ℕ) : Torn Block (part.take room) := by
  obtain ⟨block, known, kept, shorter, rfl⟩ := torn
  exact ⟨block, known, min room kept, (Nat.min_le_right _ _).trans_lt shorter, List.take_take⟩

/-- A cut leaves the blocks that lie whole before it, and a torn one. -/
theorem take_flatten_append {blocks : List (List α)} (known : ∀ block ∈ blocks, Block block) {part : List α}
    (torn : Torn Block part) (room : ℕ) : ∃ rest, Torn Block rest ∧
      (blocks.flatten ++ part).take room = (blocks.take (wholeWithin (blocks.map List.length) room)).flatten ++ rest := by
  induction blocks generalizing room with
  | nil => exact ⟨part.take room, torn.take room, rfl⟩
  | cons block blocks ih =>
    have others (other : List α) (member : other ∈ blocks) := known other (List.mem_cons_of_mem _ member)
    rw [List.flatten_cons, List.append_assoc, List.map_cons, wholeWithin]
    split
    · next fits =>
      obtain ⟨rest, restTorn, cut⟩ := ih others (room - block.length)
      refine ⟨rest, restTorn, ?_⟩
      rw [List.take_append, List.take_of_length_le fits, cut, List.take_succ_cons, List.flatten_cons, List.append_assoc]
    · next cut =>
      have cut : room < block.length := Nat.lt_of_not_le cut
      refine ⟨block.take room, ⟨block, known block List.mem_cons_self, room, cut, rfl⟩, ?_⟩
      rw [List.take_append_of_le_length cut.le]
      rfl

end Cut

end RyuRooms.Foundation
