import Mathlib.Data.List.Basic

/-! # Frames cut off a growing buffer

A reader appends each chunk it receives to a buffer, cuts every complete frame off its front and hands
it to a handler, which may yield an item and may stop the reader. When bytes appended later never move
the end of a frame, what the reader yields depends on the bytes alone and not on how they were chunked.
-/

universe u v w

namespace RyuRooms.Foundation

/-- How the first complete frame is cut off a buffer. -/
structure Framing (α : Type u) where
  cut : List α → Option (List α × List α)
  shorter : ∀ {buffer frame rest}, cut buffer = some (frame, rest) → rest.length < buffer.length
  extends_cut : ∀ {buffer frame rest}, cut buffer = some (frame, rest) → ∀ more,
    cut (buffer ++ more) = some (frame, rest ++ more)

/-- What became of a buffer: the items it yielded, what is left of it, and whether the reader stops. -/
structure Drained (α : Type u) (ι : Type v) where
  items : List ι
  left : List α
  terminal : Bool

/-- The items of a buffer, and what follows them unless the reader stops. -/
def Drained.andThen {α : Type u} {ι : Type v} (drained : Drained α ι) (following : List α → List ι) : List ι :=
  if drained.terminal then drained.items else drained.items ++ following drained.left

namespace Framing

variable {α : Type u} {ι : Type v} {ε : Type w} (framing : Framing α) (handle : List α → Option (ι × Bool))

/-- Hands over the complete frames of a buffer until one of them stops the reader. -/
def drain (buffer : List α) : Drained α ι :=
  match found : framing.cut buffer with
  | none => ⟨[], buffer, false⟩
  | some (frame, rest) =>
    have := framing.shorter found
    match handle frame with
    | some (item, true) => ⟨[item], rest, true⟩
    | some (item, false) => { drain rest with items := item :: (drain rest).items }
    | none => drain rest
termination_by buffer.length

section Consume

variable (failed : ε → ι) (ended : ι)

/-- Reads chunks until a handler stops the reader, the source fails or it ends. -/
def consume (buffer : List α) : List (Except ε (List α)) → List ι
  | [] => [ended]
  | .error error :: _ => [failed error]
  | .ok chunk :: upstream =>
    (framing.drain handle (buffer ++ chunk)).andThen fun left => consume left upstream

end Consume

/-- What a source served: its bytes, and the error after them. -/
def served : List (Except ε (List α)) → List α × Option ε
  | [] => ([], none)
  | .error error :: _ => ([], some error)
  | .ok chunk :: upstream => (chunk ++ (served upstream).1, (served upstream).2)

/-- The source that serves some bytes in one chunk. -/
def whole (bytes : List α × Option ε) : List (Except ε (List α)) := .ok bytes.1 :: (bytes.2.map .error).toList

variable {framing handle}

section Drain

variable {buffer frame rest : List α} {item : ι}

theorem drain_of_none (open_ : framing.cut buffer = none) : framing.drain handle buffer = ⟨[], buffer, false⟩ := by
  rw [drain]
  split
  · rfl
  · next found => cases open_.symm.trans found

theorem drain_of_some (found : framing.cut buffer = some (frame, rest)) :
    framing.drain handle buffer = match handle frame with
      | some (item, true) => ⟨[item], rest, true⟩
      | some (item, false) =>
        { framing.drain handle rest with items := item :: (framing.drain handle rest).items }
      | none => framing.drain handle rest := by
  rw [drain]
  split
  · next open_ => cases open_.symm.trans found
  · next other =>
    cases found.symm.trans other
    rfl

/-- Bytes that come later leave a stopped reader as it is, and otherwise extend what was left. -/
theorem drain_append (buffer more : List α) :
    framing.drain handle (buffer ++ more) =
      if (framing.drain handle buffer).terminal then
        { framing.drain handle buffer with left := (framing.drain handle buffer).left ++ more }
      else
        let later := framing.drain handle ((framing.drain handle buffer).left ++ more)
        { later with items := (framing.drain handle buffer).items ++ later.items } := by
  induction size : buffer.length using Nat.strongRecOn generalizing buffer with
  | _ n ih =>
    cases found : framing.cut buffer with
    | none => simp [drain_of_none found]
    | some pair =>
      obtain ⟨frame, rest⟩ := pair
      have onward := ih rest.length (size ▸ framing.shorter found) rest rfl
      rw [drain_of_some found, drain_of_some (framing.extends_cut found more)]
      rcases handle frame with _ | ⟨item, terminal⟩
      · exact onward
      · cases terminal with
        | true => rfl
        | false =>
          simp only [onward]
          split <;> rfl

/-- A stopped reader is done, any other goes on with what it left. -/
theorem andThen_drain_append (buffer more : List α) (following : List α → List ι) :
    (framing.drain handle (buffer ++ more)).andThen following =
      (framing.drain handle buffer).andThen fun left =>
        (framing.drain handle (left ++ more)).andThen following := by
  rw [drain_append]
  cases stopped : (framing.drain handle buffer).terminal with
  | true => simp [Drained.andThen, stopped]
  | false =>
    simp only [Bool.false_eq_true, if_false, Drained.andThen, stopped]
    split
    · rfl
    · rw [List.append_assoc]

end Drain

section Consume

variable {failed : ε → ι} {ended : ι}

/-- After any buffer, the chunks to come count only as the bytes they hold. -/
theorem andThen_consume (upstream : List (Except ε (List α))) (buffer : List α) :
    (framing.drain handle buffer).andThen (fun left => framing.consume handle failed ended left upstream) =
      (framing.drain handle (buffer ++ (served upstream).1)).andThen
        fun _ => [(served upstream).2.elim ended failed] := by
  induction upstream generalizing buffer with
  | nil => rw [served, List.append_nil, Option.elim_none]; rfl
  | cons chunk upstream ih =>
    cases chunk with
    | error error => rw [served, List.append_nil, Option.elim_some]; rfl
    | ok chunk =>
      calc (framing.drain handle buffer).andThen
            (fun left => framing.consume handle failed ended left (.ok chunk :: upstream))
        _ = (framing.drain handle (buffer ++ chunk)).andThen
            (fun left => framing.consume handle failed ended left upstream) := by
          rw [andThen_drain_append]
          rfl
        _ = _ := by
          rw [ih, served, List.append_assoc]

/-- A reader that starts with an empty buffer yields what it would for the same bytes in one chunk. -/
theorem consume_eq_whole (empty : framing.cut [] = none) (upstream : List (Except ε (List α))) :
    framing.consume handle failed ended [] upstream =
      framing.consume handle failed ended [] (whole (served upstream)) := by
  have start (upstream : List (Except ε (List α))) : framing.consume handle failed ended [] upstream =
      (framing.drain handle (served upstream).1).andThen
        fun _ => [(served upstream).2.elim ended failed] := by
    rw [← List.nil_append (served upstream).1, ← andThen_consume, drain_of_none empty]
    rfl
  have same : served (whole (served upstream)) = served upstream := by
    obtain ⟨bytes, _ | error⟩ := served upstream
    · simp [whole, served]
    · simp [whole, served]
  rw [start, start, same]

section Shape

variable {Onward Last : ι → Prop} (onward : ∀ frame item, handle frame = some (item, false) → Onward item)
  (stops : ∀ frame item, handle frame = some (item, true) → Last item)

include onward stops in
/-- What a buffer yields goes on, but for the item that stops the reader. -/
theorem drain_shape (buffer : List α) : ∃ items last, (framing.drain handle buffer).items = items ++ last ∧
    (∀ item ∈ items, Onward item) ∧
      if (framing.drain handle buffer).terminal then ∃ item, last = [item] ∧ Last item else last = [] := by
  induction size : buffer.length using Nat.strongRecOn generalizing buffer with
  | _ n ih =>
    cases found : framing.cut buffer with
    | none => exact ⟨[], [], by simp [drain_of_none found]⟩
    | some pair =>
      obtain ⟨frame, rest⟩ := pair
      obtain ⟨items, last, yields, before, ending⟩ := ih rest.length (size ▸ framing.shorter found) rest rfl
      rw [drain_of_some found]
      rcases handled : handle frame with _ | ⟨item, terminal⟩
      · exact ⟨items, last, yields, before, ending⟩
      · cases terminal with
        | true => exact ⟨[], [item], rfl, by simp, item, rfl, stops frame item handled⟩
        | false =>
          refine ⟨item :: items, last, by simp [yields], ?_, ending⟩
          rintro other (_ | ⟨_, member⟩)
          · exact onward frame item handled
          · exact before other member

include onward stops in
/-- The reader yields one last item, and before it only items that do not stop it. -/
theorem consume_shape (fails : ∀ error, Last (failed error)) (ends : Last ended) (upstream : List (Except ε (List α)))
    (buffer : List α) : ∃ items last, framing.consume handle failed ended buffer upstream = items ++ [last] ∧
      (∀ item ∈ items, Onward item) ∧ Last last := by
  induction upstream generalizing buffer with
  | nil => exact ⟨[], ended, rfl, by simp, ends⟩
  | cons chunk upstream ih =>
    cases chunk with
    | error error => exact ⟨[], failed error, rfl, by simp, fails error⟩
    | ok chunk =>
      obtain ⟨items, last, yields, before, ending⟩ := drain_shape onward stops (buffer ++ chunk)
      rw [consume, Drained.andThen]
      split at ending
      · next stopped =>
        obtain ⟨item, rfl, isLast⟩ := ending
        exact ⟨items, item, by rw [if_pos stopped, yields], before, isLast⟩
      · next runs =>
        obtain ⟨later, final, yieldsLater, beforeLater, isLast⟩ := ih (framing.drain handle (buffer ++ chunk)).left
        refine ⟨items ++ later, final, ?_, ?_, isLast⟩
        · rw [if_neg runs, yields, ending, yieldsLater, List.append_nil, List.append_assoc]
        · intro item member
          exact (List.mem_append.mp member).elim (before item) (beforeLater item)

end Shape

end Consume

end Framing

end RyuRooms.Foundation
