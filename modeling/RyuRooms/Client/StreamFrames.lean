import RyuRooms.Model.StreamFrames

/-! # A model stream does not depend on its chunks

Whatever the response body serves and however it is chunked, the stream yields text and then one last
item, and all of it is decided by the bytes and by the transport error after them.
-/

namespace RyuRooms.AppEvents

open Foundation

/-- Nothing follows this item: an error, or the end of the turn. -/
def IsLast : StreamItem → Prop
  | .ok event => isTerminal event
  | .error _ => True

variable {json : SerdeJson} {requestId : String}

/-- A frame that does not end the stream yields text at most. -/
theorem handleFrame_onward {frame : List UInt8} {item : StreamItem}
    (handled : handleFrame json requestId frame = some (item, false)) : ∃ id delta, item = .ok (.textDelta id delta) := by
  rw [handleFrame] at handled
  split at handled
  · next event parsed =>
    obtain ⟨rfl, runs⟩ := Prod.mk.inj (Option.some.inj handled)
    cases event with
    | textDelta id delta => exact ⟨id, delta, rfl⟩
    | completed id => cases runs
    | failed id code message => cases runs
  · cases handled
  · next error parsed => cases (Prod.mk.inj (Option.some.inj handled)).2

theorem handleFrame_stops {frame : List UInt8} {item : StreamItem}
    (handled : handleFrame json requestId frame = some (item, true)) : IsLast item := by
  rw [handleFrame] at handled
  split at handled
  · next event parsed =>
    obtain ⟨rfl, stops⟩ := Prod.mk.inj (Option.some.inj handled)
    exact stops
  · cases handled
  · next error parsed =>
    obtain ⟨rfl, -⟩ := Prod.mk.inj (Option.some.inj handled)
    trivial

theorem exists_deltas {items : List StreamItem} (texts : ∀ item ∈ items, ∃ id delta, item = .ok (.textDelta id delta)) :
    ∃ deltas : List (String × String), items = deltas.map fun delta => .ok (.textDelta delta.1 delta.2) := by
  induction items with
  | nil => exact ⟨[], rfl⟩
  | cons item items ih =>
    obtain ⟨deltas, rfl⟩ := ih fun other member => texts other (List.mem_cons_of_mem item member)
    obtain ⟨id, delta, rfl⟩ := texts item List.mem_cons_self
    exact ⟨(id, delta) :: deltas, rfl⟩

/-- What a stream yields is decided by the bytes it was served, and is text before one last item. -/
theorem streamItems_chunks (json : SerdeJson) (requestId : String) (upstream : List (Except String (List UInt8))) :
    streamItems json requestId upstream = streamItems json requestId (Framing.whole (Framing.served upstream)) ∧
      ∃ (deltas : List (String × String)) (last : StreamItem), streamItems json requestId upstream =
        (deltas.map fun delta => .ok (.textDelta delta.1 delta.2)) ++ [last] ∧ IsLast last := by
  have fails (error : String) : IsLast (.error (.transport error)) := trivial
  have ends : IsLast (.error (.protocol "stream ended without a terminal event")) := trivial
  refine ⟨Framing.consume_eq_whole rfl upstream, ?_⟩
  obtain ⟨items, last, yields, before, isLast⟩ := Framing.consume_shape
    (fun _ _ => @handleFrame_onward json requestId _ _) (fun _ _ => handleFrame_stops) fails ends upstream []
  obtain ⟨deltas, rfl⟩ := exists_deltas before
  exact ⟨deltas, last, yields, isLast⟩

end RyuRooms.AppEvents
