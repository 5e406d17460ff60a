import RyuRooms.Foundation.Framing
import RyuRooms.Model.RoomRuntime

/-! # The event frames of a model stream

The loop of `ModelStreamClient::stream` in the crate `app-events`, from the response body on. What the
body serves is a list of chunks and transport errors, and what the stream yields is the list of its
items. `serde_json` is a parameter: a parser of texts, a reader of events and two accessors of values.
-/

namespace RyuRooms.AppEvents

open Foundation

/-- `serde_json`, as far as a frame needs it. -/
structure SerdeJson where
  Value : Type
  fromStr : String → Option Value
  fromValue : Value → Option ModelStreamEvent
  get : Value → String → Option Value
  asStr : Value → Option String

/-- What one poll of the stream yields. -/
abbrev StreamItem := Except ModelStreamError ModelStreamEvent

/-- `find_sse_frame_boundary`. -/
def findSseFrameBoundary : List UInt8 → Option ℕ
  | first :: second :: rest =>
    if first = 10 ∧ second = 10 then some 0 else (findSseFrameBoundary (second :: rest)).map (· + 1)
  | _ => none

/-- A line without its end, a line feed or a carriage return and a line feed. -/
def endLine (reversed : List Char) : String :=
  String.ofList (match reversed with
    | '\r' :: line => line.reverse
    | line => line.reverse)

/-- `lines` after the start of a line, which is read backwards. -/
def linesFrom (reversed : List Char) : List Char → List String
  | [] => if reversed = [] then [] else [String.ofList reversed.reverse]
  | c :: rest => if c = '\n' then endLine reversed :: linesFrom [] rest else linesFrom (c :: reversed) rest

/-- `str::lines`. -/
def lines (value : String) : List String := linesFrom [] value.toList

variable (json : SerdeJson) (requestId : String)

/-- `parse_model_stream_frame`. -/
def parseModelStreamFrame (frame : List UInt8) : Except ModelStreamError (Option ModelStreamEvent) := do
  let text ← (String.fromUTF8? frame.toByteArray).elim (.error (.protocol "stream frame is not UTF-8")) .ok
  let data := ((lines text).findSome? fun line => (stripPrefix line "data:").map trim).getD ""
  if data = "" then return none
  if data = "[DONE]" then return some (.completed requestId)
  let value ← (json.fromStr data).elim (.error (.protocol "stream frame is not valid JSON")) .ok
  match json.fromValue value with
  | some event => return some event
  | none =>
    if (json.get value "type").bind json.asStr = some "error" ∨ (json.get value "error").isSome then
      return some (.failed requestId "providerError" "model stream failed")
    else return none

/-- `matches!(event, ModelStreamEvent::Completed { .. } | ModelStreamEvent::Failed { .. })`. -/
def isTerminal : ModelStreamEvent → Bool
  | .textDelta _ _ => false
  | .completed _ | .failed _ _ _ => true

/-- What the inner loop does with a frame: the item it yields, and whether it ends the stream. -/
def handleFrame (frame : List UInt8) : Option (StreamItem × Bool) :=
  match parseModelStreamFrame json requestId frame with
  | .ok (some event) => some (.ok event, isTerminal event)
  | .ok none => none
  | .error error => some (.error error, true)

theorem findSseFrameBoundary_append {buffer : List UInt8} {position : ℕ}
    (found : findSseFrameBoundary buffer = some position) :
    position + 2 ≤ buffer.length ∧ ∀ more, findSseFrameBoundary (buffer ++ more) = some position := by
  induction buffer using findSseFrameBoundary.induct generalizing position with
  | case1 first second rest both =>
    rw [findSseFrameBoundary, if_pos both] at found
    obtain rfl := Option.some.inj found
    exact ⟨by simp, fun more => by simp [findSseFrameBoundary, both]⟩
  | case2 first second rest other ih =>
    rw [findSseFrameBoundary, if_neg other] at found
    obtain ⟨before, later, rfl⟩ := Option.map_eq_some_iff.mp found
    obtain ⟨short, stays⟩ := ih later
    refine ⟨by simp only [List.length_cons] at short ⊢; omega, fun more => ?_⟩
    have onward := stays more
    rw [List.cons_append] at onward
    rw [List.cons_append, List.cons_append, findSseFrameBoundary, if_neg other, onward, Option.map_some]
  | case3 buffer short =>
    rw [findSseFrameBoundary] at found
    · cases found
    · exact short

/-- The frames of the stream, each of which ends at an empty line. -/
def sseFraming : Framing UInt8 where
  cut buffer := (findSseFrameBoundary buffer).map fun position =>
    (buffer.take position, buffer.drop (position + 2))
  shorter found := by
    obtain ⟨position, boundary, cut⟩ := Option.map_eq_some_iff.mp found
    obtain ⟨rfl, rfl⟩ := Prod.mk.inj cut
    have short := (findSseFrameBoundary_append boundary).1
    rw [List.length_drop]
    omega
  extends_cut found more := by
    obtain ⟨position, boundary, cut⟩ := Option.map_eq_some_iff.mp found
    obtain ⟨rfl, rfl⟩ := Prod.mk.inj cut
    obtain ⟨short, stays⟩ := findSseFrameBoundary_append boundary
    rw [stays more, Option.map_some, List.take_append_of_le_length (by omega), List.drop_append_of_le_length short]

/-- The items of the stream that `ModelStreamClient::stream` returns, for what the response body serves. -/
def streamItems (upstream : List (Except String (List UInt8))) : List StreamItem :=
  sseFraming.consume (handleFrame json requestId) (fun error => .error (.transport error))
    (.error (.protocol "stream ended without a terminal event")) [] upstream

end RyuRooms.AppEvents
