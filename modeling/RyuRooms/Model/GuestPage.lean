import RyuRooms.Foundation.Schema
import RyuRooms.Model.GuestStream
import RyuRooms.Model.Publisher

/-! # The page of a guest

The listeners of `guest-page.js` and its `render`, once the guest has joined. A frame of the stream is its
name and the value its data spells, and the page keeps the snapshot it applied last as that value, with the
text of the answer that is being written. Translations and the two other elements of the page are left out.
-/

namespace RyuRooms

open Foundation

/-- A server-sent event. -/
structure Frame where
  name : String
  data : Json

/-- `sse_event` in `guest_events`. -/
def Delivery.frame (stamp : ToRfc3339) : Delivery → Frame
  | .snapshot reading => ⟨"snapshot", reading.snapshot.json stamp⟩
  | .event _ sent => ⟨sent.name, sent.data stamp⟩

/-- `current` and `partial`. -/
structure GuestPage where
  current : Option Json
  partialText : String

/-- What `render` puts on the page: the room's title, model and status, and the role and text of each article. -/
structure RoomView where
  title : String
  model : String
  status : String
  articles : List (String × String)
deriving DecidableEq

namespace GuestPage

open Schema

/-- `applySnapshot`. -/
def applySnapshot (page : GuestPage) (value : Option Json) : GuestPage :=
  if field "contract" string value = some "rooms/1" then ⟨value, ""⟩ else page

/-- The listeners that `connect` adds. -/
def listen (page : GuestPage) (frame : Frame) : GuestPage :=
  if frame.name = "snapshot" then page.applySnapshot (some frame.data)
  else if frame.name = "turn.delta" then
    { page with partialText := (field "partialText" string (some frame.data)).getD "" }
  else if frame.name ∈ ["turn.accepted", "turn.completed", "turn.failed", "turn.canceled", "room.closed"] then
    page.applySnapshot (frame.data.get? "snapshot")
  else page

/-- `message`, of an item of `current.messages`. -/
def article : Schema (String × String) := fun value => do
  let role ← field "role" string value
  let text ← field "text" string value
  return (role, text)

/-- `render`, where there is a snapshot that has what it shows. -/
def render (page : GuestPage) : Option RoomView := do
  let title ← field "id" string page.current
  let model ← field "modelId" string page.current
  let status ← field "status" string page.current
  let articles ← field "messages" (array article) page.current
  let answer := if page.partialText = "" then [] else [("assistant", page.partialText)]
  return ⟨String.ofList (title.toList.take 16), model, status, articles ++ answer⟩

end GuestPage

end RyuRooms
