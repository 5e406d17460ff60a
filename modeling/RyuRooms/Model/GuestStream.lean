import RyuRooms.Model.RoomRuntime

/-! # The event stream of a guest

`guest_events` of `api.rs` on the channel that `realtime.rs` keeps for its room. A stream is stopped at an await
point with the locals it holds there. It reads a snapshot, subscribes, and from then on takes the events of the
channel one by one; a receiver that fell behind the buffer is told so, goes on at the oldest event that is left,
and the stream reads a snapshot again. Before each delivery the session is resolved once more. The hub is known by
what was published, newest first, as the runtime logs it; every event has its place in that log, and `readAt` is
how much of it there was when a snapshot was read.
-/

namespace RyuRooms

open Foundation

def ROOM_EVENT_CAPACITY : ℕ := 128

/-- The events sent on a room's channel, oldest first, each with its place among all that were published. -/
def sent (published : List (String × RoomEvent)) (roomId : String) : List (ℕ × RoomEvent) :=
  published.reverse.zipIdx.filterMap fun entry =>
    if entry.1.1 = roomId then some (entry.2, entry.1.2) else none

/-- A snapshot, and how many events had been published when it was read. -/
structure Reading where
  readAt : ℕ
  snapshot : RoomSnapshot
deriving DecidableEq

/-- What a stream yields. -/
inductive Delivery where
  | snapshot (reading : Reading)
  | event (place : ℕ) (event : RoomEvent)
deriving DecidableEq

/-- What `recv` returns; the hub keeps its senders, so that no channel is ever closed. -/
inductive Receipt where
  | event (place : ℕ) (event : RoomEvent)
  | lagged
deriving DecidableEq

/-- `Receiver::recv`, where the first `seen` events of the channel have been passed. -/
def recv (events : List (ℕ × RoomEvent)) (seen : ℕ) : Option (Receipt × ℕ) :=
  if seen + ROOM_EVENT_CAPACITY < events.length then some (.lagged, events.length - ROOM_EVENT_CAPACITY)
  else
    match events[seen]? with
    | some (place, event) => some (.event place event, seen + 1)
    | none => none

/-- The await points of `guest_events`. -/
inductive StreamPoint where
  | authorize
  | read (roomId : String)
  | subscribe (roomId : String) (reading : Reading)
  | begin (roomId : String) (seen : ℕ) (reading : Reading)
  | select (roomId : String) (seen : ℕ)
  | check (roomId : String) (seen : ℕ) (receipt : Receipt)
  | recover (roomId : String) (seen : ℕ)
  | recheck (roomId : String) (seen : ℕ) (reading : Reading)
  | ended
deriving DecidableEq

/-- The steps of a stream; a client may go away at any point. -/
inductive StreamLabel where
  | advance (draws : Draws) (fails : Bool)
  | tick (draws : Draws) (fails : Bool)
  | receive
  | drop

section Steps

variable (store : RoomStore) (db : Db) (draws : Draws) (fails : Bool)

/-- The session that `resolve_session` finds, if it finds one. -/
def resolved (secret : String) : Option RoomSession :=
  if fails then none
  else
    match (outcome (store.resolveSession draws.env secret) db).1 with
    | .ok session => session
    | .error _ => none

/-- The snapshot that is read, if the room is there. -/
def readRoom (published : List (String × RoomEvent)) (roomId : String) : Option Reading :=
  if fails then none
  else
    match (outcome (store.snapshot draws.env 0 roomId) db).1 with
    | .ok snapshot => snapshot.map fun snapshot => ⟨published.length, snapshot⟩
    | .error _ => none

/-- Going on where a session or a snapshot was found, and ending where none was. -/
def orEnd {α : Type} (next : α → StreamPoint × Option Delivery) (found : Option α) : StreamPoint × Option Delivery :=
  found.elim (.ended, none) next

end Steps

/-- One step of `guest_events`, with what it yields. -/
def streamStep? (store : RoomStore) (secret : String) (db : Db) (published : List (String × RoomEvent)) :
    StreamPoint → StreamLabel → Option (StreamPoint × Option Delivery)
  | .ended, _ => none
  | _, .drop => some (.ended, none)
  | .authorize, .advance draws fails =>
    some (orEnd (fun session => (.read session.roomId, none)) (resolved store db draws fails secret))
  | .read roomId, .advance draws fails =>
    some (orEnd (fun reading => (.subscribe roomId reading, none)) (readRoom store db draws fails published roomId))
  | .subscribe roomId reading, .advance _ _ =>
    some (.begin roomId (sent published roomId).length reading, none)
  | .begin roomId seen reading, .advance draws fails =>
    some (orEnd (fun _ => (.select roomId seen, some (.snapshot reading))) (resolved store db draws fails secret))
  | .select roomId seen, .tick draws fails =>
    some (orEnd (fun _ => (.select roomId seen, none)) (resolved store db draws fails secret))
  | .select roomId seen, .receive =>
    (recv (sent published roomId) seen).map fun received => (.check roomId received.2 received.1, none)
  | .check roomId seen (.event place event), .advance draws fails =>
    some (orEnd (fun _ => (.select roomId seen, some (.event place event))) (resolved store db draws fails secret))
  | .check roomId seen .lagged, .advance draws fails =>
    some (orEnd (fun _ => (.recover roomId seen, none)) (resolved store db draws fails secret))
  | .recover roomId seen, .advance draws fails =>
    some (orEnd (fun reading => (.recheck roomId seen reading, none)) (readRoom store db draws fails published roomId))
  | .recheck roomId seen reading, .advance draws fails =>
    some (orEnd (fun _ => (.select roomId seen, some (.snapshot reading))) (resolved store db draws fails secret))
  | _, _ => none

end RyuRooms
