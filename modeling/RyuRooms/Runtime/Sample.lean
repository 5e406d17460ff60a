import RyuRooms.Model.Sample
import RyuRooms.Runtime.Sound

/-! # A sample runtime

The sample node with a runtime on new tables, and the first steps of one room: it is created, and its
host's turn is accepted as a run.
-/

namespace RyuRooms.Sample

/-- A runtime that has not served anything. -/
def runtime : Runtime := ⟨.empty, fun _ => none, [], [], [], [], []⟩

theorem runtime_initial : Runtime.Initial runtime where
  reached := ⟨crates, [], .nil rfl⟩
  recovered := by simp [runtime, Db.empty]
  active _ := rfl
  threads := rfl
  published := rfl
  requests := rfl
  runIds := by simp [runtime, Db.empty]
  memberIds := by simp [runtime, Db.empty]
  guests := by simp [runtime, Db.empty]

/-- The `k`-th step lets a thread go on, without a failure. -/
def go (k thread : ℕ) : Label := .advance thread (draws (10 * k) (10 * k)) false

def roomId : String := opaqueId "room_" (.ofNat 1)
def runId : String := opaqueId "run_" (.ofNat 21)
def requestId : String := opaqueId "req_" (.ofNat 22)

/-- The host of the room. -/
def roomHost : RoomSession := ⟨roomId, opaqueId "member_" (.ofNat 2), .host, "Host", ""⟩

/-- A turn of the host, with a key to retry it by. -/
def turn : Request := .submitTurn roomHost ⟨"hello", some "key"⟩

/-- The room is created. -/
def opening : Label := .access (.createRoom ⟨"llama", origin⟩) (draws 1 5) false

/-- The turn is accepted and published, and its request is about to start the run. -/
def accepting : List Label := [opening, .begin turn, go 2 0, go 3 0, go 4 0, go 5 0]

/-- The run is started, as task 1. -/
def starting : List Label := accepting ++ [go 6 0]

/-- The model completes the stream, and the task is about to finish its run. -/
def completing : List Label := [.receive 1 (.opened none), .receive 1 (.item (some (.ok (.completed requestId))))]

end RyuRooms.Sample
