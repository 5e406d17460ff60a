import RyuRooms.Runtime.Sample
import RyuRooms.Runtime.Sound

/-! # A closed room stays quiet

A closed room without an active run gets no run and no message any more, whatever is still under way in
it. `close_room` reads the room, stops the run it saw and closes the room in three separate sections.
`ClosesIdle` says that the last one finds no active run in the room. In runs of such steps a room is
quiet from the moment its `close_room` returns.
-/

namespace RyuRooms

open Foundation

namespace Db

variable {source target : Db} {roomId : String}

/-- The room is closed and has no active run. -/
structure Quiet (db : Db) (roomId : String) : Prop where
  closed : ∃ room ∈ db.rooms, room.id = roomId ∧ room.status = .closed
  idle : ∀ run ∈ db.runs, run.roomId = roomId → run.status.isActive = false

/-- A room that is open is not quiet. -/
theorem Quiet.not_open (quiet : source.Quiet roomId) : ¬ source.IsOpen roomId := by
  rintro ⟨room, member, named, opened⟩
  obtain ⟨other, otherMem, same, closed⟩ := quiet.closed
  exact opened (Table.eq_of_key member otherMem (named.trans same.symm) ▸ closed)

/-- In a quiet room runs only end, and messages only go. -/
structure Fades (source target : Db) (roomId : String) : Prop where
  runs : ∀ run ∈ target.runs, run.roomId = roomId → ∃ old ∈ source.runs, old.roomId = roomId ∧
    (run.status.isActive → old.status.isActive)
  messages : ∀ message ∈ target.messages, message.roomId = roomId → message ∈ source.messages

namespace Fades

theorem of_onlyEnds (ends : source.OnlyEnds target) (messages : target.messages = source.messages) :
    source.Fades target roomId where
  runs run member inRoom := by
    obtain ⟨old, held, becomes⟩ := ends run member
    exact ⟨old, held, becomes.room.symm.trans inRoom, fun active => becomes.of_active active ▸ active⟩
  messages message member _ := messages ▸ member

theorem of_same (runs : target.runs = source.runs) (messages : target.messages = source.messages) :
    source.Fades target roomId :=
  of_onlyEnds (.of_eq runs) messages

end Fades

/-- No change of runs adds anything to a quiet room. -/
theorem Quiet.fades_of_runChange (quiet : source.Quiet roomId) (change : RunChange source target) :
    source.Fades target roomId := by
  cases change with
  | unchanged => exact .of_same rfl rfl
  | @accepted room _ _ _ _ _ _ _ _ _ messaged ran opened free first second =>
    have apart : room ≠ roomId := by
      rintro rfl
      exact quiet.not_open opened
    obtain ⟨-, messages, inserted, rfl⟩ := insertMessage_eq_some_iff.mp first
    obtain ⟨-, runs, added, rfl⟩ := insertRun_eq_some_iff.mp second
    constructor
    · intro run member inRoom
      rcases (Table.mem_of_insert? added).mp member with old | rfl
      · exact ⟨run, old, inRoom, id⟩
      · exact absurd inRoom apart
    · intro message member inRoom
      rcases (Table.mem_of_insert? inserted).mp member with old | rfl
      · exact old
      · exact absurd inRoom apart
  | extended => exact .of_onlyEnds .extended rfl
  | @settled room _ _ _ _ _ answered terminal active answer =>
    obtain ⟨run, member, named, alive⟩ := active
    rw [isActiveIn_iff] at alive
    have apart : room ≠ roomId := by
      rintro rfl
      have ended := quiet.idle run member alive.1
      rw [alive.2] at ended
      cases ended
    have runs : answered.runs = source.runs := by
      rcases answer with rfl | ⟨-, _, _, inserted⟩
      · rfl
      · obtain ⟨-, _, -, rfl⟩ := insertMessage_eq_some_iff.mp inserted
        rfl
    constructor
    · intro ended kept inRoom
      obtain ⟨old, held, becomes⟩ := (OnlyCarries.settled terminal runs ⟨run, member, named, alive.2⟩).onlyEnds ended kept
      exact ⟨old, held, becomes.room.symm.trans inRoom, fun active => becomes.of_active active ▸ active⟩
    · intro message kept inRoom
      have held : message ∈ answered.messages := (Table.mem_delete.mp kept).1
      rcases answer with rfl | ⟨-, _, _, inserted⟩
      · exact held
      · obtain ⟨-, messages, added, rfl⟩ := insertMessage_eq_some_iff.mp inserted
        rcases (Table.mem_of_insert? added).mp held with old | rfl
        · exact old
        · exact absurd inRoom apart
  | stopped active => exact .of_onlyEnds Db.OnlyCarries.stopped.onlyEnds rfl
  | @recovered messages now listed =>
    refine ⟨fun run member inRoom => ?_, fun message member _ => ?_⟩
    · obtain ⟨old, held, -, room, active⟩ := of_mem_interrupted member
      exact ⟨old, held, room.trans inRoom, fun alive => (active alive).1 ▸ alive⟩
    · change message ∈ (interrupted now messages source).messages at member
      rwa [interrupted_messages] at member

/-- No change adds anything to a quiet room. -/
theorem Quiet.fades (quiet : source.Quiet roomId) (change : Change source target) :
    source.Fades target roomId := by
  cases change with
  | ran change => exact quiet.fades_of_runChange change
  | created valid first second third =>
    obtain ⟨_, -, rfl⟩ := insertRoom_eq_some_iff.mp first
    obtain ⟨-, _, -, rfl⟩ := insertInvite_eq_some_iff.mp second
    obtain ⟨-, _, -, rfl⟩ := insertParticipant_eq_some_iff.mp third
    exact .of_same rfl rfl
  | joined admits first second =>
    obtain ⟨-, _, -, rfl⟩ := insertParticipant_eq_some_iff.mp first
    obtain ⟨-, _, -, rfl⟩ := insertSession_eq_some_iff.mp second
    exact .of_same rfl rfl
  | rotated => exact .of_same rfl rfl
  | revoked => exact .of_same rfl rfl
  | closed => exact .of_same rfl rfl

/-- A quiet room stays quiet. -/
theorem Quiet.change (quiet : source.Quiet roomId) (change : Change source target) : target.Quiet roomId := by
  constructor
  · obtain ⟨room, member, rfl, shut⟩ := quiet.closed
    exact change.stays_closed member shut
  · intro run member inRoom
    obtain ⟨old, held, sameRoom, active⟩ := (quiet.fades change).runs run member inRoom
    exact Bool.eq_false_iff.mpr fun alive => Bool.eq_false_iff.mp (quiet.idle old held sameRoom) (active alive)

end Db

namespace Runtime

/-- `RoomStore::close_room` is about to close a room with an active run. -/
def closesBusy (state : Runtime) : Label → Bool
  | .advance index _ _ =>
    match state.threads[index]? with
    | some (.call _ (.close roomId)) => state.db.runs.rows.any fun run =>
        (validateRoomId roomId).toOption == some run.roomId && run.status.isActive
    | _ => false
  | _ => false

/-- Every `RoomStore::close_room` finds no active run in its room. -/
def ClosesIdle (state : Runtime) (label : Label) : Prop := ¬ closesBusy state label

instance (state : Runtime) (label : Label) : Decidable (ClosesIdle state label) :=
  inferInstanceAs (Decidable (¬ _))

/-- The points of `close_room` for a room, with what it knows once it has closed it. -/
def ClosingSound (db : Db) (roomId : String) : CallPoint → Prop
  | .readClosing room | .close room => room = roomId
  | .signal closing room _ | .stop closing room _ | .removeStopped closing room _
  | .readStopped closing room _ | .publishCanceled closing room _ _ => closing ∧ room = roomId
  | .removeRoom room | .readClosed room | .publishClosed room _ =>
    room = roomId ∧ ∃ id, validateRoomId roomId = .ok id ∧ db.Quiet id
  | .returned (.snapshot _) => ∃ id, validateRoomId roomId = .ok id ∧ db.Quiet id
  | .returned (.failed _) | .dropped => True
  | _ => False

/-- What the request of a thread knows of the room it closes. -/
def CloserSound (db : Db) : Thread → Prop
  | .call (.closeRoom roomId) point => ClosingSound db roomId point
  | .call _ _ | .task _ _ => True

section Step

variable {store : RoomStore} {draws : Draws} {fails : Bool} {state next : Runtime} {label : Label}

theorem ClosingSound.change {source target : Db} {roomId : String} {point : CallPoint}
    (sound : ClosingSound source roomId point) (change : Change source target) :
    ClosingSound target roomId point := by
  have quiet (known : ∃ id, validateRoomId roomId = .ok id ∧ source.Quiet id) :
      ∃ id, validateRoomId roomId = .ok id ∧ target.Quiet id :=
    let ⟨id, valid, quiet⟩ := known
    ⟨id, valid, quiet.change change⟩
  cases point with
  | removeRoom room => exact ⟨sound.1, quiet sound.2⟩
  | readClosed room => exact ⟨sound.1, quiet sound.2⟩
  | publishClosed room snapshot => exact ⟨sound.1, quiet sound.2⟩
  | returned answer =>
    cases answer with
    | snapshot snapshot => exact quiet sound
    | _ => exact sound
  | _ => exact sound

/-- `close_room` goes through its points, and closes a room that is quiet from then on. -/
theorem ClosingSound.called {point reached : CallPoint} {middle : Runtime} {index : ℕ} {request : Request}
    {roomId : String} (sound : ClosingSound state.db roomId point)
    (held : state.threads[index]? = some (.call request point))
    (idle : ClosesIdle state (.advance index draws fails))
    (called : CallStep store draws fails state point reached middle) (change : Change state.db middle.db) :
    ClosingSound middle.db roomId reached := by
  have returns {closing : Bool} {room : String} (answer : Answer) (stopping : closing ∧ room = roomId) :
      ClosingSound middle.db roomId (.afterStop closing room answer) := by
    rw [CallPoint.afterStop, if_pos stopping.1]
    exact stopping.2
  cases called with
  | refused refuses =>
    cases point with
    | stop closing room run => exact returns _ sound
    | readStopped closing room run => exact returns _ sound
    | authorizeHost room input => exact sound.elim
    | authorizeGuest secret input => exact sound.elim
    | append session input => exact sound.elim
    | readSnapshot turn => exact sound.elim
    | accept turn snapshot => exact sound.elim
    | readClosing room => trivial
    | close room => trivial
    | readClosed room => trivial
    | _ => cases refuses
  | signalled => exact sound
  | stopped success => exact sound
  | removedStopped => exact sound
  | readStopped valid shown => exact sound
  | publishedCanceled => exact returns _ sound
  | readClosing valid shown =>
    rw [closingPoint]
    split
    · exact ⟨rfl, sound⟩
    · exact sound
  | @closed room db success =>
    obtain rfl : room = roomId := sound
    obtain ⟨id, valid, ⟨owner, member, named, opened⟩, closes⟩ := RoomStore.closeRoom_ok success
    refine ⟨rfl, id, valid, ?_, ?_⟩
    · refine ⟨_, closes ▸ Db.mem_closed_rooms.mpr ⟨owner, member, rfl⟩, ?_⟩
      rw [if_pos (by simp [named, opened])]
      exact ⟨named, rfl⟩
    · intro run runMem inRoom
      rw [closes] at runMem
      refine Bool.eq_false_iff.mpr fun active => idle ?_
      simp only [closesBusy, held, List.any_eq_true, Bool.and_eq_true, beq_iff_eq]
      exact ⟨run, runMem, by simp [valid, Except.toOption, inRoom], active⟩
  | removedRoom => exact sound
  | readClosed => exact sound
  | publishedClosed => exact sound.2
  | _ => exact sound.elim

/-- The rooms that were closed, and what is known of them. -/
def Closers (state : Runtime) : Prop :=
  ∀ (k : ℕ) (thread : Thread), state.threads[k]? = some thread → CloserSound state.db thread

theorem Closers.step (closers : Closers state) (step : Step store state label next)
    (idle : ClosesIdle state label) : Closers next := by
  refine step.each (fun _ => CloserSound state.db) (fun _ => CloserSound next.db) closers ?_ ?_ ?_ ?_ ?_ ?_ ?_
  · rintro k old found - keeps sound
    cases keeps with
    | same =>
      cases old with
      | task generation point => trivial
      | call request point =>
        cases request with
        | closeRoom roomId => exact ClosingSound.change sound step.change
        | _ => trivial
    | flagged => trivial
  · intro k request begun
    cases request <;> trivial
  · intro k request
    cases request <;> trivial
  · rintro index draws fails request point reached middle rfl held called rfl sound
    cases request with
    | closeRoom roomId =>
      have change : Change state.db middle.db := step.change
      change ClosingSound middle.db roomId reached
      exact ClosingSound.called sound held idle called change
    | _ => trivial
  · intro index draws fails request accepted advanced held free after sound
    trivial
  · intro index draws fails generation point reached middle advanced held ran after sound
    trivial
  · intro index received generation point changed reached middle advanced held heard after sound
    trivial

end Step

end Runtime

section Runs

/-- `close_room` reads a room without a run, a turn of the room is accepted, and `close_room` goes on. -/
def Sample.overtaken : List Label :=
  [Sample.opening, .begin (.closeRoom Sample.roomId), Sample.go 1 0, .begin Sample.turn, Sample.go 2 1,
    Sample.go 3 0, Sample.go 4 0, Sample.go 5 0, Sample.go 6 0]

/-- The run is running in the closed room when `close_room` has returned. -/
theorem closed_room_keeps_run : ∃ state, (runtimeMachine Sample.store).Run Sample.overtaken state ∧
    (∃ snapshot ∈ state.published.head?.bind fun entry => entry.2.snapshot?, state.threads.head? =
      some (.call (.closeRoom Sample.roomId) (.returned (.snapshot snapshot)))) ∧
    ∃ run ∈ state.db.runs.rows, run.roomId = Sample.roomId ∧ run.status = .running := by
  refine Machine.Run.of_check Sample.runtime_initial ?_
  decide +kernel

/-- In a run whose every `RoomStore::close_room` finds its room without an active run, a room whose
`close_room` has returned has no active run, and never gets a message any more. -/
theorem quiet_of_closesIdle {store : RoomStore} {first later : List Label} {middle state : Runtime}
    (run : ((runtimeMachine store).guard Runtime.ClosesIdle).Run first middle)
    (path : ((runtimeMachine store).guard Runtime.ClosesIdle).Path middle later state) {index : ℕ}
    {roomId : String} {snapshot : RoomSnapshot}
    (returned : middle.threads[index]? = some (.call (.closeRoom roomId) (.returned (.snapshot snapshot)))) :
    ∃ id, validateRoomId roomId = .ok id ∧
      (∀ run ∈ state.db.runs, run.roomId = id → run.status.isActive = false) ∧
      ∀ message ∈ state.db.messages, message.roomId = id → message ∈ middle.db.messages := by
  have closers : Runtime.Closers middle := run.invariant
    (fun _ initial k thread held => by simp [initial.threads] at held) fun before label next closers step =>
      let ⟨idle, stepped⟩ := Machine.guard_step_iff.mp step
      closers.step (.of_step? stepped) idle
  obtain ⟨id, valid, quiet⟩ := closers index _ returned
  have kept : state.db.Quiet id ∧ ∀ message ∈ state.db.messages, message.roomId = id →
      message ∈ middle.db.messages := by
    refine path.invariant (fun state => state.db.Quiet id ∧ ∀ message ∈ state.db.messages,
      message.roomId = id → message ∈ middle.db.messages) ⟨quiet, fun _ member _ => member⟩ ?_
    intro before label next ⟨quiet, old⟩ step
    have change := (Runtime.Step.of_step? (Machine.guard_step_iff.mp step).2).change
    exact ⟨quiet.change change, fun message member inRoom =>
      old message ((quiet.fades change).messages message member inRoom) inRoom⟩
  exact ⟨id, valid, kept.1.idle, kept.2⟩

/-- The room is closed, and a later turn is refused. -/
theorem quiet_of_closesIdle_closed : ∃ middle state : Runtime, state.threads.length = 2 ∧
    ∃ id, validateRoomId Sample.roomId = .ok id ∧
      (∀ run ∈ state.db.runs, run.roomId = id → run.status.isActive = false) ∧
      ∀ message ∈ state.db.messages, message.roomId = id → message ∈ middle.db.messages := by
  have checked : ∃ middle, ((runtimeMachine Sample.store).guard Runtime.ClosesIdle).Run
      [Sample.opening, .begin (.closeRoom Sample.roomId), Sample.go 1 0, Sample.go 2 0, Sample.go 3 0,
        Sample.go 4 0, Sample.go 5 0] middle ∧
      (∃ snapshot ∈ middle.published.head?.bind fun entry => entry.2.snapshot?, middle.threads[0]? =
        some (.call (.closeRoom Sample.roomId) (.returned (.snapshot snapshot)))) ∧
      ∃ state ∈ ((runtimeMachine Sample.store).guard Runtime.ClosesIdle).run? middle
        [.begin Sample.turn, Sample.go 6 1], state.threads.length = 2 :=
    Machine.Run.of_check Sample.runtime_initial (by decide +kernel)
  obtain ⟨middle, run, ⟨snapshot, -, returned⟩, state, path, threads⟩ := checked
  exact ⟨middle, state, threads, quiet_of_closesIdle run path returned⟩

end Runs

end RyuRooms
