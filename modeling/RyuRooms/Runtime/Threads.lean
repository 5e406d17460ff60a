import RyuRooms.Runtime.Steps

/-! # The threads after a step

A step moves the thread its label names; every other thread stays where it is, except that a signal
sets the flag of one task and `start_run` adds one. `Step.each` is the rule for what holds of every
thread: the thread that moves establishes it anew, and the others keep it under the step.
-/

namespace RyuRooms.Runtime

open Foundation

variable {store : RoomStore} {draws : Draws} {fails : Bool} {state next : Runtime} {label : Label}

section Put

variable {index : ℕ} {thread : Thread}

@[simp] theorem put_db : (state.put index thread).db = state.db := rfl
@[simp] theorem put_active : (state.put index thread).active = state.active := rfl
@[simp] theorem put_published : (state.put index thread).published = state.published := rfl
@[simp] theorem put_requests : (state.put index thread).requests = state.requests := rfl
@[simp] theorem put_drawn : (state.put index thread).drawn = state.drawn := rfl
@[simp] theorem put_guests : (state.put index thread).guests = state.guests := rfl

theorem thread_put {k : ℕ} {found : Thread} (held : (state.put index thread).threads[k]? = some found) :
    (k = index ∧ found = thread) ∨ (k ≠ index ∧ state.threads[k]? = some found) := by
  simp only [put, List.getElem?_set] at held
  split at held
  · next same =>
    split at held
    · exact Or.inl ⟨same.symm, (Option.some.inj held).symm⟩
    · cases held
  · next other => exact Or.inr ⟨fun same => other same.symm, held⟩

theorem thread_put_of_ne {k : ℕ} (other : k ≠ index) :
    (state.put index thread).threads[k]? = state.threads[k]? :=
  List.getElem?_set_ne other.symm

theorem thread_put_self {old : Thread} (held : state.threads[index]? = some old) :
    (state.put index thread).threads[index]? = some thread := by
  obtain ⟨bound, -⟩ := List.getElem?_eq_some_iff.mp held
  exact List.getElem?_set_self bound

end Put

section Frames

@[simp] theorem draw_db : (state.draw draws).db = state.db := rfl
@[simp] theorem draw_active : (state.draw draws).active = state.active := rfl
@[simp] theorem draw_threads : (state.draw draws).threads = state.threads := rfl
@[simp] theorem draw_published : (state.draw draws).published = state.published := rfl
@[simp] theorem draw_requests : (state.draw draws).requests = state.requests := rfl
@[simp] theorem draw_guests : (state.draw draws).guests = state.guests := rfl

variable {roomId runId : String} {event : RoomEvent} {channel : ℕ} {accepted : AcceptedRun}

@[simp] theorem publish_db : (state.publish roomId event).db = state.db := rfl
@[simp] theorem publish_active : (state.publish roomId event).active = state.active := rfl
@[simp] theorem publish_threads : (state.publish roomId event).threads = state.threads := rfl
@[simp] theorem publish_requests : (state.publish roomId event).requests = state.requests := rfl
@[simp] theorem publish_drawn : (state.publish roomId event).drawn = state.drawn := rfl

/-- The shared state apart from the `active` map and the threads. -/
structure SameLogs (state next : Runtime) : Prop where
  db : next.db = state.db
  published : next.published = state.published
  requests : next.requests = state.requests
  drawn : next.drawn = state.drawn
  guests : next.guests = state.guests

theorem removeActive_logs : SameLogs state (state.removeActive roomId runId) := by
  rw [removeActive]
  split <;> exact ⟨rfl, rfl, rfl, rfl, rfl⟩

theorem removeActive_threads : (state.removeActive roomId runId).threads = state.threads := by
  rw [removeActive]
  split <;> rfl

/-- `remove_active` removes exactly the entry of its room and run. -/
theorem removeActive_active_iff {room : String} {run : ActiveRun} :
    (state.removeActive roomId runId).active room = some run ↔
      state.active room = some run ∧ ¬ (room = roomId ∧ run.runId = runId) := by
  rw [removeActive]
  split
  · next matching =>
    simp only [Option.any_eq_true, beq_iff_eq] at matching
    obtain ⟨held, there, named⟩ := matching
    simp only [Function.update_apply]
    split
    · next same =>
      subst same
      simp only [reduceCtorEq, false_iff, not_and, there, Option.some.injEq]
      rintro rfl
      simp [named]
    · next other => simp [other]
  · next absent =>
    simp only [Option.any_eq_true, beq_iff_eq, not_exists, not_and] at absent
    refine ⟨fun there => ⟨there, ?_⟩, fun there => there.1⟩
    rintro ⟨rfl, named⟩
    exact absent run there named

theorem removeActiveForRoom_active_iff {room : String} {run : ActiveRun} :
    (state.removeActiveForRoom roomId).active room = some run ↔
      state.active room = some run ∧ room ≠ roomId := by
  simp only [removeActiveForRoom, Function.update_apply]
  split <;> simp_all

theorem send_logs : SameLogs state (state.send channel) := by
  simp only [send]
  split
  · split <;> exact ⟨rfl, rfl, rfl, rfl, rfl⟩
  · exact ⟨rfl, rfl, rfl, rfl, rfl⟩

theorem send_active : (state.send channel).active = state.active := by
  simp only [send]
  split
  · split <;> rfl
  · rfl

theorem signal_logs : SameLogs state (state.signal roomId runId) := by
  simp only [signal]
  split
  · exact send_logs
  · exact ⟨rfl, rfl, rfl, rfl, rfl⟩

theorem signal_active : (state.signal roomId runId).active = state.active := by
  simp only [signal]
  split
  · exact send_active
  · rfl

theorem startRun_logs : SameLogs state (state.startRun accepted) := by
  simp only [startRun]
  split <;> exact ⟨rfl, rfl, rfl, rfl, rfl⟩

end Frames

/-- A thread that a step of another thread leaves where it is, its flag possibly set. -/
inductive Kept : Thread → Thread → Prop
  | same {thread : Thread} : Kept thread thread
  | flagged {generation : Generation} {point : TaskPoint} (listens : point ≠ .removeActive ∧ point ≠ .ended) :
      Kept (.task generation point) (.task { generation with cancelled := true } point)

/-- A signal keeps every thread, and flags only the task that is registered for its run. -/
theorem thread_signal (roomId runId : String) {k : ℕ} {old : Thread} (held : state.threads[k]? = some old) :
    (state.signal roomId runId).threads[k]? = some old ∨
      ∃ generation point, old = .task generation point ∧ (point ≠ .removeActive ∧ point ≠ .ended) ∧
        state.active roomId = some ⟨runId, k⟩ ∧ (state.signal roomId runId).threads[k]? =
          some (.task { generation with cancelled := true } point) := by
  simp only [signal]
  split
  · next run found =>
    obtain ⟨registered, named⟩ := Option.filter_eq_some_iff.mp found
    simp only [send]
    split
    · next generation point target =>
      split
      · exact Or.inl held
      · next listens =>
        rw [not_or] at listens
        rcases eq_or_ne k run.cancel with rfl | other
        · rw [target] at held
          obtain rfl := Option.some.inj held
          refine Or.inr ⟨generation, point, rfl, listens, ?_, thread_put_self target⟩
          rw [registered, ← eq_of_beq named]
        · exact Or.inl ((thread_put_of_ne other).trans held)
    · exact Or.inl held
  · exact Or.inl held

theorem signal_length (roomId runId : String) :
    (state.signal roomId runId).threads.length = state.threads.length := by
  simp only [signal]
  split
  · simp only [send]
    split
    · split
      · rfl
      · simp [put]
    · rfl
  · rfl

/-- Every thread after a signal was there before it. -/
theorem of_thread_signal {roomId runId : String} {k : ℕ} {found : Thread}
    (held : (state.signal roomId runId).threads[k]? = some found) :
    ∃ old, state.threads[k]? = some old ∧ Kept old found := by
  have bound : k < state.threads.length := by
    rw [← signal_length roomId runId]
    exact (List.getElem?_eq_some_iff.mp held).1
  obtain ⟨old, before⟩ : ∃ old, state.threads[k]? = some old := ⟨_, List.getElem?_eq_getElem bound⟩
  refine ⟨old, before, ?_⟩
  rcases thread_signal roomId runId before with same | ⟨_, _, rfl, listens, -, flagged⟩
  · rw [held] at same
    exact Option.some.inj same ▸ .same
  · rw [held] at flagged
    exact Option.some.inj flagged ▸ .flagged listens

/-- The task that `start_run` spawns. -/
def spawned (state : Runtime) (accepted : AcceptedRun) : Thread :=
  .task { accepted, cancelled := false, partialText := ""
          startedAs := (state.db.runs.find? (·.id == accepted.run.runId)).map RunRow.status } .request

theorem startRun_of_free {accepted : AcceptedRun} (free : state.active accepted.snapshot.id = none) :
    state.startRun accepted = { state with
      active := Function.update state.active accepted.snapshot.id
        (some ⟨accepted.run.runId, state.threads.length⟩)
      threads := state.threads ++ [spawned state accepted] } := by
  rw [startRun, if_neg (by simp [free])]
  rfl

theorem startRun_of_taken {accepted : AcceptedRun} {run : ActiveRun}
    (taken : state.active accepted.snapshot.id = some run) : state.startRun accepted = state := by
  rw [startRun, if_pos (by simp [taken])]

/-- A request's step leaves every thread in place, apart from the flag a signal sets. -/
theorem CallStep.kept {point after : CallPoint} {middle : Runtime}
    (step : CallStep store draws fails state point after middle) {k : ℕ} {old : Thread}
    (held : state.threads[k]? = some old) :
    middle.threads[k]? = some old ∨ ∃ closing roomId runId generation taskPoint,
      point = .signal closing roomId runId ∧ after = .stop closing roomId runId ∧
        old = .task generation taskPoint ∧ (taskPoint ≠ .removeActive ∧ taskPoint ≠ .ended) ∧
        state.active roomId = some ⟨runId, k⟩ ∧
        middle.threads[k]? = some (.task { generation with cancelled := true } taskPoint) := by
  cases step with
  | started =>
    rename_i accepted
    cases registered : state.active accepted.snapshot.id with
    | none =>
      rw [startRun_of_free registered]
      exact Or.inl (by rw [List.getElem?_append_left (List.getElem?_eq_some_iff.mp held).1, held])
    | some run =>
      rw [startRun_of_taken registered]
      exact Or.inl held
  | signalled =>
    refine (thread_signal _ _ held).imp_right ?_
    rintro ⟨generation, taskPoint, rfl, listens, registered, flagged⟩
    exact ⟨_, _, _, generation, taskPoint, rfl, rfl, rfl, listens, registered, flagged⟩
  | removedStopped => exact Or.inl (by rwa [removeActive_threads])
  | _ => exact Or.inl held

/-- Every thread after a request's step was there before it, or is the task it spawned. -/
theorem CallStep.of_thread {point after : CallPoint} {middle : Runtime}
    (step : CallStep store draws fails state point after middle) {k : ℕ} {found : Thread}
    (held : middle.threads[k]? = some found) :
    (∃ old, state.threads[k]? = some old ∧ Kept old found) ∨ ∃ accepted, point = .start accepted ∧
      state.active accepted.snapshot.id = none ∧ k = state.threads.length ∧ found = spawned state accepted := by
  cases step with
  | started =>
    rename_i accepted
    cases registered : state.active accepted.snapshot.id with
    | none =>
      rw [startRun_of_free registered, List.getElem?_append] at held
      split at held
      · exact Or.inl ⟨found, held, .same⟩
      · next beyond =>
        obtain ⟨bound, last⟩ := List.getElem?_eq_some_iff.mp held
        simp only [List.length_singleton, Nat.lt_one_iff] at bound
        refine Or.inr ⟨accepted, rfl, registered, by omega, ?_⟩
        simp only [bound, List.getElem_cons_zero] at last
        exact last.symm
    | some run =>
      rw [startRun_of_taken registered] at held
      exact Or.inl ⟨found, held, .same⟩
  | signalled => exact Or.inl (of_thread_signal held)
  | removedStopped => exact Or.inl ⟨found, by rwa [removeActive_threads] at held, .same⟩
  | _ => exact Or.inl ⟨found, held, .same⟩

theorem TaskStep.threads {generation : Generation} {point after : TaskPoint} {middle : Runtime}
    (step : TaskStep store draws fails state generation point after middle) :
    middle.threads = state.threads := by
  cases step with
  | removed => exact removeActive_threads
  | _ => rfl

theorem ReceiveStep.threads {generation changed : Generation} {point after : TaskPoint} {middle : Runtime}
    (step : ReceiveStep state generation point after changed middle) : middle.threads = state.threads := by
  cases step <;> rfl

theorem AccessStep.threads {op : AccessOp} {middle : Runtime} (step : AccessStep store draws fails state op middle) :
    middle.threads = state.threads := by
  cases step <;> rfl

/-- The thread a step moves. -/
def mover : Label → Option ℕ
  | .advance index _ _ | .receive index _ | .drop index => some index
  | .begin _ | .access _ _ _ => none

/-- A thread that a step does not move stays in place, and only a signal for its run sets its flag. -/
theorem Step.kept (step : Step store state label next) {k : ℕ} {old : Thread}
    (held : state.threads[k]? = some old) (other : mover label ≠ some k) :
    next.threads[k]? = some old ∨ ∃ (index : ℕ) (request : Request) (closing : Bool) (roomId runId : String)
      (generation : Generation) (taskPoint : TaskPoint),
      next.threads[index]? = some (Thread.call request (.stop closing roomId runId)) ∧
        old = Thread.task generation taskPoint ∧ state.active roomId = some ⟨runId, k⟩ ∧
        next.threads[k]? = some (Thread.task { generation with cancelled := true } taskPoint) := by
  cases step with
  | begun => exact Or.inl (by rw [List.getElem?_append_left (List.getElem?_eq_some_iff.mp held).1, held])
  | dropped =>
    rename_i index _ _ _ _
    have apart : k ≠ index := fun same => other (congrArg some same.symm)
    exact Or.inl ((thread_put_of_ne apart).trans held)
  | called at_ step =>
    rename_i index _ _ request _ _ middle
    have apart : k ≠ index := fun same => other (congrArg some same.symm)
    rw [thread_put_of_ne apart]
    refine (step.kept held).imp_right ?_
    rintro ⟨closing, roomId, runId, generation, taskPoint, rfl, rfl, rfl, -, registered, flagged⟩
    have moved : ∃ old, middle.threads[index]? = some old := by
      rcases step.kept at_ with same | ⟨_, _, _, _, _, -, -, -, -, -, flagged⟩
      · exact ⟨_, same⟩
      · exact ⟨_, flagged⟩
    obtain ⟨before, moved⟩ := moved
    exact ⟨index, request, closing, roomId, runId, generation, taskPoint, thread_put_self moved, rfl,
      registered, flagged⟩
  | ran at_ step =>
    rename_i index _ _ _ _ _ _
    have apart : k ≠ index := fun same => other (congrArg some same.symm)
    exact Or.inl (by rw [thread_put_of_ne apart, step.threads, held])
  | heard at_ step =>
    rename_i index _ _ _ _ _ _
    have apart : k ≠ index := fun same => other (congrArg some same.symm)
    exact Or.inl (by rw [thread_put_of_ne apart, step.threads, held])
  | accessed fresh step => exact Or.inl (by rwa [step.threads])

/-- A task that is about to remove its entry, or has. -/
def isLeaving : TaskPoint → Bool
  | .removeActive | .ended => true
  | _ => false

/-- A task and its point, and what they may be a step later. -/
structure Onward (earlier : Generation) (before : TaskPoint) (later : Generation) (after : TaskPoint) : Prop where
  accepted : earlier.accepted = later.accepted
  startedAs : earlier.startedAs = later.startedAs
  cancelled : earlier.cancelled → later.cancelled
  requested : before ≠ .request → after ≠ .request
  leaving : isLeaving before → isLeaving after
  ended : before = .ended → after = .ended

namespace Onward

variable {earlier later : Generation} {before after : TaskPoint}

theorem runId (onward : Onward earlier before later after) : earlier.runId = later.runId :=
  congrArg (·.run.runId) onward.accepted

theorem roomId (onward : Onward earlier before later after) : earlier.roomId = later.roomId :=
  congrArg (·.snapshot.id) onward.accepted

theorem refl (generation : Generation) (point : TaskPoint) : Onward generation point generation point :=
  ⟨rfl, rfl, id, id, id, id⟩

end Onward

theorem TaskStep.onward {generation : Generation} {point after : TaskPoint} {middle : Runtime}
    (step : TaskStep store draws fails state generation point after middle) :
    Onward generation point generation after := by
  refine ⟨rfl, rfl, id, fun _ => ?_, fun leaves => ?_, fun ended => ?_⟩
  · cases step with
    | rejected => split <;> nofun
    | _ => nofun
  · cases step with
    | removed => rfl
    | _ => cases leaves
  · subst ended
    cases step

theorem ReceiveStep.onward {generation changed : Generation} {point after : TaskPoint} {middle : Runtime}
    (step : ReceiveStep state generation point after changed middle) : Onward generation point changed after := by
  cases step with
  | requested next => exact ⟨rfl, rfl, id, fun other => absurd rfl other, nofun, nofun⟩
  | heard hears =>
    refine ⟨rfl, rfl, id, fun _ same => ?_, nofun, nofun⟩
    rw [same] at hears
    exact hears

theorem Kept.onward {generation changed : Generation} {point after : TaskPoint}
    (keeps : Kept (.task generation point) (.task changed after)) : Onward generation point changed after := by
  cases keeps with
  | same => exact .refl ..
  | flagged => exact ⟨rfl, rfl, fun _ => rfl, id, id, id⟩

/-- A task stays a task of its run, and ends only by removing its entry. -/
theorem Step.task_kept (step : Step store state label next) {k : ℕ} {generation : Generation}
    {point : TaskPoint} (held : state.threads[k]? = some (.task generation point)) :
    ∃ changed after, next.threads[k]? = some (Thread.task changed after) ∧
      Onward generation point changed after ∧ (after = .ended → point = .ended ∨
        next.active = (state.removeActive generation.roomId generation.runId).active) := by
  by_cases moves : mover label = some k
  · cases step with
    | begun => cases moves
    | accessed => cases moves
    | dropped at_ =>
      obtain rfl := Option.some.inj moves
      rw [at_] at held
      cases held
    | called at_ =>
      obtain rfl := Option.some.inj moves
      rw [at_] at held
      cases held
    | ran at_ step =>
      obtain rfl := Option.some.inj moves
      rw [at_] at held
      obtain ⟨rfl, rfl⟩ := Thread.task.inj (Option.some.inj held)
      refine ⟨_, _, thread_put_self (step.threads ▸ at_), step.onward, fun ended => ?_⟩
      cases step with
      | removed => exact Or.inr rfl
      | rejected => split at ended <;> cases ended
      | _ => cases ended
    | heard at_ step =>
      obtain rfl := Option.some.inj moves
      rw [at_] at held
      obtain ⟨rfl, rfl⟩ := Thread.task.inj (Option.some.inj held)
      refine ⟨_, _, thread_put_self (step.threads ▸ at_), step.onward, fun ended => ?_⟩
      cases step with
      | requested onward =>
        subst ended
        rcases onward with onward | ⟨code, onward⟩ <;> cases onward
      | heard hears =>
        subst ended
        exact hears.elim
  · rcases step.kept held moves with same | ⟨_, _, _, _, _, _, _, -, old, -, flagged⟩
    · exact ⟨_, _, same, .refl .., Or.inl⟩
    · obtain ⟨rfl, rfl⟩ := Thread.task.inj old
      exact ⟨_, _, flagged, ⟨rfl, rfl, fun _ => rfl, id, id, id⟩, Or.inl⟩

/-- An entry after a step was there before it, or `start_run` just made it for the task it spawned. -/
theorem Step.active_cases (step : Step store state label next) {roomId : String} {run : ActiveRun}
    (registered : next.active roomId = some run) :
    state.active roomId = some run ∨ ∃ (index : ℕ) (draws : Draws) (fails : Bool) (request : Request)
        (accepted : AcceptedRun), label = .advance index draws fails ∧
        state.threads[index]? = some (.call request (.start accepted)) ∧
        state.active roomId = none ∧ roomId = accepted.snapshot.id ∧
        run = ⟨accepted.run.runId, state.threads.length⟩ ∧
        next.threads[state.threads.length]? = some (spawned state accepted) := by
  cases step with
  | begun => exact Or.inl registered
  | dropped => exact Or.inl registered
  | called at_ step =>
    rename_i index _ _ request _ _ _
    rw [put_active] at registered
    cases step with
    | @started accepted =>
      cases before : state.active accepted.snapshot.id with
      | some other =>
        rw [startRun_of_taken before] at registered
        exact Or.inl registered
      | none =>
        rw [startRun_of_free before] at registered ⊢
        simp only [Function.update_apply] at registered
        split at registered
        · next same =>
          subst same
          refine Or.inr ⟨index, _, _, request, accepted, rfl, at_, before, rfl, (Option.some.inj registered).symm, ?_⟩
          have bound := (List.getElem?_eq_some_iff.mp at_).1
          rw [thread_put_of_ne (by omega), List.getElem?_append_right le_rfl, Nat.sub_self]
          rfl
        · exact Or.inl registered
    | signalled =>
      rw [signal_active] at registered
      exact Or.inl registered
    | removedStopped => exact Or.inl (removeActive_active_iff.mp registered).1
    | removedRoom => exact Or.inl (removeActiveForRoom_active_iff.mp registered).1
    | _ => exact Or.inl registered
  | ran at_ step =>
    rw [put_active] at registered
    cases step with
    | removed => exact Or.inl (removeActive_active_iff.mp registered).1
    | _ => exact Or.inl registered
  | heard at_ step => cases step <;> exact Or.inl registered
  | accessed fresh step => cases step <;> exact Or.inl registered

/-- What the moving thread, a new request and a spawned task establish, and the other threads keep,
holds of every thread after a step. -/
theorem Step.each (step : Step store state label next) (before after : ℕ → Thread → Prop)
    (all : ∀ k thread, state.threads[k]? = some thread → before k thread)
    (kept : ∀ k old found, state.threads[k]? = some old → Kept old found → before k old → after k found)
    (begun : ∀ k request, label = .begin request → after k (.call request request.first))
    (dropped : ∀ k request, after k (.call request .dropped))
    (called : ∀ index draws fails request point reached middle, label = .advance index draws fails →
      state.threads[index]? = some (.call request point) →
      CallStep store draws fails state point reached middle → next = middle.put index (.call request reached) →
      before index (.call request point) → after index (.call request reached))
    (started : ∀ index draws fails request accepted, label = .advance index draws fails →
      state.threads[index]? = some (.call request (.start accepted)) →
      state.active accepted.snapshot.id = none →
      next = (state.startRun accepted).put index (.call request (.returned (.accepted accepted))) →
      before index (.call request (.start accepted)) → after state.threads.length (spawned state accepted))
    (ran : ∀ index draws fails generation point reached middle, label = .advance index draws fails →
      state.threads[index]? = some (.task generation point) →
      TaskStep store draws fails state generation point reached middle →
      next = middle.put index (.task generation reached) →
      before index (.task generation point) → after index (.task generation reached))
    (heard : ∀ index received generation point changed reached middle, label = .receive index received →
      state.threads[index]? = some (.task generation point) →
      ReceiveStep state generation point reached changed middle →
      next = middle.put index (.task changed reached) →
      before index (.task generation point) → after index (.task changed reached)) :
    ∀ k thread, next.threads[k]? = some thread → after k thread := by
  intro k thread held
  cases step with
  | begun =>
    simp only [List.getElem?_append] at held
    split at held
    · exact kept k thread thread held .same (all k thread held)
    · obtain ⟨bound, last⟩ := List.getElem?_eq_some_iff.mp held
      simp only [List.length_singleton, Nat.lt_one_iff] at bound
      simp only [bound, List.getElem_cons_zero] at last
      exact last ▸ begun k _ rfl
  | dropped at_ under =>
    rcases thread_put held with ⟨rfl, rfl⟩ | ⟨-, old⟩
    · exact dropped _ _
    · exact kept k thread thread old .same (all k thread old)
  | called at_ step =>
    rcases thread_put held with ⟨rfl, rfl⟩ | ⟨-, moved⟩
    · exact called _ _ _ _ _ _ _ rfl at_ step rfl (all _ _ at_)
    · rcases step.of_thread moved with ⟨old, before, keeps⟩ | ⟨accepted, rfl, free, rfl, rfl⟩
      · exact kept k old thread before keeps (all k old before)
      · cases step with
        | started => exact started _ _ _ _ accepted rfl at_ free rfl (all _ _ at_)
        | refused refuses => simp [callRefuses] at refuses
  | ran at_ step =>
    rcases thread_put held with ⟨rfl, rfl⟩ | ⟨-, moved⟩
    · exact ran _ _ _ _ _ _ _ rfl at_ step rfl (all _ _ at_)
    · rw [step.threads] at moved
      exact kept k thread thread moved .same (all k thread moved)
  | heard at_ step =>
    rcases thread_put held with ⟨rfl, rfl⟩ | ⟨-, moved⟩
    · exact heard _ _ _ _ _ _ _ rfl at_ step rfl (all _ _ at_)
    · rw [step.threads] at moved
      exact kept k thread thread moved .same (all k thread moved)
  | accessed fresh step =>
    rw [step.threads] at held
    exact kept k thread thread held .same (all k thread held)

/-- A task after a step was a task of its run before it, or was just spawned. -/
theorem Step.of_task (step : Step store state label next) {k : ℕ} {generation : Generation}
    {point : TaskPoint} (held : next.threads[k]? = some (.task generation point)) :
    (∃ earlier before, state.threads[k]? = some (Thread.task earlier before) ∧
      Onward earlier before generation point) ∨
    ∃ (index : ℕ) (draws : Draws) (fails : Bool) (request : Request) (accepted : AcceptedRun),
      k = state.threads.length ∧ label = .advance index draws fails ∧
      state.threads[index]? = some (.call request (.start accepted)) ∧
      state.active accepted.snapshot.id = none ∧ Thread.task generation point = spawned state accepted ∧
      next.active accepted.snapshot.id = some ⟨accepted.run.runId, k⟩ := by
  refine step.each (fun k thread => state.threads[k]? = some thread)
    (fun k thread => ∀ generation point, thread = Thread.task generation point →
      (∃ earlier before, state.threads[k]? = some (Thread.task earlier before) ∧
        Onward earlier before generation point) ∨
      ∃ (index : ℕ) (draws : Draws) (fails : Bool) (request : Request) (accepted : AcceptedRun),
        k = state.threads.length ∧ label = .advance index draws fails ∧
        state.threads[index]? = some (.call request (.start accepted)) ∧
        state.active accepted.snapshot.id = none ∧ Thread.task generation point = spawned state accepted ∧
        next.active accepted.snapshot.id = some ⟨accepted.run.runId, k⟩)
    (fun _ _ => id) ?_ ?_ ?_ ?_ ?_ ?_ ?_ k _ held generation point rfl
  · rintro k old found there keeps - generation point rfl
    cases old with
    | call request point => cases keeps
    | task earlier before => exact Or.inl ⟨earlier, before, there, keeps.onward⟩
  · exact fun k request begun generation point isTask => nomatch isTask
  · exact fun k request generation point isTask => nomatch isTask
  · exact fun index draws fails request point reached middle _ _ _ _ _ generation point isTask => nomatch isTask
  · rintro index draws fails request accepted advanced there free rfl - generation point isTask
    refine Or.inr ⟨index, draws, fails, request, accepted, rfl, advanced, there, free, isTask.symm, ?_⟩
    rw [put_active, startRun_of_free free]
    exact Function.update_self ..
  · rintro index draws fails generation point reached middle - there ran - - _ _ isTask
    obtain ⟨rfl, rfl⟩ := Thread.task.inj isTask
    exact Or.inl ⟨_, _, there, ran.onward⟩
  · rintro index received generation point changed reached middle - there heard - - _ _ isTask
    obtain ⟨rfl, rfl⟩ := Thread.task.inj isTask
    exact Or.inl ⟨_, _, there, heard.onward⟩

/-- An entry stays until a stopped run, its own task or `close_room` removes it. -/
theorem Step.active_kept (step : Step store state label next) {roomId : String} {run : ActiveRun}
    (registered : state.active roomId = some run) :
    next.active roomId = some run ∨
      (∃ (index : ℕ) (request : Request) (closing : Bool), mover label = some index ∧
        state.threads[index]? = some (.call request (.removeStopped closing roomId run.runId))) ∨
      (∃ (index : ℕ) (draws : Draws) (fails : Bool) (request : Request), label = .advance index draws fails ∧
        state.threads[index]? = some (.call request (.removeRoom roomId))) ∨
      ∃ (index : ℕ) (generation : Generation), mover label = some index ∧
        state.threads[index]? = some (.task generation .removeActive) ∧ generation.runId = run.runId ∧
        next.threads[index]? = some (.task generation .ended) := by
  cases step with
  | begun => exact Or.inl registered
  | dropped => exact Or.inl registered
  | called at_ step =>
    rename_i index _ _ request _ _ _
    cases step with
    | @started accepted =>
      cases before : state.active accepted.snapshot.id with
      | some other => exact Or.inl (by rwa [put_active, startRun_of_taken before])
      | none =>
        refine Or.inl ?_
        rw [put_active, startRun_of_free before]
        refine (Function.update_of_ne ?_ ..).trans registered
        rintro rfl
        rw [before] at registered
        cases registered
    | signalled => exact Or.inl (by rwa [put_active, signal_active])
    | @removedStopped closing room runId =>
      by_cases same : roomId = room ∧ run.runId = runId
      · obtain ⟨rfl, rfl⟩ := same
        exact Or.inr (Or.inl ⟨index, request, closing, rfl, at_⟩)
      · exact Or.inl (removeActive_active_iff.mpr ⟨registered, same⟩)
    | @removedRoom room =>
      by_cases same : roomId = room
      · subst same
        exact Or.inr (Or.inr (Or.inl ⟨index, _, _, request, rfl, at_⟩))
      · exact Or.inl (removeActiveForRoom_active_iff.mpr ⟨registered, same⟩)
    | _ => exact Or.inl registered
  | ran at_ step =>
    rename_i index _ _ generation _ _ _
    cases step with
    | removed =>
      by_cases same : roomId = generation.roomId ∧ run.runId = generation.runId
      · refine Or.inr (Or.inr (Or.inr ⟨index, generation, rfl, at_, same.2.symm, ?_⟩))
        exact thread_put_self (removeActive_threads ▸ at_)
      · exact Or.inl (removeActive_active_iff.mpr ⟨registered, same⟩)
    | _ => exact Or.inl registered
  | heard at_ step => cases step <;> exact Or.inl registered
  | accessed fresh step => cases step <;> exact Or.inl registered

end RyuRooms.Runtime
