import RyuRooms.Runtime.Sample
import RyuRooms.Runtime.Sound

/-! # The cancel channel of a generation

A task that hears its channel close without a signal goes round its loop again, and again at once.
Its sender lives in the `active` map only, which `stop_run`, `close_room` and the tasks themselves clear.
`SignalsFirst` says that `start_run` does not register a run whose `stop_run` has already looked for a
sender, or whose task has not ended, and that `close_room` removes no entry of a task that was not told
to stop. In runs of such steps a task that has not returned was told, or can still be.
-/

namespace RyuRooms

open Foundation

namespace Runtime

/-- A task that listens to its channel, on which nothing was sent. -/
def isUntold : Thread → Bool
  | .task generation point => !isLeaving point && !generation.cancelled
  | .call _ _ => false

/-- A `stop_run` between its signal and its `remove_active`. -/
def isStopping (roomId runId : String) : Thread → Bool
  | .call _ (.stop _ room run) | .call _ (.removeStopped _ room run) => room == roomId && run == runId
  | .call _ _ | .task _ _ => false

/-- A task of the run that has not ended. -/
def isRunning (runId : String) : Thread → Bool
  | .task generation point => generation.runId == runId && point != .ended
  | .call _ _ => false

/-- `start_run` registers a run that is being stopped or still has a task. -/
def startsLate (state : Runtime) : Label → Bool
  | .advance index _ _ =>
    match state.threads[index]? with
    | some (.call _ (.start accepted)) =>
      (state.active accepted.snapshot.id).isNone && state.threads.any fun thread =>
        isStopping accepted.snapshot.id accepted.run.runId thread || isRunning accepted.run.runId thread
    | _ => false
  | _ => false

/-- `close_room` removes the entry of a task that was not told to stop. -/
def removesUntold (state : Runtime) : Label → Bool
  | .advance index _ _ =>
    match state.threads[index]? with
    | some (.call _ (.removeRoom roomId)) =>
      (state.active roomId).any fun run => state.threads[run.cancel]?.any isUntold
    | _ => false
  | _ => false

/-- A step registers no run that is being stopped, and removes no entry of a task that was not told. -/
def SignalsFirst (state : Runtime) (label : Label) : Prop := ¬ startsLate state label ∧ ¬ removesUntold state label

instance (state : Runtime) (label : Label) : Decidable (SignalsFirst state label) :=
  inferInstanceAs (Decidable (_ ∧ _))

/-- The sender of a thread's channel was used or is still registered. -/
def canHear (state : Runtime) (index : ℕ) : Thread → Bool
  | .task generation point => isLeaving point || generation.cancelled || state.hasSender generation.roomId index
  | .call _ _ => true

/-- No task that has not returned lost its sender without being told to stop. -/
def Signalled (state : Runtime) : Prop :=
  ∀ index ∈ List.range state.threads.length, ∀ thread ∈ state.threads[index]?, state.canHear index thread

instance (state : Runtime) : Decidable state.Signalled :=
  inferInstanceAs (Decidable (∀ index ∈ List.range state.threads.length, _))

/-- Untold tasks are registered, one for each run, and a stop under way has told the one it saw. -/
structure Told (state : Runtime) : Prop where
  sound : Sound state
  single : ∀ (k k' : ℕ) (generation generation' : Generation) (point point' : TaskPoint),
    state.threads[k]? = some (.task generation point) → state.threads[k']? = some (.task generation' point') →
      point ≠ .ended → point' ≠ .ended → generation.runId = generation'.runId → k = k'
  registered : ∀ (k : ℕ) (generation : Generation) (point : TaskPoint),
    state.threads[k]? = some (.task generation point) → ¬ isLeaving point → ¬ generation.cancelled →
      state.active generation.roomId = some ⟨generation.runId, k⟩
  stopping : ∀ (i : ℕ) (thread : Thread), state.threads[i]? = some thread → ∀ roomId runId,
    isStopping roomId runId thread → ∀ (k : ℕ) (told : Thread), state.active roomId = some ⟨runId, k⟩ →
      state.threads[k]? = some told → ¬ isUntold told

section Step

variable {store : RoomStore} {draws : Draws} {fails : Bool} {state next : Runtime} {label : Label}

/-- A signal reaches the registered task unless it has returned. -/
theorem signal_told {roomId runId : String} {k : ℕ} {thread : Thread}
    (registered : state.active roomId = some ⟨runId, k⟩)
    (held : (state.signal roomId runId).threads[k]? = some thread) : ¬ isUntold thread := by
  simp only [signal, registered, Option.filter_some, BEq.rfl, ↓reduceIte, send] at held
  split at held
  · next generation point target =>
    split at held
    · next left =>
      obtain rfl := Option.some.inj (held.symm.trans target)
      rcases left with rfl | rfl <;> simp [isUntold, isLeaving]
    · rw [thread_put_self target] at held
      obtain rfl := Option.some.inj held
      simp [isUntold]
  · next absent =>
    cases thread with
    | call request point => simp [isUntold]
    | task generation point => exact absurd held (absent generation point)

/-- A task that is untold after a step was untold before it, or was just spawned. -/
theorem Onward.untold {earlier later : Generation} {before after : TaskPoint}
    (onward : Onward earlier before later after) (untold : isUntold (.task later after)) :
    isUntold (.task earlier before) := by
  simp only [isUntold, Bool.and_eq_true, Bool.not_eq_true'] at untold ⊢
  exact ⟨Bool.eq_false_iff.mpr fun left => Bool.eq_false_iff.mp untold.1 (onward.leaving left),
    Bool.eq_false_iff.mpr fun told => Bool.eq_false_iff.mp untold.2 (onward.cancelled told)⟩

/-- A stop under way was so before the step, or its signal has just told the registered task. -/
theorem Step.of_stopping (step : Step store state label next) {i : ℕ} {thread : Thread}
    (held : next.threads[i]? = some thread) {roomId runId : String} (stops : isStopping roomId runId thread) :
    (∃ old, state.threads[i]? = some old ∧ isStopping roomId runId old) ∨
      ∀ (k : ℕ) (told : Thread), next.active roomId = some ⟨runId, k⟩ → next.threads[k]? = some told →
        ¬ isUntold told := by
  refine step.each (fun k thread => state.threads[k]? = some thread)
    (fun k thread => isStopping roomId runId thread →
      (∃ old, state.threads[k]? = some old ∧ isStopping roomId runId old) ∨
        ∀ (k : ℕ) (told : Thread), next.active roomId = some ⟨runId, k⟩ → next.threads[k]? = some told →
          ¬ isUntold told)
    (fun _ _ => id) ?_ ?_ ?_ ?_ ?_ ?_ ?_ i _ held stops
  · rintro k old found there keeps - stops
    cases keeps with
    | same => exact Or.inl ⟨_, there, stops⟩
    | flagged => cases stops
  · intro k request begun stops
    cases request <;> cases stops
  · exact fun k request stops => nomatch stops
  · rintro index draws fails request point reached middle rfl there called rfl - stops
    have returns (closing : Bool) (room : String) (answer : Answer) :
        ¬ isStopping roomId runId (.call request (.afterStop closing room answer)) := by
      cases closing <;> nofun
    cases called with
    | signalled =>
      simp only [isStopping, Bool.and_eq_true, beq_iff_eq] at stops
      obtain ⟨rfl, rfl⟩ := stops
      refine Or.inr fun k told registered now => ?_
      rw [put_active, signal_active] at registered
      rcases thread_put now with ⟨-, rfl⟩ | ⟨-, now⟩
      · simp [isUntold]
      · exact signal_told registered now
    | stopped => exact Or.inl ⟨_, there, stops⟩
    | refused refuses =>
      cases point with
      | stop closing room run => exact absurd stops (returns _ _ _)
      | readStopped closing room run => exact absurd stops (returns _ _ _)
      | _ => cases stops
    | publishedCanceled => exact absurd stops (returns _ _ _)
    | publishedAccepted => split at stops <;> cases stops
    | readClosing =>
      rw [closingPoint] at stops
      split at stops <;> cases stops
    | _ => cases stops
  · intro index draws fails request accepted advanced there free after at_ stops
    cases stops
  · intro index draws fails generation point reached middle advanced there ran after at_ stops
    cases stops
  · intro index received generation point changed reached middle advanced there heard after at_ stops
    cases stops

theorem isRunning_iff {runId : String} {generation : Generation} {point : TaskPoint} :
    isRunning runId (.task generation point) ↔ generation.runId = runId ∧ point ≠ .ended := by
  simp [isRunning]

/-- A guarded `start_run` that registers a run finds no stop of it under way and no task of it. -/
theorem SignalsFirst.starts {index : ℕ} {request : Request} {accepted : AcceptedRun}
    (first : SignalsFirst state (.advance index draws fails))
    (held : state.threads[index]? = some (.call request (.start accepted)))
    (free : state.active accepted.snapshot.id = none) {k : ℕ} {thread : Thread}
    (there : state.threads[k]? = some thread) :
    ¬ isStopping accepted.snapshot.id accepted.run.runId thread ∧ ¬ isRunning accepted.run.runId thread := by
  have allowed := first.1
  simp only [startsLate, held, free, Option.isNone_none, Bool.true_and, List.any_eq_true, Bool.or_eq_true,
    not_exists, not_and, not_or] at allowed
  exact allowed thread (List.mem_of_getElem? there)

namespace Told

theorem single_step (inv : Told state) (step : Step store state label next) (first : SignalsFirst state label) :
    ∀ (k k' : ℕ) (generation generation' : Generation) (point point' : TaskPoint),
      next.threads[k]? = some (.task generation point) → next.threads[k']? = some (.task generation' point') →
        point ≠ .ended → point' ≠ .ended → generation.runId = generation'.runId → k = k' := by
  intro k k' generation generation' point point' held held' alive alive' same
  rcases step.of_task held with ⟨earlier, before, there, onward⟩ |
    ⟨index, draws, fails, request, accepted, rfl, rfl, call, free, isTask, -⟩
  · have aliveBefore : before ≠ .ended := fun ended => alive (onward.ended ended)
    rcases step.of_task held' with ⟨earlier', before', there', onward'⟩ |
      ⟨index, draws, fails, request, accepted, rfl, rfl, call, free, isTask, -⟩
    · exact inv.single k k' _ _ _ _ there there' aliveBefore (fun ended => alive' (onward'.ended ended))
        (onward.runId.trans (same.trans onward'.runId.symm))
    · obtain ⟨rfl, rfl⟩ := Thread.task.inj isTask
      exact absurd (isRunning_iff.mpr ⟨onward.runId.trans same, aliveBefore⟩) (first.starts call free there).2
  · rcases step.of_task held' with ⟨earlier', before', there', onward'⟩ |
      ⟨_, _, _, _, _, rfl, -, -, -, -, -⟩
    · obtain ⟨rfl, rfl⟩ := Thread.task.inj isTask
      exact absurd (isRunning_iff.mpr ⟨onward'.runId.trans same.symm, fun ended => alive' (onward'.ended ended)⟩)
        (first.starts call free there').2
    · rfl

/-- An untold task keeps its entry: whoever removes it has told it, or is the task itself. -/
theorem registered_step (inv : Told state) (step : Step store state label next) (first : SignalsFirst state label) :
    ∀ (k : ℕ) (generation : Generation) (point : TaskPoint), next.threads[k]? = some (.task generation point) →
      ¬ isLeaving point → ¬ generation.cancelled →
        next.active generation.roomId = some ⟨generation.runId, k⟩ := by
  intro k generation point held stays uncancelled
  rcases step.of_task held with ⟨earlier, before, there, onward⟩ |
    ⟨_, _, _, _, accepted, -, -, -, -, isTask, now⟩
  · have untold : isUntold (.task earlier before) := onward.untold (by simp [isUntold, stays, uncancelled])
    have waits : ¬ isLeaving before ∧ ¬ earlier.cancelled := by simpa [isUntold] using untold
    have registered := inv.registered k earlier before there waits.1 waits.2
    rw [← onward.roomId, ← onward.runId]
    rcases step.active_kept registered with
      kept | ⟨index, request, closing, -, stopped⟩ | ⟨index, _, _, request, rfl, removes⟩ |
        ⟨index, other, -, removes, named, -⟩
    · exact kept
    · exact absurd untold (inv.stopping index _ stopped _ _ (by simp [isStopping]) k _ registered there)
    · refine absurd ?_ first.2
      simp [removesUntold, removes, registered, there, untold]
    · obtain rfl := inv.single index k _ _ _ _ removes there nofun (fun ended => waits.1 (ended ▸ rfl)) named
      obtain ⟨-, rfl⟩ := Thread.task.inj (Option.some.inj (there.symm.trans removes))
      exact absurd rfl waits.1
  · obtain ⟨rfl, rfl⟩ := Thread.task.inj isTask
    exact now

theorem stopping_step (inv : Told state) (step : Step store state label next) (first : SignalsFirst state label) :
    ∀ (i : ℕ) (thread : Thread), next.threads[i]? = some thread → ∀ roomId runId,
      isStopping roomId runId thread → ∀ (k : ℕ) (told : Thread), next.active roomId = some ⟨runId, k⟩ →
        next.threads[k]? = some told → ¬ isUntold told := by
  intro i thread held roomId runId stops k told registered now untold
  rcases step.of_stopping held stops with ⟨old, there, stopped⟩ | tells
  · rcases step.active_cases registered with before | ⟨_, _, _, _, accepted, rfl, call, free, rfl, same, -⟩
    · obtain ⟨_, _, task, -⟩ := inv.sound.registered roomId _ before
      cases told with
      | call request point => cases untold
      | task generation point =>
        rcases step.of_task now with ⟨earlier, point', there', onward⟩ | ⟨_, _, _, _, _, rfl, -⟩
        · exact inv.stopping i old there roomId runId stopped k _ before there' (onward.untold untold)
        · exact absurd (List.getElem?_eq_some_iff.mp task).1 (lt_irrefl _)
    · obtain ⟨rfl, -⟩ := ActiveRun.mk.inj same
      exact (first.starts call free there).1 stopped
  · exact tells k told registered now untold

/-- Every step that registers no run late keeps the invariant. -/
theorem step (inv : Told state) (step : Step store state label next) (first : SignalsFirst state label) :
    Told next :=
  ⟨inv.sound.step step, inv.single_step step first, inv.registered_step step first, inv.stopping_step step first⟩

theorem signalled (inv : Told state) : state.Signalled := by
  rintro k - thread held
  cases thread with
  | call request point => rfl
  | task generation point =>
    simp only [canHear, Bool.or_eq_true, or_assoc]
    by_cases left : isLeaving point
    · exact Or.inl left
    by_cases told : generation.cancelled
    · exact Or.inr (Or.inl told)
    · have registered := inv.registered k generation point held left told
      exact Or.inr (Or.inr (by simp [hasSender, registered]))

end Told

/-- In a state where no task lost its sender unheard, a task's `select` hears its channel only once `true`
was sent. -/
theorem Signalled.changed (signalled : state.Signalled) {k : ℕ} {after : Runtime}
    (stepped : step? store state (.receive k .changed) = some after) :
    ∃ generation, state.threads[k]? = some (.task generation .receive) ∧ generation.cancelled := by
  simp only [step?] at stepped
  split at stepped
  · next generation point held =>
    obtain ⟨_, heard, -⟩ := Option.map_eq_some_iff.mp stepped
    have hears := signalled k (List.mem_range.mpr (List.getElem?_eq_some_iff.mp held).1) _ held
    cases point with
    | receive =>
      refine ⟨generation, held, ?_⟩
      by_contra uncancelled
      simp only [canHear, isLeaving, Bool.false_or, Bool.or_eq_true, uncancelled, false_or] at hears
      simp [receiveStep, uncancelled, hears] at heard
    | _ => cases heard
  · cases stepped

theorem Initial.told (initial : Initial state) : Told state where
  sound := initial.sound
  single := by simp [initial.threads]
  registered := by simp [initial.threads]
  stopping := by simp [initial.threads]

end Step

end Runtime

section Runs

/-- A turn is accepted and started after `close_room` has read the room, and before it clears the room's
entry. -/
def Sample.closing : List Label :=
  [Sample.opening, .begin (.closeRoom Sample.roomId), Sample.go 1 0, .begin Sample.turn, Sample.go 2 1,
    Sample.go 3 1, Sample.go 4 1, Sample.go 5 1, Sample.go 6 1, .receive 2 (.opened none), Sample.go 7 0,
    Sample.go 8 0]

/-- The task hears its channel close without a signal, and listens on. -/
theorem closed_room_task_spins : ∃ state, (runtimeMachine Sample.store).Run (Sample.closing ++
    [.receive 2 .changed, .receive 2 .changed]) state ∧ ¬ state.Signalled :=
  Machine.Run.of_check Sample.runtime_initial (by decide +kernel)

/-- In a run whose steps register no run late and remove no entry of an untold task, no task loses its
sender unheard, and a task's `select` hears its channel only once `true` was sent. -/
theorem signalled_of_signalsFirst {store : RoomStore} {labels : List Label} {state : Runtime}
    (run : ((runtimeMachine store).guard Runtime.SignalsFirst).Run labels state) :
    state.Signalled ∧ ∀ (k : ℕ) (after : Runtime), Runtime.step? store state (.receive k .changed) = some after →
      ∃ generation, state.threads[k]? = some (.task generation .receive) ∧ generation.cancelled := by
  have inv : state.Told := run.invariant (fun _ => Runtime.Initial.told) fun before label next inv step =>
    let ⟨first, stepped⟩ := Machine.guard_step_iff.mp step
    inv.step (.of_step? stepped) first
  exact ⟨inv.signalled, fun k after => inv.signalled.changed⟩

/-- A turn that is stopped while its task waits for the model: the task hears it and leaves. -/
theorem signalled_of_signalsFirst_stopped : ∃ state : Runtime,
    (∃ generation, state.threads[1]? = some (.task generation .receive) ∧ generation.cancelled) ∧
      state.Signalled := by
  have checked : ∃ state, ((runtimeMachine Sample.store).guard Runtime.SignalsFirst).Run
      (Sample.starting ++ [.receive 1 (.opened none), .begin (.stopRun Sample.roomId Sample.runId), Sample.go 7 2])
      state ∧ (Runtime.step? Sample.store state (.receive 1 .changed)).isSome :=
    Machine.Run.of_check Sample.runtime_initial (by decide +kernel)
  obtain ⟨state, run, hears⟩ := checked
  obtain ⟨signalled, changed⟩ := signalled_of_signalsFirst run
  obtain ⟨after, stepped⟩ := Option.isSome_iff_exists.mp hears
  exact ⟨state, changed 1 after stepped, signalled⟩

end Runs

end RyuRooms
