import RyuRooms.Runtime.Sample
import RyuRooms.Runtime.Sound

/-! # One request to the model for each run

`start_run` trusts the status its turn was accepted with, and the room's entry is all that keeps a
second task away. `RegistersOnce` says what it relies on: it registers a run only while the store still
has it active and no task of it was told to stop, and neither `close_room` nor a failed
`fail_generation` leaves an active run without its entry. In runs of such steps no two tasks share a
run, so the model is asked for each run at most once.
-/

namespace RyuRooms

open Foundation

namespace Runtime

/-- A task of the run that was told to stop. -/
def wasCanceled (runId : String) : Thread → Bool
  | .task generation _ => generation.runId == runId && generation.cancelled
  | .call _ _ => false

/-- `start_run` registers a run that has ended, or one whose task was told to stop. -/
def restarts (state : Runtime) : Label → Bool
  | .advance index _ _ =>
    match state.threads[index]? with
    | some (.call _ (.start accepted)) =>
      (state.active accepted.snapshot.id).isNone &&
        (!state.isRunActive accepted.run.runId || state.threads.any (wasCanceled accepted.run.runId))
    | _ => false
  | _ => false

/-- `fail_generation` can not record the end of an active run. -/
def failsToSettle (store : RoomStore) (state : Runtime) : Label → Bool
  | .advance index draws fails =>
    match state.threads[index]? with
    | some (.task generation (.fail code)) =>
      state.isRunActive generation.runId && taskRefuses store draws fails state generation (.fail code)
    | _ => false
  | _ => false

/-- A step restarts no run, and leaves no active run without its entry. -/
def RegistersOnce (store : RoomStore) (state : Runtime) (label : Label) : Prop :=
  ¬ restarts state label ∧ ¬ removesActive state label ∧ ¬ failsToSettle store state label

instance (store : RoomStore) (state : Runtime) (label : Label) :
    Decidable (RegistersOnce store state label) :=
  inferInstanceAs (Decidable (_ ∧ _ ∧ _))

/-- The model was asked at most once for each run, and never for one that `start_run` found ended. -/
def RequestedOnce (state : Runtime) : Prop :=
  (state.requests.map fun request => request.1.runId).Nodup ∧
    ∀ request ∈ state.requests, ∀ status ∈ request.1.startedAs, status.isActive

instance (state : Runtime) : Decidable state.RequestedOnce := inferInstanceAs (Decidable (_ ∧ _))

/-- No two tasks share a run, and the task of an active run that was not told to stop is registered. -/
structure Once (state : Runtime) : Prop where
  sound : Sound state
  single : ∀ (k k' : ℕ) (generation generation' : Generation) (point point' : TaskPoint),
    state.threads[k]? = some (.task generation point) → state.threads[k']? = some (.task generation' point') →
      generation.runId = generation'.runId → k = k'
  registered : ∀ row ∈ state.db.runs, row.status.isActive → ∀ (k : ℕ) (generation : Generation) (point : TaskPoint),
    state.threads[k]? = some (.task generation point) → generation.runId = row.id → ¬ generation.cancelled →
      ¬ isLeaving point ∧ state.active row.roomId = some ⟨row.id, k⟩
  started : ∀ (k : ℕ) (generation : Generation) (point : TaskPoint),
    state.threads[k]? = some (.task generation point) → ∀ status ∈ generation.startedAs, status.isActive
  logged : ∀ request ∈ state.requests, (∀ status ∈ request.1.startedAs, status.isActive) ∧
    ∃ (k : ℕ) (generation : Generation) (point : TaskPoint), state.threads[k]? = some (.task generation point) ∧
      point ≠ .request ∧ generation.runId = request.1.runId
  distinct : (state.requests.map fun request => request.1.runId).Nodup

section Step

variable {store : RoomStore} {draws : Draws} {fails : Bool} {state next : Runtime} {label : Label}

/-- A task reaches its removal when it was told to stop, has recorded its end, or can not. -/
theorem Step.of_leaving (step : Step store state label next) {k : ℕ} {generation : Generation}
    {point : TaskPoint} (held : next.threads[k]? = some (.task generation point)) (leaving : isLeaving point) :
    ∃ earlier before, state.threads[k]? = some (Thread.task earlier before) ∧ Onward earlier before generation point ∧
      (isLeaving before ∨ generation.cancelled ∨ hasSettled before ∨ ∃ code draws fails,
        before = .fail code ∧ label = .advance k draws fails ∧
          taskRefuses store draws fails state earlier (.fail code)) := by
  refine step.each (fun k thread => state.threads[k]? = some thread)
    (fun k thread => ∀ generation point, thread = Thread.task generation point → isLeaving point →
      ∃ earlier before, state.threads[k]? = some (Thread.task earlier before) ∧ Onward earlier before generation point ∧
        (isLeaving before ∨ generation.cancelled ∨ hasSettled before ∨ ∃ code draws fails,
          before = .fail code ∧ label = .advance k draws fails ∧
            taskRefuses store draws fails state earlier (.fail code)))
    (fun _ _ => id) ?_ ?_ ?_ ?_ ?_ ?_ ?_ k _ held generation point rfl leaving
  · rintro k old found there keeps - generation point rfl leaving
    cases old with
    | call request point => cases keeps
    | task earlier before =>
      refine ⟨earlier, before, there, keeps.onward, ?_⟩
      cases keeps with
      | same => exact Or.inl leaving
      | flagged => exact Or.inr (Or.inl rfl)
  · exact fun k request begun generation point isTask => nomatch isTask
  · exact fun k request generation point isTask => nomatch isTask
  · exact fun index draws fails request point reached middle _ _ _ _ _ generation point isTask => nomatch isTask
  · rintro index draws fails request accepted - there free rfl - generation point isTask leaving
    obtain ⟨rfl, rfl⟩ := Thread.task.inj isTask
    cases leaving
  · rintro index draws fails generation point reached middle rfl there ran - - _ _ isTask leaving
    obtain ⟨rfl, rfl⟩ := Thread.task.inj isTask
    refine ⟨_, _, there, ran.onward, ?_⟩
    cases ran with
    | rejected =>
      split at leaving
      · next cancelled => exact Or.inr (Or.inl cancelled)
      · cases leaving
    | publishedCompleted => exact Or.inr (Or.inr (Or.inl rfl))
    | failRefused refuses => exact Or.inr (Or.inr (Or.inr ⟨_, draws, fails, rfl, rfl, refuses⟩))
    | readFailedRefused => exact Or.inr (Or.inr (Or.inl rfl))
    | publishedFailed => exact Or.inr (Or.inr (Or.inl rfl))
    | removed => exact Or.inl rfl
    | _ => cases leaving
  · rintro index received generation point changed reached middle - there heard - - _ _ isTask leaving
    obtain ⟨rfl, rfl⟩ := Thread.task.inj isTask
    refine ⟨_, _, there, heard.onward, ?_⟩
    cases heard with
    | requested onward => rcases onward with rfl | ⟨code, rfl⟩ <;> cases leaving
    | heard hears =>
      cases reached with
      | removeActive => exact Or.inr (Or.inl hears)
      | ended => exact hears.elim
      | _ => cases leaving

/-- A step asks the model for nothing, or a task that has not asked yet asks for its run. -/
theorem Step.requests_cases (step : Step store state label next) : next.requests = state.requests ∨
    ∃ (k : ℕ) (generation : Generation) (point : TaskPoint),
      state.threads[k]? = some (.task generation .request) ∧
        next.requests = (generation, modelStreamRequest generation.accepted) :: state.requests ∧
        next.threads[k]? = some (.task generation point) ∧ point ≠ .request := by
  cases step with
  | begun => exact Or.inl rfl
  | dropped => exact Or.inl rfl
  | called held step =>
    refine Or.inl ?_
    cases step with
    | started => rw [put_requests, startRun_logs.requests]
    | signalled => rw [put_requests, signal_logs.requests]
    | removedStopped => rw [put_requests, removeActive_logs.requests]
    | _ => rfl
  | ran held step =>
    refine Or.inl ?_
    cases step with
    | removed => rw [put_requests, removeActive_logs.requests]
    | _ => rfl
  | @heard index _ _ _ _ _ _ held step =>
    cases step with
    | requested onward =>
      refine Or.inr ⟨index, _, _, held, rfl, thread_put_self held, ?_⟩
      rcases onward with rfl | ⟨code, rfl⟩ <;> nofun
    | heard => exact Or.inl rfl
  | accessed fresh step => cases step <;> exact Or.inl rfl

/-- A guarded `start_run` that registers a task finds its run active and without a task. -/
theorem Once.first_task (inv : Once state) {index : ℕ} {request : Request} {accepted : AcceptedRun}
    (keeps : RegistersOnce store state (.advance index draws fails))
    (held : state.threads[index]? = some (.call request (.start accepted)))
    (free : state.active accepted.snapshot.id = none) :
    (∃ row ∈ state.db.runs, row.id = accepted.run.runId ∧ row.status.isActive) ∧
      ∀ (k : ℕ) (generation : Generation) (point : TaskPoint),
        state.threads[k]? = some (.task generation point) → generation.runId ≠ accepted.run.runId := by
  have allowed := keeps.1
  simp only [restarts, held, free, Option.isNone_none, Bool.true_and, Bool.or_eq_true, Bool.not_eq_true',
    not_or, Bool.not_eq_false, List.any_eq_true, not_exists, not_and] at allowed
  obtain ⟨active, uncanceled⟩ := allowed
  obtain ⟨row, member, named, isActive⟩ := isRunActive_iff.mp active
  refine ⟨⟨row, member, named, isActive⟩, fun k generation point there same => ?_⟩
  have told := uncanceled _ (List.mem_of_getElem? there)
  simp only [wasCanceled, same, BEq.rfl, Bool.true_and] at told
  obtain ⟨-, registered⟩ := inv.registered row member isActive k generation point there (same.trans named.symm) told
  have inRoom := (inv.sound.threads index _ held).rows row member named
  rw [inRoom, free] at registered
  cases registered

theorem Once.single_step (inv : Once state) (step : Step store state label next)
    (keeps : RegistersOnce store state label) : ∀ (k k' : ℕ) (generation generation' : Generation)
      (point point' : TaskPoint), next.threads[k]? = some (.task generation point) →
      next.threads[k']? = some (.task generation' point') → generation.runId = generation'.runId → k = k' := by
  intro k k' generation generation' point point' held held' same
  rcases step.of_task held with ⟨earlier, before, there, onward⟩ |
    ⟨index, draws, fails, request, accepted, rfl, rfl, call, free, isTask, -⟩
  · rcases step.of_task held' with ⟨earlier', before', there', onward'⟩ |
      ⟨index, draws, fails, request, accepted, rfl, rfl, call, free, isTask, -⟩
    · exact inv.single k k' _ _ _ _ there there' (onward.runId.trans (same.trans onward'.runId.symm))
    · obtain ⟨rfl, rfl⟩ := Thread.task.inj isTask
      exact absurd (onward.runId.trans same) ((inv.first_task keeps call free).2 k _ _ there)
  · rcases step.of_task held' with ⟨earlier', before', there', onward'⟩ |
      ⟨_, _, _, _, _, rfl, -, -, -, -, -⟩
    · obtain ⟨rfl, rfl⟩ := Thread.task.inj isTask
      exact absurd (onward'.runId.trans same.symm) ((inv.first_task keeps call free).2 k' _ _ there')
    · rfl

/-- The entry of an uncancelled task of an active run stays after a step that leaves no active run without
one. -/
theorem Once.registered_step (inv : Once state) (step : Step store state label next)
    (keeps : RegistersOnce store state label) : ∀ row ∈ next.db.runs, row.status.isActive →
      ∀ (k : ℕ) (generation : Generation) (point : TaskPoint),
        next.threads[k]? = some (.task generation point) → generation.runId = row.id → ¬ generation.cancelled →
          ¬ isLeaving point ∧ next.active row.roomId = some ⟨row.id, k⟩ := by
  intro row member active k generation point held named uncancelled
  have known := inv.sound.of_task step held
  rcases step.run_cases member with ⟨old, oldMem, becomes⟩ | accepts
  · have oldActive : old.status.isActive := becomes.of_active active ▸ active
    rcases step.of_task held with ⟨earlier, before, there, onward⟩ |
      ⟨_, _, _, _, accepted, -, -, -, -, isTask, now⟩
    · have earlierNamed : earlier.runId = old.id := onward.runId.trans (named.trans becomes.id)
      obtain ⟨stays, registered⟩ := inv.registered old oldMem oldActive k earlier before there earlierNamed
        fun cancelled => uncancelled (onward.cancelled cancelled)
      refine ⟨fun leaving => ?_, ?_⟩
      · obtain ⟨earlier', before', there', -, why⟩ := step.of_leaving held leaving
        obtain ⟨rfl, rfl⟩ := Thread.task.inj (Option.some.inj (there.symm.trans there'))
        rcases why with left | cancelled | settled | ⟨code, draws, fails, rfl, rfl, refuses⟩
        · exact stays left
        · exact uncancelled cancelled
        · have ended := ((inv.sound.threads k _ there).2 settled).rows old oldMem earlierNamed.symm
          rw [ended] at oldActive
          cases oldActive
        · refine keeps.2.2 ?_
          simp only [failsToSettle, there, refuses, Bool.and_true]
          exact isRunActive_iff.mpr ⟨old, oldMem, earlierNamed.symm, oldActive⟩
      · rw [becomes.room, becomes.id]
        rcases step.active_kept registered with
          kept | ⟨index, request, closing, -, stopped⟩ | ⟨index, _, _, request, rfl, removes⟩ |
            ⟨index, other, -, removes, otherNamed, -⟩
        · exact kept
        · have canceled := (inv.sound.threads _ _ stopped).rows old oldMem rfl
          rw [canceled] at oldActive
          cases oldActive
        · exact absurd (removesActive_of removes registered oldMem rfl oldActive) keeps.2.1
        · obtain rfl := inv.single index k _ _ _ _ removes there (otherNamed.trans earlierNamed.symm)
          obtain ⟨-, rfl⟩ := Thread.task.inj (Option.some.inj (there.symm.trans removes))
          exact absurd rfl stays
    · obtain ⟨rfl, rfl⟩ := Thread.task.inj isTask
      have room : row.roomId = accepted.snapshot.id :=
        becomes.room.trans (known.rows old oldMem (becomes.id.symm.trans named.symm))
      rw [room, ← named]
      exact ⟨nofun, now⟩
  · exact absurd named (known.not_accepts accepts)

theorem Once.started_step (inv : Once state) (step : Step store state label next)
    (keeps : RegistersOnce store state label) : ∀ (k : ℕ) (generation : Generation) (point : TaskPoint),
      next.threads[k]? = some (.task generation point) → ∀ status ∈ generation.startedAs, status.isActive := by
  intro k generation point held status found
  rcases step.of_task held with ⟨earlier, before, there, onward⟩ |
    ⟨index, draws, fails, request, accepted, rfl, rfl, call, free, isTask, -⟩
  · exact inv.started k earlier before there status (onward.startedAs ▸ found)
  · obtain ⟨rfl, rfl⟩ := Thread.task.inj isTask
    obtain ⟨⟨row, member, named, active⟩, -⟩ := inv.first_task keeps call free
    obtain ⟨first, looked, rfl⟩ := Option.map_eq_some_iff.mp found
    obtain ⟨firstMem, same⟩ := Table.find?_eq_some looked
    rwa [Table.eq_of_key firstMem member ((eq_of_beq same).trans named.symm)]

/-- Every step that registers no run twice keeps the invariant. -/
theorem Once.step (inv : Once state) (step : Step store state label next)
    (keeps : RegistersOnce store state label) : Once next where
  sound := inv.sound.step step
  single := inv.single_step step keeps
  registered := inv.registered_step step keeps
  started := inv.started_step step keeps
  logged := by
    have still {request : Generation × ModelStreamRequest} (old : request ∈ state.requests) :
        (∀ status ∈ request.1.startedAs, status.isActive) ∧ ∃ (k : ℕ) (generation : Generation)
          (point : TaskPoint), next.threads[k]? = some (.task generation point) ∧ point ≠ .request ∧
            generation.runId = request.1.runId := by
      obtain ⟨active, k, generation, point, there, past, named⟩ := inv.logged request old
      obtain ⟨changed, after, now, onward, -⟩ := step.task_kept there
      exact ⟨active, k, changed, after, now, onward.requested past, onward.runId.symm.trans named⟩
    intro request asked
    rcases step.requests_cases with same | ⟨k, generation, point, there, added, now, past⟩
    · exact still (same ▸ asked)
    · rw [added, List.mem_cons] at asked
      rcases asked with rfl | old
      · exact ⟨inv.started k generation _ there, k, generation, point, now, past, rfl⟩
      · exact still old
  distinct := by
    rcases step.requests_cases with same | ⟨k, generation, point, there, added, -, -⟩
    · exact same ▸ inv.distinct
    · rw [added, List.map_cons, List.nodup_cons]
      refine ⟨fun asked => ?_, inv.distinct⟩
      obtain ⟨request, old, named⟩ := List.mem_map.mp asked
      obtain ⟨-, k', generation', point', there', past, named'⟩ := inv.logged request old
      obtain rfl := inv.single k' k _ _ _ _ there' there (named'.trans named)
      obtain ⟨-, rfl⟩ := Thread.task.inj (Option.some.inj (there'.symm.trans there))
      exact past rfl

theorem Initial.once (initial : Initial state) : Once state where
  sound := initial.sound
  single := by simp [initial.threads]
  registered := by simp [initial.threads]
  started := by simp [initial.threads]
  logged := by simp [initial.requests]
  distinct := by simp [initial.requests]

end Step

end Runtime

section Runs

/-- A retry of the turn reads it running, the task finishes and removes its entry, and the retry's
`start_run` finds the room free. -/
def Sample.retrying : List Label :=
  Sample.starting ++ [.begin Sample.turn, Sample.go 7 2, Sample.go 8 2, Sample.go 9 2] ++ Sample.completing ++
    [Sample.go 10 1, Sample.go 11 1, Sample.go 12 1, Sample.go 13 1, Sample.go 14 2, Sample.go 15 2,
      .receive 3 (.opened none)]

/-- The model is asked again for a run that has completed. -/
theorem completed_turn_requested_again : ∃ state, (runtimeMachine Sample.store).Run Sample.retrying state ∧
    ¬ state.RequestedOnce :=
  Machine.Run.of_check Sample.runtime_initial (by decide +kernel)

/-- In a run whose steps register no run twice, the model is asked at most once for each run. -/
theorem requestedOnce_of_registersOnce {store : RoomStore} {labels : List Label} {state : Runtime}
    (run : ((runtimeMachine store).guard (Runtime.RegistersOnce store)).Run labels state) :
    state.RequestedOnce := by
  have inv : state.Once := run.invariant (fun _ => Runtime.Initial.once) fun before label next inv step =>
    let ⟨keeps, stepped⟩ := Machine.guard_step_iff.mp step
    inv.step (.of_step? stepped) keeps
  exact ⟨inv.distinct, fun request asked => (inv.logged request asked).1⟩

/-- The turn that is started and completed asks the model once. -/
theorem requestedOnce_of_registersOnce_completing : ∃ state : Runtime,
    state.requests.map (fun request => request.1.runId) = [Sample.runId] ∧ state.RequestedOnce := by
  have checked : ∃ state, ((runtimeMachine Sample.store).guard (Runtime.RegistersOnce Sample.store)).Run
      (Sample.starting ++ Sample.completing) state ∧
        state.requests.map (fun request => request.1.runId) = [Sample.runId] :=
    Machine.Run.of_check Sample.runtime_initial (by decide +kernel)
  obtain ⟨state, run, asked⟩ := checked
  exact ⟨state, asked, requestedOnce_of_registersOnce run⟩

end Runs

end RyuRooms
