import RyuRooms.Runtime.Sample
import RyuRooms.Runtime.Sound

/-! # One terminal event for each run

`finish_run` answers `Ok` also when it finds the run finished, and its caller publishes then as if its
own transition had won. `SettlesActive` says that a task's `finish_run` finds its run still active, or
fails. In runs of such steps one thread at most holds the right to publish a run's terminal event, and
what it names is the run's status in the store.
-/

namespace RyuRooms

open Foundation

namespace Runtime

/-- A task's `finish_run` succeeds on a run that is no longer active. -/
def settlesFinished (store : RoomStore) (state : Runtime) : Label → Bool
  | .advance index draws fails =>
    match state.threads[index]? with
    | some (.task generation .complete) =>
      !state.isRunActive generation.runId && !taskRefuses store draws fails state generation .complete
    | some (.task generation (.fail code)) =>
      !state.isRunActive generation.runId && !taskRefuses store draws fails state generation (.fail code)
    | _ => false
  | _ => false

/-- Every `finish_run` of a task finds its run active, or fails. -/
def SettlesActive (store : RoomStore) (state : Runtime) (label : Label) : Prop := ¬ settlesFinished store state label

instance (store : RoomStore) (state : Runtime) (label : Label) :
    Decidable (SettlesActive store state label) :=
  inferInstanceAs (Decidable (¬ _))

/-- The runs whose end was published, each with the status its event names, newest first. -/
def terminals (state : Runtime) : List (String × RunStatus) :=
  state.published.filterMap fun entry => entry.2.terminal?

/-- No run's end was published twice, and what was published is its status in the store. -/
def TerminalOnce (state : Runtime) : Prop :=
  (state.terminals.map Prod.fst).Nodup ∧
    ∀ terminal ∈ state.terminals, ∀ row ∈ state.db.runs.rows, row.id = terminal.1 → row.status = terminal.2

instance (state : Runtime) : Decidable state.TerminalOnce := inferInstanceAs (Decidable (_ ∧ _))

/-- The terminal event a thread is about to publish, from the transition in the store on. -/
def pending : Thread → Option (String × RunStatus)
  | .task generation .readCompleted | .task generation (.publishCompleted _) =>
    some (generation.runId, .completed)
  | .task generation (.readFailed _) | .task generation (.publishFailed _ _) => some (generation.runId, .failed)
  | .call _ (.removeStopped _ _ runId) | .call _ (.readStopped _ _ runId)
  | .call _ (.publishCanceled _ _ runId _) => some (runId, .canceled)
  | .task _ _ | .call _ _ => none

/-- A published or pending end is the run's, and each run has one. -/
structure Settled (state : Runtime) : Prop where
  sound : Sound state
  pending : ∀ (k : ℕ) (thread : Thread), state.threads[k]? = some thread → ∀ runId status,
    pending thread = some (runId, status) → status.isActive = false ∧ state.Known runId (·.status = status)
  published : ∀ runId status, (runId, status) ∈ state.terminals →
    status.isActive = false ∧ state.Known runId (·.status = status)
  apart : ∀ (k k' : ℕ) (thread thread' : Thread), state.threads[k]? = some thread →
    state.threads[k']? = some thread' → ∀ runId status status', Runtime.pending thread = some (runId, status) →
      Runtime.pending thread' = some (runId, status') → k = k'
  unpublished : ∀ (k : ℕ) (thread : Thread), state.threads[k]? = some thread → ∀ runId status,
    Runtime.pending thread = some (runId, status) → runId ∉ state.terminals.map Prod.fst
  distinct : (state.terminals.map Prod.fst).Nodup

section Step

variable {store : RoomStore} {draws : Draws} {fails : Bool} {state next : Runtime} {label : Label}

/-- An end becomes pending by the transition of an active run to it. -/
structure Ends (state next : Runtime) (runId : String) (status : RunStatus) : Prop where
  active : ∃ row ∈ state.db.runs, row.id = runId ∧ row.status.isActive
  terminal : status.isActive = false
  recorded : ∀ row ∈ next.db.runs, row.id = runId → row.status = status

/-- The pending end of a thread after a step was its own before it, or the step just recorded it. -/
theorem Step.of_pending (step : Step store state label next) (settles : SettlesActive store state label) {k : ℕ}
    {thread : Thread} (held : next.threads[k]? = some thread) {runId : String} {status : RunStatus}
    (owes : pending thread = some (runId, status)) :
    (∃ old, state.threads[k]? = some old ∧ pending old = some (runId, status)) ∨
      (mover label = some k ∧ Ends state next runId status) := by
  refine step.each (fun k thread => state.threads[k]? = some thread)
    (fun k thread => pending thread = some (runId, status) →
      (∃ old, state.threads[k]? = some old ∧ pending old = some (runId, status)) ∨
        (mover label = some k ∧ Ends state next runId status))
    (fun _ _ => id) ?_ ?_ ?_ ?_ ?_ ?_ ?_ k _ held owes
  · rintro k old found there keeps - owes
    refine Or.inl ⟨old, there, ?_⟩
    cases keeps with
    | same => exact owes
    | @flagged generation point => cases point <;> exact owes
  · intro k request begun owes
    cases request <;> cases owes
  · exact fun k request owes => nomatch owes
  · rintro index draws fails request point reached middle rfl there called rfl - owes
    have returns (closing : Bool) (roomId : String) (answer : Answer) :
        pending (.call request (.afterStop closing roomId answer)) ≠ some (runId, status) := by
      cases closing <;> nofun
    cases called with
    | stopped success =>
      obtain ⟨rfl, rfl⟩ := Prod.mk.inj (Option.some.inj owes)
      obtain ⟨id, _, -, ⟨row, member, named, active⟩, -⟩ := RoomStore.stopRun_ok success
      refine Or.inr ⟨rfl, ⟨row, member, named, ?_⟩, rfl, RoomStore.stopRun_canceled success⟩
      simp only [Db.isActiveIn, Bool.and_eq_true] at active
      exact active.2
    | removedStopped => exact Or.inl ⟨_, there, owes⟩
    | readStopped => exact Or.inl ⟨_, there, owes⟩
    | refused refuses =>
      cases point with
      | stop closing roomId stopped => exact absurd owes (returns _ _ _)
      | readStopped closing roomId stopped => exact absurd owes (returns _ _ _)
      | _ => cases owes
    | publishedCanceled => exact absurd owes (returns _ _ _)
    | publishedAccepted => split at owes <;> cases owes
    | readClosing =>
      rw [closingPoint] at owes
      split at owes <;> cases owes
    | _ => cases owes
  · intro index draws fails request accepted advanced there free after at_ owes
    cases owes
  · rintro index draws fails generation point reached middle rfl there ran rfl - owes
    have ends {terminal : RunTerminal} (finishes : terminal.status.isActive = false)
        (active : state.isRunActive generation.runId)
        (success : store.settleRun draws.env generation.roomId generation.runId terminal state.db = .ok () middle.db) :
        Ends state (middle.put index (.task generation reached)) generation.runId terminal.status := by
      obtain ⟨row, member, named, isActive⟩ := isRunActive_iff.mp active
      obtain ⟨found, foundMem, same, recorded⟩ := RoomStore.settleRun_finished success
      obtain rfl := Table.eq_of_key foundMem member (same.trans named.symm)
      refine ⟨⟨found, foundMem, same, isActive⟩, finishes, fun later laterMem laterNamed => ?_⟩
      rw [recorded later laterMem laterNamed, if_pos isActive]
    cases ran with
    | rejected => split at owes <;> cases owes
    | completed fresh accepts success =>
      obtain ⟨rfl, rfl⟩ := Prod.mk.inj (Option.some.inj owes)
      refine Or.inr ⟨rfl, ends rfl (Bool.of_not_eq_false fun finished => settles ?_) success⟩
      simp [settlesFinished, there, finished, accepts]
    | failed accepts success =>
      obtain ⟨rfl, rfl⟩ := Prod.mk.inj (Option.some.inj owes)
      refine Or.inr ⟨rfl, ends rfl (Bool.of_not_eq_false fun finished => settles ?_) success⟩
      simp [settlesFinished, there, finished, accepts]
    | readCompleted => exact Or.inl ⟨_, there, owes⟩
    | readFailed => exact Or.inl ⟨_, there, owes⟩
    | _ => cases owes
  · rintro index received generation point changed reached middle rfl there heard rfl - owes
    cases heard with
    | requested onward => rcases onward with rfl | ⟨code, rfl⟩ <;> cases owes
    | heard hears => cases reached <;> first | exact hears.elim | cases owes

/-- A step publishes no end, or the one its thread had pending, which then has it no more. -/
theorem Step.terminals_cases (step : Step store state label next) : next.terminals = state.terminals ∨
    ∃ (k : ℕ) (old after : Thread) (terminal : String × RunStatus), mover label = some k ∧
      state.threads[k]? = some old ∧ pending old = some terminal ∧ next.terminals = terminal :: state.terminals ∧
      next.threads[k]? = some after ∧ pending after = none := by
  have same {middle : Runtime} {k : ℕ} {thread : Thread} (logs : SameLogs state middle) :
      (middle.put k thread).terminals = state.terminals := by
    rw [terminals, put_published, logs.published, terminals]
  cases step with
  | begun => exact Or.inl rfl
  | dropped => exact Or.inl rfl
  | called held step =>
    cases step with
    | started => exact Or.inl (same startRun_logs)
    | signalled => exact Or.inl (same signal_logs)
    | removedStopped => exact Or.inl (same removeActive_logs)
    | @publishedCanceled closing roomId runId snapshot =>
      refine Or.inr ⟨_, _, _, _, rfl, held, rfl, rfl, thread_put_self held, ?_⟩
      cases closing <;> rfl
    | _ => exact Or.inl rfl
  | ran held step =>
    cases step with
    | publishedCompleted => exact Or.inr ⟨_, _, _, _, rfl, held, rfl, rfl, thread_put_self held, rfl⟩
    | publishedFailed => exact Or.inr ⟨_, _, _, _, rfl, held, rfl, rfl, thread_put_self held, rfl⟩
    | removed => exact Or.inl (same removeActive_logs)
    | _ => exact Or.inl rfl
  | heard held step => cases step <;> exact Or.inl rfl
  | accessed fresh step => cases step <;> exact Or.inl rfl

namespace Settled

variable {runId : String} {status : RunStatus}

/-- The end of an active run is neither pending nor published. -/
theorem not_ended (inv : Settled state) (active : ∃ row ∈ state.db.runs, row.id = runId ∧ row.status.isActive) :
    (∀ (k : ℕ) (thread : Thread), state.threads[k]? = some thread → ∀ status,
      Runtime.pending thread ≠ some (runId, status)) ∧ runId ∉ state.terminals.map Prod.fst := by
  obtain ⟨row, member, named, isActive⟩ := active
  constructor
  · intro k thread held status owes
    obtain ⟨terminal, known⟩ := inv.pending k thread held runId status owes
    rw [known.rows row member named, terminal] at isActive
    cases isActive
  · intro listed
    obtain ⟨⟨_, status⟩, published, rfl⟩ := List.mem_map.mp listed
    obtain ⟨terminal, known⟩ := inv.published _ status published
    rw [known.rows row member named, terminal] at isActive
    cases isActive

/-- Of two threads after a step with the same pending end, one is the other. -/
theorem apart_step (inv : Settled state) (step : Step store state label next)
    (settles : SettlesActive store state label) : ∀ (k k' : ℕ) (thread thread' : Thread),
      next.threads[k]? = some thread → next.threads[k']? = some thread' → ∀ runId status status',
        Runtime.pending thread = some (runId, status) → Runtime.pending thread' = some (runId, status') → k = k' := by
  intro k k' thread thread' held held' runId status status' owes owes'
  rcases step.of_pending settles held owes with ⟨old, there, before⟩ | ⟨moves, ends⟩
  · rcases step.of_pending settles held' owes' with ⟨old', there', before'⟩ | ⟨-, ends⟩
    · exact inv.apart k k' old old' there there' runId status status' before before'
    · exact absurd before ((inv.not_ended ends.active).1 k old there status)
  · rcases step.of_pending settles held' owes' with ⟨old', there', before'⟩ | ⟨moves', -⟩
    · exact absurd before' ((inv.not_ended ends.active).1 k' old' there' status')
    · exact Option.some.inj (moves.symm.trans moves')

theorem unpublished_step (inv : Settled state) (step : Step store state label next)
    (settles : SettlesActive store state label) : ∀ (k : ℕ) (thread : Thread), next.threads[k]? = some thread →
      ∀ runId status, Runtime.pending thread = some (runId, status) → runId ∉ next.terminals.map Prod.fst := by
  intro k thread held runId status owes
  have absent : runId ∉ state.terminals.map Prod.fst := by
    rcases step.of_pending settles held owes with ⟨old, there, before⟩ | ⟨-, ends⟩
    · exact inv.unpublished k old there runId status before
    · exact (inv.not_ended ends.active).2
  rcases step.terminals_cases with same | ⟨j, old, after, ⟨_, status'⟩, moves, there, owed, added, now, rid⟩
  · exact same ▸ absent
  · rw [added, List.map_cons, List.mem_cons, not_or]
    refine ⟨?_, absent⟩
    rintro rfl
    rcases step.of_pending settles held owes with ⟨old', there', before⟩ | ⟨-, ends⟩
    · obtain rfl := inv.apart k j old' old there' there _ status status' before owed
      rw [Option.some.inj (now.symm.trans held), owes] at rid
      cases rid
    · exact (inv.not_ended ends.active).1 j old there status' owed

/-- Every step whose `finish_run` finds its run active keeps the invariant. -/
theorem step (inv : Settled state) (step : Step store state label next)
    (settles : SettlesActive store state label) : Settled next where
  sound := inv.sound.step step
  pending k thread held runId status owes := by
    rcases step.of_pending settles held owes with ⟨old, there, before⟩ | ⟨-, ends⟩
    · obtain ⟨terminal, known⟩ := inv.pending k old there runId status before
      exact ⟨terminal, known.ended terminal step⟩
    · obtain ⟨row, member, named, -⟩ := ends.active
      obtain ⟨uuid, drawn, issued⟩ := inv.sound.issued row member
      exact ⟨ends.terminal, ⟨uuid, step.drawn drawn, named ▸ issued⟩, ends.recorded⟩
  published runId status listed := by
    rcases step.terminals_cases with same | ⟨j, old, after, terminal, moves, there, owed, added, -⟩
    · obtain ⟨terminal, known⟩ := inv.published runId status (same ▸ listed)
      exact ⟨terminal, known.ended terminal step⟩
    · rw [added, List.mem_cons] at listed
      rcases listed with rfl | listed
      · obtain ⟨terminal, known⟩ := inv.pending j old there runId status owed
        exact ⟨terminal, known.ended terminal step⟩
      · obtain ⟨terminal, known⟩ := inv.published runId status listed
        exact ⟨terminal, known.ended terminal step⟩
  apart := inv.apart_step step settles
  unpublished := inv.unpublished_step step settles
  distinct := by
    rcases step.terminals_cases with same | ⟨j, old, after, ⟨runId, status⟩, -, there, owed, added, -⟩
    · exact same ▸ inv.distinct
    · rw [added, List.map_cons, List.nodup_cons]
      exact ⟨inv.unpublished j old there runId status owed, inv.distinct⟩

end Settled

theorem Initial.settled (initial : Initial state) : Settled state where
  sound := initial.sound
  pending := by simp [initial.threads]
  published := by simp [terminals, initial.published]
  apart := by simp [initial.threads]
  unpublished := by simp [initial.threads]
  distinct := by simp [terminals, initial.published]

end Step

end Runtime

section Runs

/-- The host stops the run while its task is about to record its completion. -/
def Sample.stopping : List Label :=
  Sample.starting ++ Sample.completing ++
    [.begin (.stopRun Sample.roomId Sample.runId), Sample.go 7 2, Sample.go 8 2, Sample.go 9 2, Sample.go 10 2,
      Sample.go 11 2, Sample.go 12 1, Sample.go 13 1, Sample.go 14 1]

/-- A run that was canceled is published as canceled and as completed. -/
theorem stopped_run_completed : ∃ state, (runtimeMachine Sample.store).Run Sample.stopping state ∧
    ¬ state.TerminalOnce :=
  Machine.Run.of_check Sample.runtime_initial (by decide +kernel)

/-- In a run in which every `finish_run` of a task finds its run active or fails, each run's end is
published at most once, as what it is in the store. -/
theorem terminalOnce_of_settlesActive {store : RoomStore} {labels : List Label} {state : Runtime}
    (run : ((runtimeMachine store).guard (Runtime.SettlesActive store)).Run labels state) :
    state.TerminalOnce := by
  have inv : state.Settled := run.invariant (fun _ => Runtime.Initial.settled) fun before label next inv step =>
    let ⟨settles, stepped⟩ := Machine.guard_step_iff.mp step
    inv.step (.of_step? stepped) settles
  exact ⟨inv.distinct, fun terminal listed row member named =>
    (inv.published terminal.1 terminal.2 listed).2.rows row member named⟩

/-- The turn that completes is published as completed, once. -/
theorem terminalOnce_of_settlesActive_completing : ∃ state : Runtime,
    state.terminals = [(Sample.runId, .completed)] ∧ state.TerminalOnce := by
  have checked : ∃ state, ((runtimeMachine Sample.store).guard (Runtime.SettlesActive Sample.store)).Run
      (Sample.starting ++ Sample.completing ++ [Sample.go 10 1, Sample.go 11 1, Sample.go 12 1]) state ∧
        state.terminals = [(Sample.runId, .completed)] :=
    Machine.Run.of_check Sample.runtime_initial (by decide +kernel)
  obtain ⟨state, run, published⟩ := checked
  exact ⟨state, published, terminalOnce_of_settlesActive run⟩

end Runs

end RyuRooms
