import RyuRooms.Runtime.Sample
import RyuRooms.Runtime.Sound

/-! # No running run is left alone

A running run is tended by the request that accepted it until `start_run`, by its task until
`finish_run`, and by a request that stops it from the cancel signal to the durable stop. Each of them
can give it up: it is dropped, its store section fails, its read misses the run, or the room's entry
is still taken. `KeepsTended` says that a step gives up no running run that nothing else tends, and
removes no entry of a running run; in runs of such steps every running run has a live task once the
requests on it are over.
-/

namespace RyuRooms

open Foundation

namespace Runtime

/-- A thread that will see to it that a running run of a room ends. -/
def tends (runId roomId : String) : Thread → Bool
  | .call _ (.readSnapshot turn) | .call _ (.accept turn _) => turn.runId == runId
  | .call _ (.publishAccepted accepted) =>
    accepted.run.runId == runId && accepted.run.status == .running
  | .call _ (.start accepted) => accepted.run.runId == runId
  | .call _ (.stop _ room run) => run == runId && (validateRoomId room).toOption == some roomId
  | .call _ _ => false
  | .task generation .request | .task generation .receive | .task generation (.appendDelta _)
  | .task generation (.publishDelta _) => generation.runId == runId && !generation.cancelled
  | .task generation .complete | .task generation (.fail _) => generation.runId == runId
  | .task _ _ => false

/-- Another thread than `index` tends the run. -/
def tendedApart (state : Runtime) (index : ℕ) (runId roomId : String) : Bool :=
  (List.range state.threads.length).any fun k =>
    k != index && state.threads[k]?.any fun thread => tends runId roomId thread

/-- An inserted turn's snapshot shows its run, running. -/
def showsRun (turn : RoomStore.AppendedTurn) (snapshot : RoomSnapshot) : Bool :=
  turn.messageId.isNone ||
    snapshot.currentRun.any fun run => run.runId == turn.runId && run.status == .running

/-- The thread that a step makes give up its run. -/
def givesUp (store : RoomStore) (state : Runtime) : Label → Option ℕ
  | .drop index => some index
  | .advance index draws fails =>
    match state.threads[index]? with
    | some (.call _ (.readSnapshot turn)) =>
      if callRefuses store draws fails state (.readSnapshot turn) then some index else none
    | some (.call _ (.accept turn snapshot)) =>
      if callRefuses store draws fails state (.accept turn snapshot) || !showsRun turn snapshot then some index
      else none
    | some (.call _ (.start accepted)) =>
      if (state.active accepted.snapshot.id).isSome then some index else none
    | some (.call _ (.stop closing room run)) =>
      if callRefuses store draws fails state (.stop closing room run) then some index else none
    | some (.task generation (.fail code)) =>
      if taskRefuses store draws fails state generation (.fail code) then some index else none
    | _ => none
  | _ => none

/-- A step gives up no running run that no other thread tends, and removes no running run's entry. -/
def KeepsTended (store : RoomStore) (state : Runtime) (label : Label) : Prop :=
  (∀ index ∈ givesUp store state label, ∀ row ∈ state.db.runs.rows, row.status = .running →
    (∃ thread ∈ state.threads[index]?, tends row.id row.roomId thread) →
      state.tendedApart index row.id row.roomId) ∧
  ¬ removesActive state label

instance (store : RoomStore) (state : Runtime) (label : Label) : Decidable (KeepsTended store state label) :=
  inferInstanceAs (Decidable (_ ∧ _))

/-- A request that accepted a run, or tried to stop it, and has not returned. -/
def concerns (runId : String) : Thread → Bool
  | .call _ (.readSnapshot turn) | .call _ (.accept turn _) => turn.runId == runId
  | .call _ (.publishAccepted accepted) | .call _ (.start accepted) => accepted.run.runId == runId
  | .call _ (.signal _ _ run) | .call _ (.stop _ _ run) | .call _ (.removeStopped _ _ run)
  | .call _ (.readStopped _ _ run) | .call _ (.publishCanceled _ _ run _) => run == runId
  | .call _ _ | .task _ _ => false

/-- A task of a run that has not ended. -/
def isAlive (runId : String) : Thread → Bool
  | .task generation point => generation.runId == runId && point != .ended
  | .call _ _ => false

/-- Every running run that no request is busy with has an entry whose task has not ended. -/
def Attended (state : Runtime) : Prop :=
  ∀ row ∈ state.db.runs.rows, row.status = .running → (∀ thread ∈ state.threads, ¬ concerns row.id thread) →
    ∃ run ∈ state.active row.roomId, run.runId = row.id ∧
      ∃ thread ∈ state.threads[run.cancel]?, isAlive row.id thread

instance (state : Runtime) : Decidable state.Attended :=
  inferInstanceAs (Decidable (∀ row ∈ state.db.runs.rows, _))

/-- Every running run is tended, and a task of it that has not ended is the registered one. -/
structure Tended (state : Runtime) : Prop where
  sound : Sound state
  tended : ∀ row ∈ state.db.runs, row.status = .running → ∃ (k : ℕ) (thread : Thread),
    state.threads[k]? = some thread ∧ tends row.id row.roomId thread
  single : ∀ row ∈ state.db.runs, row.status = .running → ∀ (k : ℕ) (generation : Generation) (point : TaskPoint),
    state.threads[k]? = some (.task generation point) → generation.runId = row.id → point ≠ .ended →
      state.active row.roomId = some ⟨row.id, k⟩

section Step

variable {store : RoomStore} {draws : Draws} {fails : Bool} {state next : Runtime} {label : Label}

theorem tendedApart_iff {index : ℕ} {runId roomId : String} : state.tendedApart index runId roomId ↔
    ∃ (k : ℕ) (thread : Thread), k ≠ index ∧ state.threads[k]? = some thread ∧ tends runId roomId thread := by
  simp only [tendedApart, List.any_eq_true, List.mem_range, Bool.and_eq_true, bne_iff_ne, Option.any_eq_true]
  constructor
  · rintro ⟨k, -, other, thread, held, tending⟩
    exact ⟨k, thread, other, held, tending⟩
  · rintro ⟨k, thread, other, held, tending⟩
    exact ⟨k, (List.getElem?_eq_some_iff.mp held).1, other, thread, held, tending⟩

/-- A guarded step that makes a thread give up its run leaves another one that tends it. -/
theorem KeepsTended.other (keeps : KeepsTended store state label) {index : ℕ} {thread : Thread} {row : RunRow}
    (gives : givesUp store state label = some index) (held : state.threads[index]? = some thread)
    (member : row ∈ state.db.runs) (running : row.status = .running) (tending : tends row.id row.roomId thread) :
    ∃ (k : ℕ) (other : Thread), k ≠ index ∧ state.threads[k]? = some other ∧ tends row.id row.roomId other :=
  tendedApart_iff.mp (keeps.1 index gives row member running ⟨thread, held, tending⟩)

/-- A thread that does not move goes on tending its run, unless a stop is under way that does. -/
theorem Tended.kept (inv : Tended state) (step : Step store state label next) {row : RunRow}
    (member : row ∈ state.db.runs) {k : ℕ} {thread : Thread} (held : state.threads[k]? = some thread)
    (tending : tends row.id row.roomId thread) (other : mover label ≠ some k) :
    ∃ (k : ℕ) (thread : Thread), next.threads[k]? = some thread ∧ tends row.id row.roomId thread := by
  rcases step.kept held other with
    same | ⟨index, request, closing, roomId, runId, generation, point, stops, rfl, registered, -⟩
  · exact ⟨k, thread, same, tending⟩
  · refine ⟨index, _, stops, ?_⟩
    obtain ⟨task, taskPoint, there, inRoom, named, -⟩ := inv.sound.registered roomId _ registered
    obtain ⟨rfl, rfl⟩ := Thread.task.inj (Option.some.inj (held.symm.trans there))
    have run : generation.runId = row.id := by
      revert tending
      cases point <;> simp [tends] <;> intro same <;> simp [same]
    have room := (inv.sound.threads k _ held).1.rows row member run.symm
    obtain ⟨owner, owned, ofRun⟩ := inv.sound.linked.owned row member
    have valid := inv.sound.valid owner owned
    rw [ofRun, room, inRoom] at valid
    simp [tends, ← run, named, room, inRoom, valid, Except.toOption]

/-- A request's step passes its run on, to itself or to the task it spawns, unless it gives it up. -/
theorem tends_called {index : ℕ} {request : Request} {point reached : CallPoint} {middle : Runtime}
    (keeps : KeepsTended store state (.advance index draws fails))
    (held : state.threads[index]? = some (.call request point))
    (called : CallStep store draws fails state point reached middle) {row : RunRow} (member : row ∈ state.db.runs)
    (running : row.status = .running) (still : ∃ row' ∈ middle.db.runs, row'.id = row.id ∧ row'.status = .running)
    (tending : tends row.id row.roomId (.call request point)) :
    (∃ (k : ℕ) (thread : Thread), (middle.put index (.call request reached)).threads[k]? = some thread ∧
        tends row.id row.roomId thread) ∨
      ∃ (k : ℕ) (other : Thread), k ≠ index ∧ state.threads[k]? = some other ∧ tends row.id row.roomId other := by
  have moved (same : middle.threads = state.threads)
      (onward : tends row.id row.roomId (.call request reached)) :
      ∃ (k : ℕ) (thread : Thread), (middle.put index (.call request reached)).threads[k]? = some thread ∧
        tends row.id row.roomId thread :=
    ⟨index, _, thread_put_self (same ▸ held), onward⟩
  cases called with
  | refused refuses =>
    refine Or.inr (keeps.other ?_ held member running tending)
    cases point with
    | readSnapshot turn => simp [givesUp, held, refuses]
    | accept turn snapshot => simp [givesUp, held, refuses]
    | stop closing roomId runId => simp [givesUp, held, refuses]
    | publishAccepted accepted => cases refuses
    | start accepted => cases refuses
    | _ => cases tending
  | readSnapshot valid shown => exact Or.inl (moved rfl tending)
  | @accepted turn snapshot accepted success =>
    by_cases shows : showsRun turn snapshot
    · obtain ⟨_, success⟩ := success
      obtain ⟨-, ⟨inserted, current⟩ | ⟨-, found, foundMem, sameId, -, runId, status⟩⟩ :=
        RoomStore.acceptTurn_ok success
      · refine Or.inl (moved rfl ?_)
        have retried : turn.messageId.isNone = false := by simpa using inserted
        simp only [showsRun, retried, current, Option.any_some, Bool.false_or, Bool.and_eq_true,
          beq_iff_eq] at shows
        simpa [tends, shows.1, shows.2] using tending
      · refine Or.inl (moved rfl ?_)
        simp only [tends, beq_iff_eq] at tending
        obtain rfl := Table.eq_of_key foundMem member (sameId.trans tending)
        simp [tends, runId, status, running]
    · exact Or.inr (keeps.other (by simp [givesUp, held, shows]) held member running tending)
  | publishedAccepted =>
    refine Or.inl (moved rfl ?_)
    simp only [tends, Bool.and_eq_true, beq_iff_eq] at tending
    simp [tends, tending]
  | @started accepted =>
    cases registered : state.active accepted.snapshot.id with
    | some run => exact Or.inr (keeps.other (by simp [givesUp, held, registered]) held member running tending)
    | none =>
      refine Or.inl ⟨state.threads.length, spawned state accepted, ?_, by simpa [spawned, tends, Generation.runId] using tending⟩
      have bound := (List.getElem?_eq_some_iff.mp held).1
      rw [startRun_of_free registered, thread_put_of_ne (by omega), List.getElem?_append_right le_rfl,
        Nat.sub_self]
      rfl
  | stopped success =>
    obtain ⟨later, laterMem, sameId, alive⟩ := still
    simp only [tends, Bool.and_eq_true, beq_iff_eq] at tending
    have canceled := RoomStore.stopRun_canceled success later laterMem (sameId.trans tending.1.symm)
    rw [canceled] at alive
    cases alive
  | _ => cases tending

/-- A task's step goes on with its run, unless it gives it up. -/
theorem tends_ran {index : ℕ} {generation : Generation} {point reached : TaskPoint}
    {middle : Runtime} (keeps : KeepsTended store state (.advance index draws fails))
    (held : state.threads[index]? = some (.task generation point))
    (ran : TaskStep store draws fails state generation point reached middle) {row : RunRow}
    (member : row ∈ state.db.runs) (running : row.status = .running)
    (still : ∃ row' ∈ middle.db.runs, row'.id = row.id ∧ row'.status = .running)
    (tending : tends row.id row.roomId (.task generation point)) :
    (∃ (k : ℕ) (thread : Thread), (middle.put index (.task generation reached)).threads[k]? = some thread ∧
        tends row.id row.roomId thread) ∨
      ∃ (k : ℕ) (other : Thread), k ≠ index ∧ state.threads[k]? = some other ∧ tends row.id row.roomId other := by
  have moved (onward : tends row.id row.roomId (.task generation reached)) :
      ∃ (k : ℕ) (thread : Thread), (middle.put index (.task generation reached)).threads[k]? = some thread ∧
        tends row.id row.roomId thread :=
    ⟨index, _, thread_put_self (ran.threads ▸ held), onward⟩
  have settles {terminal : RunTerminal} (ends : terminal.status.isActive = false)
      (success : store.settleRun draws.env generation.roomId generation.runId terminal state.db = .ok () middle.db) :
      generation.runId ≠ row.id := by
    rintro same
    obtain ⟨later, laterMem, sameId, alive⟩ := still
    obtain ⟨found, -, -, status⟩ := RoomStore.settleRun_finished success
    have finished := status later laterMem (sameId.trans same.symm)
    rw [alive] at finished
    split at finished
    · rw [← finished] at ends
      cases ends
    · next ended => exact ended (finished ▸ rfl)
  cases ran with
  | extended success => exact Or.inl (moved tending)
  | rejected =>
    refine Or.inl (moved ?_)
    simp only [tends, Bool.and_eq_true, Bool.not_eq_true'] at tending
    simpa [tending.2, tends] using tending.1
  | publishedDelta => exact Or.inl (moved tending)
  | completed fresh accepts success => exact absurd (eq_of_beq tending) (settles rfl success)
  | completeRefused => exact Or.inl (moved tending)
  | failed accepts success => exact absurd (eq_of_beq tending) (settles rfl success)
  | failRefused refuses => exact Or.inr (keeps.other (by simp [givesUp, held, refuses]) held member running tending)
  | _ => cases tending

/-- What a task hears lets it go on with its run, unless a signal told it to leave. -/
theorem tends_heard {index : ℕ} {generation changed : Generation} {point reached : TaskPoint}
    {middle : Runtime} (held : state.threads[index]? = some (.task generation point))
    (heard : ReceiveStep state generation point reached changed middle) {row : RunRow}
    (tending : tends row.id row.roomId (.task generation point)) :
    ∃ (k : ℕ) (thread : Thread), (middle.put index (.task changed reached)).threads[k]? = some thread ∧
      tends row.id row.roomId thread := by
  refine ⟨index, _, thread_put_self (heard.threads ▸ held), ?_⟩
  cases heard with
  | requested onward =>
    rcases onward with rfl | ⟨code, rfl⟩
    · exact tending
    · simp only [tends, Bool.and_eq_true] at tending
      exact tending.1
  | heard hears =>
    simp only [tends, Bool.and_eq_true, Bool.not_eq_true'] at tending
    cases reached with
    | removeActive => simp [Hears, tending.2] at hears
    | receive => simpa [tends, tending.2, Generation.runId] using tending.1
    | appendDelta delta => simpa [tends, tending.2, Generation.runId] using tending.1
    | complete => exact tending.1
    | fail code => exact tending.1
    | _ => exact hears.elim

/-- Every running run is tended after a step that gives up none. -/
theorem Tended.tended_step (inv : Tended state) (step : Step store state label next)
    (keeps : KeepsTended store state label) : ∀ row ∈ next.db.runs, row.status = .running →
      ∃ (k : ℕ) (thread : Thread), next.threads[k]? = some thread ∧ tends row.id row.roomId thread := by
  intro row member running
  rcases step.run_cases member with ⟨old, oldMem, becomes⟩ | accepts
  · have oldRunning : old.status = .running := (becomes.of_active (running ▸ rfl)).symm.trans running
    rw [becomes.id, becomes.room]
    have still : ∃ later ∈ next.db.runs, later.id = old.id ∧ later.status = .running :=
      ⟨row, member, becomes.id, running⟩
    have onward {k : ℕ} {thread : Thread} (held : state.threads[k]? = some thread)
        (tending : tends old.id old.roomId thread) (other : mover label ≠ some k) :=
      inv.kept step oldMem held tending other
    obtain ⟨k, thread, held, tending⟩ := inv.tended old oldMem oldRunning
    by_cases moves : mover label = some k
    · have passes : (∃ (k : ℕ) (thread : Thread), next.threads[k]? = some thread ∧
            tends old.id old.roomId thread) ∨
          ∃ (j : ℕ) (other : Thread), j ≠ k ∧ state.threads[j]? = some other ∧
            tends old.id old.roomId other := by
        cases step with
        | begun => cases moves
        | accessed => cases moves
        | dropped at_ under =>
          obtain rfl := Option.some.inj moves
          exact Or.inr (keeps.other rfl held oldMem oldRunning tending)
        | called at_ called =>
          obtain rfl := Option.some.inj moves
          obtain rfl := Option.some.inj (held.symm.trans at_)
          exact tends_called keeps held called oldMem oldRunning still tending
        | ran at_ ran =>
          obtain rfl := Option.some.inj moves
          obtain rfl := Option.some.inj (held.symm.trans at_)
          exact tends_ran keeps held ran oldMem oldRunning still tending
        | heard at_ heard =>
          obtain rfl := Option.some.inj moves
          obtain rfl := Option.some.inj (held.symm.trans at_)
          exact Or.inl (tends_heard held heard tending)
      rcases passes with passed | ⟨j, other, apart, there, tending⟩
      · exact passed
      · exact onward there tending fun same => apart (Option.some.inj (same.symm.trans moves))
    · exact onward held tending moves
  · obtain ⟨index, request, turn, -, there, -, sameId, sameRoom⟩ := accepts.request
    exact ⟨index, _, there, by simp [tends, sameId]⟩

/-- A task of a running run that has not ended is still the registered one after a step that removes no
running run's entry. -/
theorem Tended.single_step (inv : Tended state) (step : Step store state label next)
    (keeps : KeepsTended store state label) : ∀ row ∈ next.db.runs, row.status = .running →
      ∀ (k : ℕ) (generation : Generation) (point : TaskPoint),
        next.threads[k]? = some (.task generation point) → generation.runId = row.id → point ≠ .ended →
          next.active row.roomId = some ⟨row.id, k⟩ := by
  intro row member running k generation point held named alive
  have known : state.Known row.id (·.roomId = generation.roomId) := named ▸ inv.sound.of_task step held
  rcases step.run_cases member with ⟨old, oldMem, becomes⟩ | accepts
  · have oldRunning : old.status = .running := (becomes.of_active (running ▸ rfl)).symm.trans running
    rcases step.of_task held with ⟨earlier, before, there, onward⟩ | ⟨_, _, _, _, accepted, -, -, -, -, isTask, now⟩
    · have earlierNamed : earlier.runId = old.id := onward.runId.trans (named.trans becomes.id)
      have registered := inv.single old oldMem oldRunning k earlier before there earlierNamed
        fun ended => alive (onward.ended ended)
      rw [becomes.room, becomes.id]
      rcases step.active_kept registered with
        kept | ⟨index, request, closing, -, stopped⟩ | ⟨index, _, _, request, rfl, removes⟩ |
          ⟨index, other, -, removes, otherNamed, ended⟩
      · exact kept
      · have canceled := (inv.sound.threads _ _ stopped).rows old oldMem rfl
        rw [oldRunning] at canceled
        cases canceled
      · refine absurd ?_ keeps.2
        exact removesActive_of removes registered oldMem rfl (oldRunning ▸ rfl)
      · have twice := inv.single old oldMem oldRunning index other _ removes otherNamed nofun
        obtain ⟨-, rfl⟩ := ActiveRun.mk.inj (Option.some.inj (registered.symm.trans twice))
        obtain ⟨-, rfl⟩ := Thread.task.inj (Option.some.inj (held.symm.trans ended))
        exact absurd rfl alive
    · obtain ⟨rfl, rfl⟩ := Thread.task.inj isTask
      have room : row.roomId = accepted.snapshot.id :=
        becomes.room.trans (known.rows old oldMem becomes.id.symm)
      rw [room, ← named]
      exact now
  · exact absurd rfl (known.not_accepts accepts)

theorem Tended.step (inv : Tended state) (step : Step store state label next)
    (keeps : KeepsTended store state label) : Tended next :=
  ⟨inv.sound.step step, inv.tended_step step keeps, inv.single_step step keeps⟩

/-- Without a request busy with it, a tended run is tended by its registered task. -/
theorem Tended.attended (inv : Tended state) : state.Attended := by
  intro row member running quiet
  obtain ⟨k, thread, held, tending⟩ := inv.tended row member running
  cases thread with
  | call request point =>
    refine absurd ?_ (quiet _ (List.mem_of_getElem? held))
    cases point with
    | publishAccepted accepted =>
      simp only [tends, Bool.and_eq_true] at tending
      exact tending.1
    | stop closing roomId runId =>
      simp only [tends, Bool.and_eq_true] at tending
      exact tending.1
    | readSnapshot turn => exact tending
    | accept turn snapshot => exact tending
    | start accepted => exact tending
    | _ => cases tending
  | task generation point =>
    have alive : generation.runId = row.id ∧ point ≠ .ended := by
      revert tending
      cases point <;> simp [tends] <;> intro same <;> simp [same]
    refine ⟨_, inv.single row member running k generation point held alive.1 alive.2, rfl, _, held, ?_⟩
    simp [isAlive, alive]

theorem Initial.tended (initial : Initial state) : Tended state where
  sound := initial.sound
  tended row member running := by
    have ended := initial.recovered row member
    rw [running] at ended
    cases ended
  single row member running := by
    have ended := initial.recovered row member
    rw [running] at ended
    cases ended

end Step

end Runtime

section Runs

end Runs

end RyuRooms
