import RyuRooms.Runtime.Revocation
import RyuRooms.Runtime.Sample

/-! # The lives of a node

Two refinements. Every interleaving of requests and tasks is a history of the store: a step of the runtime
makes no change to the tables, or the change of one call. And a node that is killed at any step and started
again on the tables it left is in a state that a single life of the runtime reaches, so whatever holds of
every run of the runtime holds over any number of lives. Recovery is the only call between two lives.
-/

namespace RyuRooms

open Foundation

/-- A call of this store leads from some tables to others, or nothing was changed. -/
def RoomStore.Leads (store : RoomStore) (source target : Db) : Prop :=
  target = source ∨ ∃ (draws : Draws) (op : Op), (outcome (op.action store draws.env) source).2 = target

section Calls

variable {store : RoomStore} {source target : Db}

theorem outcome_reply {α : Type} (f : α → Reply) (action : StoreM α) :
    (outcome (f <$> action) source).2 = (outcome action source).2 := by
  rw [map_eq_pure_bind, ReadOnly.outcome_bind fun _ => .pure _]

namespace RoomStore.Leads

/-- A part of an operation that succeeds decides its tables, where the rest only reads. -/
theorem of_ok (draws : Draws) (op : Op) {α : Type} {action : StoreM α} {result : α}
    (success : action source = .ok result target)
    (same : (outcome (op.action store draws.env) source).2 = (outcome action source).2) :
    store.Leads source target :=
  Or.inr ⟨draws, op, same.trans (congrArg Prod.snd (outcome_ok_iff.mpr success))⟩

theorem of_settleRun {draws : Draws} {roomId runId : String} {terminal : RunTerminal}
    (ends : terminal.status = .completed ∨ terminal.status = .failed)
    (success : store.settleRun draws.env roomId runId terminal source = .ok () target) :
    store.Leads source target := by
  refine of_ok draws (.finishRun roomId runId terminal ends) success ?_
  rw [Op.action, outcome_reply, RoomStore.finishRun,
    ReadOnly.outcome_bind fun _ => RoomStore.snapshotOrNotFound_readOnly _ _]

/-- A call is a path of the store. -/
theorem path (leads : store.Leads source target) :
    ∃ events, (storeMachine store.crates).Path source events target := by
  rcases leads with rfl | ⟨draws, op, rfl⟩
  · exact ⟨[], Machine.path_nil_iff.mpr rfl⟩
  · have ran := path_history store.crates [⟨store.sealing, draws, false, op⟩] source
    exact ⟨_, ran⟩

/-- What every call keeps is kept. -/
theorem keeps (leads : store.Leads source target) {holds : Db → Prop}
    (each : ∀ (draws : Draws) (op : Op), Keeps holds (op.action store draws.env)) (held : holds source) :
    holds target := by
  rcases leads with rfl | ⟨draws, op, rfl⟩
  · exact held
  · exact each draws op source held

end RoomStore.Leads

end Calls

namespace Runtime

section Steps

variable {store : RoomStore} {state next : Runtime} {label : Label}

/-- A step makes no change to the tables, or the change of one call. -/
theorem Step.leads (step : Step store state label next) : store.Leads state.db next.db := by
  cases step with
  | begun => exact Or.inl rfl
  | dropped => exact Or.inl rfl
  | @called _ draws _ _ _ _ _ held step =>
    cases step with
    | @appended session input _ _ fresh success =>
      refine .of_ok draws (.appendUserTurn session input) success ?_
      rw [Op.action, outcome_reply, RoomStore.appendUserTurn, ReadOnly.outcome_bind fun _ => .bind
        (RoomStore.snapshotOrNotFound_readOnly _ _) fun _ => RoomStore.acceptTurn_readOnly _ _]
    | started => exact Or.inl (by rw [put_db, startRun_logs.db])
    | signalled => exact Or.inl (by rw [put_db, signal_logs.db])
    | @stopped _ roomId runId _ success => exact .of_ok draws (.stopRun roomId runId) success (outcome_reply _ _)
    | removedStopped => exact Or.inl (by rw [put_db, removeActive_logs.db])
    | @closed roomId _ success => exact .of_ok draws (.closeRoom roomId) success (outcome_reply _ _)
    | _ => exact Or.inl rfl
  | @ran _ draws _ generation _ _ _ held step =>
    cases step with
    | @extended delta _ success =>
      exact .of_ok draws (.appendDelta generation.roomId generation.runId delta) success (outcome_reply _ _)
    | completed fresh accepts success => exact .of_settleRun (Or.inl rfl) success
    | failed accepts success => exact .of_settleRun (Or.inr rfl) success
    | removed => exact Or.inl (by rw [put_db, removeActive_logs.db])
    | _ => exact Or.inl rfl
  | heard held step => cases step <;> exact Or.inl rfl
  | @accessed _ draws _ _ fresh step =>
    cases step with
    | refused => exact Or.inl rfl
    | @created input _ _ success => exact .of_ok draws (.createRoom input) success (outcome_reply _ _)
    | @joined raw displayName _ _ success =>
      exact .of_ok draws (.exchangeInvite raw displayName) success (outcome_reply _ _)
    | @issued roomId _ _ granted success => exact .of_ok draws (.issueInvite roomId) success (outcome_reply _ _)
    | @revoked roomId _ granted success => exact .of_ok draws (.revokeInvite roomId) success (outcome_reply _ _)

end Steps

/-- The process ends between two steps, and the next one recovers its tables. Recovery that fails changes nothing,
and the node serves all the same. -/
def restarted (store : RoomStore) (draws : Draws) (fails : Bool) (state : Runtime) : Runtime :=
  let db := (state.write fails (store.recoverRunning draws.env)).2.db
  ⟨db, fun _ => none, [], [], [], state.drawn, (db.participants.select (·.role == .guest)).map ParticipantRow.id⟩

end Runtime

/-- A step of the runtime, or the end of a process and the start of the next one. -/
inductive NodeLabel where
  | serve (label : Label)
  | restart (draws : Draws) (fails : Bool)

/-- A node from its first start on, over all its lives. -/
def nodeMachine (store : RoomStore) : Machine Runtime NodeLabel where
  Initial state := state = ⟨.empty, fun _ => none, [], [], [], [], []⟩
  step? state
    | .serve label => (runtimeMachine store).step? state label
    | .restart draws fails => some (state.restarted store draws fails)

/-- Recovery succeeds. -/
def Recovers (_ : Runtime) : NodeLabel → Prop
  | .serve _ => True
  | .restart _ fails => fails = false

instance (state : Runtime) : (label : NodeLabel) → Decidable (Recovers state label)
  | .serve _ => inferInstanceAs (Decidable True)
  | .restart _ fails => inferInstanceAs (Decidable (fails = false))

section Lives

variable {store : RoomStore} {state : Runtime}

theorem Runtime.restarted_leads (draws : Draws) (fails : Bool) :
    store.Leads state.db (state.restarted store draws fails).db := by
  cases fails with
  | true => exact Or.inl rfl
  | false => exact Or.inr ⟨draws, .recoverRunning, outcome_reply _ _⟩

/-- A step of a node makes no change to the tables, or the change of one call. -/
theorem node_leads {label : NodeLabel} {next : Runtime} (step : (nodeMachine store).step? state label = some next) :
    store.Leads state.db next.db := by
  cases label with
  | serve label => exact (Runtime.Step.of_step? step).leads
  | restart draws fails =>
    obtain rfl := Option.some.inj step
    exact Runtime.restarted_leads draws fails

/-- What a node does to its tables between two states is a path of the store. -/
theorem node_store_path {labels : List NodeLabel} {later : Runtime}
    (path : (nodeMachine store).Path state labels later) :
    ∃ events, (storeMachine store.crates).Path state.db events later.db :=
  path.simulate (storeMachine store.crates) Runtime.db fun _ _ _ step => (node_leads step).path

/-- The participants of a runtime have ids that were drawn. -/
theorem members_of_run {labels : List Label} (run : (runtimeMachine store).Run labels state) :
    ∀ participant ∈ state.db.participants, ∃ uuid ∈ state.drawn, participant.id = opaqueId "member_" uuid := by
  refine run.invariant (fun _ initial => initial.memberIds) fun before label next members step => ?_
  have step := Runtime.Step.of_step? step
  intro participant member
  rcases step.seating.of_seat ⟨participant, member, rfl, rfl, rfl⟩ with ⟨old, held, same, -⟩ | ⟨uuid, drawn, -, named, -⟩
  · obtain ⟨uuid, drawn, named⟩ := members old held
    exact ⟨uuid, step.drawn drawn, same.symm.trans named⟩
  · exact ⟨uuid, drawn, named⟩

/-- Recovery leaves every run what it is, or ends it. -/
theorem Runtime.restarted_onlyEnds (draws : Draws) (fails : Bool) :
    state.db.OnlyEnds (state.restarted store draws fails).db := by
  cases fails with
  | true => exact .of_eq rfl
  | false =>
    change state.db.OnlyEnds (outcome (store.recoverRunning draws.env) state.db).2
    cases acted : store.recoverRunning draws.env state.db with
    | ok changed target =>
      obtain ⟨messages, -, rfl⟩ := RoomStore.recoverRunning_ok acted
      rw [outcome_ok_iff.mpr acted]
      exact fun row member => Db.OnlyCarries.interrupted.onlyEnds row member
    | error error target => exact absurd acted RoomStore.recoverRunning_ne_error

/-- Every run of a node has an id that was drawn. -/
theorem node_issued {labels : List NodeLabel} (run : (nodeMachine store).Run labels state) :
    ∀ row ∈ state.db.runs, ∃ uuid ∈ state.drawn, row.id = opaqueId "run_" uuid := by
  refine run.history (fun _ state => ∀ row ∈ state.db.runs, ∃ uuid ∈ state.drawn, row.id = opaqueId "run_" uuid)
    ?_ fun _ before label next _ issued step => ?_
  · rintro state rfl
    simp [Db.empty]
  · intro row member
    cases label with
    | serve label =>
      have step := Runtime.Step.of_step? step
      rcases step.run_cases member with ⟨old, held, becomes⟩ | accepts
      · obtain ⟨uuid, drawn, named⟩ := issued old held
        exact ⟨uuid, step.drawn drawn, becomes.id.trans named⟩
      · obtain ⟨uuid, drawn, -, named⟩ := accepts.fresh
        exact ⟨uuid, drawn, named⟩
    | restart draws fails =>
      obtain rfl := Option.some.inj step
      obtain ⟨old, held, becomes⟩ := Runtime.restarted_onlyEnds draws fails row member
      obtain ⟨uuid, drawn, named⟩ := issued old held
      exact ⟨uuid, drawn, becomes.id.trans named⟩

/-- A node that was restarted and recovered is one that starts to serve. -/
theorem Runtime.restarted_initial {labels : List Label} (run : (runtimeMachine store).Run labels state)
    {events : List Event} (history : (storeMachine store.crates).Run events state.db) (draws : Draws) :
    Runtime.Initial (state.restarted store draws false) := by
  obtain ⟨changed, target, success⟩ : ∃ changed target,
      store.recoverRunning draws.env state.db = .ok changed target := by
    cases acted : store.recoverRunning draws.env state.db with
    | ok changed target => exact ⟨changed, target, rfl⟩
    | error error target => exact absurd acted RoomStore.recoverRunning_ne_error
  have tables : (state.restarted store draws false).db = target :=
    congrArg Prod.snd (outcome_ok_iff.mpr success)
  obtain ⟨more, path⟩ := (RoomStore.Leads.of_ok draws .recoverRunning success (outcome_reply _ _)).path
  obtain ⟨messages, listed, ended⟩ := RoomStore.recoverRunning_ok success
  have people : target.participants = state.db.participants := by
    have change : RunChange state.db (outcome (store.recoverRunning draws.env) state.db).2 := .of_recoverRunning
    rw [outcome_ok_iff.mpr success] at change
    exact change.sameAccess.2.1
  refine ⟨⟨store.crates, events ++ more, tables ▸ history.append path⟩, ?_, fun _ => rfl, rfl, rfl, rfl, ?_, ?_, ?_⟩
  · rw [tables, ended]
    exact fun run => Db.Linked.recovered_inactive listed
  · rw [tables, ended]
    intro row member
    obtain ⟨old, held, becomes⟩ := Db.OnlyCarries.interrupted.onlyEnds row member
    exact becomes.id ▸ (sound_of_run run).issued old held
  · rw [tables, people]
    exact members_of_run run
  · intro id
    change id ∈ ((state.restarted store draws false).db.participants.select _).map ParticipantRow.id ↔ _
    simp only [List.mem_map, Table.mem_select, beq_iff_eq, and_assoc]

end Lives

/-- The node is killed while a task generates, and started again. -/
def Sample.lives : List NodeLabel := starting.map .serve ++ [.restart (draws 90 90) false]

theorem Sample.lives_run : ∃ state, ((nodeMachine store).guard Recovers).Run lives state ∧
    state.threads = [] ∧ state.db.runs.rows.map RunRow.status = [.failed] := by
  have begins : ((nodeMachine store).guard Recovers).Initial ⟨.empty, fun _ => none, [], [], [], [], []⟩ := rfl
  exact Machine.Run.of_check begins (by decide +kernel)

/-- The turn is retried in the second life. -/
def Sample.nextLife : List NodeLabel := [.serve (.begin turn), .serve (go 10 0)]

end RyuRooms
