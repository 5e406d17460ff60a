import RyuRooms.Client.Schemas
import RyuRooms.Foundation.Rfc3339
import RyuRooms.Runtime.Lives
import RyuRooms.Runtime.Published

/-! # What the runtime shows

A request returns, and an event carries, a snapshot that was read from the tables or a turn that was accepted.
What holds of each of these when it is read holds of all that is published and answered. The interface
therefore reads back whatever a node shows, over all its lives.
-/

namespace RyuRooms

open Foundation

/-- What an answer or an event shows. -/
inductive Shown where
  | snapshot (snapshot : RoomSnapshot)
  | accepted (accepted : AcceptedRun)

/-- What an event shows. -/
def RoomEvent.shows : RoomEvent → Option Shown
  | turnAccepted run message snapshot => some (.accepted ⟨run, message, snapshot⟩)
  | turnCompleted _ _ snapshot | turnFailed _ _ _ snapshot | turnCanceled _ snapshot | roomClosed snapshot =>
    some (.snapshot snapshot)
  | turnDelta _ _ _ _ => none

/-- What an answer shows. -/
def Answer.shows : Answer → Option Shown
  | .accepted turn => some (.accepted turn)
  | .snapshot shown => some (.snapshot shown)
  | .unauthorized | .failed _ => none

/-- What a thread is about to show. -/
def Thread.shows : Thread → Option Shown
  | call _ (.accept _ snapshot) | call _ (.publishCanceled _ _ _ snapshot) | call _ (.publishClosed _ snapshot)
  | task _ (.publishCompleted snapshot) | task _ (.publishFailed _ snapshot) => some (.snapshot snapshot)
  | call _ (.publishAccepted accepted) | call _ (.start accepted) => some (.accepted accepted)
  | call _ (.returned answer) => answer.shows
  | call _ _ | task _ _ => none

/-- The tables show only what holds. -/
structure RoomStore.ShowsOnly (store : RoomStore) (db : Db) (holds : Shown → Prop) : Prop where
  reads : ∀ roomId snapshot, store.snapshotFrom db roomId = some snapshot → holds (.snapshot snapshot)
  accepts : ∀ (draws : Draws) turn snapshot accepted target, holds (.snapshot snapshot) →
    store.acceptTurn draws.env turn snapshot db = .ok accepted target → holds (.accepted accepted)

namespace Runtime

/-- What is shown, and what is about to be, holds. -/
structure Pictured (holds : Shown → Prop) (state : Runtime) : Prop where
  threads : ∀ (k : ℕ) (thread : Thread), state.threads[k]? = some thread → ∀ shown ∈ thread.shows, holds shown
  published : ∀ entry ∈ state.published, ∀ shown ∈ entry.2.shows, holds shown

section Steps

variable {store : RoomStore} {state next : Runtime} {label : Label} {holds : Shown → Prop}

theorem shows_of_emits {thread : Thread} {entry : String × RoomEvent} (emitted : emits thread = some entry) :
    entry.2.shows = thread.shows := by
  cases thread with
  | call request point => cases point <;> first | cases emitted; done | (cases emitted; rfl)
  | task generation point => cases point <;> first | cases emitted; done | (cases emitted; rfl)

theorem shows_of_kept {old found : Thread} (kept : Kept old found) : found.shows = old.shows := by
  cases kept with
  | same => rfl
  | @flagged generation point _ => cases point <;> rfl

theorem shows_nothing {thread : Thread} (nothing : thread.shows = none) : ∀ shown ∈ thread.shows, holds shown := by
  intro shown member
  simp [nothing] at member

/-- A step of a request shows what it held, or what it has just read. -/
theorem CallStep.shows {draws : Draws} {fails : Bool} {request : Request} {point reached : CallPoint} {middle : Runtime}
    (step : CallStep store draws fails state point reached middle) (only : store.ShowsOnly state.db holds)
    (held : ∀ shown ∈ (Thread.call request point).shows, holds shown) :
    ∀ shown ∈ (Thread.call request reached).shows, holds shown := by
  cases step with
  | readSnapshot valid shown => exact fun _ same => Option.some.inj same ▸ only.reads _ _ shown
  | accepted success =>
    obtain ⟨target, success⟩ := success
    exact fun _ same => Option.some.inj same ▸ only.accepts _ _ _ _ _ (held _ rfl) success
  | publishedAccepted =>
    split <;> exact held
  | started => exact held
  | readStopped valid shown => exact fun _ same => Option.some.inj same ▸ only.reads _ _ shown
  | @publishedCanceled closing =>
    cases closing with
    | true => exact shows_nothing rfl
    | false => exact held
  | readClosing =>
    rw [closingPoint]
    split <;> exact shows_nothing rfl
  | readClosed valid shown => exact fun _ same => Option.some.inj same ▸ only.reads _ _ shown
  | publishedClosed => exact held
  | refused refuses =>
    cases point with
    | stop closing roomId stopped => cases closing <;> exact shows_nothing rfl
    | readStopped closing roomId stopped => cases closing <;> exact shows_nothing rfl
    | _ => exact shows_nothing rfl
  | _ => exact shows_nothing rfl

theorem TaskStep.shows {draws : Draws} {fails : Bool} {generation : Generation} {point reached : TaskPoint}
    {middle : Runtime} (step : TaskStep store draws fails state generation point reached middle)
    (only : store.ShowsOnly state.db holds) :
    ∀ shown ∈ (Thread.task generation reached).shows, holds shown := by
  cases step with
  | readCompleted valid shown => exact fun _ same => Option.some.inj same ▸ only.reads _ _ shown
  | readFailed valid shown => exact fun _ same => Option.some.inj same ▸ only.reads _ _ shown
  | rejected =>
    split <;> exact shows_nothing rfl
  | _ => exact shows_nothing rfl

/-- Each step shows only what the tables do. -/
theorem Pictured.step (pictured : Pictured holds state) (step : Step store state label next)
    (only : store.ShowsOnly state.db holds) : Pictured holds next where
  published entry member := by
    rcases step.published_cases with same | ⟨k, thread, new, -, held, emitted, published⟩
    · exact pictured.published entry (same ▸ member)
    · rw [published, List.mem_cons] at member
      rcases member with rfl | old
      · exact shows_of_emits emitted ▸ pictured.threads k thread held
      · exact pictured.published entry old
  threads := by
    refine step.each (fun _ thread => ∀ shown ∈ thread.shows, holds shown)
      (fun _ thread => ∀ shown ∈ thread.shows, holds shown) pictured.threads ?_ ?_ ?_ ?_ ?_ ?_ ?_
    · exact fun k old found there keeps known => shows_of_kept keeps ▸ known
    · rintro k request -
      cases request <;> exact shows_nothing rfl
    · exact fun _ _ => shows_nothing rfl
    · exact fun _ _ _ _ _ _ _ _ _ called _ known => called.shows only known
    · exact fun _ _ _ _ _ _ _ _ _ _ => shows_nothing rfl
    · exact fun _ _ _ _ _ _ _ _ _ ran _ _ => ran.shows only
    · intro index received generation point changed reached middle _ _ heard _ known
      cases heard with
      | requested next => rcases next with rfl | ⟨code, rfl⟩ <;> exact shows_nothing rfl
      | heard hears => cases reached <;> first | exact shows_nothing rfl | exact hears.elim

end Steps

end Runtime

/-- What is shown is there, with its ids and names. -/
def Shown.Presentable : Shown → Prop
  | .snapshot shown => shown.Presentable
  | .accepted turn => turn.snapshot.Presentable ∧ turn.run.Presentable ∧ turn.userMessage.id ≠ ""

/-- The run of an accepted turn is its snapshot's, or a row's. -/
theorem RoomStore.presentable_acceptTurn {store : RoomStore} {form : StoreSeal.Form} {db target : Db} {draws : Draws}
    {turn : AppendedTurn} {snapshot : RoomSnapshot} {accepted : AcceptedRun} (every : db.Every (presentable form))
    (good : snapshot.Presentable) (success : store.acceptTurn draws.env turn snapshot db = .ok accepted target) :
    (Shown.accepted accepted).Presentable := by
  simp only [acceptTurn, bind_ok_iff, orFail_ok_iff, pure_ok_iff] at success
  obtain ⟨run, _, taken, message, _, ⟨looked, rfl⟩, rfl, rfl⟩ := success
  have listed := List.mem_reverse.mp (List.mem_of_find?_eq_some looked)
  refine ⟨good, ?_, good.messages message listed⟩
  cases named : turn.messageId with
  | some _ =>
    simp only [acceptedRun, named, orFail_ok_iff] at taken
    exact good.currentRun run taken.1
  | none =>
    simp only [acceptedRun, named, bind_ok_iff, orFail_ok_iff, runById, Env.query_ok_iff] at taken
    obtain ⟨_, _, ⟨found, _, ⟨-, looked, rfl⟩, opened⟩, rfl, rfl⟩ := taken
    cases found with
    | none => cases (pure_ok_iff.mp opened).1
    | some row =>
      simp only [map_ok_iff, returnExcept_ok_iff, mapError_eq_ok_iff, Option.some.injEq] at opened
      obtain ⟨_, ⟨opens, -⟩, rfl⟩ := opened
      obtain ⟨runId, requestId⟩ := every.runs row (Table.find?_eq_some looked).1
      exact ⟨(openRun_ok opens).1 ▸ runId, openRun_requestId opens ▸ requestId⟩

section Interface

variable (stamp : ToRfc3339)

/-- The body of an answer of `submit_turn`, `stop_run` or `close_room`, where it is no error. -/
def Answer.body (requestId : String) : Answer → Option Json
  | .accepted turn => some (submitTurnBody stamp turn requestId)
  | .snapshot shown => some (snapshotBody stamp shown requestId)
  | .unauthorized | .failed _ => none

/-- That answer as the interface has it. -/
def Answer.toUi (requestId : String) : Answer → Option Ui.RoomTurn
  | .accepted turn => some ⟨turn.snapshot.toUi stamp, some requestId, some (turn.run.toUi stamp),
      some (turn.userMessage.toUi stamp)⟩
  | .snapshot shown => some ⟨shown.toUi stamp, some requestId, none, none⟩
  | .unauthorized | .failed _ => none

variable {stamp} (written : ∀ instant, stamp instant ≠ "")
include written

theorem roomTurnResponseSchema_body {answer : Answer} (requestId : String)
    (good : ∀ shown ∈ answer.shows, shown.Presentable) :
    (answer.body stamp requestId).bind (fun body => Ui.roomTurnResponseSchema (some body)) =
      answer.toUi stamp requestId := by
  cases answer with
  | accepted accepted =>
    obtain ⟨snapshot, run, message⟩ := good _ rfl
    exact roomTurnResponseSchema_submitTurnBody written snapshot run message
  | snapshot snapshot => exact roomTurnResponseSchema_snapshotBody written (good _ rfl)
  | unauthorized | failed => rfl

/-- `parseRoomSnapshot(event.data.snapshot)`. -/
theorem roomSnapshotSchema_data {event : RoomEvent} (good : ∀ shown ∈ event.shows, shown.Presentable)
    {snapshot : RoomSnapshot} (carries : event.snapshot? = some snapshot) :
    Schema.field "snapshot" Ui.roomSnapshotSchema (some (event.data stamp)) = some (snapshot.toUi stamp) := by
  have read {fields : List (String × Json)} (distinct : (fields.map Prod.fst).Nodup) {shown : RoomSnapshot}
      (named : fields.lookup "snapshot" = some (shown.json stamp)) (good : shown.Presentable) :
      Schema.field "snapshot" Ui.roomSnapshotSchema (some (.object fields)) = some (shown.toUi stamp) := by
    rw [Schema.field_object distinct, named, roomSnapshotSchema_json written good]
  cases event with
  | turnDelta => cases carries
  | turnAccepted run message shown =>
    obtain rfl := Option.some.inj carries
    exact read (by simp) (by simp [List.lookup_cons]) (good _ rfl).1
  | turnCompleted | turnFailed | turnCanceled | roomClosed =>
    obtain rfl := Option.some.inj carries
    exact read (by simp) (by simp [List.lookup_cons]) (good _ rfl)

end Interface

section Node

variable {store : RoomStore} {labels : List NodeLabel} {state : Runtime} {form : StoreSeal.Form}

theorem presentable_shows (every : state.db.Every (presentable form)) (own : store.sealing.Faithful form) :
    store.ShowsOnly state.db Shown.Presentable where
  reads _ _ shown := RoomStore.presentable_snapshotFrom every own shown
  accepts _ _ _ _ _ good success := RoomStore.presentable_acceptTurn every good success

/-- Over all lives of a node, the rows have their ids and names, and so has all that is shown. -/
theorem presentable_of_run (own : store.sealing.Faithful form) (run : (nodeMachine store).Run labels state) :
    state.db.Every (presentable form) ∧ Runtime.Pictured Shown.Presentable state := by
  refine run.history
    (fun _ state => state.db.Every (presentable form) ∧ Runtime.Pictured Shown.Presentable state) ?_ ?_
  · rintro state rfl
    exact ⟨⟨by simp [Db.empty], by simp [Db.empty], by simp [Db.empty], by simp [Db.empty]⟩, by simp, by simp⟩
  · rintro past before label next - ⟨every, pictured⟩ step
    have after := (node_leads step).keeps
      (fun draws op => Db.Every.keeps_action Presentable.stable (Presentable.allows own op)) every
    cases label with
    | serve label => exact ⟨after, pictured.step (.of_step? step) (presentable_shows every own)⟩
    | restart draws fails =>
      obtain rfl := Option.some.inj step
      exact ⟨after, by simp [Runtime.restarted], by simp [Runtime.restarted]⟩

/-- Over all lives of a node, the interface reads back every snapshot that is read, every answer to a turn, a stop
or a close, and the snapshot of every event, as they were. -/
theorem node_reads_back {stamp : ToRfc3339} (written : ∀ instant, stamp instant ≠ "") (lawful : store.sealing.Lawful)
    (run : (nodeMachine store).Run labels state) :
    (∀ roomId snapshot, store.snapshotFrom state.db roomId = some snapshot →
      Ui.roomSnapshotSchema (some (snapshot.json stamp)) = some (snapshot.toUi stamp)) ∧
    (∀ request answer, .call request (.returned answer) ∈ state.threads → ∀ requestId,
      (answer.body stamp requestId).bind (fun body => Ui.roomTurnResponseSchema (some body)) =
        answer.toUi stamp requestId) ∧
    ∀ entry ∈ state.published, ∀ snapshot ∈ entry.2.snapshot?,
      Schema.field "snapshot" Ui.roomSnapshotSchema (some (entry.2.data stamp)) = some (snapshot.toUi stamp) := by
  obtain ⟨every, pictured⟩ := presentable_of_run lawful.faithful run
  refine ⟨fun roomId snapshot shown => ?_, fun request answer member requestId => ?_,
    fun entry member snapshot carries => ?_⟩
  · exact roomSnapshotSchema_json written (RoomStore.presentable_snapshotFrom every lawful.faithful shown)
  · obtain ⟨k, held⟩ := List.mem_iff_getElem?.mp member
    exact roomTurnResponseSchema_body written requestId (pictured.threads k _ held)
  · exact roomSnapshotSchema_data written (pictured.published entry member) carries

end Node

theorem toRfc3339_ne_empty (instant : ℕ) : Rfc3339.toRfc3339 instant ≠ "" := by
  simp [Rfc3339.toRfc3339, Rfc3339.chars, String.ofList_eq_empty_iff]

theorem node_reads_back_turn : ∃ state, (nodeMachine Sample.store).Run (Sample.starting.map .serve) state ∧
    state.published.length = 1 ∧
    (∀ roomId snapshot, Sample.store.snapshotFrom state.db roomId = some snapshot →
      Ui.roomSnapshotSchema (some (snapshot.json Rfc3339.toRfc3339)) = some (snapshot.toUi Rfc3339.toRfc3339)) ∧
    (∀ request answer, .call request (.returned answer) ∈ state.threads → ∀ requestId,
      (answer.body Rfc3339.toRfc3339 requestId).bind (fun body => Ui.roomTurnResponseSchema (some body)) =
        answer.toUi Rfc3339.toRfc3339 requestId) ∧
    ∀ entry ∈ state.published, ∀ snapshot ∈ entry.2.snapshot?,
      Schema.field "snapshot" Ui.roomSnapshotSchema (some (entry.2.data Rfc3339.toRfc3339)) =
        some (snapshot.toUi Rfc3339.toRfc3339) := by
  have begins : (nodeMachine Sample.store).Initial ⟨.empty, fun _ => none, [], [], [], [], []⟩ := rfl
  have ran : ∃ state, (nodeMachine Sample.store).Run (Sample.starting.map .serve) state ∧ state.published.length = 1 :=
    Machine.Run.of_check begins (by decide +kernel)
  obtain ⟨state, run, published⟩ := ran
  exact ⟨state, run, published, node_reads_back toRfc3339_ne_empty trivial run⟩

end RyuRooms
