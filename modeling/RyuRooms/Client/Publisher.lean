import Mathlib.Algebra.Order.BigOperators.Group.List
import RyuRooms.Client.EventLength
import RyuRooms.Client.ModelStream
import RyuRooms.Runtime.Lives
import RyuRooms.Runtime.Sample
import RyuRooms.Store.Unreadable

/-! # Which events reach Core

`ApplicationRoomPublisher::publish` checks a room id, an event name and the length of the whole request.
The names always pass, and a room id that the store took is never empty. What is left are the room id's
own length and characters, and the length of the event: a sum over the rows of the room where its snapshot
was read, and over what the call or the task brought along.
-/

namespace RyuRooms

open Foundation Json

namespace AppEvents.RealtimePublishRequest

variable {request : RealtimePublishRequest}

theorem readable_iff {maxBytes : ℕ} {value : String} : Readable maxBytes value ↔
    ¬ (trim value = "" ∨ maxBytes < value.utf8ByteSize ∨ anyChar isControl value) := by
  simp only [not_or, not_lt, Bool.not_eq_true]
  exact ⟨fun ⟨visible, bytes, plain⟩ => ⟨visible, bytes, plain⟩, fun ⟨visible, bytes, plain⟩ => ⟨visible, bytes, plain⟩⟩

/-- A request passes when its room id and event are readable and it is short enough. -/
theorem validate_ok_iff : request.validate = .ok () ↔ Readable MAX_REALTIME_ROOM_ID_BYTES request.roomId ∧
    Readable MAX_REALTIME_EVENT_NAME_BYTES request.event ∧ request.json.bytes ≤ MAX_REALTIME_EVENT_BYTES := by
  rw [readable_iff, readable_iff, validate]
  split
  · next refused => exact iff_of_false nofun fun passes => passes.1 refused
  · next named =>
    split
    · next refused => exact iff_of_false nofun fun passes => passes.2.1 refused
    · next plain =>
      split
      · next long => exact iff_of_false nofun fun passes => passes.2.2.not_gt long
      · next short => exact iff_of_true rfl ⟨named, plain, not_lt.mp short⟩

/-- A request that is readable and too long is refused for its length. -/
theorem validate_long (named : Readable MAX_REALTIME_ROOM_ID_BYTES request.roomId)
    (plain : Readable MAX_REALTIME_EVENT_NAME_BYTES request.event) (long : MAX_REALTIME_EVENT_BYTES < request.json.bytes) :
    request.validate = .error ⟨"event data is too large"⟩ :=
  (if_neg (readable_iff.mp named)).trans ((if_neg (readable_iff.mp plain)).trans (if_pos long))

end AppEvents.RealtimePublishRequest

/-- The name of every event passes. -/
theorem RoomEvent.readable_name (event : RoomEvent) :
    AppEvents.Readable AppEvents.MAX_REALTIME_EVENT_NAME_BYTES event.name := by
  have names : ∀ name ∈ ["turn.accepted", "turn.delta", "turn.completed", "turn.failed", "turn.canceled", "room.closed"],
      trim name ≠ "" ∧ name.utf8ByteSize ≤ AppEvents.MAX_REALTIME_EVENT_NAME_BYTES ∧ anyChar isControl name = false := by
    decide +kernel
  obtain ⟨visible, short, plain⟩ := names event.name (by cases event <;> simp [RoomEvent.name])
  exact ⟨visible, short, plain⟩

/-- A source whose event Core takes: its room id has no control characters and is short enough, and so is what the
event carries. -/
structure Source.Fits (store : RoomStore) (stamp : ToRfc3339) (source : Source) : Prop where
  plain : anyChar isControl source.roomId = false
  short : source.roomId.utf8ByteSize ≤ AppEvents.MAX_REALTIME_ROOM_ID_BYTES
  bytes : 29 + quotedBytes source.roomId + source.bytes store stamp ≤ AppEvents.MAX_REALTIME_EVENT_BYTES

/-- A published event reaches Core exactly when the source fits that its run read for it; so a run whose every source
fits loses none. -/
theorem publish_valid_iff {store : RoomStore} {labels : List Label} {state : Runtime}
    (run : (runtimeMachine store).Run labels state) (stamp : ToRfc3339) :
    (∀ roomId event, (roomId, event) ∈ state.published → ∃ source : Source, source.ReadIn store labels ∧
      source.event store = some (roomId, event) ∧
      ((AppEvents.publishRequest stamp roomId event).validate = .ok () ↔ source.Fits store stamp)) ∧
    ((∀ source : Source, source.ReadIn store labels → source.Fits store stamp) →
      ∀ roomId event, (roomId, event) ∈ state.published →
        (AppEvents.publishRequest stamp roomId event).validate = .ok ()) := by
  have named : Runtime.Named state := run.invariant (fun _ initial => .initial initial) fun _ _ _ named stepped =>
    named.step (.of_step? stepped)
  have each (roomId : String) (event : RoomEvent) (published : (roomId, event) ∈ state.published) :
      ∃ source : Source, source.ReadIn store labels ∧ source.event store = some (roomId, event) ∧
        ((AppEvents.publishRequest stamp roomId event).validate = .ok () ↔ source.Fits store stamp) := by
    obtain ⟨source, read, made⟩ := sourced_of_run run _ published
    obtain ⟨id, valid⟩ := named.published _ published
    have visible : trim roomId ≠ "" := by
      obtain ⟨-, long, -⟩ := validateRoomId_ok_iff.mp valid
      intro empty
      rw [empty] at long
      exact absurd long (by decide)
    obtain ⟨rfl, bytes⟩ := @Source.bytes_event store stamp _ _ _ made
    refine ⟨source, read, made, ?_⟩
    rw [AppEvents.RealtimePublishRequest.validate_ok_iff, bytes_publishRequest, bytes]
    constructor
    · rintro ⟨⟨-, short, plain⟩, -, bytes⟩
      exact ⟨plain, short, bytes⟩
    · rintro ⟨plain, short, bytes⟩
      exact ⟨⟨visible, short, plain⟩, event.readable_name, bytes⟩
  refine ⟨each, fun fits roomId event published => ?_⟩
  obtain ⟨source, read, -, valid⟩ := each roomId event published
  exact valid.mpr (fits source read)

namespace Sample

/-- The time stamp of the epoch. -/
def epoch : ToRfc3339 := fun _ => "1970-01-01T00:00:00+00:00"

/-- A room is created and closed under an id. -/
def closingAs (roomId : String) : List Label :=
  [opening, .begin (.closeRoom roomId), go 2 0, go 3 0, go 4 0, go 5 0, go 6 0]

/-- The event of the closed room was published under its id, and shows what a run of the machine finds. -/
theorem closed_as {roomId : String} {shows : RoomEvent → Prop} [DecidablePred shows]
    (checked : ((runtimeMachine store).run? runtime (closingAs roomId)).any fun state =>
      state.published.any fun entry => entry.1 = roomId ∧ shows entry.2) : ∃ (state : Runtime) (event : RoomEvent),
      (runtimeMachine store).Run (closingAs roomId) state ∧ (roomId, event) ∈ state.published ∧ shows event := by
  obtain ⟨state, path, found⟩ := (Option.any_eq_true _ _).mp checked
  obtain ⟨⟨_, event⟩, member, same⟩ := List.any_eq_true.mp found
  obtain ⟨rfl, shown⟩ := of_decide_eq_true same
  exact ⟨state, event, ⟨runtime, runtime_initial, path⟩, member, shown⟩

end Sample

/-- The event of the closed room reaches Core, for the room's rows fit. -/
theorem publish_valid_iff_closing : ∃ (state : Runtime) (event : RoomEvent) (source : Source),
    (runtimeMachine Sample.store).Run (Sample.closingAs Sample.roomId) state ∧
    (Sample.roomId, event) ∈ state.published ∧ source.ReadIn Sample.store (Sample.closingAs Sample.roomId) ∧
    source.event Sample.store = some (Sample.roomId, event) ∧ source.Fits Sample.store Sample.epoch ∧
    (AppEvents.publishRequest Sample.epoch Sample.roomId event).validate = .ok () := by
  obtain ⟨state, event, run, member, reached⟩ := @Sample.closed_as Sample.roomId
    (fun event => (AppEvents.publishRequest Sample.epoch Sample.roomId event).validate = .ok ()) _ (by decide +kernel)
  obtain ⟨source, read, made, valid⟩ := (publish_valid_iff run Sample.epoch).1 _ _ member
  exact ⟨state, event, source, run, member, read, made, valid.mp reached, reached⟩

/-- A room is closed under its id and a line break, which the store trims, and Core never hears of it. -/
theorem closing_not_published : ∃ (state : Runtime) (event : RoomEvent),
    (runtimeMachine Sample.store).Run (Sample.closingAs (Sample.roomId ++ "\n")) state ∧
    (Sample.roomId ++ "\n", event) ∈ state.published ∧
    (AppEvents.publishRequest Sample.epoch (Sample.roomId ++ "\n") event).validate =
      .error ⟨"room_id is empty, too long, or invalid"⟩ :=
  @Sample.closed_as (Sample.roomId ++ "\n") (fun event =>
    (AppEvents.publishRequest Sample.epoch (Sample.roomId ++ "\n") event).validate =
      .error ⟨"room_id is empty, too long, or invalid"⟩) _ (by decide +kernel)

namespace Sample

/-- A prompt of as many characters as a prompt may have, of four bytes each. -/
def wideText : String := String.ofList (List.replicate Limits.MAX_PROMPT_CHARS '😀')

theorem wideText_valid : Limits.validatePrompt wideText = .ok wideText :=
  Limits.validateNonEmpty_replicate (by decide) le_rfl (by decide) (by decide)

theorem quotedBytes_wideText : quotedBytes wideText = 64002 := by
  rw [quotedBytes, wideText, String.toList_ofList, List.map_replicate, List.sum_replicate]
  decide +kernel

/-- Small numbers spell different uuids. -/
theorem ofNat_inj {n m : ℕ} (small : n < 256) (less : m < 256) (same : Uuid.ofNat n = Uuid.ofNat m) : n = m := by
  have digits := congrArg (fun uuid => uuid.simple.toList) same
  simp only [Uuid.ofNat, String.toList_ofList, List.map_inj_left, List.mem_range] at digits
  have digit (left right : Fin 16) (equal : hexDigit left = hexDigit right) : left = right := by
    revert left right
    decide
  have low := congrArg Fin.val (digit _ _ (digits 31 (by decide)))
  have high := congrArg Fin.val (digit _ _ (digits 30 (by decide)))
  simp only [Fin.val_ofNat] at low high
  omega

/-- The room is open, and all it was told so far is the wide text, `count` times. -/
structure Holds (count : ℕ) (db : Db) : Prop where
  rooted : db.Rooted
  opened : db.IsOpen roomId
  runIds : ∀ run ∈ db.runs, ∃ n < 10 * (count + 1), run.id = opaqueId "run_" (.ofNat n)
  messageIds : ∀ message ∈ db.messages, ∃ n < 10 * (count + 1), message.id = opaqueId "msg_" (.ofNat n)
  length : db.messages.rows.length = count
  wide : ∀ message ∈ db.messages, message.roomId = roomId ∧
    store.sealing.openText message.text (ctx "room_messages" "text" message.id) = .ok wideText

/-- And none of its runs goes on. -/
structure Filled (count : ℕ) (db : Db) : Prop extends Holds count db where
  free : ∀ run ∈ db.runs, ¬ Db.isActiveIn roomId run

/-- What the host's next turn draws. -/
def wideDraws (count : ℕ) : Draws := draws (10 * (count + 1)) 10

/-- A room stays open when its status changes, unless it is closed by that. -/
theorem isOpen_setRoomStatus {db : Db} {status : RoomStatus → RoomStatus} {now : Instant} (opened : db.IsOpen roomId)
    (opens : ∀ old, old ≠ .closed → status old ≠ .closed) : (Db.setRoomStatus roomId status now db).1.IsOpen roomId := by
  obtain ⟨room, member, named, other⟩ := opened
  refine ⟨_, Db.mem_setRoomStatus.mpr ⟨room, member, rfl⟩, ?_⟩
  rw [if_pos (beq_iff_eq.mpr named)]
  exact ⟨named, opens _ other⟩

/-- Stopping the only run that goes on leaves none. -/
theorem Holds.stopped {count : ℕ} {db : Db} (holds : Holds count db) {run : RunRow} (member : run ∈ db.runs)
    (active : Db.isActiveIn roomId run) (only : ∀ other ∈ db.runs, Db.isActiveIn roomId other → other.id = run.id)
    (draws : Draws) : ∃ target, store.stopRun draws.env roomId run.id db = .ok () target ∧ Filled count target := by
  obtain ⟨inRoom, running⟩ := Db.isActiveIn_iff.mp active
  obtain ⟨target, stops, -⟩ := @RoomStore.stopRun_of_active store draws db rfl holds.rooted run member running
  rw [inRoom] at stops
  have rooted : target.Rooted := by
    have kept := @Db.Rooted.keeps_stopRun store draws.env roomId run.id db holds.rooted
    rwa [outcome_ok_iff.mpr stops] at kept
  obtain ⟨id, message, valid, -, rfl⟩ := RoomStore.stopRun_ok stops
  obtain rfl : roomId = id := Except.ok.inj ((RoomStore.validateRoomId_opaqueId _).symm.trans valid)
  refine ⟨_, stops, ⟨rooted, isOpen_setRoomStatus holds.opened ?_, ?_, holds.messageIds, holds.length, holds.wide⟩, ?_⟩
  · rintro (_ | _ | _ | _) other <;> first | decide | exact absurd rfl other
  · rintro after there
    obtain ⟨old, held, rfl⟩ := Db.mem_stopped_runs.mp there
    split <;> exact holds.runIds old held
  · rintro after there goesOn
    obtain ⟨old, held, rfl⟩ := Db.mem_stopped_runs.mp there
    split at goesOn
    · simp [Db.isActiveIn, RunStatus.isActive] at goesOn
    · next other =>
      exact other (by rw [goesOn, only old held goesOn]; simp)

namespace Filled

variable {count : ℕ} {db : Db}

theorem ne_of_lt {n k : ℕ} {start : String} (few : count < 20) (old : n < 10 * (count + 1)) (near : k < 10) :
    opaqueId start (.ofNat n) ≠ opaqueId start (.ofNat (10 * (count + 1) + k)) := by
  intro same
  have := ofNat_inj (by omega) (by omega) (opaqueId_inj.mp same)
  omega

/-- The room takes the wide text once more, and shows it after that. -/
theorem accepts (filled : Filled count db) (few : count < 20) : ∃ turn middle snapshot accepted,
    store.appendTurn (wideDraws count).env roomHost ⟨wideText, none⟩ db = .ok turn middle ∧
      store.snapshotOrNotFound (wideDraws count).env 13 turn.roomId middle = .ok snapshot middle ∧
      store.acceptTurn (wideDraws count).env turn snapshot middle = .ok accepted middle := by
  have new : RoomStore.NewTurn db (wideDraws count) roomHost ⟨wideText, none⟩ := by
    refine ⟨by decide, ⟨_, wideText_valid⟩, ⟨none, rfl, nofun⟩, fun message member => ?_, fun run member => ?_, ?_⟩
    · obtain ⟨n, old, same⟩ := filled.messageIds message member
      exact same ▸ @ne_of_lt count n 0 _ few old (by decide)
    · obtain ⟨n, old, same⟩ := filled.runIds run member
      exact same ▸ @ne_of_lt count n 1 _ few old (by decide)
    · refine lt_of_le_of_lt List.countP_le_length ?_
      rw [filled.length, Limits.MAX_HISTORY_MESSAGES]
      omega
  obtain ⟨accepted, target, accepts⟩ := @RoomStore.appendUserTurn_of_new store _ _ trivial rfl
    filled.rooted _ _ filled.opened filled.free new
  obtain ⟨turn, middle, committed, rest⟩ := bind_ok_iff.mp accepts
  obtain ⟨snapshot, _, shown, success⟩ := bind_ok_iff.mp rest
  obtain rfl := (RoomStore.snapshotOrNotFound_readOnly _ _).of_ok shown
  obtain rfl := (RoomStore.acceptTurn_readOnly _ _).of_ok success
  exact ⟨turn, middle, snapshot, accepted, committed, shown, success⟩

/-- A turn with it is a running run of the room, the only one. -/
theorem appended (filled : Filled count db) {turn : RoomStore.AppendedTurn} {middle : Db}
    (committed : store.appendTurn (wideDraws count).env roomHost ⟨wideText, none⟩ db = .ok turn middle) :
    turn = ⟨roomId, (wideDraws count).newRunId, some (wideDraws count).newMessageId, wideText⟩ ∧
      Holds (count + 1) middle ∧ (∃ run ∈ middle.runs, run.id = turn.runId ∧ Db.isActiveIn roomId run) ∧
        ∀ run ∈ middle.runs, Db.isActiveIn roomId run → run.id = turn.runId := by
  have unretried : ¬ db.isRetry roomHost ⟨wideText, none⟩ := by
    simp only [Db.isRetry, List.any_eq_true, Bool.and_eq_true, beq_iff_eq]
    rintro ⟨run, -, ⟨-, some⟩, same⟩
    rw [same] at some
    cases some
  obtain ⟨-, -, ⟨retried, -⟩ | ⟨-, key, inserted⟩⟩ := RoomStore.appendTurn_cases committed
  · exact absurd retried unretried
  have trimmed : trim wideText = wideText := (Limits.validateNonEmpty_ok wideText_valid).1.symm
  rw [trimmed] at inserted
  obtain ⟨-, -, rfl, messageText, _, _, messaged, ran, sealed, -, -, first, second, isTarget⟩ :=
    RoomStore.insertTurn_ok_iff.mp inserted
  have rooted := Db.Rooted.insertRun (Db.Rooted.insertMessage filled.rooted first) second
  obtain ⟨-, messages, added, rfl⟩ := Db.insertMessage_eq_some_iff.mp first
  obtain ⟨-, runs, started, rfl⟩ := Db.insertRun_eq_some_iff.mp second
  subst isTarget
  have inMessages {message : MessageRow} := @Table.mem_of_insert? _ _ _ _ _ _ _ added message
  have inRuns {run : RunRow} := @Table.mem_of_insert? _ _ _ _ _ _ _ started run
  refine ⟨rfl, ⟨rooted.updateRooms, ?_, ?_, ?_, ?_, ?_⟩, ⟨_, inRuns.mpr (Or.inr rfl), rfl, ?_⟩, ?_⟩
  · exact isOpen_setRoomStatus filled.opened fun _ _ => nofun
  · rintro run member
    rcases inRuns.mp member with old | rfl
    · obtain ⟨n, less, same⟩ := filled.runIds run old
      exact ⟨n, by omega, same⟩
    · exact ⟨10 * (count + 1) + 1, by omega, rfl⟩
  · rintro message member
    rcases inMessages.mp member with old | rfl
    · obtain ⟨n, less, same⟩ := filled.messageIds message old
      exact ⟨n, by omega, same⟩
    · exact ⟨10 * (count + 1) + 0, by omega, rfl⟩
  · rw [← filled.length]
    exact (congrArg List.length (Table.insert?_eq_some_iff.mp added).2).trans List.length_append
  · rintro message member
    rcases inMessages.mp member with old | rfl
    · exact filled.wide message old
    · exact ⟨rfl, StoreSeal.openText_of_sealText (show store.sealing.Lawful from trivial) sealed⟩
  · simp [Db.isActiveIn, newRun, RunStatus.isActive, roomHost]
  · rintro run member active
    rcases inRuns.mp member with old | rfl
    · exact absurd active (filled.free run old)
    · rfl

end Filled

def wideTurn : Request := .submitTurn roomHost ⟨wideText, none⟩

def wideStop (count : ℕ) : Request := .stopRun roomId (wideDraws count).newRunId

/-- The host tells the room the wide text, and stops its run. -/
def telling (count : ℕ) : List Label :=
  [.begin wideTurn, .advance (2 * count) (wideDraws count) false, .begin (wideStop count),
    .advance (2 * count + 1) (wideDraws count) false, .advance (2 * count + 1) (wideDraws count) false]

/-- The runtime after `count` such turns. -/
structure Rests (count : ℕ) (state : Runtime) : Prop where
  filled : Filled count state.db
  threads : state.threads.length = 2 * count
  idle : state.active roomId = none
  drawn : ∀ uuid ∈ state.drawn, ∃ n < 10 * (count + 1), uuid = .ofNat n

namespace Rests

variable {count : ℕ} {state : Runtime}

/-- The last request goes on. -/
theorem path_last {labels : List Label} {old : List Thread} {request : Request} {point after : CallPoint} {draws : Draws}
    {next target : Runtime} (threads : state.threads = old ++ [.call request point])
    (stepped : Runtime.callStep store draws false state point = some (after, next)) (kept : next.threads = state.threads)
    (rest : (runtimeMachine store).Path { next with threads := old ++ [.call request after] } labels target) :
    (runtimeMachine store).Path state (.advance old.length draws false :: labels) target := by
  refine Machine.path_cons_iff.mpr ⟨_, ?_, rest⟩
  have held : state.threads[old.length]? = some (.call request point) := by simp [threads]
  have moved : next.threads.set old.length (.call request after) = old ++ [.call request after] := by
    simp [kept, threads]
  simp only [runtimeMachine, Runtime.step?, held, stepped, Option.map_some, Runtime.put, moved]

theorem fresh (rests : Rests count state) (few : count < 20) : state.isFresh (wideDraws count) := by
  rw [Runtime.isFresh, decide_eq_true_eq]
  rintro i known
  obtain ⟨n, less, same⟩ := rests.drawn _ known
  have := ofNat_inj (by omega) (by omega) same
  omega

/-- A signal without an entry is lost. -/
theorem signal_idle {runId : String} {draws : Draws} (idle : state.active roomId = none) :
    Runtime.callStep store draws false state (.signal false roomId runId) = some (.stop false roomId runId, state) := by
  simp only [Runtime.callStep, Runtime.signal, idle, Option.filter_none]

/-- The first section of the host's next turn. -/
theorem appends (rests : Rests count state) (few : count < 20) {turn : RoomStore.AppendedTurn} {middle : Db}
    (committed : store.appendTurn (wideDraws count).env roomHost ⟨wideText, none⟩ state.db = .ok turn middle) :
    Runtime.callStep store (wideDraws count) false
      { state with threads := state.threads ++ [.call wideTurn wideTurn.first] } wideTurn.first =
        some (.readSnapshot turn, { state with
          db := middle
          drawn := (wideDraws count).uuids ++ state.drawn
          threads := state.threads ++ [.call wideTurn wideTurn.first] }) := by
  refine (if_pos (rests.fresh few)).trans ?_
  simp only [Runtime.draw, outcome_ok_iff.mpr committed]
  rfl

/-- The host can tell the room the wide text once more. -/
theorem told (rests : Rests count state) (few : count < 20) :
    ∃ next, (runtimeMachine store).Path state (telling count) next ∧ Rests (count + 1) next := by
  obtain ⟨turn, middle, -, -, committed, -, -⟩ := rests.filled.accepts few
  obtain ⟨isTurn, holds, ⟨run, member, named, active⟩, only⟩ := rests.filled.appended committed
  obtain ⟨target, stops, filled⟩ := holds.stopped member active (fun other there goesOn => (only other there goesOn).trans
    named.symm) (wideDraws count)
  have isRun : run.id = (wideDraws count).newRunId := named.trans (isTurn ▸ rfl)
  rw [isRun] at stops
  have appends := rests.appends few committed
  have next : 2 * count + 1 = (state.threads ++ [Thread.call wideTurn (.readSnapshot turn)]).length := by
    simp [rests.threads]
  have stopped (state : Runtime) (same : state.db = middle) : Runtime.callStep store (wideDraws count) false state
      (.stop false roomId (wideDraws count).newRunId) =
        some (.removeStopped false roomId (wideDraws count).newRunId, { state with db := target }) := by
    simp only [Runtime.callStep, Runtime.write, Bool.false_eq_true, if_false, same, outcome_ok_iff.mpr stops]
  refine ⟨{ state with
    db := target
    drawn := (wideDraws count).uuids ++ state.drawn
    threads := state.threads ++ [.call wideTurn (.readSnapshot turn)] ++
      [.call (wideStop count) (.removeStopped false roomId (wideDraws count).newRunId)] }, ?_, filled, ?_, rests.idle, ?_⟩
  · rw [telling, next, ← rests.threads]
    refine Machine.path_cons_iff.mpr ⟨_, rfl, path_last rfl appends rfl (Machine.path_cons_iff.mpr ⟨_, rfl, ?_⟩)⟩
    refine path_last rfl (signal_idle rests.idle) rfl ?_
    exact path_last rfl (stopped _ rfl) rfl (Machine.path_nil_iff.mpr rfl)
  · simp [rests.threads]
    omega
  · intro uuid known
    rcases List.mem_append.mp known with new | old
    · simp only [Draws.uuids, List.mem_cons, List.not_mem_nil, or_false] at new
      rcases new with rfl | rfl | rfl
      · exact ⟨10 * (count + 1) + 0, by omega, rfl⟩
      · exact ⟨10 * (count + 1) + 1, by omega, rfl⟩
      · exact ⟨10 * (count + 1) + 2, by omega, rfl⟩
    · obtain ⟨n, less, same⟩ := rests.drawn uuid old
      exact ⟨n, by omega, same⟩

/-- So it can be told it any number of times. -/
theorem of_told (rests : Rests 0 state) : ∀ count ≤ 20, ∃ next,
    (runtimeMachine store).Path state ((List.range count).flatMap telling) next ∧ Rests count next := by
  intro count
  induction count with
  | zero => exact fun _ => ⟨state, Machine.path_nil_iff.mpr rfl, rests⟩
  | succ count ih =>
    intro few
    obtain ⟨middle, before, held⟩ := ih (by omega)
    obtain ⟨next, path, more⟩ := held.told (by omega)
    refine ⟨next, ?_, more⟩
    rw [List.range_succ, List.flatMap_append, List.flatMap_singleton]
    exact Machine.path_append_iff.mpr ⟨middle, before, path⟩

end Rests

/-- A room that was told nothing else shows the wide text as often as it was told. -/
theorem Holds.messages {count : ℕ} {db : Db} (holds : Holds count db) (few : count ≤ Limits.MAX_HISTORY_MESSAGES) :
    (store.loadMessages db roomId).length = count ∧ ∀ message ∈ store.loadMessages db roomId, message.text = wideText := by
  have mine : db.messages.select (·.roomId == roomId) = db.messages.rows :=
    List.filter_eq_self.mpr fun row member => beq_iff_eq.mpr (holds.wide row (Table.mem_rows.mp member)).1
  have known {row : MessageRow} (member : row ∈ (newest MessageRow.createdAt MessageRow.id Limits.MAX_HISTORY_MESSAGES
      (db.messages.select (·.roomId == roomId))).reverse) :
      store.sealing.openText row.text (ctx "room_messages" "text" row.id) = .ok wideText :=
    (holds.wide row (Table.mem_select.mp (mem_of_mem_newest (List.mem_reverse.mp member))).1).2
  have shown : store.loadMessages db roomId = (newest MessageRow.createdAt MessageRow.id Limits.MAX_HISTORY_MESSAGES
      (db.messages.select (·.roomId == roomId))).reverse.map fun row =>
        ⟨row.id, row.role, wideText, row.participantId, row.createdAt⟩ := by
    rw [RoomStore.loadMessages, ← List.filterMap_eq_map]
    exact List.filterMap_congr fun row member => by rw [known member, Function.comp_apply]
  constructor
  · rw [shown, List.length_map, List.length_reverse, newest, List.length_take, List.length_insertionSort, mine,
      holds.length, Nat.min_eq_right few]
  · intro message member
    rw [shown, List.mem_map] at member
    obtain ⟨row, -, rfl⟩ := member
    rfl

/-- The host tells the room the wide text a fourth time, and that turn is published. -/
def overfilling : List Label :=
  [opening] ++ (List.range 3).flatMap telling ++ .begin wideTurn :: List.replicate 4 (.advance 6 (wideDraws 3) false)

/-- The room before it was told anything. -/
theorem opening_rests : ∃ state, (runtimeMachine store).Run [opening] state ∧ Rests 0 state := by
  have checked : ∃ state, (runtimeMachine store).Run [opening] state ∧ (state.db.runs.rows.length = 0 ∧
      state.db.messages.rows.length = 0 ∧ state.threads.length = 0 ∧ state.active roomId = none ∧
        state.drawn = [.ofNat 1, .ofNat 2, .ofNat 3] ∧ (∀ room ∈ state.db.rooms.rows, room.id = roomId) ∧
          ∃ room ∈ state.db.rooms.rows, room.id = roomId ∧ room.status ≠ .closed) :=
    Machine.Run.of_check runtime_initial (by decide +kernel)
  obtain ⟨state, run, runs, messages, threads, idle, drawn, rooms, room, member, opened⟩ := checked
  have noRuns {run : RunRow} : run ∉ state.db.runs := by simp [← Table.mem_rows, List.length_eq_zero_iff.mp runs]
  have noMessages {message : MessageRow} : message ∉ state.db.messages := by
    simp [← Table.mem_rows, List.length_eq_zero_iff.mp messages]
  have rooted : state.db.Rooted := ⟨fun _ there => absurd there noRuns, fun room there => by
    rw [rooms room (Table.mem_rows.mpr there)]
    exact RoomStore.validateRoomId_opaqueId _⟩
  refine ⟨state, run, ⟨⟨rooted, ⟨room, Table.mem_rows.mp member, opened⟩, fun _ there => absurd there noRuns,
    fun _ there => absurd there noMessages, messages, fun _ there => absurd there noMessages⟩,
    fun _ there => absurd there noRuns⟩, threads, idle, fun uuid known => ?_⟩
  simp only [drawn, List.mem_cons, List.not_mem_nil, or_false] at known
  rcases known with rfl | rfl | rfl
  · exact ⟨1, by decide, rfl⟩
  · exact ⟨2, by decide, rfl⟩
  · exact ⟨3, by decide, rfl⟩

namespace Rests

variable {count : ℕ} {state : Runtime}

/-- The next turn is published, with every message of the room in its snapshot. -/
theorem publishes (rests : Rests count state) (few : count < 20) : ∃ (next : Runtime) (accepted : AcceptedRun),
    (runtimeMachine store).Path state
      (.begin wideTurn :: List.replicate 4 (.advance (2 * count) (wideDraws count) false)) next ∧
    (roomId, .turnAccepted accepted.run accepted.userMessage accepted.snapshot) ∈ next.published ∧
    accepted.userMessage.text = wideText ∧ accepted.snapshot.messages.length = count + 1 ∧
    ∀ message ∈ accepted.snapshot.messages, message.text = wideText := by
  obtain ⟨turn, middle, snapshot, accepted, committed, shown, success⟩ := rests.filled.accepts few
  obtain ⟨isTurn, holds, -, -⟩ := rests.filled.appended committed
  have appends := rests.appends few committed
  have reads (state : Runtime) (same : state.db = middle) : Runtime.callStep store (wideDraws count) false state
      (.readSnapshot turn) = some (.accept turn snapshot, state) := by
    simp only [Runtime.callStep, Runtime.read, Bool.false_eq_true, if_false, same, outcome_ok_iff.mpr shown,
      Runtime.orReturn]
  have accepts (state : Runtime) (same : state.db = middle) : Runtime.callStep store (wideDraws count) false state
      (.accept turn snapshot) = some (.publishAccepted accepted, state) := by
    simp only [Runtime.callStep, Runtime.read, Bool.false_and, Bool.false_eq_true, if_false, same,
      outcome_ok_iff.mpr success, Runtime.orReturn]
  obtain ⟨id, valid, found, -⟩ := RoomStore.snapshotOrNotFound_shows shown
  obtain rfl : roomId = id := Except.ok.inj ((RoomStore.validateRoomId_opaqueId _).symm.trans
    ((congrArg validateRoomId (congrArg RoomStore.AppendedTurn.roomId isTurn).symm).trans valid))
  obtain ⟨room, -, isSnapshot⟩ := Option.map_eq_some_iff.mp found
  have told : snapshot.id = roomId ∧ snapshot.messages = store.loadMessages middle roomId :=
    isSnapshot ▸ ⟨rfl, rfl⟩
  obtain ⟨length, wide⟩ := holds.messages (by rw [Limits.MAX_HISTORY_MESSAGES]; omega)
  have isAccepted : accepted.snapshot = snapshot ∧ accepted.userMessage ∈ snapshot.messages := by
    simp only [RoomStore.acceptTurn, bind_ok_iff, orFail_ok_iff, pure_ok_iff] at success
    obtain ⟨run, _, -, message, _, ⟨looked, rfl⟩, rfl, -⟩ := success
    exact ⟨rfl, List.mem_reverse.mp (List.mem_of_find?_eq_some looked)⟩
  rw [told.2] at isAccepted
  have named : accepted.snapshot.id = roomId := isAccepted.1 ▸ told.1
  have publishes (state : Runtime) : Runtime.callStep store (wideDraws count) false state (.publishAccepted accepted) =
      some (if accepted.run.status = .running then .start accepted else .returned (.accepted accepted),
        state.publish roomId (.turnAccepted accepted.run accepted.userMessage accepted.snapshot)) := by
    rw [Runtime.callStep, named]
  refine ⟨{ state with
    db := middle
    drawn := (wideDraws count).uuids ++ state.drawn
    published := (roomId, .turnAccepted accepted.run accepted.userMessage accepted.snapshot) :: state.published
    threads := state.threads ++ [.call wideTurn
      (if accepted.run.status = .running then .start accepted else .returned (.accepted accepted))] },
    accepted, ?_, List.mem_cons_self, wide _ isAccepted.2, ?_, ?_⟩
  · rw [← rests.threads]
    refine Machine.path_cons_iff.mpr ⟨_, rfl, path_last rfl appends rfl ?_⟩
    refine path_last rfl (reads _ rfl) rfl (path_last rfl (accepts _ rfl) rfl ?_)
    exact path_last rfl (publishes _) rfl (Machine.path_nil_iff.mpr rfl)
  · rw [isAccepted.1, told.2, length]
  · rw [isAccepted.1, told.2]
    exact wide

end Rests

end Sample

/-- The event of a turn is at least as long as the texts of the messages in it. -/
theorem RoomEvent.le_bytes_turnAccepted {stamp : ToRfc3339} {run : RoomRun} {message : RoomMessage}
    {snapshot : RoomSnapshot} {length : ℕ} (own : quotedBytes message.text = length)
    (shown : ∀ message ∈ snapshot.messages, quotedBytes message.text = length) :
    (snapshot.messages.length + 1) * length ≤ (RoomEvent.turnAccepted run message snapshot).bytes stamp := by
  have each : ∀ bytes ∈ snapshot.messages.map (RoomMessage.bytes stamp), length ≤ bytes := by
    intro bytes member
    obtain ⟨message, there, rfl⟩ := List.mem_map.mp member
    rw [← shown message there, RoomMessage.bytes]
    omega
  have sum := List.card_nsmul_le_sum _ _ each
  rw [List.length_map] at sum
  change snapshot.messages.length * length ≤ _ at sum
  simp only [RoomEvent.bytes, RoomMessage.bytes, RoomSnapshot.bytes, arrayBytes, own, Nat.add_mul, Nat.one_mul]
  omega

/-- A room takes a fourth prompt of the greatest length, and Core never hears of it. -/
theorem overfilling_not_published : ∃ (state : Runtime) (event : RoomEvent),
    (runtimeMachine Sample.store).Run Sample.overfilling state ∧ (Sample.roomId, event) ∈ state.published ∧
    (AppEvents.publishRequest Sample.epoch Sample.roomId event).validate = .error ⟨"event data is too large"⟩ := by
  obtain ⟨opened, run, rests⟩ := Sample.opening_rests
  obtain ⟨filled, path, rests⟩ := rests.of_told 3 (by decide)
  obtain ⟨state, accepted, more, published, own, length, shown⟩ := rests.publishes (by decide)
  refine ⟨state, _, (run.append path).append more, published, ?_⟩
  have long := @RoomEvent.le_bytes_turnAccepted Sample.epoch accepted.run _ _ 64002
    (own ▸ Sample.quotedBytes_wideText) fun message member => shown message member ▸ Sample.quotedBytes_wideText
  rw [length] at long
  have plain : AppEvents.Readable AppEvents.MAX_REALTIME_ROOM_ID_BYTES Sample.roomId := by
    refine ⟨?_, ?_, ?_⟩ <;> decide +kernel
  have name := (RoomEvent.turnAccepted accepted.run accepted.userMessage accepted.snapshot).readable_name
  refine AppEvents.RealtimePublishRequest.validate_long plain name ?_
  rw [bytes_publishRequest, AppEvents.MAX_REALTIME_EVENT_BYTES]
  omega

end RyuRooms
