import RyuRooms.Model.GuestStream
import RyuRooms.Store.Capacity
import RyuRooms.Store.Sessions

/-! # What a guest's stream delivers

A stream beside a store that any calls change and a hub that anything is published on. Whatever the
stream holds, and whatever waits in its receiver, was read or published after its session was found,
and it yields nothing of that before the session was found again. A session that ended stays ended,
so that all it yields was made while the session was valid.
-/

namespace RyuRooms

open Foundation

section Steps

variable {store : RoomStore} {secret : String} {db : Db} {published : List (String × RoomEvent)}

/-- What one step of a stream does, with what it found first. -/
inductive StreamStep (store : RoomStore) (secret : String) (db : Db) (published : List (String × RoomEvent)) :
    StreamPoint → StreamLabel → StreamPoint → Option Delivery → Prop
  | stopped {point : StreamPoint} {label : StreamLabel} : StreamStep store secret db published point label .ended none
  | authorized {draws : Draws} {fails : Bool} {session : RoomSession}
      (resolves : resolved store db draws fails secret = some session) :
      StreamStep store secret db published .authorize (.advance draws fails) (.read session.roomId) none
  | read {draws : Draws} {fails : Bool} {roomId : String} {reading : Reading}
      (reads : readRoom store db draws fails published roomId = some reading) :
      StreamStep store secret db published (.read roomId) (.advance draws fails) (.subscribe roomId reading) none
  | subscribed {draws : Draws} {fails : Bool} {roomId : String} {reading : Reading} :
      StreamStep store secret db published (.subscribe roomId reading) (.advance draws fails)
        (.begin roomId (sent published roomId).length reading) none
  | begun {draws : Draws} {fails : Bool} {roomId : String} {seen : ℕ} {reading : Reading} {session : RoomSession}
      (resolves : resolved store db draws fails secret = some session) :
      StreamStep store secret db published (.begin roomId seen reading) (.advance draws fails) (.select roomId seen)
        (some (.snapshot reading))
  | ticked {draws : Draws} {fails : Bool} {roomId : String} {seen : ℕ} :
      StreamStep store secret db published (.select roomId seen) (.tick draws fails) (.select roomId seen) none
  | received {roomId : String} {seen next : ℕ} {receipt : Receipt}
      (receives : recv (sent published roomId) seen = some (receipt, next)) :
      StreamStep store secret db published (.select roomId seen) .receive (.check roomId next receipt) none
  | delivered {draws : Draws} {fails : Bool} {roomId : String} {seen place : ℕ} {event : RoomEvent}
      {session : RoomSession} (resolves : resolved store db draws fails secret = some session) :
      StreamStep store secret db published (.check roomId seen (.event place event)) (.advance draws fails)
        (.select roomId seen) (some (.event place event))
  | lagged {draws : Draws} {fails : Bool} {roomId : String} {seen : ℕ} :
      StreamStep store secret db published (.check roomId seen .lagged) (.advance draws fails) (.recover roomId seen)
        none
  | reread {draws : Draws} {fails : Bool} {roomId : String} {seen : ℕ} {reading : Reading}
      (reads : readRoom store db draws fails published roomId = some reading) :
      StreamStep store secret db published (.recover roomId seen) (.advance draws fails)
        (.recheck roomId seen reading) none
  | recovered {draws : Draws} {fails : Bool} {roomId : String} {seen : ℕ} {reading : Reading} {session : RoomSession}
      (resolves : resolved store db draws fails secret = some session) :
      StreamStep store secret db published (.recheck roomId seen reading) (.advance draws fails) (.select roomId seen)
        (some (.snapshot reading))

theorem orEnd_cases {α : Type} {next : α → StreamPoint × Option Delivery} {found : Option α} :
    orEnd next found = (.ended, none) ∨ ∃ value, found = some value ∧ orEnd next found = next value := by
  cases found with
  | none => exact Or.inl rfl
  | some value => exact Or.inr ⟨value, rfl, rfl⟩

theorem StreamStep.of_step {point next : StreamPoint} {label : StreamLabel} {yielded : Option Delivery}
    (step : streamStep? store secret db published point label = some (next, yielded)) :
    StreamStep store secret db published point label next yielded := by
  have ends {α : Type} {going : α → StreamPoint × Option Delivery} {found : Option α}
      (same : some (orEnd going found) = some (next, yielded))
      (goes : ∀ value, found = some value → going value = (next, yielded) →
        StreamStep store secret db published point label next yielded) :
      StreamStep store secret db published point label next yielded := by
    rcases @orEnd_cases _ going found with stopped | ⟨value, isFound, went⟩
    · rw [stopped] at same
      obtain ⟨rfl, rfl⟩ := Prod.mk.inj (Option.some.inj same)
      exact .stopped
    · exact goes value isFound (went ▸ Option.some.inj same)
  cases label with
  | drop =>
    cases point with
    | ended => cases step
    | check roomId seen receipt =>
      cases receipt <;> (cases step; exact .stopped)
    | _ => cases step; exact .stopped
  | receive =>
    cases point with
    | select roomId seen =>
      obtain ⟨⟨receipt, after⟩, receives, same⟩ := Option.map_eq_some_iff.mp step
      cases same
      exact .received receives
    | check roomId seen receipt => cases receipt <;> cases step
    | _ => cases step
  | tick draws fails =>
    cases point with
    | select roomId seen =>
      refine ends step fun session resolves same => ?_
      cases same
      exact .ticked
    | check roomId seen receipt => cases receipt <;> cases step
    | _ => cases step
  | advance draws fails =>
    cases point with
    | authorize =>
      refine ends step fun session resolves same => ?_
      cases same
      exact .authorized resolves
    | read roomId =>
      refine ends step fun reading reads same => ?_
      cases same
      exact .read reads
    | subscribe roomId reading =>
      cases step
      exact .subscribed
    | begin roomId seen reading =>
      refine ends step fun session resolves same => ?_
      cases same
      exact .begun resolves
    | select roomId seen => cases step
    | check roomId seen receipt =>
      cases receipt with
      | event place event =>
        refine ends step fun session resolves same => ?_
        cases same
        exact .delivered resolves
      | lagged =>
        refine ends step fun session resolves same => ?_
        cases same
        exact .lagged
    | recover roomId seen =>
      refine ends step fun reading reads same => ?_
      cases same
      exact .reread reads
    | recheck roomId seen reading =>
      refine ends step fun session resolves same => ?_
      cases same
      exact .recovered resolves
    | ended => cases step

end Steps

/-- The store, the events that were published, newest first, and a stream with what it has yielded. -/
structure Watched where
  db : Db
  published : List (String × RoomEvent)
  point : StreamPoint
  delivered : List Delivery

/-- A call of the store, an event sent on the hub, or a step of the stream. -/
inductive WatchLabel where
  | store (event : Event)
  | publish (roomId : String) (event : RoomEvent)
  | stream (label : StreamLabel)

/-- The calls of the store in a run. -/
def storeEvents (labels : List WatchLabel) : List Event :=
  labels.filterMap fun
    | .store event => some event
    | _ => none

/-- The clock readings of a run. -/
def readings (labels : List WatchLabel) : List Instant :=
  labels.filterMap fun
    | .store event => some (event.draws.now 0)
    | .stream (.advance draws _) | .stream (.tick draws _) => some (draws.now 0)
    | _ => none

namespace StreamPoint

/-- The steps that call `resolve_session`, with what the call draws and whether it fails. -/
def asks : StreamPoint → StreamLabel → Option (Draws × Bool)
  | .authorize, .advance draws fails | .begin _ _ _, .advance draws fails | .select _ _, .tick draws fails
  | .check _ _ _, .advance draws fails | .recheck _ _ _, .advance draws fails => some (draws, fails)
  | _, _ => none

/-- The room of which a snapshot is read next. -/
def reads : StreamPoint → Option String
  | .read roomId | .recover roomId _ => some roomId
  | _ => none

end StreamPoint

/-- What waits in a receiver that has passed the first `seen` events of a channel. -/
def waiting (published : List (String × RoomEvent)) (roomId : String) (seen : ℕ) : List Delivery :=
  ((sent published roomId).drop seen).map fun entry => .event entry.1 entry.2

/-- All that a stream has at hand. -/
def StreamPoint.content (published : List (String × RoomEvent)) : StreamPoint → List Delivery
  | .authorize | .read _ | .ended => []
  | .subscribe _ reading => [.snapshot reading]
  | .begin roomId seen reading | .recheck roomId seen reading => .snapshot reading :: waiting published roomId seen
  | .check roomId seen (.event place event) => .event place event :: waiting published roomId seen
  | .select roomId seen | .check roomId seen .lagged | .recover roomId seen => waiting published roomId seen

section Watch

variable (crates : Crates) (sealing : StoreSeal) (secret : String)

/-- The machine of a stream of the guest with this secret, beside the store and the hub. -/
def watchMachine : Machine Watched WatchLabel where
  Initial watched := watched = ⟨.empty, [], .authorize, []⟩
  step? watched
    | .store event => ((storeMachine crates).step? watched.db event).map fun db => { watched with db }
    | .publish roomId event => some { watched with published := (roomId, event) :: watched.published }
    | .stream label =>
      (streamStep? ⟨crates, sealing⟩ secret watched.db watched.published watched.point label).map fun taken =>
        { watched with point := taken.1, delivered := watched.delivered ++ taken.2.toList }

/-- This step called `resolve_session`, and found the session. -/
def Resolves (watched : Watched) (label : WatchLabel) : Prop :=
  ∃ step draws fails session, label = .stream step ∧ watched.point.asks step = some (draws, fails) ∧
    resolved ⟨crates, sealing⟩ watched.db draws fails secret = some session

/-- This step published the event, or read the snapshot. -/
def Makes (watched : Watched) (label : WatchLabel) : Delivery → Prop
  | .event place event => place = watched.published.length ∧ ∃ roomId, label = .publish roomId event
  | .snapshot reading => ∃ roomId draws fails, watched.point.reads = some roomId ∧
    label = .stream (.advance draws fails) ∧
    readRoom ⟨crates, sealing⟩ watched.db draws fails watched.published roomId = some reading

/-- The session was found once. -/
def Authorized : List WatchLabel → Prop :=
  (watchMachine crates sealing secret).Once fun _ watched label => Resolves crates sealing secret watched label

/-- The content was made once, after the session was found. -/
def Made (delivery : Delivery) : List WatchLabel → Prop :=
  (watchMachine crates sealing secret).Once fun before watched label =>
    Authorized crates sealing secret before ∧ Makes crates sealing watched label delivery

/-- The session was found once, after the content was made. -/
def Checked (delivery : Delivery) : List WatchLabel → Prop :=
  (watchMachine crates sealing secret).Once fun before watched label =>
    Made crates sealing secret delivery before ∧ Resolves crates sealing secret watched label

/-- What is known of a stream after a run. -/
structure Streamed (past : List WatchLabel) (watched : Watched) : Prop where
  authorized : watched.point ≠ .authorize → watched.point ≠ .ended → Authorized crates sealing secret past
  content : ∀ delivery ∈ watched.point.content watched.published, Made crates sealing secret delivery past
  delivered : ∀ delivery ∈ watched.delivered, Checked crates sealing secret delivery past

end Watch

section Content

variable {store : RoomStore} {secret : String} {db : Db} {published : List (String × RoomEvent)}
  {roomId other : String} {event : RoomEvent} {seen : ℕ} {point next : StreamPoint} {label : StreamLabel}
  {yielded : Option Delivery} {delivery : Delivery}

/-- An event that is published goes to the end of its room's channel. -/
theorem sent_cons : sent ((other, event) :: published) roomId =
    sent published roomId ++ if other = roomId then [(published.length, event)] else [] := by
  rw [sent, List.reverse_cons, List.zipIdx_append, List.filterMap_append]
  split
  · next same => simp [sent, same]
  · next apart => simp [sent, apart]

theorem waiting_cons (member : delivery ∈ waiting ((other, event) :: published) roomId seen) :
    delivery ∈ waiting published roomId seen ∨ delivery = .event published.length event := by
  obtain ⟨entry, held, rfl⟩ := List.mem_map.mp member
  rw [sent_cons, List.drop_append] at held
  rcases List.mem_append.mp held with earlier | last
  · exact Or.inl (List.mem_map_of_mem earlier)
  · have new := List.mem_of_mem_drop last
    split at new
    · rw [List.mem_singleton.mp new]
      exact Or.inr rfl
    · simp at new

/-- All that an event adds to what a stream has at hand is itself, once the stream was let in. -/
theorem content_cons (member : delivery ∈ point.content ((other, event) :: published)) :
    delivery ∈ point.content published ∨
      (delivery = .event published.length event ∧ point ≠ .authorize ∧ point ≠ .ended) := by
  cases point with
  | authorize | read | ended => simp [StreamPoint.content] at member
  | subscribe roomId reading => exact Or.inl member
  | select roomId seen | recover roomId seen => exact (waiting_cons member).imp_right fun same => ⟨same, by simp⟩
  | begin roomId seen reading | recheck roomId seen reading =>
    rcases List.mem_cons.mp member with rfl | member
    · exact Or.inl List.mem_cons_self
    · exact (waiting_cons member).imp (List.mem_cons_of_mem _) fun same => ⟨same, by simp⟩
  | check roomId seen receipt =>
    cases receipt with
    | lagged => exact (waiting_cons member).imp_right fun same => ⟨same, by simp⟩
    | event place held =>
      rcases List.mem_cons.mp member with rfl | member
      · exact Or.inl List.mem_cons_self
      · exact (waiting_cons member).imp (List.mem_cons_of_mem _) fun same => ⟨same, by simp⟩

/-- What a receiver returns was waiting in it, and so is all that it goes on with. -/
theorem waiting_of_recv {receipt : Receipt} {after : ℕ}
    (receives : recv (sent published roomId) seen = some (receipt, after)) :
    ∀ delivery ∈ (StreamPoint.check roomId after receipt).content published,
      delivery ∈ waiting published roomId seen := by
  unfold recv at receives
  split at receives
  · next behind =>
    obtain ⟨rfl, rfl⟩ := Prod.mk.inj (Option.some.inj receives)
    have further : seen ≤ (sent published roomId).length - ROOM_EVENT_CAPACITY := by omega
    exact fun delivery member => (List.drop_subset_drop_left _ further |> List.map_subset _) member
  · next near =>
    split at receives
    · next place event found =>
      obtain ⟨rfl, rfl⟩ := Prod.mk.inj (Option.some.inj receives)
      obtain ⟨inside, same⟩ := List.getElem?_eq_some_iff.mp found
      have first : waiting published roomId seen = .event place event :: waiting published roomId (seen + 1) := by
        rw [waiting, List.drop_eq_getElem_cons inside, same]
        rfl
      intro delivery member
      rw [first]
      exact member
    · cases receives

/-- What a step adds to what a stream has at hand is a snapshot that it read. -/
theorem StreamStep.content (step : StreamStep store secret db published point label next yielded)
    (member : delivery ∈ next.content published) :
    delivery ∈ point.content published ∨ ∃ reading roomId draws fails, delivery = .snapshot reading ∧
      point.reads = some roomId ∧ label = .advance draws fails ∧
      readRoom store db draws fails published roomId = some reading := by
  cases step with
  | stopped | authorized => simp [StreamPoint.content] at member
  | read reads => exact Or.inr ⟨_, _, _, _, List.mem_singleton.mp member, rfl, rfl, reads⟩
  | subscribed =>
    rcases List.mem_cons.mp member with rfl | member
    · exact Or.inl List.mem_cons_self
    · simp [waiting] at member
  | begun | delivered | recovered => exact Or.inl (List.mem_cons_of_mem _ member)
  | ticked | lagged => exact Or.inl member
  | received receives => exact Or.inl (waiting_of_recv receives delivery member)
  | reread reads =>
    rcases List.mem_cons.mp member with rfl | member
    · exact Or.inr ⟨_, _, _, _, rfl, rfl, rfl, reads⟩
    · exact Or.inl member

/-- A stream yields what it has at hand, where it found the session again. -/
theorem StreamStep.yields (step : StreamStep store secret db published point label next yielded)
    (member : delivery ∈ yielded) : delivery ∈ point.content published ∧
      ∃ draws fails session, point.asks label = some (draws, fails) ∧
        resolved store db draws fails secret = some session := by
  cases step with
  | begun resolves | delivered resolves | recovered resolves =>
    obtain rfl := Option.mem_some.mp member
    exact ⟨List.mem_cons_self, _, _, _, rfl, resolves⟩
  | stopped | authorized | read | subscribed | ticked | received | lagged | reread => simp at member

/-- A stream goes on past its start where it found the session. -/
theorem StreamStep.authorizes (step : StreamStep store secret db published point label next yielded)
    (going : next ≠ .ended) : (point ≠ .authorize ∧ point ≠ .ended) ∨
      ∃ draws fails session, point.asks label = some (draws, fails) ∧
        resolved store db draws fails secret = some session := by
  cases step with
  | stopped => exact absurd rfl going
  | authorized resolves => exact Or.inr ⟨_, _, _, rfl, resolves⟩
  | read | subscribed | begun | ticked | received | delivered | lagged | reread | recovered =>
    exact Or.inl ⟨StreamPoint.noConfusion, StreamPoint.noConfusion⟩

end Content

section Histories

variable {crates : Crates} {sealing : StoreSeal} {secret : String} {past : List WatchLabel}
  {source target watched : Watched} {label : WatchLabel} {delivery : Delivery}

theorem Made.append (made : Made crates sealing secret delivery past) (more : List WatchLabel) :
    Made crates sealing secret delivery (past ++ more) := Machine.Once.append made more

theorem streamed_nil (initial : (watchMachine crates sealing secret).Initial watched) :
    Streamed crates sealing secret [] watched := by
  obtain rfl := initial
  exact ⟨fun started => absurd rfl started, by simp [StreamPoint.content], by simp⟩

theorem Streamed.step (held : Streamed crates sealing secret past source)
    (run : (watchMachine crates sealing secret).Run past source)
    (step : (watchMachine crates sealing secret).step? source label = some target) :
    Streamed crates sealing secret (past ++ [label]) target := by
  cases label with
  | store event =>
    obtain ⟨db, -, rfl⟩ := Option.map_eq_some_iff.mp step
    exact ⟨fun started going => (held.authorized started going).append _,
      fun delivery member => (held.content delivery member).append _,
      fun delivery member => (held.delivered delivery member).append _⟩
  | publish roomId event =>
    obtain rfl := Option.some.inj step
    refine ⟨fun started going => (held.authorized started going).append _, fun delivery member => ?_,
      fun delivery member => (held.delivered delivery member).append _⟩
    rcases content_cons member with earlier | ⟨rfl, started, going⟩
    · exact (held.content delivery earlier).append _
    · exact run.once ⟨held.authorized started going, rfl, roomId, rfl⟩
  | stream label =>
    obtain ⟨⟨point, yielded⟩, taken, rfl⟩ := Option.map_eq_some_iff.mp step
    have taken := StreamStep.of_step taken
    refine ⟨fun _ going => ?_, fun delivery member => ?_, fun delivery member => ?_⟩
    · rcases taken.authorizes going with ⟨started, goes⟩ | ⟨draws, fails, session, asks, resolves⟩
      · exact (held.authorized started goes).append _
      · exact run.once ⟨label, draws, fails, session, rfl, asks, resolves⟩
    · rcases taken.content member with earlier | ⟨reading, roomId, draws, fails, rfl, reads, rfl, found⟩
      · exact (held.content delivery earlier).append _
      · refine run.once ⟨held.authorized ?_ ?_, roomId, draws, fails, reads, rfl, found⟩
        · exact fun same => by simp [same, StreamPoint.reads] at reads
        · exact fun same => by simp [same, StreamPoint.reads] at reads
    · rcases List.mem_append.mp member with earlier | last
      · exact (held.delivered delivery earlier).append _
      · obtain ⟨inside, draws, fails, session, asks, resolves⟩ := taken.yields (Option.mem_toList.mp last)
        exact run.once ⟨held.content delivery inside, label, draws, fails, session, rfl, asks, resolves⟩

theorem streamed_of_run (run : (watchMachine crates sealing secret).Run past watched) :
    Streamed crates sealing secret past watched :=
  run.history (Streamed crates sealing secret) (fun _ => streamed_nil)
    fun _ _ _ _ before held step => held.step before step

theorem storeEvents_append {more : List WatchLabel} : storeEvents (past ++ more) = storeEvents past ++ storeEvents more :=
  List.filterMap_append

/-- The calls of the store in a run are a history of the store. -/
theorem storeEvents_run (run : (watchMachine crates sealing secret).Run past watched) :
    (storeMachine crates).Run (storeEvents past) watched.db := by
  refine run.history (fun past watched => (storeMachine crates).Run (storeEvents past) watched.db) ?_ ?_
  · rintro watched rfl
    exact Machine.Run.nil rfl
  · intro past source label target _ held step
    rw [storeEvents_append]
    cases label with
    | store event =>
      obtain ⟨db, taken, rfl⟩ := Option.map_eq_some_iff.mp step
      exact held.append (Machine.path_cons_iff.mpr ⟨db, taken, Machine.path_nil_iff.mpr rfl⟩)
    | publish roomId event =>
      obtain rfl := Option.some.inj step
      exact (List.append_nil _).symm ▸ held
    | stream label =>
      obtain ⟨taken, -, rfl⟩ := Option.map_eq_some_iff.mp step
      exact (List.append_nil _).symm ▸ held

/-- Where the session was found, it is the session of a valid admission. -/
theorem Resolves.valid (resolves : Resolves crates sealing secret watched label)
    (run : (watchMachine crates sealing secret).Run past watched)
    (collisionFree : Set.InjOn crates.sha256 {value | value = trim secret ∨ value ∈ secretsOf (storeEvents past)}) :
    ∃ now, ∃ admission : Admission, readings [label] = [now] ∧ admission.ValidAt (storeEvents past) now ∧
      admission.session.secret = trim secret := by
  obtain ⟨step, draws, fails, session, rfl, asks, found⟩ := resolves
  have reads : readings [.stream step] = [draws.now 0] := by
    unfold StreamPoint.asks at asks
    split at asks <;> cases asks <;> rfl
  unfold resolved at found
  split at found
  · cases found
  · split at found
    · next replied =>
      subst found
      obtain ⟨target, called⟩ : ∃ target, (RoomStore.mk crates sealing).resolveSession draws.env secret watched.db =
          .ok (some session) target :=
        ⟨(outcome _ watched.db).2, outcome_ok_iff.mp (Prod.ext replied rfl)⟩
      obtain ⟨admission, valid, same, -⟩ := valid_of_resolves (storeEvents_run run) collisionFree called
      exact ⟨_, admission, reads, valid, same⟩
    · cases found

section Cuts

variable {labels : List WatchLabel} (cut : past <+: labels)
include cut

theorem storeEvents_cut : storeEvents past <+: storeEvents labels := cut.filterMap _

theorem readings_cut : readings past <+: readings labels := cut.filterMap _

/-- What the store gave out on the way was given out by the end. -/
theorem secretsOf_cut : secretsOf (storeEvents past) <+: secretsOf (storeEvents labels) := by
  obtain ⟨rest, same⟩ := storeEvents_cut cut
  rw [← same, secretsOf, secretsOf, List.flatMap_append]
  exact List.prefix_append _ _

end Cuts

/-- A session that is valid later, and whose secret was in use before, was live in between. -/
theorem live_between {more : List WatchLabel} {now : Instant} {admission earlier : Admission}
    (fresh : (secretsOf (storeEvents (past ++ more))).Nodup)
    (valid : admission.ValidAt (storeEvents (past ++ more)) now)
    (used : ∃ event ∈ storeEvents past, event.deed.joins = some earlier)
    (same : earlier.session.secret = admission.session.secret) : LiveSession (storeEvents past) admission := by
  have live := valid.live
  rw [LiveSession, storeEvents_append, List.map_append] at live
  rcases live.of_append with before | ⟨deed, deedMem, granted⟩
  · exact before
  · obtain ⟨again, againMem, rfl⟩ := List.mem_map.mp deedMem
    obtain ⟨event, member, joined⟩ := used
    rw [storeEvents_append, secretsOf, List.flatMap_append] at fresh
    refine absurd same ((List.nodup_append.mp fresh).2.2 _ ?_ _ ?_)
    · exact mem_secretsOf_of_joins member joined
    · exact mem_secretsOf_of_joins againMem granted

/-- In every run, each item that a stream yields was published, or read, before a step at which
`resolve_session` found the guest's session. With a clock that does not go back, that session had
joined when the item was made, had not expired, and had not been ended by a rotation, a revocation
or a close. -/
theorem delivered_while_valid {labels : List WatchLabel}
    (run : (watchMachine crates sealing secret).Run labels watched) (yielded : delivery ∈ watched.delivered) :
    Checked crates sealing secret delivery labels ∧
      (Set.InjOn crates.sha256 {value | value = trim secret ∨ value ∈ secretsOf (storeEvents labels)} →
        (secretsOf (storeEvents labels)).Nodup → (readings labels).Pairwise (· ≤ ·) →
        ∃ before source label, before ++ [label] <+: labels ∧
          (watchMachine crates sealing secret).Run before source ∧ Makes crates sealing source label delivery ∧
          ∃ admission : Admission, admission.session.secret = trim secret ∧
            LiveSession (storeEvents before) admission ∧
            ∀ now ∈ readings (before ++ [label]), now < admission.joinedAt + seconds Limits.SESSION_TTL_SECS) := by
  have checked := (streamed_of_run run).delivered delivery yielded
  refine ⟨checked, fun collisionFree fresh forward => ?_⟩
  obtain ⟨late, found, asked, cut, lateRun, made, resolves⟩ := checked
  obtain ⟨before, source, label, madeIn, madeRun, authorized, makes⟩ := made
  obtain ⟨first, start, entered, enteredIn, firstRun, admitted⟩ := authorized
  have lateIn : late <+: labels := (List.prefix_append late [asked]).trans cut
  have beforeIn : before <+: late := (List.prefix_append before [label]).trans madeIn
  have firstIn : first <+: before := (List.prefix_append first [entered]).trans enteredIn
  have apart (past : List WatchLabel) (inside : past <+: labels) :
      Set.InjOn crates.sha256 {value | value = trim secret ∨ value ∈ secretsOf (storeEvents past)} :=
    collisionFree.mono fun _ => Or.imp_right fun given => (secretsOf_cut inside).subset given
  obtain ⟨now, admission, reads, valid, same⟩ := resolves.valid lateRun (apart late lateIn)
  obtain ⟨_, earlier, -, ⟨live, -, -⟩, given⟩ :=
    admitted.valid firstRun (apart first (firstIn.trans (beforeIn.trans lateIn)))
  obtain ⟨event, member, joined⟩ := live.joined
  refine ⟨before, source, label, madeIn.trans lateIn, madeRun, makes, admission, same, ?_, fun read held => ?_⟩
  · obtain ⟨rest, rfl⟩ := beforeIn
    exact live_between (fresh.sublist (secretsOf_cut lateIn).sublist) valid
      ⟨event, (storeEvents_cut firstIn).subset member, joined⟩ (given.trans same.symm)
  · have ordered : (readings late ++ [now]).Pairwise (· ≤ ·) := by
      rw [← reads, readings, readings, ← List.filterMap_append]
      exact forward.sublist (readings_cut cut).sublist
    have atMost : read ≤ now :=
      (List.pairwise_append.mp ordered).2.2 read ((readings_cut madeIn).subset held) now List.mem_cons_self
    exact atMost.trans_lt valid.unexpired

end Histories

/-- A guest of the sample room opens a stream and is sent an event. -/
def Sample.delta : RoomEvent := .turnDelta "run_1" "req_1" "Hello" "Hello"

def Sample.streaming : List WatchLabel :=
  let check := WatchLabel.stream (.advance (draws 6 30) false)
  (history crates joined .empty).1.map .store ++
    [check, check, check, check, .publish (opaqueId "room_" (.ofNat 1)) delta, .stream .receive, check]

theorem delivered_while_valid_streaming : ∃ watched,
    (watchMachine Sample.crates .compat (opaqueSecret (.ofNat 4))).Run Sample.streaming watched ∧
      Delivery.event 0 Sample.delta ∈ watched.delivered ∧
      ∃ before source label, before ++ [label] <+: Sample.streaming ∧
        (watchMachine Sample.crates .compat (opaqueSecret (.ofNat 4))).Run before source ∧
        Makes Sample.crates .compat source label (.event 0 Sample.delta) ∧
        ∃ admission : Admission, admission.session.secret = trim (opaqueSecret (.ofNat 4)) ∧
          LiveSession (storeEvents before) admission ∧
          ∀ now ∈ readings (before ++ [label]), now < admission.joinedAt + seconds Limits.SESSION_TTL_SECS := by
  have ran : ∃ watched, (watchMachine Sample.crates .compat (opaqueSecret (.ofNat 4))).Run Sample.streaming watched ∧
      Delivery.event 0 Sample.delta ∈ watched.delivered :=
    Machine.Run.of_check rfl (by decide +kernel)
  obtain ⟨watched, run, yielded⟩ := ran
  have secrets : secretsOf (storeEvents Sample.streaming) = [opaqueSecret (.ofNat 3), opaqueSecret (.ofNat 4)] := by
    decide +kernel
  exact ⟨watched, run, yielded, (delivered_while_valid run yielded).2
    (Sample.collisionFree secrets (by decide +kernel) (by decide +kernel)) (by rw [secrets]; decide +kernel)
    (by decide +kernel)⟩

end RyuRooms
