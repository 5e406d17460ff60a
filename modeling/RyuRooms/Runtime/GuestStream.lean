import RyuRooms.Runtime.Published
import RyuRooms.Runtime.Sample
import RyuRooms.Store.GuestStream

/-! # What a guest's stream makes up for

A stream beside the runtime whose events it takes. Between two receipts a stream owes its guest nothing:
whatever was published for the room since its first snapshot was read, it has yielded, or it has yielded
a snapshot that was read later. An event that is published for the room after that reading and before the
subscription, or under another spelling of the room's id, reaches no receiver, and `KeepsUp` leaves it out.
-/

namespace RyuRooms

open Foundation

/-- The runtime, and a stream with what it has yielded. -/
structure Followed where
  runtime : Runtime
  point : StreamPoint
  delivered : List Delivery

/-- A step of the runtime, or of the stream. -/
inductive FollowLabel where
  | runtime (label : Label)
  | stream (label : StreamLabel)

/-- The machine of a stream of the guest with this secret, beside the runtime. -/
def followMachine (store : RoomStore) (secret : String) : Machine Followed FollowLabel where
  Initial followed := (runtimeMachine store).Initial followed.runtime ∧ followed.point = .authorize ∧
    followed.delivered = []
  step? followed
    | .runtime label => ((runtimeMachine store).step? followed.runtime label).map fun runtime =>
      { followed with runtime }
    | .stream label =>
      (streamStep? store secret followed.runtime.db followed.runtime.published followed.point label).map fun taken =>
        { followed with point := taken.1, delivered := followed.delivered ++ taken.2.toList }

/-- `validate_room_id` takes both for the same room. -/
def SameRoom (left right : String) : Prop := validateRoomId left = validateRoomId right

theorem SameRoom.refl (roomId : String) : SameRoom roomId roomId := Eq.refl (validateRoomId roomId)

instance (left right : String) : Decidable (SameRoom left right) :=
  inferInstanceAs (Decidable (validateRoomId left = validateRoomId right))

namespace StreamPoint

/-- The room of a stream that has read its first snapshot. -/
def room : StreamPoint → Option String
  | .authorize | .read _ | .ended => none
  | .subscribe roomId _ | .begin roomId _ _ | .select roomId _ | .check roomId _ _ | .recover roomId _
  | .recheck roomId _ _ => some roomId

/-- The channel a stream has subscribed to. -/
def channel : StreamPoint → Option String
  | .subscribe _ _ => none
  | point => point.room

end StreamPoint

/-- The event that a step of the runtime publishes. -/
def Runtime.emitted (state : Runtime) (label : Label) : Option (String × RoomEvent) :=
  (mover label).bind fun k => state.threads[k]?.bind emits

/-- An event of the stream's room goes to the channel that the stream reads. -/
def KeepsUp (followed : Followed) : FollowLabel → Prop
  | .runtime label => ∀ entry ∈ followed.runtime.emitted label, ∀ roomId ∈ followed.point.room,
    SameRoom entry.1 roomId → followed.point.channel = some entry.1
  | .stream _ => True

instance (followed : Followed) : (label : FollowLabel) → Decidable (KeepsUp followed label)
  | .runtime label => inferInstanceAs (Decidable (∀ entry ∈ followed.runtime.emitted label,
      ∀ roomId ∈ followed.point.room, SameRoom entry.1 roomId → followed.point.channel = some entry.1))
  | .stream _ => inferInstanceAs (Decidable True)

/-- What it takes for a stream to be done with an event: yielding it, a later event, or a snapshot that was read
after it, each undoes none of this. -/
structure Account where
  settled : List Delivery → ℕ → RoomEvent → Prop
  own : ∀ delivered place event, settled (delivered ++ [.event place event]) place event
  later : ∀ delivered place event next sent, place < next → settled delivered place event →
    settled (delivered ++ [.event next sent]) place event
  reread : ∀ delivered place event reading, place < reading.readAt →
    settled (delivered ++ [.snapshot reading]) place event

/-- The stream has yielded the event published at a place, or a snapshot that was read after it. -/
def MadeUp (delivered : List Delivery) (place : ℕ) (event : RoomEvent) : Prop :=
  .event place event ∈ delivered ∨ ∃ reading, .snapshot reading ∈ delivered ∧ place < reading.readAt

theorem MadeUp.append {delivered : List Delivery} {place : ℕ} {event : RoomEvent} (made : MadeUp delivered place event)
    (more : List Delivery) : MadeUp (delivered ++ more) place event := by
  rcases made with yielded | ⟨reading, yielded, later⟩
  · exact Or.inl (List.mem_append_left _ yielded)
  · exact Or.inr ⟨reading, List.mem_append_left _ yielded, later⟩

def madeUp : Account where
  settled := MadeUp
  own _ _ _ := Or.inl (List.mem_append_right _ List.mem_cons_self)
  later _ _ _ _ _ _ made := made.append _
  reread _ _ _ reading earlier := Or.inr ⟨reading, List.mem_append_right _ List.mem_cons_self, earlier⟩

/-- A stream whose first snapshot was `initial` has passed the first `seen` events of its channel, and of each
that was published since, something holds. -/
structure Kept (published : List (String × RoomEvent)) (initial : Reading) (roomId : String) (seen : ℕ)
    (holds : ℕ → RoomEvent → Prop) : Prop where
  within : seen ≤ (sent published roomId).length
  addressed : ∀ place entry, initial.readAt ≤ place → published.reverse[place]? = some entry →
    SameRoom entry.1 roomId → entry.1 = roomId
  passed : ∀ entry ∈ (sent published roomId).take seen, initial.readAt ≤ entry.1 → holds entry.1 entry.2

/-- A stream that holds a receipt is done with the events before it; after a lag it may be done with none. -/
def Receipt.Follows (settled : ℕ → RoomEvent → Prop) (receipt : Receipt) (place : ℕ) (event : RoomEvent) : Prop :=
  receipt = .lagged ∨ receipt = .event place event ∨
    ∃ next sent, receipt = .event next sent ∧ place < next ∧ settled place event

/-- What is known of a stream at each of its points, from what was published and what it has yielded. -/
inductive Follows (account : Account) (published : List (String × RoomEvent)) :
    StreamPoint → List Delivery → Prop
  | authorize : Follows account published .authorize []
  | read {roomId : String} : Follows account published (.read roomId) []
  | subscribe {roomId : String} {initial : Reading}
      (quiet : ∀ place entry, initial.readAt ≤ place → published.reverse[place]? = some entry →
        ¬ SameRoom entry.1 roomId) : Follows account published (.subscribe roomId initial) []
  | begin {roomId : String} {seen : ℕ} {initial : Reading}
      (kept : Kept published initial roomId seen fun _ _ => False) :
      Follows account published (.begin roomId seen initial) []
  | select {roomId : String} {seen : ℕ} {initial : Reading} {rest : List Delivery}
      (kept : Kept published initial roomId seen (account.settled (.snapshot initial :: rest))) :
      Follows account published (.select roomId seen) (.snapshot initial :: rest)
  | check {roomId : String} {seen : ℕ} {receipt : Receipt} {initial : Reading} {rest : List Delivery}
      (kept : Kept published initial roomId seen (receipt.Follows (account.settled (.snapshot initial :: rest)))) :
      Follows account published (.check roomId seen receipt) (.snapshot initial :: rest)
  | recover {roomId : String} {seen : ℕ} {initial : Reading} {rest : List Delivery}
      (kept : Kept published initial roomId seen fun _ _ => True) :
      Follows account published (.recover roomId seen) (.snapshot initial :: rest)
  | recheck {roomId : String} {seen : ℕ} {initial reading : Reading} {rest : List Delivery}
      (kept : Kept published initial roomId seen fun place _ => place < reading.readAt) :
      Follows account published (.recheck roomId seen reading) (.snapshot initial :: rest)
  | ended {delivered : List Delivery} : Follows account published .ended delivered

section Channel

variable {published : List (String × RoomEvent)} {roomId : String} {entry : String × RoomEvent}

theorem mem_sent_iff {place : ℕ} {event : RoomEvent} :
    (place, event) ∈ sent published roomId ↔ published.reverse[place]? = some (roomId, event) := by
  simp only [sent, List.mem_filterMap, Prod.exists, List.mem_zipIdx_iff_getElem?]
  constructor
  · rintro ⟨other, sentEvent, index, found, kept⟩
    split at kept
    · next same =>
      obtain ⟨rfl, rfl⟩ := Prod.mk.inj (Option.some.inj kept)
      exact same ▸ found
    · cases kept
  · exact fun found => ⟨roomId, event, place, found, if_pos rfl⟩

theorem place_lt {place : ℕ} {event : RoomEvent} (member : (place, event) ∈ sent published roomId) :
    place < published.length := by
  simpa using (List.getElem?_eq_some_iff.mp (mem_sent_iff.mp member)).1

/-- The entry at a place after one more was published: the old one, or the new one at the end. -/
theorem entry_cons {place : ℕ} {found : String × RoomEvent}
    (held : (entry :: published).reverse[place]? = some found) :
    published.reverse[place]? = some found ∨ (place = published.length ∧ found = entry) := by
  rw [List.reverse_cons, List.getElem?_append] at held
  split at held
  · exact Or.inl held
  · next beyond =>
    obtain ⟨inside, same⟩ := List.getElem?_eq_some_iff.mp held
    simp only [List.length_reverse, List.length_singleton, not_lt] at inside beyond
    refine Or.inr ⟨by omega, ?_⟩
    simpa using same.symm

end Channel

/-- The events of a channel are in the order of their places. -/
theorem sent_pairwise (published : List (String × RoomEvent)) (roomId : String) :
    (sent published roomId).Pairwise fun left right => left.1 < right.1 := by
  induction published with
  | nil => exact List.Pairwise.nil
  | cons entry published ih =>
    rw [sent_cons]
    refine List.pairwise_append.mpr ⟨ih, by split <;> simp, fun left leftMem right rightMem => ?_⟩
    split at rightMem
    · rw [List.mem_singleton.mp rightMem]
      exact place_lt leftMem
    · cases rightMem

namespace Kept

variable {published : List (String × RoomEvent)} {initial : Reading} {roomId : String} {seen : ℕ}
  {holds : ℕ → RoomEvent → Prop} {entry : String × RoomEvent}

/-- One more event changes nothing, as long as it takes the stream's channel if it is of the stream's room. -/
theorem cons (kept : Kept published initial roomId seen holds)
    (addressed : SameRoom entry.1 roomId → entry.1 = roomId) :
    Kept (entry :: published) initial roomId seen holds where
  within := by
    rw [sent_cons, List.length_append]
    exact kept.within.trans (Nat.le_add_right _ _)
  addressed place found later held same := by
    rcases entry_cons held with earlier | ⟨-, rfl⟩
    · exact kept.addressed place found later earlier same
    · exact addressed same
  passed old member later := by
    rw [sent_cons, List.take_append_of_le_length kept.within] at member
    exact kept.passed old member later

theorem imp (kept : Kept published initial roomId seen holds) {other : ℕ → RoomEvent → Prop}
    (implies : ∀ place event, (place, event) ∈ sent published roomId → holds place event → other place event) :
    Kept published initial roomId seen other where
  within := kept.within
  addressed := kept.addressed
  passed entry member later := implies _ _ (List.mem_of_mem_take member) (kept.passed entry member later)

/-- The event that a receiver returns comes after all that the stream is done with. -/
theorem receive (kept : Kept published initial roomId seen holds) {receipt : Receipt} {next : ℕ}
    (receives : recv (sent published roomId) seen = some (receipt, next)) :
    Kept published initial roomId next (receipt.Follows holds) where
  addressed := kept.addressed
  within := by
    unfold recv at receives
    split at receives
    · cases receives
      exact Nat.sub_le _ _
    · split at receives
      · next place event found =>
        cases receives
        exact (List.getElem?_eq_some_iff.mp found).1
      · cases receives
  passed entry member later := by
    unfold recv at receives
    split at receives
    · cases receives
      exact Or.inl rfl
    · split at receives
      · next place event found =>
        cases receives
        have ordered := (sent_pairwise published roomId).sublist (List.take_sublist (seen + 1) _)
        rw [List.take_add_one, found] at member ordered
        rcases List.mem_append.mp member with earlier | last
        · have before := (List.pairwise_append.mp ordered).2.2 entry earlier (place, event) (by simp)
          exact Or.inr (Or.inr ⟨place, event, rfl, before, kept.passed entry earlier later⟩)
        · obtain rfl : entry = (place, event) := by simpa using last
          exact Or.inr (Or.inl rfl)
      · cases receives

/-- A stream with nothing left in its receiver is done with everything since its first snapshot was read. -/
theorem drained (kept : Kept published initial roomId (sent published roomId).length holds) {place : ℕ}
    (later : initial.readAt ≤ place) (held : published.reverse[place]? = some entry)
    (same : SameRoom entry.1 roomId) : holds place entry.2 := by
  have own : entry = (roomId, entry.2) := Prod.ext (kept.addressed place entry later held same) rfl
  have member : (place, entry.2) ∈ sent published roomId := mem_sent_iff.mpr (own ▸ held)
  refine kept.passed (place, entry.2) ?_ later
  rwa [List.take_length]

end Kept

namespace Follows

variable {account : Account} {store : RoomStore} {secret : String} {db : Db} {published : List (String × RoomEvent)}
  {point next : StreamPoint} {label : StreamLabel} {yielded : Option Delivery} {delivered : List Delivery}
  {entry : String × RoomEvent}

/-- One more event changes nothing, as long as the stream keeps up with it. -/
theorem cons (follows : Follows account published point delivered)
    (keeps : ∀ roomId ∈ point.room, SameRoom entry.1 roomId → point.channel = some entry.1) :
    Follows account (entry :: published) point delivered := by
  have addressed {roomId : String} (room : point.room = some roomId) (channel : point.channel = some roomId)
      (same : SameRoom entry.1 roomId) : entry.1 = roomId :=
    Option.some.inj ((keeps roomId room same).symm.trans channel)
  cases follows with
  | authorize => exact .authorize
  | read => exact .read
  | subscribe quiet =>
    refine .subscribe fun place found later held same => ?_
    rcases entry_cons held with earlier | ⟨-, rfl⟩
    · exact quiet place found later earlier same
    · cases keeps _ rfl same
  | begin kept => exact .begin (kept.cons (addressed rfl rfl))
  | select kept => exact .select (kept.cons (addressed rfl rfl))
  | check kept => exact .check (kept.cons (addressed rfl rfl))
  | recover kept => exact .recover (kept.cons (addressed rfl rfl))
  | recheck kept => exact .recheck (kept.cons (addressed rfl rfl))
  | ended => exact .ended

theorem readAt_of_readRoom {draws : Draws} {fails : Bool} {roomId : String} {reading : Reading}
    (reads : readRoom store db draws fails published roomId = some reading) : reading.readAt = published.length := by
  unfold readRoom at reads
  split at reads
  · cases reads
  · split at reads
    · obtain ⟨snapshot, -, rfl⟩ := Option.map_eq_some_iff.mp reads
      rfl
    · cases reads

/-- Each step of a stream keeps the account. -/
theorem step (follows : Follows account published point delivered)
    (step : StreamStep store secret db published point label next yielded) :
    Follows account published next (delivered ++ yielded.toList) := by
  cases step with
  | stopped => exact .ended
  | authorized =>
    cases follows
    exact .read
  | read reads =>
    cases follows
    refine .subscribe fun place found later held => ?_
    have inside := (List.getElem?_eq_some_iff.mp held).1
    rw [List.length_reverse, ← readAt_of_readRoom reads] at inside
    exact absurd later inside.not_ge
  | @subscribed draws fails roomId reading =>
    cases follows with
    | subscribe quiet =>
      refine .begin ⟨le_rfl, fun place found later held same => absurd same (quiet place found later held), ?_⟩
      intro found member later
      rw [List.take_length] at member
      exact absurd (SameRoom.refl roomId) (quiet found.1 (roomId, found.2) later (mem_sent_iff.mp member))
  | begun =>
    cases follows with
    | begin kept => exact .select (kept.imp fun _ _ _ none => none.elim)
  | ticked =>
    rw [Option.toList_none, List.append_nil]
    exact follows
  | received receives =>
    rw [Option.toList_none, List.append_nil]
    cases follows with
    | select kept => exact .check (kept.receive receives)
  | delivered =>
    cases follows with
    | check kept =>
      refine .select (kept.imp fun place event _ known => ?_)
      rcases known with lag | same | ⟨next, sent, same, later, settled⟩
      · cases lag
      · cases same
        exact account.own (_ :: _) _ _
      · cases same
        exact account.later (_ :: _) _ _ _ _ later settled
  | lagged =>
    rw [Option.toList_none, List.append_nil]
    cases follows with
    | check kept => exact .recover (kept.imp fun _ _ _ _ => trivial)
  | reread reads =>
    rw [Option.toList_none, List.append_nil]
    cases follows with
    | recover kept =>
      refine .recheck (kept.imp fun place event member _ => ?_)
      rw [readAt_of_readRoom reads]
      exact place_lt member
  | recovered =>
    cases follows with
    | recheck kept => exact .select (kept.imp fun place event _ earlier => account.reread (_ :: _) place event _ earlier)

end Follows

section Runs

variable {store : RoomStore} {secret : String} {labels : List FollowLabel} {followed : Followed}

theorem follows_of_run (account : Account) (run : ((followMachine store secret).guard KeepsUp).Run labels followed) :
    Follows account followed.runtime.published followed.point followed.delivered := by
  refine run.history
    (fun _ followed => Follows account followed.runtime.published followed.point followed.delivered)
    (fun start initial => ?_) fun _ source label target _ follows step => ?_
  · obtain ⟨begins, point, delivered⟩ := initial
    rw [point, delivered]
    exact .authorize
  · obtain ⟨keeps, taken⟩ := Machine.guard_step_iff.mp step
    cases label with
    | runtime label =>
      obtain ⟨next, stepped, rfl⟩ := Option.map_eq_some_iff.mp taken
      rcases (Runtime.Step.of_step? stepped).published_cases with same | ⟨k, thread, entry, ⟨_, _, rfl⟩, held, emits, adds⟩
      · exact same ▸ follows
      · rw [adds]
        refine follows.cons (keeps entry ?_)
        rw [Runtime.emitted, Runtime.mover, Option.bind_some, held]
        exact emits
    | stream label =>
      obtain ⟨⟨point, yielded⟩, stepped, rfl⟩ := Option.map_eq_some_iff.mp taken
      exact follows.step (.of_step stepped)

/-- A stream that waits with nothing left in its receiver has settled all that was published for the room since
its first snapshot was read. -/
theorem settled_of_run (account : Account) (run : ((followMachine store secret).guard KeepsUp).Run labels followed)
    {roomId : String} {seen : ℕ} (waits : followed.point = .select roomId seen)
    (drained : seen = (sent followed.runtime.published roomId).length) :
    ∃ initial rest, followed.delivered = .snapshot initial :: rest ∧
      ∀ place entry, initial.readAt ≤ place → followed.runtime.published.reverse[place]? = some entry →
        SameRoom entry.1 roomId → account.settled followed.delivered place entry.2 := by
  have follows := follows_of_run account run
  rw [waits] at follows
  generalize followed.delivered = delivered at follows ⊢
  cases follows with
  | select kept =>
    subst drained
    exact ⟨_, _, rfl, fun place entry later held same => kept.drained later held same⟩

/-- In a run in which every event of the room, from the first reading on, goes to a channel that the stream
reads, a stream that waits with nothing left in its receiver has yielded a first snapshot, and every event
published for the room since it was read, or a snapshot that was read after that event. -/
theorem madeUp_of_keepsUp (run : ((followMachine store secret).guard KeepsUp).Run labels followed) {roomId : String}
    {seen : ℕ} (waits : followed.point = .select roomId seen)
    (drained : seen = (sent followed.runtime.published roomId).length) :
    ∃ initial rest, followed.delivered = .snapshot initial :: rest ∧
      ∀ place entry, initial.readAt ≤ place → followed.runtime.published.reverse[place]? = some entry →
        SameRoom entry.1 roomId → MadeUp followed.delivered place entry.2 :=
  settled_of_run madeUp run waits drained

end Runs

def Sample.followed : Followed := ⟨runtime, .authorize, []⟩

theorem Sample.followed_initial (secret : String) : (followMachine store secret).Initial followed :=
  ⟨runtime_initial, rfl, rfl⟩

/-- A guest joins the sample room and opens a stream, which reads its first snapshot. -/
def Sample.following : List FollowLabel :=
  let next := FollowLabel.stream (.advance (draws 6 30) false)
  [.runtime opening, .runtime (.access (.exchangeInvite (opaqueSecret (.ofNat 3)) "Ada") (draws 4 6) false), next, next]

/-- A turn of the host is accepted and published. -/
def Sample.turning : List FollowLabel := [.begin turn, go 2 0, go 3 0, go 4 0, go 5 0].map .runtime

/-- The stream subscribes, sends its first snapshot, and passes one event on. -/
def Sample.passing : List FollowLabel :=
  let next := FollowLabel.stream (.advance (draws 6 30) false)
  following ++ [next, next] ++ turning ++ [.stream .receive, next]

theorem madeUp_of_keepsUp_turn : ∃ followed,
    ((followMachine Sample.store (opaqueSecret (.ofNat 4))).guard KeepsUp).Run Sample.passing followed ∧
      ∃ initial rest, followed.delivered = .snapshot initial :: rest ∧ rest ≠ [] ∧
        ∀ place entry, initial.readAt ≤ place → followed.runtime.published.reverse[place]? = some entry →
          SameRoom entry.1 Sample.roomId → MadeUp followed.delivered place entry.2 := by
  have begins : ((followMachine Sample.store (opaqueSecret (.ofNat 4))).guard KeepsUp).Initial Sample.followed :=
    Sample.followed_initial (opaqueSecret (.ofNat 4))
  have checked : ∃ followed,
      ((followMachine Sample.store (opaqueSecret (.ofNat 4))).guard KeepsUp).Run Sample.passing followed ∧
        followed.point = .select Sample.roomId 1 ∧ followed.delivered.length = 2 ∧
          1 = (sent followed.runtime.published Sample.roomId).length :=
    Machine.Run.of_check begins (by decide +kernel)
  obtain ⟨followed, run, waits, length, drained⟩ := checked
  obtain ⟨initial, rest, same, made⟩ := madeUp_of_keepsUp run waits drained
  refine ⟨followed, run, initial, rest, same, ?_, made⟩
  rintro rfl
  simp [same] at length

/-- A turn that is published between the reading and the subscription reaches no receiver. -/
example : ∃ followed, (followMachine Sample.store (opaqueSecret (.ofNat 4))).Run (Sample.following ++ Sample.turning ++
      [.stream (.advance (Sample.draws 6 30) false), .stream (.advance (Sample.draws 6 30) false)]) followed ∧
    followed.point = .select Sample.roomId 1 ∧ followed.runtime.published.length = 1 ∧
      followed.delivered.length = 1 ∧ recv (sent followed.runtime.published Sample.roomId) 1 = none :=
  Machine.Run.of_check (Sample.followed_initial _) (by decide +kernel)

end RyuRooms
