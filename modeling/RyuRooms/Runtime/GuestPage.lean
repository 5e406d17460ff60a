import RyuRooms.Client.Schemas
import RyuRooms.Model.GuestPage
import RyuRooms.Runtime.GuestStream
import RyuRooms.Runtime.Shown

/-! # What the page of a guest shows

A page shows the last snapshot that its stream sent, and the text of the last delta since. A stream that keeps
up and waits with nothing left in its receiver has sent, last of all, what covers everything published for the
room; so the page is not behind any snapshot that was published since the first one was read.
-/

namespace RyuRooms

open Foundation

/-- The text of a status in a snapshot. -/
def RoomStatus.text : RoomStatus → String
  | .idle => "idle"
  | .running => "running"
  | .failed => "failed"
  | .closed => "closed"

/-- The text of a role in a message. -/
def MessageRole.text : MessageRole → String
  | .user => "user"
  | .assistant => "assistant"

/-- A snapshot on the page, with the answer that is being written. -/
def RoomSnapshot.view (snapshot : RoomSnapshot) (partialText : String) : RoomView where
  title := String.ofList (snapshot.id.toList.take 16)
  model := snapshot.modelId
  status := snapshot.status.text
  articles := snapshot.messages.map (fun message => (message.role.text, message.text)) ++
    if partialText = "" then [] else [("assistant", partialText)]

namespace Delivery

/-- The snapshot that a frame carries. -/
def snapshot? : Delivery → Option RoomSnapshot
  | .snapshot reading => some reading.snapshot
  | .event _ sent => sent.snapshot?

/-- The text of the answer so far, in a delta. -/
def partialText? : Delivery → Option String
  | .event _ (.turnDelta _ _ _ partialText) => some partialText
  | .event _ _ | .snapshot _ => none

/-- An item that was made after an event, or is it. -/
def Covers (place : ℕ) : Delivery → Prop
  | .event next _ => place ≤ next
  | .snapshot reading => place < reading.readAt

end Delivery

namespace GuestPage

open Schema

variable {stamp : ToRfc3339} {page : GuestPage}

theorem applySnapshot_json {snapshot : RoomSnapshot} (contract : snapshot.contract = CONTRACT) :
    page.applySnapshot (some (snapshot.json stamp)) = ⟨some (snapshot.json stamp), ""⟩ := by
  have taken : field "contract" string (some (snapshot.json stamp)) = some "rooms/1" := by
    rw [RoomSnapshot.json, field_object (by simp)]
    simp [string, contract, CONTRACT]
  rw [applySnapshot, if_pos taken]

/-- A frame with a snapshot replaces what the page had. -/
theorem listen_snapshot {delivery : Delivery} {snapshot : RoomSnapshot} (carries : delivery.snapshot? = some snapshot)
    (contract : snapshot.contract = CONTRACT) :
    page.listen (delivery.frame stamp) = ⟨some (snapshot.json stamp), ""⟩ := by
  cases delivery with
  | snapshot reading =>
    obtain rfl := Option.some.inj carries
    simp [listen, Delivery.frame, applySnapshot_json contract]
  | event place sent =>
    cases sent with
    | turnDelta => cases carries
    | _ =>
      obtain rfl := Option.some.inj carries
      simp [listen, Delivery.frame, RoomEvent.name, RoomEvent.data, Json.get?_object, List.lookup_cons,
        applySnapshot_json contract]

/-- A delta replaces the text of the answer. -/
theorem listen_delta {delivery : Delivery} (carries : delivery.snapshot? = none) :
    page.listen (delivery.frame stamp) = { page with partialText := delivery.partialText?.getD page.partialText } := by
  cases delivery with
  | snapshot reading => cases carries
  | event place sent =>
    cases sent with
    | turnDelta runId requestId delta partialText =>
      have text : field "partialText" string (some (RoomEvent.data stamp (.turnDelta runId requestId delta partialText))) =
          some partialText := by
        rw [RoomEvent.data, field_object (by simp)]
        simp [List.lookup_cons, string]
      simp [listen, Delivery.frame, RoomEvent.name, text, Delivery.partialText?]
    | _ => cases carries

/-- After its last snapshot and some deltas a page shows that snapshot, and the text of the last of them. -/
theorem foldl_listen {before after : List Delivery} {item : Delivery} {snapshot : RoomSnapshot}
    (carries : item.snapshot? = some snapshot) (contract : snapshot.contract = CONTRACT)
    (deltas : ∀ delivery ∈ after, delivery.snapshot? = none) :
    ((before ++ item :: after).map (Delivery.frame stamp)).foldl listen page =
      ⟨some (snapshot.json stamp), ((after.filterMap Delivery.partialText?).getLast?).getD ""⟩ := by
  rw [List.map_append, List.map_cons, List.foldl_append, List.foldl_cons, listen_snapshot carries contract]
  induction after using List.reverseRecOn with
  | nil => rfl
  | append_singleton after delivery ih =>
    rw [List.map_append, List.foldl_append, ih fun other member => deltas other (List.mem_append_left _ member)]
    rw [List.map_singleton, List.foldl_cons, List.foldl_nil, listen_delta (deltas delivery (by simp))]
    cases text : delivery.partialText? <;> simp [text]

theorem render_json {snapshot : RoomSnapshot} {partialText : String} :
    render ⟨some (snapshot.json stamp), partialText⟩ = some (snapshot.view partialText) := by
  have status : string (some snapshot.status.json) = some snapshot.status.text := by cases snapshot.status <;> rfl
  have articles : array article (some (.arr (snapshot.messages.map (RoomMessage.json stamp)))) =
      some (snapshot.messages.map fun message => (message.role.text, message.text)) := by
    refine array_arr fun message _ => ?_
    have role : string (some message.role.json) = some message.role.text := by cases message.role <;> rfl
    have text : string (some (.str message.text)) = some message.text := rfl
    simp [article, RoomMessage.json, field_object, List.lookup_cons, role, text]
  have text (value : String) : string (some (.str value)) = some value := rfl
  simp [render, RoomSnapshot.json, field_object, List.lookup_cons, text, status, articles, RoomSnapshot.view]

end GuestPage

/-- The last item of a kind. -/
def last? (carries : Delivery → Bool) (delivered : List Delivery) : Option Delivery := delivered.reverse.find? carries

section Last

variable {carries : Delivery → Bool} {delivered : List Delivery} {item : Delivery}

theorem last?_append (next : Delivery) :
    last? carries (delivered ++ [next]) = if carries next then some next else last? carries delivered := by
  rw [last?, List.reverse_append, List.reverse_singleton, List.singleton_append, List.find?_cons]
  cases carries next <;> rfl

theorem exists_of_last? (last : last? carries delivered = some item) :
    ∃ before after, delivered = before ++ item :: after ∧ carries item ∧ ∀ other ∈ after, carries other = false := by
  obtain ⟨kind, after, before, same, others⟩ := List.find?_eq_some_iff_append.mp last
  refine ⟨before.reverse, after.reverse, ?_, kind, fun other member => ?_⟩
  · rw [← List.reverse_reverse delivered, same]
    simp
  · simpa using others other (List.mem_reverse.mp member)

theorem last?_isSome (member : item ∈ delivered) (kind : carries item) : (last? carries delivered).isSome := by
  rw [last?, List.find?_isSome]
  exact ⟨item, List.mem_reverse.mpr member, kind⟩

/-- Of all items the last is the last one. -/
theorem last?_true : last? (fun _ => true) delivered = delivered.getLast? := by
  rw [last?, ← List.head?_reverse]
  cases delivered.reverse <;> rfl

end Last

/-- A stream is up to date with events of a kind when the last item of that kind covers them; a snapshot is of
every kind. -/
def upToDate (carries : Delivery → Bool) (readings : ∀ reading, carries (.snapshot reading)) : Account where
  settled delivered place event := carries (.event place event) →
    ∃ item, last? carries delivered = some item ∧ item.Covers place
  own delivered place event kind := ⟨.event place event, by rw [last?_append, if_pos kind], le_refl place⟩
  later delivered place event next sent after settled kind := by
    rw [last?_append]
    split
    · exact ⟨_, rfl, after.le⟩
    · exact settled kind
  reread delivered place event reading earlier _ :=
    ⟨.snapshot reading, by rw [last?_append, if_pos (readings reading)], earlier⟩

/-- What is shown is of this contract. -/
def Shown.Ours : Shown → Prop
  | .snapshot shown => shown.contract = CONTRACT
  | .accepted turn => turn.snapshot.contract = CONTRACT

/-- What an item carries is of this contract. -/
def Delivery.Ours (delivery : Delivery) : Prop := ∀ snapshot ∈ delivery.snapshot?, snapshot.contract = CONTRACT

/-- Whatever was published, a stream has at hand or it has yielded is of this contract. -/
structure Followed.Ours (followed : Followed) : Prop where
  pictured : followed.runtime.Pictured Shown.Ours
  content : ∀ delivery ∈ followed.point.content followed.runtime.published, delivery.Ours
  delivered : ∀ delivery ∈ followed.delivered, delivery.Ours

section Contract

variable {store : RoomStore} {secret : String} {db : Db} {published : List (String × RoomEvent)}

theorem RoomStore.contract_snapshotFrom {roomId : String} {snapshot : RoomSnapshot}
    (shown : store.snapshotFrom db roomId = some snapshot) : snapshot.contract = CONTRACT := by
  obtain ⟨room, -, rfl⟩ := Option.map_eq_some_iff.mp shown
  rfl

theorem ours_shows : store.ShowsOnly db Shown.Ours where
  reads _ _ := RoomStore.contract_snapshotFrom
  accepts _ _ _ _ _ good success := by
    simp only [RoomStore.acceptTurn, bind_ok_iff, orFail_ok_iff, pure_ok_iff] at success
    obtain ⟨run, _, -, message, _, -, rfl, -⟩ := success
    exact good

theorem ours_of_readRoom {draws : Draws} {fails : Bool} {roomId : String} {reading : Reading}
    (reads : readRoom store db draws fails published roomId = some reading) : (Delivery.snapshot reading).Ours := by
  unfold readRoom at reads
  split at reads
  · cases reads
  · split at reads
    · next succeeds =>
      obtain ⟨snapshot, rfl, rfl⟩ := Option.map_eq_some_iff.mp reads
      obtain ⟨target, succeeds⟩ := outcome_fst_ok_iff.mp succeeds
      obtain ⟨id, -, shown, -⟩ := RoomStore.snapshot_ok_iff.mp succeeds
      exact fun _ same => Option.some.inj same ▸ RoomStore.contract_snapshotFrom shown
    · cases reads

theorem ours_of_shows {place : ℕ} {event : RoomEvent} (good : ∀ shown ∈ event.shows, shown.Ours) :
    (Delivery.event place event).Ours := by
  intro snapshot carries
  cases event with
  | turnDelta => cases carries
  | turnAccepted | turnCompleted | turnFailed | turnCanceled | roomClosed =>
    obtain rfl := Option.some.inj carries
    exact good _ rfl

theorem ours_of_run {labels : List FollowLabel} {followed : Followed}
    (run : (followMachine store secret).Run labels followed) : followed.Ours := by
  refine run.invariant (fun start initial => ?_) fun followed label next ours step => ?_
  · obtain ⟨begins, point, delivered⟩ := initial
    exact ⟨⟨by simp [begins.threads], by simp [begins.published]⟩, by simp [point, StreamPoint.content],
      by simp [delivered]⟩
  · cases label with
    | runtime label =>
      obtain ⟨reached, stepped, rfl⟩ := Option.map_eq_some_iff.mp step
      have stepped := Runtime.Step.of_step? stepped
      have pictured := ours.pictured.step stepped ours_shows
      refine ⟨pictured, fun delivery member => ?_, ours.delivered⟩
      rcases stepped.published_cases with same | ⟨-, -, entry, -, -, -, adds⟩
      · exact ours.content delivery (same ▸ member)
      · rw [adds] at member
        rcases content_cons member with earlier | ⟨rfl, -⟩
        · exact ours.content delivery earlier
        · exact ours_of_shows (pictured.published entry (adds ▸ List.mem_cons_self))
    | stream label =>
      obtain ⟨⟨point, yielded⟩, taken, rfl⟩ := Option.map_eq_some_iff.mp step
      have taken := StreamStep.of_step taken
      refine ⟨ours.pictured, fun delivery member => ?_, fun delivery member => ?_⟩
      · rcases taken.content member with earlier | ⟨reading, roomId, draws, fails, rfl, -, -, reads⟩
        · exact ours.content delivery earlier
        · exact ours_of_readRoom reads
      · rcases List.mem_append.mp member with earlier | last
        · exact ours.delivered delivery earlier
        · exact ours.content delivery (taken.yields (Option.mem_toList.mp last)).1

end Contract

section Runs

variable {store : RoomStore} {secret : String} {labels : List FollowLabel} {followed : Followed}

/-- In a run in which every event of the room, from the first reading on, goes to a channel that the stream reads,
the page of a stream that waits with nothing left in its receiver shows a snapshot that covers every snapshot
published for the room since, with the text of the last delta sent after it; and the last item covers all that was
published. -/
theorem page_of_keepsUp (stamp : ToRfc3339) (page : GuestPage)
    (run : ((followMachine store secret).guard KeepsUp).Run labels followed) {roomId : String} {seen : ℕ}
    (waits : followed.point = .select roomId seen)
    (drained : seen = (sent followed.runtime.published roomId).length) :
    ∃ initial rest before item snapshot after,
      followed.delivered = .snapshot initial :: rest ∧ followed.delivered = before ++ item :: after ∧
      item.snapshot? = some snapshot ∧ (∀ delivery ∈ after, delivery.snapshot? = none) ∧
      ((followed.delivered.map (Delivery.frame stamp)).foldl GuestPage.listen page).render =
        some (snapshot.view ((after.filterMap Delivery.partialText?).getLast?.getD "")) ∧
      ∀ place entry, initial.readAt ≤ place → followed.runtime.published.reverse[place]? = some entry →
        SameRoom entry.1 roomId → (entry.2.snapshot?.isSome → item.Covers place) ∧
          ∃ last ∈ followed.delivered.getLast?, last.Covers place := by
  obtain ⟨initial, rest, same, snapshots⟩ :=
    settled_of_run (upToDate (fun delivery => delivery.snapshot?.isSome) fun _ => rfl) run waits drained
  obtain ⟨first, _, again, all⟩ := settled_of_run (upToDate (fun _ => true) fun _ => rfl) run waits drained
  obtain rfl : initial = first := by
    rw [same] at again
    cases again
    rfl
  have shows : (last? (fun delivery => delivery.snapshot?.isSome) followed.delivered).isSome :=
    last?_isSome (same ▸ List.mem_cons_self) rfl
  obtain ⟨item, last⟩ := Option.isSome_iff_exists.mp shows
  obtain ⟨before, after, split, carries, others⟩ := exists_of_last? last
  obtain ⟨snapshot, carries⟩ := Option.isSome_iff_exists.mp carries
  have deltas (delivery : Delivery) (member : delivery ∈ after) : delivery.snapshot? = none := by
    simpa using others delivery member
  have contract : snapshot.contract = CONTRACT :=
    (ours_of_run run.of_guard).delivered item (split ▸ List.mem_append_right _ List.mem_cons_self) snapshot carries
  refine ⟨initial, rest, before, item, snapshot, after, same, split, carries, deltas, ?_, ?_⟩
  · rw [split, GuestPage.foldl_listen carries contract deltas, GuestPage.render_json]
  · intro place entry later held room
    constructor
    · intro isSnapshot
      obtain ⟨found, isLast, covers⟩ := snapshots place entry later held room isSnapshot
      obtain rfl : item = found := Option.some.inj (last.symm.trans isLast)
      exact covers
    · obtain ⟨found, isLast, covers⟩ := all place entry later held room rfl
      exact ⟨found, last?_true ▸ isLast, covers⟩

end Runs

theorem page_of_keepsUp_turn : ∃ followed,
    ((followMachine Sample.store (opaqueSecret (.ofNat 4))).guard KeepsUp).Run Sample.passing followed ∧
    ∃ initial rest before item snapshot after,
      followed.delivered = .snapshot initial :: rest ∧ followed.delivered = before ++ item :: after ∧
      item.snapshot? = some snapshot ∧ (∀ delivery ∈ after, delivery.snapshot? = none) ∧
      ((followed.delivered.map (Delivery.frame Rfc3339.toRfc3339)).foldl GuestPage.listen ⟨none, ""⟩).render =
        some (snapshot.view ((after.filterMap Delivery.partialText?).getLast?.getD "")) ∧
      ∀ place entry, initial.readAt ≤ place → followed.runtime.published.reverse[place]? = some entry →
        SameRoom entry.1 Sample.roomId → (entry.2.snapshot?.isSome → item.Covers place) ∧
          ∃ last ∈ followed.delivered.getLast?, last.Covers place := by
  have begins : ((followMachine Sample.store (opaqueSecret (.ofNat 4))).guard KeepsUp).Initial Sample.followed :=
    Sample.followed_initial (opaqueSecret (.ofNat 4))
  have checked : ∃ followed,
      ((followMachine Sample.store (opaqueSecret (.ofNat 4))).guard KeepsUp).Run Sample.passing followed ∧
        followed.point = .select Sample.roomId 1 ∧ 1 = (sent followed.runtime.published Sample.roomId).length :=
    Machine.Run.of_check begins (by decide +kernel)
  obtain ⟨followed, run, waits, drained⟩ := checked
  exact ⟨followed, run, page_of_keepsUp Rfc3339.toRfc3339 ⟨none, ""⟩ run waits drained⟩

end RyuRooms
