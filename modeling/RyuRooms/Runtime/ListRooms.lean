import RyuRooms.Runtime.Shown
import RyuRooms.Store.Accepted

/-! # The list of rooms

`list_rooms` reads the ids of the rooms, and a snapshot of each under a lock of its own, while the node goes
on. Rooms are never deleted, so the list has each room that there was when the ids were read, as it was at
some moment since, and the interface leaves none of them out.
-/

namespace RyuRooms

open Foundation

/-- The runtime, and a request for the list. -/
structure Listed where
  runtime : Runtime
  point : ListPoint

/-- A step of the runtime, or of the request. -/
inductive ListLabel where
  | serve (label : Label)
  | list (draws : Draws) (fails : Bool)

/-- The machine of a request for the list that a node takes at any time. -/
def listMachine (store : RoomStore) : Machine Listed ListLabel where
  Initial listed := (∃ lives, (nodeMachine store).Run lives listed.runtime) ∧ listed.point = .ids
  step? listed
    | .serve label => ((runtimeMachine store).step? listed.runtime label).map fun runtime => { listed with runtime }
    | .list draws fails =>
      (listStep? store draws fails listed.runtime.db listed.point).map fun point => { listed with point }

theorem perm_roomIds (db : Db) : db.roomIds.Perm (db.rooms.rows.map RoomRow.id) := by
  have all := List.perm_insertionSort (fun left right => comesFirst RoomRow.updatedAt RoomRow.id left right)
    db.rooms.rows
  rw [Db.roomIds, newest, List.take_of_length_le all.length_eq.le]
  exact all.map _

section Runs

variable (store : RoomStore)

/-- At some step of the request the room was as it is listed. -/
def SeenAs (past : List ListLabel) (room : RoomSnapshot) : Prop :=
  (listMachine store).Once (fun _ listed _ => store.snapshotFrom listed.runtime.db room.id = some room) past

/-- At some step the request read these ids. -/
def Asked (past : List ListLabel) (ids : List String) : Prop :=
  (listMachine store).Once (fun _ listed _ => listed.point = .ids ∧ listed.runtime.db.roomIds = ids) past

/-- What is known of a request for the list. -/
inductive Listing (past : List ListLabel) : Runtime → ListPoint → Prop
  | ids {runtime : Runtime} : Listing past runtime .ids
  | read {runtime : Runtime} {rest : List String} {rooms : List RoomSnapshot}
      (asked : Asked store past (rooms.map RoomSnapshot.id ++ rest))
      (seen : ∀ room ∈ rooms, SeenAs store past room)
      (known : ∀ roomId ∈ rest, runtime.db.hasRoom roomId) : Listing past runtime (.read rest rooms)
  | returned {runtime : Runtime} {rooms : List RoomSnapshot} (asked : Asked store past (rooms.map RoomSnapshot.id))
      (seen : ∀ room ∈ rooms, SeenAs store past room) : Listing past runtime (.returned (.ok rooms))
  | failed {runtime : Runtime} {error : StoreError} (fails : ∃ draws, .list draws true ∈ past) :
      Listing past runtime (.returned (.error error))

variable {store} {past : List ListLabel} {listed next : Listed} {label : ListLabel}

/-- The rooms of a node keep the ids they were given. -/
theorem node_rooted {labels : List NodeLabel} {state : Runtime} (run : (nodeMachine store).Run labels state) :
    state.db.Rooted := by
  refine run.history (fun _ state => state.db.Rooted) ?_ fun _ before label next _ rooted step => ?_
  · rintro state rfl
    exact ⟨by simp [Db.empty], by simp [Db.empty]⟩
  · exact (node_leads step).keeps (fun _ op => Db.Rooted.keeps_action op) rooted

/-- A request for the list is taken by a node. -/
theorem listed_reached (run : (listMachine store).Run past listed) :
    ∃ lives, (nodeMachine store).Run lives listed.runtime := by
  refine run.history (fun _ listed => ∃ lives, (nodeMachine store).Run lives listed.runtime)
    (fun _ initial => initial.1) fun past before label next _ reached step => ?_
  obtain ⟨lives, ran⟩ := reached
  cases label with
  | serve label =>
    obtain ⟨runtime, taken, rfl⟩ := Option.map_eq_some_iff.mp step
    have served : (nodeMachine store).step? before.runtime (.serve label) = some runtime := taken
    exact ⟨lives ++ [.serve label],
      ran.append (Machine.path_cons_iff.mpr ⟨runtime, served, Machine.path_nil_iff.mpr rfl⟩)⟩
  | list draws fails =>
    obtain ⟨point, taken, rfl⟩ := Option.map_eq_some_iff.mp step
    exact ⟨lives, ran⟩

namespace Listing

/-- What the node does meanwhile changes nothing of it. -/
theorem serve {runtime after : Runtime} {point : ListPoint} (listing : Listing store past runtime point)
    (leads : store.Leads runtime.db after.db) (more : List ListLabel) : Listing store (past ++ more) after point := by
  cases listing with
  | ids => exact .ids
  | read asked seen known =>
    refine .read (asked.append more) (fun room member => (seen room member).append more) fun roomId member => ?_
    obtain ⟨events, path⟩ := leads.path
    exact hasRoom_of_path path (known roomId member)
  | returned asked seen => exact .returned (asked.append more) fun room member => (seen room member).append more
  | failed fails =>
    obtain ⟨draws, member⟩ := fails
    exact .failed ⟨draws, List.mem_append_left more member⟩

/-- Each section reads the ids, or one room more. -/
theorem list {draws : Draws} {fails : Bool} {point : ListPoint}
    (run : (listMachine store).Run past listed) (listing : Listing store past listed.runtime listed.point)
    (step : listStep? store draws fails listed.runtime.db listed.point = some point) :
    Listing store (past ++ [.list draws fails]) listed.runtime point := by
  obtain ⟨runtime, source⟩ := listed
  cases listing with
  | ids =>
    obtain rfl := Option.some.inj step
    cases fails with
    | true => exact .failed ⟨draws, by simp⟩
    | false =>
      refine .read (run.once ⟨rfl, rfl⟩) (by simp) fun roomId member => ?_
      obtain ⟨room, there, rfl⟩ := List.mem_map.mp ((perm_roomIds runtime.db).mem_iff.mp member)
      exact Db.hasRoom_iff.mpr ⟨room, Table.mem_rows.mp there, rfl⟩
  | @read rest rooms asked seen known =>
    cases rest with
    | nil =>
      obtain rfl := Option.some.inj step
      rw [List.append_nil] at asked
      exact .returned (asked.append _) fun room member => (seen room member).append _
    | cons roomId rest =>
      obtain rfl := Option.some.inj step
      cases fails with
      | true => exact .failed ⟨draws, by simp⟩
      | false =>
        obtain ⟨lives, ran⟩ := listed_reached run
        obtain ⟨room, there, rfl⟩ := Db.hasRoom_iff.mp (known roomId List.mem_cons_self)
        have shows : (store.snapshotFrom runtime.db room.id).isSome :=
          RoomStore.snapshotFrom_isSome_iff.mpr (known room.id List.mem_cons_self)
        obtain ⟨snapshot, shown⟩ := Option.isSome_iff_exists.mp shows
        have read : store.snapshot draws.env 0 room.id runtime.db = .ok (some snapshot) runtime.db :=
          RoomStore.snapshot_ok_iff.mpr ⟨room.id, (node_rooted ran).rooms room there, shown, rfl⟩
        have named := (RoomStore.snapshotFrom_currentRun shown).1
        rw [if_neg Bool.false_ne_true, outcome_ok_iff.mpr read]
        refine .read ?_ (fun other member => ?_) fun other member => known other (List.mem_cons_of_mem _ member)
        · rw [List.map_append, List.append_assoc, List.map_singleton, named]
          exact asked.append _
        · rcases List.mem_append.mp member with earlier | last
          · exact (seen other earlier).append _
          · obtain rfl := List.mem_singleton.mp last
            refine run.once ?_
            rw [named]
            exact shown
  | returned => cases step
  | failed => cases step

end Listing

theorem listing_of_run (run : (listMachine store).Run past listed) :
    Listing store past listed.runtime listed.point := by
  refine run.history (fun past listed => Listing store past listed.runtime listed.point) (fun listed initial => ?_)
    fun past source label target ran listing step => ?_
  · rw [initial.2]
    exact .ids
  · cases label with
    | serve label =>
      obtain ⟨runtime, taken, rfl⟩ := Option.map_eq_some_iff.mp step
      exact listing.serve (Runtime.Step.of_step? taken).leads _
    | list draws fails =>
      obtain ⟨point, taken, rfl⟩ := Option.map_eq_some_iff.mp step
      have read := listing.list ran taken
      exact read

end Runs

/-- The list of the sample node, which has one room, is read while a turn of it is accepted. -/
def Sample.listing : List ListLabel :=
  let next := ListLabel.list (draws 6 30) false
  [next] ++ [.begin turn, go 2 0, go 3 0].map ListLabel.serve ++ [next, next]

/-- The list that was returned. -/
def ListPoint.rooms? : ListPoint → Option (List RoomSnapshot)
  | returned answer => answer.toOption
  | ids | read _ _ => none

theorem ListPoint.eq_returned {point : ListPoint} {rooms : List RoomSnapshot} (held : point.rooms? = some rooms) :
    point = .returned (.ok rooms) := by
  cases point with
  | returned answer =>
    cases answer with
    | ok found => exact congrArg (returned ∘ Except.ok) (Option.some.inj held)
    | error => cases held
  | ids | read => cases held

end RyuRooms
