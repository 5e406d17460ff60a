import RyuRooms.Model.Sample
import RyuRooms.Store.Committed

/-! # When a failed call leaves the tables alone

`Op.IsTorn` collects the conditions of the single operations. In every state that calls can reach,
whatever failed on the way, a call leaves the tables as they were in case of an error exactly when it is
not torn. Revoking an invite whose second statement fails is the example that matters most: the guest
who was to be shut out keeps a session.
-/

namespace RyuRooms

open Foundation

namespace RoomStore

variable {store : RoomStore} {env : Env} {source : Db}

theorem admitGuest_atomic {inviteDigest sessionDigest : List UInt8} {participantId sealedName : String} :
    ¬ Tears source (admitGuest env inviteDigest sessionDigest participantId sealedName) source :=
  not_tears_transaction _

/-- Exchanging an invite ends with its commit. -/
theorem exchangeInvite_atomic {raw displayName : String} :
    ¬ Tears source (store.exchangeInvite env raw displayName) source := by
  simp only [exchangeInvite, orInvalid, tears_returnExcept_bind, tears_failIf_bind, tears_sealCell_bind,
    tears_bind_readOnly_iff admitGuest_atomic fun _ => .pure _, not_fails_pure, ne_eq, not_true_eq_false, and_false,
    exists_false, or_self, not_false_eq_true]

/-- Issuing an invite ends with its commit. -/
theorem issueInvite_atomic {roomId : String} : ¬ Tears source (store.issueInvite env roomId) source := by
  simp only [issueInvite, tears_returnExcept_bind,
    tears_bind_readOnly_iff (not_tears_transaction _) fun _ => .pure _, not_fails_pure, ne_eq, not_true_eq_false,
    and_false, exists_false, or_self, not_false_eq_true]

end RoomStore

namespace Op

/-- A call returns an error after one of its statements changed the tables. -/
def IsTorn (store : RoomStore) (env : Env) (db : Db) : Op → Prop
  | createRoom input => ∃ modelId origin, store.TornCreate env db input modelId origin
  | exchangeInvite _ _ => False
  | issueInvite _ => False
  | revokeInvite roomId => ∃ id, RoomStore.TornRevoke env db roomId id
  | appendUserTurn session input => ∃ text key, store.TornTurn env db session input text key
  | appendDelta roomId runId delta => ∃ current run, store.TornDelta env db roomId runId delta current run
  | finishRun roomId runId terminal _ => ∃ id text run, store.TornFinish env db roomId runId terminal id text run
  | stopRun roomId runId => ∃ id, store.TornStop env db roomId runId id
  | closeRoom roomId => ∃ id, RoomStore.TornClose env db roomId id
  | recoverRunning => ∃ runId rest, store.TornRecovery env db runId rest

variable {store : RoomStore} {env : Env} {db : Db}

theorem tears_iff (lawful : store.sealing.Lawful) (rooted : db.Rooted) (op : Op) :
    Tears db (op.action store env) db ↔ op.IsTorn store env db := by
  cases op with
  | createRoom input => exact tears_map_iff.trans RoomStore.createRoom_tears_iff
  | exchangeInvite raw displayName =>
    exact tears_map_iff.trans (iff_of_false RoomStore.exchangeInvite_atomic not_false)
  | issueInvite roomId => exact tears_map_iff.trans (iff_of_false RoomStore.issueInvite_atomic not_false)
  | revokeInvite roomId => exact tears_map_iff.trans RoomStore.revokeInvite_tears_iff
  | appendUserTurn session input => exact tears_map_iff.trans (RoomStore.appendUserTurn_tears_iff lawful rooted)
  | appendDelta roomId runId delta => exact tears_map_iff.trans (RoomStore.appendDelta_tears_iff lawful)
  | finishRun roomId runId terminal ends =>
    have inactive : terminal.status.isActive = false := by rcases ends with ends | ends <;> rw [ends] <;> rfl
    exact tears_map_iff.trans (RoomStore.finishRun_tears_iff inactive rooted)
  | stopRun roomId runId => exact tears_map_iff.trans RoomStore.stopRun_tears_iff
  | closeRoom roomId => exact tears_map_iff.trans RoomStore.closeRoom_tears_iff
  | recoverRunning => exact tears_map_iff.trans RoomStore.recoverRunning_tears_iff

end Op

/-- A guest joins the sample room. -/
def Sample.guestJoins : List Attempt :=
  [⟨.compat, (draws 1 10).env, .createRoom ⟨"llama", origin⟩⟩,
    ⟨.compat, (draws 4 20).env, .exchangeInvite (opaqueSecret (.ofNat 3)) "Ada"⟩]

/-- The host revokes the invite of the sample room. -/
def Sample.shutOut : Op := .revokeInvite (opaqueId "room_" (.ofNat 1))

/-- Surroundings in which the second statement of a call fails. -/
def Sample.secondFails : Env := { draws 6 30 with fault := (· == 1) }

end RyuRooms
