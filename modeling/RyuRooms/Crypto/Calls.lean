import RyuRooms.Model.ContentSqlite

/-! # What a call leaves on the disk

`Leaves` is the triple of a call: what holds of its result and the disk where it returns, and of the disk
where it stops. A call in an environment without stops must be shown to return.
-/

namespace RyuRooms.Crypto

open Foundation

/-- An environment in which an operation can fail or the process can die. -/
def Environment.Stops (env : Environment) : Prop := ∃ point stop, env.stops point = some stop

/-- From this disk, at any point, a call returns with `ok` or stops with `bad`. -/
def Leaves {α : Type} (ok : α → Disk → Prop) (bad : Disk → Prop) (call : Call α) (disk : Disk) : Prop :=
  ∀ point, Ends (fun value world => ok value world.disk) (fun _ world => bad world.disk) call ⟨disk, point⟩

namespace Leaves

variable {α β : Type} {env : Environment} {ok other : α → Disk → Prop} {bad worse : Disk → Prop} {call : Call α}
  {disk : Disk}

theorem mono (leaves : Leaves ok bad call disk) (okMono : ∀ value target, ok value target → other value target)
    (badMono : ∀ target, bad target → worse target) : Leaves other worse call disk := fun point =>
  (leaves point).mono (fun _ _ held => okMono _ _ held) fun _ _ held => badMono _ held

theorem imp (leaves : Leaves ok bad call disk) (okMono : ∀ value target, ok value target → other value target) :
    Leaves other bad call disk :=
  leaves.mono okMono fun _ held => held

theorem bind {next : α → Call β} {last : β → Disk → Prop} (leaves : Leaves ok bad call disk)
    (rest : ∀ value middle, ok value middle → Leaves last bad (next value) middle) :
    Leaves last bad (call >>= next) disk := fun point =>
  (leaves point).bind fun value middle held => rest value middle.disk held middle.point

theorem pure {value : α} (held : ok value disk) : Leaves ok bad (Pure.pure value : Call α) disk := fun _ => held

theorem failed {message : String} (held : bad disk) : Leaves ok bad (Crypto.failed message : Call α) disk := fun _ => held

theorem ite {condition : Prop} [Decidable condition] {first second : Call α}
    (yes : condition → Leaves ok bad first disk) (no : ¬ condition → Leaves ok bad second disk) :
    Leaves ok bad (if condition then first else second) disk := by
  split
  · next taken => exact yes taken
  · next refused => exact no refused

theorem reach {at_ : ℕ → Disk → Prop} (stopped : env.Stops → bad disk) (held : ∀ point, at_ point disk) :
    Leaves at_ bad (reach env) disk := by
  intro point
  rw [Ends, Crypto.reach]
  cases stops : env.stops point with
  | none => exact held point
  | some stop => exact stopped ⟨point, stop, stops⟩

theorem modify {change : Disk → Disk} {done : Unit → Disk → Prop} (held : done () (change disk)) :
    Leaves done bad (modify fun world => { world with disk := change world.disk }) disk := fun _ => held

theorem statement {change : Disk → Disk} {done : Unit → Disk → Prop} (before : env.Stops → bad disk)
    (after : env.Stops → bad (change disk)) (held : done () (change disk)) :
    Leaves done bad (statement env change) disk := by
  have first : Leaves (fun _ target => target = disk) bad (Crypto.reach env) disk := reach before fun _ => rfl
  refine first.bind fun _ middle here => ?_
  subst here
  have second : Leaves (fun _ target => target = change middle) bad
      (MonadState.modifyGet fun world : World => ((), { world with disk := change world.disk })) middle := fun _ => rfl
  refine second.bind fun _ target changed => ?_
  subst changed
  have third : Leaves (fun _ target => target = change middle) bad (Crypto.reach env) (change middle) :=
    reach after fun _ => rfl
  exact third.bind fun _ target same => pure (same ▸ held)

theorem readDisk {found : Disk → Disk → Prop} (stopped : env.Stops → bad disk) (held : found disk disk) :
    Leaves found bad (readDisk env) disk := by
  have first : Leaves (fun _ target => target = disk) bad (Crypto.reach env) disk := reach stopped fun _ => rfl
  refine first.bind fun _ middle here => ?_
  subst here
  exact fun _ => held

/-- A transaction that stops leaves the disk as it was. -/
theorem inTransaction (stopped : env.Stops → bad disk) {body : Call α} (leaves : Leaves ok (fun _ => bad disk) body disk) :
    Leaves ok bad (inTransaction env body) disk := by
  intro point
  have whole : Leaves ok (fun _ => bad disk) (do
      let _ ← Crypto.reach env
      let result ← body
      let _ ← Crypto.reach env
      return result) disk := by
    have first : Leaves (fun _ target => target = disk) (fun _ => bad disk) (Crypto.reach env) disk :=
      reach stopped fun _ => rfl
    refine first.bind fun _ middle here => ?_
    subst here
    refine leaves.bind fun value target held => ?_
    have last : Leaves (fun _ after => after = target) (fun _ => bad middle) (Crypto.reach env) target :=
      reach stopped fun _ => rfl
    exact last.bind fun _ after same => pure (same ▸ held)
  rw [Ends, Crypto.inTransaction]
  cases acted : (do
      let _ ← Crypto.reach env
      let result ← body
      let _ ← Crypto.reach env
      return result : Call α) ⟨disk, point⟩ with
  | ok value target => exact (whole point).of_ok acted
  | error stop target => exact (whole point).of_error acted

end Leaves

end RyuRooms.Crypto
