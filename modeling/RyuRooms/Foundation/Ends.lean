import RyuRooms.Foundation.Action

/-! # What an action ends in

`Ends` states for one start what holds where an action succeeds and what holds where it fails. Its rules
take an action apart along its sequences, branches, transactions and handlers, so a proof about a program
follows the program.
-/

namespace RyuRooms.Foundation

variable {ε σ α β : Type}

/-- From this state an action succeeds with `ok` or fails with `bad`. -/
def Ends (ok : α → σ → Prop) (bad : ε → σ → Prop) (action : EStateM ε σ α) (source : σ) : Prop :=
  match action source with
  | .ok value target => ok value target
  | .error error target => bad error target

namespace Ends

variable {ok other : α → σ → Prop} {bad worse : ε → σ → Prop} {action : EStateM ε σ α} {source : σ}

theorem of_ok (ends : Ends ok bad action source) {value : α} {target : σ} (acted : action source = .ok value target) :
    ok value target := by
  rw [Ends, acted] at ends
  exact ends

theorem of_error (ends : Ends ok bad action source) {error : ε} {target : σ}
    (acted : action source = .error error target) : bad error target := by
  rw [Ends, acted] at ends
  exact ends

theorem mono (ends : Ends ok bad action source) (okMono : ∀ value target, ok value target → other value target)
    (badMono : ∀ error target, bad error target → worse error target) : Ends other worse action source := by
  rw [Ends] at ends ⊢
  cases acted : action source with
  | ok value target =>
    rw [acted] at ends
    exact okMono value target ends
  | error error target =>
    rw [acted] at ends
    exact badMono error target ends

theorem imp (ends : Ends ok bad action source) (okMono : ∀ value target, ok value target → other value target) :
    Ends other bad action source :=
  ends.mono okMono fun _ _ held => held

theorem and {also : α → σ → Prop} {too : ε → σ → Prop} (ends : Ends ok bad action source)
    (more : Ends also too action source) :
    Ends (fun value target => ok value target ∧ also value target) (fun error target => bad error target ∧ too error target)
      action source := by
  rw [Ends] at ends more ⊢
  cases acted : action source with
  | ok value target | error error target =>
    rw [acted] at ends more
    exact ⟨ends, more⟩

/-- What holds however an action ends holds of the state it leaves. -/
theorem outcome {held : σ → Prop} (ends : Ends (fun _ => held) (fun _ => held) action source) :
    held (outcome action source).2 := by
  cases acted : action source with
  | ok value target =>
    rw [outcome_ok_iff.mpr acted]
    exact ends.of_ok acted
  | error error target =>
    rw [outcome_error_iff.mpr acted]
    exact ends.of_error acted

/-- What only reads leaves the state as it was. -/
theorem of_readOnly (quiet : ReadOnly action) :
    Ends (fun _ target => target = source) (fun _ target => target = source) action source := by
  rw [Ends]
  split
  · next success => exact (quiet.of_ok success).symm
  · next failed => exact (quiet.of_error failed).symm

/-- The rest of a sequence starts where its first action succeeded. -/
theorem bind {next : α → EStateM ε σ β} {last : β → σ → Prop} (ends : Ends ok bad action source)
    (rest : ∀ value middle, ok value middle → Ends last bad (next value) middle) :
    Ends last bad (action >>= next) source := by
  rw [Ends] at ends
  change match EStateM.bind action next source with
    | .ok value target => last value target
    | .error error target => bad error target
  rw [EStateM.bind]
  cases acted : action source with
  | ok value middle =>
    rw [acted] at ends
    exact rest value middle ends
  | error error middle =>
    rw [acted] at ends
    exact ends

theorem map {f : α → β} {last : β → σ → Prop} (ends : Ends (fun value target => last (f value) target) bad action source) :
    Ends last bad (f <$> action) source := by
  rw [Ends] at ends
  change match EStateM.map f action source with
    | .ok value target => last value target
    | .error error target => bad error target
  rw [EStateM.map]
  cases acted : action source <;> rw [acted] at ends <;> exact ends

theorem pure {value : α} (held : ok value source) : Ends ok bad (pure value : EStateM ε σ α) source := held

theorem throw {error : ε} (held : bad error source) : Ends ok bad (throw error : EStateM ε σ α) source := held

theorem get {found : σ → σ → Prop} (held : found source source) : Ends found bad (get : EStateM ε σ σ) source := held

/-- What reads the state goes on with it. -/
theorem get_bind {next : σ → EStateM ε σ β} {last : β → σ → Prop} (rest : Ends last bad (next source) source) :
    Ends last bad (MonadState.get >>= next) source := rest

theorem failIf {condition : Prop} [Decidable condition] {error : ε} {done : Unit → σ → Prop}
    (yes : condition → bad error source) (no : ¬ condition → done () source) :
    Ends done bad (failIf condition error) source := by
  rw [Foundation.failIf]
  split
  · next holds => exact yes holds
  · next refused => exact no refused

theorem orFail {value : Option α} {error : ε} (none : value = none → bad error source)
    (some : ∀ found, value = some found → ok found source) : Ends ok bad (orFail value error) source := by
  cases value with
  | none => exact none rfl
  | some found => exact some found rfl

/-- What is checked first fails, or goes on from the same state. -/
theorem failIf_bind {condition : Prop} [Decidable condition] {error : ε} {next : Unit → EStateM ε σ β} {last : β → σ → Prop}
    (yes : condition → bad error source) (no : ¬ condition → Ends last bad (next ()) source) :
    Ends last bad (Foundation.failIf condition error >>= next) source := by
  rw [Foundation.failIf]
  split
  · next holds => exact yes holds
  · next refused => exact no refused

theorem returnExcept {value : Except ε α} (failed : ∀ error, value = .error error → bad error source)
    (succeeded : ∀ result, value = .ok result → ok result source) : Ends ok bad (returnExcept value) source := by
  cases value with
  | ok result => exact succeeded result rfl
  | error error => exact failed error rfl

theorem modify {change : σ → σ} {done : Unit → σ → Prop} (held : done () (change source)) :
    Ends done bad (modify change : EStateM ε σ Unit) source := held

theorem ite {condition : Prop} [Decidable condition] {first second : EStateM ε σ α}
    (yes : condition → Ends ok bad first source) (no : ¬ condition → Ends ok bad second source) :
    Ends ok bad (if condition then first else second) source := by
  split
  · next taken => exact yes taken
  · next refused => exact no refused

end Ends

end RyuRooms.Foundation
