import Mathlib.Logic.Basic

/-! # Actions that change a state and may fail

`EStateM` keeps the state an action reached also when it fails, which is what a sequence of
autocommitted statements does; `transaction` puts the state back on failure. The inversion lemmas
below take a successful or failed sequence apart one action at a time, so that proofs about a
program cite what each of its actions does and never unfold the monad. `Tears` says that a failure
leaves something behind, and `Keeps` that a property survives every way an action can end.
-/

namespace RyuRooms.Foundation

variable {ε σ α β : Type}

theorem bind_ok_iff {action : EStateM ε σ α} {next : α → EStateM ε σ β} {source target : σ} {result : β} :
    (action >>= next) source = .ok result target ↔
      ∃ value middle, action source = .ok value middle ∧ next value middle = .ok result target := by
  simp only [bind, EStateM.bind]
  cases action source <;> simp [and_assoc]

theorem bind_error_iff {action : EStateM ε σ α} {next : α → EStateM ε σ β} {source target : σ} {error : ε} :
    (action >>= next) source = .error error target ↔
      action source = .error error target ∨
        ∃ value middle, action source = .ok value middle ∧ next value middle = .error error target := by
  simp only [bind, EStateM.bind]
  cases action source <;> simp [and_assoc]

/-- What follows an action runs from where the action ends. -/
theorem bind_eq_of_ok {action : EStateM ε σ α} {next : α → EStateM ε σ β} {source middle : σ} {value : α}
    (acted : action source = .ok value middle) : (action >>= next) source = next value middle := by
  simp only [bind, EStateM.bind, acted]

/-- What follows an action matters only where the action ends. -/
theorem bind_congr_of_ok {action : EStateM ε σ α} {next other : α → EStateM ε σ β} {source : σ}
    (same : ∀ value middle, action source = .ok value middle → next value middle = other value middle) :
    (action >>= next) source = (action >>= other) source := by
  cases acted : action source with
  | ok value middle => rw [bind_eq_of_ok acted, bind_eq_of_ok acted, same value middle acted]
  | error error middle => simp only [bind, EStateM.bind, acted]

/-- An action can be replaced by one that ends the same way. -/
theorem bind_congr_of_eq {action other : EStateM ε σ α} {next : α → EStateM ε σ β} {source : σ}
    (same : action source = other source) : (action >>= next) source = (other >>= next) source := by
  simp only [bind, EStateM.bind, same]

/-- An action that fails is not followed. -/
theorem bind_eq_of_error {action : EStateM ε σ α} {next : α → EStateM ε σ β} {source middle : σ} {error : ε}
    (failed : action source = .error error middle) : (action >>= next) source = .error error middle := by
  simp only [bind, EStateM.bind, failed]

@[simp] theorem map_ok_iff {action : EStateM ε σ α} {f : α → β} {source target : σ} {result : β} :
    (f <$> action) source = .ok result target ↔ ∃ value, action source = .ok value target ∧ f value = result := by
  simp only [Functor.map, EStateM.map]
  cases action source <;> simp [and_assoc, and_comm]

@[simp] theorem map_error_iff {action : EStateM ε σ α} {f : α → β} {source target : σ} {error : ε} :
    (f <$> action) source = .error error target ↔ action source = .error error target := by
  simp only [Functor.map, EStateM.map]
  cases action source <;> simp

@[simp] theorem pure_ok_iff {value result : α} {source target : σ} :
    (pure value : EStateM ε σ α) source = .ok result target ↔ value = result ∧ source = target := by
  simp [pure, EStateM.pure]

@[simp] theorem pure_ne_error {value : α} {error : ε} {source target : σ} :
    (pure value : EStateM ε σ α) source ≠ .error error target := by
  simp [pure, EStateM.pure]

@[simp] theorem throw_error_iff {error thrown : ε} {source target : σ} :
    (throw thrown : EStateM ε σ α) source = .error error target ↔ thrown = error ∧ source = target := by
  change (.error thrown source : EStateM.Result ε σ α) = .error error target ↔ _
  rw [EStateM.Result.error.injEq]

@[simp] theorem throw_ne_ok {thrown : ε} {result : α} {source target : σ} :
    (throw thrown : EStateM ε σ α) source ≠ .ok result target := nofun

@[simp] theorem mapError_eq_ok_iff {ζ : Type} {value : Except ε α} {f : ε → ζ} {result : α} :
    value.mapError f = .ok result ↔ value = .ok result := by
  cases value with
  | ok value =>
    change (Except.ok value : Except ζ α) = .ok result ↔ _
    rw [Except.ok.injEq, Except.ok.injEq]
  | error error => exact iff_of_false nofun nofun

theorem isOk_iff {value : Except ε α} : value.isOk ↔ ∃ result, value = .ok result := by
  cases value with
  | ok value => exact iff_of_true rfl ⟨value, rfl⟩
  | error error => exact iff_of_false nofun nofun

theorem elim_eq_ok_iff {value : Option α} {error : ε} {result : α} :
    value.elim (.error error) .ok = (.ok result : Except ε α) ↔ value = some result := by
  cases value <;> simp

/-- A sequence of results that are computed without a state. -/
theorem bind_eq_ok_iff {action : Except ε α} {next : α → Except ε β} {result : β} :
    (action >>= next) = .ok result ↔ ∃ value, action = .ok value ∧ next value = .ok result := by
  cases action with
  | ok value =>
    change next value = .ok result ↔ _
    simp
  | error error => exact iff_of_false nofun nofun

/-- A result that was computed without the state. -/
def returnExcept : Except ε α → EStateM ε σ α
  | .ok value => pure value
  | .error error => throw error

@[simp] theorem returnExcept_ok_iff {value : Except ε α} {result : α} {source target : σ} :
    returnExcept value source = .ok result target ↔ value = .ok result ∧ source = target := by
  cases value <;> simp [returnExcept]

@[simp] theorem returnExcept_error_iff {value : Except ε α} {error : ε} {source target : σ} :
    returnExcept value source = .error error target ↔ value = .error error ∧ source = target := by
  cases value <;> simp [returnExcept]

/-- Fail when a condition holds. -/
def failIf (condition : Prop) [Decidable condition] (error : ε) : EStateM ε σ Unit :=
  if condition then throw error else pure ()

@[simp] theorem failIf_ok_iff {condition : Prop} [Decidable condition] {thrown : ε} {result : Unit}
    {source target : σ} :
    failIf condition thrown source = .ok result target ↔ ¬ condition ∧ source = target := by
  by_cases holds : condition <;> simp [failIf, holds]

@[simp] theorem failIf_error_iff {condition : Prop} [Decidable condition] {thrown error : ε}
    {source target : σ} :
    failIf condition thrown source = .error error target ↔
      condition ∧ thrown = error ∧ source = target := by
  by_cases holds : condition <;> simp [failIf, holds]

/-- The value of an option, or a failure. -/
def orFail (value : Option α) (error : ε) : EStateM ε σ α :=
  match value with
  | some value => pure value
  | none => throw error

@[simp] theorem orFail_ok_iff {value : Option α} {thrown : ε} {result : α} {source target : σ} :
    orFail value thrown source = .ok result target ↔ value = some result ∧ source = target := by
  cases value <;> simp [orFail]

@[simp] theorem orFail_error_iff {value : Option α} {thrown error : ε} {source target : σ} :
    orFail value thrown source = .error error target ↔
      value = none ∧ thrown = error ∧ source = target := by
  cases value <;> simp [orFail]

/-- Run an action and put the state back when it fails. -/
def transaction (action : EStateM ε σ α) : EStateM ε σ α := fun source =>
  match action source with
  | .ok result target => .ok result target
  | .error error _ => .error error source

@[simp] theorem transaction_ok_iff {action : EStateM ε σ α} {source target : σ} {result : α} :
    transaction action source = .ok result target ↔ action source = .ok result target := by
  simp only [transaction]
  cases action source <;> simp

theorem transaction_error_iff {action : EStateM ε σ α} {source target : σ} {error : ε} :
    transaction action source = .error error target ↔
      source = target ∧ ∃ middle, action source = .error error middle := by
  simp only [transaction]
  cases action source <;> simp [and_comm]

theorem transaction_congr {action other : EStateM ε σ α} {source : σ} (same : action source = other source) :
    transaction action source = transaction other source := by
  simp only [transaction, same]

/-- The two ways an action ends, as a pair of its outcome and the state it leaves. -/
def outcome (action : EStateM ε σ α) (source : σ) : Except ε α × σ :=
  match action source with
  | .ok result target => (.ok result, target)
  | .error error target => (.error error, target)

@[simp] theorem outcome_ok_iff {action : EStateM ε σ α} {source target : σ} {result : α} :
    outcome action source = (.ok result, target) ↔ action source = .ok result target := by
  simp only [outcome]
  cases action source <;> simp

@[simp] theorem outcome_error_iff {action : EStateM ε σ α} {source target : σ} {error : ε} :
    outcome action source = (.error error, target) ↔ action source = .error error target := by
  simp only [outcome]
  cases action source <;> simp

theorem outcome_fst_ok_iff {action : EStateM ε σ α} {source : σ} {result : α} :
    (outcome action source).1 = .ok result ↔ ∃ target, action source = .ok result target := by
  simp only [outcome]
  cases action source <;> simp

theorem exists_ok_of_isOk {action : EStateM ε σ α} {source : σ} (succeeds : (outcome action source).1.isOk) :
    ∃ value, action source = .ok value (outcome action source).2 := by
  cases acted : action source with
  | ok value target => exact ⟨value, by rw [outcome_ok_iff.mpr acted]⟩
  | error error target =>
    rw [outcome_error_iff.mpr acted] at succeeds
    cases succeeds

/-- An action that was evaluated, with what was found in its value and the state it leaves. -/
theorem exists_ok_of_check {action : EStateM ε σ α} {source : σ} {holds : α → σ → Prop}
    [∀ value target, Decidable (holds value target)]
    (checked : (outcome action source).1.toOption.any fun value => decide (holds value (outcome action source).2)) :
    ∃ value target, action source = .ok value target ∧ holds value target := by
  cases acted : action source with
  | ok value target =>
    rw [outcome_ok_iff.mpr acted] at checked
    exact ⟨value, target, rfl, of_decide_eq_true checked⟩
  | error error target =>
    rw [outcome_error_iff.mpr acted] at checked
    cases checked

/-- An action that leaves the state alone, whether or not it fails. -/
def ReadOnly (action : EStateM ε σ α) : Prop := ∀ source, (outcome action source).2 = source

namespace ReadOnly

theorem of_outcomes {action : EStateM ε σ α}
    (success : ∀ source result target, action source = .ok result target → source = target)
    (failure : ∀ source error target, action source = .error error target → source = target) :
    ReadOnly action := by
  intro source
  cases acted : action source with
  | ok result target =>
    rw [outcome_ok_iff.mpr acted]
    exact (success source result target acted).symm
  | error error target =>
    rw [outcome_error_iff.mpr acted]
    exact (failure source error target acted).symm

theorem of_ok {action : EStateM ε σ α} (quiet : ReadOnly action) {source target : σ} {result : α}
    (success : action source = .ok result target) : source = target := by
  rw [← quiet source, outcome_ok_iff.mpr success]

theorem of_error {action : EStateM ε σ α} (quiet : ReadOnly action) {source target : σ} {error : ε}
    (failed : action source = .error error target) : source = target := by
  rw [← quiet source, outcome_error_iff.mpr failed]

theorem returnExcept (value : Except ε α) : ReadOnly (σ := σ) (returnExcept value) :=
  of_outcomes (fun _ _ _ success => (returnExcept_ok_iff.mp success).2) fun _ _ _ failed =>
    (returnExcept_error_iff.mp failed).2

theorem orFail (value : Option α) (error : ε) : ReadOnly (σ := σ) (orFail value error) :=
  of_outcomes (fun _ _ _ success => (orFail_ok_iff.mp success).2) fun _ _ _ failed =>
    (orFail_error_iff.mp failed).2.2

theorem failIf (condition : Prop) [Decidable condition] (error : ε) : ReadOnly (σ := σ) (failIf condition error) :=
  of_outcomes (fun _ _ _ success => (failIf_ok_iff.mp success).2) fun _ _ _ failed =>
    (failIf_error_iff.mp failed).2.2

theorem pure (value : α) : ReadOnly (ε := ε) (σ := σ) (pure value) := fun _ => rfl

theorem map {action : EStateM ε σ α} (quiet : ReadOnly action) (f : α → β) : ReadOnly (f <$> action) :=
  of_outcomes (fun _ _ _ success => let ⟨_, acted, _⟩ := map_ok_iff.mp success; quiet.of_ok acted)
    fun _ _ _ failed => quiet.of_error (map_error_iff.mp failed)

/-- What only reads adds nothing to what an action before it wrote. -/
theorem outcome_bind {action : EStateM ε σ α} {next : α → EStateM ε σ β}
    (quiet : ∀ value, ReadOnly (next value)) (source : σ) :
    (outcome (action >>= next) source).2 = (outcome action source).2 := by
  cases acted : action source with
  | ok value middle =>
    have after := quiet value middle
    simp only [outcome, bind, EStateM.bind, acted] at after ⊢
    exact after
  | error error middle => simp only [outcome, bind, EStateM.bind, acted]

theorem bind {action : EStateM ε σ α} {next : α → EStateM ε σ β} (first : ReadOnly action)
    (rest : ∀ value, ReadOnly (next value)) : ReadOnly (action >>= next) := fun source =>
  (outcome_bind rest source).trans (first source)

end ReadOnly

section Tears

/-- An action fails. -/
def Fails (action : EStateM ε σ α) (source : σ) : Prop := ∃ error target, action source = .error error target

/-- An action fails and leaves a state other than `origin` behind. -/
def Tears (origin : σ) (action : EStateM ε σ α) (source : σ) : Prop :=
  ∃ error target, action source = .error error target ∧ target ≠ origin

variable {origin source : σ}

theorem fails_bind_iff {action : EStateM ε σ α} {next : α → EStateM ε σ β} :
    Fails (action >>= next) source ↔
      Fails action source ∨ ∃ value middle, action source = .ok value middle ∧ Fails (next value) middle := by
  simp only [Fails, bind_error_iff]
  constructor
  · rintro ⟨error, target, failed | ⟨value, middle, success, failed⟩⟩
    · exact Or.inl ⟨error, target, failed⟩
    · exact Or.inr ⟨value, middle, success, error, target, failed⟩
  · rintro (⟨error, target, failed⟩ | ⟨value, middle, success, error, target, failed⟩)
    · exact ⟨error, target, Or.inl failed⟩
    · exact ⟨error, target, Or.inr ⟨value, middle, success, failed⟩⟩

/-- A sequence tears where its first action does, or where the rest does after it. -/
theorem tears_bind_iff {action : EStateM ε σ α} {next : α → EStateM ε σ β} :
    Tears origin (action >>= next) source ↔
      Tears origin action source ∨
        ∃ value middle, action source = .ok value middle ∧ Tears origin (next value) middle := by
  simp only [Tears, bind_error_iff]
  constructor
  · rintro ⟨error, target, failed | ⟨value, middle, success, failed⟩, changed⟩
    · exact Or.inl ⟨error, target, failed, changed⟩
    · exact Or.inr ⟨value, middle, success, error, target, failed, changed⟩
  · rintro (⟨error, target, failed, changed⟩ | ⟨value, middle, success, error, target, failed, changed⟩)
    · exact ⟨error, target, Or.inl failed, changed⟩
    · exact ⟨error, target, Or.inr ⟨value, middle, success, failed⟩, changed⟩

/-- When the rest of a sequence fails or not whatever came before, so does the whole. -/
theorem fails_bind_of_forall {action : EStateM ε σ α} {next : α → EStateM ε σ β} {condition : Prop}
    (rest : ∀ value middle, Fails (next value) middle ↔ condition) :
    Fails (action >>= next) source ↔ Fails action source ∨ condition := by
  rw [fails_bind_iff]
  simp only [rest]
  cases acted : action source <;> simp [Fails, acted]

@[simp] theorem fails_returnExcept_iff {value : Except ε α} :
    Fails (returnExcept value) source ↔ ∃ error, value = .error error := by
  simp [Fails]

@[simp] theorem fails_orFail_iff {value : Option α} {error : ε} :
    Fails (orFail value error) source ↔ value = none := by
  simp [Fails]

@[simp] theorem fails_map_iff {action : EStateM ε σ α} {f : α → β} :
    Fails (f <$> action) source ↔ Fails action source := by
  simp [Fails]

@[simp] theorem tears_map_iff {action : EStateM ε σ α} {f : α → β} :
    Tears origin (f <$> action) source ↔ Tears origin action source := by
  simp [Tears]

@[simp] theorem not_fails_pure (value : α) : ¬ Fails (pure value : EStateM ε σ α) source := by
  simp [Fails]

@[simp] theorem not_tears_pure (value : α) : ¬ Tears origin (pure value : EStateM ε σ α) source := by
  simp [Tears]

/-- What only reads tears where it fails, if the state is no longer the original one. -/
theorem ReadOnly.tears_iff {action : EStateM ε σ α} (quiet : ReadOnly action) :
    Tears origin action source ↔ Fails action source ∧ source ≠ origin := by
  constructor
  · rintro ⟨error, target, failed, changed⟩
    exact ⟨⟨error, target, failed⟩, quiet.of_error failed ▸ changed⟩
  · rintro ⟨⟨error, target, failed⟩, changed⟩
    exact ⟨error, target, failed, quiet.of_error failed ▸ changed⟩

theorem ReadOnly.fails_iff {action : EStateM ε σ α} (quiet : ReadOnly action) :
    Fails action source ↔ ¬ ∃ value, action source = .ok value source := by
  cases acted : action source with
  | ok value target =>
    obtain rfl := quiet.of_ok acted
    simp [Fails, acted]
  | error error target => simp [Fails, acted]

theorem ReadOnly.not_tears {action : EStateM ε σ α} (quiet : ReadOnly action) : ¬ Tears source action source :=
  fun torn => (quiet.tears_iff.mp torn).2 rfl

theorem not_tears_transaction (action : EStateM ε σ α) : ¬ Tears source (transaction action) source := by
  rintro ⟨error, target, failed, changed⟩
  exact changed (transaction_error_iff.mp failed).1.symm

/-- When everything after an atomic action only reads, the whole tears exactly where the action changed
something and the rest fails. -/
theorem tears_bind_readOnly_iff {action : EStateM ε σ α} {next : α → EStateM ε σ β}
    (atomic : ¬ Tears source action source) (quiet : ∀ value, ReadOnly (next value)) :
    Tears source (action >>= next) source ↔ ∃ value middle, action source = .ok value middle ∧
      middle ≠ source ∧ Fails (next value) middle := by
  simp only [tears_bind_iff, atomic, false_or, (quiet _).tears_iff, and_comm]

/-- What only reads before the rest of a sequence decides whether the rest runs. -/
theorem ReadOnly.tears_bind_iff {action : EStateM ε σ α} {next : α → EStateM ε σ β} (quiet : ReadOnly action) :
    Tears source (action >>= next) source ↔
      ∃ value, action source = .ok value source ∧ Tears source (next value) source := by
  rw [Foundation.tears_bind_iff, or_iff_right quiet.not_tears]
  constructor
  · rintro ⟨value, middle, success, torn⟩
    obtain rfl := quiet.of_ok success
    exact ⟨value, success, torn⟩
  · rintro ⟨value, success, torn⟩
    exact ⟨value, source, success, torn⟩

end Tears

section Keeps

/-- An action keeps a property of the state, whether or not it fails. -/
def Keeps (holds : σ → Prop) (action : EStateM ε σ α) : Prop :=
  ∀ source, holds source → holds (outcome action source).2

variable {holds : σ → Prop}

theorem ReadOnly.keeps {action : EStateM ε σ α} (quiet : ReadOnly action) : Keeps holds action :=
  fun source held => (quiet source).symm ▸ held

namespace Keeps

theorem of_outcomes {action : EStateM ε σ α}
    (success : ∀ source result target, holds source → action source = .ok result target → holds target)
    (failure : ∀ source error target, holds source → action source = .error error target → holds target) :
    Keeps holds action := by
  intro source held
  cases acted : action source with
  | ok result target =>
    rw [outcome_ok_iff.mpr acted]
    exact success source result target held acted
  | error error target =>
    rw [outcome_error_iff.mpr acted]
    exact failure source error target held acted

theorem of_ok {action : EStateM ε σ α} (keeps : Keeps holds action) {source target : σ} {result : α}
    (held : holds source) (success : action source = .ok result target) : holds target := by
  have after := keeps source held
  rwa [outcome_ok_iff.mpr success] at after

theorem of_error {action : EStateM ε σ α} (keeps : Keeps holds action) {source target : σ} {error : ε}
    (held : holds source) (failed : action source = .error error target) : holds target := by
  have after := keeps source held
  rwa [outcome_error_iff.mpr failed] at after

/-- What keeps a property that the original state lacks tears wherever it fails. -/
theorem tears_iff {action : EStateM ε σ α} (keeps : Keeps holds action) {origin source : σ} (held : holds source)
    (lacks : ¬ holds origin) : Tears origin action source ↔ Fails action source := by
  constructor
  · rintro ⟨error, target, failed, -⟩
    exact ⟨error, target, failed⟩
  · rintro ⟨error, target, failed⟩
    exact ⟨error, target, failed, fun same => lacks (same ▸ keeps.of_error held failed)⟩

theorem bind {action : EStateM ε σ α} {next : α → EStateM ε σ β} (first : Keeps holds action)
    (rest : ∀ value, Keeps holds (next value)) : Keeps holds (action >>= next) :=
  of_outcomes
    (fun _ _ _ held success =>
      let ⟨value, _, acted, followed⟩ := bind_ok_iff.mp success
      (rest value).of_ok (first.of_ok held acted) followed)
    fun _ _ _ held failed => by
      rcases bind_error_iff.mp failed with failed | ⟨value, _, acted, followed⟩
      · exact first.of_error held failed
      · exact (rest value).of_error (first.of_ok held acted) followed

/-- The rest of a sequence may use what its first action promises of its value. -/
theorem bind_of {action : EStateM ε σ α} {next : α → EStateM ε σ β} (promised : α → Prop) (first : Keeps holds action)
    (gives : ∀ source value target, holds source → action source = .ok value target → promised value)
    (rest : ∀ value, promised value → Keeps holds (next value)) : Keeps holds (action >>= next) :=
  of_outcomes
    (fun _ _ _ held success =>
      let ⟨value, _, acted, followed⟩ := bind_ok_iff.mp success
      (rest value (gives _ _ _ held acted)).of_ok (first.of_ok held acted) followed)
    fun _ _ _ held failed => by
      rcases bind_error_iff.mp failed with failed | ⟨value, _, acted, followed⟩
      · exact first.of_error held failed
      · exact (rest value (gives _ _ _ held acted)).of_error (first.of_ok held acted) followed

theorem map {action : EStateM ε σ α} (keeps : Keeps holds action) (f : α → β) : Keeps holds (f <$> action) :=
  of_outcomes
    (fun _ _ _ held success => let ⟨_, acted, _⟩ := map_ok_iff.mp success; keeps.of_ok held acted)
    fun _ _ _ held failed => keeps.of_error held (map_error_iff.mp failed)

theorem transaction {action : EStateM ε σ α} (keeps : Keeps holds action) : Keeps holds (transaction action) :=
  of_outcomes (fun _ _ _ held success => keeps.of_ok held (transaction_ok_iff.mp success))
    fun _ _ _ held failed => (transaction_error_iff.mp failed).1 ▸ held

end Keeps

end Keeps

end RyuRooms.Foundation
