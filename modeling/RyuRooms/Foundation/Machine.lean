import Mathlib.Data.List.Induction

/-! # Finite runs of a labeled machine

A machine is a set of initial states and a partial, computable step. `Path` runs a list of labels
from a state, and `Run` starts one at an initial state, so a run can be evaluated as well as
reasoned about. Paths compose and split at every cut, and a machine that simulates another step by
step simulates its paths. An invariant and a property that only grows
along a run are each packaged once, `Once` speaks of an earlier step of a run, and `guard` restricts
a machine to the steps that meet a condition on the state before them.
-/

namespace RyuRooms.Foundation

/-- A labeled machine whose step is a partial function of the state and the label. -/
structure Machine (σ ε : Type*) where
  Initial : σ → Prop
  step? : σ → ε → Option σ

namespace Machine

variable {σ ε : Type*} (machine : Machine σ ε)

/-- The state a list of labels leads to, when each of them is enabled in turn. -/
def run? (source : σ) (labels : List ε) : Option σ := labels.foldlM machine.step? source

/-- A finite run carrying exactly its labels. -/
def Path (source : σ) (labels : List ε) (target : σ) : Prop :=
  machine.run? source labels = some target

/-- A path from an initial state. -/
def Run (labels : List ε) (target : σ) : Prop :=
  ∃ source, machine.Initial source ∧ machine.Path source labels target

/-- The same machine, allowed only the steps that meet `condition` in the state before them. -/
def guard (condition : σ → ε → Prop) [∀ state label, Decidable (condition state label)] :
    Machine σ ε where
  Initial := machine.Initial
  step? state label := if condition state label then machine.step? state label else none

variable {machine}

@[simp] theorem path_nil_iff {source target : σ} : machine.Path source [] target ↔ source = target := by
  simp [Path, run?]

theorem path_cons_iff {source target : σ} {label : ε} {labels : List ε} :
    machine.Path source (label :: labels) target ↔
      ∃ middle, machine.step? source label = some middle ∧ machine.Path middle labels target := by
  simp [Path, run?, Option.bind_eq_some_iff]

/-- A path can be cut wherever its labels can. -/
theorem path_append_iff {source target : σ} {first second : List ε} :
    machine.Path source (first ++ second) target ↔
      ∃ middle, machine.Path source first middle ∧ machine.Path middle second target := by
  simp [Path, run?, List.foldlM_append, Option.bind_eq_some_iff]

theorem path_snoc_iff {source target : σ} {label : ε} {labels : List ε} :
    machine.Path source (labels ++ [label]) target ↔
      ∃ middle, machine.Path source labels middle ∧ machine.step? middle label = some target := by
  rw [path_append_iff]
  simp only [path_cons_iff, path_nil_iff]
  simp

/-- What the steps of a path add, one after the other. -/
def collect {α : Type*} (machine : Machine σ ε) (adds : σ → σ → List α) : σ → List ε → List α
  | _, [] => []
  | state, label :: labels =>
    match machine.step? state label with
    | some next => adds state next ++ collect machine adds next labels
    | none => []

theorem collect_snoc {α : Type*} {adds : σ → σ → List α} {source middle target : σ} {label : ε} {labels : List ε}
    (path : machine.Path source labels middle) (step : machine.step? middle label = some target) :
    machine.collect adds source (labels ++ [label]) = machine.collect adds source labels ++ adds middle target := by
  induction labels generalizing source with
  | nil =>
    obtain rfl := path_nil_iff.mp path
    simp [collect, step]
  | cons first rest ih =>
    obtain ⟨next, taken, path⟩ := path_cons_iff.mp path
    simp only [List.cons_append, collect, taken, ih path, List.append_assoc]

/-- What every step preserves from where it holds, a path preserves. -/
theorem Path.invariant (Holds : σ → Prop) {source target : σ} {labels : List ε}
    (path : machine.Path source labels target) (start : Holds source)
    (step : ∀ state label next, Holds state → machine.step? state label = some next → Holds next) :
    Holds target := by
  induction labels generalizing source with
  | nil => exact path_nil_iff.mp path ▸ start
  | cons label labels ih =>
    obtain ⟨middle, first, rest⟩ := path_cons_iff.mp path
    exact ih rest (step _ _ _ start first)

/-- What holds initially and is preserved by every step holds in every reachable state. -/
theorem Run.invariant {Holds : σ → Prop} {target : σ} {labels : List ε}
    (run : machine.Run labels target) (start : ∀ state, machine.Initial state → Holds state)
    (step : ∀ state label next, Holds state → machine.step? state label = some next → Holds next) :
    Holds target := by
  obtain ⟨source, initial, path⟩ := run
  exact path.invariant Holds (start source initial) step

/-- A history invariant relates the labels so far to the state they lead to. -/
theorem Run.history (Holds : List ε → σ → Prop) {target : σ} {labels : List ε}
    (run : machine.Run labels target) (start : ∀ state, machine.Initial state → Holds [] state)
    (step : ∀ past state label next, machine.Run past state → Holds past state →
      machine.step? state label = some next → Holds (past ++ [label]) next) : Holds labels target := by
  obtain ⟨source, initial, path⟩ := run
  induction labels using List.reverseRecOn generalizing target with
  | nil => exact path_nil_iff.mp path ▸ start source initial
  | append_singleton past label ih =>
    obtain ⟨middle, before, last⟩ := path_snoc_iff.mp path
    exact step past middle label target ⟨source, initial, before⟩ (ih before) last

theorem Run.nil {state : σ} (initial : machine.Initial state) : machine.Run [] state :=
  ⟨state, initial, path_nil_iff.mpr rfl⟩

/-- Labels that are enabled one after the other are a run. -/
theorem Run.of_isSome {source : σ} {labels : List ε} (initial : machine.Initial source)
    (enabled : (machine.run? source labels).isSome) : ∃ target, machine.Run labels target :=
  let ⟨target, path⟩ := Option.isSome_iff_exists.mp enabled
  ⟨target, source, initial, path⟩

/-- A run that was evaluated, with what was found in the state it leads to. -/
theorem Run.of_check {source : σ} {labels : List ε} (initial : machine.Initial source) {holds : σ → Prop}
    [DecidablePred holds] (checked : (machine.run? source labels).any fun state => decide (holds state)) :
    ∃ target, machine.Run labels target ∧ holds target := by
  obtain ⟨target, path, held⟩ := (Option.any_eq_true _ _).mp checked
  exact ⟨target, ⟨source, initial, path⟩, of_decide_eq_true held⟩

/-- A run extended by a path is a run. -/
theorem Run.append {labels more : List ε} {middle target : σ} (run : machine.Run labels middle)
    (path : machine.Path middle more target) : machine.Run (labels ++ more) target := by
  obtain ⟨source, initial, before⟩ := run
  exact ⟨source, initial, path_append_iff.mpr ⟨middle, before, path⟩⟩

/-- Every cut of a run is a run up to the cut and a path after it. -/
theorem Run.split {first second : List ε} {target : σ} (run : machine.Run (first ++ second) target) :
    ∃ middle, machine.Run first middle ∧ machine.Path middle second target := by
  obtain ⟨source, initial, path⟩ := run
  obtain ⟨middle, before, after⟩ := path_append_iff.mp path
  exact ⟨middle, ⟨source, initial, before⟩, after⟩

/-- A machine whose every step is a path of another, seen through a function, takes paths to paths of the other. -/
theorem Path.simulate {τ δ : Type*} (abstract : Machine τ δ) (sees : σ → τ) {source target : σ} {labels : List ε}
    (path : machine.Path source labels target)
    (step : ∀ state label next, machine.step? state label = some next →
      ∃ events, abstract.Path (sees state) events (sees next)) :
    ∃ events, abstract.Path (sees source) events (sees target) := by
  induction labels generalizing source with
  | nil => exact ⟨[], path_nil_iff.mpr (congrArg sees (path_nil_iff.mp path))⟩
  | cons label labels ih =>
    obtain ⟨middle, first, rest⟩ := path_cons_iff.mp path
    obtain ⟨events, before⟩ := step _ _ _ first
    obtain ⟨more, after⟩ := ih rest
    exact ⟨events ++ more, path_append_iff.mpr ⟨_, before, after⟩⟩

section Once

/-- At some step of a run something happened, given the labels before that step and the state it was taken in. -/
def Once (machine : Machine σ ε) (happens : List ε → σ → ε → Prop) (past : List ε) : Prop :=
  ∃ before state label, before ++ [label] <+: past ∧ machine.Run before state ∧ happens before state label

variable {happens : List ε → σ → ε → Prop} {past : List ε}

/-- What happened once has happened in every longer run. -/
theorem Once.append (once : machine.Once happens past) (more : List ε) : machine.Once happens (past ++ more) := by
  obtain ⟨before, state, label, cut, run, happened⟩ := once
  exact ⟨before, state, label, cut.trans (List.prefix_append past more), run, happened⟩

/-- What happens at the last step of a run happened once. -/
theorem Run.once {state : σ} {label : ε} (run : machine.Run past state) (happened : happens past state label) :
    machine.Once happens (past ++ [label]) :=
  ⟨past, state, label, List.prefix_rfl, run, happened⟩

end Once

section Meets

/-- Every step along some labels meets a condition in the state before it. -/
def Meets (machine : Machine σ ε) (condition : σ → ε → Prop) : σ → List ε → Prop
  | _, [] => True
  | state, label :: labels =>
    condition state label ∧ ∀ next, machine.step? state label = some next → Meets machine condition next labels

/-- What every step that meets a condition preserves, a path of such steps preserves. -/
theorem Path.invariant_of_meets (Holds : σ → Prop) {condition : σ → ε → Prop} {source target : σ} {labels : List ε}
    (path : machine.Path source labels target) (meets : machine.Meets condition source labels) (start : Holds source)
    (step : ∀ state label next, Holds state → condition state label → machine.step? state label = some next →
      Holds next) : Holds target := by
  induction labels generalizing source with
  | nil => exact path_nil_iff.mp path ▸ start
  | cons label labels ih =>
    obtain ⟨middle, first, rest⟩ := path_cons_iff.mp path
    exact ih rest (meets.2 middle first) (step _ _ _ start meets.1 first)

/-- What holds of every label is met along them. -/
theorem Meets.of_forall {condition : σ → ε → Prop} {source : σ} {labels : List ε}
    (all : ∀ label ∈ labels, ∀ state, condition state label) : machine.Meets condition source labels := by
  induction labels generalizing source with
  | nil => trivial
  | cons label labels ih =>
    exact ⟨all label List.mem_cons_self source, fun _ _ => ih fun other member => all other (List.mem_cons_of_mem _ member)⟩

end Meets

section Guard

variable {condition : σ → ε → Prop} [∀ state label, Decidable (condition state label)]

theorem guard_step_iff {state next : σ} {label : ε} :
    (machine.guard condition).step? state label = some next ↔
      condition state label ∧ machine.step? state label = some next := by
  simp only [guard]
  split
  · next met => simp [met]
  · next unmet => simp [unmet]

/-- A guarded path is a path of the machine itself. -/
theorem Path.of_guard {source target : σ} {labels : List ε}
    (path : (machine.guard condition).Path source labels target) : machine.Path source labels target := by
  induction labels generalizing source with
  | nil => exact path_nil_iff.mpr (path_nil_iff.mp path)
  | cons label labels ih =>
    obtain ⟨middle, first, rest⟩ := path_cons_iff.mp path
    exact path_cons_iff.mpr ⟨middle, (guard_step_iff.mp first).2, ih rest⟩

/-- A path is a guarded one as long as its last step and the path before it are. -/
theorem Path.guard_snoc_iff {source middle target : σ} {label : ε} {labels : List ε}
    (path : machine.Path source labels middle) (step : machine.step? middle label = some target) :
    (machine.guard condition).Path source (labels ++ [label]) target ↔
      (machine.guard condition).Path source labels middle ∧ condition middle label := by
  rw [path_snoc_iff]
  constructor
  · rintro ⟨other, guarded, taken⟩
    obtain rfl : other = middle := Option.some.inj (guarded.of_guard.symm.trans path)
    exact ⟨guarded, (guard_step_iff.mp taken).1⟩
  · rintro ⟨guarded, met⟩
    exact ⟨middle, guarded, guard_step_iff.mpr ⟨met, step⟩⟩

theorem Run.of_guard {labels : List ε} {target : σ}
    (run : (machine.guard condition).Run labels target) : machine.Run labels target := by
  obtain ⟨source, initial, path⟩ := run
  exact ⟨source, initial, path.of_guard⟩

end Guard

end Machine

end RyuRooms.Foundation
