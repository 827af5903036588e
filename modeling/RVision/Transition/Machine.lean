import Mathlib.Data.List.Infix

/-! Machines that take one labelled action at a time, and the rules for their runs.
A run is the list of its actions; an action that is not enabled has no successor.
-/

namespace Transition

/-- A machine with one initial state. `step state action` is `none` where `action` is not
enabled in `state`; every interleaving of several threads is one list of actions.
-/
structure Machine (State Action : Type) where
  init : State
  step : State → Action → Option State

namespace Machine

variable {State Action : Type} (machine : Machine State Action)

/-- The state after a list of actions from `state`, if each of them is enabled in turn. -/
def runFrom (state : State) : List Action → Option State
  | [] => some state
  | action :: rest => (machine.step state action).bind (fun next => runFrom next rest)

/-- The state after a list of actions from the initial state. -/
def run (actions : List Action) : Option State :=
  machine.runFrom machine.init actions

/-- Some run of the machine ends in `state`. -/
def Reachable (state : State) : Prop :=
  ∃ actions, machine.run actions = some state

/-- The machine can take `action` in `state`. -/
def Enabled (state : State) (action : Action) : Prop :=
  ∃ next, machine.step state action = some next

variable {machine}

-----------------------------------------------------------------------------------------
-- Runs compose
-----------------------------------------------------------------------------------------

/-- A run over an append is the second part from where the first one ended. -/
theorem runFrom_append (state : State) (head tail : List Action)
    : machine.runFrom state (head ++ tail)
      = (machine.runFrom state head).bind (fun next => machine.runFrom next tail) := by
  induction head generalizing state with
  | nil => rfl
  | cons action rest ih =>
      simp only [List.cons_append, runFrom, Option.bind_assoc]
      congr 1
      funext next
      exact ih next

/-- Invert a run that ends with one more action. -/
theorem run_concat_eq_some {actions : List Action} {action : Action} {final : State}
    : machine.run (actions ++ [action]) = some final
      ↔ ∃ state, machine.run actions = some state
        ∧ machine.step state action = some final := by
  simp [run, runFrom_append, runFrom, Option.bind_eq_some_iff]

/-- Every prefix of a run is a run. -/
theorem run_prefix {head actions : List Action} {final : State}
    (h : machine.run actions = some final) (before : head <+: actions)
    : ∃ state, machine.run head = some state := by
  obtain ⟨tail, rfl⟩ := before
  rw [run, runFrom_append, Option.bind_eq_some_iff] at h
  obtain ⟨state, reached, _⟩ := h
  exact ⟨state, reached⟩

-----------------------------------------------------------------------------------------
-- Invariants
-----------------------------------------------------------------------------------------

/-- Induction over the actions of a run, newest last: the property may speak about the
actions taken so far as well as about the state they lead to.
-/
theorem run_induction {motive : List Action → State → Prop}
    (init : motive [] machine.init)
    (step : ∀ actions state action next,
      machine.run actions = some state
      → motive actions state
      → machine.step state action = some next
      → motive (actions ++ [action]) next)
    {actions : List Action} {final : State} (h : machine.run actions = some final)
    : motive actions final := by
  induction actions using List.reverseRecOn generalizing final with
  | nil =>
      obtain rfl := Option.some.inj h
      exact init
  | append_singleton actions action ih =>
      obtain ⟨state, reached, taken⟩ := run_concat_eq_some.mp h
      exact step actions state action final reached (ih reached) taken

theorem reachable_init : machine.Reachable machine.init := ⟨[], rfl⟩

theorem Reachable.step {state next : State} {action : Action}
    (h : machine.Reachable state) (taken : machine.step state action = some next)
    : machine.Reachable next := by
  obtain ⟨actions, reached⟩ := h
  exact ⟨actions ++ [action], run_concat_eq_some.mpr ⟨state, reached, taken⟩⟩

/-- A property of the initial state that every step keeps holds in every reachable state.
The step may use that its source is itself reachable, so that invariants build on earlier
ones.
-/
theorem Reachable.invariant {motive : State → Prop} {state : State}
    (h : machine.Reachable state) (init : motive machine.init)
    (step : ∀ state action next,
      machine.Reachable state
      → motive state
      → machine.step state action = some next
      → motive next)
    : motive state := by
  obtain ⟨actions, reached⟩ := h
  refine run_induction (motive := fun _ => motive) init ?_ reached
  intro actions state action next before
  exact step state action next ⟨actions, before⟩

/-- A property that every step keeps holds after any run from a state that has it. -/
theorem runFrom_invariant {motive : State → Prop} {state final : State}
    {actions : List Action} (h : machine.runFrom state actions = some final)
    (start : motive state)
    (step : ∀ state action next,
      motive state → machine.step state action = some next → motive next)
    : motive final := by
  induction actions generalizing state with
  | nil =>
      obtain rfl := Option.some.inj h
      exact start
  | cons action rest ih =>
      obtain ⟨next, taken, later⟩ := Option.bind_eq_some_iff.mp h
      exact ih later (step state action next start taken)

theorem Reachable.runFrom {state final : State} {actions : List Action}
    (h : machine.Reachable state) (ran : machine.runFrom state actions = some final)
    : machine.Reachable final :=
  runFrom_invariant ran h (fun _ _ _ reached taken => reached.step taken)

/-- Progress: where every state on the way to the goal has a usable step to a smaller one,
some run of usable steps leads to the goal.
-/
theorem exists_runFrom_of_rank (onWay goal : State → Prop) (rank : State → Nat)
    {usable : Action → Prop}
    (progress : ∀ state, onWay state
      → goal state
        ∨ ∃ action next,
            usable action
            ∧ machine.step state action = some next
            ∧ onWay next
            ∧ rank next < rank state)
    {state : State} (start : onWay state)
    : ∃ actions final,
        (∀ action ∈ actions, usable action)
        ∧ machine.runFrom state actions = some final
        ∧ goal final := by
  induction measure : rank state using Nat.strong_induction_on generalizing state with
  | _ _ ih =>
      rcases progress state start with done | ⟨action, next, fine, taken, still, smaller⟩
      · exact ⟨[], state, by simp, rfl, done⟩
      · obtain ⟨actions, final, all, ran, there⟩ := ih (rank next) (measure ▸ smaller) still rfl
        refine ⟨action :: actions, final, ?_, ?_, there⟩
        · exact List.forall_mem_cons.mpr ⟨fine, all⟩
        · simpa [Machine.runFrom, taken] using ran

/-- A machine whose every step is a step of another one, or leaves its view of it alone,
reaches only views that the other machine reaches.
-/
theorem Reachable.project {Part Label : Type} {part : Machine Part Label} {state : State}
    (h : machine.Reachable state) (view : State → Part)
    (init : part.Reachable (view machine.init))
    (step : ∀ state action next,
      machine.step state action = some next
      → view next = view state
        ∨ ∃ label, part.step (view state) label = some (view next))
    : part.Reachable (view state) := by
  apply h.invariant (motive := fun state => part.Reachable (view state)) init
  intro state action next _ known taken
  rcases step state action next taken with same | ⟨label, moved⟩
  · exact same ▸ known
  · exact known.step moved

/-- Erasing actions: another machine that answers every picked action, and is still related
where nothing is picked, follows a whole run with the picked actions alone.
-/
theorem run_filterMap {Part Label : Type} {part : Machine Part Label}
    {pick : Action → Option Label} {related : State → Part → Prop}
    (init : related machine.init part.init)
    (erased : ∀ state view action next,
      related state view
      → machine.step state action = some next
      → pick action = none
      → related next view)
    (answered : ∀ state view action next label,
      related state view
      → machine.step state action = some next
      → pick action = some label
      → ∃ after, part.step view label = some after ∧ related next after)
    {actions : List Action} {final : State} (h : machine.run actions = some final)
    : ∃ view, part.run (actions.filterMap pick) = some view ∧ related final view := by
  refine run_induction
    (motive := fun actions state =>
      ∃ view, part.run (actions.filterMap pick) = some view ∧ related state view)
    ⟨part.init, rfl, init⟩ ?_ h
  intro actions state action next _ known taken
  obtain ⟨view, followed, agree⟩ := known
  rw [List.filterMap_append]
  cases picked : pick action with
  | none =>
      have nothing : [action].filterMap pick = [] := by simp [picked]
      rw [nothing, List.append_nil]
      exact ⟨view, followed, erased state view action next agree taken picked⟩
  | some label =>
      have one : [action].filterMap pick = [label] := by simp [picked]
      obtain ⟨after, moved, same⟩ := answered state view action next label agree taken picked
      rw [one]
      exact ⟨after, run_concat_eq_some.mpr ⟨view, followed, moved⟩, same⟩

-----------------------------------------------------------------------------------------
-- Runs whose steps all meet a condition
-----------------------------------------------------------------------------------------

variable (machine)

/-- `state` ends a run each of whose steps was allowed where it was taken. -/
inductive ReachableVia (allowed : State → Action → Prop) : State → Prop
  | init : ReachableVia allowed machine.init
  | step {state next : State} {action : Action} (before : ReachableVia allowed state)
    (meets : allowed state action) (taken : machine.step state action = some next)
    : ReachableVia allowed next

variable {machine}

theorem ReachableVia.reachable {allowed : State → Action → Prop} {state : State}
    (h : machine.ReachableVia allowed state)
    : machine.Reachable state := by
  induction h with
  | init => exact reachable_init
  | step _ _ taken ih => exact ih.step taken

section Guard

variable (machine) (allowed : State → Action → Prop)
  [∀ state action, Decidable (allowed state action)]

/-- The machine that takes an action only where it is allowed. -/
def guard : Machine State Action where
  init := machine.init
  step state action := if allowed state action then machine.step state action else none

variable {machine} {allowed}

/-- A run of the guarded machine is a run all of whose steps were allowed. -/
theorem ReachableVia.of_guard {state : State}
    (h : (machine.guard allowed).Reachable state)
    : machine.ReachableVia allowed state := by
  apply h.invariant (motive := machine.ReachableVia allowed) .init
  intro state action next _ before taken
  obtain ⟨meets, taken⟩ := Option.ite_none_right_eq_some.mp taken
  exact before.step meets taken

end Guard

end Machine

end Transition
