import Mathlib.Algebra.BigOperators.Group.List.Basic
import Mathlib.Algebra.Ring.Nat
import RVision.Transition.Machine

/-! What all continuations of a state have in common: how often some kind of action can still
be taken, and what a log can still grow by.
-/

namespace Transition

/-- Replacing one entry of a list trades its weight for that of the new one. -/
theorem sum_map_set {Entry : Type} (weight : Entry → Nat) {entries : List Entry} {index : Nat}
    {old : Entry} (here : entries[index]? = some old) (new : Entry)
    : ((entries.set index new).map weight).sum + weight old
      = (entries.map weight).sum + weight new := by
  induction entries generalizing index with
  | nil => simp at here
  | cons entry rest ih =>
      cases index with
      | zero =>
          obtain rfl : entry = old := by simpa using here
          simp only [List.set_cons_zero, List.map_cons, List.sum_cons]
          omega
      | succ index =>
          have smaller := ih (by simpa using here)
          simp only [List.set_cons_succ, List.map_cons, List.sum_cons]
          omega

/-- Counting is adding up ones. -/
theorem sum_map_toNat {Entry : Type} (counted : Entry → Bool) (entries : List Entry)
    : (entries.map (fun entry => (counted entry).toNat)).sum = entries.countP counted := by
  induction entries with
  | nil => rfl
  | cons entry rest ih =>
      rw [List.map_cons, List.sum_cons, ih, List.countP_cons, Nat.add_comm]
      cases counted entry <;> rfl

/-- `new` is `old` with entries after it that are all allowed. -/
def GrowsBy {Entry : Type} (allowed : Entry → Prop) (old new : List Entry) : Prop :=
  ∃ later, new = old ++ later ∧ ∀ entry ∈ later, allowed entry

section Grows

variable {Entry : Type} {allowed : Entry → Prop} {old middle new : List Entry}

theorem GrowsBy.refl (log : List Entry) : GrowsBy allowed log log :=
  ⟨[], (List.append_nil log).symm, List.forall_mem_nil _⟩

theorem GrowsBy.concat {entry : Entry} (fine : allowed entry)
    : GrowsBy allowed old (old ++ [entry]) :=
  ⟨[entry], rfl, List.forall_mem_singleton.mpr fine⟩

theorem GrowsBy.trans (first : GrowsBy allowed old middle) (second : GrowsBy allowed middle new)
    : GrowsBy allowed old new := by
  obtain ⟨early, rfl, fine⟩ := first
  obtain ⟨late, rfl, finer⟩ := second
  exact ⟨early ++ late, List.append_assoc .., List.forall_mem_append.mpr ⟨fine, finer⟩⟩

end Grows

namespace Machine

variable {State Action : Type} {machine : Machine State Action}

/-- Where every step keeps to the way and the rank pays for its cost out of what the action
adds to it, the rank at the start and all that was added pay for the whole run.
-/
theorem rank_add_cost_le (onWay : State → Prop) (rank : State → Nat) (cost gain : Action → Nat)
    (step : ∀ state action next,
      onWay state
      → machine.step state action = some next
      → onWay next ∧ rank next + cost action ≤ rank state + gain action)
    {state final : State} {actions : List Action} (start : onWay state)
    (ran : machine.runFrom state actions = some final)
    : onWay final
      ∧ rank final + (actions.map cost).sum ≤ rank state + (actions.map gain).sum := by
  induction actions generalizing state with
  | nil =>
      obtain rfl := Option.some.inj ran
      exact ⟨start, Nat.le_refl _⟩
  | cons action rest ih =>
      obtain ⟨next, taken, later⟩ := Option.bind_eq_some_iff.mp ran
      obtain ⟨still, paid⟩ := step state action next start taken
      obtain ⟨there, all⟩ := ih still later
      refine ⟨there, ?_⟩
      simp only [List.map_cons, List.sum_cons]
      omega

/-- Where every step keeps to the way and an action of the counted kind uses up some rank, no
run takes more of them than the rank it starts from.
-/
theorem countP_le_rank (onWay : State → Prop) (rank : State → Nat) (counted : Action → Bool)
    (step : ∀ state action next,
      onWay state
      → machine.step state action = some next
      → onWay next ∧ rank next + (counted action).toNat ≤ rank state)
    {state final : State} {actions : List Action} (start : onWay state)
    (ran : machine.runFrom state actions = some final)
    : onWay final ∧ rank final + actions.countP counted ≤ rank state := by
  obtain ⟨there, paid⟩ := rank_add_cost_le onWay rank (fun action => (counted action).toNat)
    (fun _ => 0) step start ran
  rw [sum_map_toNat] at paid
  exact ⟨there, by simpa using paid⟩

/-- A property that every usable action keeps holds after any run of usable actions. -/
theorem runFrom_invariant_of_usable {motive : State → Prop} {usable : Action → Prop}
    (step : ∀ state action next,
      motive state
      → usable action
      → machine.step state action = some next
      → motive next)
    {state final : State} {actions : List Action} (start : motive state)
    (all : ∀ action ∈ actions, usable action) (ran : machine.runFrom state actions = some final)
    : motive final := by
  induction actions generalizing state with
  | nil =>
      obtain rfl := Option.some.inj ran
      exact start
  | cons action rest ih =>
      obtain ⟨next, taken, later⟩ := Option.bind_eq_some_iff.mp ran
      obtain ⟨fine, others⟩ := List.forall_mem_cons.mp all
      exact ih (step state action next start fine taken) others later

/-- Where every step keeps to the way and appends only allowed entries to the log, so does the
rest of the run.
-/
theorem runFrom_growsBy {Entry : Type} (onWay : State → Prop) (log : State → List Entry)
    {allowed : Entry → Prop}
    (step : ∀ state action next,
      onWay state
      → machine.step state action = some next
      → onWay next ∧ GrowsBy allowed (log state) (log next))
    {state final : State} {actions : List Action} (start : onWay state)
    (ran : machine.runFrom state actions = some final)
    : onWay final ∧ GrowsBy allowed (log state) (log final) := by
  refine runFrom_invariant
    (motive := fun later => onWay later ∧ GrowsBy allowed (log state) (log later)) ran
    ⟨start, .refl _⟩ ?_
  intro middle action next known taken
  obtain ⟨still, grows⟩ := step middle action next known.1 taken
  exact ⟨still, known.2.trans grows⟩

/-- A step that is allowed is one of the guarded machine. -/
theorem guard_step {allowed : State → Action → Prop}
    [∀ state action, Decidable (allowed state action)] {state next : State} {action : Action}
    (meets : allowed state action) (taken : machine.step state action = some next)
    : (machine.guard allowed).step state action = some next :=
  (if_pos meets).trans taken

-----------------------------------------------------------------------------------------
-- What can still be reached
-----------------------------------------------------------------------------------------

variable (machine) in
/-- Usable actions can lead from `state` to the goal. -/
def Leads (usable : Action → Prop) (state : State) (goal : State → Prop) : Prop :=
  ∃ actions final,
    (∀ action ∈ actions, usable action)
    ∧ machine.runFrom state actions = some final
    ∧ goal final

section Leads

variable {usable : Action → Prop} {state : State} {goal : State → Prop}

theorem Leads.here (done : goal state) : machine.Leads usable state goal :=
  ⟨[], state, List.forall_mem_nil _, rfl, done⟩

theorem Leads.next {action : Action} {next : State} (fine : usable action)
    (taken : machine.step state action = some next) (later : machine.Leads usable next goal)
    : machine.Leads usable state goal := by
  obtain ⟨actions, final, all, ran, done⟩ := later
  refine ⟨action :: actions, final, List.forall_mem_cons.mpr ⟨fine, all⟩, ?_, done⟩
  rw [Machine.runFrom, taken]
  exact ran

theorem Leads.trans {middle : State → Prop} (first : machine.Leads usable state middle)
    (second : ∀ state, middle state → machine.Leads usable state goal)
    : machine.Leads usable state goal := by
  obtain ⟨early, halfway, fine, ran, there⟩ := first
  obtain ⟨late, final, finer, goesOn, done⟩ := second halfway there
  refine ⟨early ++ late, final, List.forall_mem_append.mpr ⟨fine, finer⟩, ?_, done⟩
  rw [runFrom_append, ran]
  exact goesOn

/-- Where another machine follows every usable step, it can be led to what follows the goal. -/
theorem Leads.follow {Other Following : Type} {other : Machine Other Following} {there : Other}
    {usableThere : Following → Prop} (leads : machine.Leads usable state goal)
    (embed : Action → Following) (fine : ∀ action, usable action → usableThere (embed action))
    (followed : State → Other → Prop) (start : followed state there)
    (step : ∀ state action next there,
      followed state there
      → usable action
      → machine.step state action = some next
      → ∃ later, other.step there (embed action) = some later ∧ followed next later)
    : other.Leads usableThere there
        (fun later => ∃ final, followed final later ∧ goal final) := by
  obtain ⟨actions, final, all, ran, done⟩ := leads
  induction actions generalizing state there with
  | nil =>
      obtain rfl := Option.some.inj ran
      exact .here ⟨state, start, done⟩
  | cons action rest ih =>
      obtain ⟨next, taken, goesOn⟩ := Option.bind_eq_some_iff.mp ran
      obtain ⟨mine, others⟩ := List.forall_mem_cons.mp all
      obtain ⟨later, moved, along⟩ := step state action next there start mine taken
      exact .next (fine action mine) moved (ih along others goesOn)

end Leads

end Machine

end Transition
