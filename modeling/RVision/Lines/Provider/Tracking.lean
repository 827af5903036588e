import Mathlib.Algebra.Ring.Rat
import RVision.Lines.Provider.Pollers
import RVision.Transition.Machine

/-! `add` and `rem` over whole runs. `rem` looks for its poller under another address than
`add` gave it and leaves the cache alone, and `add` updates the score of a sport that is
already there; the two containers stay in step exactly as long as no call runs into that.
-/

namespace RVision.Lines.Provider

open Transition

variable {Score : Type}

/-- A provider with what its callers may expect of it. `tracked` are the sports added and not
removed since; `undo` is the provider before the last step where that added an untracked
sport.
-/
structure TrackingState (Score : Type) where
  provider : LinesProvider Score := {}
  tracked : String → Bool := fun _ => false
  undo : Option (String × LinesProvider Score) := none

inductive TrackingAction (Score : Type)
  | add (sport : String)
  | rem (sport : String)
  | poll (address : String) (score : Score)
deriving DecidableEq, Repr

/-- A poller whose thread was joined in `erase` calls back no more. -/
def trackingStep [Zero Score] (base : String) (s : TrackingState Score)
    : TrackingAction Score → Option (TrackingState Score)
  | .add sport =>
      some {
        provider := s.provider.add base sport
        tracked := Function.update s.tracked sport true
        undo := if s.tracked sport then none else some (sport, s.provider) }
  | .rem sport =>
      some {
        provider := s.provider.rem base sport
        tracked := Function.update s.tracked sport false
        undo := none }
  | .poll address score =>
      (s.provider.pollers.lookup address).map (fun sport =>
        { s with provider := s.provider.pollCallback sport score, undo := none })

def trackingMachine (Score : Type) [Zero Score] (base : String)
    : Machine (TrackingState Score) (TrackingAction Score) where
  init := {}
  step := trackingStep base

def HasPoller (pollers : Pollers) (sport : String) : Prop :=
  ∃ address, pollers.lookup address = some sport

/-- The tracked sports are those with a poller and those in the cache. -/
structure Consistent (s : TrackingState Score) : Prop where
  polled : ∀ sport, HasPoller s.provider.pollers sport ↔ sport ∈ s.provider.cache
  tracked : ∀ sport, sport ∈ s.provider.cache ↔ s.tracked sport = true

/-- What callers may expect of one step: `rem` leaves other sports alone and takes back an
`add` just before it, and a repeated `add` touches neither `inited` nor `last_recv`.
-/
structure Keeps (s : TrackingState Score) (action : TrackingAction Score)
    (next : TrackingState Score) : Prop where
  others
    : ∀ sport other,
        action = .rem sport
        → other ≠ sport
        → (∀ address,
            next.provider.pollers.lookup address = some other
            ↔ s.provider.pollers.lookup address = some other)
          ∧ next.provider.cache.lookup other = s.provider.cache.lookup other
  restores
    : ∀ sport old, action = .rem sport → s.undo = some (sport, old) → next.provider = old
  again
    : ∀ sport item,
        action = .add sport
        → s.tracked sport = true
        → s.provider.cache.lookup sport = some item
        → ∃ after,
            next.provider.cache.lookup sport = some after
            ∧ after.inited = item.inited
            ∧ after.lastRecv = item.lastRecv

/-- The call runs into nothing: a repeated `add` finds the item as it would leave it, and
`rem` finds neither its sport nor the one whose poller it would stop.
-/
def Careful [Zero Score] (s : TrackingState Score) : TrackingAction Score → Prop
  | .add sport =>
      s.tracked sport = true
      → ∀ item ∈ s.provider.cache.lookup sport, item.inited = true ∧ item.lastRecv = 0
  | .rem sport => s.tracked sport = false ∧ s.tracked ("/" ++ sport) = false
  | .poll _ _ => True

instance [Zero Score] [DecidableEq Score] (s : TrackingState Score)
    (action : TrackingAction Score)
    : Decidable (Careful s action) :=
  match action with
  | .add _ => inferInstanceAs (Decidable (_ → ∀ item ∈ _, _ ∧ _))
  | .rem _ => inferInstanceAs (Decidable (_ ∧ _))
  | .poll _ _ => inferInstanceAs (Decidable True)

-----------------------------------------------------------------------------------------
-- Pollers and their addresses
-----------------------------------------------------------------------------------------

/-- Every poller stands at the address of its sport. -/
def Addressed (base : String) (pollers : Pollers) : Prop :=
  ∀ address sport, pollers.lookup address = some sport → address = addAddress base sport

variable {base : String} {pollers : Pollers}

theorem Addressed.mem_iff (h : Addressed base pollers) (sport : String)
    : addAddress base sport ∈ pollers ↔ HasPoller pollers sport := by
  constructor
  · intro member
    obtain ⟨other, found⟩ := Finmap.mem_iff.mp member
    obtain rfl := addAddress_inj.mp (h _ _ found)
    exact ⟨_, found⟩
  · intro polled
    obtain ⟨address, found⟩ := polled
    rw [← h address sport found]
    exact Finmap.mem_of_lookup_eq_some found

theorem Addressed.startPoller (h : Addressed base pollers) (sport : String)
    : Addressed base (startPoller base pollers sport) := by
  intro address other found
  unfold Provider.startPoller at found
  split_ifs at found
  · exact h address other found
  · by_cases here : address = addAddress base sport
    · subst address
      rw [Finmap.lookup_insert] at found
      rw [Option.some.inj found]
    · rw [Finmap.lookup_insert_of_ne _ here] at found
      exact h address other found

/-- `add` leaves its sport with a poller and every other sport with what it had. -/
theorem Addressed.hasPoller_startPoller (h : Addressed base pollers) (sport other : String)
    : HasPoller (Provider.startPoller base pollers sport) other
      ↔ other = sport ∨ HasPoller pollers other := by
  rw [← (h.startPoller sport).mem_iff, ← h.mem_iff, Provider.startPoller]
  split_ifs with known
  · rw [or_iff_right_of_imp]
    intro same
    exact same ▸ known
  · rw [Finmap.mem_insert, addAddress_inj]

theorem Addressed.erase (h : Addressed base pollers) (address : String)
    : Addressed base (pollers.erase address) := by
  intro other sport found
  by_cases here : other = address
  · rw [here, Finmap.lookup_erase] at found
    cases found
  · rw [Finmap.lookup_erase_ne here] at found
    exact h other sport found

-----------------------------------------------------------------------------------------
-- A step is careful exactly when it keeps what it should
-----------------------------------------------------------------------------------------

/-- What holds as long as every step was careful. -/
structure InStep (base : String) (s : TrackingState Score) : Prop where
  consistent : Consistent s
  addressed : Addressed base s.provider.pollers
  undo : ∀ sport old, s.undo = some (sport, old) → s.tracked sport = true

section Steps

variable {s : TrackingState Score}

theorem InStep.tracked_iff (h : InStep base s) (sport : String)
    : s.tracked sport = true ↔ HasPoller s.provider.pollers sport :=
  ((h.consistent.polled sport).trans (h.consistent.tracked sport)).symm

/-- `rem` finds a poller only if the sport with a slash before it is tracked. -/
theorem InStep.rem_finds_iff (h : InStep base s) (sport : String)
    : remAddress base sport ∈ s.provider.pollers ↔ s.tracked ("/" ++ sport) = true := by
  rw [remAddress_eq, h.addressed.mem_iff, h.tracked_iff]

/-- A careful `rem` does nothing at all. -/
theorem InStep.rem_of_careful (h : InStep base s) {sport : String}
    (careful : s.tracked sport = false ∧ s.tracked ("/" ++ sport) = false)
    : s.provider.rem base sport = s.provider
      ∧ Function.update s.tracked sport false = s.tracked := by
  constructor
  · refine if_neg (fun found => ?_)
    simpa [careful.2] using (h.rem_finds_iff sport).mp found
  · exact Function.update_eq_self_iff.mpr careful.1.symm

/-- A careless `rem` leaves an untracked sport in the cache, or a tracked one without its
poller.
-/
theorem InStep.not_consistent_of_rem (h : InStep base s) {sport : String}
    (careless : s.tracked sport = true ∨ s.tracked ("/" ++ sport) = true)
    {next : TrackingState Score} (provider : next.provider = s.provider.rem base sport)
    (tracked : next.tracked = Function.update s.tracked sport false)
    : ¬ Consistent next := by
  intro consistent
  have cache : next.provider.cache = s.provider.cache := by
    rw [provider, LinesProvider.rem]
    split <;> rfl
  rcases careless with mine | other
  · have member := (h.consistent.tracked sport).mpr mine
    rw [← cache, consistent.tracked, tracked, Function.update_self] at member
    cases member
  · have found := (h.rem_finds_iff sport).mpr other
    have member := (h.consistent.tracked _).mpr other
    rw [← cache, ← consistent.polled] at member
    obtain ⟨address, polled⟩ := member
    rw [provider, LinesProvider.rem, if_pos found] at polled
    have place := (h.addressed.erase _) address _ polled
    rw [place, ← remAddress_eq, Finmap.lookup_erase] at polled
    cases polled

variable [Zero Score]

/-- `add` always leaves the containers in step. -/
theorem InStep.add (h : InStep base s) (sport : String)
    : InStep base
        { provider := s.provider.add base sport
          tracked := Function.update s.tracked sport true
          undo := if s.tracked sport then none else some (sport, s.provider) } := by
  refine ⟨⟨?_, ?_⟩, h.addressed.startPoller sport, ?_⟩
  · intro other
    refine (h.addressed.hasPoller_startPoller sport other).trans ?_
    rw [h.consistent.polled other]
    exact (mem_updateCache_iff _ sport 0 other).symm
  · intro other
    refine (mem_updateCache_iff _ sport 0 other).trans ?_
    rw [h.consistent.tracked other]
    by_cases here : other = sport
    · simp [here]
    · simp [here]
  · intro other old same
    split_ifs at same
    rw [← (Prod.mk.inj (Option.some.inj same)).1]
    exact Function.update_self ..

/-- A repeated `add` leaves a polled item with score 0. -/
theorem InStep.add_again_iff (h : InStep base s) {sport : String}
    (again : s.tracked sport = true) (next : TrackingState Score)
    (provider : next.provider = s.provider.add base sport)
    : (∀ item ∈ s.provider.cache.lookup sport, item.inited = true ∧ item.lastRecv = 0)
      ↔ ∀ item, s.provider.cache.lookup sport = some item
          → ∃ after,
              next.provider.cache.lookup sport = some after
              ∧ after.inited = item.inited
              ∧ after.lastRecv = item.lastRecv := by
  obtain ⟨item, found⟩ := Finmap.mem_iff.mp ((h.consistent.tracked sport).mpr again)
  have after : next.provider.cache.lookup sport
      = some { item with inited := true, lastRecv := 0 } := by
    rw [provider]
    exact lookup_updateCache_of_some found 0
  simp only [found, after, Option.mem_some_iff, Option.some.injEq, forall_eq',
    exists_eq_left']
  exact and_congr eq_comm eq_comm

/-- A callback finds its sport in the cache and adds none. -/
theorem InStep.poll (h : InStep base s) {address sport : String}
    (running : s.provider.pollers.lookup address = some sport) (score : Score)
    : InStep base
        { s with provider := s.provider.pollCallback sport score, undo := none } := by
  have known := Finmap.lookup_isSome.mpr ((h.consistent.polled sport).mp ⟨address, running⟩)
  have same (other : String) := mem_updateCache known score other
  refine ⟨⟨?_, ?_⟩, h.addressed, by simp⟩
  · exact fun other => (h.consistent.polled other).trans (same other).symm
  · exact fun other => (same other).trans (h.consistent.tracked other)

theorem InStep.step {next : TrackingState Score} {action : TrackingAction Score}
    (h : InStep base s) (careful : Careful s action)
    (taken : trackingStep base s action = some next)
    : InStep base next := by
  cases action with
  | add sport =>
      obtain rfl := Option.some.inj taken
      exact h.add sport
  | rem sport =>
      obtain rfl := Option.some.inj taken
      obtain ⟨provider, tracked⟩ := h.rem_of_careful careful
      rw [provider, tracked]
      exact ⟨⟨h.consistent.polled, h.consistent.tracked⟩, h.addressed, by simp⟩
  | poll address score =>
      obtain ⟨sport, running, rfl⟩ := Option.map_eq_some_iff.mp taken
      exact h.poll running score

/-- From a state in step, the careful steps are those after which the containers are in step
and which keep what their callers may expect.
-/
theorem InStep.careful_iff {next : TrackingState Score} {action : TrackingAction Score}
    (h : InStep base s) (taken : trackingStep base s action = some next)
    : Careful s action ↔ Consistent next ∧ Keeps s action next := by
  cases action with
  | add sport =>
      obtain rfl := Option.some.inj taken
      constructor
      · intro careful
        refine ⟨(h.add sport).consistent, ⟨by simp, by simp, ?_⟩⟩
        intro other item same again found
        obtain rfl := TrackingAction.add.inj same
        exact (h.add_again_iff again _ rfl).mp (careful again) item found
      · intro kept again
        exact (h.add_again_iff again _ rfl).mpr (fun item found =>
          kept.2.again sport item rfl again found)
  | rem sport =>
      constructor
      · intro careful
        have consistent := (h.step careful taken).consistent
        obtain rfl := Option.some.inj taken
        have provider := (h.rem_of_careful careful).1
        refine ⟨consistent, ⟨?_, ?_, by simp⟩⟩
        · intro _ other _ _
          simp [provider]
        · intro removed old same undone
          obtain rfl := TrackingAction.rem.inj same
          have added := h.undo sport old undone
          rw [careful.1] at added
          cases added
      · intro kept
        obtain rfl := Option.some.inj taken
        by_contra careless
        have either : s.tracked sport = true ∨ s.tracked ("/" ++ sport) = true := by
          simpa [Careful, -not_and, not_and_or] using careless
        exact h.not_consistent_of_rem either rfl rfl kept.1
  | poll address score =>
      have careful : Careful s (.poll address score) := trivial
      refine iff_of_true careful ⟨(h.step careful taken).consistent, ?_⟩
      exact ⟨by simp, by simp, by simp⟩

/-- In every run of careful calls a sport has a poller if and only if it is in the cache if
and only if it is tracked, each step keeps what its caller may expect, and the first careless
call would break one of these.
-/
theorem consistent_of_careful
    (reached : (trackingMachine Score base).ReachableVia Careful s)
    : Consistent s
      ∧ ∀ action next,
          (trackingMachine Score base).step s action = some next
          → (Careful s action ↔ Consistent next ∧ Keeps s action next) := by
  have inStep : InStep base s := by
    induction reached with
    | init => exact ⟨⟨by simp [trackingMachine, HasPoller, Finmap.notMem_empty],
        by simp [trackingMachine, Finmap.notMem_empty]⟩, by simp [trackingMachine, Addressed],
        by simp [trackingMachine]⟩
    | step _ careful taken ih => exact ih.step careful taken
  exact ⟨inStep.consistent, fun _ _ taken => inStep.careful_iff taken⟩

end Steps

/-- Football and hockey are added and polled, hockey at score 0 and so added once more;
baseball is removed without having been added.
-/
def carefulRun : List (TrackingAction Rat) :=
  [.add "football", .poll "lines/football" 3, .add "hockey", .poll "lines/hockey" 0,
    .add "hockey", .rem "baseball"]

theorem consistent_carefulRun
    : ∃ s,
        (trackingMachine Rat "lines").run carefulRun = some s
        ∧ s.tracked "football" = true
        ∧ Consistent s := by
  obtain ⟨s, ran, guarded, tracked⟩
      : ∃ s,
          (trackingMachine Rat "lines").run carefulRun = some s
          ∧ ((trackingMachine Rat "lines").guard Careful).run carefulRun = some s
          ∧ s.tracked "football" = true :=
    ⟨_, rfl, rfl, by decide⟩
  exact ⟨s, ran, tracked, (consistent_of_careful (.of_guard ⟨carefulRun, guarded⟩)).1⟩

/-- Football stays in the cache, and its poller with it, after it was removed. -/
theorem not_consistent_addRem
    : ¬ ∀ s,
        (trackingMachine Rat "lines").Reachable s
        → Consistent s
          ∧ ∀ action next,
              (trackingMachine Rat "lines").step s action = some next
              → Keeps s action next := by
  intro all
  obtain ⟨s, ran, cached, untracked⟩
      : ∃ s,
          (trackingMachine Rat "lines").run [.add "football", .rem "football"] = some s
          ∧ "football" ∈ s.provider.cache
          ∧ s.tracked "football" = false :=
    ⟨_, rfl, by decide, by decide⟩
  have consistent := (all s ⟨_, ran⟩).1
  rw [consistent.tracked, untracked] at cached
  cases cached

end RVision.Lines.Provider
