import Mathlib.Algebra.Ring.Int.Defs
import Mathlib.Data.Bool.Basic
import Mathlib.Data.List.Basic
import RVision.Lines.Poller
import RVision.Transition.Futures
import RVision.Transition.Logs

/-! The thread of a `lines_poller` and the destructor that stops it. `m_wait` is waited on and
never notified, so a stop is seen only at the two tests of the stop token: when a wait has run
out, and when a poll has returned.
-/

namespace RVision.Lines.Poller

open Transition

variable {Score : Type}

/-- Where the thread is. At `entering` it has passed the test after its wait and not called
`poll` yet; from `polling` to the end of the callback it is inside `poll`. The callback of the
provider stores the score and then puts it into the cache.
-/
inductive ThreadPc (Score : Type)
  | testing
  | waiting
  | retesting
  | entering
  | polling
  | storing (score : Score)
  | caching (score : Score)
  | exited
deriving DecidableEq, Repr

/-- How far `~lines_poller` has come. -/
inductive DestructorPc
  | alive
  | joining
  | gone
deriving DecidableEq, Repr

inductive PollerEvent (Score : Type)
  | begun
  | called (score : Score)
  | stopped
  | joined
deriving DecidableEq, Repr

/-- The stop state of `m_thread`, its program counter, and what happened so far. -/
structure PollerState (Score : Type) where
  stop : Bool := false
  thread : ThreadPc Score := .testing
  destructor : DestructorPc := .alive
  log : List (PollerEvent Score) := []

inductive PollerAction (Score : Type)
  | test
  | wake
  | retest
  | poll
  | exchange (exchange : Exchange Score)
  | updateLine
  | updateCache
  | requestStop
  | join

/-- One step of the thread or of the destructor. A wait ends when its time is up or, as the
standard allows, for no reason.
-/
def pollerStep [Zero Score] (sport : String) (s : PollerState Score)
    (action : PollerAction Score)
    : Option (PollerState Score) :=
  match action, s.thread with
  | .test, .testing =>
      if s.stop then
        some { s with thread := .exited }
      else
        some { s with thread := .waiting }
  | .wake, .waiting => some { s with thread := .retesting }
  | .retest, .retesting =>
      if s.stop then
        some { s with thread := .exited }
      else
        some { s with thread := .entering }
  | .poll, .entering => some { s with thread := .polling, log := s.log ++ [.begun] }
  | .exchange exchange, .polling =>
      match Poller.poll sport exchange with
      | none => some { s with thread := .testing }
      | some (_, score) => some { s with thread := .storing score }
  | .updateLine, .storing score => some { s with thread := .caching score }
  | .updateCache, .caching score =>
      some { s with thread := .testing, log := s.log ++ [.called score] }
  | .requestStop, _ =>
      if s.destructor = .alive then
        some { s with stop := true, destructor := .joining, log := s.log ++ [.stopped] }
      else
        none
  | .join, .exited =>
      if s.destructor = .joining then
        some { s with destructor := .gone, log := s.log ++ [.joined] }
      else
        none
  | _, _ => none

/-- A poller of `sport` as its constructor leaves it. -/
def pollerMachine (Score : Type) [Zero Score] (sport : String)
    : Machine (PollerState Score) (PollerAction Score) where
  init := {}
  step := pollerStep sport

/-- The transitions with their guards. -/
inductive PollerStep [Zero Score] (sport : String) (s : PollerState Score)
    : PollerAction Score → PollerState Score → Prop
  | enter (pc : s.thread = .testing) (running : s.stop = false)
    : PollerStep sport s .test { s with thread := .waiting }
  | leave (pc : s.thread = .testing) (stopped : s.stop = true)
    : PollerStep sport s .test { s with thread := .exited }
  | wake (pc : s.thread = .waiting)
    : PollerStep sport s .wake { s with thread := .retesting }
  | pass (pc : s.thread = .retesting) (running : s.stop = false)
    : PollerStep sport s .retest { s with thread := .entering }
  | abandon (pc : s.thread = .retesting) (stopped : s.stop = true)
    : PollerStep sport s .retest { s with thread := .exited }
  | poll (pc : s.thread = .entering)
    : PollerStep sport s .poll { s with thread := .polling, log := s.log ++ [.begun] }
  | fail {exchange : Exchange Score} (pc : s.thread = .polling)
    (silent : Poller.poll sport exchange = none)
    : PollerStep sport s (.exchange exchange) { s with thread := .testing }
  | answer {exchange : Exchange Score} {score : Score} (pc : s.thread = .polling)
    (reports : Poller.poll sport exchange = some (sport, score))
    : PollerStep sport s (.exchange exchange) { s with thread := .storing score }
  | updateLine {score : Score} (pc : s.thread = .storing score)
    : PollerStep sport s .updateLine { s with thread := .caching score }
  | updateCache {score : Score} (pc : s.thread = .caching score)
    : PollerStep sport s .updateCache
        { s with thread := .testing, log := s.log ++ [.called score] }
  | requestStop (alive : s.destructor = .alive)
    : PollerStep sport s .requestStop
        { s with stop := true, destructor := .joining, log := s.log ++ [.stopped] }
  | join (pc : s.thread = .exited) (joining : s.destructor = .joining)
    : PollerStep sport s .join { s with destructor := .gone, log := s.log ++ [.joined] }

section Steps

variable [Zero Score] {sport : String} {s next : PollerState Score}
  {action : PollerAction Score}

/-- A poll reports a score for its own sport. -/
theorem poll_sport {exchange : Exchange Score} {name : String} {score : Score}
    (reports : poll sport exchange = some (name, score))
    : name = sport := by
  rcases poll_cases sport exchange with ⟨_, _, same, _⟩ | ⟨_, same, _⟩ | ⟨_, same, _⟩
  all_goals
    rw [same] at reports
    cases reports <;> rfl

theorem PollerStep.of_step (taken : pollerStep sport s action = some next)
    : PollerStep sport s action next := by
  unfold pollerStep at taken
  split at taken
  next pc =>
    split_ifs at taken with stop
    · exact Option.some.inj taken ▸ .leave pc stop
    · exact Option.some.inj taken ▸ .enter pc (by simpa using stop)
  next pc =>
    obtain rfl := Option.some.inj taken
    exact .wake pc
  next pc =>
    split_ifs at taken with stop
    · exact Option.some.inj taken ▸ .abandon pc stop
    · exact Option.some.inj taken ▸ .pass pc (by simpa using stop)
  next pc =>
    obtain rfl := Option.some.inj taken
    exact .poll pc
  next exchange pc =>
    split at taken
    next silent => exact Option.some.inj taken ▸ .fail pc silent
    next name score reports =>
      obtain rfl := poll_sport reports
      exact Option.some.inj taken ▸ .answer pc reports
  next score pc => exact Option.some.inj taken ▸ .updateLine pc
  next score pc => exact Option.some.inj taken ▸ .updateCache pc
  next =>
    obtain ⟨alive, effect⟩ := Option.ite_none_right_eq_some.mp taken
    exact Option.some.inj effect ▸ .requestStop alive
  next pc =>
    obtain ⟨joining, effect⟩ := Option.ite_none_right_eq_some.mp taken
    exact Option.some.inj effect ▸ .join pc joining
  next => cases taken

end Steps

-----------------------------------------------------------------------------------------
-- The destructor and its thread
-----------------------------------------------------------------------------------------

/-- How far the destructor has come: the stop is requested first, and the join returns when the
thread has left its loop.
-/
inductive Ending (s : PollerState Score) : Prop
  | alive (destructor : s.destructor = .alive) (running : s.stop = false) : Ending s
  | joining (destructor : s.destructor = .joining) (stopped : s.stop = true) : Ending s
  | gone (destructor : s.destructor = .gone) (stopped : s.stop = true)
    (exited : s.thread = .exited)
    : Ending s

/-- A step of the thread. -/
theorem Ending.move {s next : PollerState Score} (h : Ending s) (here : s.thread ≠ .exited)
    (same : next.destructor = s.destructor ∧ next.stop = s.stop)
    : Ending next := by
  obtain ⟨destructor, stop⟩ := same
  cases h with
  | alive alive running => exact .alive (destructor.trans alive) (stop.trans running)
  | joining joining stopped => exact .joining (destructor.trans joining) (stop.trans stopped)
  | gone _ _ exited => exact absurd exited here

/-- The steps of the thread until it leaves its loop, once a stop is requested. -/
def ThreadPc.rank : ThreadPc Score → Nat
  | .exited => 0
  | .testing | .retesting => 1
  | .waiting | .caching _ => 2
  | .storing _ => 3
  | .polling => 4
  | .entering => 5

/-- What is left to do for a destructor that waits in `join`. -/
def PollerState.rank (s : PollerState Score) : Nat :=
  s.thread.rank + (if s.destructor = .gone then 0 else 1)

theorem PollerState.rank_le (s : PollerState Score) : s.rank ≤ 6 := by
  have thread : s.thread.rank ≤ 5 := by cases s.thread <;> simp [ThreadPc.rank]
  simp only [PollerState.rank]
  split_ifs <;> omega

section Ending

variable [Zero Score] {sport : String} {s next : PollerState Score}
  {action : PollerAction Score}

theorem Ending.step (h : Ending s) (taken : PollerStep sport s action next) : Ending next := by
  cases taken with
  | requestStop alive => exact .joining rfl rfl
  | join pc joining =>
      cases h with
      | alive destructor => rw [joining] at destructor; cases destructor
      | joining _ stopped => exact .gone rfl stopped pc
      | gone destructor => rw [joining] at destructor; cases destructor
  | enter pc | leave pc | wake pc | pass pc | abandon pc | poll pc | fail pc | answer pc
  | updateLine pc | updateCache pc => exact h.move (by simp [pc]) ⟨rfl, rfl⟩

theorem Ending.of_reachable (h : (pollerMachine Score sport).Reachable s) : Ending s := by
  refine h.invariant (motive := Ending) (.alive rfl rfl) ?_
  intro s action next _ known taken
  exact known.step (PollerStep.of_step taken)

/-- Every step of a poller that is being stopped is one less to come. -/
theorem rank_step (stopped : s.stop = true) (begun : s.destructor ≠ .alive)
    (taken : PollerStep sport s action next)
    : (next.stop = true ∧ next.destructor ≠ .alive) ∧ next.rank + 1 ≤ s.rank := by
  cases taken with
  | enter _ running => rw [stopped] at running; cases running
  | pass _ running => rw [stopped] at running; cases running
  | requestStop alive => exact absurd alive begun
  | join pc joining => simp [PollerState.rank, ThreadPc.rank, pc, joining, stopped]
  | leave pc | wake pc | abandon pc | poll pc | fail pc | answer pc | updateLine pc
  | updateCache pc =>
      refine ⟨⟨stopped, begun⟩, ?_⟩
      simp only [PollerState.rank, ThreadPc.rank, pc]
      omega

/-- A poller never waits for itself: until the join has returned, some step can be taken. -/
theorem exists_step (h : Ending s) (stopped : s.stop = true) (waiting : s.destructor ≠ .gone)
    : ∃ action next, pollerStep sport s action = some next := by
  cases pc : s.thread with
  | testing => exact ⟨.test, by simp [pollerStep, pc, stopped]⟩
  | waiting => exact ⟨.wake, by simp [pollerStep, pc]⟩
  | retesting => exact ⟨.retest, by simp [pollerStep, pc, stopped]⟩
  | entering => exact ⟨.poll, by simp [pollerStep, pc]⟩
  | polling => exact ⟨.exchange .failed, by simp [pollerStep, pc, poll]⟩
  | storing => exact ⟨.updateLine, by simp [pollerStep, pc]⟩
  | caching => exact ⟨.updateCache, by simp [pollerStep, pc]⟩
  | exited =>
      cases h with
      | alive _ running => rw [stopped] at running; cases running
      | joining destructor => exact ⟨.join, by simp [pollerStep, pc, destructor]⟩
      | gone destructor => exact absurd destructor waiting

theorem no_step (exited : s.thread = .exited)
    (gone : s.destructor = .gone)
    : ¬ PollerStep sport s action next := by
  intro taken
  cases taken with
  | requestStop alive => rw [gone] at alive; cases alive
  | join _ joining => rw [gone] at joining; cases joining
  | enter pc | leave pc | wake pc | pass pc | abandon pc | poll pc | fail pc | answer pc
  | updateLine pc | updateCache pc => rw [exited] at pc; cases pc

end Ending

-----------------------------------------------------------------------------------------
-- A stop
-----------------------------------------------------------------------------------------

/-- The thread has a poll in hand that may still call back. -/
def ThreadPc.mayCall : ThreadPc Score → Bool
  | .entering | .polling | .storing _ | .caching _ => true
  | .testing | .waiting | .retesting | .exited => false

/-- What was logged since a stop that found the thread at `place`: the one poll that it was
entering, if it was, and the callback of the one poll that it had in hand.
-/
structure StoppedSince (place : ThreadPc Score) (old : List (PollerEvent Score))
    (s : PollerState Score)
    : Prop where
  stopped : s.stop = true
  begun : s.destructor ≠ .alive
  left : s.destructor = .gone → s.thread = .exited
  log
    : ∃ polls calls,
        s.log
            = old ++ .stopped :: polls ++ calls.map .called
              ++ (if s.destructor = .gone then [.joined] else [])
        ∧ (polls = [] ∨ (polls = [.begun] ∧ place = .entering))
        ∧ (s.thread = .entering → place = .entering ∧ polls = [] ∧ calls = [])
        ∧ calls.length + s.thread.mayCall.toNat ≤ 1

section Stop

variable {place : ThreadPc Score} {old : List (PollerEvent Score)} {s : PollerState Score}

/-- The step that requests the stop. -/
theorem stoppedSince_requestStop (s : PollerState Score)
    : StoppedSince s.thread s.log
        { s with stop := true, destructor := .joining, log := s.log ++ [.stopped] } := by
  refine ⟨rfl, by simp, by simp, [], [], by simp, .inl rfl, fun entering => ⟨entering, rfl, rfl⟩,
    ?_⟩
  simpa using Bool.toNat_le _

/-- A move of the thread that logs nothing. -/
theorem StoppedSince.move (h : StoppedSince place old s) {pc : ThreadPc Score}
    (here : s.thread ≠ .exited) (elsewhere : pc ≠ .entering)
    (inside : pc.mayCall = true → s.thread.mayCall = true)
    : StoppedSince place old { s with thread := pc } := by
  have present : s.destructor ≠ .gone := fun gone => here (h.left gone)
  obtain ⟨polls, calls, log, begun, _, few⟩ := h.log
  refine ⟨h.stopped, h.begun, fun gone => absurd gone present, polls, calls, log, begun,
    fun entering => absurd entering elsewhere, ?_⟩
  have smaller := Bool.toNat_le_toNat inside
  show calls.length + pc.mayCall.toNat ≤ 1
  omega

/-- The poll that the thread was entering begins. -/
theorem StoppedSince.poll (h : StoppedSince place old s) (here : s.thread = .entering)
    : StoppedSince place old { s with thread := .polling, log := s.log ++ [.begun] } := by
  have present : s.destructor ≠ .gone := fun gone => by simp [h.left gone] at here
  obtain ⟨polls, calls, log, _, entered, _⟩ := h.log
  obtain ⟨entering, rfl, rfl⟩ := entered here
  refine ⟨h.stopped, h.begun, fun gone => absurd gone present, [.begun], [], ?_,
    .inr ⟨rfl, entering⟩, by simp, by simp [ThreadPc.mayCall]⟩
  simp [log, present]

/-- The callback of the poll in hand is the one call that the stop leaves. -/
theorem StoppedSince.called (h : StoppedSince place old s) {score : Score}
    (here : s.thread = .caching score)
    : StoppedSince place old { s with thread := .testing, log := s.log ++ [.called score] } := by
  have present : s.destructor ≠ .gone := fun gone => by simp [h.left gone] at here
  obtain ⟨polls, calls, log, begun, _, few⟩ := h.log
  rw [here] at few
  obtain rfl : calls = [] := by simpa [ThreadPc.mayCall] using few
  refine ⟨h.stopped, h.begun, fun gone => absurd gone present, polls, [score], ?_, begun,
    by simp, by simp [ThreadPc.mayCall]⟩
  simp [log, present]

theorem StoppedSince.join (h : StoppedSince place old s) (pc : s.thread = .exited)
    (here : s.destructor = .joining)
    : StoppedSince place old { s with destructor := .gone, log := s.log ++ [.joined] } := by
  obtain ⟨polls, calls, log, begun, _, few⟩ := h.log
  refine ⟨h.stopped, by simp, fun _ => pc, polls, calls, ?_, begun, by simp [pc], few⟩
  simp [log, here]

variable [Zero Score] {sport : String} {next : PollerState Score} {action : PollerAction Score}

theorem StoppedSince.step (h : StoppedSince place old s)
    (taken : PollerStep sport s action next)
    : StoppedSince place old next := by
  cases taken with
  | enter _ running => rw [h.stopped] at running; cases running
  | pass _ running => rw [h.stopped] at running; cases running
  | requestStop alive => exact absurd alive h.begun
  | leave pc | wake pc | abandon pc | fail pc | answer pc | updateLine pc =>
      exact h.move (by simp [pc]) (by simp) (by simp [pc, ThreadPc.mayCall])
  | poll pc => exact h.poll pc
  | updateCache pc => exact h.called pc
  | join pc joining => exact h.join pc joining

/-- Once a stop is requested no poll begins but the one that the thread may be entering, and
the callback is made at most once more. The thread and the destructor take at most six more
steps between them; short of the end of the join one of them can always take one, and after it
none is left.
-/
theorem stop_ends_polling {after final : PollerState Score} {actions : List (PollerAction Score)}
    (reached : (pollerMachine Score sport).Reachable s)
    (stopped : (pollerMachine Score sport).step s .requestStop = some after)
    (ran : (pollerMachine Score sport).runFrom after actions = some final)
    : (∃ (polls : List (PollerEvent Score)) (calls : List Score),
        final.log
            = s.log ++ .stopped :: polls ++ calls.map .called
              ++ (if final.destructor = .gone then [.joined] else [])
        ∧ (polls = [] ∨ (polls = [.begun] ∧ s.thread = .entering))
        ∧ calls.length ≤ 1)
      ∧ actions.length ≤ 6
      ∧ (final.destructor ≠ .gone
          ↔ ∃ action next, (pollerMachine Score sport).step final action = some next) := by
  have there := reached.step stopped
  obtain ⟨_, effect⟩ := Option.ite_none_right_eq_some.mp stopped
  obtain rfl := Option.some.inj effect
  have since : StoppedSince s.thread s.log final :=
    Machine.runFrom_invariant ran (motive := StoppedSince s.thread s.log)
      (stoppedSince_requestStop s) (fun _ _ _ known taken => known.step (.of_step taken))
  refine ⟨?_, ?_, ?_, ?_⟩
  · obtain ⟨polls, calls, log, begun, _, few⟩ := since.log
    exact ⟨polls, calls, log, begun, Nat.le_of_add_right_le few⟩
  · obtain ⟨_, few⟩ := Machine.countP_le_rank
      (fun s : PollerState Score => s.stop = true ∧ s.destructor ≠ .alive)
      PollerState.rank (fun _ => true)
      (fun _ _ _ way taken => rank_step way.1 way.2 (PollerStep.of_step taken))
      ⟨rfl, by simp⟩ ran
    have bound := PollerState.rank_le
      { s with stop := true, destructor := .joining, log := s.log ++ [.stopped] }
    rw [List.countP_true] at few
    omega
  · exact exists_step (Ending.of_reachable (there.runFrom ran)) since.stopped
  · rintro ⟨action, next, taken⟩ gone
    exact no_step (since.left gone) gone (PollerStep.of_step taken)

/-- A stop that comes when the thread has passed its test and not called `poll` yet. -/
def beforeStop : List (PollerAction Int) := [.test, .wake, .retest]

def lateStop : List (PollerAction Int) :=
  [.poll, .exchange (.answered 200 (.json (fun _ => .number 7))), .updateLine, .updateCache,
    .test, .join]

theorem stop_ends_polling_lateStop
    : ∃ s after final,
        (pollerMachine Int "soccer").run beforeStop = some s
        ∧ (pollerMachine Int "soccer").step s .requestStop = some after
        ∧ (pollerMachine Int "soccer").runFrom after lateStop = some final
        ∧ final.log = [.stopped, .begun, .called 7, .joined]
        ∧ lateStop.length ≤ 6
        ∧ ¬ ∃ action next, (pollerMachine Int "soccer").step final action = some next := by
  obtain ⟨_, few, ends⟩ :=
    stop_ends_polling ⟨beforeStop, rfl⟩
      (show (pollerMachine Int "soccer").step _ .requestStop = some _ from rfl)
      (show (pollerMachine Int "soccer").runFrom _ lateStop = some _ from rfl)
  exact ⟨_, _, _, rfl, rfl, rfl, rfl, few, fun can => ends.mpr can rfl⟩

end Stop

end RVision.Lines.Poller
