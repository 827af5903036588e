import RVision.Rpc.Server.Steps
import RVision.Transition.Logs
import RVision.Transition.Threads

/-! What the server's log records, and the facts about its threads that hold in every run. -/

namespace RVision.Rpc.Server

open Transition

variable {Score : Type}

/-- The requests that `check_request` accepted, oldest first. -/
def acceptedMessages (log : List (Event Score)) : List SportsLinesRequest :=
  log.filterMap (fun event => match event with
    | .accepted message => some message
    | _ => none)

/-- The calls of the score callback, oldest first. -/
def invocations (log : List (Event Score)) : List (Invocation Score) :=
  log.filterMap (fun event => match event with
    | .invoked invocation => some invocation
    | _ => none)

/-- An accepted request is the newest one. -/
theorem acceptedMessages_accept (s : State Score) (thread : Nat)
    : acceptedMessages (s.accept thread).log
      = acceptedMessages s.log ++ [s.subscription.request] := by
  simp [State.accept, acceptedMessages]

theorem acceptedMessages_callback (s : State Score) (changed : Bool)
    (lines : List (String × Score))
    : acceptedMessages (s.callback changed lines).log = acceptedMessages s.log := by
  simp [State.callback, acceptedMessages]

/-- The newest call of the callback is for the writer's locals. -/
theorem invocations_callback (s : State Score) (changed : Bool)
    (lines : List (String × Score))
    : invocations (s.callback changed lines).log
      = invocations s.log ++ [{ sports := s.sports, period := s.period, changed, lines }] := by
  simp [State.callback, invocations]

theorem wake_eq (s : State Score)
    : s.wake = s.writer ∨ (s.writer = .parked ∧ s.wake = .testing) := by
  unfold State.wake
  split_ifs with parked
  · exact Or.inr ⟨parked, rfl⟩
  · exact Or.inl rfl

/-- `m_shutdown` is never cleared. -/
theorem Step.shutdown_mono {s next : State Score} {action : Action Score}
    (taken : Step s action next) (running : next.shutdown = false)
    : s.shutdown = false := by
  cases taken <;> first | exact running | cases running

/-- A server that was started stays so. -/
theorem Step.built_mono {s next : State Score} {action : Action Score}
    (taken : Step s action next) (built : s.built = true)
    : next.built = true := by
  cases taken <;> first | exact built | rfl

/-- The log only grows, at its end. -/
theorem Step.log_grows {s next : State Score} {action : Action Score}
    (taken : Step s action next)
    : s.log <+: next.log := by
  cases taken with
  | deliver | accept | read | finish | callback | write => exact List.prefix_append _ _
  | _ => exact List.prefix_refl _

/-- Only the threads that `start` created are ever present. -/
structure ThreadsKnown (threads : Nat) (s : State Score) : Prop where
  size : s.threads = threads
  inside : ∀ thread, s.workers thread ≠ .absent → thread < threads

/-- A worker that is present moves within the group. -/
theorem ThreadsKnown.move {threads : Nat} {s t : State Score} (h : ThreadsKnown threads s)
    {thread : Nat} {pc : WorkerPc} (present : s.workers thread ≠ .absent)
    (size : t.threads = s.threads)
    (workers : t.workers = Function.update s.workers thread pc)
    : ThreadsKnown threads t := by
  refine ⟨size.trans h.size, ?_⟩
  intro other here
  by_cases same : other = thread
  · subst other
    exact h.inside thread present
  · exact h.inside other (by simpa [workers, same] using here)

theorem ThreadsKnown.step {threads : Nat} {s next : State Score}
    (h : ThreadsKnown threads s) {action : Action Score} (taken : Step s action next)
    : ThreadsKnown threads next := by
  cases taken with
  | start =>
      refine ⟨h.size, ?_⟩
      intro thread here
      by_contra outside
      have absent : s.start.workers thread = .absent := by
        simp [State.start, h.size, outside]
      exact here absent
  | post pc | loop pc | deliver pc | queueEnd pc | accept pc | reject pc | storeChanged pc
    | notifyOne pc | read pc | finish pc => exact h.move (by simp [pc]) rfl rfl
  | _ => exact ⟨h.size, h.inside⟩

theorem threadsKnown_of_reachable {threads : Nat} {s : State Score}
    (reached : (machine Score threads).Reachable s)
    : ThreadsKnown threads s :=
  reached.invariant (motive := ThreadsKnown threads) ⟨rfl, by simp [machine]⟩
    (fun _ _ _ _ known taken => known.step (.of_step taken))

/-- A worker that moves trades its contribution to any tally of the group. -/
theorem ThreadsKnown.tally_move {threads : Nat} {s : State Score}
    (h : ThreadsKnown threads s) (holds : WorkerPc → Bool) {thread : Nat} {old : WorkerPc}
    (pc : s.workers thread = old) (present : old ≠ .absent) (new : WorkerPc)
    : tally s.threads holds (Function.update s.workers thread new) + (holds old).toNat
      = tally s.threads holds s.workers + (holds new).toNat := by
  have inside : thread < s.threads := by
    rw [h.size]
    exact h.inside thread (pc ▸ present)
  have counted := tally_update holds s.workers inside new
  rwa [pc] at counted

/-- Before `start` there is nothing but the default members. -/
structure Untouched (s : State Score) : Prop where
  writer : s.writer = .absent
  workers : ∀ thread, s.workers thread = .absent
  subscription : s.subscription = {}
  outstanding : s.outstanding = []
  log : s.log = []

/-- `stop` is the only thing that can happen to a server that was not started. -/
theorem Untouched.step {s next : State Score} (h : Untouched s) {action : Action Score}
    (taken : Step s action next) (unbuilt : next.built = false)
    : Untouched next := by
  cases taken with
  | start => simp [State.start] at unbuilt
  | post pc | loop pc | deliver pc | queueEnd pc | accept pc | reject pc | storeChanged pc
    | notifyOne pc | read pc | finish pc => simp [h.workers] at pc
  | outer pc | pass pc | refuse pc | park pc | inner pc | takeFlag pc | missFlag pc
    | copy pc | callback pc | write pc => simp [h.writer] at pc
  | notifyAll =>
      have asleep : s.wake = s.writer := by simp [State.wake, h.writer]
      exact ⟨asleep.trans h.writer, h.workers, h.subscription, h.outstanding, h.log⟩
  | drain _ tag => simp [h.outstanding] at tag
  | _ => exact ⟨h.writer, h.workers, h.subscription, h.outstanding, h.log⟩

theorem untouched_of_reachable {threads : Nat} {s : State Score}
    (reached : (machine Score threads).Reachable s) (unbuilt : s.built = false)
    : Untouched s := by
  refine reached.invariant (motive := fun s => s.built = false → Untouched s)
    (fun _ => ⟨rfl, fun _ => rfl, rfl, rfl, rfl⟩) ?_ unbuilt
  intro s action next _ known taken still
  have step := Step.of_step taken
  have before : s.built = false := by
    cases built : s.built with
    | false => rfl
    | true => simp [step.built_mono built] at still
  exact (known before).step step still

end RVision.Rpc.Server
