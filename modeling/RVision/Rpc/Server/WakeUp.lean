import RVision.Rpc.Server.Steps
import RVision.Transition.Threads

/-! When the writer sleeps through a change. `on_read` and `stop` raise their flag and notify
without `m_cv_lock`, so both can fall between the writer's test of its predicate and the
moment it blocks.
-/

namespace RVision.Rpc.Server

open Transition

variable {Score : Type}

/-- A store of `m_changed` or `m_shutdown` whose notification is still to be executed. -/
def NotificationPending (s : State Score) : Prop :=
  (∃ thread, s.workers thread = .notifying)
  ∨ s.stopper = .server
  ∨ s.stopper = .queue
  ∨ s.stopper = .notify

/-- The writer is blocked although its predicate is true, and nothing is left to wake it. -/
def MissedWakeUp (s : State Score) : Prop :=
  s.writer = .parked
  ∧ (s.subscription.changed = true ∨ s.shutdown = true)
  ∧ ¬ NotificationPending s

/-- The two notifications of the server's condition variable. -/
def Action.notifies : Action Score → Bool
  | .worker _ .notifyOne => true
  | .stop .notifyAll => true
  | _ => false

/-- No notification falls into the window between the writer's test and its blocking. -/
def OutsideWindow (s : State Score) (action : Action Score) : Prop :=
  action.notifies = true → s.writer ≠ .parking

instance (s : State Score) (action : Action Score) : Decidable (OutsideWindow s action) :=
  inferInstanceAs (Decidable (action.notifies = true → s.writer ≠ .parking))

/-- A writer that has found its predicate false will still be notified of every flag raised
since.
-/
structure WakeUpDue (s : State Score) : Prop where
  changed
    : s.writer = .parking ∨ s.writer = .parked
      → s.subscription.changed = true
      → ∃ thread, s.workers thread = .notifying
  shutdown
    : s.writer = .parking ∨ s.writer = .parked
      → s.shutdown = true
      → s.stopper = .server ∨ s.stopper = .queue ∨ s.stopper = .notify
  built : s.writer ≠ .absent → s.built = true

/-- A step that leaves the writer, the flags and `stop` alone keeps what is due, as long as
no notification gets lost.
-/
theorem WakeUpDue.frame {s t : State Score} (h : WakeUpDue s)
    (same : t.writer = s.writer ∧ t.subscription.changed = s.subscription.changed
      ∧ t.shutdown = s.shutdown ∧ t.stopper = s.stopper ∧ t.built = s.built)
    (kept : (∃ worker, s.workers worker = .notifying)
      → ∃ worker, t.workers worker = .notifying)
    : WakeUpDue t := by
  obtain ⟨writer, changed, shutdown, stopper, built⟩ := same
  constructor
  · rw [writer, changed]
    exact fun blocked raised => kept (h.changed blocked raised)
  · rw [writer, shutdown, stopper]
    exact h.shutdown
  · rw [writer, built]
    exact h.built

/-- A step that takes the writer to a place where it is not about to block. -/
theorem WakeUpDue.awake {s : State Score} (h : WakeUpDue s) {pc : WriterPc}
    (awake : pc ≠ .parking ∧ pc ≠ .parked) (present : s.writer ≠ .absent)
    {t : State Score} (moved : t.writer = pc) (built : t.built = s.built)
    : WakeUpDue t := by
  constructor
  · rw [moved]
    simp [awake]
  · rw [moved]
    simp [awake]
  · rw [built]
    exact fun _ => h.built present

/-- A notification wakes a blocked writer; one that is not in the window has nothing to
lose.
-/
theorem wake_of_outside {s : State Score} (outside : s.writer ≠ .parking)
    : s.wake ≠ .parking ∧ s.wake ≠ .parked := by
  unfold State.wake
  split_ifs with parked
  · simp
  · exact ⟨outside, parked⟩

theorem wake_absent {s : State Score} : s.wake = .absent ↔ s.writer = .absent := by
  unfold State.wake
  split_ifs with parked
  · simp [parked]
  · rfl

/-- Every step outside the window keeps what is due, by cases on the transition. -/
theorem WakeUpDue.step {s next : State Score} (h : WakeUpDue s) {action : Action Score}
    (outside : OutsideWindow s action) (taken : Server.step s action = some next)
    : WakeUpDue next := by
  cases Step.of_step taken with
  | start => exact ⟨by simp [State.start], by simp [State.start], fun _ => rfl⟩
  | cancel => exact h.frame ⟨rfl, rfl, rfl, rfl, rfl⟩ id
  | post pc | loop pc | queueEnd pc | reject pc | read pc | finish pc =>
      exact h.frame ⟨rfl, rfl, rfl, rfl, rfl⟩ (exists_pc_update (by simp [pc]))
  | deliver pc =>
      refine h.frame ⟨rfl, ?_, rfl, rfl, rfl⟩ (exists_pc_update (by simp [pc]))
      simp only [State.deliver, State.received]
      split <;> rfl
  | accept pc =>
      exact h.frame ⟨rfl, rfl, rfl, rfl, rfl⟩ (exists_pc_update (by simp [pc]))
  | @storeChanged thread pc =>
      exact ⟨fun _ _ => ⟨thread, by simp [State.storeChanged]⟩, h.shutdown, h.built⟩
  | notifyOne pc =>
      have awake := wake_of_outside (outside rfl)
      refine ⟨?_, ?_, ?_⟩
      · simp [State.notifyOne, awake]
      · simp [State.notifyOne, awake]
      · intro present
        exact h.built (fun absent => present (wake_absent.mpr absent))
  | outer pc => exact h.awake (by split <;> simp) (by simp [pc]) rfl rfl
  | pass pc => exact h.awake (by simp) (by simp [pc]) rfl rfl
  | refuse pc running unchanged =>
      refine ⟨?_, ?_, fun _ => h.built (by simp [pc])⟩
      · simp [unchanged]
      · simp [running]
  | park pc =>
      exact ⟨fun _ => h.changed (Or.inl pc), fun _ => h.shutdown (Or.inl pc),
        fun _ => h.built (by simp [pc])⟩
  | inner pc => exact h.awake (by split <;> simp) (by simp [pc]) rfl rfl
  | takeFlag pc | missFlag pc | copy pc | callback pc | write pc =>
      exact h.awake (by simp) (by simp [pc]) rfl rfl
  | store => exact ⟨h.changed, fun _ _ => Or.inl rfl, h.built⟩
  | shutdownServer pc =>
      refine ⟨h.changed, ?_, h.built⟩
      intro blocked _
      replace blocked : s.writer = .parking ∨ s.writer = .parked := blocked
      have present : s.writer ≠ .absent := by
        rcases blocked with here | here <;> simp [here]
      simp [h.built present]
  | shutdownQueue => exact ⟨h.changed, fun _ _ => Or.inr (Or.inr rfl), h.built⟩
  | notifyAll =>
      have awake := wake_of_outside (outside rfl)
      refine ⟨?_, ?_, ?_⟩
      · simp [awake]
      · simp [awake]
      · intro present
        exact h.built (fun absent => present (wake_absent.mpr absent))
  | joinCrash pc | joinedAll pc | joinWorker pc | drain pc | drained pc =>
      -- These come after `notify_all`, when a blocked writer could not have seen the flag.
      refine ⟨h.changed, ?_, h.built⟩
      intro blocked raised
      have due := h.shutdown blocked raised
      simp [pc] at due
  | joinWriter pc exited =>
      refine ⟨h.changed, ?_, h.built⟩
      simp [exited]

/-- In every run, with any number of workers, in which no notification is executed while the
writer is between its failed test and its blocking, no wake-up is missed.
-/
theorem not_missedWakeUp_of_outside_window {threads : Nat} {s : State Score}
    (reached : (machine Score threads).ReachableVia OutsideWindow s)
    : ¬ MissedWakeUp s := by
  have due : WakeUpDue s := by
    induction reached with
    | init => exact ⟨by simp [machine], by simp [machine], by simp [machine]⟩
    | step _ outside taken ih => exact ih.step outside taken
  intro missed
  obtain ⟨parked, changed | shutdown, quiet⟩ := missed
  · obtain ⟨thread, notifying⟩ := due.changed (Or.inr parked) changed
    exact quiet (Or.inl ⟨thread, notifying⟩)
  · exact quiet (Or.inr (due.shutdown (Or.inr parked) shutdown))

/-- The writer blocks before the first request arrives and is woken by it. -/
def blockThenNotify : List (Action Rat) :=
  [.start, .writer .outer, .writer .test, .writer .park, .worker 0 .post, .worker 0 .loop,
    .worker 0 (.deliver (.connect true)), .worker 0 .read, .worker 0 .loop,
    .worker 0 (.deliver (.read (some { pollingPeriod := 5, sports := ["football"] }))),
    .worker 0 .checkRequest, .worker 0 .storeChanged]

/-- The request arrives between the writer's test and its blocking. -/
def notifyThenBlock : List (Action Rat) :=
  [.start, .writer .outer, .writer .test, .worker 0 .post, .worker 0 .loop,
    .worker 0 (.deliver (.connect true)), .worker 0 .read, .worker 0 .loop,
    .worker 0 (.deliver (.read (some { pollingPeriod := 5, sports := ["football"] }))),
    .worker 0 .checkRequest, .worker 0 .storeChanged, .worker 0 .notifyOne, .writer .park]

theorem not_missedWakeUp_blockThenNotify
    : ∃ s,
        (machine Rat 1).run blockThenNotify = some s
        ∧ s.writer = .parked
        ∧ s.subscription.changed = true
        ∧ ¬ MissedWakeUp s := by
  have reached (s : State Rat)
      (ran : ((machine Rat 1).guard OutsideWindow).run blockThenNotify = some s)
      : (machine Rat 1).ReachableVia OutsideWindow s :=
    .of_guard ⟨blockThenNotify, ran⟩
  exact ⟨_, rfl, rfl, rfl, not_missedWakeUp_of_outside_window (reached _ rfl)⟩

theorem missedWakeUp_notifyThenBlock
    : ¬ ∀ s, (machine Rat 1).Reachable s → ¬ MissedWakeUp s := by
  intro all
  refine all _ ⟨notifyThenBlock, rfl⟩ ⟨rfl, Or.inl rfl, ?_⟩
  intro toCome
  rcases toCome with ⟨thread, pending⟩ | stopping
  · cases thread with
    | zero => cases pending
    | succ thread => cases pending
  · rcases stopping with here | here | here <;> cases here

end RVision.Rpc.Server
