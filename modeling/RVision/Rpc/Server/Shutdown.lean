import RVision.Rpc.Server.EndOfStream

/-! The life of a server. `stop` needs what `start` sets, leaves nothing to join for a second
call, and shuts the queue down before it joins the threads that still start operations on it;
the destructor calls it whatever happened before.
-/

namespace RVision.Rpc.Server

open Transition

variable {Score : Type}

instance (pc : WorkerPc) : Decidable pc.WillStart :=
  match pc with
  | .checking | .storing | .notifying | .reading | .finishing => .isTrue trivial
  | .absent | .posting | .looping | .waiting | .exited => .isFalse id

/-- `stop` has neither used an unset pointer nor joined a thread that is not joinable, and
after the queue was shut down the next step starts no operation.
-/
structure StopsSafely (s : State Score) : Prop where
  noCrash : s.stopper ≠ .crashed
  closed
    : s.queueShutdown = true
      → ∀ action next operation,
          step s action = some next → next.log ≠ s.log ++ [.started operation]

/-- No thread is on its way to an operation. -/
def AtRest (s : State Score) : Prop :=
  (∀ thread < s.threads, ¬ (s.workers thread).WillStart) ∧ ¬ s.writer.Iterating

instance (s : State Score) : Decidable (AtRest s) :=
  inferInstanceAs (Decidable (_ ∧ _))

/-- The steps that stop a server safely: `stop` is called once, on a server that was started;
the queue is shut down when no thread is on its way to an operation; and after that no
completion is handed out whose handler starts one.
-/
def Tidy (s : State Score) : Action Score → Prop
  | .stop .store => s.built = true ∧ s.stopper = .idle
  | .stop .shutdownQueue => AtRest s
  | .worker _ (.deliver completion) =>
      s.queueShutdown = true → ¬ (s.dispatch completion).WillStart
  | _ => True

instance (s : State Score) (action : Action Score) : Decidable (Tidy s action) :=
  match action with
  | .stop .store => inferInstanceAs (Decidable (_ ∧ _))
  | .stop .shutdownQueue => inferInstanceAs (Decidable (AtRest s))
  | .worker _ (.deliver _) => inferInstanceAs (Decidable (_ → ¬ _))
  | .stop .shutdownServer | .stop .notifyAll | .stop .joinWriter | .stop .joinWorker
  | .stop (.drain _) | .stop .drained => inferInstanceAs (Decidable True)
  | .worker _ .post | .worker _ .loop | .worker _ .queueEnd | .worker _ .checkRequest
  | .worker _ .storeChanged | .worker _ .notifyOne | .worker _ .read | .worker _ .finish =>
      inferInstanceAs (Decidable True)
  | .start | .cancel | .writer _ => inferInstanceAs (Decidable True)

-----------------------------------------------------------------------------------------
-- Every tidy step is safe
-----------------------------------------------------------------------------------------

/-- `stop` has still to join the writer. -/
def StopPc.JoinsLater : StopPc → Prop
  | .server | .queue | .notify | .joinWriter => True
  | _ => False

/-- `stop` has joined the writer. -/
def StopPc.Joined : StopPc → Prop
  | .joinWorkers _ | .drain | .done => True
  | _ => False

/-- What holds as long as every step was tidy. -/
structure InOrderlyStop (s : State Score) : Prop where
  noCrash : s.stopper ≠ .crashed
  fresh : s.stopper = .idle → s.queueShutdown = false ∧ s.writerJoinable = s.built
  stopping : s.stopper ≠ .idle → s.shutdown = true
  joinable : s.stopper.JoinsLater → s.built = true ∧ s.writerJoinable = true
  joined : s.stopper.Joined → s.writerJoinable = false
  quiet : s.queueShutdown = true → AtRest s

/-- The members that only `start` and `stop` write. -/
def State.lifecycle (s : State Score) : StopPc × Bool × Bool × Bool × Bool :=
  (s.stopper, s.built, s.shutdown, s.writerJoinable, s.queueShutdown)

section Steps

variable {s next : State Score} {action : Action Score}

/-- A step of a worker or of the writer. -/
theorem InOrderlyStop.frame (h : InOrderlyStop s) (same : next.lifecycle = s.lifecycle)
    (rests : s.queueShutdown = true → AtRest s → AtRest next)
    : InOrderlyStop next := by
  simp only [State.lifecycle, Prod.mk.injEq] at same
  obtain ⟨stopper, built, shutdown, joinable, queue⟩ := same
  refine ⟨stopper ▸ h.noCrash, ?_, ?_, ?_, ?_, ?_⟩
  · rw [stopper, queue, joinable, built]
    exact h.fresh
  · rw [stopper, shutdown]
    exact h.stopping
  · rw [stopper, built, joinable]
    exact h.joinable
  · rw [stopper, joinable]
    exact h.joined
  · rw [queue]
    exact fun down => rests down (h.quiet down)

/-- `stop` is on its way to the writer, which it can join. -/
theorem InOrderlyStop.of_joinsLater (pc : s.stopper.JoinsLater) (stopping : s.shutdown = true)
    (joinable : s.built = true ∧ s.writerJoinable = true)
    (quiet : s.queueShutdown = true → AtRest s)
    : InOrderlyStop s := by
  refine ⟨?_, ?_, fun _ => stopping, fun _ => joinable, ?_, quiet⟩
  all_goals
    intro elsewhere
    revert pc elsewhere
    cases s.stopper <;> simp [StopPc.JoinsLater, StopPc.Joined]

/-- `stop` is past the writer. -/
theorem InOrderlyStop.of_joined (pc : s.stopper.Joined) (stopping : s.shutdown = true)
    (joined : s.writerJoinable = false) (quiet : s.queueShutdown = true → AtRest s)
    : InOrderlyStop s := by
  refine ⟨?_, ?_, fun _ => stopping, ?_, fun _ => joined, quiet⟩
  all_goals
    intro elsewhere
    revert pc elsewhere
    cases s.stopper <;> simp [StopPc.JoinsLater, StopPc.Joined]

/-- A worker moves to where it will start nothing, and may wake the writer. -/
theorem AtRest.worker (h : AtRest s) {thread : Nat} {pc : WorkerPc}
    (workers : next.workers = Function.update s.workers thread pc)
    (threads : next.threads = s.threads)
    (writer : next.writer = s.writer ∨ next.writer = s.wake) (rests : ¬ pc.WillStart)
    : AtRest next := by
  refine ⟨?_, ?_⟩
  · intro other inside
    rw [workers]
    by_cases here : other = thread
    · rwa [here, Function.update_self]
    · rw [Function.update_of_ne here]
      exact h.1 other (threads ▸ inside)
  · rcases writer with same | woken
    · rw [same]
      exact h.2
    · rw [woken]
      exact fun iterating => h.2 ((wake_inner_iterating s).2 iterating)

/-- A worker on its way to an operation cannot be there after a tidy shutdown. -/
theorem AtRest.not_willStart {threads : Nat} (h : AtRest s) (known : ThreadsKnown threads s)
    {thread : Nat} {pc : WorkerPc} (here : s.workers thread = pc)
    : ¬ pc.WillStart := by
  intro will
  have present : s.workers thread ≠ .absent := by
    intro absent
    rw [← here, absent] at will
    exact will
  have inside : thread < s.threads := known.size ▸ known.inside thread present
  exact h.1 thread inside (here ▸ will)

/-- Nor can the writer be in an iteration. -/
theorem AtRest.not_iterating (h : AtRest s) {pc : WriterPc} (here : s.writer = pc)
    : ¬ pc.Iterating :=
  here ▸ h.2

theorem InOrderlyStop.step {threads : Nat} (h : InOrderlyStop s)
    (known : ThreadsKnown threads s) (tidy : Tidy s action) (taken : Step s action next)
    : InOrderlyStop next := by
  cases taken with
  | start fresh idle =>
      have closed := (h.fresh idle).1
      refine ⟨h.noCrash, fun _ => ⟨closed, rfl⟩, h.stopping, ?_, ?_, ?_⟩
      · simp [State.start, idle, StopPc.JoinsLater]
      · simp [State.start, idle, StopPc.Joined]
      · simp [State.start, closed]
  | cancel _ => exact h.frame rfl (fun _ rest => rest)
  | post _ => exact h.frame rfl (fun _ rest => rest.worker rfl rfl (Or.inl rfl) id)
  | loop _ =>
      refine h.frame rfl (fun _ rest => rest.worker rfl rfl (Or.inl rfl) ?_)
      split <;> exact id
  | deliver _ _ =>
      exact h.frame rfl (fun down rest => rest.worker rfl rfl (Or.inl rfl) (tidy down))
  | queueEnd _ _ _ => exact h.frame rfl (fun _ rest => rest.worker rfl rfl (Or.inl rfl) id)
  | accept pc | reject pc | storeChanged pc | notifyOne pc | read pc | finish pc =>
      exact h.frame rfl (fun _ rest => absurd trivial (rest.not_willStart known pc))
  | outer _ =>
      refine h.frame rfl (fun _ rest => ⟨rest.1, ?_⟩)
      split <;> exact id
  | pass | refuse | park => exact h.frame rfl (fun _ rest => ⟨rest.1, id⟩)
  | inner _ =>
      -- The flag was set before the queue was shut down, so the writer leaves its loop.
      refine h.frame rfl (fun down rest => ⟨rest.1, ?_⟩)
      have stopping : s.shutdown = true := by
        apply h.stopping
        intro idle
        simp [(h.fresh idle).1] at down
      simp [stopping, WriterPc.Iterating]
  | takeFlag pc | missFlag pc | copy pc | callback pc | write pc =>
      exact h.frame rfl (fun _ rest => absurd trivial (rest.not_iterating pc))
  | store _ =>
      obtain ⟨built, idle⟩ := tidy
      obtain ⟨closed, joinable⟩ := h.fresh idle
      exact .of_joinsLater trivial rfl ⟨built, joinable.trans built⟩ (by simp [closed])
  | shutdownServer pc =>
      have joinable := h.joinable (pc ▸ trivial)
      have goes : (if s.built = true then StopPc.queue else .crashed) = .queue :=
        if_pos joinable.1
      rw [goes]
      exact .of_joinsLater trivial (h.stopping (by simp [pc])) joinable h.quiet
  | shutdownQueue pc =>
      exact .of_joinsLater trivial (h.stopping (by simp [pc])) (h.joinable (pc ▸ trivial))
        (fun _ => tidy)
  | notifyAll pc =>
      refine .of_joinsLater trivial (h.stopping (by simp [pc])) (h.joinable (pc ▸ trivial)) ?_
      refine fun down => ⟨(h.quiet down).1, ?_⟩
      exact fun iterating => (h.quiet down).2 ((wake_inner_iterating s).2 iterating)
  | joinCrash pc joined =>
      have joinable := h.joinable (pc ▸ trivial)
      simp [joined] at joinable
  | joinWriter pc _ => exact .of_joined trivial (h.stopping (by simp [pc])) rfl h.quiet
  | drain pc =>
      refine .of_joined ?_ (h.stopping (by simp [pc])) (h.joined (pc ▸ trivial)) h.quiet
      simp [pc, StopPc.Joined]
  | joinedAll pc | joinWorker pc | drained pc =>
      exact .of_joined trivial (h.stopping (by simp [pc])) (h.joined (pc ▸ trivial)) h.quiet

end Steps

theorem inOrderlyStop_of_tidy {threads : Nat} {s : State Score}
    (reached : (machine Score threads).ReachableVia Tidy s)
    : InOrderlyStop s := by
  induction reached with
  | init =>
      refine ⟨by simp [machine], fun _ => ⟨rfl, rfl⟩, ?_, ?_, ?_, ?_⟩
      all_goals simp [machine, StopPc.JoinsLater, StopPc.Joined]
  | step before meets taken ih =>
      exact ih.step (threadsKnown_of_reachable before.reachable) meets (.of_step taken)

/-- A step that starts an operation is the last one of a handler or of an iteration of the
writer.
-/
theorem not_atRest_of_started {threads : Nat} {s next : State Score} {action : Action Score}
    (known : ThreadsKnown threads s) (taken : Step s action next)
    {operation : Operation Score} (started : next.log = s.log ++ [.started operation])
    : ¬ AtRest s := by
  intro rest
  cases taken with
  | read pc => exact rest.not_willStart known pc trivial
  | finish pc => exact rest.not_willStart known pc trivial
  | write pc => exact rest.not_iterating pc trivial
  | deliver | accept | callback => simp [State.deliver, State.accept, State.callback] at started
  | _ => simp [State.start, State.setWorker, State.storeChanged, State.notifyOne,
      State.takeFlag, State.adopt] at started

theorem InOrderlyStop.stopsSafely {threads : Nat} {s : State Score} (h : InOrderlyStop s)
    (known : ThreadsKnown threads s)
    : StopsSafely s := by
  refine ⟨h.noCrash, ?_⟩
  intro down action next operation taken started
  exact not_atRest_of_started known (.of_step taken) started (h.quiet down)

-----------------------------------------------------------------------------------------
-- An untidy step is not
-----------------------------------------------------------------------------------------

/-- Some run from here ends where `stop` has crashed or an operation is started late. -/
def Derails (threads : Nat) (s : State Score) : Prop :=
  ∃ tail final, (machine Score threads).runFrom s tail = some final ∧ ¬ StopsSafely final

section Derails

variable {threads : Nat} {s next : State Score}

/-- Whatever leads to an operation does so too late once the queue is shut down. -/
theorem Starts.derails (h : Starts threads s) (down : s.queueShutdown = true)
    : Derails threads s := by
  obtain ⟨tail, before, action, after, operation, _, ran, _, same, _, taken, log⟩ := h
  refine ⟨tail, before, ran, ?_⟩
  intro safe
  exact safe.closed (same.trans down) action after operation taken log

/-- `stop` on a server that was never started. -/
theorem derails_of_not_built (pc : s.stopper = .server) (fresh : s.built = false)
    : Derails threads s := by
  refine ⟨[.stop .shutdownServer], { s with stopper := .crashed }, ?_, fun safe => safe.1 rfl⟩
  simp [Machine.runFrom, machine, step, stopStep, pc, fresh]

/-- A second call of `stop` gets as far as the thread that the first one has joined. -/
theorem derails_of_joined (pc : s.stopper = .server) (built : s.built = true)
    (joined : s.writerJoinable = false)
    : Derails threads s := by
  refine ⟨[.stop .shutdownServer, .stop .shutdownQueue, .stop .notifyAll, .stop .joinWriter],
    { s with queueShutdown := true, writer := s.wake, stopper := .crashed }, ?_,
    fun safe => safe.1 rfl⟩
  simp [Machine.runFrom, machine, step, stopStep, pc, built, joined, State.wake]

/-- Every untidy step leads to a crash of `stop` or to a late operation. -/
theorem derails_of_not_tidy (h : InOrderlyStop s) {action : Action Score}
    (taken : Step s action next) (untidy : ¬ Tidy s action)
    : Derails threads next := by
  cases taken with
  | store pc =>
      by_cases built : s.built = true
      · have again : s.stopper = .done := by
          rcases pc with idle | done
          · exact absurd ⟨built, idle⟩ untidy
          · exact done
        exact derails_of_joined rfl built (h.joined (again ▸ trivial))
      · exact derails_of_not_built rfl (Bool.not_eq_true _ ▸ built)
  | shutdownQueue _ =>
      rcases not_and_or.mp untidy with busy | iterating
      · push Not at busy
        obtain ⟨thread, _, will⟩ := busy
        exact Starts.derails (starts_of_willStart thread will) rfl
      · exact Starts.derails (starts_of_iterating (not_not.mp iterating)) rfl
  | @deliver thread completion _ _ =>
      simp only [Tidy, Classical.not_imp, not_not] at untidy
      obtain ⟨down, will⟩ := untidy
      refine (starts_of_willStart thread ?_).derails down
      simpa [State.deliver] using will
  | _ => exact absurd trivial untidy

end Derails

-----------------------------------------------------------------------------------------
-- Every tidy run
-----------------------------------------------------------------------------------------

/-- Through every run of tidy steps `stop` neither uses an unset pointer nor joins a thread
that is not joinable, and no operation follows the shutdown of the queue; and the first step
that is not tidy already leads to one of these.
-/
theorem stopsSafely_of_tidy {threads : Nat} {s : State Score}
    (reached : (machine Score threads).ReachableVia Tidy s)
    : StopsSafely s
      ∧ ∀ action next,
          (machine Score threads).step s action = some next
          → ¬ Tidy s action
          → Derails threads next := by
  have inside := inOrderlyStop_of_tidy reached
  refine ⟨inside.stopsSafely (threadsKnown_of_reachable reached.reachable), ?_⟩
  intro action next taken untidy
  exact derails_of_not_tidy inside (.of_step taken) untidy

/-- A server with one worker whose client went away before its first request, and which is
then destroyed.
-/
def quietLife : List (Action Rat) :=
  [.start, .worker 0 .post, .worker 0 .loop, .writer .outer, .writer .test, .writer .park,
    .worker 0 (.deliver (.connect true)), .worker 0 .read, .worker 0 .loop,
    .worker 0 (.deliver (.read none)), .worker 0 .loop,
    .stop .store, .stop .shutdownServer, .stop .shutdownQueue, .stop .notifyAll,
    .writer .test, .writer .inner, .writer .outer, .stop .joinWriter,
    .worker 0 (.deliver (.finish true)), .worker 0 .loop, .stop .joinWorker,
    .stop .joinWorker, .stop .drained]

theorem stopsSafely_of_tidy_quietLife
    : ∃ s,
        (machine Rat 1).run quietLife = some s
        ∧ s.stopper = .done
        ∧ StopsSafely s
        ∧ ∀ action next,
            (machine Rat 1).step s action = some next
            → ¬ Tidy s action
            → Derails 1 next := by
  have reached (s : State Rat)
      (ran : ((machine Rat 1).guard Tidy).run quietLife = some s)
      : (machine Rat 1).ReachableVia Tidy s :=
    .of_guard ⟨quietLife, ran⟩
  exact ⟨_, rfl, rfl, stopsSafely_of_tidy (reached _ rfl)⟩

/-- The destructor of a server that was never started calls `Shutdown` on an unset
`m_server`.
-/
theorem stop_crashes_unstarted
    : ¬ ∀ (threads : Nat) (s : State Rat),
          (machine Rat threads).Reachable s → StopsSafely s := by
  intro all
  have safe := all 1 _ ⟨[.stop .store, .stop .shutdownServer], rfl⟩
  exact safe.noCrash rfl

end RVision.Rpc.Server
