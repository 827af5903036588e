import RVision.Rpc.Server.Machine

/-! Everything a step of the server can do, one constructor for each outcome. Invariants are
proved by cases on `Step` and never unfold the machine.
-/

namespace RVision.Rpc.Server

variable {Score : Type}

namespace State

/-- `check_request` accepted the message in `m_request`. -/
def accept (s : State Score) (thread : Nat) : State Score :=
  { s with
    subscription := { s.subscription with lastReq := s.subscription.request }
    workers := Function.update s.workers thread .storing
    log := s.log ++ [.accepted s.subscription.request] }

/-- The writer has taken the flag and not yet copied the request. -/
def takeFlag (s : State Score) : State Score :=
  { s with
    subscription := { s.subscription with changed := false }
    writer := .copying
    sports := [] }

/-- The writer goes on with the period and the sports of `m_last_req`. -/
def adopt (s : State Score) : State Score :=
  { s with
    writer := .calling true
    period := s.subscription.lastReq.pollingPeriod
    sports := s.sports ++ s.subscription.lastReq.sports }

@[simp] theorem takeFlag_writer (s : State Score) : s.takeFlag.writer = .copying := rfl

@[simp] theorem adopt_writer (s : State Score) : s.adopt.writer = .calling true := rfl

@[simp] theorem callback_writer (s : State Score) (changed : Bool)
    (lines : List (String × Score))
    : (s.callback changed lines).writer = .writing := rfl

@[simp] theorem write_writer (s : State Score) : s.write.writer = .inner := rfl

end State

/-- The transitions of the server with their guards. -/
inductive Step (s : State Score) : Action Score → State Score → Prop
  | start (fresh : s.built = false) (idle : s.stopper = .idle) : Step s .start s.start
  | cancel (built : s.built = true) : Step s .cancel { s with cancelled := true }
  | post {thread} (pc : s.workers thread = .posting)
    : Step s (.worker thread .post)
        { s.setWorker thread .looping with outstanding := s.outstanding ++ [.connect] }
  | loop {thread} (pc : s.workers thread = .looping)
    : Step s (.worker thread .loop)
        (s.setWorker thread (if s.shutdown then .exited else .waiting))
  | deliver {thread completion} (pc : s.workers thread = .waiting)
    (tag : completion.tag ∈ s.outstanding)
    : Step s (.worker thread (.deliver completion)) (s.deliver thread completion)
  | queueEnd {thread} (pc : s.workers thread = .waiting)
    (down : s.queueShutdown = true) (drained : s.outstanding = [])
    : Step s (.worker thread .queueEnd) (s.setWorker thread .exited)
  | accept {thread} (pc : s.workers thread = .checking)
    (differs : Subscription.Differs s.subscription.lastReq s.subscription.request)
    : Step s (.worker thread .checkRequest) (s.accept thread)
  | reject {thread} (pc : s.workers thread = .checking)
    (same : ¬ Subscription.Differs s.subscription.lastReq s.subscription.request)
    : Step s (.worker thread .checkRequest) (s.setWorker thread .reading)
  | storeChanged {thread} (pc : s.workers thread = .storing)
    : Step s (.worker thread .storeChanged) (s.storeChanged thread)
  | notifyOne {thread} (pc : s.workers thread = .notifying)
    : Step s (.worker thread .notifyOne) (s.notifyOne thread)
  | read {thread} (pc : s.workers thread = .reading)
    : Step s (.worker thread .read) (s.read thread)
  | finish {thread} (pc : s.workers thread = .finishing)
    : Step s (.worker thread .finish) (s.finish thread)
  | outer (pc : s.writer = .outer)
    : Step s (.writer .outer)
        { s with writer := if s.shutdown then .exited else .testing }
  | pass (pc : s.writer = .testing)
    (ready : s.shutdown = true ∨ s.subscription.changed = true)
    : Step s (.writer .test) { s with writer := .inner, sports := [], period := 0 }
  | refuse (pc : s.writer = .testing) (running : s.shutdown = false)
    (unchanged : s.subscription.changed = false)
    : Step s (.writer .test) { s with writer := .parking }
  | park (pc : s.writer = .parking) : Step s (.writer .park) { s with writer := .parked }
  | inner (pc : s.writer = .inner)
    : Step s (.writer .inner)
        { s with writer := if s.shutdown then .outer else .exchanging }
  | takeFlag (pc : s.writer = .exchanging) (changed : s.subscription.changed = true)
    : Step s (.writer .exchange) s.takeFlag
  | missFlag (pc : s.writer = .exchanging) (unchanged : s.subscription.changed = false)
    : Step s (.writer .exchange) { s with writer := .calling false }
  | copy (pc : s.writer = .copying) : Step s (.writer .copy) s.adopt
  | callback {changed lines} (pc : s.writer = .calling changed)
    : Step s (.writer (.callback lines)) (s.callback changed lines)
  | write (pc : s.writer = .writing) : Step s (.writer .write) s.write
  | store (pc : s.stopper = .idle ∨ s.stopper = .done)
    : Step s (.stop .store) { s with shutdown := true, stopper := .server }
  | shutdownServer (pc : s.stopper = .server)
    : Step s (.stop .shutdownServer)
        { s with stopper := if s.built then .queue else .crashed }
  | shutdownQueue (pc : s.stopper = .queue)
    : Step s (.stop .shutdownQueue) { s with queueShutdown := true, stopper := .notify }
  | notifyAll (pc : s.stopper = .notify)
    : Step s (.stop .notifyAll) { s with writer := s.wake, stopper := .joinWriter }
  | joinCrash (pc : s.stopper = .joinWriter) (joined : s.writerJoinable = false)
    : Step s (.stop .joinWriter) { s with stopper := .crashed }
  | joinWriter (pc : s.stopper = .joinWriter) (exited : s.writer = .exited)
    : Step s (.stop .joinWriter)
        { s with writerJoinable := false, stopper := .joinWorkers 0 }
  | joinedAll (pc : s.stopper = .joinWorkers s.threads)
    : Step s (.stop .joinWorker) { s with stopper := .drain }
  | joinWorker {joined} (pc : s.stopper = .joinWorkers joined)
    (exited : s.workers joined = .exited)
    : Step s (.stop .joinWorker) { s with stopper := .joinWorkers (joined + 1) }
  | drain {status} (pc : s.stopper = .drain) (tag : status ∈ s.outstanding)
    : Step s (.stop (.drain status)) { s with outstanding := s.outstanding.erase status }
  | drained (pc : s.stopper = .drain) (down : s.queueShutdown = true)
    (empty : s.outstanding = [])
    : Step s (.stop .drained) { s with stopper := .done }

/-- `check_request` either accepts the message or changes nothing. -/
theorem State.check_eq (s : State Score) (thread : Nat)
    : s.check thread
      = if Subscription.Differs s.subscription.lastReq s.subscription.request then
          s.accept thread
        else
          s.setWorker thread .reading := by
  unfold State.check
  split_ifs with differs
  · rw [Subscription.checkRequest_of_differs differs]
    rfl
  · rw [Subscription.checkRequest_of_not_differs differs]
    rfl

/-- Copying the sports one by one appends them in order. -/
theorem State.copy_eq (s : State Score) : s.copy = s.adopt := by
  have copied (before sports : List String)
      : sports.foldl (fun sports sport => sports ++ [sport]) before = before ++ sports := by
    induction sports generalizing before with
    | nil => simp
    | cons sport rest ih => simp [ih]
  simp [State.copy, State.adopt, copied]

/-- Every step of a worker is one of the transitions. -/
theorem Step.of_workerStep {s next : State Score} {thread : Nat} {action : WorkerAction}
    (taken : workerStep s thread action = some next)
    : Step s (.worker thread action) next := by
  cases action <;> simp only [workerStep, Option.ite_none_right_eq_some] at taken
  all_goals obtain ⟨guard, effect⟩ := taken
  all_goals obtain rfl := Option.some.inj effect
  case post => exact .post guard
  case loop => exact .loop guard
  case deliver completion => exact .deliver guard.1 guard.2
  case queueEnd => exact .queueEnd guard.1 guard.2.1 guard.2.2
  case checkRequest =>
    rw [State.check_eq]
    split_ifs with differs
    · exact .accept guard differs
    · exact .reject guard differs
  case storeChanged => exact .storeChanged guard
  case notifyOne => exact .notifyOne guard
  case read => exact .read guard
  case finish => exact .finish guard

/-- Every step of the writer is one of the transitions. -/
theorem Step.of_writerStep {s next : State Score} {action : WriterAction Score}
    (taken : writerStep s action = some next)
    : Step s (.writer action) next := by
  cases action <;> simp only [writerStep, Option.ite_none_right_eq_some] at taken
  case callback lines =>
    split at taken
    · rename_i changed pc
      obtain rfl := Option.some.inj taken
      exact .callback pc
    · cases taken
  all_goals obtain ⟨pc, effect⟩ := taken
  all_goals obtain rfl := Option.some.inj effect
  case outer => exact .outer pc
  case test =>
    unfold State.test
    split_ifs with ready
    · exact .pass pc (by simpa using ready)
    · simp only [Bool.or_eq_true, not_or, Bool.not_eq_true] at ready
      exact .refuse pc ready.1 ready.2
  case park => exact .park pc
  case inner => exact .inner pc
  case exchange =>
    cases changed : s.subscription.changed with
    | true =>
        have effect : s.exchange = s.takeFlag := by
          simp [State.exchange, Subscription.exchange, changed, State.takeFlag]
        rw [effect]
        exact .takeFlag pc changed
    | false =>
        have effect : s.exchange = { s with writer := .calling false } := by
          simp [State.exchange, Subscription.exchange, changed]
        rw [effect]
        exact .missFlag pc changed
  case copy =>
    rw [State.copy_eq]
    exact .copy pc
  case write => exact .write pc

/-- Every step of `stop` is one of the transitions. -/
theorem Step.of_stopStep {s next : State Score} {action : StopAction}
    (taken : stopStep s action = some next)
    : Step s (.stop action) next := by
  cases action <;> simp only [stopStep, Option.ite_none_right_eq_some] at taken
  case joinWriter =>
    split_ifs at taken with crash join
    · obtain rfl := Option.some.inj taken
      exact .joinCrash crash.1 crash.2
    · obtain rfl := Option.some.inj taken
      exact .joinWriter join.1 join.2
  case joinWorker =>
    split at taken
    · rename_i joined pc
      split_ifs at taken with all exited
      · obtain rfl := Option.some.inj taken
        exact .joinedAll (all ▸ pc)
      · obtain rfl := Option.some.inj taken
        exact .joinWorker pc exited
    · cases taken
  all_goals obtain ⟨pc, effect⟩ := taken
  all_goals obtain rfl := Option.some.inj effect
  case store => exact .store pc
  case shutdownServer => exact .shutdownServer pc
  case shutdownQueue => exact .shutdownQueue pc
  case notifyAll => exact .notifyAll pc
  case drain => exact .drain pc.1 pc.2
  case drained => exact .drained pc.1 pc.2.1 pc.2.2

/-- Every step of the machine is one of the transitions. -/
theorem Step.of_step {s next : State Score} {action : Action Score}
    (taken : step s action = some next)
    : Step s action next := by
  cases action with
  | start =>
      simp only [step, Option.ite_none_right_eq_some] at taken
      obtain ⟨guard, effect⟩ := taken
      obtain rfl := Option.some.inj effect
      exact .start guard.1 guard.2
  | cancel =>
      simp only [step, Option.ite_none_right_eq_some] at taken
      obtain ⟨built, effect⟩ := taken
      obtain rfl := Option.some.inj effect
      exact .cancel built
  | worker thread action => exact .of_workerStep taken
  | writer action => exact .of_writerStep taken
  | stop action => exact .of_stopStep taken

end RVision.Rpc.Server
