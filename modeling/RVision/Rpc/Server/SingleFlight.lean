import Mathlib.Data.List.Infix
import RVision.Rpc.Server.History

/-! How many reads and writes of the stream are outstanding at once. The writer starts a
Write in every iteration and never waits for a write tag; a Read follows a connect tag or a
successful read. What keeps them apart is only the order of the steps.
-/

namespace RVision.Rpc.Server

open Transition

variable {Score : Type}

/-- At most one Write and at most one Read have been started whose tag has not yet been
delivered.
-/
def SingleFlight (s : State Score) : Prop :=
  s.outstanding.count .write ≤ 1 ∧ s.outstanding.count .read ≤ 1

namespace Action

/-- The writer starts a Write. -/
def isWrite : Action Score → Bool
  | .writer .write => true
  | _ => false

/-- A write tag is delivered. -/
def isWriteTag : Action Score → Bool
  | .worker _ (.deliver (.write _)) => true
  | _ => false

/-- A connect tag is delivered with `ok = true`. -/
def isConnect : Action Score → Bool
  | .worker _ (.deliver (.connect true)) => true
  | _ => false

/-- A read tag is delivered with `ok = false`. -/
def isFailedRead : Action Score → Bool
  | .worker _ (.deliver (.read none)) => true
  | _ => false

theorem isWriteTag_of_isWrite {action : Action Score} (write : action.isWrite = true)
    : action.isWriteTag = false := by
  unfold isWrite at write
  split at write
  · rfl
  · cases write

theorem isFailedRead_of_isConnect {action : Action Score} (connect : action.isConnect = true)
    : action.isFailedRead = false := by
  unfold isConnect at connect
  split at connect
  · rfl
  · cases connect

end Action

/-- Between any two Writes of the writer a write tag is delivered. -/
def WritesPaced : List (Action Score) → Prop := Separated Action.isWrite Action.isWriteTag

/-- Between any two connections a read tag is delivered with `ok = false`. -/
def ConnectsPaced : List (Action Score) → Prop :=
  Separated Action.isConnect Action.isFailedRead

/-- Single flight in every state that the run goes through. -/
def AlwaysSingleFlight (threads : Nat) (actions : List (Action Score)) : Prop :=
  ∀ head s, head <+: actions → (machine Score threads).run head = some s → SingleFlight s

-----------------------------------------------------------------------------------------
-- Where every tag is accounted for
-----------------------------------------------------------------------------------------

/-- The worker is in a handler that will end with a Read. -/
def WorkerPc.willRead : WorkerPc → Bool
  | .checking | .storing | .notifying | .reading => true
  | _ => false

/-- The worker has not yet asked for a connection. -/
def WorkerPc.willPost : WorkerPc → Bool
  | .posting => true
  | _ => false

/-- Outstanding writes are those started and not delivered; outstanding reads, and those
that a handler will start, come from connections whose last read has not failed. The loop that
drains the queue takes tags of its own, but then the writer is gone.
-/
structure Accounted (actions : List (Action Score)) (s : State Score) : Prop where
  writes
    : s.outstanding.count .write + actions.countP Action.isWriteTag
      ≤ actions.countP Action.isWrite
  exact
    : s.writer ≠ .exited
      → s.outstanding.count .write + actions.countP Action.isWriteTag
        = actions.countP Action.isWrite
  reads
    : s.outstanding.count .read + tally s.threads WorkerPc.willRead s.workers
        + actions.countP Action.isFailedRead
      ≤ actions.countP Action.isConnect
  connects
    : s.outstanding.count .connect + tally s.threads WorkerPc.willPost s.workers
        + actions.countP Action.isConnect
      ≤ s.threads
  unbuilt : s.built = false → actions.countP Action.isConnect = 0
  joined
    : (∃ joined, s.stopper = .joinWorkers joined) ∨ s.stopper = .drain ∨ s.stopper = .done
      → s.writer = .exited

/-- A step of a worker keeps the accounts when the tags it takes off and puts on the queue
match its own move and the action's label.
-/
theorem Accounted.worker {actions : List (Action Score)} {s t : State Score}
    {threads thread : Nat} {action : WorkerAction} {old new : WorkerPc}
    (h : Accounted actions s) (known : ThreadsKnown threads s)
    (pc : s.workers thread = old) (present : old ≠ .absent)
    (workers : t.threads = s.threads ∧ t.workers = Function.update s.workers thread new)
    (others : (t.writer = .exited ↔ s.writer = .exited) ∧ t.stopper = s.stopper
      ∧ t.built = true)
    (write : t.outstanding.count .write
        + (Action.worker thread action : Action Score).isWriteTag.toNat
      = s.outstanding.count .write)
    (read : t.outstanding.count .read + new.willRead.toNat
        + (Action.worker thread action : Action Score).isFailedRead.toNat
      = s.outstanding.count .read + old.willRead.toNat
        + (Action.worker thread action : Action Score).isConnect.toNat)
    (connect : t.outstanding.count .connect + new.willPost.toNat
        + (Action.worker thread action : Action Score).isConnect.toNat
      ≤ s.outstanding.count .connect + old.willPost.toNat)
    : Accounted (actions ++ [.worker thread action]) t := by
  have reads := known.tally_move WorkerPc.willRead pc present new
  have posts := known.tally_move WorkerPc.willPost pc present new
  have none : (Action.worker thread action : Action Score).isWrite.toNat = 0 := rfl
  constructor
  · have before := h.writes
    rw [countP_concat, countP_concat, none]
    omega
  · intro present
    have before := h.exact (fun gone => present (others.1.mpr gone))
    rw [countP_concat, countP_concat, none]
    omega
  · have before := h.reads
    rw [countP_concat, countP_concat, workers.1, workers.2]
    omega
  · have before := h.connects
    rw [countP_concat, workers.1, workers.2]
    omega
  · simp [others.2.2]
  · rw [others.2.1, others.1]
    exact h.joined

theorem wake_exited (s : State Score) : s.wake = .exited ↔ s.writer = .exited := by
  unfold State.wake
  split_ifs with parked
  · simp [parked]
  · rfl

/-- A delivery takes its own tag off the queue and no other. -/
theorem count_deliver {s : State Score} {completion : Completion}
    (tag : completion.tag ∈ s.outstanding) (thread : Nat) (status : CallStatus)
    : (s.deliver thread completion).outstanding.count status
        + (if completion.tag = status then 1 else 0)
      = s.outstanding.count status :=
  count_erase_add tag status

/-- Delivering a completion balances, by cases on the completion. -/
theorem Accounted.deliver {actions : List (Action Score)} {s : State Score}
    {threads thread : Nat} (h : Accounted actions s) (known : ThreadsKnown threads s)
    (built : s.built = true) {completion : Completion}
    (pc : s.workers thread = .waiting) (tag : completion.tag ∈ s.outstanding)
    : Accounted (actions ++ [.worker thread (.deliver completion)])
        (s.deliver thread completion) := by
  have writes := count_deliver tag thread .write
  have reads := count_deliver tag thread .read
  have connects := count_deliver tag thread .connect
  refine h.worker known pc (by simp) ⟨rfl, rfl⟩ ⟨Iff.rfl, rfl, built⟩ ?_ ?_ ?_
  all_goals rcases completion with (_ | _) | (_ | message) | (_ | _) | ok | ok
  all_goals simp only [Completion.tag, reduceCtorEq, if_false, if_true] at writes reads connects
  all_goals simp only [Action.isWriteTag, Action.isFailedRead, Action.isConnect,
    State.dispatch, WorkerPc.willRead, WorkerPc.willPost, Bool.toNat_true, Bool.toNat_false]
  all_goals first | omega | (split_ifs <;> simp only [Bool.toNat_false] <;> omega)

/-- A step of the writer or of `stop` other than a Write and the final drain. -/
theorem Accounted.frame {actions : List (Action Score)} {s t : State Score}
    (h : Accounted actions s) {action : Action Score}
    (silent : action.isWrite = false ∧ action.isWriteTag = false
      ∧ action.isConnect = false ∧ action.isFailedRead = false)
    (same : t.threads = s.threads ∧ t.workers = s.workers
      ∧ t.outstanding = s.outstanding ∧ t.built = s.built)
    (running : s.writer = .exited → t.writer = .exited)
    (joined : (∃ joined, t.stopper = .joinWorkers joined) ∨ t.stopper = .drain
        ∨ t.stopper = .done
      → t.writer = .exited)
    : Accounted (actions ++ [action]) t := by
  obtain ⟨isWrite, isWriteTag, isConnect, isFailedRead⟩ := silent
  obtain ⟨threads, workers, outstanding, built⟩ := same
  have count {holds : Action Score → Bool} (no : holds action = false) :=
    countP_concat_of_not actions no
  constructor
  · rw [count isWrite, count isWriteTag, outstanding]
    exact h.writes
  · rw [count isWrite, count isWriteTag, outstanding]
    exact fun present => h.exact (fun gone => present (running gone))
  · rw [count isConnect, count isFailedRead, outstanding, threads, workers]
    exact h.reads
  · rw [count isConnect, outstanding, threads, workers]
    exact h.connects
  · rw [count isConnect, built]
    exact h.unbuilt
  · exact joined

/-- `start` creates the workers, all of which will ask for a connection. -/
theorem Accounted.start {actions : List (Action Score)} {s : State Score}
    (h : Accounted actions s) (unbuilt : s.built = false) (idle : s.stopper = .idle)
    (fresh : Untouched s)
    : Accounted (actions ++ [.start]) s.start := by
  have count (holds : Action Score → Bool) (no : holds .start = false) :=
    countP_concat_of_not actions no
  have reads : tally s.threads WorkerPc.willRead s.start.workers = 0 := by
    apply tally_eq_zero
    intro thread
    simp only [State.start]
    split <;> rfl
  have posts : tally s.threads WorkerPc.willPost s.start.workers = s.threads := by
    apply tally_eq_size
    intro thread inside
    simp [State.start, inside, WorkerPc.willPost]
  have balanced := h.exact (by simp [fresh.writer])
  have failed := h.reads
  rw [fresh.outstanding] at balanced failed
  simp only [List.count_nil, Nat.zero_add] at balanced failed
  have none (status : CallStatus) (other : status ≠ .finish)
      : s.start.outstanding.count status = 0 := by
    simp [State.start, Ne.symm other]
  have size : s.start.threads = s.threads := rfl
  constructor
  · rw [count Action.isWrite rfl, count Action.isWriteTag rfl, none _ (by simp)]
    omega
  · intro _
    rw [count Action.isWrite rfl, count Action.isWriteTag rfl, none _ (by simp)]
    omega
  · rw [count Action.isConnect rfl, count Action.isFailedRead rfl, none _ (by simp), size,
      reads]
    omega
  · rw [count Action.isConnect rfl, none _ (by simp), size, posts, h.unbuilt unbuilt]
    omega
  · simp [State.start]
  · simp [State.start, idle]

theorem Accounted.write {actions : List (Action Score)} {s : State Score}
    (h : Accounted actions s) (pc : s.writer = .writing)
    : Accounted (actions ++ [.writer .write]) s.write := by
  have running : s.writer ≠ .exited := by simp [pc]
  have balanced := h.exact running
  have started : s.write.outstanding.count .write = s.outstanding.count .write + 1 := by
    simp [State.write, State.issue, Operation.tag]
  have other (status : CallStatus) (different : status ≠ .write)
      : s.write.outstanding.count status = s.outstanding.count status := by
    simp [State.write, State.issue, Operation.tag, Ne.symm different]
  have counted : (actions ++ [Action.writer .write]).countP Action.isWrite
      = actions.countP Action.isWrite + 1 := by
    simp [Action.isWrite]
  have silent (holds : Action Score → Bool) (no : holds (.writer .write) = false) :=
    countP_concat_of_not actions no
  constructor
  · rw [counted, silent Action.isWriteTag rfl, started]
    omega
  · intro _
    rw [counted, silent Action.isWriteTag rfl, started]
    omega
  · rw [silent Action.isConnect rfl, silent Action.isFailedRead rfl, other _ (by simp)]
    exact h.reads
  · rw [silent Action.isConnect rfl, other _ (by simp)]
    exact h.connects
  · rw [silent Action.isConnect rfl]
    exact h.unbuilt
  · intro late
    exact absurd (h.joined late) running

/-- The last loop of `stop` takes a tag that is left. -/
theorem Accounted.drain {actions : List (Action Score)} {s : State Score}
    (h : Accounted actions s) (pc : s.stopper = .drain) (status : CallStatus)
    : Accounted (actions ++ [.stop (.drain status)])
        { s with outstanding := s.outstanding.erase status } := by
  have exited : s.writer = .exited := h.joined (Or.inr (Or.inl pc))
  have writes := h.writes
  have reads := h.reads
  have connects := h.connects
  constructor
  · simp [Action.isWrite, Action.isWriteTag, List.count_erase]
    omega
  · exact fun present => absurd exited present
  · simp [Action.isConnect, Action.isFailedRead, List.count_erase]
    omega
  · simp [Action.isConnect, List.count_erase]
    omega
  · simpa [Action.isConnect] using h.unbuilt
  · exact fun _ => exited

/-- Every step keeps the accounts, by cases on the transition. -/
theorem Accounted.step {actions : List (Action Score)} {s next : State Score}
    {threads : Nat} (h : Accounted actions s) (known : ThreadsKnown threads s)
    (fresh : s.built = false → Untouched s) {action : Action Score}
    (taken : Step s action next)
    : Accounted (actions ++ [action]) next := by
  have present {thread : Nat} {pc : WorkerPc} (here : s.workers thread = pc)
      (there : pc ≠ .absent)
      : s.built = true := by
    by_contra unbuilt
    have absent := (fresh (by simpa using unbuilt)).workers thread
    exact there (here.symm.trans absent)
  cases taken with
  | start unbuilt idle => exact h.start unbuilt idle (fresh unbuilt)
  | cancel => exact h.frame ⟨rfl, rfl, rfl, rfl⟩ ⟨rfl, rfl, rfl, rfl⟩ id h.joined
  | post pc =>
      exact h.worker known pc (by simp) ⟨rfl, rfl⟩
        ⟨Iff.rfl, rfl, present pc (by simp)⟩
        (by simp [Action.isWriteTag])
        (by simp [Action.isFailedRead, Action.isConnect, WorkerPc.willRead])
        (by simp [Action.isConnect, WorkerPc.willPost])
  | loop pc =>
      exact h.worker known pc (by simp) ⟨rfl, rfl⟩
        ⟨Iff.rfl, rfl, present pc (by simp)⟩ rfl (by split_ifs <;> rfl)
        (by split_ifs <;> simp [State.setWorker, Action.isConnect, WorkerPc.willPost])
  | deliver pc tag => exact h.deliver known (present pc (by simp)) pc tag
  | queueEnd pc =>
      exact h.worker known pc (by simp) ⟨rfl, rfl⟩
        ⟨Iff.rfl, rfl, present pc (by simp)⟩ rfl rfl (le_refl _)
  | accept pc | reject pc | storeChanged pc =>
      exact h.worker known pc (by simp) ⟨rfl, rfl⟩
        ⟨Iff.rfl, rfl, present pc (by simp)⟩ rfl rfl (le_refl _)
  | notifyOne pc =>
      exact h.worker known pc (by simp) ⟨rfl, rfl⟩
        ⟨wake_exited s, rfl, present pc (by simp)⟩ rfl rfl (le_refl _)
  | read pc =>
      refine h.worker known pc (by simp) ⟨rfl, rfl⟩
        ⟨Iff.rfl, rfl, present pc (by simp)⟩ ?_ ?_ ?_
      all_goals simp [State.read, State.issue, Operation.tag, Action.isWriteTag,
        Action.isFailedRead, Action.isConnect, WorkerPc.willRead, WorkerPc.willPost]
  | finish pc =>
      refine h.worker known pc (by simp) ⟨rfl, rfl⟩
        ⟨Iff.rfl, rfl, present pc (by simp)⟩ ?_ ?_ ?_
      all_goals simp [State.finish, State.issue, Operation.tag, Action.isWriteTag,
        Action.isFailedRead, Action.isConnect, WorkerPc.willRead, WorkerPc.willPost]
  | write pc => exact h.write pc
  | outer pc | pass pc | refuse pc | park pc | inner pc | takeFlag pc | missFlag pc
    | copy pc | callback pc =>
      have running : s.writer ≠ .exited := by simp [pc]
      exact h.frame ⟨rfl, rfl, rfl, rfl⟩ ⟨rfl, rfl, rfl, rfl⟩
        (fun gone => absurd gone running) (fun late => absurd (h.joined late) running)
  | notifyAll pc =>
      exact h.frame ⟨rfl, rfl, rfl, rfl⟩ ⟨rfl, rfl, rfl, rfl⟩ (wake_exited s).mpr (by simp)
  | store | shutdownQueue | joinCrash =>
      exact h.frame ⟨rfl, rfl, rfl, rfl⟩ ⟨rfl, rfl, rfl, rfl⟩ id (by simp)
  | shutdownServer =>
      exact h.frame ⟨rfl, rfl, rfl, rfl⟩ ⟨rfl, rfl, rfl, rfl⟩ id (by split_ifs <;> simp)
  | joinWriter _ exited =>
      exact h.frame ⟨rfl, rfl, rfl, rfl⟩ ⟨rfl, rfl, rfl, rfl⟩ id (fun _ => exited)
  | drained pc =>
      exact h.frame ⟨rfl, rfl, rfl, rfl⟩ ⟨rfl, rfl, rfl, rfl⟩ id
        (fun _ => h.joined (Or.inr (Or.inl pc)))
  | joinedAll pc | joinWorker pc =>
      exact h.frame ⟨rfl, rfl, rfl, rfl⟩ ⟨rfl, rfl, rfl, rfl⟩ id
        (fun _ => h.joined (Or.inl ⟨_, pc⟩))
  | drain pc => exact h.drain pc _

theorem accounted_of_run {threads : Nat} {actions : List (Action Score)} {s : State Score}
    (ran : (machine Score threads).run actions = some s)
    : Accounted actions s := by
  refine Machine.run_induction (motive := Accounted) ?_ ?_ ran
  · have none (holds : WorkerPc → Bool) (no : holds .absent = false)
        : tally threads holds (fun _ => .absent) = 0 :=
      tally_eq_zero threads (fun _ => no)
    constructor <;> simp [machine, none WorkerPc.willRead rfl, none WorkerPc.willPost rfl]
  · intro actions s action next before accounted taken
    have reached : (machine Score threads).Reachable s := ⟨actions, before⟩
    exact accounted.step (threadsKnown_of_reachable reached)
      (untouched_of_reachable reached) (.of_step taken)

/-- The log records a successful connection. -/
def isConnected : Event Score → Bool
  | .delivered (.connect true) => true
  | _ => false

/-- A step adds a connection to the log exactly when it delivers one. -/
theorem Step.connections {s next : State Score} {action : Action Score}
    (taken : Step s action next)
    : next.log.countP isConnected = s.log.countP isConnected + action.isConnect.toNat := by
  cases taken with
  | @deliver thread completion =>
      have same : isConnected (.delivered completion : Event Score)
          = (Action.worker thread (.deliver completion) : Action Score).isConnect := by
        rcases completion with (_ | _) | _ | _ | _ | _ <;> rfl
      simp only [State.deliver, countP_concat, same]
  | accept | callback | write | read | finish => exact countP_concat_of_not s.log rfl
  | _ => rfl

/-- The log counts the connections that the run delivered. -/
theorem countP_isConnected_of_run {threads : Nat} {actions : List (Action Score)}
    {s : State Score} (ran : (machine Score threads).run actions = some s)
    : s.log.countP isConnected = actions.countP Action.isConnect := by
  refine Machine.run_induction
    (motive := fun actions s => s.log.countP isConnected = actions.countP Action.isConnect)
    rfl ?_ ran
  intro actions s action next _ counted taken
  rw [(Step.of_step taken).connections, countP_concat, counted]

/-- With one connection at most one Read is outstanding or to come. -/
theorem reads_le_connections {threads : Nat} {s : State Score}
    (reached : (machine Score threads).Reachable s)
    : s.outstanding.count .read + tally s.threads WorkerPc.willRead s.workers
      ≤ s.log.countP isConnected := by
  obtain ⟨actions, ran⟩ := reached
  have reads := (accounted_of_run ran).reads
  have counted := countP_isConnected_of_run ran
  omega

-----------------------------------------------------------------------------------------
-- Single flight is pacing
-----------------------------------------------------------------------------------------

/-- A paced run is single-flight throughout, by the accounts of each of its prefixes. -/
theorem alwaysSingleFlight_of_paced {threads : Nat} {actions : List (Action Score)}
    (writes : WritesPaced actions) (connects : ConnectsPaced actions)
    : AlwaysSingleFlight threads actions := by
  intro head s before ran
  have accounted := accounted_of_run ran
  have started := accounted.writes
  have pacedWrites := (Separated.of_isPrefix writes before).countP_le.1
  have reading := accounted.reads
  have pacedConnects := (Separated.of_isPrefix connects before).countP_le.1
  constructor <;> omega

/-- A run that is single-flight throughout starts at most one Write more than it delivers
write tags. Witness: the newest action; only a Write can break the bound, and a writer that
has just written is not gone, so that its accounts are exact.
-/
theorem writes_le_of_alwaysSingleFlight {threads : Nat} {actions : List (Action Score)}
    {final : State Score} (ran : (machine Score threads).run actions = some final)
    (single : AlwaysSingleFlight threads actions)
    : actions.countP Action.isWrite ≤ actions.countP Action.isWriteTag + 1 := by
  induction actions using List.reverseRecOn generalizing final with
  | nil => simp
  | append_singleton head action ih =>
      obtain ⟨s, reached, taken⟩ := Machine.run_concat_eq_some.mp ran
      have earlier := ih reached
        (fun shorter s before => single shorter s (before.trans (List.prefix_append _ _)))
      have flight := (single _ final (List.prefix_refl _) ran).1
      rw [countP_concat, countP_concat]
      cases write : action.isWrite with
      | true =>
          have running : final.writer ≠ .exited := by
            cases Step.of_step taken <;> simp [Action.isWrite] at write
            simp
          have balanced := (accounted_of_run ran).exact running
          rw [countP_concat, countP_concat, write] at balanced
          omega
      | false =>
          rw [Bool.toNat_false]
          omega

/-- A run that is single-flight throughout has paced its writes: their tags never run
ahead of them.
-/
theorem writesPaced_of_alwaysSingleFlight {threads : Nat} {actions : List (Action Score)}
    {final : State Score} (ran : (machine Score threads).run actions = some final)
    (single : AlwaysSingleFlight threads actions)
    : WritesPaced actions := by
  refine separated_of_balanced (fun _ => Action.isWriteTag_of_isWrite) ?_
  intro head before
  obtain ⟨s, reached⟩ := Machine.run_prefix ran before
  have delivered := (accounted_of_run reached).writes
  have started := writes_le_of_alwaysSingleFlight reached
    (fun shorter s earlier => single shorter s (earlier.trans before))
  omega

/-- With one worker there is only one connection to deliver. -/
theorem connectsPaced_of_one_thread {actions : List (Action Score)} {final : State Score}
    (ran : (machine Score 1).run actions = some final)
    : ConnectsPaced actions := by
  have connects := (accounted_of_run ran).connects
  have size := (threadsKnown_of_reachable ⟨actions, ran⟩).size
  exact separated_of_countP_le_one (by omega)

/-- For every number of workers: a run in which a write tag is delivered between any two
Writes, and a failed read between any two connections, is single-flight throughout; pacing
the writes is necessary; and with one worker the connections pace themselves.
-/
theorem alwaysSingleFlight_paced {threads : Nat} {actions : List (Action Score)}
    {final : State Score} (ran : (machine Score threads).run actions = some final)
    : (WritesPaced actions ∧ ConnectsPaced actions → AlwaysSingleFlight threads actions)
      ∧ (AlwaysSingleFlight threads actions → WritesPaced actions)
      ∧ (threads = 1 → ConnectsPaced actions) := by
  refine ⟨?_, writesPaced_of_alwaysSingleFlight ran, ?_⟩
  · intro paced
    exact alwaysSingleFlight_of_paced paced.1 paced.2
  · intro one
    subst one
    exact connectsPaced_of_one_thread ran

/-- One accepted request, up to the writer's first Write. -/
def firstWrite : List (Action Rat) :=
  [.start, .writer .outer, .worker 0 .post, .worker 0 .loop,
    .worker 0 (.deliver (.connect true)), .worker 0 .read, .worker 0 .loop,
    .worker 0 (.deliver (.read (some { pollingPeriod := 0, sports := ["football"] }))),
    .worker 0 .checkRequest, .worker 0 .storeChanged, .worker 0 .notifyOne,
    .worker 0 .read, .worker 0 .loop, .writer .test, .writer .inner, .writer .exchange,
    .writer .copy, .writer (.callback [("football", 3)]), .writer .write]

/-- The writer's next iteration, without a delivery in between. -/
def nextWrite : List (Action Rat) :=
  [.writer .inner, .writer .exchange, .writer (.callback [("football", 1)]),
    .writer .write]

/-- The tag of that Write before the next one, and then a second stream when the reads of the
first have failed.
-/
def pacedWrites : List (Action Rat) :=
  firstWrite ++ [.worker 0 (.deliver (.write true)), .worker 0 .loop] ++ nextWrite
    ++ [.worker 0 (.deliver (.read none)), .worker 1 .post, .worker 1 .loop,
      .worker 1 (.deliver (.connect true)), .worker 1 .read]

theorem alwaysSingleFlight_paced_pacedWrites
    : ∃ final,
        (machine Rat 2).run pacedWrites = some final
        ∧ pacedWrites.countP Action.isWrite = 2
        ∧ pacedWrites.countP Action.isConnect = 2
        ∧ WritesPaced pacedWrites
        ∧ ConnectsPaced pacedWrites
        ∧ AlwaysSingleFlight 2 pacedWrites := by
  have balanced
      : ∀ head ∈ pacedWrites.inits,
          (head.countP Action.isWriteTag ≤ head.countP Action.isWrite
            ∧ head.countP Action.isWrite ≤ head.countP Action.isWriteTag + 1)
          ∧ head.countP Action.isFailedRead ≤ head.countP Action.isConnect
            ∧ head.countP Action.isConnect ≤ head.countP Action.isFailedRead + 1 := by
    decide +kernel
  have writes : WritesPaced pacedWrites :=
    separated_of_balanced (fun _ => Action.isWriteTag_of_isWrite)
      (fun head before => (balanced head ((List.mem_inits ..).mpr before)).1)
  have connects : ConnectsPaced pacedWrites :=
    separated_of_balanced (fun _ => Action.isFailedRead_of_isConnect)
      (fun head before => (balanced head ((List.mem_inits ..).mpr before)).2)
  obtain ⟨final, ran⟩ : ∃ final, (machine Rat 2).run pacedWrites = some final := ⟨_, rfl⟩
  exact ⟨final, ran, rfl, rfl, writes, connects,
    (alwaysSingleFlight_paced ran).1 ⟨writes, connects⟩⟩

theorem two_writes_outstanding
    : ¬ ∀ threads s, 1 ≤ threads → (machine Rat threads).Reachable s → SingleFlight s := by
  intro all
  have flight := all 1 _ (le_refl 1) ⟨firstWrite ++ nextWrite, rfl⟩
  exact absurd flight.1 (by decide)

end RVision.Rpc.Server
