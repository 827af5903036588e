import RVision.Rpc.Server.LastRead
import RVision.Rpc.Server.Stopping

/-! The streams of a server. Every worker brings one with it, as the request for a connection
that it posts; a stream is then a connection to come, a read, or a handler that will start the
next read, until its connection or one of its reads fails. So a running server can accept another
request exactly as long as it has had fewer of these failures than it has workers.
-/

namespace RVision.Rpc.Server

open Transition

variable {Score : Type}

/-- The log records a connection or a read that failed. -/
def isStreamFailure : Event Score → Bool
  | .delivered (.connect false) | .delivered (.read none) => true
  | _ => false

/-- The worker has a stream in hand. -/
def WorkerPc.hasStream (pc : WorkerPc) : Bool :=
  pc.willPost || pc.willRead

/-- The streams that have not failed. -/
def State.streams (s : State Score) : Nat :=
  s.outstanding.count .connect + s.outstanding.count .read
    + tally s.threads WorkerPc.hasStream s.workers

/-- The streams that have not failed, and those that have. -/
def State.allStreams (s : State Score) : Nat :=
  s.streams + s.log.countP isStreamFailure

-----------------------------------------------------------------------------------------
-- No stream gets lost
-----------------------------------------------------------------------------------------

section Conservation

variable {threads : Nat} {s next : State Score}

/-- A worker moves on and trades what it has in hand for what is outstanding or has failed. -/
theorem allStreams_move (known : ThreadsKnown threads s) {thread : Nat} {old new : WorkerPc}
    (pc : s.workers thread = old) (present : old ≠ .absent)
    (size : next.threads = s.threads)
    (workers : next.workers = Function.update s.workers thread new)
    (traded : next.outstanding.count .connect + next.outstanding.count .read
        + new.hasStream.toNat + next.log.countP isStreamFailure
      = s.outstanding.count .connect + s.outstanding.count .read
        + old.hasStream.toNat + s.log.countP isStreamFailure)
    : next.allStreams = s.allStreams := by
  have moved := known.tally_move WorkerPc.hasStream pc present new
  simp only [State.allStreams, State.streams, size, workers]
  omega

/-- A completion that is delivered is a read to come, a failure, or no stream at all. -/
theorem allStreams_deliver (known : ThreadsKnown threads s) {thread : Nat}
    {completion : Completion} (pc : s.workers thread = .waiting)
    (tag : completion.tag ∈ s.outstanding)
    : (s.deliver thread completion).allStreams = s.allStreams := by
  have reads := count_deliver tag thread .read
  have connects := count_deliver tag thread .connect
  have failures
      : (s.deliver thread completion).log.countP isStreamFailure
        = s.log.countP isStreamFailure
          + (isStreamFailure (.delivered completion : Event Score)).toNat := by
    simp only [State.deliver, countP_concat]
  refine allStreams_move known pc (by simp) rfl rfl ?_
  rw [failures]
  rcases completion with (_ | _) | (_ | message) | (_ | _) | ok | ok
  all_goals simp only [Completion.tag, reduceCtorEq, if_false, if_true] at reads connects
  all_goals simp only [isStreamFailure, State.dispatch, WorkerPc.hasStream, WorkerPc.willPost,
    WorkerPc.willRead, Bool.or_false, Bool.or_true, Bool.toNat_true, Bool.toNat_false]
  all_goals first | omega | (split_ifs <;> simp only [Bool.or_false, Bool.toNat_false] <;> omega)

/-- Of all that a started server does, only the last loop of `stop` drops streams. -/
theorem Step.allStreams {action : Action Score} (known : ThreadsKnown threads s)
    (built : s.built = true) (taken : Step s action next)
    : next.allStreams = s.allStreams ∨ (s.stopper = .drain ∧ next.allStreams ≤ s.allStreams) := by
  cases taken with
  | start unbuilt => simp [built] at unbuilt
  | post pc =>
      refine Or.inl (allStreams_move known pc (by simp) rfl rfl ?_)
      simp [State.setWorker, WorkerPc.hasStream, WorkerPc.willPost, WorkerPc.willRead]
      omega
  | loop pc =>
      refine Or.inl (allStreams_move known pc (by simp) rfl rfl ?_)
      split_ifs <;> rfl
  | deliver pc tag => exact Or.inl (allStreams_deliver known pc tag)
  | accept pc =>
      refine Or.inl (allStreams_move known pc (by simp) rfl rfl ?_)
      simp [State.accept, isStreamFailure, WorkerPc.hasStream, WorkerPc.willPost,
        WorkerPc.willRead]
  | queueEnd pc | reject pc | storeChanged pc | notifyOne pc =>
      exact Or.inl (allStreams_move known pc (by simp) rfl rfl rfl)
  | read pc =>
      refine Or.inl (allStreams_move known pc (by simp) rfl rfl ?_)
      simp [State.read, State.issue, Operation.tag, isStreamFailure, WorkerPc.hasStream,
        WorkerPc.willPost, WorkerPc.willRead]
      omega
  | finish pc =>
      refine Or.inl (allStreams_move known pc (by simp) rfl rfl ?_)
      simp [State.finish, State.issue, Operation.tag, isStreamFailure, WorkerPc.hasStream,
        WorkerPc.willPost, WorkerPc.willRead]
  | callback pc =>
      left
      simp [State.allStreams, State.streams, State.callback, isStreamFailure]
  | write pc =>
      left
      simp [State.allStreams, State.streams, State.write, State.issue, Operation.tag,
        isStreamFailure]
  | drain pc =>
      refine Or.inr ⟨pc, ?_⟩
      simp only [State.allStreams, State.streams, List.count_erase]
      omega
  | _ => exact Or.inl rfl

theorem allStreams_start (s : State Score) (fresh : Untouched s)
    : s.start.allStreams = s.threads := by
  have posting : tally s.threads WorkerPc.hasStream s.start.workers = s.threads := by
    apply tally_eq_size
    intro thread inside
    simp [State.start, inside, WorkerPc.hasStream, WorkerPc.willPost]
  have size : s.start.threads = s.threads := rfl
  rw [State.allStreams, State.streams, size, posting]
  simp [State.start, fresh.log]

/-- A started server has as many streams as workers, failed or not, until `stop` drains them. -/
theorem allStreams_of_reachable (reached : (machine Score threads).Reachable s)
    (built : s.built = true)
    : s.allStreams ≤ threads ∧ (s.shutdown = false → s.allStreams = threads) := by
  refine reached.invariant
    (motive := fun s => s.built = true
      → s.allStreams ≤ threads ∧ (s.shutdown = false → s.allStreams = threads))
    (fun there => by simp [machine] at there) ?_ built
  intro s action next before counted taken there
  have step := Step.of_step taken
  have known := threadsKnown_of_reachable before
  by_cases built : s.built = true
  · obtain ⟨bounded, kept⟩ := counted built
    rcases step.allStreams known built with same | ⟨draining, fewer⟩
    · rw [same]
      exact ⟨bounded, fun running => kept (step.shutdown_mono running)⟩
    · refine ⟨fewer.trans bounded, fun running => ?_⟩
      have set := (stopPlaces_of_reachable before).shutdown (by simp [draining, StopPc.Called])
      simp [step.shutdown_mono running] at set
  · -- Only `start` makes a server a started one.
    have unbuilt : s.built = false := by simpa using built
    have all : next.allStreams = threads := by
      cases step with
      | start =>
          rw [← known.size]
          exact allStreams_start s (untouched_of_reachable before unbuilt)
      | _ => exact absurd there built
    exact ⟨all.le, fun _ => all⟩

end Conservation

-----------------------------------------------------------------------------------------
-- A running server keeps its workers
-----------------------------------------------------------------------------------------

/-- `stop` begins by setting `m_shutdown`; the queue is shut down and workers leave later. -/
structure Staffed (s : State Score) : Prop where
  stopping : s.stopper ≠ .idle → s.shutdown = true
  closed : s.queueShutdown = true → s.shutdown = true
  exited : ∀ thread, s.workers thread = .exited → s.shutdown = true

section Staffed

variable {threads : Nat} {s next : State Score}

theorem Staffed.move (h : Staffed s) {thread : Nat} {pc : WorkerPc}
    (workers : next.workers = Function.update s.workers thread pc)
    (leaves : pc = .exited → s.shutdown = true)
    (same : next.stopper = s.stopper ∧ next.queueShutdown = s.queueShutdown
      ∧ next.shutdown = s.shutdown)
    : Staffed next := by
  obtain ⟨stopper, queue, shutdown⟩ := same
  refine ⟨?_, ?_, ?_⟩
  · rw [stopper, shutdown]
    exact h.stopping
  · rw [queue, shutdown]
    exact h.closed
  · rw [workers, shutdown]
    exact forall_pc_update (fun (pc : WorkerPc) => pc = .exited → s.shutdown = true)
      h.exited leaves

theorem Staffed.step {action : Action Score} (h : Staffed s) (taken : Step s action next)
    : Staffed next := by
  cases taken with
  | start =>
      refine ⟨h.stopping, h.closed, ?_⟩
      intro thread gone
      simp only [State.start] at gone
      split at gone <;> cases gone
  | loop pc => exact h.move rfl (by split <;> simp_all) ⟨rfl, rfl, rfl⟩
  | @deliver thread completion pc =>
      refine h.move rfl ?_ ⟨rfl, rfl, rfl⟩
      rcases completion with (_ | _) | (_ | _) | (_ | _) | _ | _
      case read.none =>
        simp only [State.dispatch]
        split <;> simp
      all_goals simp [State.dispatch]
  | queueEnd pc down => exact h.move rfl (fun _ => h.closed down) ⟨rfl, rfl, rfl⟩
  | post | accept | reject | storeChanged | notifyOne | read | finish =>
      exact h.move rfl (by simp) ⟨rfl, rfl, rfl⟩
  | store => exact ⟨fun _ => rfl, fun _ => rfl, fun _ _ => rfl⟩
  | shutdownServer pc | shutdownQueue pc | notifyAll pc | joinCrash pc | joinWriter pc
    | joinedAll pc | joinWorker pc | drain pc | drained pc =>
      have set := h.stopping (by simp [pc])
      exact ⟨fun _ => set, fun _ => set, fun _ _ => set⟩
  | _ => exact ⟨h.stopping, h.closed, h.exited⟩

theorem staffed_of_reachable (reached : (machine Score threads).Reachable s) : Staffed s := by
  refine reached.invariant (motive := Staffed) ?_ ?_
  · constructor <;> simp [machine]
  · exact fun _ _ _ _ known taken => known.step (.of_step taken)

end Staffed

-----------------------------------------------------------------------------------------
-- A stream can bring another request
-----------------------------------------------------------------------------------------

/-- The action is `start` or one of a worker, with what the stream brings it. -/
def Action.listens : Action Score → Bool
  | .start | .worker _ _ => true
  | .cancel | .writer _ | .stop _ => false

/-- The server can come to have accepted more requests than `accepted`. -/
def CanAccept (threads accepted : Nat) (s : State Score) : Prop :=
  (machine Score threads).Leads (fun action => action.listens = true) s
    (fun later => accepted < (acceptedMessages later.log).length)

/-- The server runs, and has accepted that many requests at least. -/
structure Listening (threads accepted : Nat) (s : State Score) : Prop where
  reached : (machine Score threads).Reachable s
  built : s.built = true
  running : s.shutdown = false
  before : accepted ≤ (acceptedMessages s.log).length

section Listening

variable {threads accepted : Nat} {s next : State Score}

/-- A step of a worker is a step on the way. -/
theorem Listening.worker (h : Listening threads accepted s) (thread : Nat) (action : WorkerAction)
    (taken : workerStep s thread action = some next)
    (later : Listening threads accepted next → CanAccept threads accepted next)
    : CanAccept threads accepted s := by
  have moved : (machine Score threads).step s (.worker thread action) = some next := taken
  have step := Step.of_workerStep taken
  have running : next.shutdown = false := by cases step <;> exact h.running
  refine .next rfl moved (later ⟨h.reached.step moved, step.built_mono h.built, running, ?_⟩)
  exact h.before.trans (step.log_grows.filterMap _).length_le

/-- A message that `check_request` takes for a change is accepted. -/
theorem Listening.checking (h : Listening threads accepted s) {thread : Nat}
    (pc : s.workers thread = .checking)
    (differs : Subscription.Differs s.subscription.lastReq s.subscription.request)
    : CanAccept threads accepted s := by
  have taken : workerStep s thread .checkRequest = some (s.accept thread) := by
    rw [workerStep, if_pos pc, State.check_eq, if_pos differs]
  refine h.worker thread .checkRequest taken (fun _ => .here ?_)
  rw [acceptedMessages_accept, List.length_append]
  exact Nat.lt_succ_of_le h.before

/-- A worker that waits can be handed a message with one more sport than the last. -/
theorem Listening.waiting (h : Listening threads accepted s) {thread : Nat}
    (pc : s.workers thread = .waiting) (there : .read ∈ s.outstanding)
    : CanAccept threads accepted s := by
  let message : SportsLinesRequest :=
    { s.subscription.lastReq with sports := "" :: s.subscription.lastReq.sports }
  refine h.worker thread (.deliver (.read (some message))) (if_pos ⟨pc, there⟩) ?_
  intro after
  refine after.checking (Function.update_self ..) (Or.inr ?_)
  simp [State.deliver, State.received, message]

/-- A handler comes to its next read, unless it accepts a request on its way. -/
theorem Listening.handled (h : Listening threads accepted s) {thread : Nat}
    (will : (s.workers thread).willRead = true)
    (later : ∀ t : State Score,
      Listening threads accepted t
      → t.outstanding = s.outstanding
      → t.workers thread = .reading
      → CanAccept threads accepted t)
    : CanAccept threads accepted s := by
  have notifying (t : State Score) (h : Listening threads accepted t)
      (same : t.outstanding = s.outstanding) (pc : t.workers thread = .notifying)
      : CanAccept threads accepted t :=
    h.worker thread .notifyOne (if_pos pc) (fun after => later _ after same
      (Function.update_self ..))
  cases pc : s.workers thread with
  | reading => exact later s h rfl pc
  | notifying => exact notifying s h rfl pc
  | storing =>
      exact h.worker thread .storeChanged (if_pos pc) (fun after => notifying _ after rfl
        (Function.update_self ..))
  | checking =>
      by_cases differs : Subscription.Differs s.subscription.lastReq s.subscription.request
      · exact h.checking pc differs
      · have taken : workerStep s thread .checkRequest = some (s.setWorker thread .reading) := by
          rw [workerStep, if_pos pc, State.check_eq, if_neg differs]
        exact h.worker thread .checkRequest taken (fun after => later _ after rfl
          (Function.update_self ..))
  | absent | posting | looping | waiting | finishing | exited =>
      simp [pc, WorkerPc.willRead] at will

/-- Every worker can come to wait for a tag that is outstanding, unless it accepts a request on
its way.
-/
theorem Listening.tended (h : Listening threads accepted s) {thread : Nat}
    (inside : thread < threads) {tag : CallStatus} (there : tag ∈ s.outstanding)
    (later : ∀ t : State Score,
      Listening threads accepted t
      → tag ∈ t.outstanding
      → t.workers thread = .waiting
      → CanAccept threads accepted t)
    : CanAccept threads accepted s := by
  have looping (t : State Score) (h : Listening threads accepted t)
      (there : tag ∈ t.outstanding) (pc : t.workers thread = .looping)
      : CanAccept threads accepted t :=
    h.worker thread .loop (if_pos pc) (fun after => later _ after there
      (by simp [State.setWorker, h.running]))
  have issuing (action : WorkerAction) (tags : List CallStatus) {next : State Score}
      (taken : workerStep s thread action = some next)
      (outstanding : next.outstanding = s.outstanding ++ tags)
      (pc : next.workers thread = .looping)
      : CanAccept threads accepted s :=
    h.worker thread action taken (fun after => looping next after
      (outstanding ▸ List.mem_append_left tags there) pc)
  have known := threadsKnown_of_reachable h.reached
  cases pc : s.workers thread with
  | absent =>
      have present := (stopPlaces_of_reachable h.reached).workers h.built thread
      exact absurd pc (present (known.size ▸ inside))
  | exited =>
      have set := (staffed_of_reachable h.reached).exited thread pc
      simp [h.running] at set
  | waiting => exact later s h there pc
  | looping => exact looping s h there pc
  | posting => exact issuing .post _ (if_pos pc) rfl (Function.update_self ..)
  | finishing => exact issuing .finish _ (if_pos pc) rfl (Function.update_self ..)
  | checking | storing | notifying | reading =>
      refine h.handled (by rw [pc]; rfl) ?_
      intro t after same pc
      refine after.worker thread .read (if_pos pc) (fun read => looping _ read ?_
        (Function.update_self ..))
      exact List.mem_append_left _ (same ▸ there)

/-- An outstanding read brings the next message. -/
theorem Listening.hears (h : Listening threads accepted s) (positive : 0 < threads)
    (there : .read ∈ s.outstanding)
    : CanAccept threads accepted s :=
  h.tended positive there (fun _ after still pc => after.waiting pc still)

/-- So does a handler that will start one. -/
theorem Listening.willRead (h : Listening threads accepted s) (positive : 0 < threads)
    {thread : Nat} (will : (s.workers thread).willRead = true)
    : CanAccept threads accepted s := by
  refine h.handled will ?_
  intro t after _ pc
  refine after.worker thread .read (if_pos pc) (fun read => read.hears positive ?_)
  exact List.mem_append_right _ (List.mem_singleton.mpr rfl)

/-- A connection to come can be made, and then its first read is started. -/
theorem Listening.connects (h : Listening threads accepted s) (positive : 0 < threads)
    (there : .connect ∈ s.outstanding)
    : CanAccept threads accepted s := by
  refine h.tended positive there ?_
  intro t after still pc
  refine after.worker 0 (.deliver (.connect true)) (if_pos ⟨pc, still⟩) ?_
  intro connected
  have reading : (t.deliver 0 (.connect true)).workers 0 = .reading := by
    simp [State.deliver, State.dispatch]
  exact connected.willRead positive (by rw [reading]; rfl)

/-- One stream that has not failed is enough. -/
theorem Listening.accepts (h : Listening threads accepted s) (left : 0 < s.streams)
    : CanAccept threads accepted s := by
  have known := threadsKnown_of_reachable h.reached
  have positive : 0 < threads := by
    have all := (allStreams_of_reachable h.reached h.built).1
    rw [State.allStreams] at all
    omega
  by_cases reading : .read ∈ s.outstanding
  · exact h.hears positive reading
  by_cases connecting : .connect ∈ s.outstanding
  · exact h.connects positive connecting
  rw [State.streams, List.count_eq_zero.mpr reading, List.count_eq_zero.mpr connecting,
    Nat.zero_add] at left
  obtain ⟨thread, -, stream⟩ := tally_pos_iff.mp left
  rw [WorkerPc.hasStream, Bool.or_eq_true] at stream
  rcases stream with posts | reads
  · have pc : s.workers thread = .posting := by
      cases place : s.workers thread <;> simp [place, WorkerPc.willPost] at posts
      rfl
    refine h.worker thread .post (if_pos pc) (fun after => after.connects positive ?_)
    exact List.mem_append_right _ (List.mem_singleton.mpr rfl)
  · exact h.willRead positive reads

end Listening

-----------------------------------------------------------------------------------------
-- Another request
-----------------------------------------------------------------------------------------

section Accepting

variable {threads : Nat} {s : State Score}

/-- A server whose streams have all failed accepts nothing. -/
theorem acceptedMessages_of_failed (reached : (machine Score threads).Reachable s)
    (failed : threads ≤ s.log.countP isStreamFailure) {final : State Score}
    {actions : List (Action Score)}
    (ran : (machine Score threads).runFrom s actions = some final)
    : acceptedMessages final.log = acceptedMessages s.log := by
  refine (Machine.runFrom_invariant ran
    (motive := fun later =>
      (machine Score threads).Reachable later
      ∧ threads ≤ later.log.countP isStreamFailure
      ∧ acceptedMessages later.log = acceptedMessages s.log)
    ⟨reached, failed, rfl⟩ ?_).2.2
  intro t action next known taken
  obtain ⟨here, failed, same⟩ := known
  have step := Step.of_step taken
  refine ⟨here.step taken, failed.trans step.log_grows.sublist.countP_le, ?_⟩
  rw [← same]
  cases step with
  | @accept thread pc =>
      have known := threadsKnown_of_reachable here
      have inside : thread < t.threads := by
        rw [known.size]
        exact known.inside thread (by simp [pc])
      have stream : 0 < tally t.threads WorkerPc.hasStream t.workers :=
        tally_pos_iff.mpr ⟨thread, inside, by simp [pc, WorkerPc.hasStream, WorkerPc.willRead]⟩
      have built : t.built = true := by
        by_contra unbuilt
        have absent := (untouched_of_reachable here (by simpa using unbuilt)).workers thread
        simp [pc] at absent
      have all := (allStreams_of_reachable here built).1
      rw [State.allStreams, State.streams] at all
      omega
  | deliver => simp [State.deliver, acceptedMessages]
  | read => simp [State.read, State.issue, acceptedMessages]
  | finish => simp [State.finish, State.issue, acceptedMessages]
  | callback => simp [State.callback, acceptedMessages]
  | write => simp [State.write, State.issue, acceptedMessages]
  | _ => rfl

/-- A server that is not being stopped can come to accept one more request, by steps of its
workers alone, exactly as long as fewer connections and reads have failed than it has workers;
after that no continuation at all accepts another one.
-/
theorem canAccept_iff (reached : (machine Score threads).Reachable s)
    (running : s.shutdown = false)
    : (CanAccept threads (acceptedMessages s.log).length s
        ↔ s.log.countP isStreamFailure < threads)
      ∧ (threads ≤ s.log.countP isStreamFailure
        → ∀ actions final,
            (machine Score threads).runFrom s actions = some final
            → acceptedMessages final.log = acceptedMessages s.log) := by
  refine ⟨⟨?_, ?_⟩, fun failed _ _ ran => acceptedMessages_of_failed reached failed ran⟩
  · intro accepts
    obtain ⟨actions, final, -, ran, more⟩ := accepts
    by_contra failed
    have same := acceptedMessages_of_failed reached (Nat.le_of_not_lt failed) ran
    simp [same] at more
  · intro fewer
    by_cases built : s.built = true
    · have all := (allStreams_of_reachable reached built).2 running
      rw [State.allStreams] at all
      exact Listening.accepts ⟨reached, built, running, Nat.le_refl _⟩ (by omega)
    · have unbuilt : s.built = false := by simpa using built
      have fresh := untouched_of_reachable reached unbuilt
      have idle : s.stopper = .idle := by
        by_contra stopping
        have set := (staffed_of_reachable reached).stopping stopping
        simp [running] at set
      have started : (machine Score threads).step s .start = some s.start :=
        if_pos ⟨unbuilt, idle⟩
      have all := allStreams_start s fresh
      have log : s.start.log = s.log := rfl
      rw [State.allStreams, log, (threadsKnown_of_reachable reached).size] at all
      exact .next rfl started (Listening.accepts
        ⟨reached.step started, rfl, running, Nat.le_refl _⟩ (by omega))

end Accepting

/-- One of two workers gets a connection that failed, and the other one then a read. -/
def oneStreamLeft : List (Action Rat) :=
  [.start, .worker 0 .post, .worker 1 .post, .worker 0 .loop,
    .worker 0 (.deliver (.connect false))]

def noStreamLeft : List (Action Rat) :=
  oneStreamLeft
  ++ [.worker 1 .loop, .worker 1 (.deliver (.connect true)), .worker 1 .read, .worker 1 .loop,
    .worker 1 (.deliver (.read none))]

theorem canAccept_iff_oneStreamLeft
    : (∃ s, (machine Rat 2).run oneStreamLeft = some s ∧ CanAccept 2 0 s)
      ∧ ∃ s, (machine Rat 2).run noStreamLeft = some s ∧ ¬ CanAccept 2 0 s := by
  refine ⟨⟨_, rfl, ?_⟩, ⟨_, rfl, ?_⟩⟩
  · exact (canAccept_iff ⟨oneStreamLeft, rfl⟩ rfl).1.mpr (by decide)
  · intro accepts
    have few := (canAccept_iff ⟨noStreamLeft, rfl⟩ rfl).1.mp accepts
    exact absurd few (by decide)

end RVision.Rpc.Server
