import RVision.Rpc.Client.Handlers

/-! The client keeps exactly one stream operation in flight.
The code has no variable for its state; `Phase` names it, and every step of every thread
moves between phases.
-/

namespace RVision.Rpc.Client

open Transition

variable {Score : Type}

/-- The operations started so far, oldest first. -/
def operations (log : List (Event Score)) : List Operation :=
  log.filterMap (fun event => match event with
    | .issued operation => some operation
    | _ => none)

theorem mem_operations_iff {log : List (Event Score)} {operation : Operation}
    : operation ∈ operations log ↔ .issued operation ∈ log := by
  constructor
  · intro member
    obtain ⟨event, found, same⟩ := List.mem_filterMap.mp member
    cases event with
    | issued started =>
        obtain rfl := Option.some.inj same
        exact found
    | _ => cases same
  · exact fun member => List.mem_filterMap.mpr ⟨_, member, rfl⟩

/-- The newest Write has completed, and it failed. -/
def lastWriteFailed (log : List (Event Score)) : Bool :=
  log.foldl (fun failed event => match event with
    | .issued (.write _) => false
    | .handled (.write ok) => !ok
    | _ => failed) false

/-- The completion of Finish has been handled. -/
def completed (log : List (Event Score)) : Bool :=
  log.any (fun event => match event with
    | .handled (.complete _) => true
    | _ => false)

/-- What the client is doing, which the code only implies by the handler that ran last. -/
inductive Phase
  | unstarted
  | starting (thread : Nat)
  | connecting
  | writing
  | reading
  | finishing
  | finished
deriving DecidableEq, Repr

namespace Phase

/-- The tags in flight in each phase. -/
def inFlight : Phase → List CallStatus
  | .unstarted | .starting _ | .finished => []
  | .connecting => [.start]
  | .writing => [.write]
  | .reading => [.read]
  | .finishing => [.complete]

/-- The operations that may have been started on the way to each phase. -/
def Started (ops : List Operation) : Phase → Prop
  | .unstarted | .starting _ => ops = []
  | .connecting | .writing | .reading =>
      ∃ rest, ops = .startCall :: rest ∧ .startCall ∉ rest ∧ .finish ∉ rest
  | .finishing | .finished =>
      ∃ rest, ops = .startCall :: rest ++ [.finish] ∧ .startCall ∉ rest ∧ .finish ∉ rest

/-- The value of `m_outstand` in each phase, given whether the newest Write failed. -/
def outstand (failed : Bool) : Phase → Bool
  | .writing => true
  | .finishing | .finished => failed
  | _ => false

/-- Whether the newest Write may have failed. -/
def MayHaveFailed : Phase → Prop
  | .finishing | .finished => True
  | _ => False

end Phase

/-- The client is in `phase`: its flags, its queue and its log are those of the phase. -/
structure InPhase (s : State Score) (phase : Phase) : Prop where
  inFlight : s.inFlight = phase.inFlight
  started : s.started = true ↔ phase ≠ .unstarted
  starter : ∀ thread, s.callers thread = .starting ↔ phase = .starting thread
  racing
    : phase = .unstarted
      → (s.calls ≠ [] ↔ ∃ thread, s.callers thread = .exchanging)
  queued : ((∃ thread, phase = .starting thread) ∨ phase = .connecting) → s.calls ≠ []
  outstand : s.outstand = phase.outstand (lastWriteFailed s.log)
  failed : lastWriteFailed s.log = true → phase.MayHaveFailed
  operations : phase.Started (operations s.log)
  completed : completed s.log = true ↔ phase = .finished

-----------------------------------------------------------------------------------------
-- Steps of the callers
-----------------------------------------------------------------------------------------

theorem inPhase_init : InPhase ({} : State Score) .unstarted where
  inFlight := rfl
  started := by simp
  starter := by simp
  racing := by simp
  queued := by simp
  outstand := rfl
  failed := by simp [lastWriteFailed]
  operations := rfl
  completed := by simp [Client.completed]

/-- A thread that moves between other places is not the one that starts the call. -/
theorem InPhase.starter_update {s : State Score} {phase : Phase} (h : InPhase s phase)
    {thread : Nat} {old new : CallerPc} (pc : s.callers thread = old) (before : old ≠ .starting)
    (after : new ≠ .starting) (other : Nat)
    : Function.update s.callers thread new other = .starting ↔ phase = .starting other := by
  by_cases same : other = thread
  · subst other
    have absent : phase ≠ .starting thread := by
      intro here
      exact before (pc.symm.trans ((h.starter thread).mpr here))
    simp [absent, after]
  · simpa [same] using h.starter other

/-- A push keeps the phase: it only lengthens the queue, and its thread now races for
`m_started`.
-/
theorem InPhase.push {s : State Score} {phase : Phase} (h : InPhase s phase)
    {thread : Nat} (call : Call) (idle : s.callers thread = .idle)
    : InPhase (s.push thread call) phase where
  inFlight := h.inFlight
  started := h.started
  starter := h.starter_update idle (by simp) (by simp)
  racing := by
    intro _
    simp only [State.push, ne_eq, List.append_eq_nil_iff, List.cons_ne_self, and_false,
      not_false_eq_true, true_iff]
    exact ⟨thread, by simp⟩
  queued := by simp [State.push]
  outstand := by simpa [State.push, lastWriteFailed] using h.outstand
  failed := by simpa [State.push, lastWriteFailed] using h.failed
  operations := by simpa [State.push, Client.operations] using h.operations
  completed := by simpa [State.push, Client.completed] using h.completed

/-- A lost race for `m_started` keeps the phase. -/
theorem InPhase.exchange_lost {s : State Score} {phase : Phase} (h : InPhase s phase)
    {thread : Nat} (racing : s.callers thread = .exchanging) (started : s.started = true)
    : InPhase (s.exchange thread) phase := by
  have running : phase ≠ .unstarted := h.started.mp started
  have next : s.exchange thread
      = { s with callers := Function.update s.callers thread .idle } := by
    simp [State.exchange, started]
  rw [next]
  exact {
    h with
    starter := h.starter_update racing (by simp) (by simp)
    racing := fun here => absurd here running
  }

/-- The winner of the race finds its own call still queued, since nothing is popped before
the stream has started.
-/
theorem InPhase.exchange_won {s : State Score} {phase : Phase} (h : InPhase s phase)
    {thread : Nat} (racing : s.callers thread = .exchanging) (started : s.started = false)
    : InPhase (s.exchange thread) (.starting thread) := by
  have fresh : phase = .unstarted := by
    by_contra running
    have value := h.started.mpr running
    rw [started] at value
    cases value
  subst phase
  have next : s.exchange thread
      = { s with
          started := true
          callers := Function.update s.callers thread .starting } := by
    simp [State.exchange, started]
  rw [next]
  exact {
    inFlight := h.inFlight
    started := by simp
    starter := by
      intro other
      by_cases same : other = thread
      · subst other
        simp
      · have pc := h.starter other
        simp only [reduceCtorEq, iff_false] at pc
        simpa [same, Ne.symm same] using pc
    racing := by simp
    queued := fun _ => (h.racing rfl).mpr ⟨thread, racing⟩
    outstand := h.outstand
    failed := h.failed
    operations := h.operations
    completed := by simpa using h.completed
  }

/-- `StartCall` is issued by the one winner, whose call is still queued. -/
theorem InPhase.startCall {s : State Score} {phase : Phase} (h : InPhase s phase)
    {thread : Nat} (starting : s.callers thread = .starting)
    : InPhase (s.startCall thread) .connecting := by
  obtain rfl := (h.starter thread).mp starting
  exact {
    inFlight := by simp [State.startCall, State.issue, h.inFlight, Phase.inFlight,
      Operation.tag]
    started := by simpa [State.startCall, State.issue] using h.started
    starter := by
      intro other
      by_cases same : other = thread
      · subst other
        simp [State.startCall, State.issue]
      · have pc := h.starter other
        simp only [Phase.starting.injEq, Ne.symm same, iff_false] at pc
        simpa [State.startCall, State.issue, same] using pc
    racing := by simp
    queued := fun _ => h.queued (Or.inl ⟨thread, rfl⟩)
    outstand := by
      simpa [State.startCall, State.issue, lastWriteFailed, Phase.outstand]
        using h.outstand
    failed := by
      simpa [State.startCall, State.issue, lastWriteFailed, Phase.MayHaveFailed]
        using h.failed
    operations := by
      have none : Client.operations s.log = [] := h.operations
      exact ⟨[], by simpa [State.startCall, State.issue, Client.operations] using none⟩
    completed := by
      simpa [State.startCall, State.issue, Client.completed] using h.completed
  }

-----------------------------------------------------------------------------------------
-- Steps of the processor
-----------------------------------------------------------------------------------------

/-- Once `StartCall` was issued, the phase only depends on what the handlers change. -/
theorem InPhase.advance {s t : State Score} {old new : Phase} (h : InPhase s old)
    (callers : t.callers = s.callers) (started : t.started = s.started)
    (left : old ≠ .unstarted ∧ ∀ thread, old ≠ .starting thread)
    (entered : new ≠ .unstarted ∧ (∀ thread, new ≠ .starting thread) ∧ new ≠ .connecting)
    (inFlight : t.inFlight = new.inFlight)
    (outstand : t.outstand = new.outstand (lastWriteFailed t.log))
    (failed : lastWriteFailed t.log = true → new.MayHaveFailed)
    (ops : new.Started (Client.operations t.log))
    (completed : Client.completed t.log = true ↔ new = .finished)
    : InPhase t new where
  inFlight := inFlight
  started := by simpa [started, entered.1, left.1] using h.started
  starter := by
    intro thread
    simpa [callers, left.2 thread, entered.2.1 thread] using h.starter thread
  racing := fun here => absurd here entered.1
  queued := by
    intro early
    rcases early with ⟨thread, here⟩ | here
    · exact absurd here (entered.2.1 thread)
    · exact absurd here entered.2.2
  outstand := outstand
  failed := failed
  operations := ops
  completed := completed

/-- The phases in which the stream is up. -/
def Phase.Running (phase : Phase) : Prop :=
  phase = .connecting ∨ phase = .writing ∨ phase = .reading

/-- A running phase has started the stream once and not finished it. -/
theorem InPhase.running_operations {s : State Score} {phase : Phase} (h : InPhase s phase)
    (running : phase.Running)
    : ∃ rest, Client.operations s.log = .startCall :: rest
      ∧ .startCall ∉ rest ∧ .finish ∉ rest := by
  rcases running with rfl | rfl | rfl
  · exact h.operations
  · exact h.operations
  · exact h.operations

theorem Phase.Running.left {phase : Phase} (running : phase.Running)
    : phase ≠ .unstarted ∧ ∀ thread, phase ≠ .starting thread := by
  rcases running with rfl | rfl | rfl <;> simp

theorem InPhase.running_alive {s : State Score} {phase : Phase} (h : InPhase s phase)
    (running : phase.Running)
    : Client.completed s.log = false := by
  have value := h.completed
  rcases running with rfl | rfl | rfl <;> simpa using value

/-- A failed completion issues Finish, from whichever operation it belongs to. Only a
failed Write leaves `m_outstand` set.
-/
theorem InPhase.fail {s : State Score} {phase : Phase} (h : InPhase s phase)
    (running : phase.Running) {completion : Completion Score}
    (tag : phase.inFlight = [completion.tag])
    (quiet : Client.completed ([.handled completion] : List (Event Score)) = false)
    (outstand : s.outstand = lastWriteFailed (s.log ++ [.handled completion]))
    : InPhase ((s.taken completion).issue .finish) .finishing := by
  obtain ⟨rest, ops, noStart, noFinish⟩ := h.running_operations running
  have alive := h.running_alive running
  simp only [Client.completed, List.any_cons, List.any_nil, Bool.or_false] at quiet alive
  refine h.advance rfl rfl running.left (by simp) ?_ ?_ (fun _ => trivial)
    ⟨rest, ?_, noStart, noFinish⟩ ?_
  · have flight : s.inFlight = [completion.tag] := h.inFlight.trans tag
    simp [State.taken, State.issue, flight, Phase.inFlight, Operation.tag]
  · simpa [State.taken, State.issue, lastWriteFailed, Phase.outstand] using outstand
  · have issued : Client.operations ((s.taken completion).issue .finish).log
        = Client.operations s.log ++ [.finish] := by
      simp [State.taken, State.issue, Client.operations]
    rw [issued, ops]
  · simp [State.taken, State.issue, Client.completed, quiet, alive]

/-- Writing the queue's front when no Write is in flight. -/
theorem InPhase.writeNext {s t : State Score} {phase : Phase} (h : InPhase s phase)
    (running : phase.Running) (call : Call) (rest : List Call)
    (callers : t.callers = s.callers) (started : t.started = s.started)
    (inFlight : t.inFlight = [])
    (ops : Client.operations t.log = Client.operations s.log)
    (alive : Client.completed t.log = Client.completed s.log)
    : InPhase (t.writeNext call rest) .writing := by
  obtain ⟨before, known, noStart, noFinish⟩ := h.running_operations running
  refine h.advance callers started running.left (by simp) ?_ rfl ?_
    ⟨before ++ [.write (Call.request call)], ?_, by simpa using noStart,
      by simpa using noFinish⟩ ?_
  · simp [State.writeNext, State.issue, inFlight, Phase.inFlight, Operation.tag]
  · simp [State.writeNext, State.issue, lastWriteFailed]
  · have issued : Client.operations (t.writeNext call rest).log
        = Client.operations t.log ++ [.write (Call.request call)] := by
      simp [State.writeNext, State.issue, Client.operations]
    rw [issued, ops, known]
    rfl
  · have same : Client.completed (t.writeNext call rest).log = Client.completed t.log := by
      simp [State.writeNext, State.issue, Client.completed]
    simp [same, alive, h.running_alive running]

/-- Going back to Read, after a Write or after a response with nothing queued. -/
theorem InPhase.readNext {s t : State Score} {phase : Phase} (h : InPhase s phase)
    (running : phase.Running)
    (callers : t.callers = s.callers) (started : t.started = s.started)
    (inFlight : t.inFlight = []) (free : t.outstand = false)
    (succeeded : lastWriteFailed t.log = false)
    (ops : Client.operations t.log = Client.operations s.log)
    (alive : Client.completed t.log = Client.completed s.log)
    : InPhase (t.issue .read) .reading := by
  obtain ⟨before, known, noStart, noFinish⟩ := h.running_operations running
  have unchanged : lastWriteFailed (t.issue .read).log = lastWriteFailed t.log := by
    simp [State.issue, lastWriteFailed]
  refine h.advance callers started running.left (by simp) ?_ free ?_
    ⟨before ++ [.read], ?_, by simpa using noStart, by simpa using noFinish⟩ ?_
  · simp [State.issue, inFlight, Phase.inFlight, Operation.tag]
  · simp [unchanged, succeeded]
  · have issued : Client.operations (t.issue .read).log
        = Client.operations t.log ++ [.read] := by
      simp [State.issue, Client.operations]
    rw [issued, ops, known]
    rfl
  · have same : Client.completed (t.issue .read).log = Client.completed t.log := by
      simp [State.issue, Client.completed]
    simp [same, alive, h.running_alive running]

/-- Before any Write has failed, the newest one has not. -/
theorem InPhase.running_succeeded {s : State Score} {phase : Phase} (h : InPhase s phase)
    (running : phase.Running)
    : lastWriteFailed s.log = false := by
  by_contra failed
  have may := h.failed (by simpa using failed)
  rcases running with rfl | rfl | rfl <;> exact may

/-- Handling a completion leads to exactly one next phase. Witness: the tag in flight names
the phase, and each handler issues one operation, except for the completion of Finish.
-/
theorem InPhase.deliver {s : State Score} {phase : Phase} (h : InPhase s phase)
    {completion : Completion Score} (flight : completion.tag ∈ s.inFlight)
    : ∃ next, InPhase (s.deliver completion) next := by
  rw [h.inFlight] at flight
  cases phase with
  | unstarted | starting _ | finished => simp [Phase.inFlight] at flight
  | connecting =>
      have running : Phase.connecting.Running := Or.inl rfl
      have free : s.outstand = false := h.outstand
      cases completion <;> simp [Completion.tag, Phase.inFlight] at flight
      rename_i ok
      cases ok with
      | false =>
          refine ⟨.finishing, h.fail running rfl rfl ?_⟩
          simpa [lastWriteFailed] using free.trans (h.running_succeeded running).symm
      | true =>
          cases queue : s.calls with
          | nil => exact absurd queue (h.queued (Or.inr rfl))
          | cons call rest =>
              rw [State.deliver_start_cons free queue]
              refine ⟨.writing, h.writeNext running call rest rfl rfl ?_ ?_ ?_⟩
              · simp [State.taken, h.inFlight, Phase.inFlight, Completion.tag]
              · simp [State.taken, Client.operations]
              · simp [State.taken, Client.completed]
  | writing =>
      have running : Phase.writing.Running := Or.inr (Or.inl rfl)
      have busy : s.outstand = true := h.outstand
      cases completion <;> simp [Completion.tag, Phase.inFlight] at flight
      rename_i ok
      cases ok with
      | false =>
          refine ⟨.finishing, h.fail running rfl rfl ?_⟩
          simpa [lastWriteFailed] using busy
      | true =>
          refine ⟨.reading, h.readNext running rfl rfl ?_ rfl ?_ ?_ ?_⟩
          · simp [h.inFlight, Phase.inFlight, Completion.tag]
          · simp [lastWriteFailed]
          · simp [Client.operations]
          · simp [Client.completed]
  | reading =>
      have running : Phase.reading.Running := Or.inr (Or.inr rfl)
      have free : s.outstand = false := h.outstand
      have succeeded := h.running_succeeded running
      cases completion <;> simp [Completion.tag, Phase.inFlight] at flight
      rename_i response
      cases response with
      | none =>
          refine ⟨.finishing, h.fail running rfl rfl ?_⟩
          simpa [lastWriteFailed] using free.trans succeeded.symm
      | some response =>
          cases queue : s.calls with
          | nil =>
              rw [State.deliver_read_nil queue]
              refine ⟨.reading, h.readNext running rfl rfl ?_ free ?_ ?_ ?_⟩
              · simp [State.taken, State.handOver, h.inFlight, Phase.inFlight,
                  Completion.tag]
              · simpa [State.taken, State.handOver, lastWriteFailed] using succeeded
              · simp [State.taken, State.handOver, Client.operations]
              · simp [State.taken, State.handOver, Client.completed]
          | cons call rest =>
              rw [State.deliver_read_cons free queue]
              refine ⟨.writing, h.writeNext running call rest rfl rfl ?_ ?_ ?_⟩
              · simp [State.taken, State.handOver, h.inFlight, Phase.inFlight,
                  Completion.tag]
              · simp [State.taken, State.handOver, Client.operations]
              · simp [State.taken, State.handOver, Client.completed]
  | finishing =>
      cases completion <;> simp [Completion.tag, Phase.inFlight] at flight
      rename_i ok
      rw [State.deliver_complete]
      refine ⟨.finished, h.advance rfl rfl (by simp) (by simp) ?_ ?_ (fun _ => trivial) ?_ ?_⟩
      · simp [State.taken, h.inFlight, Phase.inFlight, Completion.tag]
      · simpa [State.taken, lastWriteFailed, Phase.outstand] using h.outstand
      · simpa [State.taken, Client.operations, Phase.Started] using h.operations
      · simp [State.taken, Client.completed]

/-- A step that changes neither the queue, the callers, the flags, the tags in flight nor
the log keeps the phase.
-/
theorem InPhase.frame {s t : State Score} {phase : Phase} (h : InPhase s phase)
    (same : t.calls = s.calls ∧ t.started = s.started ∧ t.outstand = s.outstand
      ∧ t.callers = s.callers ∧ t.inFlight = s.inFlight ∧ t.log = s.log)
    : InPhase t phase := by
  obtain ⟨calls, started, outstand, callers, inFlight, log⟩ := same
  constructor
  · rw [inFlight]
    exact h.inFlight
  · rw [started]
    exact h.started
  · rw [callers]
    exact h.starter
  · rw [calls, callers]
    exact h.racing
  · rw [calls]
    exact h.queued
  · rw [outstand, log]
    exact h.outstand
  · rw [log]
    exact h.failed
  · rw [log]
    exact h.operations
  · rw [log]
    exact h.completed

/-- Every step leads from a phase to a phase, as long as the destructor has not drained the
completion queue.
-/
theorem InPhase.step {s next : State Score} {phase : Phase} (h : InPhase s phase)
    {action : Action Score} (taken : Client.step s action = some next)
    (present : next.destroyer ≠ .gone)
    : ∃ phase, InPhase next phase := by
  cases action <;> simp only [Client.step, Option.ite_none_right_eq_some] at taken
  all_goals obtain ⟨guard, effect⟩ := taken
  all_goals obtain rfl := Option.some.inj effect
  case push thread call => exact ⟨phase, h.push call guard⟩
  case exchange thread =>
    cases started : s.started with
    | true => exact ⟨phase, h.exchange_lost guard started⟩
    | false => exact ⟨.starting thread, h.exchange_won guard started⟩
  case startCall thread => exact ⟨.connecting, h.startCall guard⟩
  case deliver completion => exact h.deliver guard.2
  case drain => simp at present
  all_goals exact ⟨phase, h.frame ⟨rfl, rfl, rfl, rfl, rfl, rfl⟩⟩

-----------------------------------------------------------------------------------------
-- Every reachable state
-----------------------------------------------------------------------------------------

/-- What no handler touches: the destructor and its flag, and the processor's place at the
top of its loop.
-/
structure HandlerFrame (s t : State Score) : Prop where
  destroyer : t.destroyer = s.destroyer
  shutdown : t.shutdown = s.shutdown
  processor : t.processor = s.processor

theorem makeRequest_frame (s : State Score) : HandlerFrame s s.makeRequest.2 := by
  rcases s.makeRequest_cases with refused | ⟨call, rest, _, made⟩
  · rw [refused]
    exact ⟨rfl, rfl, rfl⟩
  · rw [made]
    exact ⟨rfl, rfl, rfl⟩

theorem onStart_frame (s : State Score) (ok : Bool) : HandlerFrame s (s.onStart ok) := by
  have request := makeRequest_frame s
  unfold State.onStart
  split
  · split <;> rename_i made <;> rw [made] at request
    · exact ⟨request.destroyer, request.shutdown, request.processor⟩
    · exact request
  · exact ⟨rfl, rfl, rfl⟩

theorem onRead_frame (s : State Score) (ok : Bool) : HandlerFrame s (s.onRead ok) := by
  cases ok with
  | false => exact ⟨rfl, rfl, rfl⟩
  | true =>
      have request := makeRequest_frame (s.handOver s.response)
      rw [State.onRead_true]
      split <;> rename_i made <;> rw [made] at request
      · exact ⟨request.destroyer, request.shutdown, request.processor⟩
      · exact ⟨request.destroyer, request.shutdown, request.processor⟩

/-- Every handler keeps its frame, by cases on the completion. -/
theorem deliver_frame (s : State Score) (completion : Completion Score)
    : HandlerFrame (s.taken completion) (s.deliver completion) := by
  cases completion with
  | start ok => exact onStart_frame (s.taken (.start ok)) ok
  | read response =>
      cases response with
      | none => exact ⟨rfl, rfl, rfl⟩
      | some response =>
          rw [State.deliver_read_some]
          have read := onRead_frame
            { s.taken (.read (some response)) with response := response } true
          exact ⟨read.destroyer, read.shutdown, read.processor⟩
  | write ok => cases ok <;> exact ⟨rfl, rfl, rfl⟩
  | complete _ | done _ | finish _ => exact ⟨rfl, rfl, rfl⟩

/-- Nothing brings a drained client back. -/
theorem step_gone {s next : State Score} {action : Action Score}
    (taken : step s action = some next) (gone : s.destroyer = .gone)
    : next.destroyer = .gone := by
  cases action <;> simp only [step, Option.ite_none_right_eq_some] at taken
  all_goals obtain ⟨guard, effect⟩ := taken
  all_goals obtain rfl := Option.some.inj effect
  case exchange thread => unfold State.exchange; split <;> exact gone
  case deliver completion => exact (deliver_frame s completion).destroyer.trans gone
  case push | startCall | loop | enter => exact gone
  all_goals simp [gone] at guard

/-- The destructor runs only after it has set `m_shutdown`. -/
theorem alive_of_not_shutdown {s : State Score} (reached : (machine Score).Reachable s)
    (running : s.shutdown = false)
    : s.destroyer = .alive := by
  have invariant : s.destroyer = .alive ∨ s.shutdown = true := by
    refine reached.invariant (motive := fun s => s.destroyer = .alive ∨ s.shutdown = true)
      (Or.inl rfl) ?_
    intro s action next _ known taken
    replace taken : step s action = some next := taken
    cases action <;> simp only [step, Option.ite_none_right_eq_some] at taken
    all_goals obtain ⟨guard, effect⟩ := taken
    all_goals obtain rfl := Option.some.inj effect
    case exchange thread => unfold State.exchange; split <;> exact known
    case deliver completion =>
      rw [(deliver_frame s completion).destroyer, (deliver_frame s completion).shutdown]
      exact known
    case storeShutdown => exact Or.inr rfl
    case push | startCall | loop | enter => exact known
    all_goals
      refine known.imp_left (fun alive => ?_)
      simp [alive] at guard
  exact invariant.resolve_right (by simp [running])

/-- Every client that has not been drained is in some phase, by induction on its run. -/
theorem exists_inPhase {s : State Score} (reached : (machine Score).Reachable s)
    (present : s.destroyer ≠ .gone)
    : ∃ phase, InPhase s phase := by
  refine reached.invariant
    (motive := fun s => s.destroyer ≠ .gone → ∃ phase, InPhase s phase)
    (fun _ => ⟨_, inPhase_init⟩) ?_ present
  intro s action next _ known taken stays
  obtain ⟨phase, h⟩ := known (fun gone => stays (step_gone taken gone))
  exact h.step taken stays

/-- The stream of operations is well-formed: one `StartCall`, then one operation at a time,
and nothing after Finish.
-/
structure OperationDiscipline (s : State Score) : Prop where
  startCallOnce : (operations s.log).count .startCall ≤ 1
  atMostOne : s.inFlight.length ≤ 1
  exactlyOne
    : .startCall ∈ operations s.log → completed s.log = false → s.inFlight.length = 1
  startWrites
    : .start ∈ s.inFlight
      → s.calls ≠ []
        ∧ s.outstand = false
        ∧ ∃ request,
            (s.deliver (.start true)).log
              = s.log ++ [.handled (.start true), .issued (.write request)]
  outstandExact
    : s.outstand = true ↔ .write ∈ s.inFlight ∨ lastWriteFailed s.log = true
  finishOnce : (operations s.log).count .finish ≤ 1
  finishLast
    : ∀ before after, operations s.log = before ++ .finish :: after → after = []

/-- The operations of a phase contain `StartCall` and Finish at most once, Finish last. -/
theorem InPhase.operations_shape {s : State Score} {phase : Phase} (h : InPhase s phase)
    : (Client.operations s.log).count .startCall ≤ 1
      ∧ (Client.operations s.log).count .finish ≤ 1
      ∧ ∀ before after,
          Client.operations s.log = before ++ .finish :: after → after = [] := by
  have shape : ∃ rest last : List Operation,
      (Client.operations s.log = [] ∨ Client.operations s.log = .startCall :: rest ++ last)
      ∧ .startCall ∉ rest ∧ .finish ∉ rest ∧ (last = [] ∨ last = [.finish]) := by
    have ops := h.operations
    cases phase with
    | unstarted | starting _ => exact ⟨[], [], Or.inl ops, by simp⟩
    | connecting | writing | reading =>
        obtain ⟨rest, known, noStart, noFinish⟩ := ops
        exact ⟨rest, [], Or.inr (by simpa using known), noStart, noFinish, Or.inl rfl⟩
    | finishing | finished =>
        obtain ⟨rest, known, noStart, noFinish⟩ := ops
        exact ⟨rest, [.finish], Or.inr known, noStart, noFinish, Or.inr rfl⟩
  obtain ⟨rest, last, known | known, noStart, noFinish, last_eq⟩ := shape
  · simp [known]
  · rw [known]
    have starts := List.count_eq_zero.mpr noStart
    have finishes := List.count_eq_zero.mpr noFinish
    refine ⟨?_, ?_, ?_⟩
    · rcases last_eq with rfl | rfl <;> simp [starts]
    · rcases last_eq with rfl | rfl <;> simp [finishes]
    · intro before after split
      -- A Finish before the last place would be one of `rest`.
      have absent : .finish ∉ (Operation.startCall :: rest) := by simpa using noFinish
      rcases last_eq with rfl | rfl
      · have member : Operation.finish ∈ Operation.startCall :: rest := by
          rw [List.append_nil] at split
          simp [split]
        exact absurd member absent
      · rcases List.eq_nil_or_concat after with rfl | ⟨front, final, rfl⟩
        · rfl
        · have parts : Operation.startCall :: rest = before ++ .finish :: front := by
            have whole : (Operation.startCall :: rest) ++ [.finish]
                = (before ++ .finish :: front) ++ [final] := by
              simpa using split
            exact (List.append_inj' whole rfl).1
          exact absurd (parts ▸ by simp) absent

/-- A state in a phase obeys the discipline, field by field. -/
theorem InPhase.discipline {s : State Score} {phase : Phase} (h : InPhase s phase)
    : OperationDiscipline s := by
  obtain ⟨startCallOnce, finishOnce, finishLast⟩ := h.operations_shape
  refine ⟨startCallOnce, ?atMostOne, ?exactlyOne, ?startWrites, ?outstandExact, finishOnce,
    finishLast⟩
  case atMostOne => rw [h.inFlight]; cases phase <;> simp [Phase.inFlight]
  case exactlyOne =>
    intro started alive
    have ops := h.operations
    have completed := h.completed
    rw [alive] at completed
    rw [h.inFlight]
    cases phase <;> simp_all [Phase.inFlight, Phase.Started]
  case startWrites =>
    intro flight
    rw [h.inFlight] at flight
    have connecting : phase = .connecting := by
      cases phase <;> simp_all [Phase.inFlight]
    subst phase
    have free : s.outstand = false := h.outstand
    have queued := h.queued (Or.inr rfl)
    obtain ⟨call, rest, queue⟩ := List.exists_cons_of_ne_nil queued
    refine ⟨queued, free, Call.request call, ?_⟩
    rw [State.deliver_start_cons free queue]
    simp [State.writeNext, State.issue, State.taken]
  case outstandExact =>
    have may := h.failed
    rw [h.outstand, h.inFlight]
    cases phase <;> simp_all [Phase.outstand, Phase.inFlight, Phase.MayHaveFailed]

/-- For any number of calling threads, any order of their steps and any outcome of the
completions, the client keeps its operation discipline until it is shut down.
-/
theorem operationDiscipline_of_reachable {s : State Score}
    (reached : (machine Score).Reachable s) (running : s.shutdown = false)
    : OperationDiscipline s := by
  have alive := alive_of_not_shutdown reached running
  obtain ⟨phase, h⟩ := exists_inPhase reached (by simp [alive])
  exact h.discipline

/-- Two threads call, the second one wins the race, and its successor's Write is issued. -/
def twoCallers : List (Action Rat) :=
  [.push 0 (5, ["football"]), .push 1 (7, ["baseball"]), .exchange 1, .exchange 0,
    .startCall 1, .loop, .enter, .deliver (.start true)]

theorem operationDiscipline_twoCallers
    : ∃ s,
        (machine Rat).run twoCallers = some s
        ∧ s.inFlight = [.write]
        ∧ OperationDiscipline s :=
  ⟨_, rfl, rfl, operationDiscipline_of_reachable ⟨twoCallers, rfl⟩ rfl⟩

end RVision.Rpc.Client
