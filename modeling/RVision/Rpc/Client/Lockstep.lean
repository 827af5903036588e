import RVision.Rpc.Client.MessageStreams
import RVision.Rpc.Client.OperationDiscipline
import RVision.Transition.Logs

/-! The client writes in lockstep with its reads: after the first request it writes only
when it has read a response.
-/

namespace RVision.Rpc.Client

open Transition

variable {Score : Type}

/-- What the handler of a completion appends to the log. -/
inductive Reaction (s : State Score) : Completion Score → List (Event Score) → Prop
  | startWrites {call rest} (queue : s.calls = call :: rest)
    : Reaction s (.start true) [.issued (.write (Call.request call))]
  | startRests : Reaction s (.start true) []
  | readWrites {response call rest} (queue : s.calls = call :: rest)
    : Reaction s (.read (some response))
        [.handed (State.responseLines response), .issued (.write (Call.request call))]
  | readsOn {response}
    : Reaction s (.read (some response))
        [.handed (State.responseLines response), .issued .read]
  | reads : Reaction s (.write true) [.issued .read]
  | finishes {completion}
    (failed : completion = .start false ∨ completion = .read none
      ∨ completion = .write false)
    : Reaction s completion [.issued .finish]
  | rests {completion}
    (ended : ∃ ok, completion = .complete ok ∨ completion = .done ok
      ∨ completion = .finish ok)
    : Reaction s completion []

/-- One delivery appends its completion and the reaction to it, and puts the tags of what it
started in flight.
-/
theorem deliver_reaction (s : State Score) (completion : Completion Score)
    : ∃ events,
        Reaction s completion events
        ∧ (s.deliver completion).log = s.log ++ .handled completion :: events
        ∧ (s.deliver completion).inFlight
          = s.inFlight.erase completion.tag ++ (operations events).map Operation.tag := by
  cases completion with
  | start ok =>
      cases ok with
      | false =>
          refine ⟨_, .finishes (Or.inl rfl), ?_, rfl⟩
          simp [State.deliver_start_false, State.issue, State.taken]
      | true =>
          have effect : s.deliver (.start true) = (s.taken (.start true)).onStart true := rfl
          rw [effect]
          unfold State.onStart
          rcases (s.taken (.start true)).makeRequest_cases with
            refused | ⟨call, rest, queue, made⟩
          · rw [refused]
            exact ⟨[], .startRests, rfl, (List.append_nil _).symm⟩
          · rw [made]
            refine ⟨_, .startWrites queue, ?_, rfl⟩
            simp [State.issue, State.taken]
  | read response =>
      cases response with
      | none =>
          refine ⟨_, .finishes (Or.inr (Or.inl rfl)), ?_, rfl⟩
          simp [State.deliver_read_none, State.issue, State.taken]
      | some response =>
          rw [State.deliver_read_some, State.onRead_true]
          rcases (State.handOver { s.taken (.read (some response)) with response := response }
            response).makeRequest_cases with refused | ⟨call, rest, queue, made⟩
          · rw [refused]
            refine ⟨_, .readsOn, ?_, rfl⟩
            simp [State.issue, State.handOver, State.taken]
          · rw [made]
            refine ⟨_, .readWrites queue, ?_, rfl⟩
            simp [State.issue, State.handOver, State.taken]
  | write ok =>
      cases ok with
      | false =>
          refine ⟨_, .finishes (Or.inr (Or.inr rfl)), ?_, rfl⟩
          simp [State.deliver_write_false, State.issue, State.taken]
      | true =>
          refine ⟨_, .reads, ?_, rfl⟩
          simp [State.deliver_write_true, State.issue, State.taken]
  | complete ok | done ok | finish ok =>
      exact ⟨[], .rests ⟨ok, by simp⟩, rfl, (List.append_nil _).symm⟩

/-- The log only grows: by a completion with the reaction to it, or by an entry that moves no
message.
-/
theorem step_log {s next : State Score} {action : Action Score}
    (taken : step s action = some next)
    : (∃ completion events,
        action = .deliver completion
        ∧ Reaction s completion events
        ∧ next.log = s.log ++ .handled completion :: events)
      ∨ (∀ completion, action ≠ .deliver completion)
        ∧ ∃ events,
            next.log = s.log ++ events
            ∧ writtenRequests events = []
            ∧ receivedResponses events = []
            ∧ .issued .finish ∉ events := by
  cases action <;> simp only [step, Option.ite_none_right_eq_some] at taken
  all_goals obtain ⟨guard, effect⟩ := taken
  all_goals obtain rfl := Option.some.inj effect
  case deliver completion =>
    obtain ⟨events, reaction, log, _⟩ := deliver_reaction s completion
    exact Or.inl ⟨completion, events, rfl, reaction, log⟩
  case push thread call => exact Or.inr ⟨by simp, [.pushed call], rfl, rfl, rfl, by simp⟩
  case startCall thread => exact Or.inr ⟨by simp, [.issued .startCall], rfl, rfl, rfl, by simp⟩
  case exchange thread =>
    refine Or.inr ⟨by simp, [], ?_, rfl, rfl, by simp⟩
    unfold State.exchange
    split <;> exact (List.append_nil _).symm
  all_goals exact Or.inr ⟨by simp, [], (List.append_nil _).symm, rfl, rfl, by simp⟩

/-- No reaction reads a response by itself. -/
theorem Reaction.unread {s : State Score} {completion : Completion Score}
    {events : List (Event Score)} (h : Reaction s completion events)
    : receivedResponses events = [] := by
  cases h <;> rfl

/-- How many completions of `StartCall` were handled. -/
def startsHandled (log : List (Event Score)) : Nat :=
  log.countP (fun event => match event with
    | .handled (.start _) => true
    | _ => false)

/-- Every Write answers the completion of `StartCall` or a response, and every Read follows
a Write.
-/
structure Lockstep (s : State Score) : Prop where
  writes
    : (writtenRequests s.log).length
      ≤ (receivedResponses s.log).length + startsHandled s.log
  starts
    : startsHandled s.log + s.inFlight.count .start ≤ (operations s.log).count .startCall
  opened : .write ∈ s.inFlight ∨ .read ∈ s.inFlight → writtenRequests s.log ≠ []

/-- The first `Read` comes after a call that was started. -/
theorem Lockstep.called {s : State Score} (h : Lockstep s) (reading : .read ∈ s.inFlight)
    (first : receivedResponses s.log = [])
    : .issued .startCall ∈ s.log := by
  have written := List.length_pos_iff.mpr (h.opened (Or.inr reading))
  have few := h.writes
  have started := h.starts
  rw [first, List.length_nil] at few
  apply mem_operations_iff.mp
  apply List.count_pos_iff.mp
  omega

/-- A reaction writes at most once, and only to a response or the completion of `StartCall`,
which it never starts again.
-/
theorem Reaction.balance {s : State Score} {completion : Completion Score}
    {events : List (Event Score)} (h : Reaction s completion events)
    : (writtenRequests events).length
        ≤ (receivedResponses (.handled completion :: events)).length
          + startsHandled (.handled completion :: events)
      ∧ startsHandled (.handled completion :: events)
        = (if completion.tag = .start then 1 else 0)
      ∧ ((operations events).map Operation.tag).count .start = 0
      ∧ (operations events).count .startCall = 0 := by
  cases h with
  | startWrites | startRests | readWrites | readsOn | reads =>
      simp [writtenRequests, receivedResponses, startsHandled, operations, Completion.tag,
        Operation.tag]
  | finishes failed =>
      rcases failed with rfl | rfl | rfl <;>
        simp [writtenRequests, receivedResponses, startsHandled, operations, Completion.tag,
          Operation.tag]
  | rests ended =>
      obtain ⟨ok, rfl | rfl | rfl⟩ := ended <;>
        simp [writtenRequests, receivedResponses, startsHandled, operations, Completion.tag]

/-- A reaction that has written or goes on to read found a Write or a Read completed. -/
theorem Reaction.opened {s : State Score} {completion : Completion Score}
    {events : List (Event Score)} (h : Reaction s completion events)
    (started : .write ∈ (operations events).map Operation.tag
      ∨ .read ∈ (operations events).map Operation.tag)
    : writtenRequests events ≠ [] ∨ completion.tag = .write ∨ completion.tag = .read := by
  cases h with
  | startWrites | readWrites => exact Or.inl (by simp [writtenRequests])
  | readsOn => exact Or.inr (Or.inr rfl)
  | reads => exact Or.inr (Or.inl rfl)
  | startRests | finishes | rests => simp [operations, Operation.tag] at started

theorem Lockstep.deliver {s : State Score} (h : Lockstep s) {completion : Completion Score}
    (flight : completion.tag ∈ s.inFlight)
    : Lockstep (s.deliver completion) := by
  obtain ⟨events, reaction, log, inFlight⟩ := deliver_reaction s completion
  obtain ⟨writes, starts, tags, calls⟩ := reaction.balance
  constructor
  · have before := h.writes
    have same : writtenRequests (.handled completion :: events) = writtenRequests events := by
      simp [writtenRequests]
    rw [log]
    simp only [writtenRequests, receivedResponses, startsHandled, List.filterMap_append,
      List.length_append, List.countP_append] at before writes same ⊢
    rw [same]
    omega
  · have before := h.starts
    have taken : (s.inFlight.erase completion.tag).count .start
        + (if completion.tag = .start then 1 else 0) = s.inFlight.count .start :=
      count_erase_add flight .start
    have same : operations (.handled completion :: events) = operations events := by
      simp [operations]
    rw [log, inFlight, List.count_append, tags]
    simp only [startsHandled, operations, List.filterMap_append, List.count_append,
      List.countP_append] at before starts calls same ⊢
    rw [same, calls]
    omega
  · rw [inFlight, List.mem_append, List.mem_append]
    intro started
    have kept (before : writtenRequests s.log ≠ [])
        : writtenRequests (s.log ++ .handled completion :: events) ≠ [] := by
      rw [writtenRequests, List.filterMap_append]
      exact List.append_ne_nil_of_left_ne_nil before _
    rw [log]
    rcases or_or_or_comm.mp started with earlier | started
    · refine kept (h.opened (earlier.imp ?_ ?_)) <;> exact List.mem_of_mem_erase
    · rcases reaction.opened started with wrote | write | read
      · rw [List.append_cons, writtenRequests, List.filterMap_append]
        exact List.append_ne_nil_of_right_ne_nil _ wrote
      · exact kept (h.opened (Or.inl (write ▸ flight)))
      · exact kept (h.opened (Or.inr (read ▸ flight)))

theorem Lockstep.step {s next : State Score} (h : Lockstep s) {action : Action Score}
    (taken : Client.step s action = some next)
    : Lockstep next := by
  cases action <;> simp only [Client.step, Option.ite_none_right_eq_some] at taken
  all_goals obtain ⟨guard, effect⟩ := taken
  all_goals obtain rfl := Option.some.inj effect
  case push thread call =>
    constructor
    · simpa [State.push, writtenRequests, receivedResponses, startsHandled] using h.writes
    · simpa [State.push, startsHandled, operations] using h.starts
    · simpa [State.push, writtenRequests] using h.opened
  case exchange thread =>
    unfold State.exchange
    split <;> exact ⟨h.writes, h.starts, h.opened⟩
  case startCall thread =>
    constructor
    · simpa [State.startCall, State.issue, writtenRequests, receivedResponses, startsHandled]
        using h.writes
    · have before := h.starts
      simp only [State.startCall, State.issue, startsHandled, operations, Operation.tag,
        List.countP_append, List.filterMap_append, List.count_append] at before ⊢
      simp
      omega
    · simpa [State.startCall, State.issue, writtenRequests, Operation.tag] using h.opened
  case deliver completion => exact h.deliver guard.2
  case drain =>
    have before := h.starts
    exact ⟨h.writes, by simp; omega, by simp⟩
  all_goals exact ⟨h.writes, h.starts, h.opened⟩

theorem lockstep_of_reachable {s : State Score} (reached : (machine Score).Reachable s)
    : Lockstep s := by
  refine reached.invariant (motive := Lockstep) ⟨le_refl _, le_refl _, ?_⟩
    (fun _ _ _ _ known taken => known.step taken)
  simp [machine]

/-- A client that is not shut down has written at most one request more than it has read
responses.
-/
theorem written_le_received_succ {s : State Score} (reached : (machine Score).Reachable s)
    (running : s.shutdown = false)
    : (writtenRequests s.log).length ≤ (receivedResponses s.log).length + 1 := by
  have lockstep := lockstep_of_reachable reached
  have alive := alive_of_not_shutdown reached running
  obtain ⟨phase, h⟩ := exists_inPhase reached (by simp [alive])
  have once := h.operations_shape.1
  have writes := lockstep.writes
  have starts := lockstep.starts
  omega

end RVision.Rpc.Client
