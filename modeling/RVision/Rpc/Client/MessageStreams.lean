import RVision.Rpc.Client.Handlers

/-! The client is two FIFO streams: calls go out as requests in the order they were pushed,
and responses come in as lists for the callback, whatever the threads and completions do.
-/

namespace RVision.Rpc.Client

open Transition

variable {Score : Type}

/-- The pairs pushed so far, oldest first. -/
def pushedCalls (log : List (Event Score)) : List Call :=
  log.filterMap (fun event => match event with
    | .pushed call => some call
    | _ => none)

/-- The requests passed to `m_rpc->Write` so far, oldest first. -/
def writtenRequests (log : List (Event Score)) : List SportsLinesRequest :=
  log.filterMap (fun event => match event with
    | .issued (.write request) => some request
    | _ => none)

/-- The responses delivered by successful reads so far, oldest first. -/
def receivedResponses (log : List (Event Score)) : List (SportsLinesResponse Score) :=
  log.filterMap (fun event => match event with
    | .handled (.read (some response)) => some response
    | _ => none)

/-- The lists passed to the response callback so far, oldest first. -/
def handedLines (log : List (Event Score)) : List (List (Score × String)) :=
  log.filterMap (fun event => match event with
    | .handed lines => some lines
    | _ => none)

theorem receivedResponses_append (log events : List (Event Score))
    : receivedResponses (log ++ events) = receivedResponses log ++ receivedResponses events :=
  List.filterMap_append

/-- Only a successful read delivers a response. -/
theorem receivedResponses_handled {completion : Completion Score}
    (other : ∀ response, completion ≠ .read (some response)) (events : List (Event Score))
    : receivedResponses (.handled completion :: events) = receivedResponses events := by
  cases completion with
  | read message =>
      cases message with
      | none => rfl
      | some response => exact absurd rfl (other response)
  | _ => rfl

/-- Written requests followed by the queue are the pushed calls, period for period and
sport for sport; what the callback got are the received responses, each with the score and
the sport of each of its lines.
-/
structure MessageStreams (s : State Score) : Prop where
  requests
    : (writtenRequests s.log).map (fun req => (req.pollingPeriod, req.sports)) ++ s.calls
      = pushedCalls s.log
  responses
    : handedLines s.log
      = (receivedResponses s.log).map (fun response =>
          response.lines.map (fun line => (line.score, line.sport)))

-----------------------------------------------------------------------------------------
-- What the parts of a handler do to the streams
-----------------------------------------------------------------------------------------

/-- Starting anything but a Write moves no message. -/
theorem MessageStreams.issue {s : State Score} (h : MessageStreams s)
    {operation : Operation} (other : ∀ request, operation ≠ .write request)
    : MessageStreams (s.issue operation) := by
  cases operation with
  | write request => exact absurd rfl (other request)
  | startCall | read | finish =>
      constructor
      · simpa [State.issue, writtenRequests, pushedCalls] using h.requests
      · simpa [State.issue, handedLines, receivedResponses] using h.responses

/-- Writing the front of the queue moves it from the queue to the written requests. -/
theorem MessageStreams.writeNext {s : State Score} (h : MessageStreams s)
    {call : Call} {rest : List Call} (queue : s.calls = call :: rest)
    : MessageStreams (s.writeNext call rest) := by
  constructor
  · have requests := h.requests
    rw [queue] at requests
    simpa [State.writeNext, State.issue, writtenRequests, pushedCalls, Call.request]
      using requests
  · simpa [State.writeNext, State.issue, handedLines, receivedResponses] using h.responses

/-- Taking a completion off the queue moves no message, unless it is a successful read. -/
theorem MessageStreams.taken {s : State Score} (h : MessageStreams s)
    {completion : Completion Score}
    (quiet : ∀ response, completion ≠ .read (some response))
    : MessageStreams (s.taken completion) := by
  constructor
  · simpa [State.taken, writtenRequests, pushedCalls] using h.requests
  · have same : receivedResponses (s.taken completion).log = receivedResponses s.log := by
      rw [State.taken, receivedResponses_append, receivedResponses_handled quiet]
      exact List.append_nil _
    rw [same]
    simpa [State.taken, handedLines] using h.responses

/-- A successful read hands over exactly the response that it delivered. -/
theorem MessageStreams.handOver {s : State Score} (h : MessageStreams s)
    (response : SportsLinesResponse Score)
    : MessageStreams ((s.taken (.read (some response))).handOver response) := by
  constructor
  · simpa [State.taken, State.handOver, writtenRequests, pushedCalls] using h.requests
  · simpa [State.taken, State.handOver, handedLines, receivedResponses, State.responseLines_eq]
      using h.responses

/-- `on_start` writes the front of the queue, does nothing, or finishes. -/
theorem MessageStreams.onStart {s : State Score} (h : MessageStreams s) (ok : Bool)
    : MessageStreams (s.onStart ok) := by
  cases ok with
  | false => exact h.issue (by simp)
  | true =>
      unfold State.onStart
      rcases s.makeRequest_cases with refused | ⟨call, rest, queue, made⟩
      · rw [refused]
        exact h
      · rw [made]
        exact h.writeNext queue

/-- `on_read` hands the response over before it writes the front of the queue or reads. -/
theorem MessageStreams.onRead {s : State Score} (h : MessageStreams (s.handOver s.response))
    : MessageStreams (s.onRead true) := by
  rw [State.onRead_true]
  rcases (s.handOver s.response).makeRequest_cases with refused | ⟨call, rest, queue, made⟩
  · rw [refused]
    exact h.issue (by simp)
  · rw [made]
    exact h.writeNext queue

/-- Handling any completion keeps the streams, by cases on the completion. -/
theorem MessageStreams.deliver {s : State Score} (h : MessageStreams s)
    (completion : Completion Score)
    : MessageStreams (s.deliver completion) := by
  cases completion with
  | start ok => exact (h.taken (by simp)).onStart ok
  | read response =>
      cases response with
      | none =>
          rw [State.deliver_read_none]
          exact (h.taken (by simp)).issue (by simp)
      | some response =>
          rw [State.deliver_read_some]
          exact MessageStreams.onRead (h.handOver response)
  | write ok =>
      have before : MessageStreams (s.taken (.write ok)) := h.taken (by simp)
      cases ok with
      | false => exact before.issue (by simp)
      | true =>
          have cleared : MessageStreams { s.taken (.write true) with outstand := false } :=
            ⟨before.requests, before.responses⟩
          exact cleared.issue (by simp)
  | complete _ | done _ | finish _ => exact h.taken (by simp)

/-- Every step of every thread keeps the streams. -/
theorem MessageStreams.step {s next : State Score} (h : MessageStreams s)
    {action : Action Score} (taken : Client.step s action = some next)
    : MessageStreams next := by
  cases action <;> simp only [Client.step, Option.ite_none_right_eq_some] at taken
  all_goals obtain ⟨guard, effect⟩ := taken
  all_goals obtain rfl := Option.some.inj effect
  case push thread call =>
    constructor
    · have requests := h.requests
      simp [State.push, writtenRequests, pushedCalls] at requests ⊢
      rw [← List.append_assoc, requests]
    · simpa [State.push, handedLines, receivedResponses] using h.responses
  case exchange thread =>
    unfold State.exchange
    split <;> exact ⟨h.requests, h.responses⟩
  case startCall thread =>
    have idle : MessageStreams
        { s with callers := Function.update s.callers thread .idle } :=
      ⟨h.requests, h.responses⟩
    exact idle.issue (by simp)
  case deliver completion => exact h.deliver completion
  all_goals exact ⟨h.requests, h.responses⟩

theorem MessageStreams.invariant {s : State Score} (reached : (machine Score).Reachable s)
    : MessageStreams s :=
  reached.invariant (motive := MessageStreams) ⟨rfl, rfl⟩
    (fun _ _ _ _ known taken => known.step taken)

/-- In every run, from any number of threads and with any completions, the client neither
loses, duplicates, reorders nor mixes messages.
-/
theorem messageStreams_of_reachable {s : State Score}
    (reached : (machine Score).Reachable s)
    : MessageStreams s :=
  .invariant reached

/-- Two calls and one response: one request written after a response, two lines handed
over, and the reused request holds nothing of the first one.
-/
def writeReadWrite : List (Action Rat) :=
  [.push 0 (5, ["football", "soccer"]), .exchange 0, .startCall 0, .loop, .enter,
    .deliver (.start true), .push 1 (7, ["baseball"]), .loop, .enter, .deliver (.write true),
    .loop, .enter, .deliver (.read (some { lines := [⟨3, "soccer"⟩, ⟨1, "football"⟩] }))]

theorem messageStreams_writeReadWrite
    : ∃ s,
        (machine Rat).run writeReadWrite = some s
        ∧ s.request = { pollingPeriod := 7, sports := ["baseball"] }
        ∧ handedLines s.log = [[(3, "soccer"), (1, "football")]]
        ∧ MessageStreams s :=
  ⟨_, rfl, rfl, rfl, messageStreams_of_reachable ⟨writeReadWrite, rfl⟩⟩

end RVision.Rpc.Client
