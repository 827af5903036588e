import RVision.Rpc.Client.Machine

/-! What each handler of the client does, as one equation for each outcome. Later modules
use these equations and never unfold a handler.
-/

namespace RVision.Rpc.Client

variable {Score : Type}

/-- The message that a pushed pair stands for. -/
def Call.request (call : Call) : SportsLinesRequest :=
  { pollingPeriod := call.1, sports := call.2 }

namespace State

/-- One pair for each line of the response, in the order of the lines. -/
theorem responseLines_eq (response : SportsLinesResponse Score)
    : responseLines response = response.lines.map (fun line => (line.score, line.sport)) := by
  have built (before : List (Score × String)) (lines : List (SportLine Score))
      : lines.foldl (fun lines line => lines ++ [(line.score, line.sport)]) before
        = before ++ lines.map (fun line => (line.score, line.sport)) := by
    induction lines generalizing before with
    | nil => simp
    | cons line rest ih => simp [ih]
  exact built [] response.lines

/-- The queue's front moves into the cleared request: nothing of an earlier use of
`m_request` survives, and the sports keep their order.
-/
theorem makeRequest_cons {s : State Score} {call : Call} {rest : List Call}
    (free : s.outstand = false) (queued : s.calls = call :: rest)
    : s.makeRequest
      = (true, { s with request := Call.request call, calls := rest, outstand := true }) := by
  simp [makeRequest, free, queued, SportsLinesRequest.clear,
    SportsLinesRequest.setPollingPeriod, SportsLinesRequest.foldl_addSports, Call.request]

theorem makeRequest_nil {s : State Score} (queued : s.calls = [])
    : s.makeRequest = (false, s) := by
  simp [makeRequest, queued]

/-- Everything `make_request` can do: refuse and change nothing, or take the front. -/
theorem makeRequest_cases (s : State Score)
    : s.makeRequest = (false, s)
      ∨ ∃ call rest,
          s.calls = call :: rest
          ∧ s.makeRequest
            = (true,
                { s with request := Call.request call, calls := rest, outstand := true }) := by
  cases free : s.outstand with
  | true => exact Or.inl (by simp [makeRequest, free])
  | false =>
      cases queue : s.calls with
      | nil => exact Or.inl (makeRequest_nil queue)
      | cons call rest => exact Or.inr ⟨call, rest, rfl, makeRequest_cons free queue⟩

/-- The state in which the handler of `completion` starts. -/
def taken (s : State Score) (completion : Completion Score) : State Score :=
  { s with
    processor := .looping
    inFlight := s.inFlight.erase completion.tag
    log := s.log ++ [.handled completion] }

/-- `make_request` succeeded and its request was written. -/
def writeNext (s : State Score) (call : Call) (rest : List Call) : State Score :=
  issue { s with request := Call.request call, calls := rest, outstand := true }
    (.write (Call.request call))

/-- The successful part of `on_read` up to `make_request`. -/
def handOver (s : State Score) (response : SportsLinesResponse Score) : State Score :=
  { s with
    response := {}
    log := s.log ++ [.handed (responseLines response)] }

theorem onStart_cons {s : State Score} {call : Call} {rest : List Call}
    (free : s.outstand = false) (queued : s.calls = call :: rest)
    : s.onStart true = s.writeNext call rest := by
  simp only [onStart, if_true, makeRequest_cons free queued, writeNext]

/-- A successful read hands over the whole response before it looks at the queue. -/
theorem onRead_true (s : State Score)
    : s.onRead true
      = match (s.handOver s.response).makeRequest with
        | (true, s) => s.issue (.write s.request)
        | (false, s) => s.issue .read := rfl

theorem onRead_cons {s : State Score} {call : Call} {rest : List Call}
    (free : s.outstand = false) (queued : s.calls = call :: rest)
    : s.onRead true = (s.handOver s.response).writeNext call rest := by
  have request := makeRequest_cons (s := s.handOver s.response) free queued
  rw [onRead_true, request]
  rfl

theorem onRead_nil {s : State Score} (queued : s.calls = [])
    : s.onRead true = (s.handOver s.response).issue .read := by
  have request := makeRequest_nil (s := s.handOver s.response) queued
  rw [onRead_true, request]

-----------------------------------------------------------------------------------------
-- One delivery of each completion
-----------------------------------------------------------------------------------------

theorem deliver_start_cons {s : State Score} {call : Call} {rest : List Call}
    (free : s.outstand = false) (queued : s.calls = call :: rest)
    : s.deliver (.start true) = (s.taken (.start true)).writeNext call rest :=
  onStart_cons (s := s.taken (.start true)) free queued

theorem deliver_start_false (s : State Score)
    : s.deliver (.start false) = (s.taken (.start false)).issue .finish := rfl

/-- The buffer is filled by parsing, so what is handed over is the message itself. -/
theorem deliver_read_some (s : State Score) (response : SportsLinesResponse Score)
    : s.deliver (.read (some response))
      = onRead { s.taken (.read (some response)) with response := response } true := by
  simp only [deliver, dispatch, SportsLinesResponse.parseInto_eq, taken]

theorem deliver_read_cons {s : State Score} {response : SportsLinesResponse Score}
    {call : Call} {rest : List Call}
    (free : s.outstand = false) (queued : s.calls = call :: rest)
    : s.deliver (.read (some response))
      = ((s.taken (.read (some response))).handOver response).writeNext call rest := by
  rw [deliver_read_some]
  exact onRead_cons (s := { s.taken (.read (some response)) with response := response })
    free queued

theorem deliver_read_nil {s : State Score} {response : SportsLinesResponse Score}
    (queued : s.calls = [])
    : s.deliver (.read (some response))
      = ((s.taken (.read (some response))).handOver response).issue .read := by
  rw [deliver_read_some]
  exact onRead_nil (s := { s.taken (.read (some response)) with response := response })
    queued

theorem deliver_read_none (s : State Score)
    : s.deliver (.read none) = (s.taken (.read none)).issue .finish := rfl

theorem deliver_write_true (s : State Score)
    : s.deliver (.write true)
      = issue { s.taken (.write true) with outstand := false } .read := rfl

theorem deliver_write_false (s : State Score)
    : s.deliver (.write false) = (s.taken (.write false)).issue .finish := rfl

theorem deliver_complete (s : State Score) (ok : Bool)
    : s.deliver (.complete ok) = s.taken (.complete ok) := rfl

end State

end RVision.Rpc.Client
