import Mathlib.Logic.Function.Basic
import RVision.Rpc.Messages
import RVision.Transition.Machine

/-! `rpc::client` as a machine: the threads that run `call`, the one thread that runs
`process`, and the destructor. `call` is three steps, since its push, its exchange of
`m_started` and its `StartCall` can be separated by any other thread. A handler is one
step: it runs on the processor thread alone and meets the callers only once, in the
critical section of `make_request`.
-/

namespace RVision.Rpc.Client

open Transition

/-- The pair that `call` pushes: its period and its sports. -/
abbrev Call := UInt64 × List String

/-- `client::call_status`, the tags of the completion queue. -/
inductive CallStatus
  | read
  | write
  | complete
  | start
  | done
  | finish
deriving DecidableEq, Repr

/-- The operations the client starts on `m_rpc`. -/
inductive Operation
  | startCall
  | write (request : SportsLinesRequest)
  | read
  | finish
deriving DecidableEq, Repr

/-- The tag each operation is started with. -/
def Operation.tag : Operation → CallStatus
  | .startCall => .start
  | .write _ => .write
  | .read => .read
  | .finish => .complete

/-- What `m_cq.Next` hands to `process`: a tag with its `ok`, and for a successful read the
message that was read.
-/
inductive Completion (Score : Type)
  | start (ok : Bool)
  | read (response : Option (SportsLinesResponse Score))
  | write (ok : Bool)
  | complete (ok : Bool)
  | done (ok : Bool)
  | finish (ok : Bool)
deriving DecidableEq, Repr

def Completion.tag {Score : Type} : Completion Score → CallStatus
  | .start _ => .start
  | .read _ => .read
  | .write _ => .write
  | .complete _ => .complete
  | .done _ => .done
  | .finish _ => .finish

/-- What an observer of the client sees, oldest first in `State.log`. -/
inductive Event (Score : Type)
  | pushed (call : Call)
  | issued (operation : Operation)
  | handled (completion : Completion Score)
  | handed (lines : List (Score × String))
deriving DecidableEq, Repr

/-- Where a thread stands in `client::call`. -/
inductive CallerPc
  | idle
  | exchanging
  | starting
deriving DecidableEq, Repr

/-- Where the processor thread stands: at the test of `m_shutdown`, past it on its way to
`m_cq.Next`, or in `m_cq.Next`.
-/
inductive ProcessorPc
  | looping
  | entering
  | waiting
  | exited
deriving DecidableEq, Repr

/-- How far `~client` has come. -/
inductive DestroyerPc
  | alive
  | notifying
  | joining
  | cancelling
  | closing
  | draining
  | gone
deriving DecidableEq, Repr

/-- The members of `client` that its code reads or writes, the program counters of its
threads, the tags started and not yet handled, and the log of what it did.
-/
structure State (Score : Type) where
  calls : List Call := []
  started : Bool := false
  outstand : Bool := false
  shutdown : Bool := false
  request : SportsLinesRequest := {}
  response : SportsLinesResponse Score := {}
  callers : Nat → CallerPc := fun _ => .idle
  processor : ProcessorPc := .looping
  destroyer : DestroyerPc := .alive
  cancelled : Bool := false
  inFlight : List CallStatus := []
  log : List (Event Score) := []

variable {Score : Type}

namespace State

-----------------------------------------------------------------------------------------
-- `client::call`
-----------------------------------------------------------------------------------------

/-- Start an operation on `m_rpc`. -/
def issue (s : State Score) (operation : Operation) : State Score :=
  { s with
    inFlight := s.inFlight ++ [operation.tag]
    log := s.log ++ [.issued operation] }

/-- The critical section of `call`. -/
def push (s : State Score) (thread : Nat) (call : Call) : State Score :=
  { s with
    calls := s.calls ++ [call]
    callers := Function.update s.callers thread .exchanging
    log := s.log ++ [.pushed call] }

/-- `m_started.compare_exchange_strong(_expected, true)` with `_expected = false`. -/
def exchange (s : State Score) (thread : Nat) : State Score :=
  if s.started then
    { s with callers := Function.update s.callers thread .idle }
  else
    { s with started := true, callers := Function.update s.callers thread .starting }

def startCall (s : State Score) (thread : Nat) : State Score :=
  issue { s with callers := Function.update s.callers thread .idle } .startCall

-----------------------------------------------------------------------------------------
-- The handlers of `process`
-----------------------------------------------------------------------------------------

/-- `make_request(m_request)` and its result. -/
def makeRequest (s : State Score) : Bool × State Score :=
  if s.outstand then
    (false, s)
  else
    match s.calls with
    | [] => (false, s)
    | call :: rest =>
        let req := s.request.clear.setPollingPeriod call.1
        let req := call.2.foldl SportsLinesRequest.addSports req
        (true, { s with request := req, calls := rest, outstand := true })

def onStart (s : State Score) (ok : Bool) : State Score :=
  if ok then
    match s.makeRequest with
    | (true, s) => s.issue (.write s.request)
    | (false, s) => s
  else
    s.issue .finish

/-- The vector that `on_read` builds for `m_cb`, line by line. -/
def responseLines (response : SportsLinesResponse Score) : List (Score × String) :=
  response.lines.foldl (fun lines line => lines ++ [(line.score, line.sport)]) []

def onRead (s : State Score) (ok : Bool) : State Score :=
  if ok then
    let s := { s with log := s.log ++ [Event.handed (responseLines s.response)] }
    let s := { s with response := s.response.clear }
    match s.makeRequest with
    | (true, s) => s.issue (.write s.request)
    | (false, s) => s.issue .read
  else
    s.issue .finish

def onWrite (s : State Score) (ok : Bool) : State Score :=
  if ok then
    issue { s with outstand := false } .read
  else
    s.issue .finish

/-- `on_complete`, `on_done` and `on_finish` only log. -/
def onComplete (s : State Score) (_ok : Bool) : State Score := s

def onDone (s : State Score) (_ok : Bool) : State Score := s

def onFinish (s : State Score) (_ok : Bool) : State Score := s

/-- The `switch` of `process`. A successful read has parsed its message into `m_response`
by the time its tag is handed out.
-/
def dispatch (s : State Score) : Completion Score → State Score
  | .start ok => s.onStart ok
  | .read (some response) =>
      onRead { s with response := s.response.parseInto response } true
  | .read none => s.onRead false
  | .write ok => s.onWrite ok
  | .complete ok => s.onComplete ok
  | .done ok => s.onDone ok
  | .finish ok => s.onFinish ok

/-- One turn of the loop of `process` after `m_cq.Next` returned `completion`. -/
def deliver (s : State Score) (completion : Completion Score) : State Score :=
  dispatch
    { s with
      processor := .looping
      inFlight := s.inFlight.erase completion.tag
      log := s.log ++ [.handled completion] }
    completion

end State

-----------------------------------------------------------------------------------------
-- The machine
-----------------------------------------------------------------------------------------

inductive Action (Score : Type)
  | push (thread : Nat) (call : Call)
  | exchange (thread : Nat)
  | startCall (thread : Nat)
  | loop
  | enter
  | deliver (completion : Completion Score)
  | storeShutdown
  | notifyAll
  | join
  | cancel
  | shutdownQueue
  | drain
deriving DecidableEq, Repr

/-- One step of one thread, where its program counter allows it. A completion can only be
delivered for a tag that is in flight; the destructor joins a processor that has left its
loop.
-/
def step (s : State Score) : Action Score → Option (State Score)
  | .push thread call =>
      if s.callers thread = .idle then some (s.push thread call) else none
  | .exchange thread =>
      if s.callers thread = .exchanging then some (s.exchange thread) else none
  | .startCall thread =>
      if s.callers thread = .starting then some (s.startCall thread) else none
  | .loop =>
      if s.processor = .looping then
        some { s with processor := if s.shutdown then .exited else .entering }
      else
        none
  | .enter =>
      if s.processor = .entering then some { s with processor := .waiting } else none
  | .deliver completion =>
      if s.processor = .waiting ∧ completion.tag ∈ s.inFlight then
        some (s.deliver completion)
      else
        none
  | .storeShutdown =>
      if s.destroyer = .alive then
        some { s with shutdown := true, destroyer := .notifying }
      else
        none
  | .notifyAll =>
      -- No thread ever waits on the client's `m_cv`.
      if s.destroyer = .notifying then some { s with destroyer := .joining } else none
  | .join =>
      if s.destroyer = .joining ∧ s.processor = .exited then
        some { s with destroyer := .cancelling }
      else
        none
  | .cancel =>
      if s.destroyer = .cancelling then
        some { s with cancelled := true, destroyer := .closing }
      else
        none
  | .shutdownQueue =>
      if s.destroyer = .closing then some { s with destroyer := .draining } else none
  | .drain =>
      if s.destroyer = .draining then
        some { s with inFlight := [], destroyer := .gone }
      else
        none

/-- The constructor leaves the processor running and nothing started. -/
def machine (Score : Type) : Machine (State Score) (Action Score) where
  init := {}
  step := step

end RVision.Rpc.Client
