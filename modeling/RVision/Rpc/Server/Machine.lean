import Mathlib.Logic.Function.Basic
import RVision.Rpc.Server.Subscription
import RVision.Transition.Machine

/-! `rpc::server` as a machine: the worker threads that run `process`, the writer thread
that runs `write`, and the thread that calls `start` and `stop`. Every access to data that
another thread also uses, and every operation on the stream, is a step of its own.

The score callback is the server's parameter: the action that invokes it carries what it
returned, in the order in which the response is built from it.
-/

namespace RVision.Rpc.Server

open Transition

/-- `server::call_status`, the tags of the completion queue. -/
inductive CallStatus
  | read
  | write
  | connect
  | done
  | finish
deriving DecidableEq, Repr

/-- The operations the server starts on `m_stm`. -/
inductive Operation (Score : Type)
  | read
  | write (response : SportsLinesResponse Score)
  | finish
deriving DecidableEq, Repr

/-- The tag each operation is started with. -/
def Operation.tag {Score : Type} : Operation Score → CallStatus
  | .read => .read
  | .write _ => .write
  | .finish => .finish

/-- What `m_cq->Next` hands to a worker: a tag with its `ok`, and for a successful read the
message that was read.
-/
inductive Completion
  | connect (ok : Bool)
  | read (message : Option SportsLinesRequest)
  | write (ok : Bool)
  | done (ok : Bool)
  | finish (ok : Bool)
deriving DecidableEq, Repr

def Completion.tag : Completion → CallStatus
  | .connect _ => .connect
  | .read _ => .read
  | .write _ => .write
  | .done _ => .done
  | .finish _ => .finish

/-- One call of `m_score_callback`: the writer's locals at the call and what it returned. -/
structure Invocation (Score : Type) where
  sports : List String
  period : UInt64
  changed : Bool
  lines : List (String × Score)
deriving DecidableEq, Repr

/-- What an observer of the server sees, oldest first in `State.log`. -/
inductive Event (Score : Type)
  | delivered (completion : Completion)
  | accepted (message : SportsLinesRequest)
  | invoked (invocation : Invocation Score)
  | started (operation : Operation Score)
deriving DecidableEq, Repr

/-- Where a worker thread stands in `process` and in the handlers it calls. -/
inductive WorkerPc
  | absent
  | posting
  | looping
  | waiting
  | checking
  | storing
  | notifying
  | reading
  | finishing
  | exited
deriving DecidableEq, Repr

/-- Where the writer thread stands in `write`. In `testing` and `parking` it holds
`m_cv_lock`, which no other thread ever takes; in `parked` it is blocked in `m_cv.wait`.
-/
inductive WriterPc
  | absent
  | outer
  | testing
  | parking
  | parked
  | inner
  | exchanging
  | copying
  | calling (changed : Bool)
  | writing
  | exited
deriving DecidableEq, Repr

/-- How far the running call of `stop` has come. -/
inductive StopPc
  | idle
  | server
  | queue
  | notify
  | joinWriter
  | joinWorkers (joined : Nat)
  | drain
  | done
  | crashed
deriving DecidableEq, Repr

/-- The members of `server` that its code reads or writes, the locals of `write`, the
program counters of its threads, the tags started and not yet delivered, and the log.
-/
structure State (Score : Type) where
  threads : Nat
  subscription : Subscription := {}
  shutdown : Bool := false
  cancelled : Bool := false
  built : Bool := false
  queueShutdown : Bool := false
  workers : Nat → WorkerPc := fun _ => .absent
  writer : WriterPc := .absent
  writerJoinable : Bool := false
  sports : List String := []
  period : UInt64 := 0
  response : SportsLinesResponse Score := {}
  stopper : StopPc := .idle
  outstanding : List CallStatus := []
  log : List (Event Score) := []

variable {Score : Type}

namespace State

/-- The worker thread moves on to `pc`. -/
def setWorker (s : State Score) (thread : Nat) (pc : WorkerPc) : State Score :=
  { s with workers := Function.update s.workers thread pc }

/-- Start an operation on `m_stm`. -/
def issue (s : State Score) (operation : Operation Score) : State Score :=
  { s with
    outstanding := s.outstanding ++ [operation.tag]
    log := s.log ++ [.started operation] }

/-- `start` sets `m_cq` and `m_server`, asks to be notified when the call is done, and
starts the threads.
-/
def start (s : State Score) : State Score :=
  { s with
    built := true
    outstanding := [.finish]
    writer := .outer
    writerJoinable := true
    workers := fun thread => if thread < s.threads then .posting else .absent }

-----------------------------------------------------------------------------------------
-- The worker threads
-----------------------------------------------------------------------------------------

/-- Where the handler of `completion` leads. `on_read(false)` finishes only a cancelled
call; `on_write(true)`, `on_done` and `on_finish` only log.
-/
def dispatch (s : State Score) : Completion → WorkerPc
  | .connect true => .reading
  | .connect false => .finishing
  | .read (some _) => .checking
  | .read none => if s.cancelled then .finishing else .looping
  | .write true => .looping
  | .write false => .finishing
  | .done _ | .finish _ => .looping

/-- A successful read has parsed its message into `m_request` by the time its tag is
handed out.
-/
def received (s : State Score) : Completion → Subscription
  | .read (some message) => { s.subscription with request := message }
  | _ => s.subscription

/-- One turn of the loop of `process` up to the handler's first own step. -/
def deliver (s : State Score) (thread : Nat) (completion : Completion) : State Score :=
  { s with
    subscription := s.received completion
    workers := Function.update s.workers thread (s.dispatch completion)
    outstanding := s.outstanding.erase completion.tag
    log := s.log ++ [.delivered completion] }

/-- `on_read` calls `check_request`. -/
def check (s : State Score) (thread : Nat) : State Score :=
  match s.subscription.checkRequest with
  | (true, subscription) =>
      { s with
        subscription := subscription
        workers := Function.update s.workers thread .storing
        log := s.log ++ [.accepted s.subscription.request] }
  | (false, subscription) =>
      { s with
        subscription := subscription
        workers := Function.update s.workers thread .reading }

/-- `m_changed = true`. -/
def storeChanged (s : State Score) (thread : Nat) : State Score :=
  { s with
    subscription := { s.subscription with changed := true }
    workers := Function.update s.workers thread .notifying }

/-- A notification wakes the writer only where it is already blocked. -/
def wake (s : State Score) : WriterPc :=
  if s.writer = .parked then .testing else s.writer

/-- `m_cv.notify_one()`, without `m_cv_lock`. -/
def notifyOne (s : State Score) (thread : Nat) : State Score :=
  { s with
    writer := s.wake
    workers := Function.update s.workers thread .reading }

/-- `m_stm.Read` at the end of `on_connect` or `on_read`. -/
def read (s : State Score) (thread : Nat) : State Score :=
  issue { s with workers := Function.update s.workers thread .looping } .read

/-- `m_stm.Finish` in a failed handler, whose result `process` ignores. -/
def finish (s : State Score) (thread : Nat) : State Score :=
  issue { s with workers := Function.update s.workers thread .looping } .finish

-----------------------------------------------------------------------------------------
-- The writer thread
-----------------------------------------------------------------------------------------

/-- The predicate of `m_cv.wait`; the locals of `write` are fresh after it. -/
def test (s : State Score) : State Score :=
  if s.shutdown || s.subscription.changed then
    { s with writer := .inner, sports := [], period := 0 }
  else
    { s with writer := .parking }

/-- The exchange of `m_changed`; the old sports are dropped where it succeeds. -/
def exchange (s : State Score) : State Score :=
  match s.subscription.exchange with
  | (true, subscription) =>
      { s with subscription := subscription, writer := .copying, sports := [] }
  | (false, _) => { s with writer := .calling false }

/-- The copy of `m_last_req` under `m_written_lock`. -/
def copy (s : State Score) : State Score :=
  { s with
    writer := .calling true
    period := s.subscription.lastReq.pollingPeriod
    sports := s.subscription.lastReq.sports.foldl (fun sports sport => sports ++ [sport])
      s.sports }

/-- The response that is built from the result of the callback. -/
def buildResponse (lines : List (String × Score)) : SportsLinesResponse Score :=
  lines.foldl (fun response line => response.addLine { score := line.2, sport := line.1 }) {}

/-- After its sleep the writer calls `m_score_callback`, which returns `lines`. -/
def callback (s : State Score) (changed : Bool) (lines : List (String × Score))
    : State Score :=
  { s with
    writer := .writing
    response := buildResponse lines
    log := s.log ++ [.invoked { sports := s.sports, period := s.period, changed, lines }] }

/-- `m_stm.Write`, after which the loop goes round without waiting for the write tag. -/
def write (s : State Score) : State Score :=
  issue { s with writer := .inner } (.write s.response)

end State

-----------------------------------------------------------------------------------------
-- The machine
-----------------------------------------------------------------------------------------

inductive WorkerAction
  | post
  | loop
  | deliver (completion : Completion)
  | queueEnd
  | checkRequest
  | storeChanged
  | notifyOne
  | read
  | finish
deriving DecidableEq, Repr

inductive WriterAction (Score : Type)
  | outer
  | test
  | park
  | inner
  | exchange
  | copy
  | callback (lines : List (String × Score))
  | write
deriving DecidableEq, Repr

inductive StopAction
  | store
  | shutdownServer
  | shutdownQueue
  | notifyAll
  | joinWriter
  | joinWorker
  | drain (status : CallStatus)
  | drained
deriving DecidableEq, Repr

inductive Action (Score : Type)
  | start
  | cancel
  | worker (thread : Nat) (action : WorkerAction)
  | writer (action : WriterAction Score)
  | stop (action : StopAction)
deriving DecidableEq, Repr

/-- One step of a worker thread, where its program counter allows it. A completion can only
be delivered for a tag that is outstanding; `m_cq->Next` returns false on a queue that is
shut down and drained.
-/
def workerStep (s : State Score) (thread : Nat) : WorkerAction → Option (State Score)
  | .post =>
      if s.workers thread = .posting then
        some { s.setWorker thread .looping with
          outstanding := s.outstanding ++ [.connect] }
      else
        none
  | .loop =>
      if s.workers thread = .looping then
        some (s.setWorker thread (if s.shutdown then .exited else .waiting))
      else
        none
  | .deliver completion =>
      if s.workers thread = .waiting ∧ completion.tag ∈ s.outstanding then
        some (s.deliver thread completion)
      else
        none
  | .queueEnd =>
      if s.workers thread = .waiting ∧ s.queueShutdown = true ∧ s.outstanding = [] then
        some (s.setWorker thread .exited)
      else
        none
  | .checkRequest =>
      if s.workers thread = .checking then some (s.check thread) else none
  | .storeChanged =>
      if s.workers thread = .storing then some (s.storeChanged thread) else none
  | .notifyOne =>
      if s.workers thread = .notifying then some (s.notifyOne thread) else none
  | .read => if s.workers thread = .reading then some (s.read thread) else none
  | .finish => if s.workers thread = .finishing then some (s.finish thread) else none

/-- One step of the writer thread. -/
def writerStep (s : State Score) : WriterAction Score → Option (State Score)
  | .outer =>
      if s.writer = .outer then
        some { s with writer := if s.shutdown then .exited else .testing }
      else
        none
  | .test => if s.writer = .testing then some s.test else none
  | .park => if s.writer = .parking then some { s with writer := .parked } else none
  | .inner =>
      if s.writer = .inner then
        some { s with writer := if s.shutdown then .outer else .exchanging }
      else
        none
  | .exchange => if s.writer = .exchanging then some s.exchange else none
  | .copy => if s.writer = .copying then some s.copy else none
  | .callback lines =>
      match s.writer with
      | .calling changed => some (s.callback changed lines)
      | _ => none
  | .write => if s.writer = .writing then some s.write else none

/-- One step of a call of `stop`, which may be made again after an earlier one returned.
An unset `m_server` and a thread that is not joinable end the program. `m_server->Shutdown()`
waits for the calls that are open; when they are over is not modelled, so that `.shutdownServer`
is possible at any time here. What holds in every run holds in those where it comes later; that
it comes at all is nowhere concluded.
-/
def stopStep (s : State Score) : StopAction → Option (State Score)
  | .store =>
      if s.stopper = .idle ∨ s.stopper = .done then
        some { s with shutdown := true, stopper := .server }
      else
        none
  | .shutdownServer =>
      if s.stopper = .server then
        some { s with stopper := if s.built then .queue else .crashed }
      else
        none
  | .shutdownQueue =>
      if s.stopper = .queue then
        some { s with queueShutdown := true, stopper := .notify }
      else
        none
  | .notifyAll =>
      if s.stopper = .notify then
        some { s with writer := s.wake, stopper := .joinWriter }
      else
        none
  | .joinWriter =>
      if s.stopper = .joinWriter ∧ s.writerJoinable = false then
        some { s with stopper := .crashed }
      else if s.stopper = .joinWriter ∧ s.writer = .exited then
        some { s with writerJoinable := false, stopper := .joinWorkers 0 }
      else
        none
  | .joinWorker =>
      match s.stopper with
      | .joinWorkers joined =>
          if joined = s.threads then
            some { s with stopper := .drain }
          else if s.workers joined = .exited then
            some { s with stopper := .joinWorkers (joined + 1) }
          else
            none
      | _ => none
  | .drain status =>
      if s.stopper = .drain ∧ status ∈ s.outstanding then
        some { s with outstanding := s.outstanding.erase status }
      else
        none
  | .drained =>
      if s.stopper = .drain ∧ s.queueShutdown = true ∧ s.outstanding = [] then
        some { s with stopper := .done }
      else
        none

def step (s : State Score) : Action Score → Option (State Score)
  | .start => if s.built = false ∧ s.stopper = .idle then some s.start else none
  | .cancel => if s.built then some { s with cancelled := true } else none
  | .worker thread action => workerStep s thread action
  | .writer action => writerStep s action
  | .stop action => stopStep s action

/-- A server as its constructor leaves it; `threads` is the size of `m_processors`. -/
def machine (Score : Type) (threads : Nat) : Machine (State Score) (Action Score) where
  init := { threads }
  step := step

end RVision.Rpc.Server
