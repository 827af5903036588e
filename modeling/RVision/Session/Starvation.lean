import Mathlib.Algebra.Ring.Rat
import RVision.Session.Progress

/-! The session that starves: a first call for the default message is no change for the
server, which then never writes, while the client never writes again without a response.
-/

namespace RVision.Session

open Transition
open RVision.Rpc
open RVision.Lines.Provider

variable {Score : Type} {threads : Nat} {s : State Score}

/-- The session after a first call for the default message: the request was read and is no
change, the client waits for a response, the first `posted` workers wait for a completion,
and `calls` are queued.
-/
structure Starved (threads posted : Nat) (calls : List Client.Call) (s : State Score)
    : Prop where
  queue : s.client.calls = calls
  pushed : Client.pushedCalls s.client.log = (0, []) :: calls
  started : s.client.started = true
  callers : ∀ thread, s.client.callers thread = .idle
  processor : s.client.processor = .waiting
  inFlight : s.client.inFlight = [.read]
  written : Client.writtenRequests s.client.log = [{}]
  received : Client.receivedResponses s.client.log = []
  waiting : ∀ thread < posted, s.server.workers thread = .waiting
  posting : ∀ thread, posted ≤ thread → thread < threads → s.server.workers thread = .posting
  absent : ∀ thread, threads ≤ thread → s.server.workers thread = .absent
  outstanding : .write ∉ s.server.outstanding
  running : s.server.shutdown = false ∧ s.server.queueShutdown = false
  connected : .delivered (.connect true) ∈ s.server.log
  delivered : Server.deliveredRequests s.server.log = [{}]
  responses : Server.writtenResponses s.server.log = []
  writer : s.server.writer = .testing ∧ s.server.subscription.changed = false
  idle : s.fetch = none

/-- The client of a starved session has nothing to do but to wait for a response. -/
theorem Starved.client {posted : Nat} {calls : List Client.Call}
    (h : Starved threads posted calls s) {act : Client.Action Score}
    (called : ∀ thread call, act ≠ .push thread call) (clean : clientFaultless act = true)
    (may : ClientMay s act)
    : Client.step s.client act = none := by
  cases act with
  | push thread call => exact absurd rfl (called thread call)
  | exchange thread | startCall thread => simp [Client.step, h.callers]
  | loop | enter => simp [Client.step, h.processor]
  | deliver completion =>
      by_cases tag : completion.tag ∈ s.client.inFlight
      · -- Only a Read is in flight, and no response was ever written.
        rw [h.inFlight, List.mem_singleton] at tag
        cases completion with
        | read response =>
            cases response with
            | none => cases clean
            | some response =>
                replace may : s.nextResponse = some response := may
                simp [State.nextResponse, h.responses] at may
        | start _ | write _ | complete _ | done _ | finish _ => cases tag
      · simp [Client.step, tag]
  | storeShutdown | notifyAll | join | cancel | shutdownQueue | drain => cases clean

/-- The server of a starved session has nothing to do but to wait for a request. -/
theorem Starved.server {calls : List Client.Call} (h : Starved threads threads calls s)
    {act : Server.Action Score} (clean : serverFaultless s.server act = true)
    (may : ServerMay s act)
    : Server.step s.server act = none := by
  cases act with
  | start | cancel | stop _ => cases clean
  | writer action =>
      cases action with
      | test => simp [serverFaultless, h.running, h.writer] at clean
      | _ => simp [Server.step, Server.writerStep, h.writer]
  | worker thread action =>
      by_cases inside : thread < threads
      · have pc := h.waiting thread inside
        cases action with
        | deliver completion =>
            by_cases tag : completion.tag ∈ s.server.outstanding
            · cases completion with
              | connect ok =>
                  cases ok with
                  | false => cases clean
                  | true => exact absurd h.connected may.2
              | read message =>
                  cases message with
                  | none => cases clean
                  | some message =>
                      replace may : s.nextRequest = some message := may
                      simp [State.nextRequest, h.written, h.delivered] at may
              | write ok => exact absurd tag h.outstanding
              | done _ | finish _ => cases clean
            · simp [Server.step, Server.workerStep, tag]
        | _ => simp [Server.step, Server.workerStep, pc, h.running]
      · have pc := h.absent thread (by omega)
        cases action <;> simp [Server.step, Server.workerStep, pc]

section Runs

variable [DecidableEq Score] [Zero Score] [Sub Score] {sports : List String}

/-- One more worker posts its request for a connection and waits. -/
theorem Starved.post {posted : Nat} {calls : List Client.Call}
    (h : Starved threads posted calls s) (inside : posted < threads)
    (reached : (faultless Score threads sports).Reachable s)
    : ∃ next,
        (faultless Score threads sports).Reachable next
        ∧ Starved threads (posted + 1) calls next := by
  have pc := h.posting posted le_rfl inside
  let posting : State Score :=
    { s with
      server :=
        { s.server.setWorker posted .looping with
          outstanding := s.server.outstanding ++ [.connect] } }
  let waiting : State Score :=
    { s with server := posting.server.setWorker posted .waiting }
  have first : (faultless Score threads sports).step s (.server (.worker posted .post))
      = some posting := by
    simp [faultless, Machine.guard, machine, step, Faultless, serverFaultless, ServerMay,
      Server.step, Server.workerStep, fetchAfter, pc, posting]
  have second : (faultless Score threads sports).step posting
      (.server (.worker posted .loop)) = some waiting := by
    simp [faultless, Machine.guard, machine, step, Faultless, serverFaultless, ServerMay,
      Server.step, Server.workerStep, fetchAfter, Server.State.setWorker, h.running, posting,
      waiting]
  refine ⟨waiting, (reached.step first).step second,
    { h with waiting := ?_, posting := ?_, absent := ?_, outstanding := ?_ }⟩
  · intro thread before
    by_cases here : thread = posted
    · subst thread
      simp [waiting, Server.State.setWorker]
    · simpa [waiting, posting, Server.State.setWorker, here]
        using h.waiting thread (by omega)
  · intro thread after inside
    have here : thread ≠ posted := by omega
    simpa [waiting, posting, Server.State.setWorker, here]
      using h.posting thread (by omega) inside
  · intro thread outside
    have here : thread ≠ posted := by omega
    simpa [waiting, posting, Server.State.setWorker, here] using h.absent thread outside
  · simpa [waiting, posting, Server.State.setWorker] using h.outstanding

/-- One more call is queued. -/
theorem Starved.push {posted : Nat} {calls : List Client.Call}
    (h : Starved threads posted calls s) (call : Client.Call)
    (reached : (faultless Score threads sports).Reachable s)
    : ∃ next,
        (faultless Score threads sports).Reachable next
        ∧ Starved threads posted (calls ++ [call]) next := by
  let pushing : State Score := { s with client := s.client.push 0 call }
  let queued : State Score := { s with client := pushing.client.exchange 0 }
  have first : (faultless Score threads sports).step s (.client (.push 0 call))
      = some pushing := by
    simp [faultless, Machine.guard, machine, step, Faultless, clientFaultless, ClientMay,
      Client.step, h.callers, pushing]
  have second : (faultless Score threads sports).step pushing (.client (.exchange 0))
      = some queued := by
    simp [faultless, Machine.guard, machine, step, Faultless, clientFaultless, ClientMay,
      Client.step, Client.State.push, pushing, queued]
  have effect : queued.client
      = { s.client.push 0 call with callers := Function.update s.client.callers 0 .idle } := by
    simp [queued, pushing, Client.State.exchange, Client.State.push, h.started]
  refine ⟨queued, (reached.step first).step second,
    { h with
      queue := ?_, pushed := ?_, started := ?_, callers := ?_, processor := ?_,
      inFlight := ?_, written := ?_, received := ?_ }⟩
  all_goals rw [effect]
  · simp [Client.State.push, h.queue]
  · simp only [Client.State.push, Client.pushedCalls, List.filterMap_append]
    exact congrArg (· ++ [call]) h.pushed
  · exact h.started
  · intro thread
    by_cases here : thread = 0
    · subst thread
      simp
    · simpa [here] using h.callers thread
  · exact h.processor
  · exact h.inFlight
  · simpa [Client.State.push, Client.writtenRequests] using h.written
  · simpa [Client.State.push, Client.receivedResponses] using h.received

/-- A first call for the default message, as far as it gets. -/
def firstCall : List (Action Score) :=
  [.client (.push 0 (0, [])), .client (.exchange 0), .client (.startCall 0), .client .loop,
    .client .enter, .client (.deliver (.start true)), .client .loop, .client .enter,
    .client (.deliver (.write true)), .client .loop, .client .enter,
    .server (.worker 0 .post), .server (.worker 0 .loop),
    .server (.worker 0 (.deliver (.connect true))), .server (.worker 0 .read),
    .server (.worker 0 .loop), .server (.worker 0 (.deliver (.read (some {})))),
    .server (.worker 0 .checkRequest), .server (.worker 0 .read),
    .server (.worker 0 .loop), .server (.writer .outer)]

theorem starved_firstCall (others : Nat)
    : ∃ s : State Score,
        (faultless Score (others + 1) sports).Reachable s ∧ Starved (others + 1) 1 [] s := by
  obtain ⟨s, ran⟩ : ∃ s : State Score,
      (faultless Score (others + 1) sports).run firstCall = some s := ⟨_, rfl⟩
  have field {Field : Type} (view : State Score → Field) (value : Field)
      (known : ((faultless Score (others + 1) sports).run firstCall).map view = some value)
      : view s = value := by
    rw [ran] at known
    exact Option.some.inj known
  have callers := field (fun s => s.client.callers)
    ([Client.CallerPc.exchanging, .starting, .idle].foldl
      (fun callers pc => Function.update callers 0 pc) (fun _ => .idle)) rfl
  have workers := field (fun s => s.server.workers)
    ([Server.WorkerPc.looping, .waiting, .reading, .looping, .waiting, .checking, .reading,
      .looping, .waiting].foldl (fun workers pc => Function.update workers 0 pc)
      (fun thread => if thread < others + 1 then .posting else .absent)) rfl
  have outstanding := field (fun s => s.server.outstanding) [.finish, .read] rfl
  have server := field (fun s => s.server.log)
    [.delivered (.connect true), .started .read, .delivered (.read (some {})),
      .started .read] rfl
  have client := field (fun s => s.client.log)
    [.pushed (0, []), .issued .startCall, .handled (.start true), .issued (.write {}),
      .handled (.write true), .issued .read] rfl
  refine ⟨s, ⟨firstCall, ran⟩, ?_⟩
  constructor
  case queue => exact field (fun s => s.client.calls) [] rfl
  case started => exact field (fun s => s.client.started) true rfl
  case processor => exact field (fun s => s.client.processor) .waiting rfl
  case inFlight => exact field (fun s => s.client.inFlight) [.read] rfl
  case pushed | written | received => rw [client]; rfl
  case delivered | responses => rw [server]; rfl
  case connected => simp [server]
  case outstanding => simp [outstanding]
  case callers =>
    intro thread
    by_cases here : thread = 0 <;> simp [callers, here]
  case waiting =>
    intro thread before
    obtain rfl : thread = 0 := by omega
    simp [workers]
  case posting =>
    intro thread after inside
    have here : thread ≠ 0 := by omega
    simp only [workers, List.foldl, Function.update_of_ne here]
    exact if_pos inside
  case absent =>
    intro thread outside
    have here : thread ≠ 0 := by omega
    simp only [workers, List.foldl, Function.update_of_ne here]
    exact if_neg (not_lt.mpr outside)
  case running =>
    exact ⟨field (fun s => s.server.shutdown) false rfl,
      field (fun s => s.server.queueShutdown) false rfl⟩
  case writer =>
    exact ⟨field (fun s => s.server.writer) .testing rfl,
      field (fun s => s.server.subscription.changed) false rfl⟩
  case idle => exact field (fun s => s.fetch) none rfl

/-- A starved session whose workers have all posted is stuck. -/
theorem Starved.stuck {calls : List Client.Call} (h : Starved threads threads calls s)
    : Stuck threads sports s := by
  intro action advances enabled
  obtain ⟨next, taken⟩ := enabled
  obtain ⟨clean, taken⟩ := Option.ite_none_right_eq_some.mp taken
  replace taken : step s action = some next := taken
  cases action with
  | client act =>
      obtain ⟨may, mapped⟩ := Option.ite_none_right_eq_some.mp taken
      have called (thread : Nat) (call : Client.Call) : act ≠ .push thread call := by
        intro same
        subst same
        cases advances
      simp [h.client called clean may] at mapped
  | server act =>
      obtain ⟨may, mapped⟩ := Option.ite_none_right_eq_some.mp taken
      simp [h.server clean may] at mapped
  | update => cases advances
  | fetch => simp [step, h.writer] at taken
  | line => simp [step, h.idle] at taken

/-- Every number of workers and every queue behind the first call lead to a starved session,
by induction on both.
-/
theorem exists_starved (Score : Type) [DecidableEq Score] [Zero Score] [Sub Score]
    (sports : List String) (positive : 0 < threads) (calls : List Client.Call)
    : ∃ s : State Score,
        (faultless Score threads sports).Reachable s ∧ Starved threads threads calls s := by
  obtain ⟨others, rfl⟩ := Nat.exists_eq_add_of_lt positive
  simp only [zero_add]
  have posted (more : Nat) (inside : more ≤ others)
      : ∃ s : State Score,
          (faultless Score (others + 1) sports).Reachable s
          ∧ Starved (others + 1) (more + 1) [] s := by
    induction more with
    | zero => exact starved_firstCall others
    | succ more ih =>
        obtain ⟨s, reached, starved⟩ := ih (by omega)
        exact starved.post (by omega) reached
  induction calls using List.reverseRecOn with
  | nil => exact posted others le_rfl
  | append_singleton calls call ih =>
      obtain ⟨s, reached, starved⟩ := ih
      exact starved.push call reached

/-- For every sequence of calls and any number of workers: a queued call always gets on
exactly when the sequence does not begin with a call for period 0 and no sports that is
followed by another one.
-/
theorem alwaysAdvances_iff (positive : 0 < threads) (sports : List String)
    (calls : List Client.Call)
    : AlwaysAdvances Score threads sports calls
      ↔ ¬ ∃ second rest, calls = (0, []) :: second :: rest := by
  constructor
  · intro advances pattern
    obtain ⟨second, rest, rfl⟩ := pattern
    obtain ⟨s, reached, starved⟩ := exists_starved Score sports positive (second :: rest)
    obtain ⟨action, advancing, enabled⟩ :=
      advances s reached starved.pushed (by simp [starved.queue])
    exact starved.stuck action advancing enabled
  · intro other s reached pushed queued
    by_contra none
    have stuck : Stuck threads sports s := by
      intro action advancing enabled
      exact none ⟨action, advancing, enabled⟩
    obtain ⟨second, rest, pattern⟩ := stuck.calls positive reached queued
    exact other ⟨second, rest, pushed.symm.trans pattern⟩

end Runs

/-- A call for period 0 and no sports that is not the first one. -/
def defaultLast : List Client.Call := [(5, ["football"]), (0, [])]

theorem alwaysAdvances_iff_defaultLast : AlwaysAdvances Rat 1 ["football"] defaultLast := by
  refine (alwaysAdvances_iff Nat.one_pos ["football"] defaultLast).mpr ?_
  rintro ⟨second, rest, same⟩
  simp [defaultLast] at same

/-- After a call for period 0 and no sports the next call stays in the queue. -/
theorem queued_for_ever_after_default
    : ¬ ∀ calls, AlwaysAdvances Rat 1 ["football"] calls := by
  intro all
  obtain ⟨s, reached, starved⟩ :=
    exists_starved Rat ["football"] Nat.one_pos [(5, ["football"])]
  obtain ⟨action, advancing, enabled⟩ :=
    all [(0, []), (5, ["football"])] s reached starved.pushed (by simp [starved.queue])
  exact starved.stuck action advancing enabled

end RVision.Session
