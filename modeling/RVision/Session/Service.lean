import Mathlib.Algebra.Ring.Rat
import RVision.Session.Response

/-! A session that goes on. From every state of a faultless session the client can still be
handed another response, and all its calls can still be written, unless its first call was for
the default message: then nothing is ever handed over, and the second call is never written.
-/

namespace RVision.Session

open Transition
open RVision.Rpc
open RVision.Lines.Provider

variable {Score : Type}

-----------------------------------------------------------------------------------------
-- The client comes to wait for a response
-----------------------------------------------------------------------------------------

/-- The client waits for a response. -/
structure Rests (client : Client.State Score) : Prop where
  processor : client.processor = .waiting
  inFlight : client.inFlight = [.read]

/-- How far the stream is from its next Read. -/
def stage (client : Client.State Score) : Nat :=
  match client.inFlight with
  | [.read] => 0
  | [.write] => 1
  | [.start] => 2
  | _ => if client.started then 3 else 4

/-- How far the processor is from `m_cq.Next`. -/
def beforeNext : Client.ProcessorPc → Nat
  | .looping => 2
  | .entering => 1
  | .waiting | .exited => 0

/-- How far the client is from its rest. -/
def restless (client : Client.State Score) : Nat :=
  3 * stage client + beforeNext client.processor

/-- Two clients have been called for the same, have been handed the same, and the second has
no more calls queued.
-/
structure Follows (old new : Client.State Score) : Prop where
  pushed : Client.pushedCalls new.log = Client.pushedCalls old.log
  received : Client.receivedResponses new.log = Client.receivedResponses old.log
  calls : new.calls.length ≤ old.calls.length

theorem Follows.refl (client : Client.State Score) : Follows client client :=
  ⟨rfl, rfl, Nat.le_refl _⟩

theorem Follows.trans {old middle new : Client.State Score} (first : Follows old middle)
    (second : Follows middle new)
    : Follows old new :=
  ⟨second.pushed.trans first.pushed, second.received.trans first.received,
    second.calls.trans first.calls⟩

/-- A step of the client towards its rest, which is neither another call nor a response. -/
structure TowardsRest (client : Client.State Score) (act : Client.Action Score)
    (next : Client.State Score)
    : Prop where
  clean : clientFaultless act = true
  noCall : ∀ thread call, act ≠ .push thread call
  noRead : ∀ response, act ≠ .deliver (.read response)
  moved : Client.step client act = some next
  follows : Follows client next
  nearer : restless next < restless client

section Towards

variable {client : Client.State Score}

/-- A client that has called and written nothing has its calls queued. -/
theorem queued_of_unstarted (reached : (Client.machine Score).Reachable client)
    (called : Client.pushedCalls client.log ≠ []) (none : Client.operations client.log = [])
    : client.calls ≠ [] := by
  have unwritten : Client.writtenRequests client.log = [] := by
    apply List.eq_nil_iff_forall_not_mem.mpr
    intro request member
    obtain ⟨event, found, same⟩ := List.mem_filterMap.mp member
    have issued : Client.Operation.write request ∈ Client.operations client.log := by
      rw [Client.mem_operations_iff]
      cases event with
      | issued operation => cases operation <;> cases same; exact found
      | _ => cases same
    simp [none] at issued
  have streams := (Client.MessageStreams.invariant reached).requests
  rw [unwritten] at streams
  exact fun empty => called (by rw [← streams, empty]; rfl)

theorem towardsRest_loop (running : client.shutdown = false)
    (looping : client.processor = .looping)
    : TowardsRest client .loop { client with processor := .entering } := by
  refine ⟨rfl, by simp, by simp, ?_, ⟨rfl, rfl, Nat.le_refl _⟩, ?_⟩
  · simp [Client.step, looping, running]
  · simp [restless, stage, beforeNext, looping]

theorem towardsRest_enter (entering : client.processor = .entering)
    : TowardsRest client .enter { client with processor := .waiting } := by
  refine ⟨rfl, by simp, by simp, if_pos entering, ⟨rfl, rfl, Nat.le_refl _⟩, ?_⟩
  simp [restless, stage, beforeNext, entering]

theorem towardsRest_exchange (waiting : client.processor = .waiting)
    (inFlight : client.inFlight = []) (fresh : client.started = false) {thread : Nat}
    (pc : client.callers thread = .exchanging)
    : TowardsRest client (.exchange thread) (client.exchange thread) := by
  refine ⟨rfl, by simp, by simp, if_pos pc, ?_, ?_⟩
  · simp only [Client.State.exchange, fresh]
    exact ⟨rfl, rfl, Nat.le_refl _⟩
  · simp [restless, stage, beforeNext, Client.State.exchange, fresh, waiting, inFlight]

theorem towardsRest_startCall (waiting : client.processor = .waiting)
    (inFlight : client.inFlight = []) (started : client.started = true) {thread : Nat}
    (pc : client.callers thread = .starting)
    : TowardsRest client (.startCall thread) (client.startCall thread) := by
  refine ⟨rfl, by simp, by simp, if_pos pc, ⟨?_, ?_, Nat.le_refl _⟩, ?_⟩
  · simp [Client.State.startCall, Client.State.issue, Client.pushedCalls]
  · simp [Client.State.startCall, Client.State.issue, Client.receivedResponses]
  · simp [restless, stage, beforeNext, Client.State.startCall, Client.State.issue, started,
      waiting, inFlight, Client.Operation.tag]

theorem towardsRest_start (waiting : client.processor = .waiting)
    (inFlight : client.inFlight = [.start]) (free : client.outstand = false)
    (queued : client.calls ≠ [])
    : TowardsRest client (.deliver (.start true)) (client.deliver (.start true)) := by
  obtain ⟨call, rest, queue⟩ := List.exists_cons_of_ne_nil queued
  have wrote := Client.State.deliver_start_cons free queue
  refine ⟨rfl, by simp, by simp, ?_, ⟨?_, ?_, ?_⟩, ?_⟩
  · simp [Client.step, waiting, inFlight, Client.Completion.tag]
  · simp [wrote, Client.State.writeNext, Client.State.taken, Client.State.issue,
      Client.pushedCalls]
  · simp [wrote, Client.State.writeNext, Client.State.taken, Client.State.issue,
      Client.receivedResponses]
  · simp [wrote, Client.State.writeNext, Client.State.taken, Client.State.issue, queue]
  · simp [wrote, restless, stage, beforeNext, Client.State.writeNext, Client.State.taken,
      Client.State.issue, inFlight, Client.Operation.tag, Client.Completion.tag, waiting]

theorem towardsRest_write (waiting : client.processor = .waiting)
    (inFlight : client.inFlight = [.write])
    : TowardsRest client (.deliver (.write true)) (client.deliver (.write true)) := by
  rw [Client.State.deliver_write_true]
  refine ⟨rfl, by simp, by simp, ?_, ⟨?_, ?_, Nat.le_refl _⟩, ?_⟩
  · simp [Client.step, waiting, inFlight, Client.Completion.tag, Client.State.deliver_write_true]
  · simp [Client.State.taken, Client.State.issue, Client.pushedCalls]
  · simp [Client.State.taken, Client.State.issue, Client.receivedResponses]
  · simp [restless, stage, beforeNext, Client.State.taken, Client.State.issue, inFlight,
      Client.Operation.tag, Client.Completion.tag, waiting]

/-- A client that is neither finished nor at rest has a step of its own towards its rest. -/
theorem exists_towardsRest (clean : ClientClean client)
    (reached : (Client.machine Score).Reachable client)
    (called : Client.pushedCalls client.log ≠ [])
    : Rests client ∨ ∃ act next, TowardsRest client act next := by
  have alive := Client.alive_of_not_shutdown reached clean.running
  obtain ⟨phase, h⟩ := Client.exists_inPhase reached (by simp [alive])
  cases pc : client.processor with
  | looping => exact Or.inr ⟨_, _, towardsRest_loop clean.running pc⟩
  | entering => exact Or.inr ⟨_, _, towardsRest_enter pc⟩
  | exited => exact absurd pc clean.present
  | waiting =>
      cases phase with
      | reading => exact Or.inl ⟨pc, h.inFlight⟩
      | unstarted =>
          have queued := queued_of_unstarted reached called h.operations
          obtain ⟨thread, exchanging⟩ := (h.racing rfl).mp queued
          have fresh : client.started = false := by simpa using h.started
          exact Or.inr ⟨_, _, towardsRest_exchange pc h.inFlight fresh exchanging⟩
      | starting thread =>
          have started : client.started = true := h.started.mpr (by simp)
          have starting := (h.starter thread).mpr rfl
          exact Or.inr ⟨_, _, towardsRest_startCall pc h.inFlight started starting⟩
      | connecting =>
          have queued := h.queued (Or.inr rfl)
          exact Or.inr ⟨_, _, towardsRest_start pc h.inFlight h.outstand queued⟩
      | writing => exact Or.inr ⟨_, _, towardsRest_write pc h.inFlight⟩
      | finishing | finished =>
          obtain ⟨rest, operations, _⟩ := h.operations
          exact absurd (Client.mem_operations_iff.mp (by simp [operations])) clean.unfinished

end Towards

section Service

variable [DecidableEq Score] [Zero Score] [Sub Score] {threads : Nat} {sports : List String}
  {s : State Score}

/-- The client of every session that has been called can come to wait for a response. -/
theorem leads_rests (positive : 0 < threads)
    (reached : (faultless Score threads sports).Reachable s)
    (called : Client.pushedCalls s.client.log ≠ [])
    : Ahead threads sports s (fun later =>
        (faultless Score threads sports).Reachable later
        ∧ Follows s.client later.client
        ∧ Rests later.client) := by
  refine Machine.exists_runFrom_of_rank
    (fun later =>
      (faultless Score threads sports).Reachable later ∧ Follows s.client later.client)
    (fun later =>
      (faultless Score threads sports).Reachable later
      ∧ Follows s.client later.client
      ∧ Rests later.client)
    (fun later => restless later.client) ?_ ⟨reached, .refl _⟩
  intro state onWay
  obtain ⟨here, follows⟩ := onWay
  have clean := (clean_of_reachable positive here).1
  have client := client_reachable (reachable_of_faultless here)
  rcases exists_towardsRest clean client (follows.pushed ▸ called) with rests | moves
  · exact Or.inl ⟨here, follows, rests⟩
  · obtain ⟨act, next, towards⟩ := moves
    have may : ClientMay state act := by
      unfold ClientMay
      split
      · exact absurd rfl (towards.noRead _)
      · trivial
    have taken : (faultless Score threads sports).step state (.client act)
        = some { state with client := next } := by
      simp [faultless, Machine.guard, machine, step, Faultless, towards.clean, may, towards.moved]
    have advances : (Action.client act).advances = true := by
      cases act with
      | push thread call => exact absurd rfl (towards.noCall thread call)
      | _ => rfl
    exact Or.inr ⟨.client act, _, advances, taken,
      ⟨here.step taken, follows.trans towards.follows⟩, towards.nearer⟩

-----------------------------------------------------------------------------------------
-- Another response
-----------------------------------------------------------------------------------------

theorem reading_of_rests (positive : 0 < threads)
    (reached : (faultless Score threads sports).Reachable s) (rests : Rests s.client)
    : Client.InPhase s.client .reading := by
  have clean := (clean_of_reachable positive reached).1
  have client := client_reachable (reachable_of_faultless reached)
  have alive := Client.alive_of_not_shutdown client clean.running
  obtain ⟨phase, h⟩ := Client.exists_inPhase client (by simp [alive])
  obtain rfl : phase = .reading := by
    have known := h.inFlight.symm.trans rests.inFlight
    cases phase <;> simp [Client.Phase.inFlight] at known
    rfl
  exact h

/-- A client at rest has called, and its first request is its first call. -/
theorem asked_of_rests (positive : 0 < threads)
    (reached : (faultless Score threads sports).Reachable s) (rests : Rests s.client)
    {first : Client.Call} {others : List Client.Call}
    (called : Client.pushedCalls s.client.log = first :: others) (other : first ≠ (0, []))
    : Asked s.client := by
  have client := client_reachable (reachable_of_faultless reached)
  have flight : .read ∈ s.client.inFlight := by simp [rests.inFlight]
  have streams := (Client.MessageStreams.invariant client).requests
  have written := (Client.lockstep_of_reachable client).opened (Or.inr flight)
  obtain ⟨request, more, requests⟩ := List.exists_cons_of_ne_nil written
  obtain ⟨_, operations, _⟩ := (reading_of_rests positive reached rests).operations
  refine ⟨Client.mem_operations_iff.mp (by simp [operations]), request, more, requests, ?_⟩
  rw [requests, called, List.map_cons, List.cons_append, List.cons.injEq] at streams
  by_contra same
  simp only [Server.Subscription.Differs, not_or, not_not] at same
  apply other
  rw [← streams.1, ← same.1, List.eq_nil_of_length_eq_zero same.2.symm]

omit [DecidableEq Score] [Zero Score] [Sub Score] in
/-- What a response does to the client that waits for it. -/
theorem deliver_response {client : Client.State Score} (free : client.outstand = false)
    (response : SportsLinesResponse Score)
    : Client.pushedCalls (client.deliver (.read (some response))).log
        = Client.pushedCalls client.log
      ∧ Client.receivedResponses (client.deliver (.read (some response))).log
        = Client.receivedResponses client.log ++ [response]
      ∧ (client.deliver (.read (some response))).calls = client.calls.tail := by
  cases queue : client.calls with
  | nil =>
      rw [Client.State.deliver_read_nil queue]
      simp [Client.State.taken, Client.State.handOver, Client.State.issue, Client.pushedCalls,
        Client.receivedResponses, queue]
  | cons call rest =>
      rw [Client.State.deliver_read_cons free queue]
      simp [Client.State.taken, Client.State.handOver, Client.State.writeNext,
        Client.State.issue, Client.pushedCalls, Client.receivedResponses]

/-- One more response can be handed over, and the next call, if there is one, goes out with it.
-/
theorem leads_response (positive : 0 < threads)
    (reached : (faultless Score threads sports).Reachable s)
    {first : Client.Call} {others : List Client.Call}
    (called : Client.pushedCalls s.client.log = first :: others) (other : first ≠ (0, []))
    : Ahead threads sports s (fun later =>
        (faultless Score threads sports).Reachable later
        ∧ Client.pushedCalls later.client.log = Client.pushedCalls s.client.log
        ∧ (Client.handedLines s.client.log).length < (Client.handedLines later.client.log).length
        ∧ (later.client.calls.length < s.client.calls.length ∨ later.client.calls = [])) := by
  have handed {state : State Score} (here : (faultless Score threads sports).Reachable state)
      : (Client.handedLines state.client.log).length
        = (Client.receivedResponses state.client.log).length := by
    have client := client_reachable (reachable_of_faultless here)
    rw [(Client.MessageStreams.invariant client).responses, List.length_map]
  refine Machine.Leads.trans (leads_rests positive reached (by simp [called])) ?_
  intro middle there
  obtain ⟨here, follows, rests⟩ := there
  have asked := asked_of_rests positive here rests (follows.pushed.trans called) other
  have onWay : OnWay threads sports middle.client
      (Client.receivedResponses middle.client.log).length middle :=
    ⟨here, rfl, (channels_of_reachable (reachable_of_faultless here)).responses.length_le⟩
  refine Machine.Leads.trans (onWay.responds positive asked) ?_
  intro ready responded
  obtain ⟨response, ahead⟩ : ∃ response, ready.nextResponse = some response := by
    have bound : (Client.receivedResponses ready.client.log).length
        < (Server.writtenResponses ready.server.log).length :=
      responded.client ▸ responded.written
    exact ⟨_, List.getElem?_eq_getElem bound⟩
  have tag : (Client.Completion.read (some response)).tag ∈ ready.client.inFlight := by
    simp [responded.client, rests.inFlight, Client.Completion.tag]
  have waiting : ready.client.processor = .waiting := responded.client ▸ rests.processor
  have taken : (faultless Score threads sports).step ready
        (.client (.deliver (.read (some response))))
      = some { ready with client := ready.client.deliver (.read (some response)) } := by
    simp [faultless, Machine.guard, machine, step, Faultless, clientFaultless, ClientMay, ahead,
      Client.step, waiting, tag]
  have free : ready.client.outstand = false :=
    responded.client ▸ (reading_of_rests positive here rests).outstand
  obtain ⟨pushed, received, calls⟩ := deliver_response free response
  have last := responded.reached.step taken
  refine Machine.Leads.next rfl taken (Machine.Leads.here ⟨last, ?_, ?_, ?_⟩)
  · rw [pushed, responded.client, follows.pushed]
  · rw [handed reached, handed last, received, responded.client, follows.received]
    simp
  · rw [calls, responded.client]
    have fewer := follows.calls
    cases queue : middle.client.calls with
    | nil => exact Or.inr rfl
    | cons call rest =>
        left
        rw [queue, List.length_cons] at fewer
        exact fewer

-----------------------------------------------------------------------------------------
-- After a first call for the default message
-----------------------------------------------------------------------------------------

omit [DecidableEq Score] [Zero Score] [Sub Score] in
/-- A server accepts or writes, not both in one step. -/
theorem accepted_or_written {server next : Server.State Score} {act : Server.Action Score}
    (taken : Server.Step server act next)
    : Server.acceptedMessages next.log = Server.acceptedMessages server.log
      ∨ Server.writtenResponses next.log = Server.writtenResponses server.log := by
  cases taken with
  | accept => exact Or.inr (by simp [Server.State.accept, Server.writtenResponses])
  | deliver => exact Or.inl (by simp [Server.State.deliver, Server.acceptedMessages])
  | read => exact Or.inl (by simp [Server.State.read, Server.State.issue,
      Server.acceptedMessages])
  | finish => exact Or.inl (by simp [Server.State.finish, Server.State.issue,
      Server.acceptedMessages])
  | callback => exact Or.inl (by simp [Server.State.callback, Server.acceptedMessages])
  | write => exact Or.inl (by simp [Server.State.write, Server.State.issue,
      Server.acceptedMessages])
  | _ => exact Or.inl rfl

/-- A client whose first call is for the default message has written it and no other request, as
long as it was handed nothing, and the server has accepted none.
-/
theorem accepted_of_unanswered (positive : 0 < threads)
    (reached : (faultless Score threads sports).Reachable s)
    (default : ∀ first ∈ (Client.pushedCalls s.client.log).head?, first = (0, []))
    (silent : Server.writtenResponses s.server.log = [])
    : Server.acceptedMessages s.server.log = [] := by
  have whole := reachable_of_faultless reached
  have client := client_reachable whole
  have channels := channels_of_reachable whole
  have received : Client.receivedResponses s.client.log = [] := by
    have before := channels.responses
    rwa [silent, List.prefix_nil] at before
  have clean := (clean_of_reachable positive reached).1
  have few := Client.written_le_received_succ client clean.running
  have streams := (Client.MessageStreams.invariant client).requests
  obtain ⟨checked, order⟩ := Server.exists_inOrder (server_reachable whole) channels.connection
  rw [order.accepted, Server.effective_eq_nil_iff]
  intro message member
  have delivered : message ∈ Server.deliveredRequests s.server.log := by
    rcases order.delivered with ⟨-, all⟩ | ⟨-, all⟩
    · exact all ▸ member
    · exact all ▸ List.mem_append_left _ member
  have written := channels.requests.mem delivered
  obtain ⟨request, only⟩ : ∃ request, Client.writtenRequests s.client.log = [request] := by
    rw [received] at few
    exact List.length_eq_one_iff.mp (Nat.le_antisymm few (List.length_pos_of_mem written))
  obtain rfl : message = request := by simpa [only] using written
  rw [only] at streams
  have same := default (message.pollingPeriod, message.sports) (by simp [← streams])
  obtain ⟨period, sports⟩ := Prod.mk.inj same
  simp [Server.Subscription.Differs, period, sports]

/-- Calls are not taken back. -/
theorem pushedCalls_grows {next : State Score} {action : Action Score}
    (taken : step s action = some next)
    : Client.pushedCalls s.client.log <+: Client.pushedCalls next.client.log := by
  rcases step_cases taken with ⟨act, client, -, -, moved, rfl⟩ | ⟨_, _, _, _, _, rfl⟩ | same
  · rcases Client.step_log moved with ⟨_, _, _, _, log⟩ | ⟨_, events, log, _⟩
    · exact log ▸ (List.prefix_append _ _).filterMap _
    · exact log ▸ (List.prefix_append _ _).filterMap _
  · exact List.prefix_refl _
  · rw [same.1]

/-- The server never writes a response to a client whose first call is for the default message.
-/
theorem silent_of_default (positive : 0 < threads)
    (reached : (faultless Score threads sports).Reachable s)
    (default : ∀ first ∈ (Client.pushedCalls s.client.log).head?, first = (0, []))
    : Server.writtenResponses s.server.log = [] := by
  refine reached.invariant
    (motive := fun s =>
      (∀ first ∈ (Client.pushedCalls s.client.log).head?, first = (0, []))
      → Server.writtenResponses s.server.log = [])
    (fun _ => rfl) ?_ default
  intro s action next before known taken default
  have earlier (first : Client.Call) (member : first ∈ (Client.pushedCalls s.client.log).head?)
      : first = (0, []) := by
    obtain ⟨-, moved⟩ := Option.ite_none_right_eq_some.mp taken
    obtain ⟨tail, grown⟩ := pushedCalls_grows moved
    apply default
    rw [← grown]
    cases calls : Client.pushedCalls s.client.log with
    | nil => simp [calls] at member
    | cons call rest => simpa [calls] using member
  have silent := known earlier
  have after := before.step taken
  have running := (clean_of_reachable positive after).2.running.1
  have server := server_reachable (reachable_of_faultless after)
  obtain ⟨-, taken⟩ := Option.ite_none_right_eq_some.mp taken
  rcases step_cases taken with ⟨_, _, _, _, _, rfl⟩ | ⟨act, _, _, _, moved, rfl⟩ | same
  · exact silent
  · rcases accepted_or_written (Server.Step.of_step moved) with accepted | written
    · have none := accepted.trans (accepted_of_unanswered positive before earlier silent)
      exact writtenResponses_of_accepted_nil (Server.produced_of_reachable server)
        (Server.handOver_of_reachable server running) none
    · exact written.trans silent
  · rw [same.2]
    exact silent

/-- After a first call for the default message nothing is handed over, and one request is all
that is written.
-/
theorem unanswered_of_default (positive : 0 < threads)
    (reached : (faultless Score threads sports).Reachable s) {others : List Client.Call}
    (called : Client.pushedCalls s.client.log = (0, []) :: others)
    : Client.handedLines s.client.log = []
      ∧ (Client.writtenRequests s.client.log).length ≤ 1 := by
  have whole := reachable_of_faultless reached
  have client := client_reachable whole
  have received : Client.receivedResponses s.client.log = [] := by
    have before := (channels_of_reachable whole).responses
    rwa [silent_of_default positive reached (by simp [called]), List.prefix_nil] at before
  have clean := (clean_of_reachable positive reached).1
  have few := Client.written_le_received_succ client clean.running
  rw [received] at few
  refine ⟨?_, few⟩
  rw [(Client.MessageStreams.invariant client).responses, received]
  rfl

theorem pushedCalls_later {later : State Score} {actions : List (Action Score)}
    (ran : (faultless Score threads sports).runFrom s actions = some later)
    {first : Client.Call} {others : List Client.Call}
    (called : Client.pushedCalls s.client.log = first :: others)
    : ∃ more, Client.pushedCalls later.client.log = first :: (others ++ more) := by
  have grown : Client.pushedCalls s.client.log <+: Client.pushedCalls later.client.log :=
    Machine.runFrom_invariant ran
      (motive := fun state =>
        Client.pushedCalls s.client.log <+: Client.pushedCalls state.client.log)
      (List.prefix_refl _) (fun _ _ _ known taken =>
        known.trans (pushedCalls_grows (Option.ite_none_right_eq_some.mp taken).2))
  obtain ⟨more, same⟩ := grown
  exact ⟨more, by rw [← same, called, List.cons_append]⟩

-----------------------------------------------------------------------------------------
-- The session goes on
-----------------------------------------------------------------------------------------

/-- From every reachable state of a faultless session that has been called, steps of the parties
alone can lead to one more response in the callback, exactly if the first call was not for period
0 and no sports.
-/
theorem response_ahead_iff (positive : 0 < threads)
    (reached : (faultless Score threads sports).Reachable s)
    {first : Client.Call} {others : List Client.Call}
    (called : Client.pushedCalls s.client.log = first :: others)
    : Ahead threads sports s (fun later =>
        (Client.handedLines s.client.log).length < (Client.handedLines later.client.log).length)
      ↔ first ≠ (0, []) := by
  constructor
  · intro ahead default
    subst default
    obtain ⟨actions, later, -, ran, more⟩ := ahead
    obtain ⟨calls, pushed⟩ := pushedCalls_later ran called
    have none := (unanswered_of_default positive (reached.runFrom ran) pushed).1
    simp [none] at more
  · intro other
    refine Machine.Leads.trans (leads_response positive reached called other) ?_
    exact fun later there => Machine.Leads.here there.2.2.1

/-- All the calls that were accepted so far can still be written, exactly if the first one was not
for period 0 and no sports, or was the only one.
-/
theorem calls_written_iff (positive : 0 < threads)
    (reached : (faultless Score threads sports).Reachable s)
    {first : Client.Call} {others : List Client.Call}
    (called : Client.pushedCalls s.client.log = first :: others)
    : Ahead threads sports s (fun later => later.client.calls = [])
      ↔ first ≠ (0, []) ∨ others = [] := by
  constructor
  · intro ahead
    by_contra neither
    obtain ⟨default, queued⟩ := not_or.mp neither
    obtain ⟨actions, later, -, ran, empty⟩ := ahead
    obtain ⟨calls, pushed⟩ := pushedCalls_later ran called
    obtain rfl := not_not.mp default
    have there := reached.runFrom ran
    have few := (unanswered_of_default positive there pushed).2
    have streams := (Client.MessageStreams.invariant
      (client_reachable (reachable_of_faultless there))).requests
    have lengths := congrArg List.length streams
    have more := List.length_pos_iff.mpr queued
    simp only [empty, pushed, List.append_nil, List.length_map, List.length_cons,
      List.length_append] at lengths
    omega
  · intro either
    rcases either with other | only
    · -- Every response takes the next call off the queue.
      induction measure : s.client.calls.length using Nat.strong_induction_on generalizing s with
      | _ _ ih =>
          refine Machine.Leads.trans (leads_response positive reached called other) ?_
          intro later there
          obtain ⟨here, pushed, -, fewer | empty⟩ := there
          · exact ih _ (measure ▸ fewer) here (pushed.trans called) rfl
          · exact Machine.Leads.here empty
    · subst only
      refine Machine.Leads.trans (leads_rests positive reached (by simp [called])) ?_
      intro later there
      obtain ⟨here, follows, rests⟩ := there
      have client := client_reachable (reachable_of_faultless here)
      have written := (Client.lockstep_of_reachable client).opened (by simp [rests.inFlight])
      have streams := (Client.MessageStreams.invariant client).requests
      rw [follows.pushed, called] at streams
      have lengths := congrArg List.length streams
      have some := List.length_pos_iff.mpr written
      simp only [List.length_append, List.length_map, List.length_singleton] at lengths
      exact Machine.Leads.here (List.eq_nil_of_length_eq_zero (by omega))

end Service

/-- Two calls from two threads, the second one for period 0 and no sports. -/
def twoCalls : List (Action Rat) :=
  [.client (.push 0 (5, ["football"])), .client (.push 1 (0, [])), .client (.exchange 1),
    .server (.writer .outer)]

/-- The same calls in the other order. -/
def twoCallsSwapped : List (Action Rat) :=
  [.client (.push 1 (0, [])), .client (.push 0 (5, ["football"])), .client (.exchange 1),
    .server (.writer .outer)]

theorem response_ahead_twoCalls
    : ∃ s,
        (faultless Rat 1 ["football"]).run twoCalls = some s
        ∧ Ahead 1 ["football"] s (fun later =>
            (Client.handedLines s.client.log).length
              < (Client.handedLines later.client.log).length) := by
  obtain ⟨s, ran, called⟩
      : ∃ s,
          (faultless Rat 1 ["football"]).run twoCalls = some s
          ∧ Client.pushedCalls s.client.log = [(5, ["football"]), (0, [])] :=
    ⟨_, rfl, rfl⟩
  exact ⟨s, ran, (response_ahead_iff Nat.one_pos ⟨_, ran⟩ called).mpr (by simp)⟩

theorem calls_written_twoCalls
    : (∃ s,
        (faultless Rat 1 ["football"]).run twoCalls = some s
        ∧ s.client.calls = [(5, ["football"]), (0, [])]
        ∧ Ahead 1 ["football"] s (fun later => later.client.calls = []))
      ∧ ∃ s,
          (faultless Rat 1 ["football"]).run twoCallsSwapped = some s
          ∧ ¬ Ahead 1 ["football"] s (fun later => later.client.calls = []) := by
  refine ⟨?_, ?_⟩
  · obtain ⟨s, ran, calls, called⟩
        : ∃ s,
            (faultless Rat 1 ["football"]).run twoCalls = some s
            ∧ s.client.calls = [(5, ["football"]), (0, [])]
            ∧ Client.pushedCalls s.client.log = [(5, ["football"]), (0, [])] :=
      ⟨_, rfl, rfl, rfl⟩
    exact ⟨s, ran, calls, (calls_written_iff Nat.one_pos ⟨_, ran⟩ called).mpr (by simp)⟩
  · obtain ⟨s, ran, called⟩
        : ∃ s,
            (faultless Rat 1 ["football"]).run twoCallsSwapped = some s
            ∧ Client.pushedCalls s.client.log = [(0, []), (5, ["football"])] :=
      ⟨_, rfl, rfl⟩
    refine ⟨s, ran, fun ahead => ?_⟩
    simpa using (calls_written_iff Nat.one_pos ⟨_, ran⟩ called).mp ahead

end RVision.Session
