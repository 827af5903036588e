import RVision.Rpc.Server.HandOver
import RVision.Session.Faultless

/-! Whether a queued call always gets on. The client writes its next request only after a
response, and the server responds only after a request that it takes for a change; its
remembered request is at first the default message.
-/

namespace RVision.Session

open Transition
open RVision.Rpc
open RVision.Lines.Provider

variable {Score : Type}

/-- A step of the parties or of their channels: neither another `call` nor a poll. -/
def Action.advances : Action Score → Bool
  | .client (.push _ _) | .update _ _ => false
  | _ => true

/-- A server that has accepted nothing has written nothing. -/
theorem writtenResponses_of_accepted_nil {server : Server.State Score}
    (produced : Server.Produced server) (handOver : Server.HandOver server)
    (none : Server.acceptedMessages server.log = [])
    : Server.writtenResponses server.log = [] := by
  have uncalled : Server.invocations server.log = [] := by
    apply List.eq_nil_iff_forall_not_mem.mpr
    intro invocation member
    obtain ⟨event, found, same⟩ := List.mem_filterMap.mp member
    cases event with
    | invoked called =>
        obtain ⟨before, after, split⟩ := List.append_of_mem found
        obtain ⟨message, accepted, _⟩ := handOver.invoked before _ after split
        have listed : message ∈ Server.acceptedMessages server.log := by
          refine List.mem_filterMap.mpr ⟨.accepted message, ?_, rfl⟩
          rw [split]
          exact List.mem_append_left _ accepted
        simp [none] at listed
    | delivered _ | accepted _ | started _ => cases same
  have responses := produced.responses
  rw [uncalled, List.map_nil, eq_comm, List.append_eq_nil_iff] at responses
  exact responses.1

section Advance

variable (Score) [DecidableEq Score] [Zero Score] [Sub Score]

/-- In every state that `calls` can lead to, as long as one of them is queued, some step
other than another `call` is enabled.
-/
def AlwaysAdvances (threads : Nat) (sports : List String) (calls : List Client.Call)
    : Prop :=
  ∀ s,
    (faultless Score threads sports).Reachable s
    → Client.pushedCalls s.client.log = calls
    → s.client.calls ≠ []
    → ∃ action,
        action.advances = true ∧ (faultless Score threads sports).Enabled s action

variable {Score} {threads : Nat} {sports : List String} {s : State Score}

-----------------------------------------------------------------------------------------
-- What is enabled
-----------------------------------------------------------------------------------------

theorem enabled_client (act : Client.Action Score) (clean : clientFaultless act = true)
    (may : ClientMay s act) (can : (Client.step s.client act).isSome)
    : (faultless Score threads sports).Enabled s (.client act) := by
  obtain ⟨client, moved⟩ := Option.isSome_iff_exists.mp can
  refine ⟨{ s with client }, ?_⟩
  simp [faultless, Machine.guard, machine, step, Faultless, clean, may, moved]

theorem enabled_server (act : Server.Action Score)
    (clean : serverFaultless s.server act = true) (may : ServerMay s act)
    (can : (Server.step s.server act).isSome)
    : (faultless Score threads sports).Enabled s (.server act) := by
  obtain ⟨server, moved⟩ := Option.isSome_iff_exists.mp can
  refine ⟨{ s with server, fetch := fetchAfter s act }, ?_⟩
  simp [faultless, Machine.guard, machine, step, Faultless, clean, may, moved]

variable (threads sports)

/-- Only another `call` or a poll can happen. -/
def Stuck (s : State Score) : Prop :=
  ∀ action, action.advances = true → ¬ (faultless Score threads sports).Enabled s action

variable {threads sports}

/-- A queued client that is stuck is waiting for a response that is not there. -/
theorem Stuck.client (stuck : Stuck threads sports s) (clean : ClientClean s.client)
    (reached : (Client.machine Score).Reachable s.client) (queued : s.client.calls ≠ [])
    : .read ∈ s.client.inFlight
      ∧ .issued .startCall ∈ s.client.log
      ∧ s.nextResponse = none := by
  have waiting : s.client.processor = .waiting := by
    cases pc : s.client.processor with
    | waiting => rfl
    | looping =>
        exact absurd (enabled_client .loop rfl trivial (by simp [Client.step, pc]))
          (stuck _ rfl)
    | entering =>
        exact absurd (enabled_client .enter rfl trivial (by simp [Client.step, pc]))
          (stuck _ rfl)
    | exited => exact absurd pc clean.present
  have deliver (completion : Client.Completion Score)
      (succeeds : clientFaultless (.deliver completion) = true)
      (flight : completion.tag ∈ s.client.inFlight)
      : ¬ ClientMay s (.deliver completion) := by
    intro may
    exact stuck _ rfl (enabled_client (.deliver completion) succeeds may
      (by simp [Client.step, waiting, flight]))
  have alive := Client.alive_of_not_shutdown reached clean.running
  obtain ⟨phase, h⟩ := Client.exists_inPhase reached (by simp [alive])
  have inFlight := h.inFlight
  cases phase with
  | unstarted =>
      obtain ⟨thread, pc⟩ := (h.racing rfl).mp queued
      exact absurd (enabled_client (.exchange thread) rfl trivial
        (by simp [Client.step, pc])) (stuck _ rfl)
  | starting thread =>
      have pc := (h.starter thread).mpr rfl
      exact absurd (enabled_client (.startCall thread) rfl trivial
        (by simp [Client.step, pc])) (stuck _ rfl)
  | connecting =>
      exact absurd trivial (deliver (.start true) rfl
        (by simp [inFlight, Client.Phase.inFlight, Client.Completion.tag]))
  | writing =>
      exact absurd trivial (deliver (.write true) rfl
        (by simp [inFlight, Client.Phase.inFlight, Client.Completion.tag]))
  | reading =>
      have flight : .read ∈ s.client.inFlight := by simp [inFlight, Client.Phase.inFlight]
      refine ⟨flight, ?_, ?_⟩
      · obtain ⟨rest, operations, _⟩ := h.operations
        exact Client.mem_operations_iff.mp (by simp [operations])
      · cases response : s.nextResponse with
        | none => rfl
        | some message =>
            exact absurd response (deliver (.read (some message)) rfl flight)
  | finishing | finished =>
      obtain ⟨rest, operations, _⟩ := h.operations
      exact absurd (Client.mem_operations_iff.mp (by simp [operations])) clean.unfinished

/-- The workers of a stuck server all wait for a completion. -/
theorem Stuck.workers (stuck : Stuck threads sports s) (clean : ServerClean threads s.server)
    {thread : Nat} (inside : thread < threads)
    : s.server.workers thread = .waiting := by
  have never (action : Server.WorkerAction)
      (faultless : serverFaultless s.server (.worker thread action) = true)
      (may : ServerMay s (.worker thread action))
      (can : (Server.step s.server (.worker thread action)).isSome)
      : False :=
    stuck _ rfl (enabled_server (.worker thread action) faultless may can)
  have busy := clean.workers thread inside
  cases pc : s.server.workers thread with
  | waiting => rfl
  | posting =>
      exact (never .post rfl trivial (by simp [Server.step, Server.workerStep, pc])).elim
  | looping =>
      exact (never .loop rfl trivial (by simp [Server.step, Server.workerStep, pc])).elim
  | checking =>
      exact (never .checkRequest rfl trivial
        (by simp [Server.step, Server.workerStep, pc])).elim
  | storing =>
      exact (never .storeChanged rfl trivial
        (by simp [Server.step, Server.workerStep, pc])).elim
  | notifying =>
      exact (never .notifyOne rfl trivial
        (by simp [Server.step, Server.workerStep, pc])).elim
  | reading =>
      exact (never .read rfl trivial (by simp [Server.step, Server.workerStep, pc])).elim
  | absent | finishing | exited => simp [pc, WorkerBusy] at busy

/-- A stuck server that is called has read every request. -/
theorem Stuck.requests (stuck : Stuck threads sports s) (clean : ServerClean threads s.server)
    (known : Server.ThreadsKnown threads s.server) (positive : 0 < threads)
    (called : .issued .startCall ∈ s.client.log)
    : s.nextRequest = none := by
  have waiting {thread : Nat} (inside : thread < threads) := stuck.workers clean inside
  have deliver (completion : Server.Completion)
      (succeeds : serverFaultless s.server (.worker 0 (.deliver completion)) = true)
      (tag : completion.tag ∈ s.server.outstanding)
      : ¬ ServerMay s (.worker 0 (.deliver completion)) := by
    intro may
    refine stuck _ rfl (enabled_server (.worker 0 (.deliver completion)) succeeds may ?_)
    simp [Server.step, Server.workerStep, waiting positive, tag]
  have connected : .delivered (.connect true) ∈ s.server.log := by
    by_contra none
    rcases clean.unconnected none with tag | ⟨thread, inside, posting⟩
    · exact deliver (.connect true) rfl tag ⟨called, none⟩
    · rw [waiting inside] at posting
      cases posting
  have outstanding : .read ∈ s.server.outstanding := by
    rcases clean.connected connected with tag | ⟨thread, will⟩
    · exact tag
    · have present : s.server.workers thread ≠ .absent := by
        intro absent
        simp [absent, Server.WorkerPc.willRead] at will
      have inside := known.inside thread present
      simp [waiting inside, Server.WorkerPc.willRead] at will
  cases request : s.nextRequest with
  | none => rfl
  | some message => exact absurd request (deliver (.read (some message)) rfl outstanding)

/-- The writer of a stuck server waits for its first flag. -/
theorem Stuck.writer (stuck : Stuck threads sports s) (clean : ServerClean threads s.server)
    : s.server.writer = .testing ∧ s.server.subscription.changed = false := by
  have never (action : Server.WriterAction Score)
      (faultless : serverFaultless s.server (.writer action) = true)
      (may : ServerMay s (.writer action))
      (can : (Server.step s.server (.writer action)).isSome)
      : False :=
    stuck _ rfl (enabled_server (.writer action) faultless may can)
  have awake := clean.writer
  cases pc : s.server.writer with
  | testing =>
      refine ⟨rfl, ?_⟩
      by_contra changed
      refine never .test ?_ trivial (by simp [Server.step, Server.writerStep, pc])
      simpa [serverFaultless] using Or.inr changed
  | outer =>
      exact (never .outer rfl trivial (by simp [Server.step, Server.writerStep, pc])).elim
  | inner =>
      exact (never .inner rfl trivial (by simp [Server.step, Server.writerStep, pc])).elim
  | exchanging =>
      exact (never .exchange rfl trivial
        (by simp [Server.step, Server.writerStep, pc])).elim
  | copying =>
      exact (never .copy rfl trivial (by simp [Server.step, Server.writerStep, pc])).elim
  | writing =>
      exact (never .write rfl trivial (by simp [Server.step, Server.writerStep, pc])).elim
  | calling changed =>
      -- The call of `fetch_delta` begins, goes on, or returns.
      cases running : s.fetch with
      | none =>
          refine absurd (Option.isSome_iff_exists.mp ?_) (stuck .fetch rfl)
          simp [faultless, Machine.guard, machine, step, Faultless, pc, running]
      | some call =>
          cases rest : call.rest with
          | nil =>
              obtain ⟨entries, listed⟩ := Quot.exists_rep call.deltas.entries
              refine (never (.callback (entries.map (fun entry => (entry.1, entry.2)))) rfl
                ⟨call, running, rest, ?_⟩
                (by simp [Server.step, Server.writerStep, pc])).elim
              rw [Enumerates, ← listed, List.map_map]
              simp [Function.comp_def]
          | cons line lines =>
              refine absurd (Option.isSome_iff_exists.mp ?_) (stuck .line rfl)
              simp [faultless, Machine.guard, machine, step, Faultless, running,
                FetchCall.advance, rest]
  | absent | parking | parked | exited => simp [pc, WriterAwake] at awake

/-- A queued session is stuck only where its first call asked for the default message.
Witness: the writer has never been told of a change, so nothing was accepted and nothing
written back; the client has then written one request, which is no change of the default.
-/
theorem Stuck.calls (stuck : Stuck threads sports s) (positive : 0 < threads)
    (reached : (faultless Score threads sports).Reachable s) (queued : s.client.calls ≠ [])
    : ∃ second rest, Client.pushedCalls s.client.log = (0, []) :: second :: rest := by
  obtain ⟨clientClean, serverClean⟩ := clean_of_reachable positive reached
  have whole := reachable_of_faultless reached
  have client := client_reachable whole
  have server := server_reachable whole
  have channels := channels_of_reachable whole
  have known := Server.threadsKnown_of_reachable server
  have handOver := Server.handOver_of_reachable server serverClean.running.1
  obtain ⟨flight, called, noResponse⟩ := stuck.client clientClean client queued
  obtain ⟨testing, unchanged⟩ := stuck.writer serverClean
  have elsewhere {pc : Server.WorkerPc} (not : pc ≠ .waiting) (present : pc ≠ .absent)
      (thread : Nat) : s.server.workers thread ≠ pc := by
    intro here
    subst here
    exact not (stuck.workers serverClean (known.inside thread present))
  -- The writer has never been told of a change, so nothing was accepted.
  have none : Server.acceptedMessages s.server.log = [] := by
    by_contra some
    have serving := (handOver.settled some (elsewhere (by simp) (by simp)) (by simp [testing])
      unchanged).1
    simp [testing, Server.WriterPc.Serving] at serving
  have silent := writtenResponses_of_accepted_nil (Server.produced_of_reachable server)
    handOver none
  -- Every request has been checked, and none of them was a change.
  have delivered : Server.deliveredRequests s.server.log
      = Client.writtenRequests s.client.log := by
    have all := stuck.requests serverClean known positive called
    rw [State.nextRequest, List.getElem?_eq_none_iff] at all
    exact channels.requests.eq_of_length_le all
  obtain ⟨checked, order⟩ := Server.exists_inOrder server channels.connection
  have same : Server.deliveredRequests s.server.log = checked := by
    rcases order.delivered with ⟨_, all⟩ | ⟨⟨thread, checking⟩, _⟩
    · exact all
    · exact absurd checking (elsewhere (by simp) (by simp) thread)
  have unremarkable := Server.effective_eq_nil_iff.mp (order.accepted.symm.trans none)
  rw [← same, delivered] at unremarkable
  -- The client has written exactly one request.
  have received : Client.receivedResponses s.client.log = [] := by
    have before := channels.responses
    rwa [silent, List.prefix_nil] at before
  have few := Client.written_le_received_succ client clientClean.running
  have some := (Client.lockstep_of_reachable client).opened (Or.inr flight)
  obtain ⟨request, written⟩ : ∃ request,
      Client.writtenRequests s.client.log = [request] := by
    apply List.length_eq_one_iff.mp
    have positive := List.length_pos_iff.mpr some
    rw [received] at few
    simp at few
    omega
  obtain ⟨second, rest, queue⟩ := List.exists_cons_of_ne_nil queued
  refine ⟨second, rest, ?_⟩
  have streams := (Client.MessageStreams.invariant client).requests
  have default := unremarkable request (by simp [written])
  simp only [Server.Subscription.Differs, not_or, not_not] at default
  rw [← streams, written, queue]
  simp [← default.1, List.eq_nil_of_length_eq_zero default.2.symm]

end Advance

end RVision.Session
