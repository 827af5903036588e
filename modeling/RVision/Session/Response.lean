import RVision.Session.Progress
import RVision.Transition.Futures

/-! The server of a faultless session can always go on to write another response, once the
client has asked for something that is not the default message: what stands between a request
in the channel and the response to it is a chain of steps that nobody else can take away.
-/

namespace RVision.Session

open Transition
open RVision.Rpc
open RVision.Lines.Provider

variable {Score : Type}

/-- The client has called, and its first request is a change for a new server. -/
structure Asked (client : Client.State Score) : Prop where
  called : .issued .startCall ∈ client.log
  first
    : ∃ first rest,
        Client.writtenRequests client.log = first :: rest
        ∧ Server.Subscription.Differs {} first

/-- Every map can be gone through in some order. -/
theorem exists_enumerates (deltas : Deltas Score) : ∃ lines, Enumerates lines deltas := by
  obtain ⟨entries, listed⟩ := Quot.exists_rep deltas.entries
  refine ⟨entries.map (fun entry => (entry.1, entry.2)), ?_⟩
  rw [Enumerates, ← listed, List.map_map]
  simp [Function.comp_def]

section OnWay

variable [DecidableEq Score] [Zero Score] [Sub Score]

/-- Steps of the parties and of their channels, with no other `call` and no poll, can lead to
the goal.
-/
def Ahead (threads : Nat) (sports : List String) (s : State Score) (goal : State Score → Prop)
    : Prop :=
  (faultless Score threads sports).Leads (fun action => action.advances = true) s goal

/-- The session goes on behind the back of `client`, which is left alone, and the server has
written at least so many responses.
-/
structure OnWay (threads : Nat) (sports : List String) (client : Client.State Score)
    (written : Nat) (s : State Score)
    : Prop where
  reached : (faultless Score threads sports).Reachable s
  client : s.client = client
  written : written ≤ (Server.writtenResponses s.server.log).length

variable {threads : Nat} {sports : List String} {client : Client.State Score} {written : Nat}
  {s : State Score} {goal : State Score → Prop}

theorem OnWay.clean (h : OnWay threads sports client written s) (positive : 0 < threads)
    : ServerClean threads s.server :=
  (clean_of_reachable positive h.reached).2

/-- A step of the server is a step on the way. -/
theorem OnWay.server (h : OnWay threads sports client written s) (act : Server.Action Score)
    {server : Server.State Score} (clean : serverFaultless s.server act = true)
    (may : ServerMay s act) (moved : Server.step s.server act = some server)
    (later : OnWay threads sports client written { s with server, fetch := fetchAfter s act }
      → Ahead threads sports { s with server, fetch := fetchAfter s act } goal)
    : Ahead threads sports s goal := by
  have taken
      : (faultless Score threads sports).step s (.server act)
        = some { s with server, fetch := fetchAfter s act } := by
    simp [faultless, Machine.guard, machine, step, Faultless, clean, may, moved]
  refine Machine.Leads.next rfl taken
    (later ⟨h.reached.step taken, h.client, h.written.trans ?_⟩)
  exact ((Server.Step.of_step moved).log_grows.filterMap _).length_le

/-- So is a step of the call of `fetch_delta`. -/
theorem OnWay.fetched (h : OnWay threads sports client written s) {action : Action Score}
    {cache : LinesCache Score} {fetch : Option (FetchCall Score)}
    (free : action = .fetch ∨ action = .line)
    (moved : step s action = some { s with cache, fetch })
    (later : OnWay threads sports client written { s with cache, fetch }
      → Ahead threads sports { s with cache, fetch } goal)
    : Ahead threads sports s goal := by
  have taken : (faultless Score threads sports).step s action = some { s with cache, fetch } := by
    rcases free with rfl | rfl <;> exact moved
  refine Machine.Leads.next ?_ taken (later ⟨h.reached.step taken, h.client, h.written⟩)
  rcases free with rfl | rfl <;> rfl

-----------------------------------------------------------------------------------------
-- The writer's round
-----------------------------------------------------------------------------------------

/-- The writer writes what it has built. -/
theorem OnWay.writing (h : OnWay threads sports client written s)
    (pc : s.server.writer = .writing)
    : Ahead threads sports s (OnWay threads sports client (written + 1)) := by
  refine h.server (.writer .write) rfl trivial (if_pos pc) (fun after => Machine.Leads.here ?_)
  refine ⟨after.reached, after.client, ?_⟩
  have one : Server.writtenResponses s.server.write.log
      = Server.writtenResponses s.server.log ++ [s.server.response] := by
    simp [Server.State.write, Server.State.issue, Server.writtenResponses]
  rw [one, List.length_append]
  exact Nat.succ_le_succ h.written

/-- The call of `fetch_delta` goes through its lines and returns, by induction on them. -/
theorem OnWay.fetching (h : OnWay threads sports client written s) {changed : Bool}
    (pc : s.server.writer = .calling changed) {call : FetchCall Score}
    (running : s.fetch = some call)
    : Ahead threads sports s (OnWay threads sports client (written + 1)) := by
  induction ahead : call.rest generalizing s call with
  | nil =>
      obtain ⟨lines, enumerates⟩ := exists_enumerates call.deltas
      have moved
          : Server.step s.server (.writer (.callback lines))
            = some (s.server.callback changed lines) := by
        simp [Server.step, Server.writerStep, pc]
      exact h.server (.writer (.callback lines)) rfl ⟨call, running, ahead, enumerates⟩ moved
        (fun after => after.writing rfl)
  | cons line rest ih =>
      have moved
          : ∃ next cache,
              step s .line = some { s with cache, fetch := some next } ∧ next.rest = rest := by
        simp [step, running, FetchCall.advance, ahead]
      obtain ⟨next, cache, moved, less⟩ := moved
      exact h.fetched (Or.inr rfl) moved (fun after => ih after pc rfl less)

theorem OnWay.calling (h : OnWay threads sports client written s) {changed : Bool}
    (pc : s.server.writer = .calling changed)
    : Ahead threads sports s (OnWay threads sports client (written + 1)) := by
  cases running : s.fetch with
  | some call => exact h.fetching pc running
  | none =>
      have moved
          : step s .fetch
            = some { s with fetch := some { changed, rest := s.server.sports } } := by
        simp [step, pc, running]
      exact h.fetched (Or.inl rfl) moved (fun after => after.fetching pc rfl)

theorem OnWay.copying (h : OnWay threads sports client written s)
    (pc : s.server.writer = .copying)
    : Ahead threads sports s (OnWay threads sports client (written + 1)) :=
  h.server (.writer .copy) rfl trivial (if_pos pc) (fun after => after.calling rfl)

theorem OnWay.exchanging (h : OnWay threads sports client written s)
    (pc : s.server.writer = .exchanging)
    : Ahead threads sports s (OnWay threads sports client (written + 1)) := by
  refine h.server (.writer .exchange) rfl trivial (if_pos pc) (fun after => ?_)
  cases changed : s.server.subscription.changed with
  | false =>
      have missed : s.server.exchange.writer = .calling false := by
        simp [Server.State.exchange, Server.Subscription.exchange, changed]
      exact after.calling missed
  | true =>
      have taken : s.server.exchange.writer = .copying := by
        simp [Server.State.exchange, Server.Subscription.exchange, changed]
      exact after.copying taken

theorem OnWay.inner (h : OnWay threads sports client written s) (positive : 0 < threads)
    (pc : s.server.writer = .inner)
    : Ahead threads sports s (OnWay threads sports client (written + 1)) := by
  refine h.server (.writer .inner) rfl trivial (if_pos pc) (fun after => after.exchanging ?_)
  simp [(h.clean positive).running.1]

-----------------------------------------------------------------------------------------
-- From the request to the flag
-----------------------------------------------------------------------------------------

/-- The flag lets the writer out of its wait. -/
theorem OnWay.flagged (h : OnWay threads sports client written s) (positive : 0 < threads)
    (pc : s.server.writer = .testing) (changed : s.server.subscription.changed = true)
    : Ahead threads sports s (OnWay threads sports client (written + 1)) := by
  refine h.server (.writer .test) ?_ trivial (if_pos pc) (fun after => after.inner positive ?_)
  · simp [serverFaultless, changed]
  · simp [Server.State.test, changed]

theorem OnWay.storing (h : OnWay threads sports client written s) (positive : 0 < threads)
    (pc : s.server.writer = .testing) {thread : Nat}
    (storing : s.server.workers thread = .storing)
    : Ahead threads sports s (OnWay threads sports client (written + 1)) :=
  h.server (.worker thread .storeChanged) rfl trivial (if_pos storing)
    (fun after => after.flagged positive pc rfl)

/-- A writer in its first wait, a flag that is not set and nobody about to set it: nothing was
accepted.
-/
theorem OnWay.unaccepted (h : OnWay threads sports client written s) (positive : 0 < threads)
    (pc : s.server.writer = .testing) (unchanged : s.server.subscription.changed = false)
    (nobody : ∀ thread, s.server.workers thread ≠ .storing)
    : Server.acceptedMessages s.server.log = [] := by
  have server := server_reachable (reachable_of_faultless h.reached)
  have handOver := Server.handOver_of_reachable server (h.clean positive).running.1
  by_contra some
  have serving := (handOver.settled some nobody (by simp [pc]) unchanged).1
  simp [pc, Server.WriterPc.Serving] at serving

/-- As long as nothing was accepted, no request was checked: the first one will be accepted. -/
theorem OnWay.unchecked (h : OnWay threads sports client written s) (asked : Asked client)
    (none : Server.acceptedMessages s.server.log = [])
    : (∀ thread, s.server.workers thread = .checking
        → Server.Subscription.Differs s.server.subscription.lastReq
            s.server.subscription.request)
      ∧ ((∀ thread, s.server.workers thread ≠ .checking)
        → ∃ message, s.nextRequest = some message) := by
  have whole := reachable_of_faultless h.reached
  have channels := channels_of_reachable whole
  obtain ⟨first, rest, requests, differs⟩ := asked.first
  obtain ⟨checked, order⟩ := Server.exists_inOrder (server_reachable whole) channels.connection
  have unremarkable := Server.effective_eq_nil_iff.mp (order.accepted.symm.trans none)
  have sent := channels.requests
  rw [h.client, requests] at sent
  have unread {tail : List SportsLinesRequest}
      (delivered : Server.deliveredRequests s.server.log = checked ++ tail)
      : checked = [] := by
    cases checked with
    | nil => rfl
    | cons message others =>
        rw [delivered, List.cons_append, List.cons_prefix_cons] at sent
        exact absurd (sent.1 ▸ differs) (unremarkable message (by simp))
  refine ⟨?_, ?_⟩
  · intro thread checking
    have delivered := order.delivered_of_checking checking
    obtain rfl := unread delivered
    rw [delivered, List.nil_append, List.cons_prefix_cons] at sent
    rw [order.remembered, sent.1]
    exact differs
  · intro nobody
    rcases order.delivered with ⟨-, all⟩ | ⟨⟨thread, checking⟩, -⟩
    · obtain rfl := unread (all.trans (List.append_nil checked).symm)
      refine ⟨first, ?_⟩
      rw [State.nextRequest, all, h.client, requests]
      rfl
    · exact absurd checking (nobody thread)

/-- The first request that is checked is accepted. -/
theorem OnWay.checking (h : OnWay threads sports client written s) (positive : 0 < threads)
    (asked : Asked client) (pc : s.server.writer = .testing)
    (none : Server.acceptedMessages s.server.log = []) {thread : Nat}
    (checking : s.server.workers thread = .checking)
    : Ahead threads sports s (OnWay threads sports client (written + 1)) := by
  have moved : Server.step s.server (.worker thread .checkRequest)
      = some (s.server.accept thread) := by
    have differs := (h.unchecked asked none).1 thread checking
    simp [Server.step, Server.workerStep, checking, Server.State.check_eq, differs]
  have storing : (s.server.accept thread).workers thread = .storing := by
    simp [Server.State.accept]
  exact h.server (.worker thread .checkRequest) rfl trivial moved
    (fun after => after.storing positive pc storing)

-----------------------------------------------------------------------------------------
-- From the connection to the request
-----------------------------------------------------------------------------------------

/-- The server has heard of no change: its writer is in its first wait, and no worker is about
to tell it.
-/
structure Unheard (threads : Nat) (sports : List String) (client : Client.State Score)
    (written : Nat) (s : State Score)
    : Prop where
  way : OnWay threads sports client written s
  testing : s.server.writer = .testing
  unchanged : s.server.subscription.changed = false
  storing : ∀ thread, s.server.workers thread ≠ .storing
  checking : ∀ thread, s.server.workers thread ≠ .checking

theorem Unheard.accepted (h : Unheard threads sports client written s) (positive : 0 < threads)
    : Server.acceptedMessages s.server.log = [] :=
  h.way.unaccepted positive h.testing h.unchanged h.storing

/-- A step of a worker that tells the writer nothing. -/
theorem Unheard.worker (h : Unheard threads sports client written s) (thread : Nat)
    (act : Server.WorkerAction) {server : Server.State Score} {pc : Server.WorkerPc}
    (clean : serverFaultless s.server (.worker thread act) = true)
    (may : ServerMay s (.worker thread act))
    (moved : Server.step s.server (.worker thread act) = some server)
    (same : server.writer = s.server.writer
      ∧ server.subscription.changed = s.server.subscription.changed)
    (workers : server.workers = Function.update s.server.workers thread pc)
    (quiet : pc ≠ .storing ∧ pc ≠ .checking)
    (later : Unheard threads sports client written { s with server }
      → Ahead threads sports { s with server } goal)
    : Ahead threads sports s goal := by
  refine h.way.server (.worker thread act) clean may moved (fun after => later ⟨after, ?_, ?_, ?_,
    ?_⟩)
  · exact same.1.trans h.testing
  · exact same.2.trans h.unchanged
  · intro worker
    rw [workers]
    exact forall_pc_update (· ≠ Server.WorkerPc.storing) h.storing quiet.1 worker
  · intro worker
    rw [workers]
    exact forall_pc_update (· ≠ Server.WorkerPc.checking) h.checking quiet.2 worker

/-- How far a worker that tells the writer nothing is from its next completion. -/
def stepsToNext : Server.WorkerPc → Nat
  | .looping => 1
  | .posting | .reading => 2
  | .notifying => 3
  | _ => 0

/-- The first worker comes back to its wait, and nothing that is outstanding gets lost. -/
theorem Unheard.waits (h : Unheard threads sports client written s) (positive : 0 < threads)
    {tag : Server.CallStatus} (outstanding : tag ∈ s.server.outstanding)
    (later : ∀ t,
      Unheard threads sports client written t
      → tag ∈ t.server.outstanding
      → t.server.workers 0 = .waiting
      → (.delivered (.connect true) ∈ t.server.log ↔ .delivered (.connect true) ∈ s.server.log)
      → Ahead threads sports t goal)
    : Ahead threads sports s goal := by
  induction measure : stepsToNext (s.server.workers 0) using Nat.strong_induction_on
    generalizing s with
  | _ _ ih =>
      have clean := h.way.clean positive
      have busy := clean.workers 0 positive
      have still : tag ∈ s.server.outstanding ++ [.connect] := List.mem_append_left _ outstanding
      have kept : tag ∈ s.server.outstanding ++ [.read] := List.mem_append_left _ outstanding
      cases pc : s.server.workers 0 with
      | waiting => exact later s h outstanding pc Iff.rfl
      | looping =>
          refine h.worker 0 .loop rfl trivial (if_pos pc) ⟨rfl, rfl⟩ rfl
            (by simp [clean.running.1]) (fun after => ?_)
          refine ih 0 ?_ after outstanding later ?_
          · simp [← measure, pc, stepsToNext]
          · simp [Server.State.setWorker, clean.running.1, stepsToNext]
      | posting =>
          refine h.worker 0 .post rfl trivial (if_pos pc) ⟨rfl, rfl⟩ rfl (by simp)
            (fun after => ?_)
          refine ih 1 ?_ after still later ?_
          · simp [← measure, pc, stepsToNext]
          · simp [Server.State.setWorker, stepsToNext]
      | reading =>
          refine h.worker 0 .read rfl trivial (if_pos pc) ⟨rfl, rfl⟩ rfl (by simp)
            (fun after => ?_)
          refine ih 1 ?_ after kept ?_ ?_
          · simp [← measure, pc, stepsToNext]
          · intro t unheard tagged waiting same
            refine later t unheard tagged waiting (same.trans ?_)
            simp [Server.State.read, Server.State.issue]
          · simp [Server.State.read, Server.State.issue, stepsToNext]
      | notifying =>
          have awake : s.server.wake = s.server.writer := by
            simp [Server.State.wake, h.testing]
          refine h.worker 0 .notifyOne rfl trivial (if_pos pc) ⟨awake, rfl⟩ rfl (by simp)
            (fun after => ?_)
          refine ih 2 ?_ after outstanding later ?_
          · simp [← measure, pc, stepsToNext]
          · simp [Server.State.notifyOne, stepsToNext]
      | checking => exact absurd pc (h.checking 0)
      | storing => exact absurd pc (h.storing 0)
      | absent | finishing | exited => simp [pc, WorkerBusy] at busy

/-- A read that is outstanding brings the first request. -/
theorem Unheard.outstanding (h : Unheard threads sports client written s)
    (positive : 0 < threads) (asked : Asked client) (read : .read ∈ s.server.outstanding)
    : Ahead threads sports s (OnWay threads sports client (written + 1)) := by
  refine h.waits positive read (fun t unheard tag waiting _ => ?_)
  have unaccepted := unheard.accepted positive
  obtain ⟨message, ahead⟩ := (unheard.way.unchecked asked unaccepted).2 unheard.checking
  refine unheard.way.server (.worker 0 (.deliver (.read (some message)))) rfl ahead
    (if_pos ⟨waiting, tag⟩) (fun after => ?_)
  have checking
      : (t.server.deliver 0 (.read (some message))).workers 0 = .checking := by
    simp [Server.State.deliver, Server.State.dispatch]
  refine after.checking positive asked unheard.testing ?_ checking
  simpa [Server.State.deliver, Server.acceptedMessages] using unaccepted

theorem Unheard.reading (h : Unheard threads sports client written s) (positive : 0 < threads)
    (asked : Asked client) {thread : Nat} (pc : s.server.workers thread = .reading)
    : Ahead threads sports s (OnWay threads sports client (written + 1)) := by
  refine h.worker thread .read rfl trivial (if_pos pc) ⟨rfl, rfl⟩ rfl (by simp) (fun after => ?_)
  exact after.outstanding positive asked
    (by simp [Server.State.read, Server.State.issue, Server.Operation.tag])

theorem Unheard.notifying (h : Unheard threads sports client written s) (positive : 0 < threads)
    (asked : Asked client) {thread : Nat} (pc : s.server.workers thread = .notifying)
    : Ahead threads sports s (OnWay threads sports client (written + 1)) := by
  have awake : s.server.wake = s.server.writer := by simp [Server.State.wake, h.testing]
  have reading : (s.server.notifyOne thread).workers thread = .reading := by
    simp [Server.State.notifyOne]
  exact h.worker thread .notifyOne rfl trivial (if_pos pc) ⟨awake, rfl⟩ rfl (by simp)
    (fun after => after.reading positive asked reading)

/-- A request for a connection that is outstanding is met by the call of the client. -/
theorem Unheard.connecting (h : Unheard threads sports client written s) (positive : 0 < threads)
    (asked : Asked client) (unconnected : .delivered (.connect true) ∉ s.server.log)
    (connect : .connect ∈ s.server.outstanding)
    : Ahead threads sports s (OnWay threads sports client (written + 1)) := by
  refine h.waits positive connect (fun t unheard tag waiting same => ?_)
  have called : .issued .startCall ∈ t.client.log := unheard.way.client ▸ asked.called
  have reading : (t.server.deliver 0 (.connect true)).workers 0 = .reading := by
    simp [Server.State.deliver, Server.State.dispatch]
  refine unheard.worker 0 (.deliver (.connect true)) rfl ⟨called, fun known => ?_⟩
    (if_pos ⟨waiting, tag⟩) ⟨rfl, rfl⟩ rfl (by simp [Server.State.dispatch])
    (fun after => after.reading positive asked reading)
  exact unconnected (same.mp known)

/-- Connected or not, a server that has heard of no change will. -/
theorem Unheard.hears (h : Unheard threads sports client written s) (positive : 0 < threads)
    (asked : Asked client)
    : Ahead threads sports s (OnWay threads sports client (written + 1)) := by
  have clean := h.way.clean positive
  by_cases connected : .delivered (.connect true) ∈ s.server.log
  · rcases clean.connected connected with read | ⟨thread, will⟩
    · exact h.outstanding positive asked read
    · cases pc : s.server.workers thread with
      | checking => exact absurd pc (h.checking thread)
      | storing => exact absurd pc (h.storing thread)
      | notifying => exact h.notifying positive asked pc
      | reading => exact h.reading positive asked pc
      | _ => simp [pc, Server.WorkerPc.willRead] at will
  · rcases clean.unconnected connected with connect | ⟨thread, _, posting⟩
    · exact h.connecting positive asked connected connect
    · exact h.worker thread .post rfl trivial (if_pos posting) ⟨rfl, rfl⟩ rfl (by simp)
        (fun after => after.connecting positive asked connected (by simp))

-----------------------------------------------------------------------------------------
-- Another response
-----------------------------------------------------------------------------------------

theorem OnWay.testing (h : OnWay threads sports client written s) (positive : 0 < threads)
    (asked : Asked client) (pc : s.server.writer = .testing)
    : Ahead threads sports s (OnWay threads sports client (written + 1)) := by
  cases changed : s.server.subscription.changed with
  | true => exact h.flagged positive pc changed
  | false =>
      by_cases storing : ∃ thread, s.server.workers thread = .storing
      · obtain ⟨thread, storing⟩ := storing
        exact h.storing positive pc storing
      · have nobody (thread : Nat) : s.server.workers thread ≠ .storing :=
          fun here => storing ⟨thread, here⟩
        by_cases checking : ∃ thread, s.server.workers thread = .checking
        · obtain ⟨thread, checking⟩ := checking
          exact h.checking positive asked pc (h.unaccepted positive pc changed nobody) checking
        · have unheard : Unheard threads sports client written s :=
            ⟨h, pc, changed, nobody, fun thread here => checking ⟨thread, here⟩⟩
          exact unheard.hears positive asked

/-- Wherever the threads of the server are, it can write one more response, without any help
from the client.
-/
theorem OnWay.responds (h : OnWay threads sports client written s) (positive : 0 < threads)
    (asked : Asked client)
    : Ahead threads sports s (OnWay threads sports client (written + 1)) := by
  have clean := h.clean positive
  cases pc : s.server.writer with
  | outer =>
      refine h.server (.writer .outer) rfl trivial (if_pos pc)
        (fun after => after.testing positive asked ?_)
      simp [clean.running.1]
  | testing => exact h.testing positive asked pc
  | inner => exact h.inner positive pc
  | exchanging => exact h.exchanging pc
  | copying => exact h.copying pc
  | calling changed => exact h.calling pc
  | writing => exact h.writing pc
  | absent | parking | parked | exited =>
      have awake := clean.writer
      simp [pc, WriterAwake] at awake

end OnWay

end RVision.Session
