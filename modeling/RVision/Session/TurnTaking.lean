import RVision.Session.Observation
import RVision.Session.Provenance

/-! How a server with one worker comes to a given turn, behind the back of a client that is
left as it is: the worker hears the requests that are still needed, and the writer takes the
flag and copies the request when the turn says so.
-/

namespace RVision.Session

open Transition
open RVision.Rpc
open RVision.Lines.Provider

variable {Score : Type}

section Taking

variable [DecidableEq Score] [Zero Score] [Sub Score]

/-- The server has taken `turns` and stored so many flags; its worker will read on. -/
structure Taking (names : List String) (client : Client.State Score)
    (turns : List Server.Turn) (now : Server.Turn) (stored : Nat) (writer : Server.WriterPc)
    (pc : Server.WorkerPc) (s : State Score)
    : Prop where
  reached : (machine Score 1 names).Reachable s
  client : s.client = client
  running : s.server.shutdown = false
  fetch : s.fetch = none
  writer : s.server.writer = writer
  worker : s.server.workers 0 = pc
  reads : pc = .waiting → .read ∈ s.server.outstanding
  taken : Server.TakesTurns s.server turns now stored

variable {names : List String} {client : Client.State Score} {turns : List Server.Turn}
  {now : Server.Turn} {stored : Nat} {writer : Server.WriterPc} {pc : Server.WorkerPc}
  {s : State Score}

/-- A step of the server is a step of the session. -/
theorem reachable_server (reached : (machine Score 1 names).Reachable s)
    {act : Server.Action Score} {server : Server.State Score}
    (moved : Server.step s.server act = some server) (may : ServerMay s act)
    : (machine Score 1 names).Reachable { s with server, fetch := fetchAfter s act } := by
  have taken
      : (machine Score 1 names).step s (.server act)
        = some { s with server, fetch := fetchAfter s act } := by
    simp [machine, step, may, moved]
  exact reached.step taken

namespace Taking

theorem alone (h : Taking names client turns now stored writer pc s) {thread : Nat}
    (present : s.server.workers thread ≠ .absent)
    : thread = 0 := by
  have inside := (Server.threadsKnown_of_reachable (server_reachable h.reached)).inside thread
    present
  omega

/-- Unless the worker is storing a flag, each accepted request has its flag. -/
theorem accepted (h : Taking names client turns now stored writer pc s)
    (quiet : pc ≠ .storing)
    : (Server.acceptedMessages s.server.log).length = stored := by
  apply h.taken.quiet
  intro thread here
  obtain rfl := h.alone (show s.server.workers thread ≠ .absent by simp [here])
  exact quiet (h.worker.symm.trans here)

/-- A step of the worker after which the turns are told in the same way. -/
theorem move (h : Taking names client turns now stored writer pc s)
    {act : Server.WorkerAction} {server : Server.State Score} {flags : Nat}
    {next : Server.WorkerPc}
    (moved : Server.step s.server (.worker 0 act) = some server)
    (may : ServerMay s (.worker 0 act))
    (same : server.shutdown = s.server.shutdown ∧ server.writer = s.server.writer)
    (there : server.workers 0 = next)
    (reads : next = .waiting → .read ∈ server.outstanding)
    (taken : Server.TakesTurns server turns now flags)
    : Taking names client turns now flags writer next { s with server } where
  reached := reachable_server h.reached moved may
  client := h.client
  running := same.1.trans h.running
  fetch := h.fetch
  writer := same.2.trans h.writer
  worker := there
  reads := reads
  taken := taken

/-- The worker starts its next `Read` and comes back to its wait. -/
theorem read (h : Taking names client turns now stored writer .reading s)
    : Taking names client turns now stored writer .waiting
        { s with server := (s.server.read 0).setWorker 0 .waiting } := by
  have first : Server.step s.server (.worker 0 .read) = some (s.server.read 0) := by
    simp [Server.step, Server.workerStep, h.worker]
  have looping : (s.server.read 0).workers 0 = .looping := by
    simp [Server.State.read, Server.State.issue]
  have outstanding : .read ∈ (s.server.read 0).outstanding := by
    simp [Server.State.read, Server.State.issue, Server.Operation.tag]
  have early := h.move first trivial ⟨rfl, rfl⟩ looping (fun _ => outstanding)
    (h.taken.worker (.of_step first) (by simp) (by simp [h.worker]))
  have second : Server.step (s.server.read 0) (.worker 0 .loop)
      = some ((s.server.read 0).setWorker 0 .waiting) := by
    have running : (s.server.read 0).shutdown = false := h.running
    simp [Server.step, Server.workerStep, looping, running]
  exact early.move second trivial ⟨rfl, rfl⟩ (by simp [Server.State.setWorker])
    (fun _ => outstanding) (early.taken.worker (.of_step second) (by simp) (by simp [looping]))

/-- A call that is started can be connected. -/
theorem connect (h : Taking names client turns now stored writer .posting s)
    (called : .issued .startCall ∈ client.log)
    (unconnected : .delivered (.connect true) ∉ s.server.log)
    : ∃ t, Taking names client turns now stored writer .waiting t := by
  obtain ⟨posted, first, looping, same, tag, log⟩ : ∃ posted,
      Server.step s.server (.worker 0 .post) = some posted
      ∧ posted.workers 0 = .looping
      ∧ (posted.shutdown = s.server.shutdown ∧ posted.writer = s.server.writer)
      ∧ .connect ∈ posted.outstanding
      ∧ posted.log = s.server.log := by
    simp [Server.step, Server.workerStep, h.worker, Server.State.setWorker]
  have early := h.move first trivial same looping (by simp)
    (h.taken.worker (.of_step first) (by simp) (by simp [h.worker]))
  have running : posted.shutdown = false := early.running
  have second : Server.step posted (.worker 0 .loop) = some (posted.setWorker 0 .waiting) := by
    simp [Server.step, Server.workerStep, looping, running]
  have third : Server.step (posted.setWorker 0 .waiting) (.worker 0 (.deliver (.connect true)))
      = some ((posted.setWorker 0 .waiting).deliver 0 (.connect true)) :=
    if_pos ⟨by simp [Server.State.setWorker], tag⟩
  have taken := early.taken.worker (.of_step second) (by simp) (by simp [looping])
  have connected : Taking names client turns now stored writer .reading
      { s with server := (posted.setWorker 0 .waiting).deliver 0 (.connect true) } :=
    { reached :=
        reachable_server (reachable_server early.reached second trivial) third
          ⟨h.client ▸ called, log ▸ unconnected⟩
      client := h.client
      running := early.running
      fetch := h.fetch
      writer := early.writer
      worker := by simp [Server.State.deliver, Server.State.dispatch]
      reads := by simp
      taken := taken.worker (.of_step third) (by simp) (by simp [Server.State.setWorker]) }
  exact ⟨_, connected.read⟩

/-- The flag of the last accepted request is stored, and nobody is woken. -/
theorem store (h : Taking names client turns now stored writer .storing s)
    (awake : writer ≠ .parked)
    : ∃ t, Taking names client turns now (stored + 1) writer .waiting t := by
  have first : Server.step s.server (.worker 0 .storeChanged)
      = some (s.server.storeChanged 0) := by
    simp [Server.step, Server.workerStep, h.worker]
  have notifying : (s.server.storeChanged 0).workers 0 = .notifying := by
    simp [Server.State.storeChanged]
  have early := h.move first trivial ⟨rfl, rfl⟩ notifying (by simp)
    (h.taken.storeChanged h.worker
      (fun other here =>
        h.alone (show s.server.workers other ≠ .absent by simp [here])))
  have second : Server.step (s.server.storeChanged 0) (.worker 0 .notifyOne)
      = some ((s.server.storeChanged 0).notifyOne 0) := by
    simp [Server.step, Server.workerStep, notifying]
  have unwoken : (s.server.storeChanged 0).wake = s.server.writer := by
    rw [Server.State.wake, if_neg]
    · rfl
    · exact fun parked => awake (h.writer.symm.trans parked)
  have late : Taking names client turns now (stored + 1) writer .reading
      { s with server := (s.server.storeChanged 0).notifyOne 0 } :=
    early.move second trivial ⟨rfl, unwoken⟩ (by simp [Server.State.notifyOne]) (by simp)
      (early.taken.worker (.of_step second) (by simp) (by simp [notifying]))
  exact ⟨_, late.read⟩

/-- The worker checks the request that it has read: it accepts it or reads on. -/
theorem check (h : Taking names client turns now stored writer .checking s)
    : (∃ t, Taking names client turns now stored writer .storing t)
      ∨ ∃ t,
          Taking names client turns now stored writer .waiting t
          ∧ Server.deliveredRequests t.server.log = Server.deliveredRequests s.server.log := by
  have nobody (thread : Nat) : s.server.workers thread ≠ .storing := by
    intro here
    obtain rfl := h.alone (show s.server.workers thread ≠ .absent by simp [here])
    simp [h.worker] at here
  by_cases differs :
      Server.Subscription.Differs s.server.subscription.lastReq s.server.subscription.request
  · have moved : Server.step s.server (.worker 0 .checkRequest) = some (s.server.accept 0) := by
      simp [Server.step, Server.workerStep, h.worker, Server.State.check_eq, differs]
    exact Or.inl ⟨_, h.move moved trivial ⟨rfl, rfl⟩ (by simp [Server.State.accept])
      (by simp) (h.taken.accept 0 nobody)⟩
  · have moved : Server.step s.server (.worker 0 .checkRequest)
        = some (s.server.setWorker 0 .reading) := by
      simp [Server.step, Server.workerStep, h.worker, Server.State.check_eq, differs]
    have aside : Server.Aside s.server (s.server.setWorker 0 .reading) := by
      refine ((Server.Step.of_step moved).worker_aside (by simp)).resolve_right ?_
      rintro ⟨_, accepted⟩
      simp [Server.State.setWorker, Server.State.accept] at accepted
    have reading : Taking names client turns now stored writer .reading
        { s with server := s.server.setWorker 0 .reading } :=
      h.move moved trivial ⟨rfl, rfl⟩ (by simp [Server.State.setWorker]) (by simp)
        (h.taken.aside aside rfl)
    refine Or.inr ⟨_, reading.read, ?_⟩
    simp [Server.State.setWorker, Server.State.read, Server.State.issue,
      Server.deliveredRequests]

/-- A written change that is not accepted is still to be delivered. -/
theorem exists_nextRequest (h : Taking names client turns now stored writer .waiting s)
    (more : stored < (Server.effective (Client.writtenRequests client.log)).length)
    : ∃ message, s.nextRequest = some message := by
  have channels := channels_of_reachable h.reached
  have prior := channels.requests
  obtain ⟨checked, inOrder⟩ :=
    Server.exists_inOrder (server_reachable h.reached) channels.connection
  have heard : Server.deliveredRequests s.server.log = checked := by
    rcases inOrder.delivered with ⟨_, same⟩ | ⟨⟨thread, here⟩, _⟩
    · exact same
    · obtain rfl := h.alone (show s.server.workers thread ≠ .absent by simp [here])
      simp [h.worker] at here
  apply Option.ne_none_iff_exists'.mp
  intro all
  rw [State.nextRequest, List.getElem?_eq_none_iff] at all
  have counted := h.accepted (by simp)
  rw [inOrder.accepted, ← heard, prior.eq_of_length_le all, h.client] at counted
  omega

theorem deliver (h : Taking names client turns now stored writer .waiting s)
    {message : SportsLinesRequest} (next : s.nextRequest = some message)
    : Taking names client turns now stored writer .checking
        { s with server := s.server.deliver 0 (.read (some message)) } := by
  have outstanding := h.reads rfl
  have moved : Server.step s.server (.worker 0 (.deliver (.read (some message))))
      = some (s.server.deliver 0 (.read (some message))) :=
    if_pos ⟨h.worker, outstanding⟩
  exact h.move moved next ⟨rfl, rfl⟩ (by simp [Server.State.deliver, Server.State.dispatch])
    (by simp) (h.taken.worker (.of_step moved) (by simp) (by simp [h.worker]))

/-- As long as a written change is not accepted, the worker can hear requests until it accepts
one, by induction on those that are not delivered.
-/
theorem hear (h : Taking names client turns now stored writer .waiting s)
    (more : stored < (Server.effective (Client.writtenRequests client.log)).length)
    : ∃ t, Taking names client turns now stored writer .storing t := by
  induction left : (Client.writtenRequests client.log).length
      - (Server.deliveredRequests s.server.log).length using Nat.strong_induction_on
    generalizing s with
  | _ left ih =>
      obtain ⟨message, next⟩ := h.exists_nextRequest more
      have behind := (List.getElem?_eq_some_iff.mp next).1
      rw [h.client] at behind
      rcases (h.deliver next).check with accepted | ⟨t, waiting, delivered⟩
      · exact accepted
      · refine ih _ ?_ waiting rfl
        have one : Server.deliveredRequests t.server.log
            = Server.deliveredRequests s.server.log ++ [message] := by
          rw [delivered]
          simp [Server.State.deliver, Server.deliveredRequests]
        rw [one, List.length_append, List.length_singleton]
        omega

end Taking

/-- Where the server stands between two turns, in half steps: an even number says that so many
halves of requests have their flags, an odd one that another request was accepted.
-/
def StandsAt (names : List String) (client : Client.State Score) (turns : List Server.Turn)
    (now : Server.Turn) (writer : Server.WriterPc) (halves : Nat) (s : State Score)
    : Prop :=
  Taking names client turns now (halves / 2) writer
    (if halves % 2 = 0 then .waiting else .storing) s

/-- The server can come to hear what the client has written, half step by half step. -/
theorem StandsAt.advance {halves target : Nat}
    (h : StandsAt names client turns now writer halves s)
    (awake : writer ≠ .parked) (less : halves ≤ target)
    (written : (target + 1) / 2
      ≤ (Server.effective (Client.writtenRequests client.log)).length)
    : ∃ t, StandsAt names client turns now writer target t := by
  induction target, less using Nat.le_induction with
  | base => exact ⟨s, h⟩
  | succ target _ ih =>
      obtain ⟨t, there⟩ := ih (by omega)
      unfold StandsAt at there ⊢
      rcases Nat.mod_two_eq_zero_or_one target with even | odd
      · rw [if_pos even] at there
        rw [if_neg (by omega), show (target + 1) / 2 = target / 2 by omega]
        exact there.hear (by omega)
      · rw [if_neg (by omega)] at there
        rw [if_pos (by omega), show (target + 1) / 2 = target / 2 + 1 by omega]
        exact there.store awake

-----------------------------------------------------------------------------------------
-- The writer's part
-----------------------------------------------------------------------------------------

namespace Taking

theorem writes (h : Taking names client turns now stored writer pc s)
    {act : Server.WriterAction Score} {server : Server.State Score} {turns : List Server.Turn}
    {now : Server.Turn} {next : Server.WriterPc}
    (moved : Server.step s.server (.writer act) = some server) (may : ServerMay s (.writer act))
    (kept : fetchAfter s (.writer act) = s.fetch)
    (same : server.shutdown = s.server.shutdown
      ∧ server.workers = s.server.workers
      ∧ server.outstanding = s.server.outstanding)
    (there : server.writer = next)
    (taken : Server.TakesTurns server turns now stored)
    : Taking names client turns now stored next pc { s with server } where
  reached := by
    have moved := reachable_server h.reached moved may
    rwa [kept] at moved
  client := h.client
  running := same.1.trans h.running
  fetch := h.fetch
  writer := there
  worker := (congrFun same.2.1 0).trans h.worker
  reads := fun waiting => same.2.2 ▸ h.reads waiting
  taken := taken

theorem outer (h : Taking names client turns now stored .outer pc s)
    : ∃ t, Taking names client turns now stored .testing pc t := by
  have moved : Server.step s.server (.writer .outer)
      = some { s.server with writer := .testing } := by
    simp [Server.step, Server.writerStep, h.writer, h.running]
  refine ⟨_, h.writes moved trivial rfl ⟨rfl, rfl, rfl⟩ rfl ?_⟩
  refine h.taken.frame ⟨rfl, rfl⟩ Iff.rfl rfl (Or.inr ⟨?_, ?_⟩)
  · simp [h.writer, Server.WriterPc.Between]
  · simp [Server.WriterPc.Between]

/-- The flag lets the writer out of its wait. -/
theorem pass (h : Taking names client turns now stored .testing pc s)
    (more : now.stored < stored)
    : ∃ t, Taking names client turns now stored .inner pc t := by
  have changed := h.taken.flag.mpr more
  have moved : Server.step s.server (.writer .test)
      = some { s.server with writer := .inner, sports := [], period := 0 } := by
    simp [Server.step, Server.writerStep, h.writer, Server.State.test, changed]
  refine ⟨_, h.writes moved trivial rfl ⟨rfl, rfl, rfl⟩ rfl ?_⟩
  refine h.taken.frame ⟨rfl, rfl⟩ Iff.rfl rfl (Or.inr ⟨?_, ?_⟩)
  · simp [h.writer, Server.WriterPc.Between]
  · simp [Server.WriterPc.Between]

theorem enter (h : Taking names client turns now stored .inner pc s)
    : ∃ t, Taking names client turns now stored .exchanging pc t := by
  have moved : Server.step s.server (.writer .inner)
      = some { s.server with writer := .exchanging } := by
    simp [Server.step, Server.writerStep, h.writer, h.running]
  refine ⟨_, h.writes moved trivial rfl ⟨rfl, rfl, rfl⟩ rfl ?_⟩
  refine h.taken.frame ⟨rfl, rfl⟩ Iff.rfl rfl (Or.inr ⟨?_, ?_⟩)
  · simp [h.writer, Server.WriterPc.Between]
  · simp [Server.WriterPc.Between]

theorem takeFlag (h : Taking names client turns now stored .exchanging pc s)
    (more : now.stored < stored)
    : ∃ t, Taking names client turns { now with stored } stored .copying pc t := by
  have changed := h.taken.flag.mpr more
  have moved : Server.step s.server (.writer .exchange) = some s.server.takeFlag := by
    simp [Server.step, Server.writerStep, h.writer, Server.State.exchange,
      Server.Subscription.exchange, changed, Server.State.takeFlag]
  exact ⟨_, h.writes moved trivial rfl ⟨rfl, rfl, rfl⟩ rfl
    (h.taken.takeFlag h.writer changed)⟩

theorem missFlag (h : Taking names client turns now stored .exchanging pc s)
    (none : ¬ now.stored < stored)
    : ∃ t, Taking names client turns now stored (.calling false) pc t := by
  have unchanged : s.server.subscription.changed = false := by
    rw [← Bool.not_eq_true, h.taken.flag]
    exact none
  have moved : Server.step s.server (.writer .exchange)
      = some { s.server with writer := .calling false } := by
    simp [Server.step, Server.writerStep, h.writer, Server.State.exchange,
      Server.Subscription.exchange, unchanged]
  exact ⟨_, h.writes moved trivial rfl ⟨rfl, rfl, rfl⟩ rfl
    (h.taken.missFlag h.writer unchanged)⟩

/-- The copy serves the requests that are accepted by then. -/
theorem copy (h : Taking names client turns now stored .copying pc s)
    : ∃ t,
        Taking names client turns
          { now with served := (Server.acceptedMessages s.server.log).length } stored
          (.calling true) pc t := by
  have moved : Server.step s.server (.writer .copy) = some s.server.adopt := by
    simp [Server.step, Server.writerStep, h.writer, Server.State.copy_eq]
  exact ⟨_, h.writes moved trivial rfl ⟨rfl, rfl, rfl⟩ rfl
    (h.taken.copy (Server.adopts_of_reachable (server_reachable h.reached)) h.writer)⟩

end Taking

theorem StandsAt.accepted {halves : Nat} (h : StandsAt names client turns now writer halves s)
    : (Server.acceptedMessages s.server.log).length = (halves + 1) / 2 := by
  unfold StandsAt at h
  rcases Nat.mod_two_eq_zero_or_one halves with even | odd
  · rw [if_pos even] at h
    rw [h.accepted (by simp)]
    omega
  · rw [if_neg (by omega)] at h
    rw [h.taken.storing ⟨0, h.worker⟩]
    omega

/-- The half step in which the server is left by a turn: the flag of the last request that it
serves is only stored if the turn had needed it.
-/
def restOf (turn : Server.Turn) : Nat :=
  if turn.stored < turn.served then 2 * turn.served - 1 else 2 * turn.served

theorem restOf_succ_half (turn : Server.Turn) : (restOf turn + 1) / 2 = turn.served := by
  unfold restOf
  split <;> omega

/-- Where the next turn raises a flag, the writer takes it and copies the request that the turn
serves.
-/
theorem StandsAt.callRaised {last turn : Server.Turn}
    (h : StandsAt names client turns last .exchanging (max (restOf last) (2 * turn.stored)) s)
    (follows : last.Follows turn) (more : last.stored < turn.stored)
    (written : turn.served ≤ (Server.effective (Client.writtenRequests client.log)).length)
    : ∃ t, StandsAt names client turns turn (.calling true) (restOf turn) t := by
  obtain ⟨served, still⟩ := follows.copied more
  have close := follows.close
  have half : max (restOf last) (2 * turn.stored) / 2 = turn.stored := by
    unfold restOf
    split <;> omega
  have less : max (restOf last) (2 * turn.stored) ≤ restOf turn := by
    unfold restOf
    split <;> split <;> omega
  rw [StandsAt, half] at h
  obtain ⟨t, h⟩ := h.takeFlag more
  have copying : StandsAt names client turns { last with stored := turn.stored } .copying
      (max (restOf last) (2 * turn.stored)) t := by
    rw [StandsAt, half]
    exact h
  obtain ⟨t, h⟩ := copying.advance (by simp) less (by rwa [restOf_succ_half])
  have served := h.accepted
  obtain ⟨t, h⟩ := Taking.copy h
  rw [served, restOf_succ_half] at h
  exact ⟨t, h⟩

/-- Where it raises none, the writer serves the same request again. -/
theorem StandsAt.callUnraised
    (h : StandsAt names client turns now .exchanging (restOf now) s)
    (close : now.served ≤ now.stored + 1) (behind : now.stored ≤ now.served)
    : ∃ t, StandsAt names client turns now (.calling false) (restOf now) t := by
  have half : restOf now / 2 = now.stored := by
    unfold restOf
    split <;> omega
  exact Taking.missFlag h (half ▸ Nat.lt_irrefl _)

/-- From the half step in which the flags of `turn` are stored, the writer comes to its call. -/
theorem StandsAt.call {last turn : Server.Turn}
    (h : StandsAt names client turns last .inner (max (restOf last) (2 * turn.stored)) s)
    (follows : last.Follows turn) (behind : last.stored ≤ last.served)
    (written : turn.served ≤ (Server.effective (Client.writtenRequests client.log)).length)
    : ∃ t,
        StandsAt names client turns turn (.calling (decide (last.stored < turn.stored)))
          (restOf turn) t := by
  obtain ⟨t, h⟩ := Taking.enter h
  by_cases more : last.stored < turn.stored
  · rw [decide_eq_true more]
    exact StandsAt.callRaised h follows more written
  · have equal : turn.stored = last.stored := le_antisymm (not_lt.mp more) follows.grows
    have same : turn = last := by
      have served := follows.kept equal
      cases turn
      cases last
      simp_all
    subst same
    have still : max (restOf turn) (2 * turn.stored) = restOf turn := by
      unfold restOf
      split <;> omega
    rw [still] at h
    rw [decide_eq_false more]
    exact StandsAt.callUnraised h follows.close behind

end Taking

end RVision.Session
