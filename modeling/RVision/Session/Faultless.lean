import RVision.Session.Channels

/-! Sessions in which nothing fails: no completion fails, nobody cancels or shuts down, and
the wait of the writer is one atomic step.
-/

namespace RVision.Session

open Transition
open RVision.Rpc
open RVision.Lines.Provider

variable {Score : Type}

/-- The client is not destroyed, and its completions succeed. -/
def clientFaultless : Client.Action Score → Bool
  | .push _ _ | .exchange _ | .startCall _ | .loop | .enter => true
  | .deliver (.start ok) | .deliver (.write ok) => ok
  | .deliver (.read response) => response.isSome
  | _ => false

/-- The server is neither stopped nor cancelled, its completions succeed, and its wait is
one atomic step that is taken when the predicate is true.
-/
def serverFaultless (s : Server.State Score) : Server.Action Score → Bool
  | .worker _ (.deliver completion) =>
      match completion with
      | .connect ok | .write ok => ok
      | .read message => message.isSome
      | .done _ | .finish _ => false
  | .worker _ _ => true
  | .writer .test => s.shutdown || s.subscription.changed
  | .writer _ => true
  | .start | .cancel | .stop _ => false

def Faultless (s : State Score) : Action Score → Prop
  | .client action => clientFaultless action = true
  | .server action => serverFaultless s.server action = true
  | .update _ _ | .fetch | .line => True

instance (s : State Score) (action : Action Score) : Decidable (Faultless s action) :=
  match action with
  | .client _ | .server _ => inferInstanceAs (Decidable (_ = true))
  | .update _ _ | .fetch | .line => .isTrue trivial

section Faultless

variable (Score) [DecidableEq Score] [Zero Score] [Sub Score]

/-- The session with no failed completion, cancellation or shutdown. -/
def faultless (threads : Nat) (sports : List String)
    : Machine (State Score) (Action Score) :=
  (machine Score threads sports).guard Faultless

end Faultless

-----------------------------------------------------------------------------------------
-- The parties of a faultless session
-----------------------------------------------------------------------------------------

/-- A faultless client is neither shut down nor finished. -/
structure ClientClean (s : Client.State Score) : Prop where
  running : s.shutdown = false
  present : s.processor ≠ .exited
  unfinished : .issued .finish ∉ s.log

theorem ClientClean.step {s next : Client.State Score} (h : ClientClean s)
    {act : Client.Action Score} (clean : clientFaultless act = true)
    (taken : Client.step s act = some next)
    : ClientClean next := by
  have unfinished : .issued .finish ∉ next.log := by
    rcases Client.step_log taken with ⟨completion, events, rfl, reaction, log⟩ | quiet
    · have silent : Client.Event.issued .finish ∉ events := by
        cases reaction with
        | finishes failed =>
            rcases failed with rfl | rfl | rfl <;> simp [clientFaultless] at clean
        | startWrites | startRests | readWrites | readsOn | reads | rests => simp
      simp [log, h.unfinished, silent]
    · obtain ⟨_, events, log, _, _, silent⟩ := quiet
      simp [log, h.unfinished, silent]
  cases act <;> simp only [Client.step, Option.ite_none_right_eq_some] at taken
  all_goals obtain ⟨guard, effect⟩ := taken
  all_goals obtain rfl := Option.some.inj effect
  case push | startCall => exact ⟨h.running, h.present, unfinished⟩
  case exchange thread =>
    unfold Client.State.exchange at unfinished ⊢
    split <;> exact ⟨h.running, h.present, h.unfinished⟩
  case loop => exact ⟨h.running, by simp [h.running], unfinished⟩
  case enter => exact ⟨h.running, by simp, unfinished⟩
  case deliver completion =>
    have frame := Client.deliver_frame s completion
    refine ⟨frame.shutdown.trans h.running, ?_, unfinished⟩
    rw [frame.processor]
    simp [Client.State.taken]
  all_goals cases clean

/-- A writer that neither blocks nor leaves. -/
def WriterAwake : Server.WriterPc → Prop
  | .absent | .parking | .parked | .exited => False
  | _ => True

/-- A worker that neither finishes the stream nor leaves. -/
def WorkerBusy : Server.WorkerPc → Prop
  | .absent | .finishing | .exited => False
  | _ => True

/-- A faultless server keeps running, waits for its connection, and then always has a Read
outstanding or to come.
-/
structure ServerClean (threads : Nat) (s : Server.State Score) : Prop where
  running : s.shutdown = false ∧ s.queueShutdown = false
  writer : WriterAwake s.writer
  workers : ∀ thread < threads, WorkerBusy (s.workers thread)
  unconnected
    : .delivered (.connect true) ∉ s.log
      → .connect ∈ s.outstanding ∨ ∃ thread < threads, s.workers thread = .posting
  connected
    : .delivered (.connect true) ∈ s.log
      → .read ∈ s.outstanding ∨ ∃ thread, (s.workers thread).willRead = true

/-- A worker moves on, and neither the connection nor the Read gets lost. -/
theorem ServerClean.move {threads : Nat} {s t : Server.State Score} (h : ServerClean threads s)
    {thread : Nat} {old new : Server.WorkerPc} (pc : s.workers thread = old)
    (workers : t.workers = Function.update s.workers thread new) (busy : WorkerBusy new)
    (running : t.shutdown = s.shutdown ∧ t.queueShutdown = s.queueShutdown)
    (writer : WriterAwake t.writer)
    (unconnected : .delivered (.connect true) ∉ t.log
      → .connect ∈ t.outstanding
        ∨ (old ≠ .posting
          ∧ .delivered (.connect true) ∉ s.log
          ∧ (.connect ∈ s.outstanding → .connect ∈ t.outstanding)))
    (connected : .delivered (.connect true) ∈ t.log
      → .read ∈ t.outstanding
        ∨ new.willRead = true
        ∨ (old.willRead = false
          ∧ .delivered (.connect true) ∈ s.log
          ∧ (.read ∈ s.outstanding → .read ∈ t.outstanding)))
    : ServerClean threads t := by
  refine ⟨⟨running.1.trans h.running.1, running.2.trans h.running.2⟩, writer, ?_, ?_, ?_⟩
  · intro worker inside
    rw [workers]
    by_cases same : worker = thread
    · subst worker
      simpa using busy
    · simpa [same] using h.workers worker inside
  · intro none
    rcases unconnected none with outstanding | ⟨left, before, kept⟩
    · exact Or.inl outstanding
    · refine (h.unconnected before).imp kept ?_
      intro posting
      obtain ⟨worker, inside, here⟩ := posting
      have other : worker ≠ thread := by
        intro same
        subst same
        exact left (pc.symm.trans here)
      exact ⟨worker, inside, by simpa [workers, other] using here⟩
  · intro known
    rcases connected known with outstanding | will | ⟨left, before, kept⟩
    · exact Or.inl outstanding
    · exact Or.inr ⟨thread, by simpa [workers] using will⟩
    · refine (h.connected before).imp kept ?_
      intro reading
      obtain ⟨worker, here⟩ := reading
      have other : worker ≠ thread := by
        intro same
        subst same
        rw [pc, left] at here
        cases here
      exact ⟨worker, by simpa [workers, other] using here⟩

/-- A step that leaves the workers and the stream alone. -/
theorem ServerClean.frame {threads : Nat} {s t : Server.State Score}
    (h : ServerClean threads s)
    (same : t.shutdown = s.shutdown ∧ t.queueShutdown = s.queueShutdown
      ∧ t.workers = s.workers)
    (writer : WriterAwake t.writer)
    (outstanding : ∀ tag, tag = .connect ∨ tag = .read
      → tag ∈ s.outstanding
      → tag ∈ t.outstanding)
    (log : .delivered (.connect true) ∈ t.log ↔ .delivered (.connect true) ∈ s.log)
    : ServerClean threads t := by
  obtain ⟨shutdown, queue, workers⟩ := same
  refine ⟨⟨shutdown.trans h.running.1, queue.trans h.running.2⟩, writer,
    workers ▸ h.workers, ?_, ?_⟩
  · rw [log, workers]
    exact fun none => (h.unconnected none).imp_left (outstanding _ (Or.inl rfl))
  · rw [log, workers]
    exact fun known => (h.connected known).imp_left (outstanding _ (Or.inr rfl))

theorem wake_awake {s : Server.State Score} (awake : WriterAwake s.writer)
    : WriterAwake s.wake := by
  rcases Server.wake_eq s with same | ⟨_, testing⟩
  · rwa [same]
  · simp [testing, WriterAwake]

theorem ServerClean.step {threads : Nat} {s next : Server.State Score}
    (h : ServerClean threads s) (known : Server.ThreadsKnown threads s)
    {act : Server.Action Score} (clean : serverFaultless s act = true)
    (taken : Server.Step s act next)
    : ServerClean threads next := by
  cases taken with
  | post pc =>
      refine h.move pc rfl trivial ⟨rfl, rfl⟩ h.writer (fun _ => Or.inl (by simp)) ?_
      exact fun before => Or.inr (Or.inr ⟨rfl, before, by simp +contextual⟩)
  | loop pc =>
      refine h.move pc rfl (by simp [h.running.1, WorkerBusy]) ⟨rfl, rfl⟩ h.writer ?_ ?_
      · exact fun before => Or.inr ⟨by simp, before, id⟩
      · exact fun before => Or.inr (Or.inr ⟨rfl, before, id⟩)
  | @deliver thread completion pc =>
      rcases completion with (_ | _) | (_ | message) | (_ | _) | ok | ok
      case connect.true =>
        refine h.move pc rfl trivial ⟨rfl, rfl⟩ h.writer ?_ (fun _ => Or.inr (Or.inl rfl))
        exact fun none => absurd (by simp [Server.State.deliver]) none
      case read.some =>
        refine h.move pc rfl trivial ⟨rfl, rfl⟩ h.writer ?_ (fun _ => Or.inr (Or.inl rfl))
        exact fun none => Or.inr ⟨by simp, by simpa [Server.State.deliver] using none,
          (List.mem_erase_of_ne (by simp [Server.Completion.tag])).mpr⟩
      case write.true =>
        refine h.move pc rfl trivial ⟨rfl, rfl⟩ h.writer ?_ ?_
        · exact fun none => Or.inr ⟨by simp, by simpa [Server.State.deliver] using none,
            (List.mem_erase_of_ne (by simp [Server.Completion.tag])).mpr⟩
        · exact fun some => Or.inr (Or.inr ⟨rfl, by simpa [Server.State.deliver] using some,
            (List.mem_erase_of_ne (by simp [Server.Completion.tag])).mpr⟩)
      all_goals cases clean
  | queueEnd pc down => simp [h.running.2] at down
  | accept pc =>
      refine h.move pc rfl trivial ⟨rfl, rfl⟩ h.writer ?_ (fun _ => Or.inr (Or.inl rfl))
      exact fun none => Or.inr ⟨by simp, by simpa [Server.State.accept] using none, id⟩
  | reject pc | storeChanged pc =>
      refine h.move pc rfl trivial ⟨rfl, rfl⟩ h.writer ?_ (fun _ => Or.inr (Or.inl rfl))
      exact fun none => Or.inr ⟨by simp, none, id⟩
  | notifyOne pc =>
      refine h.move pc rfl trivial ⟨rfl, rfl⟩ (wake_awake h.writer) ?_
        (fun _ => Or.inr (Or.inl rfl))
      exact fun none => Or.inr ⟨by simp, none, id⟩
  | read pc =>
      refine h.move pc rfl trivial ⟨rfl, rfl⟩ h.writer ?_ (fun _ => Or.inl ?_)
      · refine fun none => Or.inr ⟨by simp, ?_, ?_⟩
        · simpa [Server.State.read, Server.State.issue] using none
        · simp +contextual [Server.State.read, Server.State.issue]
      · simp [Server.State.read, Server.State.issue, Server.Operation.tag]
  | @finish thread pc =>
      have busy := h.workers thread (known.inside thread (by simp [pc]))
      simp [pc, WorkerBusy] at busy
  | outer pc =>
      exact h.frame ⟨rfl, rfl, rfl⟩ (by simp [h.running.1, WriterAwake]) (fun _ _ => id) Iff.rfl
  | pass pc =>
      exact h.frame ⟨rfl, rfl, rfl⟩ trivial (fun _ _ => id) Iff.rfl
  | refuse pc running unchanged =>
      simp [serverFaultless, running, unchanged] at clean
  | park pc =>
      have awake := h.writer
      simp [pc, WriterAwake] at awake
  | inner pc =>
      exact h.frame ⟨rfl, rfl, rfl⟩ (by simp [h.running.1, WriterAwake]) (fun _ _ => id) Iff.rfl
  | takeFlag pc | missFlag pc | copy pc =>
      exact h.frame ⟨rfl, rfl, rfl⟩ trivial (fun _ _ => id) Iff.rfl
  | callback pc =>
      refine h.frame ⟨rfl, rfl, rfl⟩ trivial (fun _ _ => id) ?_
      simp [Server.State.callback]
  | write pc =>
      refine h.frame ⟨rfl, rfl, rfl⟩ trivial ?_ ?_
      · exact fun _ _ member => List.mem_append_left _ member
      · simp [Server.State.write, Server.State.issue]
  | _ => cases clean

section Clean

variable [DecidableEq Score] [Zero Score] [Sub Score] {threads : Nat} {sports : List String}
  {s : State Score}

theorem reachable_of_faultless (reached : (faultless Score threads sports).Reachable s)
    : (machine Score threads sports).Reachable s :=
  (Machine.ReachableVia.of_guard reached).reachable

/-- Both parties of every faultless session are clean. -/
theorem clean_of_reachable (positive : 0 < threads)
    (reached : (faultless Score threads sports).Reachable s)
    : ClientClean s.client ∧ ServerClean threads s.server := by
  refine reached.invariant
    (motive := fun s => ClientClean s.client ∧ ServerClean threads s.server) ?_ ?_
  · have posting (thread : Nat) (inside : thread < threads)
        : (Server.State.start ({ threads } : Server.State Score)).workers thread = .posting := by
      simp [Server.State.start, inside]
    refine ⟨⟨rfl, by simp [faultless, Machine.guard, machine], ?_⟩, ⟨rfl, rfl⟩, trivial, ?_, ?_,
      ?_⟩
    · simp [faultless, Machine.guard, machine]
    · intro thread inside
      exact (posting thread inside).symm ▸ trivial
    · exact fun _ => Or.inr ⟨0, positive, posting 0 positive⟩
    · intro known
      simp [faultless, Machine.guard, machine, Server.State.start] at known
  · intro s action next before known taken
    obtain ⟨clean, taken⟩ := Option.ite_none_right_eq_some.mp taken
    have threadsKnown := Server.threadsKnown_of_reachable
      (server_reachable (reachable_of_faultless before))
    rcases step_cases taken with ⟨act, client, rfl, _, moved, rfl⟩
      | ⟨act, server, rfl, _, moved, rfl⟩ | ⟨client, server⟩
    · exact ⟨known.1.step clean moved, known.2⟩
    · exact ⟨known.1, known.2.step threadsKnown clean (.of_step moved)⟩
    · rw [client, server]
      exact known

end Clean

end RVision.Session
