import RVision.Rpc.Server.SingleFlight

/-! The end of the stream. Three handlers start Finish on their own failure, `process`
ignores their result, and the writer is never told. Operations stay in order only where the
completions and the writer happen to come in order.
-/

namespace RVision.Rpc.Server

open Transition

variable {Score : Type}

/-- An operation is started only after the connect tag was delivered with `ok = true`. -/
def NeedsConnection (event : Event Score) (before : List (Event Score)) : Prop :=
  match event with
  | .started _ => .delivered (.connect true) ∈ before
  | _ => True

/-- An operation is started only before Finish. -/
def NeedsOpenStream (event : Event Score) (before : List (Event Score)) : Prop :=
  match event with
  | .started _ => .started .finish ∉ before
  | _ => True

/-- The log has started a Finish. -/
def isFinish : Event Score → Bool
  | .started .finish => true
  | _ => false

/-- The stream is used between a successful connect and one Finish, and not otherwise. -/
structure StreamDiscipline (s : State Score) : Prop where
  connected : Preceded NeedsConnection s.log
  finishOnce : s.log.countP isFinish ≤ 1
  finishLast : Preceded NeedsOpenStream s.log

/-- The worker is in a handler that will start an operation. -/
def WorkerPc.WillStart : WorkerPc → Prop
  | .checking | .storing | .notifying | .reading | .finishing => True
  | _ => False

/-- The writer is past its test of `m_shutdown` in the inner loop. -/
def WriterPc.Iterating (pc : WriterPc) : Prop :=
  match pc with
  | .exchanging | .copying | .calling _ | .writing => True
  | _ => False

instance (pc : WriterPc) : Decidable pc.Iterating :=
  match pc with
  | .exchanging | .copying | .calling _ | .writing => .isTrue trivial
  | .absent | .outer | .testing | .parking | .parked | .inner | .exited => .isFalse id

/-- The steps that keep the discipline: no connection fails; Finish is started between two
iterations of the writer; and after it no request arrives, no Write and no read of a
cancelled call fails, and the writer begins no iteration.
-/
def Orderly (s : State Score) : Action Score → Prop
  | .worker _ (.deliver (.connect ok)) => ok = true
  | .worker _ (.deliver (.read (some _))) => .started .finish ∉ s.log
  | .worker _ (.deliver (.read none)) => s.cancelled = true → .started .finish ∉ s.log
  | .worker _ (.deliver (.write ok)) => ok = false → .started .finish ∉ s.log
  | .worker _ .finish => ¬ s.writer.Iterating
  | .writer .inner => s.shutdown = false → .started .finish ∉ s.log
  | _ => True

instance [DecidableEq Score] (s : State Score) (action : Action Score)
    : Decidable (Orderly s action) :=
  match action with
  | .worker _ (.deliver (.connect _)) => inferInstanceAs (Decidable (_ = _))
  | .worker _ (.deliver (.read (some _))) => inferInstanceAs (Decidable (_ ∉ _))
  | .worker _ (.deliver (.read none)) => inferInstanceAs (Decidable (_ → _ ∉ _))
  | .worker _ (.deliver (.write _)) => inferInstanceAs (Decidable (_ → _ ∉ _))
  | .worker _ (.deliver (.done _)) => inferInstanceAs (Decidable True)
  | .worker _ (.deliver (.finish _)) => inferInstanceAs (Decidable True)
  | .worker _ .finish => inferInstanceAs (Decidable (¬ s.writer.Iterating))
  | .writer .inner => inferInstanceAs (Decidable (_ → _ ∉ _))
  | .start | .cancel | .stop _ => inferInstanceAs (Decidable True)
  | .worker _ .post | .worker _ .loop | .worker _ .queueEnd | .worker _ .checkRequest
  | .worker _ .storeChanged | .worker _ .notifyOne | .worker _ .read =>
      inferInstanceAs (Decidable True)
  | .writer .outer | .writer .test | .writer .park | .writer .exchange | .writer .copy
  | .writer (.callback _) | .writer .write => inferInstanceAs (Decidable True)

/-- The log is that of a stream between its connection and its Finish. -/
def Streaming (log : List (Event Score)) : Prop :=
  .delivered (.connect true) ∈ log ∧ .started .finish ∉ log

/-- Whatever is on its way to an operation comes from a connection that is not finished. -/
structure InStream (s : State Score) : Prop where
  connected : Preceded NeedsConnection s.log
  finishLast : Preceded NeedsOpenStream s.log
  working
    : ∀ thread, (s.workers thread).WillStart → Streaming s.log
  outstanding
    : .read ∈ s.outstanding ∨ .write ∈ s.outstanding → .delivered (.connect true) ∈ s.log
  flagged : s.subscription.changed = true → .delivered (.connect true) ∈ s.log
  waited
    : s.writer = .inner → s.shutdown = true ∨ .delivered (.connect true) ∈ s.log
  iterating : s.writer.Iterating → Streaming s.log

/-- A Finish in the log was started on a connected stream. -/
theorem InStream.connected_of_finish {s : State Score} (h : InStream s)
    (finished : .started .finish ∈ s.log)
    : .delivered (.connect true) ∈ s.log := by
  obtain ⟨before, after, split⟩ := List.append_of_mem finished
  have early : .delivered (.connect true) ∈ before := h.connected before _ after split
  rw [split]
  exact List.mem_append_left _ early

-----------------------------------------------------------------------------------------
-- One worker connects once
-----------------------------------------------------------------------------------------

/-- While its connect tag is outstanding, a server with one worker is not connected. -/
theorem not_connected_of_outstanding {s : State Score}
    (reached : (machine Score 1).Reachable s) (outstanding : .connect ∈ s.outstanding)
    : .delivered (.connect true) ∉ s.log := by
  obtain ⟨actions, ran⟩ := reached
  have connects := (accounted_of_run ran).connects
  have size := (threadsKnown_of_reachable ⟨actions, ran⟩).size
  have positive := List.count_pos_iff.mpr outstanding
  have counted := countP_isConnected_of_run ran
  intro member
  have found : 0 < s.log.countP isConnected := List.countP_pos_iff.mpr ⟨_, member, rfl⟩
  omega

-----------------------------------------------------------------------------------------
-- Every orderly step stays in the stream
-----------------------------------------------------------------------------------------

/-- A step that starts nothing, raises no flag and grows the log by at most one entry that
is no operation.
-/
structure StartsNothing (s t : State Score) : Prop where
  log
    : t.log = s.log
      ∨ ∃ event, (∀ operation, event ≠ .started operation) ∧ t.log = s.log ++ [event]
  outstanding
    : ∀ status, status = .read ∨ status = .write
      → status ∈ t.outstanding
      → status ∈ s.outstanding
  flag : t.subscription.changed = true → s.subscription.changed = true
  shutdown : s.shutdown = true → t.shutdown = true

/-- A grown log keeps its entries, its order and its open stream. -/
theorem StartsNothing.kept {s t : State Score} (h : StartsNothing s t)
    : (∀ event, event ∈ s.log → event ∈ t.log)
      ∧ (.started .finish ∉ s.log → .started .finish ∉ t.log)
      ∧ (Preceded NeedsConnection s.log → Preceded NeedsConnection t.log)
      ∧ (Preceded NeedsOpenStream s.log → Preceded NeedsOpenStream t.log) := by
  rcases h.log with same | ⟨event, silent, grown⟩
  · rw [same]
    exact ⟨fun _ => id, id, id, id⟩
  · rw [grown]
    have other : (.started .finish : Event Score) ≠ event := fun here => silent _ here.symm
    refine ⟨fun _ member => List.mem_append_left _ member, ?_, ?_, ?_⟩
    · simp [other]
    · refine fun ordered => ordered.concat ?_
      cases event <;> simp_all [NeedsConnection]
    · refine fun ordered => ordered.concat ?_
      cases event <;> simp_all [NeedsOpenStream]

/-- Such a step stays in the stream when its worker and its writer have what they need. -/
theorem InStream.quiet {s t : State Score} (h : InStream s) (quiet : StartsNothing s t)
    (working : ∀ thread, (t.workers thread).WillStart
      → (s.workers thread).WillStart
        ∨ Streaming t.log)
    (waited : t.writer = .inner
      → t.shutdown = true ∨ .delivered (.connect true) ∈ s.log)
    (iterating : t.writer.Iterating → Streaming s.log)
    : InStream t := by
  obtain ⟨members, stillOpen, connected, finishLast⟩ := quiet.kept
  refine ⟨connected h.connected, finishLast h.finishLast, ?_, ?_, ?_, ?_, ?_⟩
  · intro thread will
    rcases working thread will with before | known
    · exact (h.working thread before).imp (members _) stillOpen
    · exact known
  · intro started
    rcases started with read | write
    · exact members _ (h.outstanding (Or.inl (quiet.outstanding _ (Or.inl rfl) read)))
    · exact members _ (h.outstanding (Or.inr (quiet.outstanding _ (Or.inr rfl) write)))
  · exact fun raised => members _ (h.flagged (quiet.flag raised))
  · exact fun inner => (waited inner).imp_right (members _)
  · exact fun inside => (iterating inside).imp (members _) stillOpen

/-- A worker moves between places where it starts nothing. -/
theorem willStart_update {s : State Score} {thread : Nat} {pc : WorkerPc}
    (entered : pc.WillStart → (s.workers thread).WillStart) (worker : Nat)
    (will : (Function.update s.workers thread pc worker).WillStart)
    : (s.workers worker).WillStart := by
  by_cases same : worker = thread
  · subst worker
    rw [Function.update_self] at will
    exact entered will
  · rwa [Function.update_of_ne same] at will

theorem wake_inner_iterating (s : State Score)
    : (s.wake = .inner → s.writer = .inner) ∧ (s.wake.Iterating → s.writer.Iterating) := by
  unfold State.wake
  split_ifs with parked
  · simp [WriterPc.Iterating]
  · exact ⟨id, id⟩

/-- Starting an operation on an open, connected stream keeps every entry in order. -/
theorem InStream.issue {s : State Score} (h : InStream s) (streaming : Streaming s.log)
    (operation : Operation Score)
    : Preceded NeedsConnection (s.issue operation).log
      ∧ Preceded NeedsOpenStream (s.issue operation).log
      ∧ .delivered (.connect true) ∈ (s.issue operation).log
      ∧ (operation ≠ .finish → Streaming (s.issue operation).log) := by
  have connected := List.mem_append_left [.started operation] streaming.1
  refine ⟨h.connected.concat streaming.1, h.finishLast.concat streaming.2, connected, ?_⟩
  refine fun other => ⟨connected, ?_⟩
  simpa [State.issue, streaming.2] using fun same => other same.symm

/-- What the handler of a delivered completion needs, by cases on the completion: a failed
Write or Read belongs to a connection, and a connection cannot come after a Finish.
-/
theorem InStream.dispatch {s : State Score} (h : InStream s)
    (reached : (machine Score 1).Reachable s) {thread : Nat} {completion : Completion}
    (orderly : Orderly s (.worker thread (.deliver completion)))
    (tag : completion.tag ∈ s.outstanding) (will : (s.dispatch completion).WillStart)
    : Streaming (s.deliver thread completion).log := by
  have grown : (s.deliver thread completion).log = s.log ++ [.delivered completion] := rfl
  rw [grown, Streaming]
  have unfinished (before : (.started .finish : Event Score) ∉ s.log)
      : (.started .finish : Event Score) ∉ s.log ++ [.delivered completion] := by
    simpa using before
  rcases completion with (_ | _) | (_ | message) | (_ | _) | ok | ok
  · cases orderly
  · have unconnected := not_connected_of_outstanding reached tag
    exact ⟨by simp, unfinished (fun finished => unconnected (h.connected_of_finish finished))⟩
  · have cancelled : s.cancelled = true := by
      by_contra no
      simp [State.dispatch, no, WorkerPc.WillStart] at will
    exact ⟨List.mem_append_left _ (h.outstanding (Or.inl tag)), unfinished (orderly cancelled)⟩
  · exact ⟨List.mem_append_left _ (h.outstanding (Or.inl tag)), unfinished orderly⟩
  · exact ⟨List.mem_append_left _ (h.outstanding (Or.inr tag)), unfinished (orderly rfl)⟩
  all_goals exact absurd will (by simp [State.dispatch, WorkerPc.WillStart])

section Steps

variable {s next : State Score}

/-- A worker that starts nothing moves, and is on its way to an operation only if it was
before.
-/
theorem InStream.moves (h : InStream s) {thread : Nat} {old new : WorkerPc}
    (pc : s.workers thread = old)
    (workers : next.workers = Function.update s.workers thread new)
    (entered : new.WillStart → old.WillStart)
    (quiet : StartsNothing s next) (writer : next.writer = s.writer ∨ next.writer = s.wake)
    : InStream next := by
  have back : (next.writer = .inner → s.writer = .inner)
      ∧ (next.writer.Iterating → s.writer.Iterating) := by
    rcases writer with same | woken
    · rw [same]
      exact ⟨id, id⟩
    · rw [woken]
      exact wake_inner_iterating s
  refine h.quiet quiet ?_ (fun inner => (h.waited (back.1 inner)).imp_left quiet.shutdown)
    (fun inside => h.iterating (back.2 inside))
  rw [workers]
  exact fun worker will => .inl (willStart_update (pc ▸ entered) worker will)

/-- The handler of a completion is the only one to begin with its delivery. -/
theorem InStream.delivers (h : InStream s) (reached : (machine Score 1).Reachable s)
    {thread : Nat} {completion : Completion}
    (orderly : Orderly s (.worker thread (.deliver completion)))
    (tag : completion.tag ∈ s.outstanding)
    : InStream (s.deliver thread completion) := by
  refine h.quiet ⟨Or.inr ⟨.delivered completion, by simp, rfl⟩, ?_, ?_, id⟩ ?_
    h.waited h.iterating
  · exact fun status _ member => List.mem_of_mem_erase member
  · simp only [State.deliver, State.received]
    split <;> exact id
  · intro worker will
    by_cases here : worker = thread
    · subst worker
      refine Or.inr (h.dispatch reached orderly tag ?_)
      simpa [State.deliver] using will
    · exact Or.inl (by simpa [State.deliver, here] using will)

/-- The flag goes up in a handler of a connected stream. -/
theorem InStream.raises (h : InStream s) {thread : Nat} (pc : s.workers thread = .storing)
    : InStream (s.storeChanged thread) := by
  have connected := (h.working thread (by simp [pc, WorkerPc.WillStart])).1
  refine ⟨h.connected, h.finishLast, ?_, h.outstanding, fun _ => connected, h.waited,
    h.iterating⟩
  exact fun worker will => h.working worker
    (willStart_update (by simp [pc, WorkerPc.WillStart]) worker will)

/-- A Read or a Write leaves everybody in the stream. -/
theorem InStream.starts (h : InStream s) (streaming : Streaming s.log)
    {operation : Operation Score} (other : operation ≠ .finish)
    (log : next.log = (s.issue operation).log)
    : InStream next := by
  obtain ⟨connected, finishLast, kept, still⟩ := h.issue streaming operation
  rw [← log] at connected finishLast kept still
  exact ⟨connected, finishLast, fun _ _ => still other, fun _ => kept, fun _ => kept,
    fun _ => Or.inr kept, fun _ => still other⟩

/-- After Finish the only worker is back in its loop, so nobody is left to start anything. -/
theorem InStream.finishes (h : InStream s) (reached : (machine Score 1).Reachable s)
    {thread : Nat} (pc : s.workers thread = .finishing) (between : ¬ s.writer.Iterating)
    : InStream (s.finish thread) := by
  have only (worker : Nat) (present : s.workers worker ≠ .absent) : worker = 0 := by
    have inside := (threadsKnown_of_reachable reached).inside worker present
    omega
  obtain ⟨connected, finishLast, kept, _⟩ :=
    h.issue (h.working thread (by simp [pc, WorkerPc.WillStart])) .finish
  refine ⟨connected, finishLast, ?_, fun _ => kept, fun _ => kept, fun _ => Or.inr kept,
    fun inside => absurd inside between⟩
  intro worker will
  have zero := only thread (by simp [pc])
  by_cases here : worker = thread
  · subst worker
    simp [State.finish, State.issue, WorkerPc.WillStart] at will
  · have absent : s.workers worker = .absent := by
      by_contra present
      have also := only worker present
      omega
    simp [State.finish, State.issue, here, absent, WorkerPc.WillStart] at will

/-- The writer moves outside its inner loop, or `stop` does. -/
theorem InStream.stays (h : InStream s) (quiet : StartsNothing s next)
    (workers : next.workers = s.workers)
    (waited : next.writer = .inner
      → next.shutdown = true ∨ .delivered (.connect true) ∈ s.log)
    (iterating : next.writer.Iterating → Streaming s.log)
    : InStream next :=
  h.quiet quiet (fun _ will => Or.inl (workers ▸ will)) waited iterating

/-- The writer moves inside an iteration. -/
theorem InStream.iterates (h : InStream s) (inside : s.writer.Iterating)
    (quiet : StartsNothing s next) (workers : next.workers = s.workers)
    : InStream next :=
  have streaming := h.iterating inside
  h.stays quiet workers (fun _ => Or.inr streaming.1) (fun _ => streaming)

/-- Every orderly step of a server with one worker stays in the stream. -/
theorem InStream.step (h : InStream s) (reached : (machine Score 1).Reachable s)
    {action : Action Score} (orderly : Orderly s action) (taken : Step s action next)
    : InStream next := by
  cases taken with
  | start unbuilt =>
      refine h.quiet ⟨Or.inl rfl, ?_, id, id⟩ ?_ (by simp [State.start])
        (by simp [State.start, WriterPc.Iterating])
      · intro status either member
        rcases either with rfl | rfl <;> simp [State.start] at member
      · intro thread will
        simp only [State.start] at will
        split at will <;> simp [WorkerPc.WillStart] at will
  | post pc =>
      refine h.moves pc rfl id ⟨Or.inl rfl, ?_, id, id⟩ (Or.inl rfl)
      intro status either member
      rcases either with rfl | rfl <;> simpa using member
  | loop pc =>
      refine h.moves pc rfl ?_ ⟨Or.inl rfl, fun _ _ => id, id, id⟩ (Or.inl rfl)
      split_ifs <;> exact id
  | deliver _ tag => exact h.delivers reached orderly tag
  | accept pc =>
      exact h.moves pc rfl id ⟨Or.inr ⟨.accepted s.subscription.request, by simp, rfl⟩,
        fun _ _ => id, id, id⟩ (Or.inl rfl)
  | queueEnd pc | reject pc =>
      exact h.moves pc rfl id ⟨Or.inl rfl, fun _ _ => id, id, id⟩ (Or.inl rfl)
  | storeChanged pc => exact h.raises pc
  | notifyOne pc =>
      exact h.moves pc rfl id ⟨Or.inl rfl, fun _ _ => id, id, id⟩ (Or.inr rfl)
  | @read thread pc =>
      exact h.starts (h.working thread (by simp [pc, WorkerPc.WillStart])) (by simp) rfl
  | finish pc => exact h.finishes reached pc orderly
  | outer pc =>
      exact h.stays ⟨Or.inl rfl, fun _ _ => id, id, id⟩ rfl (by split_ifs <;> simp)
        (by split_ifs <;> simp [WriterPc.Iterating])
  | pass pc ready =>
      exact h.stays ⟨Or.inl rfl, fun _ _ => id, id, id⟩ rfl
        (fun _ => ready.imp_right h.flagged) (by simp [WriterPc.Iterating])
  | refuse pc | park pc =>
      exact h.stays ⟨Or.inl rfl, fun _ _ => id, id, id⟩ rfl (by simp)
        (by simp [WriterPc.Iterating])
  | inner pc =>
      refine h.stays ⟨Or.inl rfl, fun _ _ => id, id, id⟩ rfl (by split_ifs <;> simp) ?_
      cases down : s.shutdown with
      | true => simp [WriterPc.Iterating]
      | false => exact fun _ => ⟨(h.waited pc).resolve_left (by simp [down]), orderly down⟩
  | takeFlag pc | copy pc =>
      exact h.iterates (by simp [pc, WriterPc.Iterating])
        ⟨Or.inl rfl, fun _ _ => id, by simp [State.takeFlag, State.adopt], id⟩ rfl
  | missFlag pc =>
      exact h.iterates (by simp [pc, WriterPc.Iterating])
        ⟨Or.inl rfl, fun _ _ => id, id, id⟩ rfl
  | callback pc =>
      exact h.iterates (by simp [pc, WriterPc.Iterating])
        ⟨Or.inr ⟨_, by simp, rfl⟩, fun _ _ => id, id, id⟩ rfl
  | write pc =>
      exact h.starts (h.iterating (by simp [pc, WriterPc.Iterating])) (by simp) rfl
  | store =>
      exact h.stays ⟨Or.inl rfl, fun _ _ => id, id, fun _ => rfl⟩ rfl
        (fun _ => Or.inl rfl) h.iterating
  | notifyAll =>
      have woken := wake_inner_iterating s
      exact h.stays ⟨Or.inl rfl, fun _ _ => id, id, id⟩ rfl
        (fun inner => h.waited (woken.1 inner)) (fun inside => h.iterating (woken.2 inside))
  | drain =>
      exact h.stays ⟨Or.inl rfl, fun _ _ => List.mem_of_mem_erase, id, id⟩ rfl h.waited
        h.iterating
  | cancel | shutdownServer | shutdownQueue | joinCrash | joinWriter | joinedAll
    | joinWorker | drained =>
      exact h.stays ⟨Or.inl rfl, fun _ _ => id, id, id⟩ rfl h.waited h.iterating

end Steps

-----------------------------------------------------------------------------------------
-- A disorderly step breaks the discipline
-----------------------------------------------------------------------------------------

/-- A step that ends a handler or an iteration of the writer which has already begun. -/
def Action.continues : Action Score → Bool
  | .worker _ action =>
      match action with
      | .checkRequest | .storeChanged | .notifyOne | .read | .finish => true
      | _ => false
  | .writer action =>
      match action with
      | .exchange | .copy | .callback _ | .write => true
      | _ => false
  | _ => false

/-- What has already begun leads to an operation, with no other completion; until then the
log only grows and the queue is left alone.
-/
def Starts (threads : Nat) (s : State Score) : Prop :=
  ∃ tail before action after operation,
    (∀ action ∈ tail, Action.continues action = true)
    ∧ (machine Score threads).runFrom s tail = some before
    ∧ s.log <+: before.log
    ∧ before.queueShutdown = s.queueShutdown
    ∧ action.continues = true
    ∧ (machine Score threads).step before action = some after
    ∧ after.log = before.log ++ [.started operation]

section Starts

variable {threads : Nat} {s next : State Score}

theorem Starts.of_step (h : Starts threads next) (action : Action Score)
    (continues : action.continues = true) (taken : step s action = some next)
    (grows : s.log <+: next.log) (queue : next.queueShutdown = s.queueShutdown)
    : Starts threads s := by
  obtain ⟨tail, before, last, after, operation, all, ran, grown, same, rest⟩ := h
  refine ⟨action :: tail, before, last, after, operation, ?_, ?_, ?_, ?_, rest⟩
  · simpa [continues] using all
  · exact Option.bind_eq_some_iff.mpr ⟨next, taken, ran⟩
  · exact grows.trans grown
  · exact same.trans queue

theorem starts_of_issue (action : Action Score) (operation : Operation Score)
    (continues : action.continues = true) (taken : step s action = some next)
    (log : next.log = s.log ++ [.started operation])
    : Starts threads s :=
  ⟨[], s, action, next, operation, by simp, rfl, List.prefix_refl _, rfl, continues, taken,
    log⟩

/-- A handler that will start an operation does so. -/
theorem starts_of_willStart (thread : Nat) (will : (s.workers thread).WillStart)
    : Starts threads s := by
  have ofReading (s : State Score) (pc : s.workers thread = .reading) : Starts threads s :=
    starts_of_issue (.worker thread .read) .read rfl (by simp [step, workerStep, pc]; rfl) rfl
  have ofNotifying (s : State Score) (pc : s.workers thread = .notifying)
      : Starts threads s :=
    (ofReading (s.notifyOne thread) (by simp [State.notifyOne])).of_step
      (.worker thread .notifyOne) rfl (by simp [step, workerStep, pc]) (List.prefix_refl _) rfl
  have ofStoring (s : State Score) (pc : s.workers thread = .storing) : Starts threads s :=
    (ofNotifying (s.storeChanged thread) (by simp [State.storeChanged])).of_step
      (.worker thread .storeChanged) rfl (by simp [step, workerStep, pc])
      (List.prefix_refl _) rfl
  cases pc : s.workers thread with
  | reading => exact ofReading s pc
  | notifying => exact ofNotifying s pc
  | storing => exact ofStoring s pc
  | finishing =>
      exact starts_of_issue (.worker thread .finish) .finish rfl
        (by simp [step, workerStep, pc]; rfl) rfl
  | checking =>
      have checked : step s (.worker thread .checkRequest) = some (s.check thread) := by
        simp [step, workerStep, pc]
      rw [State.check_eq] at checked
      split_ifs at checked
      · exact (ofStoring (s.accept thread) (by simp [State.accept])).of_step _ rfl checked
          (List.prefix_append _ _) rfl
      · exact (ofReading (s.setWorker thread .reading) (by simp [State.setWorker])).of_step _
          rfl checked (List.prefix_refl _) rfl
  | absent | posting | looping | waiting | exited => simp [pc, WorkerPc.WillStart] at will

/-- An iteration of the writer that has begun ends with a Write. -/
theorem starts_of_iterating (iterating : s.writer.Iterating) : Starts threads s := by
  have ofWriting (s : State Score) (pc : s.writer = .writing) : Starts threads s :=
    starts_of_issue (.writer .write) (.write s.response) rfl
      (by simp [step, writerStep, pc]; rfl) rfl
  have ofCalling (s : State Score) (changed : Bool) (pc : s.writer = .calling changed)
      : Starts threads s :=
    (ofWriting (s.callback changed []) rfl).of_step (.writer (.callback [])) rfl
      (by simp [step, writerStep, pc]) (List.prefix_append _ _) rfl
  have ofCopying (s : State Score) (pc : s.writer = .copying) : Starts threads s :=
    (ofCalling s.copy true rfl).of_step (.writer .copy) rfl (by simp [step, writerStep, pc])
      (List.prefix_refl _) rfl
  cases pc : s.writer with
  | writing => exact ofWriting s pc
  | calling changed => exact ofCalling s changed pc
  | copying => exact ofCopying s pc
  | exchanging =>
      have exchanged : step s (.writer .exchange) = some s.exchange := by
        simp [step, writerStep, pc]
      cases changed : s.subscription.changed with
      | true =>
          have effect : s.exchange = s.takeFlag := by
            simp [State.exchange, Subscription.exchange, changed, State.takeFlag]
          rw [effect] at exchanged
          exact (ofCopying s.takeFlag rfl).of_step _ rfl exchanged (List.prefix_refl _) rfl
      | false =>
          have effect : s.exchange = { s with writer := .calling false } := by
            simp [State.exchange, Subscription.exchange, changed]
          rw [effect] at exchanged
          exact (ofCalling { s with writer := .calling false } false rfl).of_step _ rfl
            exchanged (List.prefix_refl _) rfl
  | absent | outer | testing | parking | parked | inner | exited =>
      simp [pc, WriterPc.Iterating] at iterating

end Starts

/-- What has already begun leads out of the discipline, with no other completion. -/
def Breaks (s : State Score) : Prop :=
  ∃ tail final,
    (∀ action ∈ tail, Action.continues action = true)
    ∧ (machine Score 1).runFrom s tail = some final
    ∧ ¬ StreamDiscipline final

/-- An operation that is started where it may not be breaks the discipline at once. -/
theorem breaks_of_issue {s next : State Score} (action : Action Score)
    (operation : Operation Score) (continues : action.continues = true)
    (taken : step s action = some next) (log : next.log = s.log ++ [.started operation])
    (wrong : .delivered (.connect true) ∉ s.log ∨ .started .finish ∈ s.log)
    : Breaks s := by
  have broken : ¬ StreamDiscipline next := by
    intro h
    rcases wrong with unconnected | finished
    · exact unconnected (h.connected s.log (.started operation) [] log)
    · exact h.finishLast s.log (.started operation) [] log finished
  refine ⟨[action], next, by simpa using continues, ?_, broken⟩
  exact Option.bind_eq_some_iff.mpr ⟨next, taken, rfl⟩

/-- After Finish, whatever leads to an operation leads out of the discipline. -/
theorem Starts.breaks {s : State Score} (h : Starts 1 s)
    (finished : .started .finish ∈ s.log)
    : Breaks s := by
  obtain ⟨tail, before, action, after, operation, all, ran, grown, _, continues, taken, log⟩ :=
    h
  refine ⟨tail ++ [action], after, ?_, ?_, ?_⟩
  · intro other member
    rcases List.mem_append.mp member with earlier | last
    · exact all other earlier
    · exact List.mem_singleton.mp last ▸ continues
  · rw [Machine.runFrom_append, ran, Option.bind_some]
    exact Option.bind_eq_some_iff.mpr ⟨after, taken, rfl⟩
  · intro h
    exact h.finishLast before.log (.started operation) [] log (grown.subset finished)

/-- Every disorderly step leads out of the discipline. Witness: the handler or the iteration
it begins, or the iteration that it comes in the middle of, ends with an operation.
-/
theorem breaks_of_not_orderly {s next : State Score}
    (reached : (machine Score 1).Reachable s) {action : Action Score}
    (taken : (machine Score 1).step s action = some next) (disorderly : ¬ Orderly s action)
    : Breaks next := by
  have step := Step.of_step taken
  cases step with
  | @deliver thread completion pc tag =>
      have kept (finished : .started .finish ∈ s.log)
          : .started .finish ∈ (s.deliver thread completion).log :=
        List.mem_append_left _ finished
      have there : (s.deliver thread completion).workers thread = s.dispatch completion := by
        simp [State.deliver]
      rcases completion with (_ | _) | (_ | message) | (_ | _) | ok | ok
      · have unconnected := not_connected_of_outstanding reached tag
        refine breaks_of_issue (.worker thread .finish) .finish rfl
          (by simp [Server.step, workerStep, there, State.dispatch]; rfl) rfl (Or.inl ?_)
        simpa [State.deliver] using unconnected
      · exact absurd rfl disorderly
      · simp only [Orderly, Classical.not_imp, not_not] at disorderly
        refine (starts_of_willStart thread ?_).breaks (kept disorderly.2)
        simp [there, State.dispatch, disorderly.1, WorkerPc.WillStart]
      · refine (starts_of_willStart thread ?_).breaks (kept (not_not.mp disorderly))
        simp [there, State.dispatch, WorkerPc.WillStart]
      · simp only [Orderly, Classical.not_imp, not_not] at disorderly
        refine (starts_of_willStart thread ?_).breaks (kept disorderly.2)
        simp [there, State.dispatch, WorkerPc.WillStart]
      all_goals exact absurd (by simp [Orderly]) disorderly
  | @finish thread pc =>
      have iterating : (s.finish thread).writer.Iterating := not_not.mp disorderly
      refine (starts_of_iterating iterating).breaks ?_
      simp [State.finish, State.issue]
  | inner =>
      simp only [Orderly, Classical.not_imp, not_not] at disorderly
      refine (starts_of_iterating ?_).breaks disorderly.2
      simp [disorderly.1, WriterPc.Iterating]
  | _ => exact absurd trivial disorderly

-----------------------------------------------------------------------------------------
-- Every orderly run
-----------------------------------------------------------------------------------------

theorem inStream_of_orderly {s : State Score}
    (reached : (machine Score 1).ReachableVia Orderly s)
    : InStream s := by
  induction reached with
  | init =>
      refine ⟨preceded_nil _, preceded_nil _, ?_, ?_, ?_, ?_, ?_⟩
      all_goals simp [machine, WorkerPc.WillStart, WriterPc.Iterating]
  | step before meets taken ih => exact ih.step before.reachable meets (.of_step taken)

theorem eq_of_isFinish {event : Event Score} (finish : isFinish event = true)
    : event = .started .finish := by
  cases event with
  | started operation => cases operation <;> simp_all [isFinish]
  | _ => simp [isFinish] at finish

/-- A log in which nothing is started after Finish has at most one of them. -/
theorem countP_isFinish_le_one {log : List (Event Score)}
    (ordered : Preceded NeedsOpenStream log)
    : log.countP isFinish ≤ 1 := by
  induction log using List.reverseRecOn with
  | nil => simp
  | append_singleton log event ih =>
      have earlier : Preceded NeedsOpenStream log := fun before entry after split =>
        ordered before entry (after ++ [event]) (by simp [split])
      rw [countP_concat]
      cases finish : isFinish event with
      | false => simpa using ih earlier
      | true =>
          obtain rfl := eq_of_isFinish finish
          have none : log.countP isFinish = 0 := by
            apply List.countP_eq_zero.mpr
            intro other member found
            obtain rfl := eq_of_isFinish found
            exact ordered log _ [] rfl member
          simp [none]

/-- A server with one worker keeps the discipline through every orderly run, whatever is
delivered, cancelled or stopped; and the first step that is not orderly already leads out
of it.
-/
theorem streamDiscipline_of_orderly {s : State Score}
    (reached : (machine Score 1).ReachableVia Orderly s)
    : StreamDiscipline s
      ∧ ∀ action next,
          (machine Score 1).step s action = some next → ¬ Orderly s action → Breaks next := by
  have inside := inStream_of_orderly reached
  refine ⟨⟨inside.connected, countP_isFinish_le_one inside.finishLast, inside.finishLast⟩, ?_⟩
  intro action next taken disorderly
  exact breaks_of_not_orderly reached.reachable taken disorderly

/-- A call that is cancelled before its first request. -/
def cancelledCall : List (Action Rat) :=
  [.start, .worker 0 .post, .worker 0 .loop, .worker 0 (.deliver (.connect true)),
    .worker 0 .read, .worker 0 .loop, .cancel, .worker 0 (.deliver (.read none)),
    .worker 0 .finish]

theorem streamDiscipline_of_orderly_cancelledCall
    : ∃ s,
        (machine Rat 1).run cancelledCall = some s
        ∧ .started .finish ∈ s.log
        ∧ StreamDiscipline s
        ∧ ∀ action next,
            (machine Rat 1).step s action = some next
            → ¬ Orderly s action
            → Breaks next := by
  have reached (s : State Rat)
      (ran : ((machine Rat 1).guard Orderly).run cancelledCall = some s)
      : (machine Rat 1).ReachableVia Orderly s :=
    .of_guard ⟨cancelledCall, ran⟩
  exact ⟨_, rfl, by decide, streamDiscipline_of_orderly (reached _ rfl)⟩

/-- A Write fails, its handler starts Finish, and the writer goes on writing. -/
theorem write_started_after_finish
    : ¬ ∀ s, (machine Rat 1).Reachable s → StreamDiscipline s := by
  intro all
  have discipline := all _
    ⟨firstWrite ++ [.worker 0 (.deliver (.write false)), .worker 0 .finish] ++ nextWrite, rfl⟩
  apply discipline.finishLast _ (.started (.write _)) [] rfl
  decide

end RVision.Rpc.Server
