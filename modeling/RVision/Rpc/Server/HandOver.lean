import RVision.Rpc.Server.History

/-! The hand-over of a subscription from the reader to the writer. The reader stores the
request and then the flag; the writer takes the flag and then copies the request. No step in
between can lose, tear or anticipate a subscription.
-/

namespace RVision.Rpc.Server

open Transition

variable {Score : Type}

/-- The writer's locals are those of one accepted request. -/
def UsesAccepted (s : State Score) : Prop :=
  ∃ message ∈ acceptedMessages s.log,
    s.period = message.pollingPeriod ∧ s.sports = message.sports

/-- The writer's locals are those of `m_last_req`. -/
def UsesLast (s : State Score) : Prop :=
  s.period = s.subscription.lastReq.pollingPeriod
  ∧ s.sports = s.subscription.lastReq.sports

/-- The writer has passed its wait and is not between its exchange and its copy. -/
def WriterPc.Serving : WriterPc → Prop
  | .inner | .exchanging | .calling _ | .writing => True
  | _ => False

/-- Every call of the score callback follows the acceptance of the request it serves. -/
def ServesAccepted (event : Event Score) (before : List (Event Score)) : Prop :=
  match event with
  | .invoked invocation =>
      ∃ message,
        .accepted message ∈ before
        ∧ invocation.period = message.pollingPeriod
        ∧ invocation.sports = message.sports
  | _ => True

/-- The data and the flag in every intermediate state of both threads. -/
structure HandOver (s : State Score) : Prop where
  last : acceptedMessages s.log ≠ [] → s.subscription.lastReq ∈ acceptedMessages s.log
  flagged : s.subscription.changed = true → acceptedMessages s.log ≠ []
  storing : (∃ thread, s.workers thread = .storing) → acceptedMessages s.log ≠ []
  copying : s.writer = .copying → acceptedMessages s.log ≠ [] ∧ s.sports = []
  choosing
    : s.writer = .inner ∨ s.writer = .exchanging
      → s.subscription.changed = true ∨ UsesAccepted s
  serving : (∃ changed, s.writer = .calling changed) ∨ s.writer = .writing → UsesAccepted s
  settled
    : acceptedMessages s.log ≠ []
      → (∀ thread, s.workers thread ≠ .storing)
      → s.writer ≠ .copying
      → s.subscription.changed = false
      → s.writer.Serving ∧ UsesLast s
  invoked : Preceded ServesAccepted s.log

/-- Later requests leave the writer with the one it serves. -/
theorem UsesAccepted.kept {s t : State Score} (h : UsesAccepted s)
    (accepted : acceptedMessages s.log <+: acceptedMessages t.log)
    (locals : t.period = s.period ∧ t.sports = s.sports)
    : UsesAccepted t := by
  obtain ⟨message, member, period, sports⟩ := h
  exact ⟨message, accepted.mem member, locals.1.trans period, locals.2.trans sports⟩

/-- Entries of the log that are neither acceptances nor calls of the callback. -/
def Event.Silent : Event Score → Prop
  | .delivered _ | .started _ => True
  | _ => False

theorem acceptedMessages_silent (log : List (Event Score)) {event : Event Score}
    (silent : event.Silent)
    : acceptedMessages (log ++ [event]) = acceptedMessages log := by
  cases event <;> simp_all [acceptedMessages, Event.Silent]

/-- What a step of a thread leaves alone when it takes no part in the hand-over. -/
structure Aside (s t : State Score) : Prop where
  accepted : acceptedMessages t.log = acceptedMessages s.log
  ordered : Preceded ServesAccepted s.log → Preceded ServesAccepted t.log
  lastReq : t.subscription.lastReq = s.subscription.lastReq
  changed : t.subscription.changed = s.subscription.changed
  locals : t.period = s.period ∧ t.sports = s.sports
  writer : t.writer = s.writer ∨ (s.writer = .parked ∧ t.writer = .testing)
  storing
    : (∃ thread, t.workers thread = .storing) ↔ ∃ thread, s.workers thread = .storing

theorem HandOver.aside {s t : State Score} (h : HandOver s) (aside : Aside s t)
    : HandOver t := by
  have uses : UsesAccepted t ↔ UsesAccepted s := by
    simp only [UsesAccepted, aside.accepted, aside.locals]
  have usesLast : UsesLast t ↔ UsesLast s := by
    simp only [UsesLast, aside.lastReq, aside.locals]
  have quiet : (∀ thread, t.workers thread ≠ .storing)
      → ∀ thread, s.workers thread ≠ .storing := by
    intro none thread here
    obtain ⟨other, there⟩ := aside.storing.mpr ⟨thread, here⟩
    exact none other there
  refine ⟨?_, ?_, ?_, ?_, ?_, ?_, ?_, aside.ordered h.invoked⟩
  · rw [aside.accepted, aside.lastReq]
    exact h.last
  · rw [aside.changed, aside.accepted]
    exact h.flagged
  · rw [aside.storing, aside.accepted]
    exact h.storing
  all_goals rcases aside.writer with same | ⟨parked, testing⟩
  · rw [same, aside.accepted, aside.locals.2]
    exact h.copying
  · simp [testing]
  · rw [same, aside.changed, uses]
    exact h.choosing
  · simp [testing]
  · rw [same, uses]
    exact h.serving
  · simp [testing]
  · rw [aside.accepted, same, aside.changed, usesLast]
    exact fun accepted none => h.settled accepted (quiet none)
  · -- A writer that was blocked has served nobody, so a flag must still be up.
    rw [aside.accepted, aside.changed]
    intro accepted none _ unchanged
    have done := h.settled accepted (quiet none) (by simp [parked]) unchanged
    simp [parked, WriterPc.Serving] at done

/-- A log that grows by a silent entry, or not at all, records the same hand-overs. -/
theorem silent_log (log grown : List (Event Score))
    (growth : grown = log ∨ ∃ event, event.Silent ∧ grown = log ++ [event])
    : acceptedMessages grown = acceptedMessages log
      ∧ (Preceded ServesAccepted log → Preceded ServesAccepted grown) := by
  rcases growth with rfl | ⟨event, silent, rfl⟩
  · exact ⟨rfl, id⟩
  · refine ⟨acceptedMessages_silent log silent, fun ordered => ordered.concat ?_⟩
    cases event <;> simp_all [Event.Silent, ServesAccepted]

/-- Deliveries, rejections, notifications and new reads take no part in the hand-over. -/
theorem Step.worker_aside {s next : State Score} {thread : Nat} {action : WorkerAction}
    (taken : Step s (.worker thread action) next)
    (other : action ≠ .storeChanged)
    : Aside s next ∨ (s.workers thread = .checking ∧ next = s.accept thread) := by
  cases taken with
  | post pc | queueEnd pc | reject pc =>
      exact Or.inl ⟨rfl, id, rfl, rfl, ⟨rfl, rfl⟩, Or.inl rfl,
        exists_pc_update_iff (by simp [pc]) (by simp)⟩
  | loop pc =>
      exact Or.inl ⟨rfl, id, rfl, rfl, ⟨rfl, rfl⟩, Or.inl rfl,
        exists_pc_update_iff (by simp [pc]) (by split <;> simp)⟩
  | @deliver _ completion pc =>
      have log := silent_log s.log (s.deliver thread completion).log
        (Or.inr ⟨.delivered completion, trivial, rfl⟩)
      have elsewhere : s.dispatch completion ≠ .storing := by
        unfold State.dispatch
        split <;> simp
        split <;> simp
      refine Or.inl ⟨log.1, log.2, ?_, ?_, ⟨rfl, rfl⟩, Or.inl rfl,
        exists_pc_update_iff (by simp [pc]) elsewhere⟩
      · simp only [State.deliver, State.received]
        split <;> rfl
      · simp only [State.deliver, State.received]
        split <;> rfl
  | accept pc => exact Or.inr ⟨pc, rfl⟩
  | storeChanged => exact absurd rfl other
  | notifyOne pc =>
      exact Or.inl ⟨rfl, id, rfl, rfl, ⟨rfl, rfl⟩, wake_eq s,
        exists_pc_update_iff (by simp [pc]) (by simp)⟩
  | read pc =>
      have log := silent_log s.log (s.read thread).log
        (Or.inr ⟨.started .read, trivial, rfl⟩)
      exact Or.inl ⟨log.1, log.2, rfl, rfl, ⟨rfl, rfl⟩, Or.inl rfl,
        exists_pc_update_iff (by simp [pc]) (by simp)⟩
  | finish pc =>
      have log := silent_log s.log (s.finish thread).log
        (Or.inr ⟨.started .finish, trivial, rfl⟩)
      exact Or.inl ⟨log.1, log.2, rfl, rfl, ⟨rfl, rfl⟩, Or.inl rfl,
        exists_pc_update_iff (by simp [pc]) (by simp)⟩

/-- So does `stop`, which at most wakes the writer. -/
theorem Step.stop_aside {s next : State Score} {action : StopAction}
    (taken : Step s (.stop action) next)
    : Aside s next := by
  have writer : next.writer = s.writer ∨ (s.writer = .parked ∧ next.writer = .testing) := by
    cases taken <;> first | exact Or.inl rfl | exact wake_eq s
  cases taken <;> exact ⟨rfl, id, rfl, rfl, ⟨rfl, rfl⟩, writer, Iff.rfl⟩

/-- An accepted request is the last one, and its flag is still to be stored. -/
theorem HandOver.accept {s : State Score} (h : HandOver s) (thread : Nat)
    : HandOver (s.accept thread) := by
  have accepted := acceptedMessages_accept s thread
  have nonempty : acceptedMessages (s.accept thread).log ≠ [] := by simp [accepted]
  have uses (used : UsesAccepted s) : UsesAccepted (s.accept thread) :=
    used.kept (accepted ▸ List.prefix_append _ _) ⟨rfl, rfl⟩
  refine ⟨?_, fun _ => nonempty, fun _ => nonempty, ?_, ?_, ?_, ?_, ?_⟩
  · intro _
    rw [accepted]
    simp [State.accept]
  · exact fun pc => ⟨nonempty, (h.copying pc).2⟩
  · exact fun pc => (h.choosing pc).imp_right uses
  · exact fun pc => uses (h.serving pc)
  · intro _ quiet
    exact absurd (by simp [State.accept]) (quiet thread)
  · exact h.invoked.concat trivial

/-- The flag goes up after its request was accepted. -/
theorem HandOver.storeChanged {s : State Score} (h : HandOver s) {thread : Nat}
    (pc : s.workers thread = .storing)
    : HandOver (s.storeChanged thread) := by
  have nonempty : acceptedMessages s.log ≠ [] := h.storing ⟨thread, pc⟩
  refine ⟨h.last, fun _ => nonempty, fun _ => nonempty, h.copying, fun _ => Or.inl rfl,
    h.serving, ?_, h.invoked⟩
  intro _ _ _ unchanged
  simp [State.storeChanged] at unchanged

/-- The steps of the writer that happen before it serves a request. -/
theorem HandOver.waiting {s t : State Score} (h : HandOver s)
    (left : ¬ s.writer.Serving ∧ s.writer ≠ .copying)
    (entered : ¬ t.writer.Serving ∧ t.writer ≠ .copying)
    (same : t.log = s.log ∧ t.subscription = s.subscription ∧ t.workers = s.workers)
    : HandOver t := by
  obtain ⟨log, subscription, workers⟩ := same
  refine ⟨?_, ?_, ?_, fun pc => absurd pc entered.2, ?_, ?_, ?_, ?_⟩
  · rw [log, subscription]
    exact h.last
  · rw [log, subscription]
    exact h.flagged
  · rw [log, workers]
    exact h.storing
  · intro here
    rcases here with pc | pc <;> simp [pc, WriterPc.Serving] at entered
  · intro here
    rcases here with ⟨changed, pc⟩ | pc <;> simp [pc, WriterPc.Serving] at entered
  · rw [log, subscription, workers]
    intro accepted quiet _ unchanged
    exact absurd (h.settled accepted quiet left.2 unchanged).1 left.1
  · rw [log]
    exact h.invoked

/-- The writer goes round its loop with the locals it has. -/
theorem HandOver.stay {s t : State Score} (h : HandOver s)
    (left : s.writer.Serving) (entered : t.writer = .inner ∨ t.writer = .exchanging)
    (used : s.subscription.changed = true ∨ UsesAccepted s)
    (accepted : acceptedMessages t.log = acceptedMessages s.log)
    (same : t.subscription = s.subscription ∧ t.workers = s.workers
      ∧ t.period = s.period ∧ t.sports = s.sports)
    (ordered : Preceded ServesAccepted t.log)
    : HandOver t := by
  obtain ⟨subscription, workers, period, sports⟩ := same
  have serving : t.writer.Serving := by
    rcases entered with pc | pc <;> simp [pc, WriterPc.Serving]
  have notCopying : s.writer ≠ .copying := by
    intro pc
    simp [pc, WriterPc.Serving] at left
  have uses : UsesAccepted t ↔ UsesAccepted s := by
    simp only [UsesAccepted, accepted, period, sports]
  have usesLast : UsesLast t ↔ UsesLast s := by
    simp only [UsesLast, subscription, period, sports]
  refine ⟨?_, ?_, ?_, ?_, ?_, ?_, ?_, ordered⟩
  · rw [accepted, subscription]
    exact h.last
  · rw [accepted, subscription]
    exact h.flagged
  · rw [accepted, workers]
    exact h.storing
  · intro pc
    simp [pc, WriterPc.Serving] at serving
  · intro _
    rw [subscription, uses]
    exact used
  · intro serving
    rcases serving with ⟨changed, pc⟩ | pc <;>
      rcases entered with here | here <;> simp [here] at pc
  · rw [accepted, subscription, workers, usesLast]
    exact fun nonempty quiet _ unchanged =>
      ⟨serving, (h.settled nonempty quiet notCopying unchanged).2⟩

/-- The wait is over: the flag is up, and the locals are fresh. -/
theorem HandOver.pass {s : State Score} (h : HandOver s)
    (changed : s.subscription.changed = true)
    : HandOver { s with writer := .inner, sports := [], period := 0 } := by
  refine ⟨h.last, h.flagged, h.storing, by simp, fun _ => Or.inl changed, by simp, ?_,
    h.invoked⟩
  intro _ _ _ unchanged
  rw [show s.subscription.changed = false from unchanged] at changed
  cases changed

/-- Between exchange and copy the flag is down and the old locals are dropped. -/
theorem HandOver.takeFlag {s : State Score} (h : HandOver s)
    (changed : s.subscription.changed = true)
    : HandOver s.takeFlag := by
  have nonempty : acceptedMessages s.log ≠ [] := h.flagged changed
  refine ⟨h.last, by simp [State.takeFlag], h.storing, fun _ => ⟨nonempty, rfl⟩, by simp,
    by simp, ?_, h.invoked⟩
  intro _ _ notCopying
  exact absurd rfl notCopying

/-- The flag was down at the exchange, so the locals are those of an earlier copy. -/
theorem HandOver.missFlag {s : State Score} (h : HandOver s) (pc : s.writer = .exchanging)
    (unchanged : s.subscription.changed = false)
    : HandOver { s with writer := .calling false } := by
  have used : UsesAccepted s := by
    rcases h.choosing (Or.inr pc) with changed | used
    · rw [unchanged] at changed
      cases changed
    · exact used
  refine ⟨h.last, h.flagged, h.storing, by simp, by simp, fun _ => used, ?_, h.invoked⟩
  intro nonempty quiet _ _
  exact ⟨trivial, (h.settled nonempty quiet (by simp [pc]) unchanged).2⟩

/-- The copy takes period and sports of one request, the last one accepted. -/
theorem HandOver.copy {s : State Score} (h : HandOver s) (pc : s.writer = .copying)
    : HandOver s.adopt := by
  obtain ⟨nonempty, cleared⟩ := h.copying pc
  have last : UsesLast s.adopt := by
    simp [UsesLast, State.adopt, cleared]
  have used : UsesAccepted s.adopt :=
    ⟨s.subscription.lastReq, h.last nonempty, last.1, last.2⟩
  refine ⟨h.last, h.flagged, h.storing, by simp, by simp, fun _ => used, ?_, h.invoked⟩
  exact fun _ _ _ _ => ⟨trivial, last⟩

theorem mem_acceptedMessages {log : List (Event Score)} {message : SportsLinesRequest}
    : message ∈ acceptedMessages log ↔ .accepted message ∈ log := by
  simp only [acceptedMessages, List.mem_filterMap]
  constructor
  · intro member
    obtain ⟨event, inside, found⟩ := member
    cases event <;> simp at found
    exact found ▸ inside
  · exact fun inside => ⟨_, inside, rfl⟩

/-- The request that the writer serves was accepted before the call. -/
theorem UsesAccepted.callback_ordered {s : State Score} (used : UsesAccepted s)
    (ordered : Preceded ServesAccepted s.log) {changed : Bool} {lines : List (String × Score)}
    : Preceded ServesAccepted (s.callback changed lines).log := by
  obtain ⟨message, member, period, sports⟩ := used
  exact ordered.concat ⟨message, mem_acceptedMessages.mp member, period, sports⟩

/-- The callback is called with the locals of an accepted request. -/
theorem HandOver.callback {s : State Score} (h : HandOver s) {changed : Bool}
    (pc : s.writer = .calling changed) (lines : List (String × Score))
    : HandOver (s.callback changed lines) := by
  have used : UsesAccepted s := h.serving (Or.inl ⟨changed, pc⟩)
  have accepted := acceptedMessages_callback s changed lines
  refine ⟨?_, ?_, ?_, by simp, by simp, ?_, ?_, ?_⟩
  · rw [accepted]
    exact h.last
  · rw [accepted]
    exact h.flagged
  · rw [accepted]
    exact h.storing
  · exact fun _ => used.kept (by rw [accepted]) ⟨rfl, rfl⟩
  · rw [accepted]
    exact fun nonempty quiet _ unchanged =>
      ⟨trivial, (h.settled nonempty quiet (by simp [pc]) unchanged).2⟩
  · exact used.callback_ordered h.invoked

/-- With an empty log and the flag down there is nothing to hand over. -/
theorem handOver_of_untouched {s : State Score} (log : s.log = [])
    (unchanged : s.subscription.changed = false)
    (quiet : ∀ thread, s.workers thread ≠ .storing)
    (writer : ¬ s.writer.Serving ∧ s.writer ≠ .copying)
    : HandOver s := by
  have none : acceptedMessages s.log = [] := by simp [log, acceptedMessages]
  refine ⟨?_, ?_, ?_, ?_, ?_, ?_, ?_, ?_⟩
  · exact fun nonempty => absurd none nonempty
  · simp [unchanged]
  · intro storing
    obtain ⟨thread, pc⟩ := storing
    exact absurd pc (quiet thread)
  · exact fun pc => absurd pc writer.2
  · intro here
    rcases here with pc | pc <;> simp [pc, WriterPc.Serving] at writer
  · intro here
    rcases here with ⟨changed, pc⟩ | pc <;> simp [pc, WriterPc.Serving] at writer
  · exact fun nonempty => absurd none nonempty
  · rw [log]
    exact preceded_nil _

/-- Every step before shutdown keeps the hand-over, by cases on the transition. -/
theorem HandOver.step {s next : State Score} (h : HandOver s)
    (fresh : s.built = false → Untouched s) {action : Action Score}
    (taken : Step s action next) (running : next.shutdown = false)
    : HandOver next := by
  have up := taken.shutdown_mono running
  cases action with
  | worker thread action =>
      by_cases stores : action = .storeChanged
      · subst action
        cases taken with
        | storeChanged pc => exact h.storeChanged pc
      · rcases taken.worker_aside stores with aside | ⟨_, rfl⟩
        · exact h.aside aside
        · exact h.accept thread
  | start =>
      cases taken with
      | start unbuilt =>
          have before := fresh unbuilt
          refine handOver_of_untouched before.log ?_ ?_ ?_
          · simp [State.start, before.subscription]
          · intro thread
            simp only [State.start]
            split <;> simp
          · simp [State.start, WriterPc.Serving]
  | cancel =>
      cases taken
      exact h.aside ⟨rfl, id, rfl, rfl, ⟨rfl, rfl⟩, Or.inl rfl, Iff.rfl⟩
  | writer action =>
      cases taken with
      | outer pc | refuse pc | park pc =>
          exact h.waiting (by simp [pc, WriterPc.Serving])
            (by simp [up, WriterPc.Serving]) ⟨rfl, rfl, rfl⟩
      | pass pc ready => exact h.pass (ready.resolve_left (by simp [up]))
      | inner pc =>
          exact h.stay (by simp [pc, WriterPc.Serving]) (Or.inr (by simp [up]))
            (h.choosing (Or.inl pc)) rfl ⟨rfl, rfl, rfl, rfl⟩ h.invoked
      | takeFlag pc changed => exact h.takeFlag changed
      | missFlag pc unchanged => exact h.missFlag pc unchanged
      | copy pc => exact h.copy pc
      | @callback changed lines pc => exact h.callback pc lines
      | write pc =>
          have log := silent_log s.log s.write.log
            (Or.inr ⟨.started (.write s.response), trivial, rfl⟩)
          exact h.stay (by simp [pc, WriterPc.Serving]) (Or.inl rfl)
            (Or.inr (h.serving (Or.inr pc))) log.1 ⟨rfl, rfl, rfl, rfl⟩ (log.2 h.invoked)
  | stop action => exact h.aside taken.stop_aside

theorem handOver_of_reachable {threads : Nat} {s : State Score}
    (reached : (machine Score threads).Reachable s) (running : s.shutdown = false)
    : HandOver s := by
  refine reached.invariant (motive := fun s => s.shutdown = false → HandOver s)
    (fun _ => handOver_of_untouched rfl rfl (by simp [machine])
      (by simp [machine, WriterPc.Serving])) ?_ running
  intro s action next before known taken still
  have step := Step.of_step taken
  exact (known (step.shutdown_mono still)).step
    (untouched_of_reachable before) step still

-----------------------------------------------------------------------------------------
-- Every changed iteration is paid for by an accepted request
-----------------------------------------------------------------------------------------

/-- How many calls of the callback were made with `changed = true`. -/
def changedInvocations (log : List (Event Score)) : Nat :=
  (invocations log).countP (·.changed)

/-- The writer has taken a flag and not yet called the callback for it. -/
def WriterPc.holdsFlag : WriterPc → Bool
  | .copying | .calling true => true
  | _ => false

/-- The worker has accepted a request and not yet raised the flag for it. -/
def WorkerPc.owesFlag : WorkerPc → Bool
  | .storing => true
  | _ => false

/-- Flags on their way from the reader to the callback, wherever they are, come from
different accepted requests.
-/
def FlagsPaid (s : State Score) : Prop :=
  changedInvocations s.log + s.writer.holdsFlag.toNat + s.subscription.changed.toNat
    + tally s.threads WorkerPc.owesFlag s.workers
  ≤ (acceptedMessages s.log).length

theorem wake_holdsFlag (s : State Score) : s.wake.holdsFlag = s.writer.holdsFlag := by
  rcases wake_eq s with same | ⟨parked, testing⟩
  · rw [same]
  · rw [parked, testing]
    rfl

/-- A worker that neither enters nor leaves its store owes what it owed. -/
theorem FlagsPaid.move {s t : State Score} {threads : Nat} (h : FlagsPaid s)
    (known : ThreadsKnown threads s) {thread : Nat} {old new : WorkerPc}
    (pc : s.workers thread = old) (present : old ≠ .absent)
    (owes : old.owesFlag = false ∧ new.owesFlag = false)
    (workers : t.threads = s.threads ∧ t.workers = Function.update s.workers thread new)
    (log : changedInvocations t.log = changedInvocations s.log
      ∧ acceptedMessages t.log = acceptedMessages s.log)
    (flags : t.writer.holdsFlag = s.writer.holdsFlag
      ∧ t.subscription.changed = s.subscription.changed)
    : FlagsPaid t := by
  have moved := known.tally_move WorkerPc.owesFlag pc present new
  simp only [owes, Bool.toNat_false, Nat.add_zero] at moved
  unfold FlagsPaid at h ⊢
  rw [workers.1, workers.2, moved, log.1, log.2, flags.1, flags.2]
  exact h

/-- A step of the writer or of `stop` moves no flag of a worker. -/
theorem FlagsPaid.trade {s t : State Score} (h : FlagsPaid s)
    (workers : t.threads = s.threads ∧ t.workers = s.workers)
    (accepted : acceptedMessages t.log = acceptedMessages s.log)
    (flags : changedInvocations t.log + t.writer.holdsFlag.toNat
        + t.subscription.changed.toNat
      ≤ changedInvocations s.log + s.writer.holdsFlag.toNat
        + s.subscription.changed.toNat)
    : FlagsPaid t := by
  unfold FlagsPaid at h ⊢
  rw [workers.1, workers.2, accepted]
  omega

theorem changedInvocations_silent (log : List (Event Score)) {event : Event Score}
    (silent : event.Silent)
    : changedInvocations (log ++ [event]) = changedInvocations log := by
  cases event <;> simp_all [changedInvocations, invocations, Event.Silent]

/-- Each step pays for the flags it moves. -/
theorem FlagsPaid.step {s next : State Score} {threads : Nat} (h : FlagsPaid s)
    (known : ThreadsKnown threads s) (fresh : s.built = false → Untouched s)
    {action : Action Score} (taken : Step s action next)
    : FlagsPaid next := by
  cases taken with
  | start unbuilt =>
      have before := fresh unbuilt
      have none : tally s.start.threads WorkerPc.owesFlag s.start.workers = 0 := by
        apply tally_eq_zero
        intro thread
        simp only [State.start]
        split <;> rfl
      unfold FlagsPaid
      rw [none]
      simp [State.start, before.log, before.subscription, changedInvocations, invocations,
        WriterPc.holdsFlag]
  | post pc | queueEnd pc | reject pc =>
      exact h.move known pc (by simp) ⟨rfl, rfl⟩ ⟨rfl, rfl⟩ ⟨rfl, rfl⟩ ⟨rfl, rfl⟩
  | loop pc =>
      exact h.move known pc (by simp) ⟨rfl, by split <;> rfl⟩ ⟨rfl, rfl⟩ ⟨rfl, rfl⟩
        ⟨rfl, rfl⟩
  | @deliver _ completion pc =>
      have elsewhere : (s.dispatch completion).owesFlag = false := by
        unfold State.dispatch
        split <;> try rfl
        split <;> rfl
      refine h.move known pc (by simp) ⟨rfl, elsewhere⟩ ⟨rfl, rfl⟩
        ⟨changedInvocations_silent s.log trivial, acceptedMessages_silent s.log trivial⟩
        ⟨rfl, ?_⟩
      simp only [State.deliver, State.received]
      split <;> rfl
  | notifyOne pc =>
      exact h.move known pc (by simp) ⟨rfl, rfl⟩ ⟨rfl, rfl⟩ ⟨rfl, rfl⟩
        ⟨wake_holdsFlag s, rfl⟩
  | read pc | finish pc =>
      exact h.move known pc (by simp) ⟨rfl, rfl⟩ ⟨rfl, rfl⟩
        ⟨changedInvocations_silent s.log trivial, acceptedMessages_silent s.log trivial⟩
        ⟨rfl, rfl⟩
  | @accept thread pc =>
      -- The one step that adds an accepted request also adds a debt.
      have moved := known.tally_move WorkerPc.owesFlag pc (by simp) .storing
      simp only [WorkerPc.owesFlag, Bool.toNat_false, Bool.toNat_true] at moved
      have silent : changedInvocations (s.accept thread).log = changedInvocations s.log := by
        simp [State.accept, changedInvocations, invocations]
      unfold FlagsPaid at h ⊢
      rw [silent, acceptedMessages_accept, List.length_append, List.length_singleton]
      simp only [State.accept]
      omega
  | @storeChanged thread pc =>
      have moved := known.tally_move WorkerPc.owesFlag pc (by simp) .notifying
      simp only [WorkerPc.owesFlag, Bool.toNat_false, Bool.toNat_true] at moved
      unfold FlagsPaid at h ⊢
      simp only [State.storeChanged, Bool.toNat_true]
      omega
  | takeFlag pc changed =>
      refine h.trade ⟨rfl, rfl⟩ rfl ?_
      simp [State.takeFlag, WriterPc.holdsFlag, pc, changed]
  | copy pc =>
      refine h.trade ⟨rfl, rfl⟩ rfl ?_
      simp [State.adopt, WriterPc.holdsFlag, pc]
  | @callback changed lines pc =>
      refine h.trade ⟨rfl, rfl⟩ (acceptedMessages_callback s changed lines) ?_
      cases changed <;>
        simp [State.callback, changedInvocations, invocations, WriterPc.holdsFlag, pc]
  | write pc =>
      refine h.trade ⟨rfl, rfl⟩ (acceptedMessages_silent s.log trivial) ?_
      have silent : changedInvocations s.write.log = changedInvocations s.log :=
        changedInvocations_silent s.log trivial
      rw [silent]
      simp [State.write, State.issue, WriterPc.holdsFlag]
  | outer pc | inner pc =>
      refine h.trade ⟨rfl, rfl⟩ rfl ?_
      split_ifs <;> simp [WriterPc.holdsFlag]
  | pass pc | refuse pc | park pc | missFlag pc =>
      refine h.trade ⟨rfl, rfl⟩ rfl ?_
      simp [WriterPc.holdsFlag]
  | notifyAll pc =>
      refine h.trade ⟨rfl, rfl⟩ rfl ?_
      simp [wake_holdsFlag]
  | _ => exact h

theorem flagsPaid_of_reachable {threads : Nat} {s : State Score}
    (reached : (machine Score threads).Reachable s)
    : FlagsPaid s := by
  apply reached.invariant (motive := FlagsPaid)
  · have none : tally threads WorkerPc.owesFlag (fun _ => .absent) = 0 :=
      tally_eq_zero threads (fun _ => rfl)
    simp [FlagsPaid, machine, changedInvocations, invocations, WriterPc.holdsFlag, none]
  · intro s action next before paid taken
    exact paid.step (threadsKnown_of_reachable before) (untouched_of_reachable before)
      (.of_step taken)

-----------------------------------------------------------------------------------------
-- The hand-over as a whole
-----------------------------------------------------------------------------------------

/-- No subscription is served before it was accepted, torn, lost or served as changed twice:
each call of the callback follows the acceptance of the one request whose period and sports
it uses; a settled writer uses the last request; and changed calls are at most as many as
accepted requests.
-/
structure SafeHandOver (s : State Score) : Prop where
  served : Preceded ServesAccepted s.log
  settled
    : acceptedMessages s.log ≠ []
      → (∀ thread, s.workers thread ≠ .storing)
      → s.writer ≠ .copying
      → s.subscription.changed = false
      → s.period = s.subscription.lastReq.pollingPeriod
        ∧ s.sports = s.subscription.lastReq.sports
  paid : changedInvocations s.log ≤ (acceptedMessages s.log).length

/-- For every sequence of requests and every interleaving before shutdown, with any number
of workers, the hand-over is safe.
-/
theorem safeHandOver_of_reachable {threads : Nat} {s : State Score}
    (reached : (machine Score threads).Reachable s) (running : s.shutdown = false)
    : SafeHandOver s := by
  have handOver := handOver_of_reachable reached running
  have paid := flagsPaid_of_reachable reached
  refine ⟨handOver.invoked, ?_, ?_⟩
  · exact fun accepted quiet left unchanged =>
      (handOver.settled accepted quiet left unchanged).2
  · unfold FlagsPaid at paid
    omega

/-- One request, accepted while the writer waits, is copied and served. -/
def serveOneRequest : List (Action Rat) :=
  [.start, .writer .outer, .worker 0 .post, .worker 0 .loop,
    .worker 0 (.deliver (.connect true)), .worker 0 .read, .worker 0 .loop,
    .worker 0 (.deliver (.read (some { pollingPeriod := 5, sports := ["football"] }))),
    .worker 0 .checkRequest, .worker 0 .storeChanged, .writer .test, .writer .inner,
    .writer .exchange, .worker 0 .notifyOne, .writer .copy,
    .writer (.callback [("football", 3)])]

theorem safeHandOver_serveOneRequest
    : ∃ s,
        (machine Rat 1).run serveOneRequest = some s
        ∧ changedInvocations s.log = 1
        ∧ s.period = 5
        ∧ SafeHandOver s := by
  have reached (s : State Rat) (ran : (machine Rat 1).run serveOneRequest = some s)
      : (machine Rat 1).Reachable s :=
    ⟨serveOneRequest, ran⟩
  exact ⟨_, rfl, rfl, rfl, safeHandOver_of_reachable (reached _ rfl) rfl⟩

end RVision.Rpc.Server
