import RVision.Rpc.Client.Lockstep

/-! The destruction of a client. An operation in flight ends only with the server's help, and
until then its tag is not in the completion queue; `~client` joins the processor before it
cancels the call and shuts the queue down.
-/

namespace RVision.Rpc.Client

open Transition

variable {Score : Type}

/-- A client together with its completion queue: what `m_cq.Next` returns next comes first.
-/
structure QueuedClient (Score : Type) where
  client : State Score := {}
  ready : List (Completion Score) := []

/-- The actions of the client, with the deliveries replaced by the two ends of the queue:
an operation ends, by the server or the network, and `m_cq.Next` returns.
-/
inductive QueuedAction (Score : Type)
  | client (action : Action Score)
  | ended (completion : Completion Score)
  | next
deriving DecidableEq, Repr

/-- An operation ends once; the destructor's last loop takes whatever is left. -/
def queuedStep (s : QueuedClient Score) : QueuedAction Score → Option (QueuedClient Score)
  | .ended completion =>
      if (s.ready.map Completion.tag).count completion.tag
          < s.client.inFlight.count completion.tag then
        some { s with ready := s.ready ++ [completion] }
      else
        none
  | .next =>
      match s.ready with
      | [] => none
      | completion :: rest =>
          (step s.client (.deliver completion)).map (fun client => { client, ready := rest })
  | .client (.deliver _) => none
  | .client .drain =>
      (step s.client .drain).map (fun client => { client, ready := [] })
  | .client action => (step s.client action).map (fun client => { s with client })

def queuedMachine (Score : Type) : Machine (QueuedClient Score) (QueuedAction Score) where
  init := {}
  step := queuedStep

/-- The steps of the processor and of the destructor: no call is made and no operation ends.
-/
def QueuedAction.own : QueuedAction Score → Bool
  | .next => true
  | .ended _ => false
  | .client action =>
      match action with
      | .push _ _ | .exchange _ | .startCall _ => false
      | _ => true

/-- The destructor waits in `m_processor.join()`, the processor in `m_cq.Next`, and nothing
that the client does by itself gets the processor out.
-/
structure Stuck (s : QueuedClient Score) : Prop where
  joining : s.client.destroyer = .joining
  waiting : s.client.processor = .waiting
  forever
    : ∀ tail later,
        (∀ action ∈ tail, QueuedAction.own action = true)
        → (queuedMachine Score).runFrom s tail = some later
        → later.client.processor = .waiting

/-- The processor has passed its test of `m_shutdown` since the last completion. -/
def ProcessorPc.Committed : ProcessorPc → Prop
  | .entering | .waiting => True
  | .looping | .exited => False

instance (pc : ProcessorPc) : Decidable pc.Committed :=
  match pc with
  | .entering | .waiting => .isTrue trivial
  | .looping | .exited => .isFalse id

/-- Destruction begins only where the processor is neither in `m_cq.Next` nor on its way there,
or where a completion is there for it to take.
-/
def Unblocked (s : QueuedClient Score) : QueuedAction Score → Prop
  | .client .storeShutdown => s.client.processor.Committed → s.ready ≠ []
  | _ => True

instance (s : QueuedClient Score) (action : QueuedAction Score)
    : Decidable (Unblocked s action) :=
  match action with
  | .ended _ | .next => inferInstanceAs (Decidable True)
  | .client .storeShutdown => inferInstanceAs (Decidable (_ → ¬ _))
  | .client (.push _ _) | .client (.exchange _) | .client (.startCall _)
  | .client .loop | .client .enter | .client (.deliver _) | .client .notifyAll
  | .client .join | .client .cancel | .client .shutdownQueue | .client .drain =>
      inferInstanceAs (Decidable True)

-----------------------------------------------------------------------------------------
-- The steps of a client with its queue
-----------------------------------------------------------------------------------------

inductive QueuedStep (s : QueuedClient Score)
    : QueuedAction Score → QueuedClient Score → Prop
  | ended {completion}
    (running : (s.ready.map Completion.tag).count completion.tag
      < s.client.inFlight.count completion.tag)
    : QueuedStep s (.ended completion) { s with ready := s.ready ++ [completion] }
  | next {completion rest} (first : s.ready = completion :: rest)
    (waiting : s.client.processor = .waiting) (tag : completion.tag ∈ s.client.inFlight)
    : QueuedStep s .next { client := s.client.deliver completion, ready := rest }
  | drain {client} (taken : step s.client .drain = some client)
    : QueuedStep s (.client .drain) { client, ready := [] }
  | client {action client} (other : ∀ completion, action ≠ .deliver completion)
    (present : action ≠ .drain) (taken : step s.client action = some client)
    : QueuedStep s (.client action) { s with client }

theorem QueuedStep.of_step {s next : QueuedClient Score} {action : QueuedAction Score}
    (taken : queuedStep s action = some next)
    : QueuedStep s action next := by
  cases action with
  | ended completion =>
      obtain ⟨running, effect⟩ := Option.ite_none_right_eq_some.mp taken
      obtain rfl := Option.some.inj effect
      exact .ended running
  | next =>
      simp only [queuedStep] at taken
      split at taken
      · cases taken
      · rename_i completion rest first
        obtain ⟨client, moved, rfl⟩ := Option.map_eq_some_iff.mp taken
        obtain ⟨guard, effect⟩ := Option.ite_none_right_eq_some.mp moved
        obtain rfl := Option.some.inj effect
        exact .next first guard.1 guard.2
  | client action =>
      cases action with
      | deliver completion => cases taken
      | drain =>
          obtain ⟨client, moved, rfl⟩ := Option.map_eq_some_iff.mp taken
          exact .drain moved
      | _ =>
          obtain ⟨client, moved, rfl⟩ := Option.map_eq_some_iff.mp taken
          exact .client (by simp) (by simp) moved

/-- The queue decides only when a completion is delivered: its client is a client. -/
theorem client_reachable {s : QueuedClient Score}
    (reached : (queuedMachine Score).Reachable s)
    : (machine Score).Reachable s.client := by
  apply reached.project QueuedClient.client Machine.reachable_init
  intro s action next taken
  cases QueuedStep.of_step taken with
  | ended _ => exact Or.inl rfl
  | next _ waiting tag => exact Or.inr ⟨.deliver _, if_pos ⟨waiting, tag⟩⟩
  | drain moved => exact Or.inr ⟨.drain, moved⟩
  | client _ _ moved => exact Or.inr ⟨_, moved⟩

-----------------------------------------------------------------------------------------
-- What is in the queue was started
-----------------------------------------------------------------------------------------

/-- Every tag in the queue is one of an operation that was started and not yet handled. -/
def Started (s : QueuedClient Score) : Prop :=
  ∀ tag, (s.ready.map Completion.tag).count tag ≤ s.client.inFlight.count tag

/-- Apart from a delivery and the last loop of the destructor, a step of the client ends no
operation.
-/
theorem inFlight_le_of_step {s next : State Score} {action : Action Score}
    (taken : step s action = some next) (other : ∀ completion, action ≠ .deliver completion)
    (present : action ≠ .drain) (tag : CallStatus)
    : s.inFlight.count tag ≤ next.inFlight.count tag := by
  cases action <;> simp only [step, Option.ite_none_right_eq_some] at taken
  all_goals obtain ⟨guard, effect⟩ := taken
  all_goals obtain rfl := Option.some.inj effect
  case deliver completion => exact absurd rfl (other completion)
  case drain => exact absurd rfl present
  case exchange thread => unfold State.exchange; split <;> exact le_rfl
  case startCall thread => simp [State.startCall, State.issue, List.count_append]
  all_goals exact le_rfl

/-- A delivery takes its tag out of the queue and out of what is in flight. -/
theorem Started.next {s : QueuedClient Score} (h : Started s) {completion : Completion Score}
    {rest : List (Completion Score)} (first : s.ready = completion :: rest)
    : Started { client := s.client.deliver completion, ready := rest } := by
  intro tag
  obtain ⟨events, _, _, inFlight⟩ := deliver_reaction s.client completion
  have before := h tag
  rw [first, List.map_cons, List.count_cons] at before
  have after : (s.client.inFlight.erase completion.tag).count tag
      ≤ (s.client.deliver completion).inFlight.count tag := by
    rw [inFlight, List.count_append]
    exact Nat.le_add_right _ _
  rw [List.count_erase] at after
  change (rest.map Completion.tag).count tag ≤ (s.client.deliver completion).inFlight.count tag
  omega

theorem Started.step {s next : QueuedClient Score} (h : Started s)
    {action : QueuedAction Score} (taken : QueuedStep s action next)
    : Started next := by
  cases taken with
  | @ended completion running =>
      intro tag
      have before := h tag
      by_cases same : completion.tag = tag
      · subst tag
        simp only [List.map_append, List.count_append, List.map_cons, List.map_nil,
          List.count_singleton_self]
        omega
      · simpa [List.count_append, List.count_singleton, same] using before
  | next first _ _ => exact h.next first
  | drain _ => simp [Started]
  | client other present moved =>
      exact fun tag => (h tag).trans (inFlight_le_of_step moved other present tag)

-----------------------------------------------------------------------------------------
-- A processor with a completion to take gets out
-----------------------------------------------------------------------------------------

/-- From `m_shutdown` being set until the queue is drained, a processor in `m_cq.Next` or on its
way there has a completion to take.
-/
def GetsOut (s : QueuedClient Score) : Prop :=
  s.client.shutdown = true
  → s.client.destroyer ≠ .gone
  → s.client.processor.Committed
  → s.ready ≠ []

/-- Without a delivery the processor passes its test only before `m_shutdown` is set, and only
the destructor sets it.
-/
theorem committed_of_step {s next : State Score} {action : Action Score}
    (taken : step s action = some next) (other : ∀ completion, action ≠ .deliver completion)
    (down : next.shutdown = true) (committed : next.processor.Committed)
    : s.processor.Committed ∧ (s.shutdown = true ∨ action = .storeShutdown) := by
  cases action <;> simp only [step, Option.ite_none_right_eq_some] at taken
  all_goals obtain ⟨guard, effect⟩ := taken
  all_goals obtain rfl := Option.some.inj effect
  case deliver completion => exact absurd rfl (other completion)
  case exchange thread =>
    unfold State.exchange at down committed
    split at down <;> simp_all
  case loop =>
    replace down : s.shutdown = true := down
    simp [down, ProcessorPc.Committed] at committed
  case enter => exact ⟨by simp [guard, ProcessorPc.Committed], Or.inl down⟩
  case storeShutdown => exact ⟨committed, Or.inr rfl⟩
  all_goals exact ⟨committed, Or.inl down⟩

theorem GetsOut.step {s next : QueuedClient Score} (h : GetsOut s)
    {action : QueuedAction Score} (unblocked : Unblocked s action)
    (taken : QueuedStep s action next)
    : GetsOut next := by
  intro down present committed
  cases taken with
  | ended _ => simp
  | @next completion rest _ _ _ =>
      -- A handler returns to the top of the loop.
      have looping := (deliver_frame s.client completion).processor
      rw [looping] at committed
      exact committed.elim
  | drain moved =>
      obtain ⟨_, effect⟩ := Option.ite_none_right_eq_some.mp moved
      obtain rfl := Option.some.inj effect
      exact absurd rfl present
  | client other _ moved =>
      obtain ⟨before, set⟩ := committed_of_step moved other down committed
      rcases set with already | rfl
      · exact h already (fun gone => present (step_gone moved gone)) before
      · exact unblocked before

/-- What the processor needs to take the first completion. -/
theorem queuedStep_next {s : QueuedClient Score} (started : Started s)
    (waiting : s.client.processor = .waiting) {completion : Completion Score}
    {rest : List (Completion Score)} (first : s.ready = completion :: rest)
    : queuedStep s .next
      = some { client := s.client.deliver completion, ready := rest } := by
  have tag : completion.tag ∈ s.client.inFlight := by
    have counted := started completion.tag
    rw [first, List.map_cons, List.count_cons_self] at counted
    exact List.count_pos_iff.mp (by omega)
  simp [queuedStep, first, step, waiting, tag]

/-- Where the processor has a completion to take, nothing is stuck. -/
theorem not_stuck_of_ready {s : QueuedClient Score} (started : Started s)
    (nonempty : s.ready ≠ [])
    : ¬ Stuck s := by
  intro stuck
  obtain ⟨completion, rest, first⟩ := List.exists_cons_of_ne_nil nonempty
  have taken := queuedStep_next started stuck.waiting first
  have still := stuck.forever [.next] _ (by simp [QueuedAction.own])
    (Option.bind_eq_some_iff.mpr ⟨_, taken, rfl⟩)
  rw [(deliver_frame s.client completion).processor] at still
  cases still

/-- Where it has none, neither it nor the destructor can take a step. -/
theorem stuck_of_not_ready {s : QueuedClient Score} (joining : s.client.destroyer = .joining)
    (waiting : s.client.processor = .waiting) (empty : s.ready = [])
    : Stuck s := by
  have blocked (action : QueuedAction Score) (own : action.own = true)
      : queuedStep s action = none := by
    cases action with
    | ended completion => cases own
    | next => simp [queuedStep, empty]
    | client action =>
        cases action <;> simp_all [queuedStep, step, QueuedAction.own]
  refine ⟨joining, waiting, ?_⟩
  intro tail later own ran
  cases tail with
  | nil =>
      obtain rfl := Option.some.inj ran
      exact waiting
  | cons action rest =>
      obtain ⟨next, taken, _⟩ := Option.bind_eq_some_iff.mp ran
      have none := blocked action (own action List.mem_cons_self)
      rw [show queuedStep s action = some next from taken] at none
      cases none

-----------------------------------------------------------------------------------------
-- Every run that begins destruction unblocked
-----------------------------------------------------------------------------------------

theorem getsOut_of_unblocked {s : QueuedClient Score}
    (reached : (queuedMachine Score).ReachableVia Unblocked s)
    : Started s ∧ GetsOut s := by
  induction reached with
  | init => exact ⟨by simp [Started, queuedMachine], by simp [GetsOut, queuedMachine]⟩
  | step before meets taken ih =>
      have moved := QueuedStep.of_step taken
      exact ⟨ih.1.step moved, ih.2.step meets moved⟩

/-- With nothing to take, a processor past its test gets stuck in `m_cq.Next` when the
destructor goes on to its join.
-/
theorem exists_stuck {s : QueuedClient Score} (notifying : s.client.destroyer = .notifying)
    (committed : s.client.processor.Committed) (empty : s.ready = [])
    : ∃ tail later,
        (∀ action ∈ tail, QueuedAction.own action = true)
        ∧ (queuedMachine Score).runFrom s tail = some later
        ∧ Stuck later := by
  let stuck : QueuedClient Score :=
    { s with client := { s.client with processor := .waiting, destroyer := .joining } }
  have there : Stuck stuck := stuck_of_not_ready rfl rfl empty
  cases pc : s.client.processor with
  | looping | exited => simp [pc, ProcessorPc.Committed] at committed
  | entering =>
      refine ⟨[.client .enter, .client .notifyAll], stuck, by simp [QueuedAction.own], ?_, there⟩
      simp [Machine.runFrom, queuedMachine, queuedStep, step, notifying, pc, stuck]
  | waiting =>
      refine ⟨[.client .notifyAll], stuck, by simp [QueuedAction.own], ?_, there⟩
      simp [Machine.runFrom, queuedMachine, queuedStep, step, notifying, ← pc, stuck]

/-- A client whose destruction begins while its processor is neither in `m_cq.Next` nor on its
way there, or has a completion to take, is never stuck, whatever the server does; and where it
begins otherwise, the client can get stuck by its own next steps.
-/
theorem not_stuck_of_unblocked {s : QueuedClient Score}
    (reached : (queuedMachine Score).ReachableVia Unblocked s)
    : ¬ Stuck s
      ∧ ∀ action next,
          (queuedMachine Score).step s action = some next
          → ¬ Unblocked s action
          → ∃ tail later,
              (∀ action ∈ tail, QueuedAction.own action = true)
              ∧ (queuedMachine Score).runFrom next tail = some later
              ∧ Stuck later := by
  obtain ⟨started, getsOut⟩ := getsOut_of_unblocked reached
  refine ⟨?_, ?_⟩
  · intro stuck
    have down : s.client.shutdown = true := by
      by_contra running
      have alive := alive_of_not_shutdown (client_reachable reached.reachable)
        (Bool.not_eq_true _ ▸ running)
      rw [stuck.joining] at alive
      cases alive
    have present : s.client.destroyer ≠ .gone := by simp [stuck.joining]
    have committed : s.client.processor.Committed := stuck.waiting ▸ trivial
    exact not_stuck_of_ready started (getsOut down present committed) stuck
  · intro action next taken blocked
    cases QueuedStep.of_step taken with
    | ended | next | drain => exact absurd trivial blocked
    | @client action client _ _ moved =>
        cases action with
        | storeShutdown =>
            simp only [Unblocked, Classical.not_imp, not_not] at blocked
            obtain ⟨committed, empty⟩ := blocked
            obtain ⟨_, effect⟩ := Option.ite_none_right_eq_some.mp moved
            obtain rfl := Option.some.inj effect
            exact exists_stuck rfl committed empty
        | _ => exact absurd trivial blocked

/-- A client that is destroyed when the answer to its first call is in the queue, and its
processor is past its test and not yet in `m_cq.Next`.
-/
def answeredLife : List (QueuedAction Rat) :=
  [.client (.push 0 (5, ["football"])), .client (.exchange 0), .client (.startCall 0),
    .client .loop, .ended (.start true), .client .storeShutdown, .client .notifyAll,
    .client .enter, .next, .client .loop, .client .join, .client .cancel,
    .client .shutdownQueue, .client .drain]

theorem not_stuck_of_unblocked_answeredLife
    : ∃ s,
        (queuedMachine Rat).run answeredLife = some s
        ∧ s.client.destroyer = .gone
        ∧ ¬ Stuck s
        ∧ ∀ action next,
            (queuedMachine Rat).step s action = some next
            → ¬ Unblocked s action
            → ∃ tail later,
                (∀ action ∈ tail, QueuedAction.own action = true)
                ∧ (queuedMachine Rat).runFrom next tail = some later
                ∧ Stuck later := by
  have reached (s : QueuedClient Rat)
      (ran : ((queuedMachine Rat).guard Unblocked).run answeredLife = some s)
      : (queuedMachine Rat).ReachableVia Unblocked s :=
    .of_guard ⟨answeredLife, ran⟩
  exact ⟨_, rfl, rfl, not_stuck_of_unblocked (reached _ rfl)⟩

/-- A client that never makes a call cannot be destroyed. -/
theorem stuck_without_call
    : ¬ ∀ s, (queuedMachine Rat).Reachable s → ¬ Stuck s := by
  intro all
  refine all _
    ⟨[.client .loop, .client .enter, .client .storeShutdown, .client .notifyAll], rfl⟩ ?_
  exact stuck_of_not_ready rfl rfl rfl

end RVision.Rpc.Client
