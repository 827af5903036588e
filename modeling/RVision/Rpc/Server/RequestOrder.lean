import RVision.Rpc.Server.SingleFlight

/-! On one connection the requests are checked one by one in the order in which they were
read, so what is accepted depends on the requests alone.
-/

namespace RVision.Rpc.Server

open Transition

variable {Score : Type}

/-- The requests that successful reads have delivered, oldest first. -/
def deliveredRequests (log : List (Event Score)) : List SportsLinesRequest :=
  log.filterMap (fun event => match event with
    | .delivered (.read (some message)) => some message
    | _ => none)

/-- The request that an action delivers. -/
def Action.request : Action Score → List SportsLinesRequest
  | .worker _ (.deliver (.read (some message))) => [message]
  | _ => []

theorem Step.delivered {s next : State Score} {action : Action Score}
    (taken : Step s action next)
    : deliveredRequests next.log = deliveredRequests s.log ++ action.request := by
  cases taken with
  | @deliver thread completion =>
      rcases completion with _ | (_ | message) | _ | _ | _ <;>
        simp [State.deliver, deliveredRequests, Action.request]
  | accept | callback | write | read | finish =>
      simp [State.accept, State.callback, State.write, State.read, State.finish, State.issue,
        deliveredRequests, Action.request]
  | _ => exact (List.append_nil _).symm

/-- The requests that `check_request` accepts when it remembers `known` and they come one by
one.
-/
def effectiveFrom (known : SportsLinesRequest)
    : List SportsLinesRequest → List SportsLinesRequest
  | [] => []
  | message :: rest =>
      if Subscription.Differs known message then
        message :: effectiveFrom message rest
      else
        effectiveFrom known rest

/-- The requests that a new server accepts. -/
def effective (messages : List SportsLinesRequest) : List SportsLinesRequest :=
  effectiveFrom {} messages

/-- What is remembered after `messages`. -/
def rememberedFrom (known : SportsLinesRequest) (messages : List SportsLinesRequest)
    : SportsLinesRequest :=
  (effectiveFrom known messages).getLastD known

/-- Later requests are compared with what the earlier ones have left. -/
theorem effectiveFrom_append (known : SportsLinesRequest)
    (head tail : List SportsLinesRequest)
    : effectiveFrom known (head ++ tail)
      = effectiveFrom known head ++ effectiveFrom (rememberedFrom known head) tail := by
  induction head generalizing known with
  | nil => rfl
  | cons message rest ih =>
      simp only [List.cons_append, effectiveFrom, rememberedFrom]
      split_ifs with differs
      · rw [List.getLastD_cons, List.cons_append]
        exact congrArg (message :: ·) (ih message)
      · exact ih known

theorem effectiveFrom_sublist (known : SportsLinesRequest) (messages : List SportsLinesRequest)
    : (effectiveFrom known messages).Sublist messages := by
  induction messages generalizing known with
  | nil => exact .slnil
  | cons message rest ih =>
      simp only [effectiveFrom]
      split_ifs
      · exact (ih message).cons_cons message
      · exact (ih known).cons message

theorem effective_grows {head messages : List SportsLinesRequest}
    (before : head <+: messages)
    : effective head <+: effective messages := by
  obtain ⟨tail, rfl⟩ := before
  exact ⟨_, (effectiveFrom_append {} head tail).symm⟩

theorem effective_concat_of_differs {messages : List SportsLinesRequest}
    {message : SportsLinesRequest}
    (differs : Subscription.Differs (rememberedFrom {} messages) message)
    : effective (messages ++ [message]) = effective messages ++ [message] := by
  simp [effective, effectiveFrom_append, effectiveFrom, differs]

theorem effective_concat_of_not_differs {messages : List SportsLinesRequest}
    {message : SportsLinesRequest}
    (same : ¬ Subscription.Differs (rememberedFrom {} messages) message)
    : effective (messages ++ [message]) = effective messages := by
  simp [effective, effectiveFrom_append, effectiveFrom, same]

/-- Nothing is accepted exactly when nothing differs from the default message. -/
theorem effective_eq_nil_iff {messages : List SportsLinesRequest}
    : effective messages = []
      ↔ ∀ message ∈ messages, ¬ Subscription.Differs {} message := by
  unfold effective
  induction messages with
  | nil => simp [effectiveFrom]
  | cons message rest ih =>
      simp only [effectiveFrom, List.forall_mem_cons]
      split_ifs with differs
      · simp [differs]
      · simp [differs, ih]

/-- `checked` are the requests that have gone through `check_request`: all that were
delivered, or all but the one that a worker is about to check.
-/
structure InOrder (s : State Score) (checked : List SportsLinesRequest) : Prop where
  accepted : acceptedMessages s.log = effective checked
  remembered : s.subscription.lastReq = rememberedFrom {} checked
  delivered
    : ((∀ thread, s.workers thread ≠ .checking) ∧ deliveredRequests s.log = checked)
      ∨ ((∃ thread, s.workers thread = .checking)
        ∧ deliveredRequests s.log = checked ++ [s.subscription.request])

/-- A step that checks nothing and delivers no request. -/
theorem InOrder.frame {s t : State Score} {checked : List SportsLinesRequest}
    (h : InOrder s checked)
    (log : acceptedMessages t.log = acceptedMessages s.log
      ∧ deliveredRequests t.log = deliveredRequests s.log)
    (known : t.subscription.lastReq = s.subscription.lastReq
      ∧ t.subscription.request = s.subscription.request)
    (checking : (∃ thread, t.workers thread = .checking)
      ↔ ∃ thread, s.workers thread = .checking)
    : InOrder t checked := by
  refine ⟨log.1.trans h.accepted, known.1.trans h.remembered, ?_⟩
  have idle : (∀ thread, t.workers thread ≠ .checking)
      ↔ ∀ thread, s.workers thread ≠ .checking := by
    simpa only [not_exists] using not_congr checking
  rw [log.2, known.2, checking, idle]
  exact h.delivered

/-- On one connection at most one worker is in a handler that will end with a Read. -/
theorem eq_of_willRead {threads : Nat} {s : State Score}
    (reached : (machine Score threads).Reachable s) (single : s.log.countP isConnected ≤ 1)
    {left right : Nat} (here : (s.workers left).willRead = true)
    (there : (s.workers right).willRead = true)
    : left = right := by
  have known := threadsKnown_of_reachable reached
  have reads := reads_le_connections reached
  have inside {thread : Nat} (will : (s.workers thread).willRead = true)
      : thread < s.threads := by
    rw [known.size]
    refine known.inside thread (fun absent => ?_)
    simp [absent, WorkerPc.willRead] at will
  exact eq_of_tally_le_one (by omega) (inside here) (inside there) here there

/-- After the only worker that was checking has moved on, nobody is checking. -/
theorem not_checking_update {threads : Nat} {s : State Score}
    (reached : (machine Score threads).Reachable s) (single : s.log.countP isConnected ≤ 1)
    {thread : Nat} (pc : s.workers thread = .checking) {new : WorkerPc}
    (left : new ≠ .checking) (worker : Nat)
    : Function.update s.workers thread new worker ≠ .checking := by
  intro here
  by_cases same : worker = thread
  · subst worker
    simp [left] at here
  · rw [Function.update_of_ne same] at here
    exact same (eq_of_willRead reached single (by simp [here, WorkerPc.willRead])
      (by simp [pc, WorkerPc.willRead]))

/-- A Read that is outstanding is the only one, so no worker is checking. -/
theorem not_checking_of_outstanding {threads : Nat} {s : State Score}
    (reached : (machine Score threads).Reachable s) (single : s.log.countP isConnected ≤ 1)
    (outstanding : .read ∈ s.outstanding) (thread : Nat)
    : s.workers thread ≠ .checking := by
  have reads := reads_le_connections reached
  have known := threadsKnown_of_reachable reached
  have positive := List.count_pos_iff.mpr outstanding
  intro here
  have inside : thread < s.threads := by
    rw [known.size]
    exact known.inside thread (by simp [here])
  have counted : 0 < tally s.threads WorkerPc.willRead s.workers :=
    tally_pos_iff.mpr ⟨thread, inside, by simp [here, WorkerPc.willRead]⟩
  omega

/-- While a worker checks a message, that message is the last one delivered. -/
theorem InOrder.delivered_of_checking {s : State Score} {checked : List SportsLinesRequest}
    (h : InOrder s checked) {thread : Nat} (pc : s.workers thread = .checking)
    : deliveredRequests s.log = checked ++ [s.subscription.request] := by
  rcases h.delivered with ⟨idle, _⟩ | ⟨_, all⟩
  · exact absurd pc (idle thread)
  · exact all

/-- What is accepted was read. -/
theorem InOrder.mem_delivered {s : State Score} {checked : List SportsLinesRequest}
    (h : InOrder s checked) {message : SportsLinesRequest}
    (member : message ∈ acceptedMessages s.log)
    : message ∈ deliveredRequests s.log := by
  rw [h.accepted] at member
  have inside : message ∈ checked := (effectiveFrom_sublist {} checked).mem member
  rcases h.delivered with ⟨_, all⟩ | ⟨_, all⟩
  · exact all ▸ inside
  · exact all ▸ List.mem_append_left _ inside

/-- A completion without a message leaves the requests and the checking alone. -/
theorem deliver_unread (s : State Score) (thread : Nat) {completion : Completion}
    (unread : ∀ message, completion ≠ .read (some message))
    : s.received completion = s.subscription
      ∧ s.dispatch completion ≠ .checking
      ∧ deliveredRequests (s.deliver thread completion).log = deliveredRequests s.log := by
  rcases completion with (_ | _) | (_ | request) | (_ | _) | ok | ok
  case read.some => exact absurd rfl (unread request)
  case read.none =>
    refine ⟨rfl, ?_, by simp [State.deliver, deliveredRequests]⟩
    cases cancelled : s.cancelled <;> simp [State.dispatch, cancelled]
  all_goals
    exact ⟨rfl, by simp [State.dispatch], by simp [State.deliver, deliveredRequests]⟩

theorem InOrder.step {threads : Nat} {s next : State Score}
    (reached : (machine Score threads).Reachable s) (single : s.log.countP isConnected ≤ 1)
    {checked : List SportsLinesRequest} (h : InOrder s checked) {action : Action Score}
    (taken : Step s action next)
    : ∃ checked, InOrder next checked := by
  cases taken with
  | start fresh =>
      have absent := (untouched_of_reachable reached fresh).workers
      refine ⟨checked, h.frame ⟨rfl, rfl⟩ ⟨rfl, rfl⟩ ?_⟩
      simp only [State.start, absent]
      constructor
      · intro checking
        obtain ⟨thread, here⟩ := checking
        split at here <;> cases here
      · simp
  | loop pc =>
      exact ⟨checked, h.frame ⟨rfl, rfl⟩ ⟨rfl, rfl⟩
        (exists_pc_update_iff (by simp [pc]) (by split <;> simp))⟩
  | post pc | queueEnd pc | storeChanged pc | notifyOne pc =>
      exact ⟨checked, h.frame ⟨rfl, rfl⟩ ⟨rfl, rfl⟩
        (exists_pc_update_iff (by simp [pc]) (by simp))⟩
  | read pc | finish pc =>
      refine ⟨checked, h.frame ?_ ⟨rfl, rfl⟩
        (exists_pc_update_iff (by simp [pc]) (by simp))⟩
      simp [State.read, State.finish, State.issue, acceptedMessages, deliveredRequests]
  | @deliver thread completion pc tag =>
      have accepted : acceptedMessages (s.deliver thread completion).log
          = acceptedMessages s.log := by
        simp [State.deliver, acceptedMessages]
      by_cases message : ∃ message, completion = .read (some message)
      · obtain ⟨message, rfl⟩ := message
        have idle := not_checking_of_outstanding reached single tag
        have before : deliveredRequests s.log = checked := by
          rcases h.delivered with ⟨_, all⟩ | ⟨⟨worker, here⟩, _⟩
          · exact all
          · exact absurd here (idle worker)
        refine ⟨checked, accepted.trans h.accepted, h.remembered, Or.inr ⟨⟨thread, ?_⟩, ?_⟩⟩
        · simp [State.deliver, State.dispatch]
        · rw [← before]
          simp [State.deliver, State.received, deliveredRequests]
      · obtain ⟨same, elsewhere, delivered⟩ :=
          deliver_unread s thread (fun request here => message ⟨request, here⟩)
        exact ⟨checked, h.frame ⟨accepted, delivered⟩
          ⟨congrArg Subscription.lastReq same, congrArg Subscription.request same⟩
          (exists_pc_update_iff (by simp [pc]) elsewhere)⟩
  | @accept thread pc differs =>
      have before := h.delivered_of_checking pc
      rw [h.remembered] at differs
      have grown := effective_concat_of_differs differs
      refine ⟨checked ++ [s.subscription.request], ?_, ?_, Or.inl ⟨?_, ?_⟩⟩
      · rw [grown, ← h.accepted]
        exact acceptedMessages_accept s thread
      · rw [effective] at grown
        simp [State.accept, rememberedFrom, grown]
      · exact not_checking_update reached single pc (by simp)
      · rw [← before]
        simp [State.accept, deliveredRequests]
  | @reject thread pc same =>
      have before := h.delivered_of_checking pc
      rw [h.remembered] at same
      have kept := effective_concat_of_not_differs same
      refine ⟨checked ++ [s.subscription.request], ?_, ?_, Or.inl ⟨?_, before⟩⟩
      · rw [kept, ← h.accepted]
        rfl
      · rw [effective, effective] at kept
        rw [rememberedFrom, kept]
        exact h.remembered
      · exact not_checking_update reached single pc (by simp)
  | callback | write =>
      refine ⟨checked, h.frame ?_ ⟨rfl, rfl⟩ Iff.rfl⟩
      simp [State.callback, State.write, State.issue, acceptedMessages, deliveredRequests]
  | _ => exact ⟨checked, h.frame ⟨rfl, rfl⟩ ⟨rfl, rfl⟩ Iff.rfl⟩

/-- In every run with one connection the requests are checked in order. -/
theorem exists_inOrder {threads : Nat} {s : State Score}
    (reached : (machine Score threads).Reachable s) (single : s.log.countP isConnected ≤ 1)
    : ∃ checked, InOrder s checked := by
  refine reached.invariant
    (motive := fun s => s.log.countP isConnected ≤ 1 → ∃ checked, InOrder s checked) ?_ ?_
    single
  · exact fun _ => ⟨[], rfl, rfl, Or.inl ⟨by simp [machine], rfl⟩⟩
  · intro s action next before known taken still
    have grown : s.log.countP isConnected ≤ next.log.countP isConnected :=
      (Step.of_step taken).log_grows.sublist.countP_le
    obtain ⟨checked, h⟩ := known (grown.trans still)
    exact h.step before (grown.trans still) (.of_step taken)

end RVision.Rpc.Server
