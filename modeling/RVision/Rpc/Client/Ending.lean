import RVision.Rpc.Client.Lockstep
import RVision.Transition.Futures
import RVision.Transition.Threads

/-! A client whose stream has ended. The first failed completion starts Finish, nothing resets
`m_started`, and `call` goes on to accept calls that no one will ever send.
-/

namespace RVision.Rpc.Client

open Transition

variable {Score : Type}

/-- Nothing but the completion of Finish is on its way, and no call can start the stream again.
-/
structure Over (s : State Score) : Prop where
  inFlight : s.inFlight = [.complete] ∨ s.inFlight = []
  started : s.started = true
  starter : ∀ thread, s.callers thread ≠ .starting

/-- What can still be seen of a client that is over: calls that are pushed, and the completion of
Finish.
-/
def Event.Idle : Event Score → Prop
  | .pushed _ | .handled (.complete _) => True
  | _ => False

-----------------------------------------------------------------------------------------
-- Over is for good
-----------------------------------------------------------------------------------------

theorem Over.update {s : State Score} (h : Over s) {thread : Nat} {pc : CallerPc}
    (other : pc ≠ .starting)
    : ∀ caller, Function.update s.callers thread pc caller ≠ .starting :=
  fun caller => forall_pc_update (· ≠ CallerPc.starting) h.starter other caller

/-- The one completion that is left starts nothing. -/
theorem Over.deliver {s : State Score} (h : Over s) {completion : Completion Score}
    (tag : completion.tag ∈ s.inFlight)
    : Over (s.deliver completion)
      ∧ GrowsBy Event.Idle s.log (s.deliver completion).log := by
  rcases h.inFlight with one | none
  · rw [one, List.mem_singleton] at tag
    cases completion <;> cases tag
    refine ⟨⟨.inr ?_, h.started, h.starter⟩, .concat trivial⟩
    simp [State.deliver_complete, State.taken, one, Completion.tag]
  · rw [none] at tag
    cases tag

theorem Over.step {s next : State Score} (h : Over s) {action : Action Score}
    (taken : Client.step s action = some next)
    : Over next ∧ GrowsBy Event.Idle s.log next.log := by
  cases action <;> simp only [Client.step, Option.ite_none_right_eq_some] at taken
  all_goals obtain ⟨guard, effect⟩ := taken
  all_goals obtain rfl := Option.some.inj effect
  case push thread call =>
    exact ⟨⟨h.inFlight, h.started, h.update (by simp)⟩, .concat trivial⟩
  case exchange thread =>
    rw [State.exchange, if_pos h.started]
    exact ⟨⟨h.inFlight, h.started, h.update (by simp)⟩, .refl _⟩
  case startCall thread => exact absurd guard (h.starter thread)
  case deliver completion => exact h.deliver guard.2
  case drain => exact ⟨⟨.inr rfl, h.started, h.starter⟩, .refl _⟩
  all_goals exact ⟨⟨h.inFlight, h.started, h.starter⟩, .refl _⟩

-----------------------------------------------------------------------------------------
-- A started Finish ends the client
-----------------------------------------------------------------------------------------

theorem InPhase.over {s : State Score} {phase : Phase} (h : InPhase s phase)
    (finished : .finish ∈ Client.operations s.log)
    : Over s := by
  have ended : phase = .finishing ∨ phase = .finished := by
    have ops := h.operations
    cases phase with
    | finishing => exact .inl rfl
    | finished => exact .inr rfl
    | unstarted | starting =>
        rw [Phase.Started] at ops
        simp [ops] at finished
    | connecting | writing | reading =>
        obtain ⟨rest, known, _, absent⟩ := ops
        simp [known, absent] at finished
  rcases ended with rfl | rfl
  · exact ⟨.inl h.inFlight, h.started.mpr (by simp), fun thread => by simp [h.starter]⟩
  · exact ⟨.inr h.inFlight, h.started.mpr (by simp), fun thread => by simp [h.starter]⟩

/-- The destructor has joined the processor. -/
def DestroyerPc.Joined : DestroyerPc → Prop
  | .cancelling | .closing | .draining | .gone => True
  | .alive | .notifying | .joining => False

theorem exited_of_joined {s : State Score} (reached : (machine Score).Reachable s)
    (joined : s.destroyer.Joined)
    : s.processor = .exited := by
  refine reached.invariant (motive := fun s => s.destroyer.Joined → s.processor = .exited)
    (by simp [machine, DestroyerPc.Joined]) ?_ joined
  intro s action next _ known taken joined
  replace taken : step s action = some next := taken
  cases action <;> simp only [step, Option.ite_none_right_eq_some] at taken
  all_goals obtain ⟨guard, effect⟩ := taken
  all_goals obtain rfl := Option.some.inj effect
  case exchange thread =>
    unfold State.exchange at joined ⊢
    split at joined <;> split <;> exact known joined
  case push | startCall => exact known joined
  case loop | enter => simp [known joined] at guard
  case deliver completion =>
    rw [(deliver_frame s completion).destroyer] at joined
    simp [known joined] at guard
  case storeShutdown | notifyAll => simp [DestroyerPc.Joined] at joined
  case join => exact guard.2
  all_goals exact known (by simp [guard, DestroyerPc.Joined])

/-- A client that has started Finish is over, also once it is destroyed: Finish is started by a
processor that runs, and then the phases apply.
-/
theorem over_of_finish {s : State Score} (reached : (machine Score).Reachable s)
    (finished : .finish ∈ operations s.log)
    : Over s := by
  refine reached.invariant (motive := fun s => .finish ∈ operations s.log → Over s)
    (by simp [machine, operations]) ?_ finished
  intro s action next reached known taken finished
  by_cases before : .finish ∈ operations s.log
  · exact ((known before).step taken).1
  · -- The step that starts Finish is a delivery, and nothing is delivered to a joined processor.
    have present : next.destroyer ≠ .gone := by
      intro gone
      rcases step_log taken with ⟨completion, _, rfl, _⟩ | ⟨_, events, log, _, _, absent⟩
      · obtain ⟨⟨waiting, _⟩, effect⟩ := Option.ite_none_right_eq_some.mp taken
        obtain rfl := Option.some.inj effect
        have same : s.destroyer = .gone := (deliver_frame s completion).destroyer.symm.trans gone
        have exited := exited_of_joined reached (same ▸ trivial)
        rw [exited] at waiting
        cases waiting
      · rw [log, mem_operations_iff, List.mem_append] at finished
        exact finished.elim (fun old => before (mem_operations_iff.mpr old)) absent
    obtain ⟨phase, h⟩ := exists_inPhase (reached.step taken) present
    exact h.over finished

-----------------------------------------------------------------------------------------
-- The calls that are made to it
-----------------------------------------------------------------------------------------

/-- An observer who looks for nothing idle sees nothing. -/
theorem filterMap_of_idle {Value : Type} {pick : Event Score → Option Value}
    {events : List (Event Score)} (skips : ∀ event : Event Score, event.Idle → pick event = none)
    (idle : ∀ event ∈ events, event.Idle)
    : events.filterMap pick = [] :=
  List.filterMap_eq_nil_iff.mpr (fun event member => skips event (idle event member))

/-- Once Finish was started, by whichever failure, the rest of every run starts no operation and
hands nothing to the callback: all calls made from then on, from any thread, are accepted and
stay in `m_calls`, behind those that were there.
-/
theorem calls_stay_queued {s final : State Score} {actions : List (Action Score)}
    (reached : (machine Score).Reachable s) (finished : .finish ∈ operations s.log)
    (ran : (machine Score).runFrom s actions = some final)
    : ∃ later,
        final.log = s.log ++ later
        ∧ operations later = []
        ∧ handedLines later = []
        ∧ final.calls = s.calls ++ pushedCalls later := by
  obtain ⟨-, later, log, idle⟩ := Machine.runFrom_growsBy Over State.log
    (fun _ _ _ known taken => known.step taken) (over_of_finish reached finished) ran
  have unwritten : writtenRequests later = [] :=
    filterMap_of_idle (fun event quiet => by cases event <;> first | rfl | cases quiet) idle
  have written : writtenRequests (s.log ++ later)
      = writtenRequests s.log ++ writtenRequests later :=
    List.filterMap_append
  have pushed : pushedCalls (s.log ++ later) = pushedCalls s.log ++ pushedCalls later :=
    List.filterMap_append
  refine ⟨later, log, ?_, ?_, ?_⟩
  · exact filterMap_of_idle (fun event quiet => by cases event <;> first | rfl | cases quiet) idle
  · exact filterMap_of_idle (fun event quiet => by cases event <;> first | rfl | cases quiet) idle
  · have before := (MessageStreams.invariant reached).requests
    have after := (MessageStreams.invariant (reached.runFrom ran)).requests
    rw [log, written, unwritten, List.append_nil, pushed, ← before, List.append_assoc] at after
    exact List.append_cancel_left after

/-- A connection that fails, and two calls from two threads after it. -/
def failedStart : List (Action Rat) :=
  [.push 0 (5, ["football"]), .exchange 0, .startCall 0, .loop, .enter,
    .deliver (.start false)]

def laterCalls : List (Action Rat) :=
  [.push 1 (7, ["soccer"]), .loop, .enter, .deliver (.complete true),
    .push 0 (1, ["baseball"]), .exchange 1, .exchange 0]

theorem calls_stay_queued_failedStart
    : ∃ s final later,
        (machine Rat).run failedStart = some s
        ∧ .finish ∈ operations s.log
        ∧ (machine Rat).runFrom s laterCalls = some final
        ∧ final.log = s.log ++ later
        ∧ operations later = []
        ∧ final.calls = [(5, ["football"]), (7, ["soccer"]), (1, ["baseball"])]
        ∧ final.calls = s.calls ++ pushedCalls later := by
  have finished : (.finish : Operation) ∈ [.startCall, .finish] := by simp
  obtain ⟨later, log, unstarted, _, queued⟩ :=
    calls_stay_queued ⟨failedStart, rfl⟩ finished
      (show (machine Rat).runFrom _ laterCalls = some _ from rfl)
  exact ⟨_, _, later, rfl, finished, rfl, log, unstarted, rfl, queued⟩

end RVision.Rpc.Client
