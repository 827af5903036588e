import RVision.Lines.Provider.Readiness
import RVision.Transition.Lock
import RVision.Transition.Logs
import RVision.Transition.Threads

/-! The `ready` endpoint of the application. Any number of HTTP threads run
`http_ready_callback` while pollers change the cache; readiness is tested outside `m_lock`,
the RPC server is created and started inside it.
-/

namespace RVision.App

open Transition Lines.Provider

variable {Score : Type}

/-- The status of a response, 200 or 425. -/
inductive HttpStatus
  | ok
  | tooEarly
deriving DecidableEq, Repr

/-- `m_rpc_server`. -/
inductive RpcServer
  | unset
  | created
  | started
deriving DecidableEq, Repr

/-- Where an execution of `http_ready_callback` is. The state is read once for the log
message and once more for the test.
-/
inductive CallbackPc
  | idle
  | logging
  | testing
  | locking
  | checking
  | starting
  | unlocking
  | answering (status : HttpStatus)
  | returned
deriving DecidableEq, Repr

/-- The execution holds `m_lock`. -/
def CallbackPc.inside : CallbackPc → Bool
  | .checking | .starting | .unlocking => true
  | _ => false

inductive AppEvent
  | began (callback : Nat)
  | created
  | started
  | answered (callback : Nat) (status : HttpStatus)
deriving DecidableEq, Repr

structure AppState (Score : Type) where
  provider : ProviderState Score
  rpcServer : RpcServer := .unset
  lock : Option Nat := none
  callbacks : Nat → CallbackPc := fun _ => .idle
  log : List AppEvent := []

inductive AppAction (Score : Type)
  | provider (action : ProviderAction Score)
  | callback (id : Nat)
deriving DecidableEq, Repr

namespace AppState

/-- The execution goes on to `pc`. -/
def goto (s : AppState Score) (id : Nat) (pc : CallbackPc) : AppState Score :=
  { s with callbacks := Function.update s.callbacks id pc }

/-- The next step of an execution of `http_ready_callback`. The HTTP server starts after the
provider was constructed; a thread that finds `m_lock` taken waits.
-/
def httpReadyCallback (s : AppState Score) (id : Nat) : Option (AppState Score) :=
  match s.callbacks id with
  | .idle =>
      if s.provider.Constructed then
        some { s.goto id .logging with log := s.log ++ [.began id] }
      else
        none
  | .logging => some (s.goto id .testing)
  | .testing =>
      some (s.goto id
        (if s.provider.provider.state = .ready then .locking else .answering .tooEarly))
  | .locking =>
      if s.lock.isNone then some { s.goto id .checking with lock := some id } else none
  | .checking =>
      if s.rpcServer = .unset then
        some { s.goto id .starting with
          rpcServer := .created, log := s.log ++ [.created] }
      else
        some (s.goto id .unlocking)
  | .starting =>
      some { s.goto id .unlocking with
        rpcServer := .started, log := s.log ++ [.started] }
  | .unlocking => some { s.goto id (.answering .ok) with lock := none }
  | .answering status =>
      some { s.goto id .returned with log := s.log ++ [.answered id status] }
  | .returned => none

end AppState

def appStep [Zero Score] [Sub Score] (base : String) (s : AppState Score)
    : AppAction Score → Option (AppState Score)
  | .provider action => (providerStep base s.provider action).map ({ s with provider := · })
  | .callback id => s.httpReadyCallback id

/-- The application with `sports` configured and `m_address = base`. -/
def appMachine (Score : Type) [Zero Score] [Sub Score] (sports : Sports) (base : String)
    : Machine (AppState Score) (AppAction Score) where
  init := { provider := (providerMachine Score sports base).init }
  step := appStep base

/-- The transitions of an execution with their guards. -/
inductive CallbackStep (s : AppState Score) (id : Nat) : AppState Score → Prop
  | begin (pc : s.callbacks id = .idle) (constructed : s.provider.Constructed)
    : CallbackStep s id { s.goto id .logging with log := s.log ++ [.began id] }
  | logState (pc : s.callbacks id = .logging) : CallbackStep s id (s.goto id .testing)
  | ready (pc : s.callbacks id = .testing) (yes : s.provider.provider.state = .ready)
    : CallbackStep s id (s.goto id .locking)
  | notReady (pc : s.callbacks id = .testing) (no : s.provider.provider.state ≠ .ready)
    : CallbackStep s id (s.goto id (.answering .tooEarly))
  | lock (pc : s.callbacks id = .locking) (free : s.lock = none)
    : CallbackStep s id { s.goto id .checking with lock := some id }
  | create (pc : s.callbacks id = .checking) (unset : s.rpcServer = .unset)
    : CallbackStep s id
        { s.goto id .starting with rpcServer := .created, log := s.log ++ [.created] }
  | alreadyExists (pc : s.callbacks id = .checking) (set : s.rpcServer ≠ .unset)
    : CallbackStep s id (s.goto id .unlocking)
  | start (pc : s.callbacks id = .starting)
    : CallbackStep s id
        { s.goto id .unlocking with rpcServer := .started, log := s.log ++ [.started] }
  | unlock (pc : s.callbacks id = .unlocking)
    : CallbackStep s id { s.goto id (.answering .ok) with lock := none }
  | answer {status : HttpStatus} (pc : s.callbacks id = .answering status)
    : CallbackStep s id
        { s.goto id .returned with log := s.log ++ [.answered id status] }

theorem httpReadyCallback_eq_some {s next : AppState Score} {id : Nat}
    : s.httpReadyCallback id = some next ↔ CallbackStep s id next := by
  constructor
  · intro taken
    cases pc : s.callbacks id with
    | idle =>
        simp only [AppState.httpReadyCallback, pc] at taken
        obtain ⟨constructed, effect⟩ := Option.ite_none_right_eq_some.mp taken
        obtain rfl := Option.some.inj effect
        exact .begin pc constructed
    | logging =>
        simp only [AppState.httpReadyCallback, pc, Option.some.injEq] at taken
        exact taken ▸ .logState pc
    | testing =>
        simp only [AppState.httpReadyCallback, pc, Option.some.injEq] at taken
        subst next
        split_ifs with state
        · exact .ready pc state
        · exact .notReady pc state
    | locking =>
        simp only [AppState.httpReadyCallback, pc] at taken
        obtain ⟨free, effect⟩ := Option.ite_none_right_eq_some.mp taken
        obtain rfl := Option.some.inj effect
        exact .lock pc (Option.isNone_iff_eq_none.mp free)
    | checking =>
        simp only [AppState.httpReadyCallback, pc] at taken
        split_ifs at taken with unset
        · exact Option.some.inj taken ▸ .create pc unset
        · exact Option.some.inj taken ▸ .alreadyExists pc unset
    | starting =>
        simp only [AppState.httpReadyCallback, pc, Option.some.injEq] at taken
        exact taken ▸ .start pc
    | unlocking =>
        simp only [AppState.httpReadyCallback, pc, Option.some.injEq] at taken
        exact taken ▸ .unlock pc
    | answering status =>
        simp only [AppState.httpReadyCallback, pc, Option.some.injEq] at taken
        exact taken ▸ .answer pc
    | returned => simp [AppState.httpReadyCallback, pc] at taken
  · intro step
    cases step with
    | begin pc constructed => simp [AppState.httpReadyCallback, pc, constructed]
    | logState pc => simp [AppState.httpReadyCallback, pc]
    | ready pc yes => simp [AppState.httpReadyCallback, pc, yes]
    | notReady pc no => simp [AppState.httpReadyCallback, pc, no]
    | lock pc free => simp [AppState.httpReadyCallback, pc, free]
    | create pc unset => simp [AppState.httpReadyCallback, pc, unset]
    | alreadyExists pc set => simp [AppState.httpReadyCallback, pc, set]
    | start pc => simp [AppState.httpReadyCallback, pc]
    | unlock pc => simp [AppState.httpReadyCallback, pc]
    | answer pc => simp [AppState.httpReadyCallback, pc]

@[simp] theorem AppState.goto_callbacks (s : AppState Score) (id : Nat) (pc : CallbackPc)
    : (s.goto id pc).callbacks = Function.update s.callbacks id pc := rfl

@[simp] theorem AppState.goto_log (s : AppState Score) (id : Nat) (pc : CallbackPc)
    : (s.goto id pc).log = s.log := rfl

@[simp] theorem AppState.goto_provider (s : AppState Score) (id : Nat) (pc : CallbackPc)
    : (s.goto id pc).provider = s.provider := rfl

-----------------------------------------------------------------------------------------
-- One server
-----------------------------------------------------------------------------------------

/-- The execution has seen the server started. -/
def CallbackPc.served : CallbackPc → Bool
  | .unlocking | .answering .ok => true
  | _ => false

/-- The server is created once, by the execution that goes on to start it inside `m_lock`,
and an execution that leaves the lock leaves a started server behind.
-/
structure OneServer (s : AppState Score) : Prop where
  guarded : Guarded CallbackPc.inside s.lock s.callbacks
  starting : s.rpcServer = .created ↔ ∃ id, s.callbacks id = .starting
  served : ∀ id, (s.callbacks id).served = true → s.rpcServer = .started
  created : s.log.count .created = if s.rpcServer = .unset then 0 else 1
  started : s.rpcServer = .started → .started ∈ s.log

/-- A step that leaves the server alone and neither starts nor serves. -/
theorem OneServer.move {s : AppState Score} (h : OneServer s) {id : Nat} {pc : CallbackPc}
    (notStarting : s.callbacks id ≠ .starting) (notStarted : pc ≠ .starting)
    (served : pc.served = true → s.rpcServer = .started) {lock : Option Nat}
    (guarded : Guarded CallbackPc.inside lock (Function.update s.callbacks id pc))
    {log : List AppEvent} (created : log.count .created = s.log.count .created)
    (grown : s.log <+: log)
    : OneServer { s.goto id pc with lock, log } := by
  refine ⟨guarded, ?_, ?_, ?_, ?_⟩
  · exact h.starting.trans (exists_pc_update_iff notStarting notStarted).symm
  · exact forall_pc_update
      (fun (pc : CallbackPc) => pc.served = true → s.rpcServer = .started) h.served served
  · exact created.trans h.created
  · exact fun started => grown.subset (h.started started)

theorem OneServer.step {s next : AppState Score} {id : Nat} (h : OneServer s)
    (taken : CallbackStep s id next)
    : OneServer next := by
  have same := List.prefix_refl s.log
  have grown (event : AppEvent) := List.prefix_append s.log [event]
  have stays {pc : CallbackPc} (inside : pc.inside = (s.callbacks id).inside)
      : Guarded CallbackPc.inside s.lock (Function.update s.callbacks id pc) :=
    h.guarded.move inside
  cases taken with
  | begin pc _ =>
      exact h.move (by simp [pc]) (by simp) (by simp [CallbackPc.served])
        (stays (by simp [pc, CallbackPc.inside])) (by simp) (grown _)
  | logState pc | ready pc | notReady pc =>
      exact h.move (by simp [pc]) (by simp) (by simp [CallbackPc.served])
        (stays (by simp [pc, CallbackPc.inside])) rfl same
  | lock pc free =>
      exact h.move (by simp [pc]) (by simp) (by simp [CallbackPc.served])
        (h.guarded.acquire free (by simp [CallbackPc.inside])) rfl same
  | create pc unset =>
      -- Nobody was served by a server that does not exist.
      have unserved (other : Nat) : (s.callbacks other).served ≠ true := by
        intro served
        simpa [unset] using h.served other served
      refine ⟨stays (by simp [pc, CallbackPc.inside]), ?_, ?_, ?_, by simp⟩
      · exact iff_of_true rfl ⟨id, by simp⟩
      · exact forall_pc_update
          (fun (pc : CallbackPc) => pc.served = true → RpcServer.created = .started)
          (fun other served => absurd served (unserved other)) (by simp [CallbackPc.served])
      · simp [List.count_append, h.created, unset]
  | alreadyExists pc set =>
      -- Whoever would still have to start it would be inside `m_lock` as well.
      have started : s.rpcServer = .started := by
        cases server : s.rpcServer with
        | unset => exact absurd server set
        | started => rfl
        | created =>
            obtain ⟨other, starting⟩ := h.starting.mp server
            have alone : id = other := h.guarded.eq_of_inside
              (by simp [pc, CallbackPc.inside]) (by simp [starting, CallbackPc.inside])
            rw [← alone, pc] at starting
            cases starting
      exact h.move (by simp [pc]) (by simp) (fun _ => started)
        (stays (by simp [pc, CallbackPc.inside])) rfl same
  | start pc =>
      refine ⟨stays (by simp [pc, CallbackPc.inside]), ?_, fun _ _ => rfl, ?_, by simp⟩
      · refine iff_of_false (by simp) ?_
        intro starting
        obtain ⟨other, starting⟩ := starting
        by_cases here : other = id
        · simp [here] at starting
        · have its : s.callbacks other = .starting := by simpa [here] using starting
          exact here (h.guarded.eq_of_inside (by simp [its, CallbackPc.inside])
            (by simp [pc, CallbackPc.inside]))
      · have created := h.starting.mpr ⟨id, pc⟩
        simp [List.count_append, h.created, created]
  | unlock pc =>
      have started := h.served id (by simp [pc, CallbackPc.served])
      exact h.move (by simp [pc]) (by simp) (fun _ => started)
        (h.guarded.release (by simp [pc, CallbackPc.inside]) (by simp [CallbackPc.inside]))
        rfl same
  | @answer status pc =>
      exact h.move (by simp [pc]) (by simp) (by simp [CallbackPc.served])
        (stays (by simp [pc, CallbackPc.inside])) (by simp) (grown _)

-----------------------------------------------------------------------------------------
-- Readiness outlasts the test
-----------------------------------------------------------------------------------------

/-- The execution found the provider ready. -/
def CallbackPc.passed : CallbackPc → Bool
  | .locking | .checking | .starting | .unlocking | .answering .ok => true
  | _ => false

def AppState.Ready (s : AppState Score) : Prop :=
  s.provider.Constructed ∧ s.provider.provider.state = .ready

/-- Executions run on a constructed provider, and what one of them has seen ready, or has
answered 200 for, still is.
-/
structure ReadinessKept (s : AppState Score) : Prop where
  constructed : ∀ id, s.callbacks id ≠ .idle → s.provider.Constructed
  passed : ∀ id, (s.callbacks id).passed = true → s.Ready
  answered : ∀ id, .answered id .ok ∈ s.log → s.Ready

/-- One execution moves on; the provider stays as it is. -/
theorem ReadinessKept.move {s : AppState Score} (h : ReadinessKept s) {id : Nat}
    {pc : CallbackPc} (constructed : s.provider.Constructed)
    (passed : pc.passed = true → s.Ready) {lock : Option Nat} {rpcServer : RpcServer}
    {log : List AppEvent} (answered : ∀ id, .answered id .ok ∈ log → s.Ready)
    : ReadinessKept { s.goto id pc with lock, rpcServer, log } := by
  refine ⟨fun _ _ => constructed, ?_, answered⟩
  exact forall_pc_update (fun (pc : CallbackPc) => pc.passed = true → s.Ready) h.passed passed

theorem ReadinessKept.step {s next : AppState Score} {id : Nat} (h : ReadinessKept s)
    (taken : CallbackStep s id next)
    : ReadinessKept next := by
  have running {pc : CallbackPc} (here : s.callbacks id = pc) (busy : pc ≠ .idle) :=
    h.constructed id (here ▸ busy)
  have before {pc : CallbackPc} (here : s.callbacks id = pc) (yes : pc.passed = true) :=
    h.passed id (here ▸ yes)
  have unanswered {event : AppEvent} (other : ∀ id, event ≠ .answered id .ok) (id : Nat)
      (member : .answered id .ok ∈ s.log ++ [event])
      : s.Ready := by
    rcases List.mem_append.mp member with earlier | new
    · exact h.answered id earlier
    · exact absurd (List.mem_singleton.mp new).symm (other id)
  cases taken with
  | begin pc constructed =>
      exact h.move constructed (by simp [CallbackPc.passed]) (unanswered (by simp))
  | logState pc | notReady pc =>
      exact h.move (running pc (by simp)) (by simp [CallbackPc.passed]) h.answered
  | ready pc yes =>
      have constructed := running pc (by simp)
      exact h.move constructed (fun _ => ⟨constructed, yes⟩) h.answered
  | lock pc | alreadyExists pc | unlock pc =>
      have ready := before pc rfl
      exact h.move ready.1 (fun _ => ready) h.answered
  | create pc | start pc =>
      have ready := before pc rfl
      exact h.move ready.1 (fun _ => ready) (unanswered (by simp))
  | @answer status pc =>
      refine h.move (running pc (by simp)) (by simp [CallbackPc.passed]) ?_
      cases status with
      | ok => exact fun _ _ => before pc rfl
      | tooEarly => exact unanswered (by simp)

/-- The provider moves on under the executions. -/
theorem ReadinessKept.provider {s : AppState Score} (h : ReadinessKept s)
    {provider : ProviderState Score}
    (constructed : s.provider.Constructed → provider.Constructed)
    (ready : s.Ready → provider.provider.state = .ready)
    : ReadinessKept { s with provider } := by
  have still (yes : s.Ready) : AppState.Ready { s with provider } :=
    ⟨constructed yes.1, ready yes⟩
  exact ⟨fun id busy => constructed (h.constructed id busy),
    fun id passed => still (h.passed id passed),
    fun id answered => still (h.answered id answered)⟩

-----------------------------------------------------------------------------------------
-- Executions that begin after a 200
-----------------------------------------------------------------------------------------

/-- The execution began when some execution had already answered 200. -/
def BegunAfterOk (log : List AppEvent) (id : Nat) : Prop :=
  ∃ before after other,
    log = before ++ .began id :: after ∧ .answered other .ok ∈ before

theorem begunAfterOk_concat {log : List AppEvent} {event : AppEvent} {id : Nat}
    : BegunAfterOk (log ++ [event]) id
      ↔ BegunAfterOk log id
        ∨ (event = .began id ∧ ∃ other, .answered other .ok ∈ log) := by
  constructor
  · intro begun
    obtain ⟨before, after, other, split, answered⟩ := begun
    rcases concat_eq_append_cons.mp split with ⟨_, rfl, same⟩ | ⟨rest, _, earlier⟩
    · exact Or.inr ⟨same.symm, other, answered⟩
    · exact Or.inl ⟨before, rest, other, earlier, answered⟩
  · intro either
    rcases either with ⟨before, after, other, rfl, answered⟩ | ⟨rfl, other, answered⟩
    · exact ⟨before, after ++ [event], other, by simp, answered⟩
    · exact ⟨log, [], other, rfl, answered⟩

theorem BegunAfterOk.began {log : List AppEvent} {id : Nat} (h : BegunAfterOk log id)
    : .began id ∈ log ∧ ∃ other, .answered other .ok ∈ log := by
  obtain ⟨before, after, other, rfl, answered⟩ := h
  exact ⟨by simp, other, List.mem_append_left _ answered⟩

/-- The log says what the executions did, and none that began after a 200 was refused. -/
structure Answered (s : AppState Score) : Prop where
  idle
    : ∀ id, s.callbacks id = .idle
      → .began id ∉ s.log ∧ ∀ status, .answered id status ∉ s.log
  returned : ∀ id, s.callbacks id = .returned → ∃ status, .answered id status ∈ s.log
  refused
    : ∀ id, BegunAfterOk s.log id
      → s.callbacks id ≠ .answering .tooEarly ∧ .answered id .tooEarly ∉ s.log

/-- A step that logs nothing and does not refuse. -/
theorem Answered.silent {s next : AppState Score} {id : Nat} {pc : CallbackPc}
    (h : Answered s) (callbacks : next.callbacks = Function.update s.callbacks id pc)
    (log : next.log = s.log) (busy : pc ≠ .idle) (notReturned : pc ≠ .returned)
    (accepted : BegunAfterOk s.log id → pc ≠ .answering .tooEarly)
    : Answered next := by
  have elsewhere {other : Nat} {target : CallbackPc} (different : pc ≠ target)
      (there : next.callbacks other = target)
      : s.callbacks other = target := by
    rw [callbacks] at there
    by_cases here : other = id
    · rw [here, Function.update_self] at there
      exact absurd there different
    · simpa [here] using there
  constructor
  · intro other idle
    rw [log]
    exact h.idle other (elsewhere busy idle)
  · intro other returned
    rw [log]
    exact h.returned other (elsewhere notReturned returned)
  · intro other begun
    rw [log] at begun ⊢
    obtain ⟨goes, answered⟩ := h.refused other begun
    refine ⟨?_, answered⟩
    rw [callbacks]
    by_cases here : other = id
    · rw [here, Function.update_self]
      exact accepted (here ▸ begun)
    · simpa [here] using goes

/-- A step that logs something else than an answer or a beginning. -/
theorem Answered.log {s : AppState Score} (h : Answered s) {event : AppEvent}
    (notBegan : ∀ id, event ≠ .began id)
    (notAnswered : ∀ id status, event ≠ .answered id status)
    : Answered { s with log := s.log ++ [event] } := by
  constructor
  · intro id idle
    obtain ⟨began, answered⟩ := h.idle id idle
    refine ⟨?_, fun status => ?_⟩
    · simpa [(notBegan id).symm] using began
    · simpa [(notAnswered id status).symm] using answered status
  · intro id returned
    obtain ⟨status, answered⟩ := h.returned id returned
    exact ⟨status, List.mem_append_left _ answered⟩
  · intro id begun
    rcases begunAfterOk_concat.mp begun with earlier | ⟨new, _⟩
    · obtain ⟨goes, answered⟩ := h.refused id earlier
      exact ⟨goes, by simpa [(notAnswered id .tooEarly).symm] using answered⟩
    · exact absurd new (notBegan id)

/-- An execution that moves on and logs something of its own leaves the idle ones alone. -/
theorem Answered.idle_concat {s : AppState Score} (h : Answered s) {id other : Nat}
    {pc : CallbackPc} (away : pc ≠ .idle) {event : AppEvent}
    (own : other ≠ id
      → event ≠ .began other ∧ ∀ status, event ≠ .answered other status)
    (idle : Function.update s.callbacks id pc other = .idle)
    : .began other ∉ s.log ++ [event] ∧ ∀ status, .answered other status ∉ s.log ++ [event] := by
  by_cases here : other = id
  · subst other
    exact absurd (by simpa using idle) away
  · obtain ⟨began, answered⟩ := h.idle other (by simpa [here] using idle)
    obtain ⟨notBegan, notAnswered⟩ := own here
    refine ⟨by simp [began, notBegan.symm], fun status => ?_⟩
    simp [answered status, (notAnswered status).symm]

theorem Answered.begin {s : AppState Score} (h : Answered s) {id : Nat}
    (pc : s.callbacks id = .idle)
    : Answered { s.goto id .logging with log := s.log ++ [.began id] } := by
  constructor
  · exact fun other => h.idle_concat (by simp) (by simp +contextual [eq_comm])
  · intro other returned
    by_cases here : other = id
    · simp [here] at returned
    · obtain ⟨status, answered⟩ := h.returned other (by simpa [here] using returned)
      exact ⟨status, List.mem_append_left _ answered⟩
  · intro other begun
    by_cases here : other = id
    · subst other
      simpa using (h.idle id pc).2 .tooEarly
    · rcases begunAfterOk_concat.mp begun with earlier | ⟨new, _⟩
      · simpa [here] using h.refused other earlier
      · exact absurd (AppEvent.began.inj new).symm here

theorem Answered.answer {s : AppState Score} (h : Answered s) {id : Nat}
    {status : HttpStatus} (pc : s.callbacks id = .answering status)
    : Answered { s.goto id .returned with log := s.log ++ [.answered id status] } := by
  constructor
  · exact fun other => h.idle_concat (by simp) (by simp +contextual [eq_comm])
  · intro other returned
    by_cases here : other = id
    · exact ⟨status, by simp [here]⟩
    · obtain ⟨status, answered⟩ := h.returned other (by simpa [here] using returned)
      exact ⟨status, List.mem_append_left _ answered⟩
  · intro other begun
    have earlier : BegunAfterOk s.log other := by simpa [begunAfterOk_concat] using begun
    obtain ⟨goes, answered⟩ := h.refused other earlier
    by_cases here : other = id
    · subst other
      have accepted : status ≠ .tooEarly := fun refused => goes (refused ▸ pc)
      simpa [accepted.symm] using answered
    · simpa [here] using And.intro goes answered

theorem Answered.step {s next : AppState Score} {id : Nat} (h : Answered s)
    (kept : ReadinessKept s) (taken : CallbackStep s id next)
    : Answered next := by
  cases taken with
  | begin pc _ => exact h.begin pc
  | logState pc => exact h.silent rfl rfl (by simp) (by simp) (by simp)
  | ready pc yes => exact h.silent rfl rfl (by simp) (by simp) (by simp)
  | notReady pc no =>
      -- The 200 that came before it was for a provider that is still ready.
      refine h.silent rfl rfl (by simp) (by simp) (fun begun => ?_)
      obtain ⟨_, other, answered⟩ := begun.began
      exact absurd (kept.answered other answered).2 no
  | lock pc _ => exact h.silent rfl rfl (by simp) (by simp) (by simp)
  | create pc _ =>
      have moved : Answered { s.goto id .starting with rpcServer := .created } :=
        h.silent rfl rfl (by simp) (by simp) (by simp)
      exact moved.log (by simp) (by simp)
  | alreadyExists pc _ => exact h.silent rfl rfl (by simp) (by simp) (by simp)
  | start pc =>
      have moved : Answered { s.goto id .unlocking with rpcServer := .started } :=
        h.silent rfl rfl (by simp) (by simp) (by simp)
      exact moved.log (by simp) (by simp)
  | unlock pc => exact h.silent rfl rfl (by simp) (by simp) (by simp)
  | answer pc => exact h.answer pc

-----------------------------------------------------------------------------------------
-- Every run of the application
-----------------------------------------------------------------------------------------

/-- What holds in every reachable state. -/
structure AppInvariant (s : AppState Score) : Prop where
  oneServer : OneServer s
  kept : ReadinessKept s
  answered : Answered s

section Runs

variable [Zero Score] [Sub Score] {sports : Sports} {base : String}

theorem appStep_cases {s next : AppState Score} {action : AppAction Score}
    (taken : appStep base s action = some next)
    : (∃ step provider,
        action = .provider step
        ∧ ProviderStep base s.provider step provider
        ∧ next = { s with provider })
      ∨ ∃ id, action = .callback id ∧ CallbackStep s id next := by
  cases action with
  | provider step =>
      obtain ⟨provider, moved, rfl⟩ := Option.map_eq_some_iff.mp taken
      exact Or.inl ⟨step, provider, rfl, .of_step moved, rfl⟩
  | callback id => exact Or.inr ⟨id, rfl, httpReadyCallback_eq_some.mp taken⟩

/-- The provider of the application is a provider. -/
theorem provider_reachable {s : AppState Score}
    (reached : (appMachine Score sports base).Reachable s)
    : (providerMachine Score sports base).Reachable s.provider := by
  apply reached.project AppState.provider Machine.reachable_init
  intro s action next taken
  cases action with
  | provider step =>
      obtain ⟨provider, moved, rfl⟩ := Option.map_eq_some_iff.mp taken
      exact Or.inr ⟨step, moved⟩
  | callback id =>
      left
      cases httpReadyCallback_eq_some.mp taken <;> rfl

theorem appInvariant_of_reachable {s : AppState Score}
    (reached : (appMachine Score sports base).Reachable s)
    : AppInvariant s := by
  apply reached.invariant (motive := AppInvariant)
  · refine ⟨⟨?_, ?_, ?_, ?_, ?_⟩, ⟨?_, ?_, ?_⟩, ⟨?_, ?_, ?_⟩⟩
    all_goals simp [appMachine, Guarded, CallbackPc.inside, CallbackPc.served,
      CallbackPc.passed, BegunAfterOk]
  · intro s action next before h taken
    rcases appStep_cases taken with ⟨step, provider, rfl, moved, rfl⟩ | ⟨id, rfl, moved⟩
    · obtain ⟨_, invariant⟩ := exists_providerInvariant (provider_reachable before)
      obtain ⟨_, invariantLater⟩ :=
        exists_providerInvariant (provider_reachable (before.step taken))
      obtain ⟨constructed, grown⟩ := moved.later
      refine ⟨⟨h.oneServer.guarded, h.oneServer.starting, h.oneServer.served,
        h.oneServer.created, h.oneServer.started⟩, ?_, ⟨h.answered.idle, h.answered.returned,
        h.answered.refused⟩⟩
      refine h.kept.provider constructed (fun ready => ?_)
      exact invariant.ready_of_later invariantLater ready.1 (constructed ready.1) grown ready.2
    · exact ⟨h.oneServer.step moved, h.kept.step moved, h.answered.step h.kept moved⟩

end Runs

-----------------------------------------------------------------------------------------
-- An execution after a 200 answers
-----------------------------------------------------------------------------------------

/-- How many steps an execution has still to make. -/
def CallbackPc.left : CallbackPc → Nat
  | .idle => 8
  | .logging => 7
  | .testing => 6
  | .locking => 5
  | .checking => 4
  | .starting => 3
  | .unlocking => 2
  | .answering _ => 1
  | .returned => 0

/-- How many steps the holder of `m_lock` has still to make. -/
def AppState.holderLeft (s : AppState Score) : Nat :=
  s.lock.elim 0 (fun holder => (s.callbacks holder).left)

/-- An execution that waits for `m_lock` comes closer to its answer with each step of the
holder; its own steps count more than any holder's.
-/
def AppState.distance (s : AppState Score) (id : Nat) : Nat :=
  8 * (s.callbacks id).left + s.holderLeft

namespace CallbackStep

variable {s next : AppState Score} {id : Nat}

theorem callbacks_of_ne (h : CallbackStep s id next) {other : Nat} (different : other ≠ id)
    : next.callbacks other = s.callbacks other := by
  cases h <;> exact Function.update_of_ne different _ _

theorem left_lt (h : CallbackStep s id next)
    : (next.callbacks id).left < (s.callbacks id).left := by
  cases h with
  | begin pc _ => simp [pc, CallbackPc.left]
  | logState pc => simp [pc, CallbackPc.left]
  | ready pc _ => simp [pc, CallbackPc.left]
  | notReady pc _ => simp [pc, CallbackPc.left]
  | lock pc _ => simp [pc, CallbackPc.left]
  | create pc _ => simp [pc, CallbackPc.left]
  | alreadyExists pc _ => simp [pc, CallbackPc.left]
  | start pc => simp [pc, CallbackPc.left]
  | unlock pc => simp [pc, CallbackPc.left]
  | answer pc => simp [pc, CallbackPc.left]

/-- Only `lock` and `unlock` touch `m_lock`. -/
theorem lock_cases (h : CallbackStep s id next)
    : next.lock = s.lock
      ∨ next.lock = none
      ∨ (next.lock = some id ∧ next.callbacks id = .checking) := by
  cases h with
  | lock _ _ => exact Or.inr (Or.inr ⟨rfl, by simp⟩)
  | unlock _ => exact Or.inr (Or.inl rfl)
  | _ => exact Or.inl rfl

theorem holderLeft_le (h : CallbackStep s id next) : next.holderLeft ≤ s.holderLeft + 4 := by
  have decreases := h.left_lt
  rcases h.lock_cases with same | free | ⟨mine, checking⟩
  · rw [AppState.holderLeft, AppState.holderLeft, same]
    cases s.lock with
    | none => simp
    | some holder =>
        by_cases here : holder = id
        · subst holder
          simp only [Option.elim_some]
          omega
        · simp [h.callbacks_of_ne here]
  · simp [AppState.holderLeft, free]
  · simp [AppState.holderLeft, mine, checking, CallbackPc.left]

/-- An own step brings the answer closer. -/
theorem distance_lt (h : CallbackStep s id next) : next.distance id < s.distance id := by
  have mine := h.left_lt
  have holder := h.holderLeft_le
  simp only [AppState.distance]
  omega

/-- So does a step of the execution that holds `m_lock`. -/
theorem distance_lt_of_holder {holder : Nat} (h : CallbackStep s holder next)
    (held : s.lock = some holder) (other : id ≠ holder)
    : next.distance id < s.distance id := by
  have its := h.left_lt
  have smaller : next.holderLeft < s.holderLeft := by
    have before : s.holderLeft = (s.callbacks holder).left := by
      simp [AppState.holderLeft, held]
    rcases h.lock_cases with same | free | ⟨mine, _⟩
    · simpa [AppState.holderLeft, same, held] using its
    · have none : next.holderLeft = 0 := by simp [AppState.holderLeft, free]
      omega
    · simpa [AppState.holderLeft, mine, held] using its
  simp only [AppState.distance, h.callbacks_of_ne other]
  omega

end CallbackStep

/-- An execution that is not finished and does not wait for `m_lock` can go on. -/
theorem exists_callbackStep {s : AppState Score} {id : Nat} (begun : s.callbacks id ≠ .idle)
    (running : s.callbacks id ≠ .returned) (free : s.callbacks id = .locking → s.lock = none)
    : ∃ next, CallbackStep s id next := by
  cases pc : s.callbacks id with
  | idle => exact absurd pc begun
  | logging => exact ⟨_, .logState pc⟩
  | testing =>
      by_cases ready : s.provider.provider.state = .ready
      · exact ⟨_, .ready pc ready⟩
      · exact ⟨_, .notReady pc ready⟩
  | locking => exact ⟨_, .lock pc (free pc)⟩
  | checking =>
      by_cases unset : s.rpcServer = .unset
      · exact ⟨_, .create pc unset⟩
      · exact ⟨_, .alreadyExists pc unset⟩
  | starting => exact ⟨_, .start pc⟩
  | unlocking => exact ⟨_, .unlock pc⟩
  | answering status => exact ⟨_, .answer pc⟩
  | returned => exact absurd pc running

theorem CallbackStep.log_grows {s next : AppState Score} {id : Nat}
    (h : CallbackStep s id next)
    : s.log <+: next.log := by
  cases h with
  | begin _ _ => exact List.prefix_append _ _
  | create _ _ => exact List.prefix_append _ _
  | start _ => exact List.prefix_append _ _
  | answer _ => exact List.prefix_append _ _
  | _ => exact List.prefix_refl _

/-- Only an execution that saw the server started sends a 200. -/
theorem CallbackStep.answering {s next : AppState Score} {id other : Nat}
    (h : CallbackStep s other next) (answers : next.log = s.log ++ [.answered id .ok])
    : s.callbacks id = .answering .ok := by
  cases h with
  | @answer status pc =>
      have same : AppEvent.answered other status = .answered id .ok := by simpa using answers
      obtain ⟨rfl, rfl⟩ := AppEvent.answered.inj same
      exact pc
  | _ => simp at answers

theorem BegunAfterOk.grows {log later : List AppEvent} {id : Nat} (h : BegunAfterOk log id)
    (grown : log <+: later)
    : BegunAfterOk later id := by
  obtain ⟨before, after, other, rfl, answered⟩ := h
  obtain ⟨more, rfl⟩ := grown
  exact ⟨before, after ++ more, other, by simp, answered⟩

/-- An execution that runs can be brought closer to its answer: by itself, or by the one whose
`m_lock` it waits for.
-/
theorem AppInvariant.closer {s : AppState Score} (h : AppInvariant s) {id : Nat}
    (begun : s.callbacks id ≠ .idle) (running : s.callbacks id ≠ .returned)
    : ∃ other next,
        s.callbacks other ≠ .idle
        ∧ CallbackStep s other next
        ∧ next.distance id < s.distance id := by
  by_cases waits : s.callbacks id = .locking ∧ s.lock ≠ none
  · obtain ⟨holder, held⟩ := Option.ne_none_iff_exists'.mp waits.2
    have inside := (h.oneServer.guarded holder).mpr held
    have other : id ≠ holder := by
      intro same
      rw [← same, waits.1] at inside
      cases inside
    have busy : s.callbacks holder ≠ .idle := by
      intro idle
      simp [idle, CallbackPc.inside] at inside
    obtain ⟨next, moved⟩ : ∃ next, CallbackStep s holder next := by
      refine exists_callbackStep busy ?_ ?_
      · exact fun returned => by simp [returned, CallbackPc.inside] at inside
      · exact fun locking => by simp [locking, CallbackPc.inside] at inside
    exact ⟨holder, next, busy, moved, moved.distance_lt_of_holder held other⟩
  · obtain ⟨next, moved⟩ := exists_callbackStep begun running (fun locking => by
      by_contra taken
      exact waits ⟨locking, taken⟩)
    exact ⟨id, next, begun, moved, moved.distance_lt⟩

/-- Until it has answered 200, some execution can bring its answer closer. -/
theorem AppInvariant.progress {s : AppState Score} (h : AppInvariant s) {id : Nat}
    (begun : BegunAfterOk s.log id)
    : .answered id .ok ∈ s.log
      ∨ ∃ other next, CallbackStep s other next ∧ next.distance id < s.distance id := by
  have busy : s.callbacks id ≠ .idle := fun idle => (h.answered.idle id idle).1 begun.began.1
  by_cases returned : s.callbacks id = .returned
  · left
    obtain ⟨status, answered⟩ := h.answered.returned id returned
    cases status with
    | ok => exact answered
    | tooEarly => exact absurd answered (h.answered.refused id begun).2
  · right
    obtain ⟨other, next, -, moved, closer⟩ := h.closer busy returned
    exact ⟨other, next, moved, closer⟩

section Endpoint

variable [Zero Score] [Sub Score] {sports : Sports} {base : String}

theorem exists_answer {s : AppState Score}
    (reached : (appMachine Score sports base).Reachable s) {id : Nat}
    (begun : BegunAfterOk s.log id)
    : ∃ actions later,
        (∀ action ∈ actions, ∃ other, action = AppAction.callback other)
        ∧ (appMachine Score sports base).runFrom s actions = some later
        ∧ .answered id .ok ∈ later.log := by
  refine Machine.exists_runFrom_of_rank
    (fun s => (appMachine Score sports base).Reachable s ∧ BegunAfterOk s.log id)
    (fun s => .answered id .ok ∈ s.log) (fun s => s.distance id) ?_ ⟨reached, begun⟩
  intro state onWay
  rcases (appInvariant_of_reachable onWay.1).progress onWay.2 with done | moves
  · exact Or.inl done
  · obtain ⟨other, next, moved, closer⟩ := moves
    have taken : (appMachine Score sports base).step state (.callback other) = some next :=
      httpReadyCallback_eq_some.mpr moved
    exact Or.inr ⟨.callback other, next, ⟨other, rfl⟩, taken,
      ⟨onWay.1.step taken, onWay.2.grows moved.log_grows⟩, closer⟩

/-- A ready provider has had a callback for every configured sport. -/
theorem AppState.Ready.polled {s : AppState Score} (h : s.Ready)
    (reached : (appMachine Score sports base).Reachable s)
    : ∀ sport ∈ sports.names, s.provider.Polled sport := by
  obtain ⟨_, invariant⟩ := exists_providerInvariant (provider_reachable reached)
  exact ((invariant.ready_iff h.1).mp h.2).2

/-- The ready endpoint starts exactly one server. At most one is created in a run, a 200 is
sent only when that server is started and every configured sport was polled, and an execution
that begins after a 200 is never refused and can always go on to its own 200.
-/
theorem one_server_and_stable_ok {s : AppState Score}
    (reached : (appMachine Score sports base).Reachable s)
    : s.log.count .created ≤ 1
      ∧ (∀ id action next,
          (appMachine Score sports base).step s action = some next
          → next.log = s.log ++ [.answered id .ok]
          → s.rpcServer = .started
            ∧ .created ∈ s.log
            ∧ .started ∈ s.log
            ∧ ∀ sport ∈ sports.names, s.provider.Polled sport)
      ∧ ∀ id, BegunAfterOk s.log id
          → .answered id .tooEarly ∉ s.log
            ∧ ∃ actions later,
                (∀ action ∈ actions, ∃ other, action = .callback other)
                ∧ (appMachine Score sports base).runFrom s actions = some later
                ∧ .answered id .ok ∈ later.log := by
  have h := appInvariant_of_reachable reached
  refine ⟨?_, ?_, ?_⟩
  · rw [h.oneServer.created]
    split_ifs <;> simp
  · intro id action next taken answers
    have answering : s.callbacks id = .answering .ok := by
      rcases appStep_cases taken with ⟨step, provider, _, _, rfl⟩ | ⟨other, _, moved⟩
      · simp at answers
      · exact moved.answering answers
    have started := h.oneServer.served id (by simp [answering, CallbackPc.served])
    have created : .created ∈ s.log := by
      rw [← List.count_pos_iff, h.oneServer.created, started]
      simp
    have ready := h.kept.passed id (by simp [answering, CallbackPc.passed])
    exact ⟨started, created, h.oneServer.started started, ready.polled reached⟩
  · intro id begun
    exact ⟨(h.answered.refused id begun).2, exists_answer reached begun⟩

end Endpoint

/-- Two executions race for the server while football is polled; a third one begins after
the first 200.
-/
def raceRun : List (AppAction Rat) :=
  [.provider .register, .provider .startPoller, .callback 0, .callback 0, .callback 0,
    .callback 0, .provider (.poll "lines/football" 3), .callback 1, .callback 2, .callback 1,
    .callback 2, .callback 1, .callback 2, .callback 1, .callback 1, .callback 1,
    .callback 1, .callback 2, .callback 2, .callback 1, .callback 3]

def football : Sports where
  entries := [("football", 5)]
  nodup := by decide

theorem one_server_raceRun
    : ∃ s,
        (appMachine Rat football "lines").run raceRun = some s
        ∧ s.log = [.began 0, .answered 0 .tooEarly, .began 1, .began 2, .created, .started,
            .answered 1 .ok, .began 3]
        ∧ s.log.count .created ≤ 1
        ∧ ∃ actions later,
            (appMachine Rat football "lines").runFrom s actions = some later
            ∧ .answered 3 .ok ∈ later.log := by
  obtain ⟨s, ran, log⟩
      : ∃ s,
          (appMachine Rat football "lines").run raceRun = some s
          ∧ s.log = [.began 0, .answered 0 .tooEarly, .began 1, .began 2, .created, .started,
              .answered 1 .ok, .began 3] :=
    ⟨_, rfl, by decide⟩
  obtain ⟨one, _, later⟩ := one_server_and_stable_ok (⟨raceRun, ran⟩
    : (appMachine Rat football "lines").Reachable s)
  have begun : BegunAfterOk s.log 3 :=
    ⟨[.began 0, .answered 0 .tooEarly, .began 1, .began 2, .created, .started,
      .answered 1 .ok], [], 1, log, by decide⟩
  obtain ⟨_, actions, final, _, goesOn, answered⟩ := later 3 begun
  exact ⟨s, ran, log, one, actions, final, goesOn, answered⟩

end RVision.App
