import RVision.App.Startup
import RVision.App.System
import RVision.Session.Service

/-! The application serves its client. In a run without failures, and whatever of the startup is
still to come, another response can be handed to the client: exactly if some sport is configured
and the first call was not for the default message.
-/

namespace RVision.App

open Transition Lines.Provider
open RVision.Rpc

variable {Score : Type}

/-- The stream is one without failures; the application may do what it likes. -/
def SystemFaultless (s : SystemState Score) : SystemAction Score → Prop
  | .app _ => True
  | .session action => Session.Faultless s.session action

instance (s : SystemState Score) (action : SystemAction Score)
    : Decidable (SystemFaultless s action) :=
  match action with
  | .app _ => .isTrue trivial
  | .session action => inferInstanceAs (Decidable (Session.Faultless s.session action))

/-- All but another `call` of the client. -/
def SystemAction.advances : SystemAction Score → Bool
  | .app _ => true
  | .session action => action.advances

section Faultless

variable (Score) [DecidableEq Score] [Zero Score] [Sub Score]

/-- The application with a client, and with no failure on the stream between them. -/
def faultlessSystem (sports : Sports) (base : String)
    : Machine (SystemState Score) (SystemAction Score) :=
  (systemMachine Score sports base).guard SystemFaultless

end Faultless

-----------------------------------------------------------------------------------------
-- The session of a faultless system
-----------------------------------------------------------------------------------------

section View

variable [DecidableEq Score] [Zero Score] [Sub Score] {sports : Sports} {base : String}
  {s : SystemState Score}

theorem system_of_faultless (reached : (faultlessSystem Score sports base).Reachable s)
    : (systemMachine Score sports base).Reachable s :=
  (Machine.ReachableVia.of_guard reached).reachable

omit [DecidableEq Score] [Sub Score] in
theorem SystemInvariant.faultless_view (h : SystemInvariant sports s)
    {act : Session.Action Score} (may : s.MayStep act) (clean : Session.Faultless s.session act)
    : Session.Faultless s.view act := by
  rcases may.client_or_built with ⟨act, rfl⟩ | built
  · exact clean
  · rw [h.view_eq built]
    exact clean

/-- Seen as a session, the system is a faultless one. -/
theorem view_faultless (reached : (faultlessSystem Score sports base).Reachable s)
    : (Session.faultless Score rpcThreads sports.names).Reachable s.view := by
  apply reached.invariant
    (motive := fun s => (Session.faultless Score rpcThreads sports.names).Reachable s.view)
  · exact Machine.reachable_init
  · intro s action next before known taken
    obtain ⟨clean, taken⟩ := Option.ite_none_right_eq_some.mp taken
    have h := systemInvariant_of_reachable (system_of_faultless before)
    rcases h.view_step taken with same | ⟨sport, score, moved⟩ | ⟨act, rfl, may, moved⟩
    · exact same ▸ known
    · have clean : Session.Faultless s.view (.update sport score) := trivial
      have update
          : (Session.machine Score rpcThreads sports.names).step s.view (.update sport score)
            = some next.view := moved
      exact known.step (Machine.guard_step clean update)
    · have same
          : (Session.machine Score rpcThreads sports.names).step s.view act
            = some next.view := moved
      exact known.step (Machine.guard_step (h.faultless_view may clean) same)

/-- Nothing is handed to the client of a server that is not started. -/
theorem handedLines_of_unbuilt (reached : (faultlessSystem Score sports base).Reachable s)
    (unbuilt : s.server.built = false)
    : Client.handedLines s.client.log = [] := by
  have session := Session.reachable_of_faultless (view_faultless reached)
  have h := systemInvariant_of_reachable (system_of_faultless reached)
  obtain ⟨fresh, -⟩ := h.untouched unbuilt
  have received : Client.receivedResponses s.client.log = [] := by
    have before := (Session.channels_of_reachable session).responses
    have none : Server.writtenResponses s.view.server.log = [] := by
      simp [SystemState.view, fresh, Server.State.start, Server.writtenResponses]
    rwa [none, List.prefix_nil] at before
  have streams := (Client.MessageStreams.invariant (Session.client_reachable session)).responses
  exact streams.trans (congrArg (List.map _) received)

-----------------------------------------------------------------------------------------
-- The server can be started
-----------------------------------------------------------------------------------------

/-- Up to the start of the server the application goes its own way. -/
theorem app_reachable_of_unbuilt (reached : (systemMachine Score sports base).Reachable s)
    (unbuilt : s.server.built = false)
    : (appMachine Score sports base).Reachable s.app := by
  refine reached.invariant
    (motive := fun s => s.server.built = false → (appMachine Score sports base).Reachable s.app)
    (fun _ => Machine.reachable_init) ?_ unbuilt
  intro s action next before known taken unbuilt
  cases action with
  | app action =>
      obtain ⟨-, mapped⟩ := Option.ite_none_right_eq_some.mp taken
      obtain ⟨app, went, rfl⟩ := Option.map_eq_some_iff.mp mapped
      have earlier : s.server.built = false := by
        by_contra built
        simp [SystemState.withApp, built] at unbuilt
      have moved : (appMachine Score sports base).step s.app action = some app := went
      exact (known earlier).step moved
  | session act =>
      obtain ⟨may, mapped⟩ := Option.ite_none_right_eq_some.mp taken
      obtain ⟨session, moved, rfl⟩ := Option.map_eq_some_iff.mp mapped
      rcases may.client_or_built with ⟨act, rfl⟩ | built
      · obtain ⟨_, mapped⟩ := Option.ite_none_right_eq_some.mp moved
        obtain ⟨client, _, rfl⟩ := Option.map_eq_some_iff.mp mapped
        exact known unbuilt
      · have still := built_session_step moved built
        exact absurd (still.symm.trans unbuilt) (by simp)

end View

section Endpoint

variable [Zero Score] [Sub Score] {sports : Sports} {base : String} {s : AppState Score}

/-- Only finitely many requests have been made. -/
theorem exists_idle (reached : (appMachine Score sports base).Reachable s)
    : ∃ id, s.callbacks id = .idle := by
  have beyond : ∃ bound, ∀ id, bound ≤ id → s.callbacks id = .idle := by
    apply reached.invariant
      (motive := fun s => ∃ bound, ∀ id, bound ≤ id → s.callbacks id = .idle)
    · exact ⟨0, fun _ _ => rfl⟩
    · intro s action next _ known taken
      obtain ⟨bound, idle⟩ := known
      rcases appStep_cases taken with ⟨_, provider, -, -, rfl⟩ | ⟨id, -, moved⟩
      · exact ⟨bound, idle⟩
      · refine ⟨max bound (id + 1), fun other above => ?_⟩
        have different : other ≠ id := by omega
        rw [moved.callbacks_of_ne different]
        exact idle other (by omega)
  obtain ⟨bound, idle⟩ := beyond
  exact ⟨bound, idle bound (Nat.le_refl _)⟩

/-- A 200 is for a server that is started. -/
theorem started_of_ok (reached : (appMachine Score sports base).Reachable s) {id : Nat}
    (answered : .ok ∈ answers s.log id)
    : s.rpcServer = .started := by
  rw [mem_answers_iff] at answered
  refine reached.invariant
    (motive := fun s => .answered id .ok ∈ s.log → s.rpcServer = .started) ?_ ?_ answered
  · simp [appMachine]
  · intro s action next before known taken answered
    rcases appStep_cases taken with ⟨_, provider, -, -, rfl⟩ | ⟨other, -, moved⟩
    · exact known answered
    · have served := (appInvariant_of_reachable before).oneServer.served other
      cases moved with
      | start pc => rfl
      | create pc unset =>
          have earlier : .answered id .ok ∈ s.log := by simpa using answered
          simp [known earlier] at unset
      | @answer status pc =>
          rcases List.mem_append.mp answered with earlier | now
          · exact known earlier
          · obtain ⟨-, rfl⟩ : id = other ∧ HttpStatus.ok = status := by simpa using now
            exact served (by simp [pc, CallbackPc.served])
      | begin pc constructed => exact known (by simpa using answered)
      | _ => exact known answered

end Endpoint

section Service

variable [DecidableEq Score] [Zero Score] [Sub Score] {sports : Sports} {base : String}
  {s : SystemState Score}

/-- The system is where its application is, and the client has not moved since `s`. -/
structure Behind (sports : Sports) (base : String) (s : SystemState Score) (app : AppState Score)
    (later : SystemState Score)
    : Prop where
  reached : (faultlessSystem Score sports base).Reachable later
  app : later.app = app
  client : later.client = s.client

theorem Behind.step {app next : AppState Score} {later : SystemState Score}
    {action : AppAction Score} (h : Behind sports base s app later) (own : action.Own)
    (taken : (appMachine Score sports base).step app action = some next)
    : ∃ after,
        (faultlessSystem Score sports base).step later (.app action) = some after
        ∧ Behind sports base s next after := by
  have moved
      : (systemMachine Score sports base).step later (.app action)
        = some (later.withApp next) :=
    (if_pos own).trans (congrArg (Option.map _) (h.app ▸ taken))
  have clean : SystemFaultless later (.app action) := trivial
  have step := Machine.guard_step clean moved
  exact ⟨_, step, h.reached.step step, rfl, h.client⟩

/-- From every state the system can come to have its server started, with the client left as it
is, if there is a sport to poll.
-/
theorem leads_built (reached : (faultlessSystem Score sports base).Reachable s)
    (configured : sports.names ≠ [])
    : (faultlessSystem Score sports base).Leads (fun action => action.advances = true) s
        (fun later =>
          (faultlessSystem Score sports base).Reachable later
          ∧ later.client = s.client
          ∧ later.server.built = true) := by
  by_cases built : s.server.built = true
  · exact .here ⟨reached, rfl, built⟩
  have own := app_reachable_of_unbuilt (system_of_faultless reached) (by simpa using built)
  obtain ⟨id, idle⟩ := exists_idle own
  have welcome : ¬ Refused s.app id := by
    have none := (answeredOnce_of_reachable own).before id (by simp [idle])
    simp [Refused, idle, none]
  obtain ⟨actions, answered, quiet, ran, ok⟩ := exists_answered own configured welcome
  have started := started_of_ok (own.runFrom ran) ok
  have leads
      : (appMachine Score sports base).Leads AppAction.Own s.app
          (fun app => app.rpcServer = .started) := by
    refine ⟨actions, answered, ?_, ran, started⟩
    intro action member
    rcases action with (_ | _ | _ | traffic) | _
    case provider.fetch => exact absurd member (quiet traffic)
    all_goals trivial
  have follows
      : (faultlessSystem Score sports base).Leads (fun action => action.advances = true) s
          (fun later => ∃ app, Behind sports base s app later ∧ app.rpcServer = .started) := by
    refine leads.follow SystemAction.app (fun _ _ => rfl) _ ⟨reached, rfl, rfl⟩ ?_
    intro app action next there behind fine taken
    exact behind.step fine taken
  refine follows.trans ?_
  intro later there
  obtain ⟨app, ⟨here, rfl, same⟩, started⟩ := there
  have h := systemInvariant_of_reachable (system_of_faultless here)
  exact .here ⟨here, same, h.built.mpr started⟩

/-- On a started server the system follows what its session can be led to. -/
theorem leads_session (built : s.server.built = true) {goal : Session.State Score → Prop}
    (ahead : Session.Ahead rpcThreads sports.names s.session goal)
    : (faultlessSystem Score sports base).Leads (fun action => action.advances = true) s
        (fun later => goal later.session) := by
  have follows
      : (faultlessSystem Score sports base).Leads (fun action => action.advances = true) s
          (fun later => ∃ session,
            (later.session = session ∧ later.server.built = true) ∧ goal session) := by
    refine ahead.follow SystemAction.session (fun _ => id) _ ⟨rfl, built⟩ ?_
    intro session act next there along fine taken
    obtain ⟨rfl, built⟩ := along
    obtain ⟨clean, moved⟩ := Option.ite_none_right_eq_some.mp taken
    have may : there.MayStep act := by
      rcases act with _ | (_ | _ | _ | _ | _) | _ | _ | _
      case client => trivial
      case server.start => cases clean
      case update => cases fine
      all_goals exact built
    have step
        : (systemMachine Score sports base).step there (.session act)
          = some (there.withSession next) :=
      (if_pos may).trans (congrArg (Option.map _) moved)
    have clean : SystemFaultless there (.session act) := clean
    exact ⟨_, Machine.guard_step clean step, rfl, built_session_step moved built⟩
  refine follows.trans ?_
  intro later there
  obtain ⟨_, ⟨rfl, -⟩, done⟩ := there
  exact .here done

-----------------------------------------------------------------------------------------
-- Another response
-----------------------------------------------------------------------------------------

/-- Calls are not taken back. -/
theorem pushedCalls_of_runFrom (reached : (faultlessSystem Score sports base).Reachable s)
    {later : SystemState Score} {actions : List (SystemAction Score)}
    (ran : (faultlessSystem Score sports base).runFrom s actions = some later)
    : Client.pushedCalls s.client.log <+: Client.pushedCalls later.client.log := by
  refine (Machine.runFrom_invariant ran
    (motive := fun later =>
      (faultlessSystem Score sports base).Reachable later
      ∧ Client.pushedCalls s.client.log <+: Client.pushedCalls later.client.log)
    ⟨reached, List.prefix_refl _⟩ ?_).2
  intro state action next known taken
  refine ⟨known.1.step taken, known.2.trans ?_⟩
  obtain ⟨-, taken⟩ := Option.ite_none_right_eq_some.mp taken
  have h := systemInvariant_of_reachable (system_of_faultless known.1)
  rcases h.view_step taken with same | ⟨_, _, moved⟩ | ⟨_, -, -, moved⟩
  · have client : next.client = state.client := congrArg Session.State.client same
    rw [client]
  · exact Session.pushedCalls_grows moved
  · exact Session.pushedCalls_grows moved

/-- Nothing is ever handed to the client of an application with no sport to poll. -/
theorem handedLines_of_unconfigured (reached : (faultlessSystem Score sports base).Reachable s)
    (none : sports.names = [])
    : Client.handedLines s.client.log = [] := by
  apply handedLines_of_unbuilt reached
  by_contra built
  have h := systemInvariant_of_reachable (system_of_faultless reached)
  have ready := h.ready (by simpa using built)
  obtain ⟨_, invariant⟩ := h.provider
  exact ((invariant.ready_iff ready.1).mp ready.2).1 none

/-- From every reachable state of the application in which its client has called, the pollers, the
endpoint and the parties of the stream can go on until the callback is handed one more response,
exactly if the first call was not for period 0 and no sports, and some sport is configured.
-/
theorem served_iff (reached : (faultlessSystem Score sports base).Reachable s)
    {first : Client.Call} {others : List Client.Call}
    (called : Client.pushedCalls s.client.log = first :: others)
    : (faultlessSystem Score sports base).Leads (fun action => action.advances = true) s
        (fun later =>
          (Client.handedLines s.client.log).length < (Client.handedLines later.client.log).length)
      ↔ first ≠ (0, []) ∧ sports.names ≠ [] := by
  constructor
  · intro leads
    obtain ⟨actions, later, -, ran, more⟩ := leads
    have there := reached.runFrom ran
    refine ⟨?_, ?_⟩
    · intro default
      subst default
      obtain ⟨calls, same⟩ := pushedCalls_of_runFrom reached ran
      rw [called] at same
      have none := (Session.unanswered_of_default Nat.one_pos (view_faultless there) same.symm).1
      have empty : Client.handedLines later.client.log = [] := none
      simp [empty] at more
    · intro none
      simp [handedLines_of_unconfigured there none] at more
  · intro both
    obtain ⟨other, configured⟩ := both
    refine (leads_built reached configured).trans ?_
    intro started there
    obtain ⟨here, client, built⟩ := there
    have h := systemInvariant_of_reachable (system_of_faultless here)
    have session := view_faultless here
    rw [h.view_eq built] at session
    have ahead := Session.leads_response Nat.one_pos session
      ((congrArg (fun client => Client.pushedCalls client.log) client).trans called) other
    refine (leads_session built ahead).trans ?_
    intro later answered
    obtain ⟨-, -, more, -⟩ := answered
    refine .here ?_
    rw [← client]
    exact more

end Service

/-- The client calls before anything is polled. -/
def earlyCall : List (SystemAction Rat) :=
  [.session (.client (.push 0 (5, ["football"]))), .app (.provider .register)]

theorem served_earlyCall
    : ∃ s,
        (faultlessSystem Rat football "lines").run earlyCall = some s
        ∧ (faultlessSystem Rat football "lines").Leads (fun action => action.advances = true) s
            (fun later => 0 < (Client.handedLines later.client.log).length) := by
  obtain ⟨s, ran, called, none⟩
      : ∃ s,
          (faultlessSystem Rat football "lines").run earlyCall = some s
          ∧ Client.pushedCalls s.client.log = [(5, ["football"])]
          ∧ Client.handedLines s.client.log = [] :=
    ⟨_, rfl, rfl, rfl⟩
  have served := (served_iff ⟨_, ran⟩ called).mpr ⟨by simp, by decide⟩
  rw [none] at served
  exact ⟨s, ran, served⟩

end RVision.App
