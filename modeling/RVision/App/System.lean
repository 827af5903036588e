import RVision.App.Ready
import RVision.Session.Provenance

/-! The application and its one client together. The provider is constructed and polled, the
`ready` endpoint creates and starts the RPC server once, and from then on the server's writer
calls `fetch_delta` on the cache that the pollers keep changing.
-/

namespace RVision.App

open Transition Lines.Provider
open RVision.Rpc

variable {Score : Type}

/-- The number of worker threads that `create_grpc_server` asks for. -/
def rpcThreads : Nat := 1

/-- The application, the server behind `m_rpc_server`, the client, and the writer's running call
of `fetch_delta`. The cache is the provider's.
-/
structure SystemState (Score : Type) where
  app : AppState Score
  server : Server.State Score := { threads := rpcThreads }
  client : Client.State Score := {}
  fetch : Option (FetchCall Score) := none

inductive SystemAction (Score : Type)
  | app (action : AppAction Score)
  | session (action : Session.Action Score)
deriving DecidableEq, Repr

/-- All calls of `fetch_delta` are the writer's, so none is an action of the application. -/
def AppAction.Own : AppAction Score → Prop
  | .provider (.fetch _) => False
  | _ => True

instance (action : AppAction Score) : Decidable action.Own :=
  match action with
  | .provider (.fetch _) => .isFalse id
  | .provider .register | .provider .startPoller | .provider (.poll _ _)
  | .callback _ => .isTrue trivial

namespace SystemState

def cache (s : SystemState Score) : LinesCache Score := s.app.provider.traffic.cache

/-- The stream with its two parties and the cache behind the server. -/
def session (s : SystemState Score) : Session.State Score :=
  { client := s.client, server := s.server, cache := s.cache, fetch := s.fetch }

/-- The pollers' updates belong to the application, and so does the start of the server; what
the server does takes a server that is started.
-/
def MayStep (s : SystemState Score) : Session.Action Score → Prop
  | .client _ => True
  | .server .start | .update _ _ => False
  | .server _ | .fetch | .line => s.server.built = true

instance (s : SystemState Score) (action : Session.Action Score)
    : Decidable (s.MayStep action) :=
  match action with
  | .client _ => .isTrue trivial
  | .server .start | .update _ _ => .isFalse id
  | .server .cancel | .server (.worker _ _) | .server (.writer _) | .server (.stop _)
  | .fetch | .line => inferInstanceAs (Decidable (_ = true))

/-- What a step of the application leaves: `http_ready_callback` starts the server. -/
def withApp (s : SystemState Score) (app : AppState Score) : SystemState Score :=
  { s with
    app
    server :=
      if app.rpcServer = .started ∧ s.server.built = false then s.server.start
      else s.server }

/-- What a step of the session leaves. -/
def withSession (s : SystemState Score) (session : Session.State Score)
    : SystemState Score :=
  { app :=
      { s.app with
        provider :=
          { s.app.provider with
            traffic := { s.app.provider.traffic with cache := session.cache } } }
    server := session.server
    client := session.client
    fetch := session.fetch }

/-- A step of a session whose server is not started is one of its client. -/
theorem MayStep.client_or_built {s : SystemState Score} {action : Session.Action Score}
    (may : s.MayStep action)
    : (∃ act, action = .client act) ∨ s.server.built = true := by
  rcases action with act | (_ | _ | _ | _ | _) | _ | _ | _
  case client => exact Or.inl ⟨act, rfl⟩
  case server.start | update => exact absurd may id
  all_goals exact Or.inr may

/-- The pollers' updates are not steps of the session here. -/
theorem MayStep.quiet {s : SystemState Score} {action : Session.Action Score}
    (may : s.MayStep action) (sport : String) (score : Score)
    : action ≠ .update sport score := by
  intro same
  subst same
  exact may

end SystemState

section Machine

variable [DecidableEq Score] [Zero Score] [Sub Score]

def systemStep (base : String) (s : SystemState Score)
    : SystemAction Score → Option (SystemState Score)
  | .app action => if action.Own then (appStep base s.app action).map s.withApp else none
  | .session action =>
      if s.MayStep action then (Session.step s.session action).map s.withSession else none

variable (Score)

/-- The application with `sports` configured, and a client that has not called yet. -/
def systemMachine (sports : Sports) (base : String)
    : Machine (SystemState Score) (SystemAction Score) where
  init := { app := (appMachine Score sports base).init }
  step := systemStep base

variable {Score}

/-- Everything a step of the system can do. -/
theorem systemStep_cases {base : String} {s next : SystemState Score}
    {action : SystemAction Score} (taken : systemStep base s action = some next)
    : (∃ step provider,
        AppAction.Own (.provider step)
        ∧ ProviderStep base s.app.provider step provider
        ∧ next = s.withApp { s.app with provider })
      ∨ (∃ id app, CallbackStep s.app id app ∧ next = s.withApp app)
      ∨ ∃ act session,
          s.MayStep act
          ∧ Session.step s.session act = some session
          ∧ next = s.withSession session := by
  cases action with
  | app action =>
      obtain ⟨own, mapped⟩ := Option.ite_none_right_eq_some.mp taken
      obtain ⟨app, went, rfl⟩ := Option.map_eq_some_iff.mp mapped
      rcases appStep_cases went with ⟨step, provider, rfl, moved, same⟩ | ⟨id, rfl, moved⟩
      · exact Or.inl ⟨step, provider, own, moved, by rw [same]⟩
      · exact Or.inr (Or.inl ⟨id, app, moved, rfl⟩)
  | session act =>
      obtain ⟨may, mapped⟩ := Option.ite_none_right_eq_some.mp taken
      obtain ⟨session, moved, rfl⟩ := Option.map_eq_some_iff.mp mapped
      exact Or.inr (Or.inr ⟨act, session, may, moved, rfl⟩)

end Machine

-----------------------------------------------------------------------------------------
-- Registrations and polls
-----------------------------------------------------------------------------------------

section Registering

variable [Zero Score]

/-- The cache once the constructor has registered what it still has to. -/
def registerAll (cache : LinesCache Score) (sports : List String) : LinesCache Score :=
  sports.foldl (fun cache sport => updateCache cache sport 0) cache

/-- Updates of different sports come in any order. -/
theorem updateCache_comm (cache : LinesCache Score) {left right : String}
    (different : left ≠ right) (first second : Score)
    : updateCache (updateCache cache left first) right second
      = updateCache (updateCache cache right second) left first := by
  have side {one other : String} (apart : one ≠ other) (score after : Score)
      : (updateCache (updateCache cache one score) other after).lookup one
        = (updateCache (updateCache cache other after) one score).lookup one := by
    rw [lookup_updateCache_of_ne _ apart]
    have same := lookup_updateCache_of_ne cache apart after
    cases looked : cache.lookup one with
    | none =>
        rw [lookup_updateCache_of_none looked, lookup_updateCache_of_none (same.trans looked)]
    | some item =>
        rw [lookup_updateCache_of_some looked, lookup_updateCache_of_some (same.trans looked)]
  refine Finmap.ext_lookup (fun sport => ?_)
  by_cases one : sport = left
  · subst sport
    exact side different first second
  by_cases other : sport = right
  · subst sport
    exact (side different.symm second first).symm
  · simp only [lookup_updateCache_of_ne _ one, lookup_updateCache_of_ne _ other]

/-- A poll of a sport that is registered does not meet the registrations to come. -/
theorem registerAll_updateCache (cache : LinesCache Score) {sports : List String}
    {sport : String} (done : sport ∉ sports) (score : Score)
    : registerAll (updateCache cache sport score) sports
      = updateCache (registerAll cache sports) sport score := by
  induction sports generalizing cache with
  | nil => rfl
  | cons first rest ih =>
      have different : sport ≠ first := fun same => done (by simp [same])
      have later := ih (updateCache cache first 0) (fun member => done (by simp [member]))
      rw [updateCache_comm cache different.symm] at later
      exact later

end Registering

-----------------------------------------------------------------------------------------
-- The server waits for readiness
-----------------------------------------------------------------------------------------

/-- `fetch_delta` writes nothing that was received. -/
theorem received_advance [Sub Score] {call next : FetchCall Score}
    {cache after : LinesCache Score} (advanced : call.advance cache = some (next, after))
    (sport : String)
    : received after sport = received cache sport := by
  obtain ⟨line, rest, _, skipped | read⟩ := FetchCall.advance_cases advanced
  · obtain ⟨_, _, rfl⟩ := skipped
    rfl
  · obtain ⟨item, present, _, rfl⟩ := read
    by_cases here : sport = line
    · subst sport
      rw [received, received, Finmap.lookup_insert, present]
      cases call.changed <;> rfl
    · rw [received, received, Finmap.lookup_insert_of_ne _ here]

/-- Only the pollers bring scores into the cache of a session. -/
theorem received_session_step [DecidableEq Score] [Zero Score] [Sub Score]
    {s next : Session.State Score} {action : Session.Action Score}
    (taken : Session.step s action = some next)
    (quiet : ∀ sport score, action ≠ .update sport score) (sport : String)
    : received next.cache sport = received s.cache sport := by
  cases action with
  | client act =>
      obtain ⟨_, mapped⟩ := Option.ite_none_right_eq_some.mp taken
      obtain ⟨_, _, rfl⟩ := Option.map_eq_some_iff.mp mapped
      rfl
  | server act =>
      obtain ⟨_, mapped⟩ := Option.ite_none_right_eq_some.mp taken
      obtain ⟨_, _, rfl⟩ := Option.map_eq_some_iff.mp mapped
      rfl
  | update sport score => exact absurd rfl (quiet sport score)
  | fetch =>
      simp only [Session.step] at taken
      split at taken
      · obtain rfl := Option.some.inj taken
        rfl
      · cases taken
  | line =>
      obtain ⟨call, _, mapped⟩ := Option.bind_eq_some_iff.mp taken
      obtain ⟨⟨call, after⟩, advanced, rfl⟩ := Option.map_eq_some_iff.mp mapped
      exact received_advance advanced sport

/-- A server that is started stays so. -/
theorem built_session_step [DecidableEq Score] [Zero Score] [Sub Score]
    {s next : Session.State Score} {action : Session.Action Score}
    (taken : Session.step s action = some next) (built : s.server.built = true)
    : next.server.built = true := by
  rcases Session.step_cases taken with ⟨_, _, _, _, _, rfl⟩ | ⟨_, _, _, _, moved, rfl⟩
    | ⟨_, server⟩
  · exact built
  · exact (Server.Step.of_step moved).built_mono built
  · exact (congrArg Server.State.built server).trans built

/-- The server is started by the endpoint, on a provider that is ready and stays so; until then
nothing of it has moved and nothing was sent.
-/
structure SystemInvariant [Zero Score] (sports : Sports) (s : SystemState Score) : Prop where
  provider : ∃ begun, ProviderInvariant sports begun s.app.provider
  oneServer : OneServer s.app
  kept : ReadinessKept s.app
  created : s.app.rpcServer ≠ .unset → s.app.Ready
  built : s.server.built = true ↔ s.app.rpcServer = .started
  untouched : s.server.built = false → s.server = { threads := rpcThreads } ∧ s.fetch = none
  unsent
    : s.server.built = false → ∀ sport item,
        s.cache.lookup sport = some item → item.lastSend = 0

section Invariant

variable [Zero Score] {sports : Sports} {s : SystemState Score}

/-- A started server works on a ready provider. -/
theorem SystemInvariant.ready (h : SystemInvariant sports s) (built : s.server.built = true)
    : s.app.Ready :=
  h.created (by simp [h.built.mp built])

/-- A step of the application that does not start the server leaves it alone. -/
theorem SystemInvariant.withApp_eq (h : SystemInvariant sports s) (app : AppState Score)
    (started : app.rpcServer = .started → s.app.rpcServer = .started)
    : s.withApp app = { s with app } := by
  have running : ¬ (app.rpcServer = .started ∧ s.server.built = false) := by
    intro both
    have built := h.built.mpr (started both.1)
    simp [built] at both
  simp [SystemState.withApp, running]

/-- The provider moves on under the endpoint and the stream: it stays constructed and ready. -/
theorem SystemInvariant.moved (h : SystemInvariant sports s) {t : SystemState Score}
    {provider : ProviderState Score} {begun : List String}
    (invariant : ProviderInvariant sports begun provider)
    (constructed : s.app.provider.Constructed → provider.Constructed)
    (grown : s.app.provider.polls <+: provider.polls)
    (app : t.app = { s.app with provider })
    (built : t.server.built = s.server.built)
    (untouched : t.server.built = false
      → t.server = { threads := rpcThreads } ∧ t.fetch = none)
    (unsent : t.server.built = false → ∀ sport item,
      t.cache.lookup sport = some item → item.lastSend = 0)
    : SystemInvariant sports t := by
  obtain ⟨_, before⟩ := h.provider
  have ready (yes : s.app.Ready) : provider.provider.state = .ready :=
    before.ready_of_later invariant yes.1 (constructed yes.1) grown yes.2
  refine ⟨⟨begun, app ▸ invariant⟩, ?_, ?_, ?_, ?_, untouched, unsent⟩
  · rw [app]
    exact ⟨h.oneServer.guarded, h.oneServer.starting, h.oneServer.served, h.oneServer.created,
      h.oneServer.started⟩
  · rw [app]
    exact h.kept.provider constructed ready
  · rw [app]
    intro set
    have yes := h.created set
    exact ⟨constructed yes.1, ready yes⟩
  · rw [built, app]
    exact h.built

/-- Registrations and polls send nothing. -/
theorem unsent_updateCache {cache : LinesCache Score}
    (unsent : ∀ sport item, cache.lookup sport = some item → item.lastSend = 0)
    (updated : String) (score : Score) (sport : String) (item : LimesDeltaCacheItem Score)
    (found : (updateCache cache updated score).lookup sport = some item)
    : item.lastSend = 0 := by
  by_cases here : sport = updated
  · subst updated
    cases looked : cache.lookup sport with
    | none =>
        rw [lookup_updateCache_of_none looked] at found
        obtain rfl := Option.some.inj found
        rfl
    | some before =>
        rw [lookup_updateCache_of_some looked] at found
        obtain rfl := Option.some.inj found
        exact unsent sport before looked
  · rw [lookup_updateCache_of_ne cache here] at found
    exact unsent sport item found

theorem SystemInvariant.callback_step (h : SystemInvariant sports s) {id : Nat}
    {app : AppState Score} (taken : CallbackStep s.app id app)
    : SystemInvariant sports (s.withApp app) := by
  have oneServer := h.oneServer.step taken
  have kept := h.kept.step taken
  have same : app.provider = s.app.provider := by cases taken <;> rfl
  have ready : app.rpcServer ≠ .unset → app.Ready := by
    intro set
    have yes : s.app.Ready := by
      cases taken with
      | create pc _ => exact h.kept.passed id (by simp [pc, CallbackPc.passed])
      | start pc => exact h.kept.passed id (by simp [pc, CallbackPc.passed])
      | _ => exact h.created set
    rwa [AppState.Ready, same]
  by_cases starts : app.rpcServer = .started ∧ s.server.built = false
  · have server : (s.withApp app).server = s.server.start := by
      simp [SystemState.withApp, starts]
    refine ⟨?_, oneServer, kept, ready, ?_, ?_, ?_⟩
    · change ∃ begun, ProviderInvariant sports begun app.provider
      exact same ▸ h.provider
    · rw [server]
      exact iff_of_true rfl starts.1
    · rw [server]
      exact fun unbuilt => by simp [Server.State.start] at unbuilt
    · rw [server]
      exact fun unbuilt => by simp [Server.State.start] at unbuilt
  · have server : (s.withApp app).server = s.server := by
      simp only [SystemState.withApp, if_neg starts]
    refine ⟨?_, oneServer, kept, ready, ?_, ?_, ?_⟩
    · change ∃ begun, ProviderInvariant sports begun app.provider
      exact same ▸ h.provider
    · rw [server]
      constructor
      · intro built
        have started := h.built.mp built
        cases taken with
        | create _ unset => simp [started] at unset
        | start _ => rfl
        | _ => exact started
      · intro started
        by_contra unbuilt
        exact starts ⟨started, by simpa using unbuilt⟩
    · rw [server]
      exact h.untouched
    · rw [server, SystemState.cache, SystemState.withApp, same]
      exact h.unsent

variable [Sub Score] {base : String}

theorem SystemInvariant.provider_step (h : SystemInvariant sports s)
    {action : ProviderAction Score} {provider : ProviderState Score}
    (own : AppAction.Own (.provider action))
    (taken : ProviderStep base s.app.provider action provider)
    : SystemInvariant sports (s.withApp { s.app with provider }) := by
  obtain ⟨begun, before⟩ := h.provider
  obtain ⟨begunLater, invariant⟩ := before.step taken
  obtain ⟨constructed, grown⟩ := taken.later
  rw [h.withApp_eq { s.app with provider } id]
  refine h.moved invariant constructed grown rfl rfl h.untouched ?_
  intro unbuilt
  cases taken with
  | register _ _ => exact unsent_updateCache (h.unsent unbuilt) _ _
  | startPoller _ => exact h.unsent unbuilt
  | poll _ _ => exact unsent_updateCache (h.unsent unbuilt) _ _
  | fetch _ _ => exact absurd own id

variable [DecidableEq Score]

theorem SystemInvariant.session_step (h : SystemInvariant sports s)
    {action : Session.Action Score} (may : s.MayStep action) {session : Session.State Score}
    (taken : Session.step s.session action = some session)
    : SystemInvariant sports (s.withSession session) := by
  obtain ⟨begun, before⟩ := h.provider
  have same := received_session_step taken may.quiet
  have invariant : ProviderInvariant sports begun (s.withSession session).app.provider := by
    refine ⟨before.order, ?_, before.adding, before.pollers, before.polls⟩
    exact fun sport => (same sport).trans (before.cached sport)
  rcases may.client_or_built with ⟨act, rfl⟩ | built
  · obtain ⟨_, mapped⟩ := Option.ite_none_right_eq_some.mp taken
    obtain ⟨client, _, rfl⟩ := Option.map_eq_some_iff.mp mapped
    exact h.moved invariant id (List.prefix_refl _) rfl rfl h.untouched h.unsent
  · have still := built_session_step taken built
    refine h.moved invariant id (List.prefix_refl _) rfl (still.trans built.symm) ?_ ?_
    all_goals
      intro unbuilt
      exact absurd (still.symm.trans unbuilt) (by simp)

theorem systemInvariant_of_reachable
    (reached : (systemMachine Score sports base).Reachable s)
    : SystemInvariant sports s := by
  apply reached.invariant (motive := SystemInvariant sports)
  · have fresh : (appMachine Score sports base).Reachable (appMachine Score sports base).init :=
      Machine.reachable_init
    have start := appInvariant_of_reachable fresh
    have provider := exists_providerInvariant (provider_reachable fresh)
    refine ⟨provider, start.oneServer, start.kept, ?_, ?_, fun _ => ⟨rfl, rfl⟩, ?_⟩
    · simp [systemMachine, appMachine]
    · simp [systemMachine, appMachine]
    · simp [systemMachine, appMachine, providerMachine, SystemState.cache]
  · intro s action next _ h taken
    rcases systemStep_cases taken with ⟨_, _, own, moved, rfl⟩ | ⟨_, _, moved, rfl⟩
      | ⟨_, _, may, moved, rfl⟩
    · exact h.provider_step own moved
    · exact h.callback_step moved
    · exact h.session_step may moved

end Invariant

-----------------------------------------------------------------------------------------
-- The stream of a system is a session
-----------------------------------------------------------------------------------------

namespace SystemState

/-- The session that the system is: one whose server is started from the beginning and whose
cache has all registrations that are still to come.
-/
def view [Zero Score] (s : SystemState Score) : Session.State Score :=
  { s.session with
    server := if s.server.built then s.server else s.server.start
    cache := registerAll s.cache s.app.provider.todo }

end SystemState

section View

variable [Zero Score] {sports : Sports} {s : SystemState Score}

theorem view_provider (s : SystemState Score) (provider : ProviderState Score)
    : SystemState.view { s with app := { s.app with provider } }
      = { s.view with cache := registerAll provider.traffic.cache provider.todo } := rfl

/-- On a started server nothing is to come. -/
theorem SystemInvariant.view_eq (h : SystemInvariant sports s) (built : s.server.built = true)
    : s.view = s.session := by
  have none := (h.ready built).1.1
  simp [SystemState.view, SystemState.session, none, built, registerAll]

/-- The client cannot tell a server that is not started from one that has not moved. -/
theorem nextResponse_view (s : SystemState Score)
    : s.view.nextResponse = s.session.nextResponse := by
  have log : s.view.server.log = s.session.server.log := by
    simp only [SystemState.view, SystemState.session]
    split <;> rfl
  rw [Session.State.nextResponse, log]
  rfl

theorem clientMay_view (s : SystemState Score) (act : Client.Action Score)
    : Session.ClientMay s.view act ↔ Session.ClientMay s.session act := by
  have same := nextResponse_view s
  unfold Session.ClientMay
  split
  · rw [same]
  · rfl

variable [DecidableEq Score] [Sub Score] {base : String}

/-- A poll is an update of the session, also while other sports are still to be registered. -/
theorem SystemInvariant.view_poll (h : SystemInvariant sports s) {address sport : String}
    (running : s.app.provider.pollers.lookup address = some sport) (score : Score)
    : Session.step s.view (.update sport score)
      = some
          { s.view with
            cache := registerAll (updateCache s.cache sport score) s.app.provider.todo } := by
  obtain ⟨begun, invariant⟩ := h.provider
  have mine := invariant.pollers address sport running
  have done : sport ∉ s.app.provider.todo := by
    have distinct := sports.nodup
    rw [← Sports.names, ← invariant.order] at distinct
    exact fun member => (List.disjoint_of_nodup_append distinct) mine member
  have cached : sport ∈ s.cache := by
    rw [← received_isSome_iff, SystemState.cache, invariant.cached sport, if_pos mine]
    rfl
  have there : (s.view.cache.lookup sport).isSome := by
    rw [Finmap.lookup_isSome]
    exact (mem_foldl_updateCache _ _ _).mpr (Or.inr cached)
  rw [registerAll_updateCache s.cache done score]
  simp only [Session.step, there, if_true]
  rfl

theorem SystemInvariant.view_session (h : SystemInvariant sports s)
    {act : Session.Action Score} (may : s.MayStep act) {session : Session.State Score}
    (moved : Session.step s.session act = some session)
    : Session.step s.view act = some (s.withSession session).view := by
  rcases may.client_or_built with ⟨act, rfl⟩ | built
  · obtain ⟨allowed, mapped⟩ := Option.ite_none_right_eq_some.mp moved
    obtain ⟨client, went, rfl⟩ := Option.map_eq_some_iff.mp mapped
    have taken : Client.step s.view.client act = some client := went
    simp only [Session.step, if_pos ((clientMay_view s act).mpr allowed), taken]
    rfl
  · have still : (s.withSession session).server.built = true := built_session_step moved built
    rw [h.view_eq built, (h.session_step may moved).view_eq still, moved]
    rfl

/-- Seen as a session, a step of the system is none, a poll, or the step of its session. -/
theorem SystemInvariant.view_step (h : SystemInvariant sports s) {next : SystemState Score}
    {action : SystemAction Score} (taken : systemStep base s action = some next)
    : next.view = s.view
      ∨ (∃ sport score, Session.step s.view (.update sport score) = some next.view)
      ∨ ∃ act,
          action = .session act
          ∧ s.MayStep act
          ∧ Session.step s.view act = some next.view := by
  cases action with
  | session act =>
      obtain ⟨may, mapped⟩ := Option.ite_none_right_eq_some.mp taken
      obtain ⟨session, moved, rfl⟩ := Option.map_eq_some_iff.mp mapped
      exact Or.inr (Or.inr ⟨act, rfl, may, h.view_session may moved⟩)
  | app action =>
      obtain ⟨own, mapped⟩ := Option.ite_none_right_eq_some.mp taken
      obtain ⟨app, went, rfl⟩ := Option.map_eq_some_iff.mp mapped
      rcases appStep_cases went with ⟨step, provider, rfl, moved, rfl⟩ | ⟨id, rfl, moved⟩
      · rw [h.withApp_eq { s.app with provider } id, view_provider]
        cases moved with
        | @register sport rest ahead free =>
            -- What is registered now was to come before.
            left
            have same : registerAll (updateCache s.cache sport 0) rest = s.view.cache := by
              simp [SystemState.view, ahead, registerAll]
            exact congrArg (fun cache => { s.view with cache }) same
        | startPoller _ => exact Or.inl rfl
        | @poll _ sport score running =>
            exact Or.inr (Or.inl ⟨sport, score, h.view_poll running score⟩)
        | fetch _ _ => exact absurd own id
      · left
        have provider : app.provider = s.app.provider := by cases moved <;> rfl
        simp only [SystemState.view, SystemState.session, SystemState.cache,
          SystemState.withApp, provider]
        by_cases starts : app.rpcServer = .started ∧ s.server.built = false
        · simp [starts, Server.State.start]
        · simp only [if_neg starts]

/-- Seen as a session, the system makes the steps of one. -/
theorem view_reachable (reached : (systemMachine Score sports base).Reachable s)
    : (Session.machine Score rpcThreads sports.names).Reachable s.view := by
  apply reached.invariant
    (motive := fun s => (Session.machine Score rpcThreads sports.names).Reachable s.view)
  · exact Machine.reachable_init
  · intro s action next before known taken
    rcases (systemInvariant_of_reachable before).view_step taken with same
      | ⟨sport, score, moved⟩ | ⟨act, -, -, moved⟩
    · exact same ▸ known
    · have update
        : (Session.machine Score rpcThreads sports.names).step s.view (.update sport score)
          = some next.view := moved
      exact known.step update
    · have same
        : (Session.machine Score rpcThreads sports.names).step s.view act
          = some next.view := moved
      exact known.step same

end View

end RVision.App
