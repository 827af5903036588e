import RVision.App.System

/-! What reaches the callback of the client, from the configured sports and their polls through
the endpoint, the cache, the writer and the stream: every list answers one of the client's own
requests, and no score is made up on the way.
-/

namespace RVision.App

open Transition Lines.Provider
open RVision.Rpc

variable {Score : Type}

/-- A score that was received was polled; what was sent was polled or is the 0 of an item of
which nothing was sent yet.
-/
def polledSources [Zero Score] (polls : List (String × Score)) : Session.Sources Score where
  recv sport score := (sport, score) ∈ polls
  send sport score := score = 0 ∨ (sport, score) ∈ polls
  sent _ _ polled := Or.inr polled

/-- `lines` is an answer to a request for `requested`: it has one line for each requested sport
that is configured, an absolute score where the subscription had changed and a difference
otherwise.
-/
structure Delivered [Zero Score] [Sub Score] (sports : Sports) (polls : List (String × Score))
    (requested : List String) (changed : Bool) (lines : List (Score × String)) : Prop where
  distinct : (lines.map Prod.snd).Nodup
  named
    : ∀ sport, sport ∈ lines.map Prod.snd ↔ sport ∈ requested ∧ sport ∈ sports.names
  scores : ∀ line ∈ lines, (polledSources polls).Value changed line.2 line.1

section Sources

variable [Zero Score] {sports : Sports} {s : SystemState Score}

/-- On a ready provider every item has the score of a poll. -/
theorem SystemInvariant.recv_of_ready (h : SystemInvariant sports s) (ready : s.app.Ready)
    {sport : String} {item : LimesDeltaCacheItem Score}
    (found : s.cache.lookup sport = some item)
    : (sport, item.lastRecv) ∈ s.app.provider.polls := by
  obtain ⟨begun, invariant⟩ := h.provider
  have view := invariant.cached_of_constructed ready.1 sport
  rw [received, show s.app.provider.traffic.cache.lookup sport = some item from found] at view
  split_ifs at view with member
  · -- The sport was polled, so the item has its latest score.
    have polled := ((invariant.ready_iff ready.1).mp ready.2).2 sport member
    rw [s.app.provider.polled_iff, Option.isSome_iff_exists] at polled
    obtain ⟨score, latest⟩ := polled
    simp only [receivedAfter, latest, Option.map_some, Option.some.injEq, Prod.mk.injEq]
      at view
    rw [view.2]
    obtain ⟨poll, last, same⟩ := Option.map_eq_some_iff.mp latest
    obtain ⟨there, here⟩ := List.mem_filter.mp (List.mem_of_getLast? last)
    rw [decide_eq_true_eq] at here
    rw [← same, ← here]
    exact there
  · simp at view

/-- When the server is started nothing was called and nothing was sent. -/
theorem SystemInvariant.sourced_of_start [Sub Score] (h : SystemInvariant sports s)
    (unbuilt : s.server.built = false) (ready : s.app.Ready)
    : Session.Sourced (polledSources s.app.provider.polls)
        { s.session with server := s.server.start } := by
  obtain ⟨fresh, idle⟩ := h.untouched unbuilt
  refine ⟨?_, ?_, ?_, ?_⟩
  · intro sport item found
    exact ⟨h.recv_of_ready ready found, Or.inl (h.unsent unbuilt sport item found)⟩
  · simp [SystemState.session, idle]
  · simp [fresh, Server.State.start, Server.invocations]
  · simp [fresh, Server.State.start, Server.invocations]

/-- Once the server is started, the provider does nothing but poll. -/
theorem SystemInvariant.sourced_provider_step [Sub Score] {base : String}
    (h : SystemInvariant sports s) (started : s.server.built = true)
    {step : ProviderAction Score} {provider : ProviderState Score}
    (own : AppAction.Own (.provider step))
    (moved : ProviderStep base s.app.provider step provider)
    (sourced : Session.Sourced (polledSources s.app.provider.polls) s.session)
    : Session.Sourced (polledSources provider.polls)
        { s.session with cache := provider.traffic.cache } := by
  cases moved with
  | register ahead _ =>
      have none := (h.ready started).1.1
      simp [none] at ahead
  | startPoller _ => exact ⟨sourced.cache, sourced.fetching, sourced.called, sourced.distinct⟩
  | @poll address sport score running =>
      obtain ⟨_, invariant⟩ := h.provider
      have cached : (s.session.cache.lookup sport).isSome := by
        rw [Finmap.lookup_isSome, ← received_isSome_iff]
        change (received s.app.provider.traffic.cache sport).isSome
        rw [invariant.cached sport, if_pos (invariant.pollers address sport running)]
        rfl
      have wider
          : Session.Sourced (polledSources (s.app.provider.polls ++ [(sport, score)]))
              s.session := by
        refine sourced.mono ?_ ?_
        · exact fun _ _ member => List.mem_append_left _ member
        · exact fun _ _ => Or.imp_right (List.mem_append_left _)
      exact wider.update cached (List.mem_append_right _ (List.mem_singleton.mpr rfl))
  | fetch _ _ => exact absurd own not_false

end Sources

section Runs

variable [DecidableEq Score] [Zero Score] [Sub Score] {sports : Sports} {base : String}
  {s : SystemState Score}

/-- From the start of the server on, all scores of its stream come from polls. -/
theorem sourced_of_reachable (reached : (systemMachine Score sports base).Reachable s)
    (built : s.server.built = true)
    : Session.Sourced (polledSources s.app.provider.polls) s.session := by
  refine reached.invariant
    (motive := fun s => s.server.built = true
      → Session.Sourced (polledSources s.app.provider.polls) s.session)
    (fun started => by simp [systemMachine] at started) ?_ built
  intro s action next before known taken started
  have h := systemInvariant_of_reachable before
  rcases systemStep_cases taken with ⟨_, provider, own, moved, rfl⟩ | ⟨id, app, moved, rfl⟩
    | ⟨act, session, may, moved, rfl⟩
  · rw [h.withApp_eq { s.app with provider } id] at started ⊢
    exact h.sourced_provider_step started own moved (known started)
  · have polls : app.provider = s.app.provider := by cases moved <;> rfl
    by_cases starts : app.rpcServer = .started ∧ s.server.built = false
    · have ready : s.app.Ready := by
        have later := (h.callback_step moved).ready started
        rwa [AppState.Ready, show (s.withApp app).app.provider = s.app.provider from polls]
          at later
      have sourced := h.sourced_of_start starts.2 ready
      simp only [SystemState.session, SystemState.cache, SystemState.withApp, starts,
        and_self, if_true, polls] at sourced ⊢
      exact sourced
    · have same : (s.withApp app).server = s.server := by
        simp only [SystemState.withApp, if_neg starts]
      rw [same] at started
      have sourced := known started
      simp only [SystemState.session, SystemState.cache, SystemState.withApp, if_neg starts,
        polls] at sourced ⊢
      exact sourced
  · rcases may.client_or_built with ⟨act, rfl⟩ | running
    · obtain ⟨_, mapped⟩ := Option.ite_none_right_eq_some.mp moved
      obtain ⟨client, _, rfl⟩ := Option.map_eq_some_iff.mp mapped
      have sourced := known started
      exact ⟨sourced.cache, sourced.fetching, sourced.called, sourced.distinct⟩
    · have session := view_reachable before
      rw [h.view_eq running] at session
      refine (known running).step (Session.served_of_reachable session) moved ?_
      exact fun sport score same => absurd same (may.quiet sport score)

/-- In every run of the application, any list that the client's callback gets is the answer to
a request that the client has written: one line for each requested sport that is configured,
with a polled score or with a polled score less what was sent before.
-/
theorem delivered_of_reachable (reached : (systemMachine Score sports base).Reachable s)
    {position : Nat} {lines : List (Score × String)}
    (handed : (Client.handedLines s.client.log)[position]? = some lines)
    : ∃ request ∈ Client.writtenRequests s.client.log, ∃ invocation,
        (Server.invocations s.server.log)[position]? = some invocation
        ∧ Delivered sports s.app.provider.polls request.sports invocation.changed lines := by
  have h := systemInvariant_of_reachable reached
  have session := view_reachable reached
  obtain ⟨invocation, called, rfl⟩ := Session.invocation_of_handed session handed
  -- A server that has called its callback is started.
  have built : s.server.built = true := by
    by_contra unbuilt
    obtain ⟨fresh, _⟩ := h.untouched (by simpa using unbuilt)
    simp [SystemState.view, fresh, Server.State.start, Server.invocations] at called
  rw [h.view_eq built] at session called
  have sourced := sourced_of_reachable reached built
  have member := List.mem_of_getElem? called
  refine ⟨_, Session.requested_of_invocation session member, invocation, called, ?_, ?_, ?_⟩
  · rw [Session.handedBy, List.map_map]
    exact sourced.distinct invocation member
  · intro sport
    rw [Session.handedBy, List.map_map]
    refine ((Session.served_of_reachable session).called invocation member sport).trans ?_
    exact and_congr_right (fun _ => mem_registered sports.names sport)
  · intro line returned
    obtain ⟨entry, there, rfl⟩ := List.mem_map.mp returned
    exact sourced.called invocation member entry there

end Runs

/-- Football is polled, the endpoint starts the server, and the client asks for football and for
chess, which is not configured.
-/
def firstAnswerRun : List (SystemAction Rat) :=
  [.app (.provider .register), .app (.provider .startPoller),
    .session (.client (.push 0 (5, ["football", "chess"]))),
    .app (.provider (.poll "lines/football" 3))]
  ++ List.replicate 8 (.app (.callback 0))
  ++ [.session (.client (.exchange 0)), .session (.client (.startCall 0)),
    .session (.client .loop), .session (.client .enter),
    .session (.client (.deliver (.start true))),
    .session (.server (.worker 0 .post)), .session (.server (.worker 0 .loop)),
    .session (.server (.worker 0 (.deliver (.connect true)))),
    .session (.server (.worker 0 .read)), .session (.server (.worker 0 .loop)),
    .session (.server (.worker 0 (.deliver
      (.read (some { pollingPeriod := 5, sports := ["football", "chess"] }))))),
    .session (.server (.worker 0 .checkRequest)),
    .session (.server (.worker 0 .storeChanged)), .session (.server (.writer .outer)),
    .session (.server (.writer .test)), .session (.server (.writer .inner)),
    .session (.server (.writer .exchange)), .session (.server (.writer .copy)),
    .session .fetch, .app (.provider (.poll "lines/football" 7)), .session .line,
    .session .line, .session (.server (.writer (.callback [("football", 7)]))),
    .session (.server (.writer .write)), .session (.client .loop), .session (.client .enter),
    .session (.client (.deliver (.write true))), .session (.client .loop),
    .session (.client .enter), .session (.client (.deliver (.read (some
      { lines := [{ score := 7, sport := "football" }] }))))]

theorem delivered_firstAnswerRun
    : ∃ s,
        (systemMachine Rat football "lines").run firstAnswerRun = some s
        ∧ Client.handedLines s.client.log = [[(7, "football")]]
        ∧ ∃ request ∈ Client.writtenRequests s.client.log, ∃ invocation,
            (Server.invocations s.server.log)[0]? = some invocation
            ∧ Delivered football s.app.provider.polls request.sports invocation.changed
                [(7, "football")] := by
  obtain ⟨s, ran, handed⟩
      : ∃ s,
          (systemMachine Rat football "lines").run firstAnswerRun = some s
          ∧ Client.handedLines s.client.log = [[(7, "football")]] := by
    apply Option.map_eq_some_iff.mp
    show ((systemMachine Rat football "lines").run firstAnswerRun).map
      (fun s => Client.handedLines s.client.log) = some [[(7, "football")]]
    decide +kernel
  exact ⟨s, ran, handed, delivered_of_reachable ⟨firstAnswerRun, ran⟩ (by rw [handed]; rfl)⟩

end RVision.App
