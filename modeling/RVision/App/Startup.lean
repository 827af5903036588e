import RVision.App.Handler
import RVision.Lines.Provider.Tracking

/-! Starting up. Whatever the provider's constructor, the pollers and the requests have done so
far, a request to the `ready` endpoint can still be answered 200: exactly if it was not told
already that it is too early, and if there is a sport to poll.
-/

namespace RVision.App

open Transition Lines.Provider

variable {Score : Type}

-----------------------------------------------------------------------------------------
-- The provider can become ready
-----------------------------------------------------------------------------------------

/-- Every configured sport is still to be added, is being added or has its poller. -/
structure Watched (sports : Sports) (base : String) (s : ProviderState Score) : Prop where
  addressed : Addressed base s.pollers
  watched
    : ∀ sport ∈ sports.names,
        sport ∈ s.todo ∨ s.adding = some sport ∨ HasPoller s.pollers sport

section Provider

variable [Zero Score] [Sub Score] {sports : Sports} {base : String} {s : ProviderState Score}

theorem Watched.step {next : ProviderState Score} {action : ProviderAction Score}
    (h : Watched sports base s) (taken : ProviderStep base s action next)
    : Watched sports base next := by
  cases taken with
  | @register sport rest ahead free =>
      refine ⟨h.addressed, ?_⟩
      intro other member
      rcases h.watched other member with waiting | adding | polled
      · rw [ahead] at waiting
        rcases List.mem_cons.mp waiting with rfl | later
        · exact Or.inr (Or.inl rfl)
        · exact Or.inl later
      · simp [free] at adding
      · exact Or.inr (Or.inr polled)
  | @startPoller sport registered =>
      refine ⟨h.addressed.startPoller sport, ?_⟩
      intro other member
      rcases h.watched other member with waiting | adding | polled
      · exact Or.inl waiting
      · obtain rfl := Option.some.inj (registered.symm.trans adding)
        exact Or.inr (Or.inr ((h.addressed.hasPoller_startPoller _ _).mpr (Or.inl rfl)))
      · exact Or.inr (Or.inr ((h.addressed.hasPoller_startPoller _ _).mpr (Or.inr polled)))
  | poll _ _ | fetch _ _ => exact ⟨h.addressed, h.watched⟩

theorem watched_of_reachable (reached : (providerMachine Score sports base).Reachable s)
    : Watched sports base s := by
  apply reached.invariant (motive := Watched sports base)
  · exact ⟨by simp [providerMachine, Addressed], fun sport member => Or.inl member⟩
  · exact fun _ _ _ _ before taken => before.step (.of_step taken)

/-- The constructor can always go on to its end. -/
theorem exists_constructed (s : ProviderState Score)
    : ∃ actions later,
        (∀ action ∈ actions, action = .register ∨ action = .startPoller)
        ∧ (providerMachine Score sports base).runFrom s actions = some later
        ∧ later.Constructed := by
  refine Machine.exists_runFrom_of_rank (fun _ => True) ProviderState.Constructed
    (fun s => 2 * s.todo.length + s.adding.isSome.toNat) ?_ trivial
  intro s _
  cases adding : s.adding with
  | some sport =>
      have taken
          : (providerMachine Score sports base).step s .startPoller
            = some { s with pollers := startPoller base s.pollers sport, adding := none } :=
        congrArg (Option.map _) adding
      exact Or.inr ⟨_, _, Or.inr rfl, taken, trivial, by simp⟩
  | none =>
      cases ahead : s.todo with
      | nil => exact Or.inl ⟨ahead, adding⟩
      | cons sport rest =>
          have taken
              : (providerMachine Score sports base).step s .register
                = some
                    { s with
                      traffic := { s.traffic with cache := updateCache s.traffic.cache sport 0 }
                      todo := rest
                      adding := some sport } := by
            simp [providerMachine, providerStep, ahead, adding]
          refine Or.inr ⟨_, _, Or.inl rfl, taken, trivial, ?_⟩
          simp only [List.length_cons, Option.isSome_some, Option.isSome_none, Bool.toNat_true,
            Bool.toNat_false]
          omega

/-- The pollers of a constructed provider can call back one after the other. -/
theorem exists_polled (reached : (providerMachine Score sports base).Reachable s)
    (constructed : s.Constructed) {names : List String} (configured : names ⊆ sports.names)
    : ∃ actions later,
        (∀ traffic, .fetch traffic ∉ actions)
        ∧ (providerMachine Score sports base).runFrom s actions = some later
        ∧ ∀ sport ∈ names, later.Polled sport := by
  induction names with
  | nil => exact ⟨[], s, by simp, rfl, List.forall_mem_nil _⟩
  | cons sport rest ih =>
      obtain ⟨mine, others⟩ := List.cons_subset.mp configured
      obtain ⟨actions, middle, own, ran, polled⟩ := ih others
      have still := (runFrom_later ran constructed).1
      have there := reached.runFrom ran
      obtain ⟨address, running⟩ : HasPoller middle.pollers sport := by
        rcases (watched_of_reachable there).watched sport mine with waiting | adding | found
        · simp [still.1] at waiting
        · simp [still.2] at adding
        · exact found
      refine ⟨actions ++ [.poll address 0],
        { middle with
          traffic := { middle.traffic with cache := updateCache middle.traffic.cache sport 0 }
          polls := middle.polls ++ [(sport, 0)] }, ?_, ?_, ?_⟩
      · simp [own]
      · rw [Machine.runFrom_append, ran]
        simp [Machine.runFrom, providerMachine, providerStep, running]
      · refine List.forall_mem_cons.mpr ⟨⟨0, by simp⟩, ?_⟩
        intro other member
        obtain ⟨score, poll⟩ := polled other member
        exact ⟨score, List.mem_append_left _ poll⟩

/-- A provider with something to poll can become ready. -/
theorem exists_ready (reached : (providerMachine Score sports base).Reachable s)
    (configured : sports.names ≠ [])
    : ∃ actions later,
        (∀ traffic, .fetch traffic ∉ actions)
        ∧ (providerMachine Score sports base).runFrom s actions = some later
        ∧ later.Constructed
        ∧ later.provider.state = .ready := by
  obtain ⟨building, built, own, ran, constructed⟩ := exists_constructed s
  have there := reached.runFrom ran
  obtain ⟨polling, later, owned, goesOn, polled⟩ :=
    exists_polled there constructed (List.Subset.refl sports.names)
  have still := (runFrom_later goesOn constructed).1
  obtain ⟨_, invariant⟩ := exists_providerInvariant (there.runFrom goesOn)
  refine ⟨building ++ polling, later, ?_, ?_, still, ?_⟩
  · intro traffic member
    rcases List.mem_append.mp member with early | late
    · rcases own _ early with same | same <;> cases same
    · exact owned traffic late
  · rw [Machine.runFrom_append, ran]
    exact goesOn
  · exact (invariant.ready_iff still).mpr ⟨configured, polled⟩

end Provider

-----------------------------------------------------------------------------------------
-- The request can be answered
-----------------------------------------------------------------------------------------

theorem mem_answers_iff {log : List AppEvent} {id : Nat} {status : HttpStatus}
    : status ∈ answers log id ↔ .answered id status ∈ log := by
  rw [answers, List.mem_filterMap]
  constructor
  · intro found
    obtain ⟨event, member, kept⟩ := found
    cases event with
    | answered other given =>
        obtain ⟨rfl, same⟩ := Option.ite_none_right_eq_some.mp kept
        exact Option.some.inj same ▸ member
    | _ => cases kept
  · exact fun member => ⟨_, member, by simp⟩

/-- An execution answers when it returns, and only then. -/
structure AnsweredOnce (s : AppState Score) : Prop where
  before : ∀ id, s.callbacks id ≠ .returned → answers s.log id = []
  once : ∀ id, (answers s.log id).length ≤ 1

theorem AnsweredOnce.step {s next : AppState Score} {id : Nat} (h : AnsweredOnce s)
    (taken : CallbackStep s id next)
    : AnsweredOnce next := by
  by_cases answering : ∃ status, s.callbacks id = .answering status
  · obtain ⟨status, pc⟩ := answering
    obtain rfl := taken.answered pc
    have first : answers s.log id = [] := h.before id (by simp [pc])
    refine ⟨?_, ?_⟩
    · intro other running
      by_cases here : other = id
      · simp [here] at running
      · simp only [AppState.goto_callbacks, Function.update_of_ne here] at running
        rw [answers_concat_of_ne _ here]
        exact h.before other running
    · intro other
      by_cases here : other = id
      · simp [here, answers_concat_self, first]
      · simpa [answers_concat_of_ne _ here] using h.once other
  · have silent (other : Nat) : answers next.log other = answers s.log other :=
      taken.answers_eq (fun status pc => answering ⟨status, pc⟩) other
    refine ⟨?_, fun other => silent other ▸ h.once other⟩
    intro other running
    rw [silent]
    by_cases here : other = id
    · subst here
      apply h.before
      intro returned
      cases taken <;> simp_all
    · exact h.before other (taken.callbacks_of_ne here ▸ running)

/-- A request that was refused has no 200 as well. -/
theorem AnsweredOnce.not_ok {s : AppState Score} (h : AnsweredOnce s) {id : Nat}
    (refused : Refused s id)
    : .ok ∉ answers s.log id := by
  intro answered
  rcases refused with answering | refused
  · have none := h.before id (by simp [answering])
    simp [none] at answered
  · obtain ⟨status, only⟩ := List.length_eq_one_iff.mp
      (Nat.le_antisymm (h.once id) (List.length_pos_of_mem answered))
    rw [only, List.mem_singleton] at answered refused
    rw [← answered] at refused
    cases refused

section Endpoint

variable [Zero Score] [Sub Score] {sports : Sports} {base : String} {s : AppState Score}

theorem answeredOnce_of_reachable (reached : (appMachine Score sports base).Reachable s)
    : AnsweredOnce s := by
  apply reached.invariant (motive := AnsweredOnce)
  · exact ⟨fun _ _ => rfl, fun _ => Nat.zero_le _⟩
  · intro s action next _ before taken
    rcases appStep_cases taken with ⟨_, provider, -, -, rfl⟩ | ⟨id, -, moved⟩
    · exact ⟨before.before, before.once⟩
    · exact before.step moved

/-- A refusal is final. -/
theorem refused_of_runFrom {later : AppState Score} {actions : List (AppAction Score)} {id : Nat}
    (ran : (appMachine Score sports base).runFrom s actions = some later) (refused : Refused s id)
    : Refused later id := by
  apply Machine.runFrom_invariant ran (motive := fun state => Refused state id) refused
  intro state action next before taken
  rcases appStep_cases taken with ⟨_, provider, -, -, rfl⟩ | ⟨other, -, moved⟩
  · exact before
  · exact (moved.refused_iff id).mpr (Or.inl before)

/-- The application follows a run of its provider. -/
theorem runFrom_provider {provider : ProviderState Score} {actions : List (ProviderAction Score)}
    (ran : (providerMachine Score sports base).runFrom s.provider actions = some provider)
    : (appMachine Score sports base).runFrom s (actions.map .provider)
      = some { s with provider } := by
  induction actions generalizing s with
  | nil =>
      obtain rfl := Option.some.inj ran
      rfl
  | cons action rest ih =>
      obtain ⟨next, taken, later⟩ := Option.bind_eq_some_iff.mp ran
      have moved
          : (appMachine Score sports base).step s (.provider action)
            = some { s with provider := next } :=
        congrArg (Option.map _) taken
      rw [List.map_cons, Machine.runFrom, moved]
      exact ih (s := { s with provider := next }) later

/-- Once the provider is ready, a request that was not refused can go on to its 200. -/
theorem exists_ok (reached : (appMachine Score sports base).Reachable s) (ready : s.Ready)
    {id : Nat} (welcome : ¬ Refused s id)
    : ∃ actions later,
        (∀ action ∈ actions, ∃ other, action = AppAction.callback other)
        ∧ (appMachine Score sports base).runFrom s actions = some later
        ∧ .ok ∈ answers later.log id := by
  refine Machine.exists_runFrom_of_rank
    (fun s => (appMachine Score sports base).Reachable s ∧ s.Ready ∧ ¬ Refused s id)
    (fun s => .ok ∈ answers s.log id) (fun s => s.distance id) ?_ ⟨reached, ready, welcome⟩
  intro state onWay
  obtain ⟨here, ready, welcome⟩ := onWay
  have invariant := appInvariant_of_reachable here
  by_cases returned : state.callbacks id = .returned
  · left
    obtain ⟨status, answered⟩ := invariant.answered.returned id returned
    cases status with
    | ok => exact mem_answers_iff.mpr answered
    | tooEarly => exact absurd (Or.inr (mem_answers_iff.mpr answered)) welcome
  · right
    obtain ⟨other, next, moved, closer⟩
        : ∃ other next, CallbackStep state other next ∧ next.distance id < state.distance id := by
      by_cases idle : state.callbacks id = .idle
      · have moved := CallbackStep.begin idle ready.1
        exact ⟨id, _, moved, moved.distance_lt⟩
      · obtain ⟨other, next, -, moved, closer⟩ := invariant.closer idle returned
        exact ⟨other, next, moved, closer⟩
    have taken : (appMachine Score sports base).step state (.callback other) = some next :=
      httpReadyCallback_eq_some.mpr moved
    refine ⟨.callback other, next, ⟨other, rfl⟩, taken, ⟨here.step taken, ?_, ?_⟩, closer⟩
    · rw [AppState.Ready, moved.provider_eq]
      exact ready
    · intro refused
      rcases (moved.refused_iff id).mp refused with earlier | ⟨-, -, no⟩
      · exact welcome earlier
      · exact no ready.2

/-- The provider becomes ready first, then the request goes on to its 200; no call of
`fetch_delta` is needed for it.
-/
theorem exists_answered (reached : (appMachine Score sports base).Reachable s)
    (configured : sports.names ≠ []) {id : Nat} (welcome : ¬ Refused s id)
    : ∃ actions later,
        (∀ traffic, .provider (.fetch traffic) ∉ actions)
        ∧ (appMachine Score sports base).runFrom s actions = some later
        ∧ .ok ∈ answers later.log id := by
  obtain ⟨starting, provider, own, ran, constructed, ready⟩ :=
    exists_ready (provider_reachable reached) configured
  have followed := runFrom_provider ran
  have still : ¬ Refused { s with provider } id := welcome
  obtain ⟨answering, later, callbacks, goesOn, answered⟩ :=
    exists_ok (reached.runFrom followed) ⟨constructed, ready⟩ still
  refine ⟨starting.map .provider ++ answering, later, ?_, ?_, answered⟩
  · intro traffic member
    rcases List.mem_append.mp member with early | late
    · obtain ⟨action, there, same⟩ := List.mem_map.mp early
      cases same
      exact own traffic there
    · obtain ⟨other, same⟩ := callbacks _ late
      cases same
  · rw [Machine.runFrom_append, followed]
    exact goesOn

/-- From every reachable state a request to the `ready` endpoint, begun or not, can still be
answered 200 exactly if it was not told that it is too early and some sport is configured.
-/
theorem answerable_iff (reached : (appMachine Score sports base).Reachable s) (id : Nat)
    : (∃ actions later,
        (appMachine Score sports base).runFrom s actions = some later
        ∧ .ok ∈ answers later.log id)
      ↔ sports.names ≠ [] ∧ ¬ Refused s id := by
  constructor
  · intro answerable
    obtain ⟨actions, later, ran, answered⟩ := answerable
    have there := reached.runFrom ran
    refine ⟨?_, ?_⟩
    · have kept := (appInvariant_of_reachable there).kept
      have ready := kept.answered id (mem_answers_iff.mp answered)
      obtain ⟨_, invariant⟩ := exists_providerInvariant (provider_reachable there)
      exact ((invariant.ready_iff ready.1).mp ready.2).1
    · intro refused
      exact (answeredOnce_of_reachable there).not_ok (refused_of_runFrom ran refused) answered
  · intro conditions
    obtain ⟨actions, later, -, ran, answered⟩ :=
      exists_answered reached conditions.1 conditions.2
    exact ⟨actions, later, ran, answered⟩

end Endpoint

/-- One request is refused while the only sport has not been polled, and a second one has passed
its log message.
-/
def earlyRequestRun : List (AppAction Rat) :=
  [.provider .register, .provider .startPoller, .callback 0, .callback 0, .callback 0,
    .callback 1, .callback 1]

/-- The second request can still be answered 200, the first one cannot. -/
theorem answerable_earlyRequestRun
    : ∃ s,
        (appMachine Rat football "lines").run earlyRequestRun = some s
        ∧ (∃ actions later,
            (appMachine Rat football "lines").runFrom s actions = some later
            ∧ .ok ∈ answers later.log 1)
        ∧ ¬ ∃ actions later,
            (appMachine Rat football "lines").runFrom s actions = some later
            ∧ .ok ∈ answers later.log 0 := by
  obtain ⟨s, ran, first, second, log⟩
      : ∃ s,
          (appMachine Rat football "lines").run earlyRequestRun = some s
          ∧ s.callbacks 0 = .answering .tooEarly
          ∧ s.callbacks 1 = .testing
          ∧ answers s.log 1 = [] :=
    ⟨_, rfl, rfl, rfl, rfl⟩
  have reached : (appMachine Rat football "lines").Reachable s := ⟨_, ran⟩
  refine ⟨s, ran, (answerable_iff reached 1).mpr ⟨by decide, ?_⟩, ?_⟩
  · simp [Refused, second, log]
  · intro answerable
    exact ((answerable_iff reached 0).mp answerable).2 (Or.inl first)

end RVision.App
