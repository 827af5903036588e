import RVision.Lines.Provider.Pollers
import RVision.Lines.Provider.Traffic

/-! When a provider is ready. An item counts as initialised from its second `update_cache`
on, so the first one has to be the registration in `add` and every later one a poll: `add`
registers a sport before its poller exists, while pollers of earlier sports already run.
-/

namespace RVision.Lines.Provider

open Transition

variable {Score : Type}

/-- The map of sports and periods given to the constructor, in the order of its loop. -/
structure Sports where
  entries : List (String × UInt32)
  nodup : (entries.map Prod.fst).Nodup

def Sports.names (sports : Sports) : List String := sports.entries.map Prod.fst

/-- A provider under construction or in use. `adding` is the sport whose `add` has left
`update_cache` and not yet come to `m_pollers`; `polls` keeps the callbacks made so far.
-/
structure ProviderState (Score : Type) where
  traffic : TrafficState Score := {}
  pollers : Pollers := ∅
  todo : List String
  adding : Option String := none
  polls : List (String × Score) := []

namespace ProviderState

def provider (s : ProviderState Score) : LinesProvider Score :=
  { cache := s.traffic.cache, pollers := s.pollers }

/-- The constructor has returned. -/
def Constructed (s : ProviderState Score) : Prop :=
  s.todo = [] ∧ s.adding = none

instance (s : ProviderState Score) : Decidable s.Constructed :=
  inferInstanceAs (Decidable (_ ∧ _))

end ProviderState

inductive ProviderAction (Score : Type)
  | register
  | startPoller
  | poll (address : String) (score : Score)
  | fetch (action : TrafficAction Score)
deriving DecidableEq, Repr

/-- The step is one of a `fetch_delta` call. -/
def TrafficAction.isFetch : TrafficAction Score → Bool
  | .update _ _ => false
  | _ => true

/-- The two critical sections of `add` for the next sport, the callback of a poller that
exists, and steps of `fetch_delta` calls.
-/
def providerStep [Zero Score] [Sub Score] (base : String) (s : ProviderState Score)
    : ProviderAction Score → Option (ProviderState Score)
  | .register =>
      match s.todo with
      | [] => none
      | sport :: rest =>
          if s.adding.isNone then
            some { s with
              traffic := { s.traffic with cache := updateCache s.traffic.cache sport 0 }
              todo := rest
              adding := some sport }
          else
            none
  | .startPoller =>
      s.adding.map (fun sport =>
        { s with pollers := startPoller base s.pollers sport, adding := none })
  | .poll address score =>
      (s.pollers.lookup address).map (fun sport =>
        { s with
          traffic := { s.traffic with cache := updateCache s.traffic.cache sport score }
          polls := s.polls ++ [(sport, score)] })
  | .fetch action =>
      if action.isFetch then
        (trafficStep s.traffic action).map (fun traffic => { s with traffic })
      else
        none

/-- A provider constructed with `sports` and `m_address = base`. -/
def providerMachine (Score : Type) [Zero Score] [Sub Score] (sports : Sports) (base : String)
    : Machine (ProviderState Score) (ProviderAction Score) where
  init := { todo := sports.names }
  step := providerStep base

/-- The transitions with their guards. -/
inductive ProviderStep [Zero Score] [Sub Score] (base : String) (s : ProviderState Score)
    : ProviderAction Score → ProviderState Score → Prop
  | register {sport : String} {rest : List String} (next : s.todo = sport :: rest)
    (free : s.adding = none)
    : ProviderStep base s .register
        { s with
          traffic := { s.traffic with cache := updateCache s.traffic.cache sport 0 }
          todo := rest
          adding := some sport }
  | startPoller {sport : String} (registered : s.adding = some sport)
    : ProviderStep base s .startPoller
        { s with pollers := startPoller base s.pollers sport, adding := none }
  | poll {address sport : String} (score : Score)
    (running : s.pollers.lookup address = some sport)
    : ProviderStep base s (.poll address score)
        { s with
          traffic := { s.traffic with cache := updateCache s.traffic.cache sport score }
          polls := s.polls ++ [(sport, score)] }
  | fetch {action : TrafficAction Score} {traffic : TrafficState Score}
    (reads : action.isFetch = true) (moved : TrafficStep s.traffic action traffic)
    : ProviderStep base s (.fetch action) { s with traffic }

theorem ProviderStep.of_step [Zero Score] [Sub Score] {base : String}
    {s next : ProviderState Score} {action : ProviderAction Score}
    (taken : providerStep base s action = some next)
    : ProviderStep base s action next := by
  cases action with
  | register =>
      cases ahead : s.todo with
      | nil => simp [providerStep, ahead] at taken
      | cons sport rest =>
          simp only [providerStep, ahead] at taken
          obtain ⟨free, effect⟩ := Option.ite_none_right_eq_some.mp taken
          obtain rfl := Option.some.inj effect
          exact .register ahead (Option.isNone_iff_eq_none.mp free)
  | startPoller =>
      obtain ⟨sport, registered, rfl⟩ := Option.map_eq_some_iff.mp taken
      exact .startPoller registered
  | poll address score =>
      obtain ⟨sport, found, rfl⟩ := Option.map_eq_some_iff.mp taken
      exact .poll score found
  | fetch action =>
      obtain ⟨reads, mapped⟩ := Option.ite_none_right_eq_some.mp taken
      obtain ⟨traffic, moved, rfl⟩ := Option.map_eq_some_iff.mp mapped
      exact .fetch reads (trafficStep_eq_some.mp moved)

-----------------------------------------------------------------------------------------
-- What was received of a sport
-----------------------------------------------------------------------------------------

/-- The part of an item that `update_cache` writes. -/
def received (cache : LinesCache Score) (sport : String) : Option (Bool × Score) :=
  (cache.lookup sport).map (fun item => (item.inited, item.lastRecv))

/-- The score of the latest callback for `sport`. -/
def latestPoll (polls : List (String × Score)) (sport : String) : Option Score :=
  (polls.filter (fun poll => poll.1 = sport)).getLast?.map Prod.snd

/-- What a registered sport should have received. -/
def receivedAfter [Zero Score] (polls : List (String × Score)) (sport : String)
    : Bool × Score :=
  match latestPoll polls sport with
  | none => (false, 0)
  | some score => (true, score)

theorem receivedAfter_eq [Zero Score] (polls : List (String × Score)) (sport : String)
    : receivedAfter polls sport
      = ((latestPoll polls sport).isSome, (latestPoll polls sport).getD 0) := by
  unfold receivedAfter
  cases latestPoll polls sport <;> rfl

theorem received_updateCache_self [Zero Score] (cache : LinesCache Score) (sport : String)
    (score : Score)
    : received (updateCache cache sport score) sport
      = some ((cache.lookup sport).isSome, score) := by
  cases looked : cache.lookup sport with
  | none => simp [received, lookup_updateCache_of_none looked]
  | some item => simp [received, lookup_updateCache_of_some looked]

theorem received_updateCache_of_ne [Zero Score] (cache : LinesCache Score)
    {sport other : String} (different : other ≠ sport) (score : Score)
    : received (updateCache cache sport score) other = received cache other := by
  rw [received, received, lookup_updateCache_of_ne cache different]

/-- `fetch_delta` writes nothing that was received. -/
theorem TrafficStep.received_eq [Zero Score] [Sub Score] {s next : TrafficState Score}
    {action : TrafficAction Score} (taken : TrafficStep s action next)
    (reads : action.isFetch = true) (sport : String)
    : received next.cache sport = received s.cache sport := by
  cases taken with
  | update _ _ => simp [TrafficAction.isFetch] at reads
  | fetch _ _ _ => rfl
  | @line thread line rest fetching running ahead =>
      by_cases here : sport = line
      · subst line
        simp only [received, lookup_visitCache_self, Option.map_map]
        congr 1
        funext item
        simp only [Function.comp, LimesDeltaCacheItem.sent]
        split <;> rfl
      · rw [received, received, lookup_visitCache_of_ne s.cache here]
  | ret _ _ => rfl

theorem latestPoll_concat_self (polls : List (String × Score)) (sport : String)
    (score : Score)
    : latestPoll (polls ++ [(sport, score)]) sport = some score := by
  simp [latestPoll]

theorem latestPoll_concat_of_ne (polls : List (String × Score)) {sport other : String}
    (different : other ≠ sport) (score : Score)
    : latestPoll (polls ++ [(sport, score)]) other = latestPoll polls other := by
  simp [latestPoll, different.symm]

theorem latestPoll_isSome_iff (polls : List (String × Score)) (sport : String)
    : (latestPoll polls sport).isSome ↔ ∃ score, (sport, score) ∈ polls := by
  simp only [latestPoll, Option.isSome_map, List.getLast?_isSome, ne_eq,
    List.filter_eq_nil_iff, decide_eq_true_eq, not_forall, not_not]
  constructor
  · intro found
    obtain ⟨poll, member, rfl⟩ := found
    exact ⟨poll.2, member⟩
  · intro found
    obtain ⟨score, member⟩ := found
    exact ⟨(sport, score), member, rfl⟩

-----------------------------------------------------------------------------------------
-- The invariant of construction and use
-----------------------------------------------------------------------------------------

/-- `begun` are the sports that the constructor has registered. Each of them has received
its polls, no other sport is in the cache, and only they are polled.
-/
structure ProviderInvariant [Zero Score] (sports : Sports) (begun : List String)
    (s : ProviderState Score) : Prop where
  order : begun ++ s.todo = sports.names
  cached
    : ∀ sport,
        received s.traffic.cache sport
          = if sport ∈ begun then some (receivedAfter s.polls sport) else none
  adding : ∀ sport, s.adding = some sport → sport ∈ begun
  pollers : ∀ address sport, s.pollers.lookup address = some sport → sport ∈ begun
  polls : ∀ poll ∈ s.polls, poll.1 ∈ begun

namespace ProviderState

/-- `sport` has had a callback. -/
def Polled (s : ProviderState Score) (sport : String) : Prop :=
  ∃ score, (sport, score) ∈ s.polls

theorem polled_iff (s : ProviderState Score) (sport : String)
    : s.Polled sport ↔ (latestPoll s.polls sport).isSome :=
  (latestPoll_isSome_iff s.polls sport).symm

end ProviderState

theorem received_isSome_iff (cache : LinesCache Score) (sport : String)
    : (received cache sport).isSome ↔ sport ∈ cache := by
  rw [received, Option.isSome_map, Finmap.lookup_isSome]

section Readiness

variable [Zero Score] {sports : Sports} {base : String} {begun : List String}

theorem ProviderInvariant.register {s : ProviderState Score} {sport : String}
    {rest : List String} (h : ProviderInvariant sports begun s)
    (next : s.todo = sport :: rest)
    : ProviderInvariant sports (begun ++ [sport])
        { s with
          traffic := { s.traffic with cache := updateCache s.traffic.cache sport 0 }
          todo := rest
          adding := some sport } := by
  have order := h.order
  rw [next] at order
  -- The names are distinct, so this is the first `update_cache` for the sport.
  have fresh : sport ∉ begun := by
    have distinct := sports.nodup
    rw [← Sports.names, ← order] at distinct
    exact fun member => (List.disjoint_of_nodup_append distinct) member (by simp)
  have missing : s.traffic.cache.lookup sport = none := by
    have none := h.cached sport
    rw [if_neg fresh, received, Option.map_eq_none_iff] at none
    exact none
  have unpolled : latestPoll s.polls sport = none := by
    rw [← Option.not_isSome_iff_eq_none, latestPoll_isSome_iff]
    intro found
    obtain ⟨score, member⟩ := found
    exact fresh (h.polls _ member)
  have grown {other : String} (member : other ∈ begun) : other ∈ begun ++ [sport] :=
    List.mem_append_left _ member
  refine ⟨by simpa using order, ?_, ?_, ?_, ?_⟩
  · intro other
    by_cases here : other = sport
    · subst other
      simp [received_updateCache_self, missing, receivedAfter, unpolled]
    · rw [received_updateCache_of_ne s.traffic.cache here, h.cached other]
      simp [here]
  · intro other adding
    obtain rfl := Option.some.inj adding
    simp
  · exact fun address other found => grown (h.pollers address other found)
  · exact fun poll member => grown (h.polls poll member)

theorem ProviderInvariant.startPoller {s : ProviderState Score} {sport : String}
    (h : ProviderInvariant sports begun s) (registered : s.adding = some sport)
    : ProviderInvariant sports begun
        { s with pollers := startPoller base s.pollers sport, adding := none } := by
  refine ⟨h.order, h.cached, by simp, ?_, h.polls⟩
  intro address other found
  simp only [Provider.startPoller] at found
  split_ifs at found
  · exact h.pollers address other found
  · by_cases here : address = addAddress base sport
    · subst address
      rw [Finmap.lookup_insert] at found
      obtain rfl := Option.some.inj found
      exact h.adding sport registered
    · rw [Finmap.lookup_insert_of_ne _ here] at found
      exact h.pollers address other found

theorem ProviderInvariant.poll {s : ProviderState Score} {address sport : String}
    (h : ProviderInvariant sports begun s) (running : s.pollers.lookup address = some sport)
    (score : Score)
    : ProviderInvariant sports begun
        { s with
          traffic := { s.traffic with cache := updateCache s.traffic.cache sport score }
          polls := s.polls ++ [(sport, score)] } := by
  have mine := h.pollers address sport running
  have known : (s.traffic.cache.lookup sport).isSome := by
    rw [Finmap.lookup_isSome, ← received_isSome_iff, h.cached sport, if_pos mine]
    rfl
  refine ⟨h.order, ?_, h.adding, h.pollers, ?_⟩
  · intro other
    by_cases here : other = sport
    · subst other
      rw [received_updateCache_self, known, if_pos mine, receivedAfter,
        latestPoll_concat_self]
    · rw [received_updateCache_of_ne s.traffic.cache here, h.cached other, receivedAfter,
        receivedAfter, latestPoll_concat_of_ne s.polls here]
  · intro poll member
    rcases List.mem_append.mp member with earlier | new
    · exact h.polls poll earlier
    · obtain rfl := List.mem_singleton.mp new
      exact mine

/-- After construction the cache has exactly the configured sports. -/
theorem ProviderInvariant.cached_of_constructed {s : ProviderState Score}
    (h : ProviderInvariant sports begun s) (constructed : s.Constructed) (sport : String)
    : received s.traffic.cache sport
      = if sport ∈ sports.names then some (receivedAfter s.polls sport) else none := by
  have all := h.order
  rw [constructed.1, List.append_nil] at all
  rw [h.cached sport, all]

theorem ProviderInvariant.ready_iff {s : ProviderState Score}
    (h : ProviderInvariant sports begun s) (constructed : s.Constructed)
    : s.provider.state = .ready
      ↔ sports.names ≠ [] ∧ ∀ sport ∈ sports.names, s.Polled sport := by
  have cached := h.cached_of_constructed constructed
  have keys (sport : String) : sport ∈ s.traffic.cache ↔ sport ∈ sports.names := by
    rw [← received_isSome_iff, cached sport]
    split_ifs <;> simp_all
  have inited (sport : String) (member : sport ∈ sports.names)
      : (∀ item, s.traffic.cache.lookup sport = some item → item.inited = true)
        ↔ s.Polled sport := by
    obtain ⟨item, found⟩ := Finmap.mem_iff.mp ((keys sport).mpr member)
    have view := cached sport
    rw [if_pos member, received, found, Option.map_some, receivedAfter_eq] at view
    have flag := (Prod.mk.inj (Option.some.inj view)).1
    rw [s.polled_iff, found, ← flag]
    constructor
    · exact fun all => all item rfl
    · intro yes other same
      obtain rfl := Option.some.inj same
      exact yes
  refine (cacheState_eq_ready_iff s.traffic.cache).trans (and_congr ?_ ?_)
  · simp only [keys]
    exact ⟨fun member => List.ne_nil_of_mem member.choose_spec, List.exists_mem_of_ne_nil _⟩
  · constructor
    · exact fun all sport member => (inited sport member).mp (all sport)
    · intro all sport item found
      have member := (keys sport).mp (Finmap.mem_of_lookup_eq_some found)
      exact (inited sport member).mpr (all sport member) item found

/-- Callbacks are not undone, so a constructed provider that is ready stays ready. -/
theorem ProviderInvariant.ready_of_later {s later : ProviderState Score}
    {begunLater : List String} (h : ProviderInvariant sports begun s)
    (hLater : ProviderInvariant sports begunLater later) (constructed : s.Constructed)
    (still : later.Constructed) (grown : s.polls <+: later.polls)
    (ready : s.provider.state = .ready)
    : later.provider.state = .ready := by
  obtain ⟨nonempty, polled⟩ := (h.ready_iff constructed).mp ready
  refine (hLater.ready_iff still).mpr ⟨nonempty, fun sport member => ?_⟩
  obtain ⟨score, poll⟩ := polled sport member
  exact ⟨score, grown.subset poll⟩

variable [Sub Score]

theorem ProviderInvariant.step {s next : ProviderState Score} {action : ProviderAction Score}
    (h : ProviderInvariant sports begun s) (taken : ProviderStep base s action next)
    : ∃ begun, ProviderInvariant sports begun next := by
  cases taken with
  | register next free => exact ⟨_, h.register next⟩
  | startPoller registered => exact ⟨begun, h.startPoller registered⟩
  | poll score running => exact ⟨begun, h.poll running score⟩
  | fetch reads moved =>
      refine ⟨begun, h.order, ?_, h.adding, h.pollers, h.polls⟩
      intro sport
      rw [moved.received_eq reads]
      exact h.cached sport

theorem exists_providerInvariant {s : ProviderState Score}
    (reached : (providerMachine Score sports base).Reachable s)
    : ∃ begun, ProviderInvariant sports begun s := by
  apply reached.invariant (motive := fun s => ∃ begun, ProviderInvariant sports begun s)
  · refine ⟨[], rfl, fun sport => by simp [providerMachine, received], ?_, ?_, ?_⟩
    all_goals simp [providerMachine]
  · intro s action next _ known taken
    obtain ⟨begun, invariant⟩ := known
    exact invariant.step (.of_step taken)

-----------------------------------------------------------------------------------------
-- Readiness
-----------------------------------------------------------------------------------------

/-- The constructor does not run again, and callbacks are not undone. -/
theorem ProviderStep.later {s next : ProviderState Score} {action : ProviderAction Score}
    (taken : ProviderStep base s action next)
    : (s.Constructed → next.Constructed) ∧ s.polls <+: next.polls := by
  cases taken with
  | register next free =>
      refine ⟨fun constructed => ?_, List.prefix_refl _⟩
      have none := constructed.1
      simp [next] at none
  | startPoller _ => exact ⟨fun constructed => ⟨constructed.1, rfl⟩, List.prefix_refl _⟩
  | poll _ _ => exact ⟨fun constructed => constructed, List.prefix_append _ _⟩
  | fetch _ _ => exact ⟨fun constructed => constructed, List.prefix_refl _⟩

theorem runFrom_later {s later : ProviderState Score} {actions : List (ProviderAction Score)}
    (ran : (providerMachine Score sports base).runFrom s actions = some later)
    (constructed : s.Constructed)
    : later.Constructed ∧ s.polls <+: later.polls := by
  apply Machine.runFrom_invariant ran
    (motive := fun later => later.Constructed ∧ s.polls <+: later.polls)
  · exact ⟨constructed, List.prefix_refl _⟩
  · intro state action next known taken
    have moved := ProviderStep.later (.of_step taken)
    exact ⟨moved.1 known.1, known.2.trans moved.2⟩

/-- Ready means that every configured sport was polled. In every reachable state a cached
sport has the score of its latest callback; once the provider is constructed the cache has
exactly the configured sports, the provider is ready if and only if there are some and all of
them were polled, and it then stays ready.
-/
theorem ready_iff_all_polled {s : ProviderState Score}
    (reached : (providerMachine Score sports base).Reachable s)
    : (∀ sport item,
        s.provider.cache.lookup sport = some item
        → item.lastRecv = (latestPoll s.polls sport).getD 0)
      ∧ (s.Constructed
        → (∀ sport, sport ∈ s.provider.cache ↔ sport ∈ sports.names)
          ∧ (s.provider.state = .ready
            ↔ sports.names ≠ [] ∧ ∀ sport ∈ sports.names, s.Polled sport)
          ∧ (s.provider.state = .ready
            → ∀ actions later,
                (providerMachine Score sports base).runFrom s actions = some later
                → later.provider.state = .ready)) := by
  obtain ⟨begun, invariant⟩ := exists_providerInvariant reached
  refine ⟨?_, ?_⟩
  · intro sport item found
    have view := invariant.cached sport
    rw [received, show s.traffic.cache.lookup sport = some item from found] at view
    split_ifs at view
    · rw [receivedAfter_eq] at view
      exact (Prod.mk.inj (Option.some.inj view)).2
    · simp at view
  · intro constructed
    refine ⟨?_, invariant.ready_iff constructed, ?_⟩
    · intro sport
      refine (received_isSome_iff _ sport).symm.trans ?_
      rw [show received s.provider.cache sport = _ from
        invariant.cached_of_constructed constructed sport]
      split_ifs <;> simp_all
    · intro ready actions later ran
      obtain ⟨still, grown⟩ := runFrom_later ran constructed
      obtain ⟨_, invariantLater⟩ := exists_providerInvariant (reached.runFrom ran)
      exact invariant.ready_of_later invariantLater constructed still grown ready

end Readiness

/-- Football is polled while baseball is still being added. -/
def earlyPollRun : List (ProviderAction Rat) :=
  [.register, .startPoller, .poll "lines/football" 3, .register, .startPoller,
    .fetch (.fetch 0 ["football"] true), .poll "lines/baseball" 1]

def twoSports : Sports where
  entries := [("football", 5), ("baseball", 7)]
  nodup := by decide

theorem ready_earlyPollRun
    : ∃ s,
        (providerMachine Rat twoSports "lines").run earlyPollRun = some s
        ∧ s.Constructed
        ∧ s.provider.state = .ready
        ∧ s.provider.cache.lookup "football" = some ⟨true, 3, 0⟩
        ∧ (s.provider.state = .ready
          ↔ twoSports.names ≠ [] ∧ ∀ sport ∈ twoSports.names, s.Polled sport) := by
  obtain ⟨s, ran, constructed, ready, football⟩
      : ∃ s,
          (providerMachine Rat twoSports "lines").run earlyPollRun = some s
          ∧ s.Constructed
          ∧ s.provider.state = .ready
          ∧ s.provider.cache.lookup "football" = some ⟨true, 3, 0⟩ :=
    ⟨_, rfl, by decide, by decide, by decide +kernel⟩
  have facts := (ready_iff_all_polled (⟨earlyPollRun, ran⟩
    : (providerMachine Rat twoSports "lines").Reachable s)).2 constructed
  exact ⟨s, ran, constructed, ready, football, facts.2.1⟩

end RVision.Lines.Provider
