import RVision.Lines.Db.Destructor
import RVision.Lines.PollerThread

/-! The destruction of a `lines_provider` whose pollers are running. Members go in the reverse
order of their declarations: `m_lines_cache` first, then the pollers of `m_pollers`, each with
a stop and a join, and `m_db` with its `connection_pool` after them.
-/

namespace RVision.Lines.Provider

open Transition Poller Db

variable {Score : Type}

/-- How far the destruction has come. -/
inductive Phase
  | alive
  | cacheGone
  | dbGone
  /-- The destructor of the pool in `m_db` has called through a null pointer. -/
  | crashed
deriving DecidableEq, Repr

/-- A use of a member by the callback of a poller, and whether the member was still there. -/
inductive Touch
  | db (there : Bool)
  | cache (there : Bool)
deriving DecidableEq, Repr

structure LifeState (Score : Type) where
  phase : Phase := .alive
  db : PoolObject
  pollers : List (PollerState Score)
  touches : List Touch := []

inductive LifeAction (Score : Type)
  | poller (index : Nat) (action : PollerAction Score)
  | destroyCache
  | destroyDb

/-- What the step of a poller uses of the provider. The pool in `m_db` is usable until its
destructor is called.
-/
def touchesOf (s : LifeState Score) : PollerAction Score → List Touch
  | .updateLine => [.db (s.db.pc = .uncalled)]
  | .updateCache => [.cache (s.phase = .alive)]
  | _ => []

/-- Where the end of `m_db` stands after a step of the destructor of its pool. -/
def phaseOf : DestructionPc → Phase
  | .uncalled | .draining | .reporting => .cacheGone
  | .ended => .dbGone
  | .crashed => .crashed

/-- A poller is destroyed after the cache, and while no other one is. -/
def mayTake (s : LifeState Score) : PollerAction Score → Bool
  | .requestStop =>
      s.phase = .cacheGone ∧ ∀ poller ∈ s.pollers, poller.destructor ≠ .joining
  | _ => true

/-- One step of a poller's thread or of the thread that destroys the provider. The order in
which `std::map` destroys its elements is left open.
-/
def lifeStep [Zero Score] (sports : List String) (s : LifeState Score)
    : LifeAction Score → Option (LifeState Score)
  | .poller index action =>
      match s.pollers[index]?, sports[index]? with
      | some poller, some sport =>
          if mayTake s action then
            (pollerStep sport poller action).map (fun next =>
              { s with
                pollers := s.pollers.set index next
                touches := s.touches ++ touchesOf s action })
          else
            none
      | _, _ => none
  | .destroyCache =>
      if s.phase = .alive then some { s with phase := .cacheGone } else none
  | .destroyDb =>
      if s.phase = .cacheGone ∧ ∀ poller ∈ s.pollers, poller.destructor = .gone then
        s.db.destruct.map (fun db => { s with db, phase := phaseOf db.pc })
      else
        none

/-- A provider with one poller for each of `sports`, and with `db` for the pool as its users
leave it.
-/
def lifeMachine (Score : Type) [Zero Score] (db : PoolObject) (sports : List String)
    : Machine (LifeState Score) (LifeAction Score) where
  init := { db, pollers := sports.map (fun _ => {}) }
  step := lifeStep sports

/-- The transitions with their guards. -/
inductive LifeStep [Zero Score] (sports : List String) (s : LifeState Score)
    : LifeAction Score → LifeState Score → Prop
  | poller {index : Nat} {poller next : PollerState Score} {sport : String}
    {action : PollerAction Score} (here : s.pollers[index]? = some poller)
    (polled : sports[index]? = some sport) (may : mayTake s action = true)
    (taken : PollerStep sport poller action next)
    : LifeStep sports s (.poller index action)
        { s with
          pollers := s.pollers.set index next
          touches := s.touches ++ touchesOf s action }
  | destroyCache (alive : s.phase = .alive)
    : LifeStep sports s .destroyCache { s with phase := .cacheGone }
  | destroyDb {db : PoolObject} (there : s.phase = .cacheGone)
    (all : ∀ poller ∈ s.pollers, poller.destructor = .gone)
    (moved : s.db.destruct = some db)
    : LifeStep sports s .destroyDb { s with db, phase := phaseOf db.pc }

section Steps

variable [Zero Score] {sports : List String} {s next : LifeState Score}
  {action : LifeAction Score}

theorem LifeStep.of_step (taken : lifeStep sports s action = some next)
    : LifeStep sports s action next := by
  cases action with
  | poller index action =>
      simp only [lifeStep] at taken
      split at taken
      next poller sport here polled =>
        obtain ⟨may, moved⟩ := Option.ite_none_right_eq_some.mp taken
        obtain ⟨after, step, rfl⟩ := Option.map_eq_some_iff.mp moved
        exact .poller here polled may (PollerStep.of_step step)
      next => cases taken
  | destroyCache =>
      obtain ⟨alive, effect⟩ := Option.ite_none_right_eq_some.mp taken
      exact Option.some.inj effect ▸ .destroyCache alive
  | destroyDb =>
      obtain ⟨⟨there, all⟩, mapped⟩ := Option.ite_none_right_eq_some.mp taken
      obtain ⟨db, moved, rfl⟩ := Option.map_eq_some_iff.mp mapped
      exact .destroyDb there all moved

end Steps

-----------------------------------------------------------------------------------------
-- Who is left at which phase
-----------------------------------------------------------------------------------------

/-- The database outlives every poller and does not outlive its own destructor; a stop comes
only after the end of the cache.
-/
structure Outlived (sports : List String) (s : LifeState Score) : Prop where
  ending : ∀ poller ∈ s.pollers, Ending poller
  size : s.pollers.length = sports.length
  early : s.phase = .alive → ∀ poller ∈ s.pollers, poller.destructor = .alive
  late : s.phase = .crashed → ∀ poller ∈ s.pollers, poller.destructor = .gone
  never : s.phase ≠ .dbGone
  null : Null s.db
  uncalled : s.phase ≠ .crashed → s.db.pc = .uncalled
  stored : .db false ∉ s.touches
  idle : s.pollers = [] → s.touches = []

section Outlived

variable [Zero Score] {db : PoolObject} {sports : List String} {s next : LifeState Score}
  {action : LifeAction Score}

theorem outlived_init (null : Null db) (uncalled : db.pc = .uncalled)
    : Outlived sports (lifeMachine Score db sports).init where
  ending := by
    intro poller member
    obtain ⟨_, _, rfl⟩ := List.mem_map.mp member
    exact .alive rfl rfl
  size := List.length_map _
  early := by
    intro _ poller member
    obtain ⟨_, _, rfl⟩ := List.mem_map.mp member
    rfl
  late := by simp [lifeMachine]
  never := by simp [lifeMachine]
  null
  uncalled := fun _ => uncalled
  stored := by simp [lifeMachine]
  idle := fun _ => rfl

/-- The destructor of a poller moves with its own actions only. -/
theorem destructor_of_step {sport : String} {poller after : PollerState Score}
    {action : PollerAction Score} (taken : PollerStep sport poller action after)
    : after.destructor = poller.destructor
      ∨ (action = .requestStop ∧ poller.destructor = .alive ∧ after.destructor = .joining)
      ∨ (action = .join ∧ poller.destructor = .joining ∧ after.destructor = .gone) := by
  cases taken with
  | requestStop alive => exact .inr (.inl ⟨rfl, alive, rfl⟩)
  | join _ joining => exact .inr (.inr ⟨rfl, joining, rfl⟩)
  | enter | leave | wake | pass | abandon | poll | fail | answer | updateLine | updateCache =>
      exact .inl rfl

theorem not_gone_of_step {sport : String} {poller after : PollerState Score}
    {action : PollerAction Score} (ending : Ending poller)
    (taken : PollerStep sport poller action after)
    : poller.destructor ≠ .gone := by
  intro gone
  cases ending with
  | alive destructor => rw [gone] at destructor; cases destructor
  | joining destructor => rw [gone] at destructor; cases destructor
  | gone _ _ exited => exact no_step exited gone taken

theorem Outlived.step (h : Outlived sports s) (taken : LifeStep sports s action next)
    : Outlived sports next := by
  cases taken with
  | @poller index poller after sport action here polled may moved =>
      have member := List.mem_of_getElem? here
      have left := not_gone_of_step (h.ending poller member) moved
      refine ⟨?_, by simpa using h.size, fun alive => ?_, fun crashed => ?_, h.never, h.null,
        h.uncalled, ?_, fun empty => ?_⟩
      · intro other inside
        rcases List.mem_or_eq_of_mem_set inside with old | rfl
        · exact h.ending other old
        · exact (h.ending poller member).step moved
      · intro other inside
        have still : s.phase = .alive := alive
        rcases List.mem_or_eq_of_mem_set inside with old | rfl
        · exact h.early still other old
        · have before := h.early still poller member
          rcases destructor_of_step moved with same | ⟨rfl, _⟩ | ⟨_, joining, _⟩
          · exact same.trans before
          · simp [mayTake, still] at may
          · rw [before] at joining; cases joining
      · exact absurd (h.late crashed poller member) left
      · intro touched
        rcases List.mem_append.mp touched with old | new
        · exact h.stored old
        · have called : s.db.pc ≠ .uncalled := by cases action <;> simp_all [touchesOf]
          exact left (h.late (by_contra fun elsewhere => called (h.uncalled elsewhere)) poller
            member)
      · have none : s.pollers = [] := by simpa using empty
        rw [none] at member
        cases member
  | destroyCache alive =>
      exact { h with
        early := by simp, late := by simp, never := by simp
        uncalled := fun _ => h.uncalled (by simp [alive]) }
  | destroyDb there all moved =>
      obtain rfl := Option.some.inj ((h.null.destruct (h.uncalled (by simp [there]))).symm.trans
        moved)
      exact { h with
        early := by simp [phaseOf], late := fun _ => all, never := by simp [phaseOf]
        null := ⟨h.null.logger, .inr rfl⟩, uncalled := by simp [phaseOf] }

theorem Outlived.of_reachable (null : Null db) (uncalled : db.pc = .uncalled)
    (h : (lifeMachine Score db sports).Reachable s)
    : Outlived sports s := by
  refine h.invariant (outlived_init null uncalled) ?_
  intro s action next _ known taken
  exact known.step (LifeStep.of_step taken)

end Outlived

-----------------------------------------------------------------------------------------
-- The destruction comes to its end
-----------------------------------------------------------------------------------------

/-- The steps a poller still costs the destruction. -/
def weight (poller : PollerState Score) : Nat :=
  if poller.destructor = .alive then 7 else poller.rank

def Phase.rank : Phase → Nat
  | .alive => 2
  | .cacheGone => 1
  | .dbGone | .crashed => 0

def LifeState.rank (s : LifeState Score) : Nat :=
  (s.pollers.map weight).sum + s.phase.rank

/-- Some poller is the one to wait for: the one being joined or, if there is none, one that is
not stopped yet.
-/
theorem exists_pending {s : LifeState Score}
    (left : ¬ ∀ poller ∈ s.pollers, poller.destructor = .gone)
    : ∃ poller ∈ s.pollers,
        poller.destructor ≠ .gone
        ∧ (poller.destructor = .alive
          → ∀ other ∈ s.pollers, other.destructor ≠ .joining) := by
  by_cases busy : ∃ poller ∈ s.pollers, poller.destructor = .joining
  · obtain ⟨poller, member, joining⟩ := busy
    exact ⟨poller, member, by simp [joining], by simp [joining]⟩
  · push Not at left busy
    obtain ⟨poller, member, stays⟩ := left
    exact ⟨poller, member, stays, fun _ => busy⟩

theorem weight_of_joining {poller : PollerState Score} (begun : poller.destructor ≠ .alive)
    : weight poller = poller.rank :=
  if_neg begun

section Ends

variable [Zero Score] {sports : List String} {s : LifeState Score}

/-- A step of a poller that costs it weight costs the whole provider as much. -/
theorem progress_of_poller {index : Nat} {poller after : PollerState Score}
    {action : PollerAction Score} {sport : String} (h : Outlived sports s)
    (here : s.pollers[index]? = some poller) (polled : sports[index]? = some sport)
    (may : mayTake s action = true) (taken : pollerStep sport poller action = some after)
    (smaller : weight after < weight poller)
    : ∃ action next, lifeStep sports s action = some next
        ∧ Outlived sports next ∧ next.rank < s.rank := by
  refine ⟨.poller index action, _, by simp only [lifeStep, here, polled, may, taken]; rfl, ?_, ?_⟩
  · exact h.step (.poller here polled may (PollerStep.of_step taken))
  · have trade := sum_map_set weight here after
    simp only [LifeState.rank]
    omega

theorem mayTake_of_joining {poller after : PollerState Score} {action : PollerAction Score}
    {sport : String} (joining : poller.destructor = .joining)
    (taken : PollerStep sport poller action after)
    : mayTake s action = true := by
  cases taken with
  | requestStop alive => rw [joining] at alive; cases alive
  | enter | leave | wake | pass | abandon | poll | fail | answer | updateLine | updateCache
  | join => rfl

/-- While a poller is left, the destruction has a step to take for it. -/
theorem progress_of_pending (h : Outlived sports s) (phase : s.phase = .cacheGone)
    (left : ¬ ∀ poller ∈ s.pollers, poller.destructor = .gone)
    : ∃ action next, lifeStep sports s action = some next
        ∧ Outlived sports next ∧ next.rank < s.rank := by
  obtain ⟨poller, member, stays, free⟩ := exists_pending left
  obtain ⟨index, here⟩ := List.mem_iff_getElem?.mp member
  obtain ⟨inside, _⟩ := List.getElem?_eq_some_iff.mp here
  rw [h.size] at inside
  have polled := List.getElem?_eq_getElem inside
  cases h.ending poller member with
  | alive destructor =>
      have may : mayTake s .requestStop = true := by
        simpa [mayTake, phase] using free destructor
      have taken : pollerStep sports[index] poller .requestStop = _ := if_pos destructor
      refine progress_of_poller h here polled may taken ?_
      rw [weight_of_joining (by simp), weight, if_pos destructor]
      exact Nat.lt_succ_of_le (PollerState.rank_le _)
  | joining destructor stopped =>
      have begun : poller.destructor ≠ .alive := by simp [destructor]
      obtain ⟨action, after, taken⟩ := exists_step (h.ending poller member) stopped stays
      have moved := PollerStep.of_step taken
      obtain ⟨⟨_, later⟩, smaller⟩ := rank_step stopped begun moved
      refine progress_of_poller h here polled (mayTake_of_joining destructor moved) taken ?_
      rwa [weight_of_joining begun, weight_of_joining later]
  | gone destructor => exact absurd destructor stays

theorem progress (h : Outlived sports s)
    : s.phase = .crashed
      ∨ ∃ action next, True ∧ lifeStep sports s action = some next
          ∧ Outlived sports next ∧ next.rank < s.rank := by
  cases phase : s.phase with
  | crashed => exact .inl rfl
  | dbGone => exact absurd phase h.never
  | alive =>
      refine .inr ⟨.destroyCache, _, trivial, if_pos phase, h.step (.destroyCache phase), ?_⟩
      simp [LifeState.rank, Phase.rank, phase]
  | cacheGone =>
      right
      by_cases all : ∀ poller ∈ s.pollers, poller.destructor = .gone
      · have moved := h.null.destruct (h.uncalled (by simp [phase]))
        refine ⟨.destroyDb, _, trivial, ?_, h.step (.destroyDb phase all moved), ?_⟩
        · simp only [lifeStep, moved, Option.map_some]
          exact if_pos ⟨phase, all⟩
        · simp [LifeState.rank, Phase.rank, phaseOf, phase]
      · obtain ⟨action, next, there⟩ := progress_of_pending h phase all
        exact ⟨action, next, trivial, there⟩

theorem no_lifeStep (h : Outlived sports s) (crashed : s.phase = .crashed)
    (action : LifeAction Score)
    : lifeStep sports s action = none := by
  by_contra enabled
  obtain ⟨next, taken⟩ := Option.ne_none_iff_exists'.mp enabled
  cases LifeStep.of_step taken with
  | poller here _ _ moved =>
      have member := List.mem_of_getElem? here
      exact not_gone_of_step (h.ending _ member) moved (h.late crashed _ member)
  | destroyCache alive => rw [crashed] at alive; cases alive
  | destroyDb there => rw [crashed] at there; cases there

end Ends

/-- The cache is gone before the first poller is told to stop, so its callback may come late.
-/
def lateCallback (score : Score) : List (LifeAction Score) :=
  ([.test, .wake, .retest, .poll, .exchange (.answered 200 (.json (fun _ => .number score))),
    .updateLine] : List (PollerAction Score)).map (.poller 0)
  ++ [.destroyCache, .poller 0 .updateCache]

theorem run_lateCallback [Zero Score] (db : PoolObject) (score : Score) (sport : String)
    (rest : List String)
    : ∃ s, (lifeMachine Score db (sport :: rest)).run (lateCallback score) = some s
        ∧ .cache false ∈ s.touches := by
  simp [Machine.run, Machine.runFrom, lateCallback, lifeMachine, lifeStep, mayTake, pollerStep,
    poll, httpOk, getDouble, touchesOf]

/-- Whatever the pollers are doing when a provider is destroyed, none of them uses the database
once its destructor is called, and the destruction can always be brought to that call, with
every thread of a poller joined. There it ends, for the pool of the database crashes; nothing
can be done after it. The cache is not outlived by the pollers: with at least one of them, and
only then, some run has a callback use it after its end.
-/
theorem destruction_order (Score : Type) [Zero Score] {size : UInt32} {db : PoolObject}
    (used : (objectMachine size).Reachable db) (uncalled : db.pc = .uncalled)
    (sports : List String)
    : (∀ s, (lifeMachine Score db sports).Reachable s
        → .db false ∉ s.touches
          ∧ s.phase ≠ .dbGone
          ∧ ∃ actions final,
              (lifeMachine Score db sports).runFrom s actions = some final
              ∧ (∀ poller ∈ final.pollers, poller.destructor = .gone)
              ∧ final.phase = .crashed
              ∧ ∀ action, lifeStep sports final action = none)
      ∧ ((∃ s, (lifeMachine Score db sports).Reachable s ∧ .cache false ∈ s.touches)
          ↔ sports ≠ []) := by
  have outlived {s : LifeState Score} (reached : (lifeMachine Score db sports).Reachable s)
      : Outlived sports s :=
    Outlived.of_reachable (null_of_reachable used) uncalled reached
  refine ⟨fun s reached => ?_, ?_, fun some => ?_⟩
  · have known := outlived reached
    obtain ⟨actions, final, _, ran, crashed⟩ :=
      @Machine.exists_runFrom_of_rank _ _ (lifeMachine Score db sports) (Outlived sports)
        (fun s => s.phase = .crashed) LifeState.rank (fun _ => True) (fun _ => progress) s known
    have ended := outlived (reached.runFrom ran)
    exact ⟨known.stored, known.never, actions, final, ran, ended.late crashed, crashed,
      no_lifeStep ended crashed⟩
  · rintro ⟨s, reached, touched⟩ rfl
    have known := outlived reached
    have none := known.idle (List.eq_nil_of_length_eq_zero known.size)
    rw [none] at touched
    cases touched
  · obtain ⟨sport, rest, rfl⟩ := List.exists_cons_of_ne_nil some
    obtain ⟨s, ran, touched⟩ := run_lateCallback db (0 : Score) sport rest
    exact ⟨s, ⟨_, ran⟩, touched⟩

/-- Two pollers, and a database that was used once. -/
theorem destruction_order_lateCallback
    : ∃ db s actions final,
        (objectMachine 1).run accessorRun = some db
        ∧ (lifeMachine Int db ["soccer", "football"]).run (lateCallback 7) = some s
        ∧ s.touches = [.db true, .cache false]
        ∧ (lifeMachine Int db ["soccer", "football"]).runFrom s actions = some final
        ∧ (∀ poller ∈ final.pollers, poller.destructor = .gone)
        ∧ final.phase = .crashed := by
  obtain ⟨db, used, uncalled⟩
      : ∃ db, (objectMachine 1).run accessorRun = some db ∧ db.pc = .uncalled :=
    ⟨_, rfl, rfl⟩
  obtain ⟨s, ran, touched⟩
      : ∃ s, (lifeMachine Int db ["soccer", "football"]).run (lateCallback 7) = some s
          ∧ s.touches = [.db (db.pc = .uncalled), .cache false] :=
    ⟨_, rfl, rfl⟩
  obtain ⟨_, _, actions, final, ended, joined, crashed, _⟩ :=
    (destruction_order Int ⟨accessorRun, used⟩ uncalled ["soccer", "football"]).1 s ⟨_, ran⟩
  exact ⟨db, s, actions, final, used, ran, by simpa [uncalled] using touched, ended, joined,
    crashed⟩

end RVision.Lines.Provider
