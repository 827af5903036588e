import RVision.Lines.Db.Conservation
import RVision.Lines.Db.Statements

/-! What the functions of `lines_db` get from an accessor. Each of them constructs one and calls
its connection. `no_resource` leaves the constructor and becomes an error code; `draining` is
caught inside, and the accessor that is constructed then has no connection.
-/

namespace RVision.Lines.Db

open Transition

/-- A function of `lines_db` after the constructor of its accessor: told whether there is a
connection, or stopped at a call through the null pointer of `operator->`.
-/
def LinesDb.call {State : Type} (outcome : Outcome) (function : Bool → Errc × State)
    : Option (Errc × State) :=
  match outcome with
  | .constructed _ => some (function true)
  | .noResource => some (function false)
  | .draining => none

/-- The function runs on one of the connections, or returns an error code with its state as it
was.
-/
def Serves {State : Type} (size : UInt32) (outcome : Outcome) (state : State)
    (use : State → Errc × State) (function : Bool → Errc × State)
    : Prop :=
  (∃ conn, outcome = .constructed conn ∧ conn < size.toNat
    ∧ LinesDb.call outcome function = some (use state))
  ∨ (outcome = .noResource
    ∧ LinesDb.call outcome function = some (.insufficientResources, state))

/-- All functions of `lines_db`. -/
structure ServesAll (size : UInt32) (outcome : Outcome) : Prop where
  addLine {Db : Type} (sqlite : Sqlite Db) (db : Db) (line : String)
    : Serves size outcome db (fun db => Connection.addLine sqlite db line)
        (fun available => LinesDb.addLine sqlite available db line)
  remLine {Db : Type} (sqlite : Sqlite Db) (db : Db) (line : String)
    : Serves size outcome db (fun db => Connection.remLine sqlite db line)
        (fun available => LinesDb.remLine sqlite available db line)
  updateLine {Db Score : Type} (sqlite : Sqlite Db) (db : Db) (line : String) (score : Score)
    : Serves size outcome db (fun db => Connection.addLine sqlite db line)
        (fun available => LinesDb.updateLine sqlite available db line score)
  lastScore {Db Score : Type} (sqlite : Sqlite Db) (db : Db) (line : String)
    (score : Option Score)
    : Serves size outcome (db, score)
        (fun (db, score) => Connection.lastScore sqlite db line score)
        (fun available => LinesDb.lastScore sqlite available db line score)
  fetchScore {Db Score : Type} (sqlite : Sqlite Db) (db : Db) (line : String)
    (score : List Score)
    : Serves size outcome (db, score)
        (fun (db, score) => Connection.fetchScore sqlite db line score)
        (fun available => LinesDb.fetchScore sqlite available db line score)

/-- Every accessor that is constructed has a connection of its own, and every function whose
accessor's constructor has ended is served.
-/
structure Usable (size : UInt32) (s : PoolState) : Prop where
  owned
    : ∀ thread connection,
        s.threads thread = .holding connection
        → ∃ conn,
            connection = some conn
            ∧ conn < size.toNat
            ∧ conn ∉ s.pool.pool
            ∧ ∀ other, s.held other = some conn → other = thread
  served : ∀ ended ∈ s.ended, ServesAll size ended.outcome

namespace AccessorPc

def isTesting : AccessorPc → Bool
  | .testing _ => true
  | _ => false

end AccessorPc

/-- No constructor comes to the test of `m_drainig` once it is set. -/
def TestsUndrained (s : PoolState) : PoolAction → Prop
  | .advance thread => (s.threads thread).isTesting = true → s.pool.drainig = false
  | _ => True

instance (s : PoolState) (action : PoolAction) : Decidable (TestsUndrained s action) := by
  unfold TestsUndrained
  split <;> infer_instance

-----------------------------------------------------------------------------------------
-- Outcomes
-----------------------------------------------------------------------------------------

/-- The constructor was given a connection, or has thrown. -/
def Outcome.Real (size : UInt32) : Outcome → Prop
  | .constructed conn => conn < size.toNat
  | .noResource => True
  | .draining => False

theorem serves_access {State : Type} {size : UInt32} {outcome : Outcome}
    (real : outcome.Real size) (state : State) (use : State → Errc × State)
    : Serves size outcome state use (fun available => LinesDb.access available state use) := by
  cases outcome with
  | constructed conn => exact Or.inl ⟨conn, rfl, real, rfl⟩
  | noResource => exact Or.inr ⟨rfl, rfl⟩
  | draining => exact real.elim

theorem servesAll_of_real {size : UInt32} {outcome : Outcome} (real : outcome.Real size)
    : ServesAll size outcome where
  addLine _ _ _ := serves_access real _ _
  remLine _ _ _ := serves_access real _ _
  updateLine _ _ _ _ := serves_access real _ _
  lastScore _ _ _ _ := serves_access real _ _
  fetchScore _ _ _ _ := serves_access real _ _

-----------------------------------------------------------------------------------------
-- Runs that meet no drained test
-----------------------------------------------------------------------------------------

/-- No accessor is without a connection, and no constructor has found the pool draining. -/
structure Connected (size : UInt32) (s : PoolState) : Prop where
  holding : ∀ thread, s.threads thread ≠ .holding none
  ended : ∀ ended ∈ s.ended, ended.outcome.Real size

section Steps

variable {size : UInt32} {s next : PoolState} {thread : Nat} {pc : AccessorPc}

theorem Connected.goto (h : Connected size s)
    (threads : next.threads = Function.update s.threads thread pc)
    (ended : next.ended = s.ended) (there : pc ≠ .holding none)
    : Connected size next := by
  refine ⟨?_, ended ▸ h.ended⟩
  rw [threads]
  exact forall_pc_update (· ≠ AccessorPc.holding none) h.holding there

theorem Connected.finish (h : Connected size s) {new : Ended}
    (threads : next.threads = Function.update s.threads thread pc)
    (ended : next.ended = s.ended ++ [new]) (there : pc ≠ .holding none)
    (real : new.outcome.Real size)
    : Connected size next := by
  have moved : Connected size { next with ended := s.ended } := h.goto threads rfl there
  refine ⟨moved.holding, ?_⟩
  rw [ended]
  intro entry member
  rcases List.mem_append.mp member with earlier | last
  · exact h.ended entry earlier
  · rw [List.mem_singleton.mp last]
    exact real

/-- Only the test of `m_drainig` can leave an accessor without a connection. -/
theorem Connected.step {action : PoolAction} (h : Connected size s) (balance : InBalance size s)
    (meets : TestsUndrained s action) (taken : PoolStep s action next)
    : Connected size next := by
  cases taken with
  | giveUp _ _ => exact h.finish rfl rfl (by simp) trivial
  | refuse pc drainig =>
      have undrained := meets (by simp [pc, AccessorPc.isTesting])
      rw [drainig] at undrained
      cases undrained
  | @succeed thread conn _ pc =>
      have mine : s.held thread = some conn := by simp [PoolState.held, pc, AccessorPc.held]
      have real : conn < size.toNat := (balance.once.all conn).mpr (Or.inr ⟨thread, mine⟩)
      exact h.finish rfl rfl (by simp) real
  | use _ => exact h
  | construct | attempt | pass | lockPop | findEmpty | popFront | decrement | unlockPop | sleep
    | wake | throws | destroy | destroyEmpty | lockPush | emplaceBack | increment
    | unlockPush => exact h.goto rfl rfl (by simp)
  | store | spin | exit => exact ⟨h.holding, h.ended⟩

theorem connected_of_undrained (reached : (poolMachine size).ReachableVia TestsUndrained s)
    : Connected size s := by
  induction reached with
  | init => exact ⟨by simp [poolMachine], by simp [poolMachine]⟩
  | step before meets taken ih =>
      exact ih.step (inBalance_of_reachable before.reachable) meets (.of_step taken)

theorem Connected.usable (h : Connected size s) (balance : InBalance size s) : Usable size s := by
  refine ⟨?_, fun ended member => servesAll_of_real (h.ended ended member)⟩
  intro thread connection pc
  cases connection with
  | none => exact absurd pc (h.holding thread)
  | some conn =>
      have mine : s.held thread = some conn := by simp [PoolState.held, pc, AccessorPc.held]
      refine ⟨conn, rfl, (balance.once.all conn).mpr (Or.inr ⟨thread, mine⟩),
        balance.once.apart thread conn mine, ?_⟩
      exact fun other its => balance.once.alone other thread conn its mine

/-- As long as no constructor tests `m_drainig` after it is set, every accessor that is
constructed is usable. A test after that constructs one that is not.
-/
theorem accessor_usable
    : ((poolMachine size).ReachableVia TestsUndrained s → Usable size s)
      ∧ ∀ thread construction,
          s.threads thread = .testing construction
          → s.pool.drainig = true
          → ∃ next,
              (poolMachine size).step s (.advance thread) = some next
              ∧ next.threads thread = .holding none
              ∧ ¬ Usable size next := by
  refine ⟨?_, ?_⟩
  · intro reached
    exact (connected_of_undrained reached).usable (inBalance_of_reachable reached.reachable)
  · intro thread construction pc drainig
    refine ⟨s.finish thread (.holding none) construction .draining, ?_, ?_, ?_⟩
    · simp [poolMachine, poolStep, PoolState.advance, pc, drainig]
    · simp [PoolState.finish, PoolState.goto]
    · intro usable
      obtain ⟨conn, impossible, -⟩ :=
        usable.owned thread none (by simp [PoolState.finish, PoolState.goto])
      cases impossible

end Steps

/-- An accessor is constructed, and the draining begins while it is in use. -/
def earlyRun : List PoolAction :=
  [.construct 0 100, .advance 0, .advance 0, .advance 0, .advance 0, .advance 0, .advance 0,
    .advance 0, .drain, .use 0 false]

theorem accessor_usable_earlyRun
    : ∃ s,
        (poolMachine 2).run earlyRun = some s
        ∧ s.threads 0 = .holding (some 0)
        ∧ Usable 2 s := by
  obtain ⟨s, ran, pc⟩
      : ∃ s,
          ((poolMachine 2).guard TestsUndrained).run earlyRun = some s
          ∧ (poolMachine 2).run earlyRun = some s
          ∧ s.threads 0 = .holding (some 0) :=
    ⟨_, rfl, rfl, rfl⟩
  exact ⟨s, pc.1, pc.2, accessor_usable.1 (Machine.ReachableVia.of_guard ⟨earlyRun, ran⟩)⟩

/-- The draining begins between the head of the constructor's loop and the test in `pop`. -/
def drainedRun : List PoolAction :=
  [.construct 0 100, .advance 0, .drain, .advance 0]

/-- The accessor is constructed without a connection, and `add_line` calls through it. -/
theorem accessor_null_drainedRun
    : ∃ s,
        (poolMachine 2).run drainedRun = some s
        ∧ s.threads 0 = .holding none
        ∧ (∃ ended ∈ s.ended,
            LinesDb.call ended.outcome
              (fun available => LinesDb.addLine (fun db _ => .ended .ok db) available () "soccer")
            = none)
        ∧ ¬ Usable 2 s := by
  obtain ⟨s, ran, pc, ended⟩
      : ∃ s,
          (poolMachine 2).run drainedRun = some s
          ∧ s.threads 0 = .holding none
          ∧ s.ended = [⟨⟨100, 99, []⟩, .draining⟩] :=
    ⟨_, rfl, rfl, rfl⟩
  refine ⟨s, ran, pc, ⟨_, ended ▸ List.mem_singleton_self _, rfl⟩, ?_⟩
  intro usable
  obtain ⟨conn, impossible, -⟩ := usable.owned 0 none pc
  cases impossible

end RVision.Lines.Db
