import Mathlib.Algebra.Ring.Nat
import RVision.Lines.Db.Pool

/-! The member functions of `connection_pool`, each from its first line to its last. `pop` and
`push` are what the accessors do in several steps; `add` has no caller. It puts a connection
into the deque as `push` does, but counts it neither in `m_curr` nor in `m_max`.
-/

namespace RVision.Lines.Db

open Transition

/-- The exception of `pop`. -/
inductive Draining
  | draining
deriving DecidableEq, Repr

namespace ConnectionPool

def pop (pool : ConnectionPool) : Except Draining (Option Nat × ConnectionPool) :=
  if pool.drainig then
    .error .draining
  else
    match pool.pool with
    | conn :: rest => .ok (some conn, { pool with pool := rest, curr := pool.curr - 1 })
    | [] => .ok (none, pool)

def count (pool : ConnectionPool) : UInt32 := pool.curr

/-- `made` is the connection that `m_factory()` returns; it may also throw. -/
def add (pool : ConnectionPool) (made : Option Nat) : Option (UInt32 × ConnectionPool) :=
  made.map (fun conn =>
    let pool := { pool with pool := pool.pool ++ [conn] }
    (pool.count, pool))

theorem pop_of_drainig {pool : ConnectionPool} (drainig : pool.drainig = true)
    : pool.pop = .error .draining := by
  simp [pop, drainig]

theorem pop_of_nil {pool : ConnectionPool} (running : pool.drainig = false)
    (empty : pool.pool = [])
    : pool.pop = .ok (none, pool) := by
  simp [pop, running, empty]

theorem pop_of_cons {pool : ConnectionPool} (running : pool.drainig = false) {conn : Nat}
    {rest : List Nat} (front : pool.pool = conn :: rest)
    : pool.pop = .ok (some conn, { pool with pool := rest, curr := pool.curr - 1 }) := by
  unfold pop
  rw [if_neg (by simp [running]), front]

end ConnectionPool

-----------------------------------------------------------------------------------------
-- The members as the accessors call them
-----------------------------------------------------------------------------------------

section Accessors

variable {size : UInt32} {s : PoolState} {thread : Nat}

/-- An accessor's `pop` that nobody disturbs is `pop`. -/
theorem runFrom_pop {construction : Construction} (pc : s.threads thread = .testing construction)
    (free : s.lock = none) {result : Option Nat} {pool : ConnectionPool}
    (popped : s.pool.pop = .ok (result, pool))
    : ∃ steps,
        (poolMachine size).runFrom s (List.replicate steps (.advance thread))
          = some
              { s.goto thread
                  (.returned { construction with found := construction.found ++ [result] } result)
                with pool } := by
  have running : s.pool.drainig = false := by
    by_contra drainig
    rw [ConnectionPool.pop_of_drainig (by simpa using drainig)] at popped
    cases popped
  cases deque : s.pool.pool with
  | nil =>
      rw [ConnectionPool.pop_of_nil running deque] at popped
      cases popped
      refine ⟨4, ?_⟩
      simp [Machine.runFrom, poolMachine, poolStep, PoolState.advance, PoolState.goto,
        List.replicate, pc, running, free, deque]
  | cons conn rest =>
      rw [ConnectionPool.pop_of_cons running deque] at popped
      cases popped
      refine ⟨5, ?_⟩
      simp [Machine.runFrom, poolMachine, poolStep, PoolState.advance, PoolState.goto,
        List.replicate, pc, running, free, deque]

/-- An accessor's `push` that nobody disturbs is `push`. -/
theorem runFrom_push {conn : Nat} (pc : s.threads thread = .pushing conn) (free : s.lock = none)
    : (poolMachine size).runFrom s (List.replicate 4 (.advance thread))
      = some { s.goto thread .idle with pool := s.pool.push conn } := by
  simp [Machine.runFrom, poolMachine, poolStep, PoolState.advance, PoolState.goto,
    ConnectionPool.push, List.replicate, pc, free]

end Accessors

-----------------------------------------------------------------------------------------
-- The members one after the other
-----------------------------------------------------------------------------------------

/-- A pool and its callers: the connections that the factory has made for it, those that were
popped and not pushed back, and the values of `m_curr` that `pop` has decremented.
-/
structure MemberState where
  pool : ConnectionPool
  created : Nat
  popped : List Nat := []
  decremented : List UInt32 := []
deriving DecidableEq, Repr

inductive MemberAction
  | pop
  /-- `made` says whether the factory returns. -/
  | add (made : Bool)
  /-- Only a connection that was popped can be pushed. -/
  | push (conn : Nat)
deriving DecidableEq, Repr

def memberStep (s : MemberState) : MemberAction → Option MemberState
  | .pop =>
      match s.pool.pop with
      | .error _ => some s
      | .ok (none, pool) => some { s with pool }
      | .ok (some conn, pool) =>
          some { s with
            pool
            popped := s.popped ++ [conn]
            decremented := s.decremented ++ [s.pool.curr] }
  | .add made =>
      match s.pool.add (if made then some s.created else none) with
      | none => some s
      | some (_, pool) => some { s with pool, created := s.created + 1 }
  | .push conn =>
      if conn ∈ s.popped then
        some { s with pool := s.pool.push conn, popped := s.popped.erase conn }
      else
        none

/-- The calls of the members of a new pool, one after the other. -/
def memberMachine (size : UInt32) : Machine MemberState MemberAction where
  init := { pool := .construct size, created := size.toNat }
  step := memberStep

/-- The counters are in step with the deque and with the factory. -/
structure InStep (s : MemberState) : Prop where
  counted : s.pool.curr.toNat = s.pool.pool.length
  created : s.pool.max.toNat = s.created
  positive : 0 ∉ s.decremented
  returned : s.popped = [] → s.pool.max = s.pool.curr

/-- They are so after each of the calls. -/
def KeepsStep (size : UInt32) (actions : List MemberAction) : Prop :=
  ∀ before s, before <+: actions → (memberMachine size).run before = some s → InStep s

-----------------------------------------------------------------------------------------
-- What one call does
-----------------------------------------------------------------------------------------

/-- The calls with their outcomes. -/
inductive MemberStep (s : MemberState) : MemberAction → MemberState → Prop
  | refuse (drainig : s.pool.drainig = true) : MemberStep s .pop s
  | findEmpty (running : s.pool.drainig = false) (empty : s.pool.pool = []) : MemberStep s .pop s
  | pop {conn : Nat} {rest : List Nat} (running : s.pool.drainig = false)
    (front : s.pool.pool = conn :: rest)
    : MemberStep s .pop
        { s with
          pool := { s.pool with pool := rest, curr := s.pool.curr - 1 }
          popped := s.popped ++ [conn]
          decremented := s.decremented ++ [s.pool.curr] }
  | throws : MemberStep s (.add false) s
  | add
    : MemberStep s (.add true)
        { s with
          pool := { s.pool with pool := s.pool.pool ++ [s.created] }
          created := s.created + 1 }
  | push {conn : Nat} (out : conn ∈ s.popped)
    : MemberStep s (.push conn)
        { s with pool := s.pool.push conn, popped := s.popped.erase conn }

section Steps

variable {size : UInt32} {s next : MemberState} {action : MemberAction}

theorem MemberStep.of_step (taken : memberStep s action = some next)
    : MemberStep s action next := by
  cases action with
  | pop =>
      cases drainig : s.pool.drainig with
      | true =>
          rw [memberStep, ConnectionPool.pop_of_drainig drainig] at taken
          exact Option.some.inj taken ▸ .refuse drainig
      | false =>
          cases deque : s.pool.pool with
          | nil =>
              rw [memberStep, ConnectionPool.pop_of_nil drainig deque] at taken
              exact Option.some.inj taken ▸ .findEmpty drainig deque
          | cons conn rest =>
              rw [memberStep, ConnectionPool.pop_of_cons drainig deque] at taken
              exact Option.some.inj taken ▸ .pop drainig deque
  | add made =>
      cases made with
      | false => exact Option.some.inj taken ▸ .throws
      | true => exact Option.some.inj taken ▸ .add
  | push conn =>
      obtain ⟨out, effect⟩ := Option.ite_none_right_eq_some.mp taken
      exact Option.some.inj effect ▸ .push out

/-- What holds whether or not `add` is called: nobody loses a connection, and `m_curr` counts
down from `m_max` by those that are out, modulo 2^32.
-/
structure Tracks (size : UInt32) (s : MemberState) : Prop where
  max : s.pool.max = size
  created : s.pool.pool.length + s.popped.length = s.created
  counted : (s.pool.curr.toNat + s.popped.length) % 2 ^ 32 = size.toNat

theorem Tracks.step (h : Tracks size s) (taken : MemberStep s action next)
    : Tracks size next := by
  obtain ⟨max, created, counted⟩ := h
  cases taken with
  | refuse | findEmpty | throws => exact ⟨max, created, counted⟩
  | pop _ front =>
      rw [front, List.length_cons] at created
      refine ⟨max, ?_, ?_⟩
      · simp only [List.length_append, List.length_singleton]
        omega
      · simp only [List.length_append, List.length_singleton, UInt32.toNat_sub,
          UInt32.toNat_one]
        omega
  | add =>
      refine ⟨max, ?_, counted⟩
      simp only [List.length_append, List.length_singleton]
      omega
  | push out =>
      have fewer := List.length_erase_of_mem out
      have some := List.length_pos_of_mem out
      refine ⟨max, ?_, ?_⟩
      · simp only [ConnectionPool.push, List.length_append, List.length_singleton]
        omega
      · simp only [ConnectionPool.push, UInt32.toNat_add, UInt32.toNat_one]
        omega

theorem tracks_of_reachable (reached : (memberMachine size).Reachable s) : Tracks size s := by
  apply reached.invariant (motive := Tracks size)
  · have pool := ConnectionPool.construct_eq size
    have small := size.toNat_lt
    refine ⟨by simp [memberMachine, pool], by simp [memberMachine, pool], ?_⟩
    simp only [memberMachine, pool, List.length_nil, Nat.add_zero]
    exact Nat.mod_eq_of_lt small
  · exact fun _ _ _ _ before taken => before.step (.of_step taken)

/-- The destructor's test is right even after an `add`: neither of its operands has moved. -/
theorem Tracks.returned (h : Tracks size s) (none : s.popped = [])
    : s.pool.max = s.pool.curr := by
  have small := s.pool.curr.toNat_lt
  have counted := h.counted
  rw [none, List.length_nil, Nat.add_zero, Nat.mod_eq_of_lt small] at counted
  rw [h.max]
  exact UInt32.toNat_inj.mp counted.symm

/-- As long as the pool has only the connections of its constructor, `m_curr` counts the
deque.
-/
theorem Tracks.counts (h : Tracks size s) (original : s.created = size.toNat)
    : s.pool.curr.toNat = s.pool.pool.length := by
  have small := s.pool.curr.toNat_lt
  have bounded := size.toNat_lt
  have counted := h.counted
  have created := h.created
  omega

-----------------------------------------------------------------------------------------
-- All calls
-----------------------------------------------------------------------------------------

/-- Without an `add` the factory is not asked again, and `pop` finds `m_curr` positive where it
finds a connection. By induction on the calls.
-/
theorem original_of_run {actions : List MemberAction}
    (ran : (memberMachine size).run actions = some s) (unadded : .add true ∉ actions)
    : s.created = size.toNat ∧ 0 ∉ s.decremented := by
  revert unadded
  refine Machine.run_induction
    (motive := fun actions s =>
      .add true ∉ actions → s.created = size.toNat ∧ 0 ∉ s.decremented) ?_ ?_ ran
  · exact fun _ => ⟨rfl, by simp [memberMachine]⟩
  · intro actions s action next ran before taken unadded
    rw [List.mem_append, List.mem_singleton, not_or] at unadded
    obtain ⟨original, positive⟩ := before unadded.1
    cases MemberStep.of_step taken with
    | refuse | findEmpty | throws | push => exact ⟨original, positive⟩
    | pop _ front =>
        have counts := (tracks_of_reachable ⟨actions, ran⟩).counts original
        rw [front, List.length_cons] at counts
        have nonzero : s.pool.curr ≠ 0 := by
          intro zero
          rw [zero] at counts
          exact absurd counts (by simp)
        exact ⟨original, by simp [positive, Ne.symm nonzero]⟩
    | add => exact absurd rfl unadded.2

theorem inStep_of_run {actions : List MemberAction}
    (ran : (memberMachine size).run actions = some s) (unadded : .add true ∉ actions)
    : InStep s := by
  have tracks := tracks_of_reachable ⟨actions, ran⟩
  obtain ⟨original, positive⟩ := original_of_run ran unadded
  exact ⟨tracks.counts original, by rw [tracks.max, original], positive, tracks.returned⟩

/-- A connection that `add` puts into the deque is not counted. -/
theorem MemberStep.not_inStep (taken : MemberStep s (.add true) next) (before : InStep s)
    : ¬ InStep next := by
  intro after
  cases taken with
  | add =>
      have counted := after.counted
      rw [List.length_append, List.length_singleton, before.counted] at counted
      omega

/-- The counters stay in step exactly where no call of `add` gets a connection. The test of the
destructor is right in any case once all connections are back.
-/
theorem keepsStep_iff {actions : List MemberAction}
    (ran : (memberMachine size).run actions = some s)
    : (KeepsStep size actions ↔ .add true ∉ actions)
      ∧ (s.popped = [] → s.pool.max = s.pool.curr) := by
  refine ⟨⟨?_, ?_⟩, (tracks_of_reachable ⟨actions, ran⟩).returned⟩
  · intro keeps added
    obtain ⟨before, after, rfl⟩ := List.append_of_mem added
    have early : before ++ [.add true] <+: before ++ .add true :: after := ⟨after, by simp⟩
    obtain ⟨later, ranLater⟩ := Machine.run_prefix ran early
    obtain ⟨earlier, ranEarlier, taken⟩ := Machine.run_concat_eq_some.mp ranLater
    have moved : MemberStep earlier (.add true) later := .of_step taken
    exact moved.not_inStep (keeps before earlier (List.prefix_append _ _) ranEarlier)
      (keeps _ later early ranLater)
  · intro unadded before earlier early ranEarlier
    exact inStep_of_run ranEarlier (fun added => unadded (early.mem added))

end Steps

/-- Both connections are popped and a third `pop` finds none. They are pushed back in the other
order, and one of them is popped again.
-/
def poppedTwice : List MemberAction :=
  [.pop, .pop, .pop, .push 1, .push 0, .add false, .pop, .push 1]

theorem keepsStep_poppedTwice
    : KeepsStep 2 poppedTwice
      ∧ ∃ s,
          (memberMachine 2).run poppedTwice = some s
          ∧ s.pool.pool = [0, 1]
          ∧ s.decremented = [2, 1, 2]
          ∧ s.pool.max = s.pool.curr := by
  obtain ⟨s, ran, deque, decremented, back⟩
      : ∃ s,
          (memberMachine 2).run poppedTwice = some s
          ∧ s.pool.pool = [0, 1]
          ∧ s.decremented = [2, 1, 2]
          ∧ s.popped = [] :=
    ⟨_, rfl, rfl, rfl, rfl⟩
  obtain ⟨keeps, returned⟩ := keepsStep_iff ran
  exact ⟨keeps.mpr (by decide), s, ran, deque, decremented, returned back⟩

/-- An empty pool gets a connection: it has one that nobody counts, and the `pop` that takes it
decrements `m_curr` at 0.
-/
theorem not_keepsStep_added
    : ¬ KeepsStep 0 [.add true, .pop]
      ∧ ∃ s,
          (memberMachine 0).run [.add true, .pop] = some s
          ∧ s.decremented = [0]
          ∧ s.pool.curr = 4294967295 := by
  obtain ⟨s, ran, decremented, wrapped⟩
      : ∃ s,
          (memberMachine 0).run [.add true, .pop] = some s
          ∧ s.decremented = [0]
          ∧ s.pool.curr = 4294967295 :=
    ⟨_, rfl, rfl, rfl⟩
  refine ⟨?_, s, ran, decremented, wrapped⟩
  intro keeps
  have after := keeps _ s (List.prefix_refl _) ran
  exact after.positive (by simp [decremented])

end RVision.Lines.Db
