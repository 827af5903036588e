import RVision.Transition.Machine

/-! The connection pool of `lines_db`. Threads construct accessors, use their connections and
destroy them, while the pool's destructor may drain the pool. `m_drainig` is tested before
`m_lock` is taken, and `m_curr` is written a step after the deque.
-/

namespace RVision.Lines.Db

open Transition

/-- The members of `connection_pool`; connections are numbered as the constructor made them. -/
structure ConnectionPool where
  max : UInt32
  curr : UInt32 := 0
  drainig : Bool := false
  pool : List Nat := []
deriving DecidableEq, Repr

namespace ConnectionPool

/-- `push` without its lock. -/
def push (pool : ConnectionPool) (conn : Nat) : ConnectionPool :=
  { pool with pool := pool.pool ++ [conn], curr := pool.curr + 1 }

/-- The constructor pushes `size` new connections. -/
def construct (size : UInt32) : ConnectionPool :=
  (List.range size.toNat).foldl push { max := size }

end ConnectionPool

/-- An accessor's constructor: the attempts it was given, those it has left, and what its
`pop`s found so far. The code keeps only `left`.
-/
structure Construction where
  attempts : Nat
  left : Nat
  found : List (Option Nat) := []
deriving DecidableEq, Repr

/-- Where a thread is in the life of its accessor. -/
inductive AccessorPc
  /-- The thread has no accessor. -/
  | idle
  /-- At the head of the constructor's loop. -/
  | trying (construction : Construction)
  /-- In `pop`, before the test of `m_drainig`. -/
  | testing (construction : Construction)
  /-- In `pop`, before `m_lock` is taken. -/
  | locking (construction : Construction)
  /-- In `pop`, before the deque is looked at. -/
  | taking (construction : Construction)
  /-- In `pop`, before `--m_curr`. -/
  | popped (construction : Construction) (conn : Nat)
  /-- In `pop`, before `m_lock` is left. -/
  | leaving (construction : Construction) (result : Option Nat)
  /-- `pop` has returned. -/
  | returned (construction : Construction) (result : Option Nat)
  | sleeping (construction : Construction)
  /-- The accessor is constructed; it has no connection if the pool was draining. -/
  | holding (connection : Option Nat)
  /-- In `push`, before `m_lock` is taken. -/
  | pushing (conn : Nat)
  /-- In `push`, before the deque is written. -/
  | appending (conn : Nat)
  /-- In `push`, before `++m_curr`. -/
  | counting
  /-- In `push`, before `m_lock` is left. -/
  | unlocking
deriving DecidableEq, Repr

/-- Where the pool's destructor is. -/
inductive DestructorPc
  | idle
  | looping
  | exited
deriving DecidableEq, Repr

/-- How an accessor's constructor ended. -/
inductive Outcome
  | constructed (conn : Nat)
  | noResource
  | draining
deriving DecidableEq, Repr

/-- The end of an accessor's constructor. -/
structure Ended where
  construction : Construction
  outcome : Outcome
deriving DecidableEq, Repr

structure PoolState where
  pool : ConnectionPool
  lock : Option Nat := none
  threads : Nat → AccessorPc := fun _ => .idle
  destructor : DestructorPc := .idle
  ended : List Ended := []

inductive PoolAction
  /-- An accessor's constructor is called. -/
  | construct (thread attempts : Nat)
  /-- The next step of the thread inside the constructor or the destructor of its accessor. -/
  | advance (thread : Nat)
  /-- The connection is used; an exception unwinds the accessor. -/
  | use (thread : Nat) (throws : Bool)
  /-- The accessor goes out of scope. -/
  | destroy (thread : Nat)
  /-- The next step of the pool's destructor. -/
  | drain
deriving DecidableEq, Repr

namespace PoolState

def goto (s : PoolState) (thread : Nat) (pc : AccessorPc) : PoolState :=
  { s with threads := Function.update s.threads thread pc }

/-- The constructor of the accessor ends and leaves the thread at `pc`. -/
def finish (s : PoolState) (thread : Nat) (pc : AccessorPc) (construction : Construction)
    (outcome : Outcome)
    : PoolState :=
  { s.goto thread pc with ended := s.ended ++ [{ construction, outcome }] }

/-- The accessor's destructor pushes the connection back if there is one. -/
def unwind (s : PoolState) (thread : Nat) (connection : Option Nat) : PoolState :=
  s.goto thread (connection.elim .idle .pushing)

/-- The next step inside the accessor's constructor (`while (attemps--)`, `pop`, the sleep
and the two exceptions) or inside its destructor (`push`).
-/
def advance (s : PoolState) (thread : Nat) : Option PoolState :=
  match s.threads thread with
  | .trying construction =>
      match construction.left with
      | 0 => some (s.finish thread .idle construction .noResource)
      | left + 1 => some (s.goto thread (.testing { construction with left }))
  | .testing construction =>
      if s.pool.drainig then
        some (s.finish thread (.holding none) construction .draining)
      else
        some (s.goto thread (.locking construction))
  | .locking construction =>
      if s.lock.isNone then
        some { s.goto thread (.taking construction) with lock := some thread }
      else
        none
  | .taking construction =>
      match s.pool.pool with
      | [] =>
          some (s.goto thread (.leaving
            { construction with found := construction.found ++ [none] } none))
      | conn :: rest =>
          some { s.goto thread (.popped
              { construction with found := construction.found ++ [some conn] } conn) with
            pool := { s.pool with pool := rest } }
  | .popped construction conn =>
      some { s.goto thread (.leaving construction (some conn)) with
        pool := { s.pool with curr := s.pool.curr - 1 } }
  | .leaving construction result =>
      some { s.goto thread (.returned construction result) with lock := none }
  | .returned construction (some conn) =>
      some (s.finish thread (.holding (some conn)) construction (.constructed conn))
  | .returned construction none => some (s.goto thread (.sleeping construction))
  | .sleeping construction => some (s.goto thread (.trying construction))
  | .pushing conn =>
      if s.lock.isNone then
        some { s.goto thread (.appending conn) with lock := some thread }
      else
        none
  | .appending conn =>
      some { s.goto thread .counting with
        pool := { s.pool with pool := s.pool.pool ++ [conn] } }
  | .counting =>
      some { s.goto thread .unlocking with
        pool := { s.pool with curr := s.pool.curr + 1 } }
  | .unlocking => some { s.goto thread .idle with lock := none }
  | .idle | .holding _ => none

/-- The destructor of the pool sets the flag and tests the counter until it matches. -/
def drain (s : PoolState) : Option PoolState :=
  match s.destructor with
  | .idle => some { s with pool := { s.pool with drainig := true }, destructor := .looping }
  | .looping =>
      some { s with destructor := if s.pool.max ≠ s.pool.curr then .looping else .exited }
  | .exited => none

end PoolState

def poolStep (s : PoolState) : PoolAction → Option PoolState
  | .construct thread attempts =>
      if s.threads thread = .idle then
        some (s.goto thread (.trying { attempts, left := attempts }))
      else
        none
  | .advance thread => s.advance thread
  | .use thread throws =>
      match s.threads thread with
      | .holding (some conn) => some (if throws then s.unwind thread (some conn) else s)
      | _ => none
  | .destroy thread =>
      match s.threads thread with
      | .holding connection => some (s.unwind thread connection)
      | _ => none
  | .drain => s.drain

/-- A pool of `size` connections. -/
def poolMachine (size : UInt32) : Machine PoolState PoolAction where
  init := { pool := .construct size }
  step := poolStep

-----------------------------------------------------------------------------------------
-- What one step does
-----------------------------------------------------------------------------------------

/-- The transitions with their guards. -/
inductive PoolStep (s : PoolState) : PoolAction → PoolState → Prop
  | construct {thread : Nat} (attempts : Nat) (pc : s.threads thread = .idle)
    : PoolStep s (.construct thread attempts)
        (s.goto thread (.trying { attempts, left := attempts }))
  | giveUp {thread : Nat} {construction : Construction}
    (pc : s.threads thread = .trying construction) (out : construction.left = 0)
    : PoolStep s (.advance thread) (s.finish thread .idle construction .noResource)
  | attempt {thread left : Nat} {construction : Construction}
    (pc : s.threads thread = .trying construction) (more : construction.left = left + 1)
    : PoolStep s (.advance thread) (s.goto thread (.testing { construction with left }))
  | refuse {thread : Nat} {construction : Construction}
    (pc : s.threads thread = .testing construction) (drainig : s.pool.drainig = true)
    : PoolStep s (.advance thread) (s.finish thread (.holding none) construction .draining)
  | pass {thread : Nat} {construction : Construction}
    (pc : s.threads thread = .testing construction) (notDrainig : s.pool.drainig = false)
    : PoolStep s (.advance thread) (s.goto thread (.locking construction))
  | lockPop {thread : Nat} {construction : Construction}
    (pc : s.threads thread = .locking construction) (free : s.lock = none)
    : PoolStep s (.advance thread)
        { s.goto thread (.taking construction) with lock := some thread }
  | findEmpty {thread : Nat} {construction : Construction}
    (pc : s.threads thread = .taking construction) (empty : s.pool.pool = [])
    : PoolStep s (.advance thread)
        (s.goto thread
          (.leaving { construction with found := construction.found ++ [none] } none))
  | popFront {thread conn : Nat} {rest : List Nat} {construction : Construction}
    (pc : s.threads thread = .taking construction) (front : s.pool.pool = conn :: rest)
    : PoolStep s (.advance thread)
        { s.goto thread
            (.popped { construction with found := construction.found ++ [some conn] } conn)
          with pool := { s.pool with pool := rest } }
  | decrement {thread conn : Nat} {construction : Construction}
    (pc : s.threads thread = .popped construction conn)
    : PoolStep s (.advance thread)
        { s.goto thread (.leaving construction (some conn)) with
          pool := { s.pool with curr := s.pool.curr - 1 } }
  | unlockPop {thread : Nat} {construction : Construction} {result : Option Nat}
    (pc : s.threads thread = .leaving construction result)
    : PoolStep s (.advance thread)
        { s.goto thread (.returned construction result) with lock := none }
  | succeed {thread conn : Nat} {construction : Construction}
    (pc : s.threads thread = .returned construction (some conn))
    : PoolStep s (.advance thread)
        (s.finish thread (.holding (some conn)) construction (.constructed conn))
  | sleep {thread : Nat} {construction : Construction}
    (pc : s.threads thread = .returned construction none)
    : PoolStep s (.advance thread) (s.goto thread (.sleeping construction))
  | wake {thread : Nat} {construction : Construction}
    (pc : s.threads thread = .sleeping construction)
    : PoolStep s (.advance thread) (s.goto thread (.trying construction))
  | use {thread conn : Nat} (pc : s.threads thread = .holding (some conn))
    : PoolStep s (.use thread false) s
  | throws {thread conn : Nat} (pc : s.threads thread = .holding (some conn))
    : PoolStep s (.use thread true) (s.goto thread (.pushing conn))
  | destroy {thread conn : Nat} (pc : s.threads thread = .holding (some conn))
    : PoolStep s (.destroy thread) (s.goto thread (.pushing conn))
  | destroyEmpty {thread : Nat} (pc : s.threads thread = .holding none)
    : PoolStep s (.destroy thread) (s.goto thread .idle)
  | lockPush {thread conn : Nat} (pc : s.threads thread = .pushing conn)
    (free : s.lock = none)
    : PoolStep s (.advance thread)
        { s.goto thread (.appending conn) with lock := some thread }
  | emplaceBack {thread conn : Nat} (pc : s.threads thread = .appending conn)
    : PoolStep s (.advance thread)
        { s.goto thread .counting with pool := { s.pool with pool := s.pool.pool ++ [conn] } }
  | increment {thread : Nat} (pc : s.threads thread = .counting)
    : PoolStep s (.advance thread)
        { s.goto thread .unlocking with pool := { s.pool with curr := s.pool.curr + 1 } }
  | unlockPush {thread : Nat} (pc : s.threads thread = .unlocking)
    : PoolStep s (.advance thread) { s.goto thread .idle with lock := none }
  | store (pc : s.destructor = .idle)
    : PoolStep s .drain
        { s with pool := { s.pool with drainig := true }, destructor := .looping }
  | spin (pc : s.destructor = .looping) (short : s.pool.max ≠ s.pool.curr)
    : PoolStep s .drain { s with destructor := .looping }
  | exit (pc : s.destructor = .looping) (full : s.pool.max = s.pool.curr)
    : PoolStep s .drain { s with destructor := .exited }

theorem PoolStep.of_advance {s next : PoolState} {thread : Nat}
    (taken : s.advance thread = some next)
    : PoolStep s (.advance thread) next := by
  cases pc : s.threads thread with
  | idle => simp [PoolState.advance, pc] at taken
  | trying construction =>
      cases left : construction.left with
      | zero =>
          simp only [PoolState.advance, pc, left, Option.some.injEq] at taken
          exact taken ▸ .giveUp pc left
      | succ more =>
          simp only [PoolState.advance, pc, left, Option.some.injEq] at taken
          exact taken ▸ .attempt pc left
  | testing construction =>
      simp only [PoolState.advance, pc] at taken
      split_ifs at taken with drainig
      · exact Option.some.inj taken ▸ .refuse pc drainig
      · exact Option.some.inj taken ▸ .pass pc (Bool.eq_false_iff.mpr drainig)
  | locking construction =>
      simp only [PoolState.advance, pc] at taken
      obtain ⟨free, effect⟩ := Option.ite_none_right_eq_some.mp taken
      exact Option.some.inj effect ▸ .lockPop pc (Option.isNone_iff_eq_none.mp free)
  | taking construction =>
      cases conns : s.pool.pool with
      | nil =>
          simp only [PoolState.advance, pc, conns, Option.some.injEq] at taken
          exact taken ▸ .findEmpty pc conns
      | cons conn rest =>
          simp only [PoolState.advance, pc, conns, Option.some.injEq] at taken
          exact taken ▸ .popFront pc conns
  | popped construction conn =>
      simp only [PoolState.advance, pc, Option.some.injEq] at taken
      exact taken ▸ .decrement pc
  | leaving construction result =>
      simp only [PoolState.advance, pc, Option.some.injEq] at taken
      exact taken ▸ .unlockPop pc
  | returned construction result =>
      cases result with
      | none =>
          simp only [PoolState.advance, pc, Option.some.injEq] at taken
          exact taken ▸ .sleep pc
      | some conn =>
          simp only [PoolState.advance, pc, Option.some.injEq] at taken
          exact taken ▸ .succeed pc
  | sleeping construction =>
      simp only [PoolState.advance, pc, Option.some.injEq] at taken
      exact taken ▸ .wake pc
  | holding connection => simp [PoolState.advance, pc] at taken
  | pushing conn =>
      simp only [PoolState.advance, pc] at taken
      obtain ⟨free, effect⟩ := Option.ite_none_right_eq_some.mp taken
      exact Option.some.inj effect ▸ .lockPush pc (Option.isNone_iff_eq_none.mp free)
  | appending conn =>
      simp only [PoolState.advance, pc, Option.some.injEq] at taken
      exact taken ▸ .emplaceBack pc
  | counting =>
      simp only [PoolState.advance, pc, Option.some.injEq] at taken
      exact taken ▸ .increment pc
  | unlocking =>
      simp only [PoolState.advance, pc, Option.some.injEq] at taken
      exact taken ▸ .unlockPush pc

theorem PoolStep.of_drain {s next : PoolState} (taken : s.drain = some next)
    : PoolStep s .drain next := by
  cases pc : s.destructor with
  | idle =>
      simp only [PoolState.drain, pc, Option.some.injEq] at taken
      exact taken ▸ .store pc
  | looping =>
      simp only [PoolState.drain, pc, Option.some.injEq] at taken
      subst next
      split_ifs with short
      · exact .spin pc short
      · exact .exit pc (not_not.mp short)
  | exited => simp [PoolState.drain, pc] at taken

theorem PoolStep.of_step {s next : PoolState} {action : PoolAction}
    (taken : poolStep s action = some next)
    : PoolStep s action next := by
  cases action with
  | construct thread attempts =>
      obtain ⟨pc, effect⟩ := Option.ite_none_right_eq_some.mp taken
      exact Option.some.inj effect ▸ .construct attempts pc
  | advance thread => exact .of_advance taken
  | use thread throws =>
      simp only [poolStep] at taken
      split at taken
      · rename_i conn pc
        cases throws with
        | false => exact Option.some.inj taken ▸ .use pc
        | true => exact Option.some.inj taken ▸ .throws pc
      · cases taken
  | destroy thread =>
      simp only [poolStep] at taken
      split at taken
      · rename_i connection pc
        cases connection with
        | none => exact Option.some.inj taken ▸ .destroyEmpty pc
        | some conn => exact Option.some.inj taken ▸ .destroy pc
      · cases taken
  | drain => exact .of_drain taken

-----------------------------------------------------------------------------------------
-- The constructed pool
-----------------------------------------------------------------------------------------

/-- The constructor leaves all its connections in the deque and as many counted. -/
theorem ConnectionPool.construct_eq (size : UInt32)
    : construct size = { max := size, curr := size, pool := List.range size.toNat } := by
  have general (count : Nat)
      : (List.range count).foldl push { max := size }
        = { max := size, curr := UInt32.ofNat count, pool := List.range count } := by
    induction count with
    | zero => rfl
    | succ count ih =>
        rw [List.range_succ, List.foldl_append, ih]
        simp [push, UInt32.ofNat_add]
  have counted := general size.toNat
  rwa [UInt32.ofNat_toNat] at counted

end RVision.Lines.Db
