import RVision.Lines.Db.Pool
import RVision.Transition.Lock
import RVision.Transition.Ownership
import RVision.Transition.Threads

/-! Connections are neither lost nor shared. A connection is in the deque or with one thread,
and `m_curr` lags behind the deque only inside `m_lock`.
-/

namespace RVision.Lines.Db

open Transition

namespace AccessorPc

/-- The thread holds `m_lock`. -/
def inside : AccessorPc → Bool
  | .taking _ | .popped _ _ | .leaving _ _ | .appending _ | .counting | .unlocking => true
  | _ => false

/-- The connection that the thread has, in its accessor or on the way to or from it. -/
def held : AccessorPc → Option Nat
  | .popped _ conn => some conn
  | .leaving _ result | .returned _ result => result
  | .holding connection => connection
  | .pushing conn | .appending conn => some conn
  | _ => none

/-- How far `m_curr` is ahead of the deque. -/
def ahead : AccessorPc → Int
  | .popped _ _ => 1
  | .counting => -1
  | _ => 0

/-- All that the balance of the pool depends on. -/
def stake (pc : AccessorPc) : Option Nat × Bool × Int := (pc.held, pc.inside, pc.ahead)

end AccessorPc

namespace PoolState

def held (s : PoolState) (thread : Nat) : Option Nat := (s.threads thread).held

/-- How far `m_curr` is ahead because of the thread that holds `m_lock`. -/
def ahead (s : PoolState) : Int :=
  s.lock.elim 0 (fun thread => (s.threads thread).ahead)

end PoolState

/-- What holds of the pool in every state. -/
structure InBalance (size : UInt32) (s : PoolState) : Prop where
  max : s.pool.max = size
  once : EachOnce size.toNat s.pool.pool s.held
  guarded : Guarded AccessorPc.inside s.lock s.threads
  counted : (s.pool.curr.toNat : Int) = s.pool.pool.length + s.ahead

theorem held_update (s next : PoolState) {thread : Nat} {pc : AccessorPc}
    (threads : next.threads = Function.update s.threads thread pc)
    : next.held = Function.update s.held thread pc.held := by
  funext other
  by_cases here : other = thread
  · simp [PoolState.held, threads, here]
  · simp [PoolState.held, threads, here]

section Steps

variable {size : UInt32} {s next : PoolState} {thread : Nat} {pc : AccessorPc}

/-- The thread that holds `m_lock` decides how far `m_curr` is ahead. -/
theorem InBalance.ahead_of_inside (h : InBalance size s)
    (inside : (s.threads thread).inside = true)
    : s.ahead = (s.threads thread).ahead := by
  simp [PoolState.ahead, (h.guarded thread).mp inside]

/-- Outside `m_lock`, a thread that keeps its connection changes nothing of the balance; nor
does one that stays inside without touching deque or counter.
-/
theorem InBalance.quiet (h : InBalance size s)
    (threads : next.threads = Function.update s.threads thread pc)
    (pool : next.pool = s.pool) (lock : next.lock = s.lock)
    (same : pc.stake = (s.threads thread).stake)
    : InBalance size next := by
  obtain ⟨held, rest⟩ := Prod.mk.inj same
  obtain ⟨inside, ahead⟩ := Prod.mk.inj rest
  refine ⟨pool ▸ h.max, ?_, ?_, ?_⟩
  · rw [pool, held_update s next threads]
    exact h.once.keep held
  · rw [threads, lock]
    exact h.guarded.move inside
  · have same : next.ahead = s.ahead := by
      simp only [PoolState.ahead, lock, threads]
      congr 1
      funext other
      by_cases here : other = thread
      · rw [here, Function.update_self, ahead]
      · rw [Function.update_of_ne here]
    rw [pool, same]
    exact h.counted

theorem InBalance.acquire (h : InBalance size s) (free : s.lock = none)
    (threads : next.threads = Function.update s.threads thread pc)
    (pool : next.pool = s.pool) (lock : next.lock = some thread)
    (held : pc.held = (s.threads thread).held) (inside : pc.inside = true)
    (ahead : pc.ahead = 0)
    : InBalance size next := by
  refine ⟨pool ▸ h.max, ?_, ?_, ?_⟩
  · rw [pool, held_update s next threads]
    exact h.once.keep held
  · rw [threads, lock]
    exact h.guarded.acquire free inside
  · have before := h.counted
    simp only [PoolState.ahead, free, Option.elim_none] at before
    simp only [PoolState.ahead, pool, lock, threads, Option.elim_some, Function.update_self,
      ahead]
    exact before

theorem InBalance.release (h : InBalance size s) (mine : (s.threads thread).inside = true)
    (settled : (s.threads thread).ahead = 0)
    (threads : next.threads = Function.update s.threads thread pc)
    (pool : next.pool = s.pool) (lock : next.lock = none)
    (held : pc.held = (s.threads thread).held) (outside : pc.inside = false)
    : InBalance size next := by
  refine ⟨pool ▸ h.max, ?_, ?_, ?_⟩
  · rw [pool, held_update s next threads]
    exact h.once.keep held
  · rw [threads, lock]
    exact h.guarded.release mine outside
  · have before := h.counted
    rw [h.ahead_of_inside mine, settled] at before
    simp only [PoolState.ahead, pool, lock, Option.elim_none]
    exact before

/-- A step inside `m_lock` that touches the deque or the counter. -/
theorem InBalance.touch (h : InBalance size s) (mine : (s.threads thread).inside = true)
    (threads : next.threads = Function.update s.threads thread pc)
    (lock : next.lock = s.lock) (max : next.pool.max = s.pool.max)
    (inside : pc.inside = true)
    (once : EachOnce size.toNat next.pool.pool (Function.update s.held thread pc.held))
    (counted : (next.pool.curr.toNat : Int) = next.pool.pool.length + pc.ahead)
    : InBalance size next := by
  refine ⟨max.trans h.max, ?_, ?_, ?_⟩
  · rw [held_update s next threads]
    exact once
  · rw [threads, lock]
    exact h.guarded.move (inside.trans mine.symm)
  · have holder := (h.guarded thread).mp mine
    simp only [PoolState.ahead, lock, holder, threads, Option.elim_some, Function.update_self]
    exact counted

theorem InBalance.popFront (h : InBalance size s) {construction after : Construction}
    (taking : s.threads thread = .taking construction) {conn : Nat} {rest : List Nat}
    (front : s.pool.pool = conn :: rest)
    : InBalance size
        { s.goto thread (.popped after conn) with pool := { s.pool with pool := rest } } := by
  have inside : (s.threads thread).inside = true := by simp [taking, AccessorPc.inside]
  have free : s.held thread = none := by simp [PoolState.held, taking, AccessorPc.held]
  have once := h.once
  have counted := h.counted
  rw [front] at once counted
  rw [h.ahead_of_inside inside, taking] at counted
  refine h.touch inside rfl rfl rfl rfl (once.take free) ?_
  simpa [AccessorPc.ahead] using counted

theorem InBalance.decrement (h : InBalance size s) {construction : Construction} {conn : Nat}
    (popped : s.threads thread = .popped construction conn)
    : s.pool.curr ≠ 0
      ∧ InBalance size
          { s.goto thread (.leaving construction (some conn)) with
            pool := { s.pool with curr := s.pool.curr - 1 } } := by
  have inside : (s.threads thread).inside = true := by simp [popped, AccessorPc.inside]
  have counted := h.counted
  rw [h.ahead_of_inside inside, popped] at counted
  have positive : 1 ≤ s.pool.curr.toNat := by
    simp only [AccessorPc.ahead] at counted
    omega
  refine ⟨?_, h.touch inside rfl rfl rfl rfl (h.once.keep ?_) ?_⟩
  · intro zero
    rw [zero] at positive
    exact absurd positive (by decide)
  · simp [PoolState.held, popped, AccessorPc.held]
  · have one : (1 : UInt32) ≤ s.pool.curr := UInt32.le_iff_toNat_le.mpr positive
    have less : (s.pool.curr - 1).toNat = s.pool.curr.toNat - 1 :=
      UInt32.toNat_sub_of_le _ _ one
    simp only [AccessorPc.ahead] at counted ⊢
    rw [less]
    omega

theorem InBalance.emplaceBack (h : InBalance size s) {conn : Nat}
    (appending : s.threads thread = .appending conn)
    : InBalance size
        { s.goto thread .counting with
          pool := { s.pool with pool := s.pool.pool ++ [conn] } } := by
  have inside : (s.threads thread).inside = true := by simp [appending, AccessorPc.inside]
  have mine : s.held thread = some conn := by simp [PoolState.held, appending, AccessorPc.held]
  have counted := h.counted
  rw [h.ahead_of_inside inside, appending] at counted
  refine h.touch inside rfl rfl rfl rfl (h.once.give mine) ?_
  simp only [AccessorPc.ahead, List.length_append, List.length_singleton] at counted ⊢
  omega

theorem InBalance.increment (h : InBalance size s)
    (counting : s.threads thread = .counting)
    : InBalance size
        { s.goto thread .unlocking with
          pool := { s.pool with curr := s.pool.curr + 1 } } := by
  have inside : (s.threads thread).inside = true := by simp [counting, AccessorPc.inside]
  have counted := h.counted
  rw [h.ahead_of_inside inside, counting] at counted
  have held : AccessorPc.unlocking.held = s.held thread := by
    simp [PoolState.held, counting, AccessorPc.held]
  refine h.touch inside rfl rfl rfl rfl (h.once.keep held) ?_
  -- The deque is never longer than the pool is large, so the counter does not wrap.
  have short := h.once.length_le
  have bounded := size.toNat_lt
  have more : (s.pool.curr + 1).toNat = s.pool.curr.toNat + 1 := by
    rw [UInt32.toNat_add]
    apply Nat.mod_eq_of_lt
    simp only [AccessorPc.ahead, UInt32.toNat_one] at counted ⊢
    omega
  simp only [AccessorPc.ahead] at counted ⊢
  rw [more]
  omega

theorem InBalance.step {action : PoolAction} (h : InBalance size s)
    (taken : PoolStep s action next)
    : InBalance size next := by
  cases taken with
  | construct _ pc => exact h.quiet rfl rfl rfl (by rw [pc]; rfl)
  | giveUp pc | attempt pc | refuse pc | pass pc | findEmpty pc | succeed pc | sleep pc
    | wake pc | throws pc | destroy pc | destroyEmpty pc =>
      exact h.quiet rfl rfl rfl (by rw [pc]; rfl)
  | lockPop pc free | lockPush pc free =>
      exact h.acquire free rfl rfl rfl (by rw [pc]; rfl) rfl rfl
  | popFront pc front => exact h.popFront pc front
  | decrement pc => exact (h.decrement pc).2
  | emplaceBack pc => exact h.emplaceBack pc
  | increment pc => exact h.increment pc
  | unlockPop pc | unlockPush pc =>
      exact h.release (by rw [pc]; rfl) (by rw [pc]; rfl) rfl rfl rfl (by rw [pc]; rfl) rfl
  | use _ => exact h
  | store | spin | exit => exact ⟨h.max, h.once, h.guarded, h.counted⟩

theorem inBalance_of_reachable (reached : (poolMachine size).Reachable s)
    : InBalance size s := by
  apply reached.invariant (motive := InBalance size)
  · have pool := ConnectionPool.construct_eq size
    refine ⟨by simp [poolMachine, pool], ?_, ?_, by simp [poolMachine, pool, PoolState.ahead]⟩
    · simp only [poolMachine, pool]
      exact EachOnce.range size.toNat
    · simp [Guarded, poolMachine, AccessorPc.inside]
  · exact fun _ _ _ _ before taken => before.step (.of_step taken)

end Steps

-----------------------------------------------------------------------------------------
-- What a constructor takes out of the pool
-----------------------------------------------------------------------------------------

/-- The connection that the ended constructor has left in the accessor. -/
def Outcome.connection : Outcome → Option Nat
  | .constructed conn => some conn
  | .noResource | .draining => none

/-- The connections that its `pop`s took are the one in the accessor, if any, and it ended in
`no_resource` exactly when all its attempts found the pool empty.
-/
structure Ended.Fair (ended : Ended) : Prop where
  taken : ended.construction.found.filterMap id = ended.outcome.connection.toList
  noResource
    : ended.outcome = .noResource
      ↔ ended.construction.found = List.replicate ended.construction.attempts none

namespace Construction

/-- All attempts made so far found the pool empty. -/
def Between (construction : Construction) : Prop :=
  construction.left ≤ construction.attempts
  ∧ construction.found
    = List.replicate (construction.attempts - construction.left) none

/-- An attempt is being made, and the ones before it found the pool empty. -/
def During (construction : Construction) : Prop :=
  construction.left < construction.attempts
  ∧ construction.found
    = List.replicate (construction.attempts - construction.left - 1) none

/-- The last attempt had `result`, the ones before it found the pool empty. -/
def After (construction : Construction) (result : Option Nat) : Prop :=
  construction.left < construction.attempts
  ∧ construction.found
    = List.replicate (construction.attempts - construction.left - 1) none ++ [result]

variable {construction : Construction}

theorem Between.during (h : construction.Between) {left : Nat}
    (more : construction.left = left + 1)
    : During { construction with left } := by
  obtain ⟨inside, found⟩ := h
  refine ⟨by simp; omega, ?_⟩
  simp only [found, more]
  congr 1

theorem During.after (h : construction.During) (result : Option Nat)
    : After { construction with found := construction.found ++ [result] } result := by
  obtain ⟨inside, found⟩ := h
  exact ⟨inside, by simp [found]⟩

theorem After.between (h : construction.After none) : construction.Between := by
  obtain ⟨inside, found⟩ := h
  refine ⟨Nat.le_of_lt inside, ?_⟩
  rw [found, ← List.replicate_succ']
  congr 1
  omega

theorem Between.fair (h : construction.Between) (out : construction.left = 0)
    : Ended.Fair { construction, outcome := .noResource } := by
  have found := h.2
  rw [out, Nat.sub_zero] at found
  refine ⟨by simp [found, Outcome.connection], iff_of_true rfl found⟩

theorem During.fair (h : construction.During)
    : Ended.Fair { construction, outcome := .draining } := by
  obtain ⟨inside, found⟩ := h
  refine ⟨by simp [found, Outcome.connection], iff_of_false (by simp) ?_⟩
  intro all
  have lengths := congrArg List.length (found.symm.trans all)
  simp only [List.length_replicate] at lengths
  omega

theorem After.fair {conn : Nat} (h : construction.After (some conn))
    : Ended.Fair { construction, outcome := .constructed conn } := by
  obtain ⟨_, found⟩ := h
  refine ⟨by simp [found, Outcome.connection], iff_of_false (by simp) ?_⟩
  intro all
  have member : some conn ∈ List.replicate construction.attempts none := by
    rw [← all, found]
    simp
  exact absurd (List.eq_of_mem_replicate member) (by simp)

end Construction

/-- The constructor that the thread is in has recorded its attempts. -/
def AccessorPc.Recorded : AccessorPc → Prop
  | .trying construction | .sleeping construction => construction.Between
  | .testing construction | .locking construction | .taking construction =>
      construction.During
  | .popped construction conn => construction.After (some conn)
  | .leaving construction result | .returned construction result =>
      construction.After result
  | _ => True

/-- Every constructor that runs has recorded its attempts, every one that ended was fair. -/
structure Attempts (s : PoolState) : Prop where
  running : ∀ thread, (s.threads thread).Recorded
  ended : ∀ ended ∈ s.ended, ended.Fair

section Attempts

variable {s next : PoolState} {thread : Nat} {pc : AccessorPc}

theorem Attempts.goto (h : Attempts s)
    (threads : next.threads = Function.update s.threads thread pc)
    (ended : next.ended = s.ended) (recorded : pc.Recorded)
    : Attempts next := by
  refine ⟨?_, ended ▸ h.ended⟩
  rw [threads]
  exact forall_pc_update AccessorPc.Recorded h.running recorded

theorem Attempts.finish (h : Attempts s) {new : Ended}
    (threads : next.threads = Function.update s.threads thread pc)
    (ended : next.ended = s.ended ++ [new]) (recorded : pc.Recorded) (fair : new.Fair)
    : Attempts next := by
  have moved : Attempts { next with ended := s.ended } := h.goto threads rfl recorded
  refine ⟨moved.running, ?_⟩
  intro entry member
  rw [ended] at member
  rcases List.mem_append.mp member with earlier | last
  · exact h.ended entry earlier
  · rw [List.mem_singleton.mp last]
    exact fair

theorem Attempts.step {action : PoolAction} (h : Attempts s) (taken : PoolStep s action next)
    : Attempts next := by
  have recorded {thread : Nat} {pc : AccessorPc} (here : s.threads thread = pc)
      : pc.Recorded :=
    here ▸ h.running thread
  cases taken with
  | construct attempts _ =>
      have fresh : Construction.Between { attempts, left := attempts } := by
        simp [Construction.Between]
      exact h.goto rfl rfl fresh
  | giveUp pc out => exact h.finish rfl rfl trivial ((recorded pc).fair out)
  | attempt pc more => exact h.goto rfl rfl ((recorded pc).during more)
  | refuse pc _ => exact h.finish rfl rfl trivial (recorded pc).fair
  | pass pc | lockPop pc | decrement pc | unlockPop pc | wake pc =>
      have before := recorded pc
      exact h.goto rfl rfl before
  | findEmpty pc _ => exact h.goto rfl rfl ((recorded pc).after none)
  | @popFront _ conn _ _ pc _ => exact h.goto rfl rfl ((recorded pc).after (some conn))
  | succeed pc => exact h.finish rfl rfl trivial (recorded pc).fair
  | sleep pc => exact h.goto rfl rfl (recorded pc).between
  | use _ => exact h
  | throws | destroy | destroyEmpty | lockPush | emplaceBack | increment | unlockPush =>
      exact h.goto rfl rfl trivial
  | store | spin | exit => exact ⟨h.running, h.ended⟩

theorem attempts_of_reachable {size : UInt32} (reached : (poolMachine size).Reachable s)
    : Attempts s := by
  apply reached.invariant (motive := Attempts)
  · exact ⟨fun _ => trivial, by simp [poolMachine]⟩
  · exact fun _ _ _ _ before taken => before.step (.of_step taken)

end Attempts

-----------------------------------------------------------------------------------------
-- The pool conserves its connections
-----------------------------------------------------------------------------------------

theorem InBalance.curr_le {size : UInt32} {s : PoolState} (h : InBalance size s)
    : s.pool.curr ≤ s.pool.max := by
  rw [h.max, UInt32.le_iff_toNat_le]
  have short := h.once.length_le
  have counted := h.counted
  cases lock : s.lock with
  | none =>
      simp only [PoolState.ahead, lock, Option.elim_none] at counted
      omega
  | some thread =>
      simp only [PoolState.ahead, lock, Option.elim_some] at counted
      cases pc : s.threads thread with
      | popped construction conn =>
          have mine : s.held thread = some conn := by
            simp [PoolState.held, pc, AccessorPc.held]
          have less := h.once.length_lt mine
          simp only [pc, AccessorPc.ahead] at counted
          omega
      | _ =>
          simp only [pc, AccessorPc.ahead] at counted
          omega

/-- In every reachable state each of the created connections is once in the deque or with a
thread; `m_curr` is at most `m_max`, is the length of the deque whenever `m_lock` is free, and
is not 0 when it is about to be decremented; and every accessor constructor that ended took
exactly the connection it ended with.
-/
theorem connections_conserved {size : UInt32} {s : PoolState}
    (reached : (poolMachine size).Reachable s)
    : EachOnce size.toNat s.pool.pool s.held
      ∧ (s.lock = none → s.pool.curr.toNat = s.pool.pool.length)
      ∧ s.pool.max = size
      ∧ s.pool.curr ≤ s.pool.max
      ∧ (∀ thread construction conn,
          s.threads thread = .popped construction conn → s.pool.curr ≠ 0)
      ∧ ∀ ended ∈ s.ended, ended.Fair := by
  have h := inBalance_of_reachable reached
  refine ⟨h.once, ?_, h.max, h.curr_le, ?_, (attempts_of_reachable reached).ended⟩
  · intro free
    have counted := h.counted
    simp only [PoolState.ahead, free, Option.elim_none] at counted
    omega
  · exact fun thread construction conn popped => (h.decrement popped).1

/-- Two threads share one connection; the second gives up while the first one has it, and an
exception in the first puts it back.
-/
def scarceRun : List PoolAction :=
  [.construct 0 1, .construct 1 1, .advance 0, .advance 0, .advance 0, .advance 1,
    .advance 1, .advance 0, .advance 0, .advance 0, .advance 1, .advance 1, .advance 0,
    .advance 1, .advance 1, .advance 1, .advance 1, .use 0 true]

def pushBack : List PoolAction := List.replicate 4 (.advance 0)

theorem connections_conserved_scarceRun
    : ∃ before after,
        (poolMachine 1).run scarceRun = some before
        ∧ before.ended
          = [⟨⟨1, 0, [some 0]⟩, .constructed 0⟩, ⟨⟨1, 0, [none]⟩, .noResource⟩]
        ∧ before.held 0 = some 0
        ∧ before.pool.pool = []
        ∧ (poolMachine 1).run (scarceRun ++ pushBack) = some after
        ∧ after.held 0 = none
        ∧ after.pool.pool = [0]
        ∧ after.pool.curr = 1
        ∧ EachOnce 1 before.pool.pool before.held
        ∧ EachOnce 1 after.pool.pool after.held := by
  obtain ⟨before, ran, ended, held, empty⟩
      : ∃ s,
          (poolMachine 1).run scarceRun = some s
          ∧ s.ended = [⟨⟨1, 0, [some 0]⟩, .constructed 0⟩, ⟨⟨1, 0, [none]⟩, .noResource⟩]
          ∧ s.held 0 = some 0
          ∧ s.pool.pool = [] :=
    ⟨_, rfl, by decide, by decide, rfl⟩
  obtain ⟨after, later, free, back, counted⟩
      : ∃ s,
          (poolMachine 1).run (scarceRun ++ pushBack) = some s
          ∧ s.held 0 = none
          ∧ s.pool.pool = [0]
          ∧ s.pool.curr = 1 :=
    ⟨_, rfl, by decide, rfl, rfl⟩
  exact ⟨before, after, ran, ended, held, empty, later, free, back, counted,
    (connections_conserved ⟨scarceRun, ran⟩).1,
    (connections_conserved ⟨scarceRun ++ pushBack, later⟩).1⟩

end RVision.Lines.Db
