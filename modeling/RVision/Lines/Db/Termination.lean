import RVision.Lines.Db.Conservation
import RVision.Transition.Futures

/-! Accessors come to an end. Whatever the other threads and the draining do, the constructor
and the destructor of an accessor take a bounded number of steps of their own, and the only
thing they ever wait for is a thread inside `m_lock`, which is itself free to go on.
-/

namespace RVision.Lines.Db

open Transition

namespace AccessorPc

/-- The steps that the thread takes at most before its constructor or destructor has ended. -/
def remaining : AccessorPc → Nat
  | .idle | .holding _ => 0
  | .trying construction => 7 * construction.left + 1
  | .testing construction => 7 * construction.left + 7
  | .locking construction => 7 * construction.left + 6
  | .taking construction => 7 * construction.left + 5
  | .popped construction _ => 7 * construction.left + 4
  | .leaving construction (some _) => 7 * construction.left + 3
  | .leaving construction none => 7 * construction.left + 4
  | .returned construction (some _) => 7 * construction.left + 2
  | .returned construction none => 7 * construction.left + 3
  | .sleeping construction => 7 * construction.left + 2
  | .pushing _ => 4
  | .appending _ => 3
  | .counting => 2
  | .unlocking => 1

end AccessorPc

namespace PoolAction

/-- The action is a step inside the constructor or the destructor of the thread's accessor. -/
def isAdvance (thread : Nat) : PoolAction → Bool
  | .advance other => other == thread
  | _ => false

/-- What a call of the thread may take: seven steps for an attempt and one more to throw
`no_resource`, or the four of `push`.
-/
def allowance (thread : Nat) : PoolAction → Nat
  | .construct other attempts => if other = thread then 7 * attempts + 1 else 0
  | .destroy other | .use other true => if other = thread then 4 else 0
  | .use _ false | .advance _ | .drain => 0

end PoolAction

section Steps

variable {size : UInt32} {s next : PoolState} {action : PoolAction} {thread : Nat}

/-- A step of one thread costs the others nothing. -/
theorem remaining_goto (s : PoolState) {mover : Nat} {pc : AccessorPc} {cost gain : Nat}
    (own : thread = mover → pc.remaining + cost ≤ (s.threads mover).remaining + gain)
    (free : thread ≠ mover → cost ≤ gain)
    : (Function.update s.threads mover pc thread).remaining + cost
      ≤ (s.threads thread).remaining + gain := by
  by_cases same : thread = mover
  · subst same
    rw [Function.update_self]
    exact own rfl
  · rw [Function.update_of_ne same]
    have nothing := free same
    omega

/-- Every step inside the constructor or the destructor brings its thread nearer to the end. -/
theorem PoolStep.remaining_le (taken : PoolStep s action next) (thread : Nat)
    : (next.threads thread).remaining + (action.isAdvance thread).toNat
      ≤ (s.threads thread).remaining + action.allowance thread := by
  have moved {mover : Nat} {pc : AccessorPc}
      (nearer : pc.remaining + 1 ≤ (s.threads mover).remaining)
      : (Function.update s.threads mover pc thread).remaining
          + (PoolAction.isAdvance thread (.advance mover)).toNat
        ≤ (s.threads thread).remaining + PoolAction.allowance thread (.advance mover) := by
    apply remaining_goto s
    · intro same
      simpa [PoolAction.isAdvance, PoolAction.allowance, same] using nearer
    · intro other
      simp [PoolAction.isAdvance, PoolAction.allowance, Ne.symm other]
  cases taken with
  | construct attempts pc =>
      apply remaining_goto s
      · intro same
        simp [PoolAction.isAdvance, PoolAction.allowance, AccessorPc.remaining, same]
      · exact fun _ => Nat.zero_le _
  | throws pc | destroy pc | destroyEmpty pc =>
      apply remaining_goto s
      · intro same
        simp [PoolAction.isAdvance, PoolAction.allowance, AccessorPc.remaining, same]
      · exact fun _ => Nat.zero_le _
  | attempt pc more =>
      apply moved
      simp only [pc, AccessorPc.remaining, more]
      omega
  | @unlockPop _ _ result pc =>
      apply moved
      cases result <;> simp [pc, AccessorPc.remaining]
  | giveUp pc | refuse pc | pass pc | lockPop pc | findEmpty pc | popFront pc | decrement pc
    | succeed pc | sleep pc | wake pc | lockPush pc | emplaceBack pc | increment pc
    | unlockPush pc =>
      apply moved
      simp [pc, AccessorPc.remaining]
  | use _ | store | spin | exit => exact Nat.le_refl _

/-- A thread inside `m_lock` can always go on. -/
theorem advance_of_inside (inside : (s.threads thread).inside = true)
    : (s.advance thread).isSome = true := by
  cases pc : s.threads thread with
  | taking construction =>
      cases front : s.pool.pool with
      | nil => simp [PoolState.advance, pc, front]
      | cons conn rest => simp [PoolState.advance, pc, front]
  | popped _ _ | leaving _ _ | appending _ | counting | unlocking =>
      simp [PoolState.advance, pc]
  | _ => simp [pc, AccessorPc.inside] at inside

/-- Where `m_lock` is free, a thread inside a constructor or destructor can go on. -/
theorem advance_of_free (free : s.lock = none) (busy : (s.threads thread).remaining ≠ 0)
    : (s.advance thread).isSome = true := by
  cases pc : s.threads thread with
  | trying construction =>
      cases left : construction.left with
      | zero => simp [PoolState.advance, pc, left]
      | succ more => simp [PoolState.advance, pc, left]
  | testing construction =>
      cases drainig : s.pool.drainig with
      | false => simp [PoolState.advance, pc, drainig]
      | true => simp [PoolState.advance, pc, drainig]
  | returned construction result =>
      cases result with
      | none => simp [PoolState.advance, pc]
      | some conn => simp [PoolState.advance, pc]
  | locking _ | pushing _ => simp [PoolState.advance, pc, free]
  | sleeping _ => simp [PoolState.advance, pc]
  | idle | holding _ => simp [pc, AccessorPc.remaining] at busy
  | taking _ | popped _ _ | leaving _ _ | appending _ | counting | unlocking =>
      exact advance_of_inside (by simp [pc, AccessorPc.inside])

-----------------------------------------------------------------------------------------
-- Going on to the end
-----------------------------------------------------------------------------------------

namespace PoolState

/-- The thread that goes on first where `thread` is to come to its end: the owner of `m_lock`,
while it has one.
-/
def mover (s : PoolState) (thread : Nat) : Nat := s.lock.getD thread

/-- What another owner of `m_lock` has to do at most before it gives it up. -/
def waitFor (s : PoolState) (thread : Nat) : Nat :=
  s.lock.elim 0 (fun owner => if owner = thread then 0 else (s.threads owner).remaining)

end PoolState

theorem advance_mover (balance : InBalance size s) (busy : (s.threads thread).remaining ≠ 0)
    : ∃ next, s.advance (s.mover thread) = some next := by
  apply Option.isSome_iff_exists.mp
  cases lock : s.lock with
  | none => simpa [PoolState.mover, lock] using advance_of_free lock busy
  | some owner =>
      have inside := (balance.guarded owner).mpr lock
      simpa [PoolState.mover, lock] using advance_of_inside inside

/-- A thread leaves `m_lock` as it is, takes it or gives it up. -/
theorem PoolStep.lock_cases {mover : Nat} (taken : PoolStep s (.advance mover) next)
    : next.lock = s.lock ∨ next.lock = none ∨ (s.lock = none ∧ next.lock = some mover) := by
  cases taken with
  | lockPop _ free | lockPush _ free => exact Or.inr (Or.inr ⟨free, rfl⟩)
  | unlockPop | unlockPush => exact Or.inr (Or.inl rfl)
  | _ => exact Or.inl rfl

/-- A step of the mover brings the thread nearer to its end, or the owner of `m_lock` nearer to
giving it up.
-/
theorem PoolStep.nearer (taken : PoolStep s (.advance (s.mover thread)) next)
    : (next.threads thread).remaining + next.waitFor thread
      < (s.threads thread).remaining + s.waitFor thread := by
  have own := taken.remaining_le thread
  have its := taken.remaining_le (s.mover thread)
  have change := taken.lock_cases
  simp only [PoolAction.isAdvance, PoolAction.allowance, beq_self_eq_true, Bool.toNat_true]
    at own its
  cases lock : s.lock with
  | none =>
      have me : s.mover thread = thread := by simp [PoolState.mover, lock]
      have after : next.waitFor thread = 0 := by
        rcases change with same | free | ⟨_, mine⟩
        · simp [PoolState.waitFor, same, lock]
        · simp [PoolState.waitFor, free]
        · simp [PoolState.waitFor, mine, me]
      rw [me] at its
      omega
  | some owner =>
      have other : s.mover thread = owner := by simp [PoolState.mover, lock]
      have after : next.lock = some owner ∨ next.lock = none := by
        rcases change with same | free | ⟨wasFree, _⟩
        · exact Or.inl (same.trans lock)
        · exact Or.inr free
        · simp [lock] at wasFree
      rw [other] at its own
      by_cases me : owner = thread
      · subst me
        rcases after with kept | free
        · simp only [PoolState.waitFor, kept, lock, Option.elim_some, if_true]
          omega
        · simp only [PoolState.waitFor, free, lock, Option.elim_none, Option.elim_some, if_true]
          omega
      · rcases after with kept | free
        · simp only [PoolState.waitFor, kept, lock, Option.elim_some, me, if_false]
          omega
        · simp only [PoolState.waitFor, free, lock, Option.elim_none, Option.elim_some, me,
            if_false]
          omega

/-- Where a thread that is neither in a constructor nor in a destructor is. -/
theorem rest_of_remaining {pc : AccessorPc} (done : pc.remaining = 0)
    : pc = .idle ∨ ∃ connection, pc = .holding connection := by
  cases pc with
  | idle => exact Or.inl rfl
  | holding connection => exact Or.inr ⟨connection, rfl⟩
  | leaving _ result | returned _ result => cases result <;> simp [AccessorPc.remaining] at done
  | _ => simp [AccessorPc.remaining] at done

/-- With the help of the owner of `m_lock` alone, a thread comes to its end. -/
theorem exists_rest (reached : (poolMachine size).Reachable s) (thread : Nat)
    : ∃ later final,
        (∀ action ∈ later,
          ∃ mover, action = .advance mover ∧ (mover = thread ∨ s.lock = some mover))
        ∧ (poolMachine size).runFrom s later = some final
        ∧ (final.threads thread).remaining = 0 := by
  -- No other thread gets `m_lock` on the way: its first owner gives it up, then it is ours.
  apply Machine.exists_runFrom_of_rank
    (fun state =>
      (poolMachine size).Reachable state
      ∧ ∀ owner, state.lock = some owner → owner = thread ∨ s.lock = some owner)
    (fun state => (state.threads thread).remaining = 0)
    (fun state => (state.threads thread).remaining + state.waitFor thread)
  · intro state onWay
    obtain ⟨here, owned⟩ := onWay
    by_cases done : (state.threads thread).remaining = 0
    · exact Or.inl done
    · obtain ⟨next, moved⟩ := advance_mover (inBalance_of_reachable here) done
      have taken : (poolMachine size).step state (.advance (state.mover thread)) = some next :=
        moved
      have step : PoolStep state (.advance (state.mover thread)) next := .of_step taken
      have ours : state.mover thread = thread ∨ s.lock = some (state.mover thread) := by
        cases lock : state.lock with
        | none => exact Or.inl (by simp [PoolState.mover, lock])
        | some owner => simpa [PoolState.mover, lock] using owned owner lock
      refine Or.inr ⟨.advance (state.mover thread), next, ⟨_, rfl, ours⟩, taken,
        ⟨here.step taken, ?_⟩, step.nearer⟩
      intro owner lock
      rcases step.lock_cases with same | free | ⟨_, mine⟩
      · exact owned owner (same ▸ lock)
      · simp [free] at lock
      · obtain rfl := Option.some.inj (mine.symm.trans lock)
        exact ours
  · exact ⟨reached, fun owner lock => Or.inr lock⟩

end Steps

/-- In every run each thread has taken at most seven steps for an attempt of its constructors,
one for each constructor to throw, and four for each destructor; and from every state it comes
to the end of the one it is in, with no step but its own and those of the owner of `m_lock`.
-/
theorem accessor_ends {size : UInt32} {actions : List PoolAction} {s : PoolState}
    (ran : (poolMachine size).run actions = some s) (thread : Nat)
    : (s.threads thread).remaining + actions.countP (PoolAction.isAdvance thread)
        ≤ (actions.map (PoolAction.allowance thread)).sum
      ∧ ∃ later final,
          (∀ action ∈ later,
            ∃ mover, action = .advance mover ∧ (mover = thread ∨ s.lock = some mover))
          ∧ (poolMachine size).runFrom s later = some final
          ∧ (final.threads thread = .idle
            ∨ ∃ connection, final.threads thread = .holding connection) := by
  refine ⟨?_, ?_⟩
  · obtain ⟨-, paid⟩ := Machine.rank_add_cost_le (fun _ => True)
      (fun state => (state.threads thread).remaining)
      (fun action => (PoolAction.isAdvance thread action).toNat) (PoolAction.allowance thread)
      (fun _ _ _ _ taken => ⟨trivial, (PoolStep.of_step taken).remaining_le thread⟩) trivial ran
    rw [sum_map_toNat] at paid
    simpa [poolMachine, AccessorPc.remaining] using paid
  · obtain ⟨later, final, helped, led, done⟩ := exists_rest ⟨actions, ran⟩ thread
    exact ⟨later, final, helped, led, rest_of_remaining done⟩

/-- The second thread uses up both its attempts while the first one has the only connection,
and throws; the first one is inside `push` when the second one tries again.
-/
def contendedRun : List PoolAction :=
  [.construct 0 1] ++ List.replicate 7 (.advance 0)
    ++ [.construct 1 2] ++ List.replicate 15 (.advance 1)
    ++ [.destroy 0, .advance 0, .construct 1 1, .advance 1, .advance 1]

/-- The bound is met: the two attempts took all the steps they may take. -/
theorem accessor_ends_contendedRun
    : ∃ s,
        (poolMachine 1).run contendedRun = some s
        ∧ s.lock = some 0
        ∧ (∃ construction, s.threads 1 = .locking construction)
        ∧ (s.threads 1).remaining + contendedRun.countP (PoolAction.isAdvance 1)
          = (contendedRun.map (PoolAction.allowance 1)).sum
        ∧ ∃ later final,
            (poolMachine 1).runFrom s later = some final
            ∧ (final.threads 1 = .idle
              ∨ ∃ connection, final.threads 1 = .holding connection) := by
  obtain ⟨s, ran, lock, pc⟩
      : ∃ s,
          (poolMachine 1).run contendedRun = some s
          ∧ s.lock = some 0
          ∧ s.threads 1 = .locking ⟨1, 0, []⟩ :=
    ⟨_, rfl, rfl, rfl⟩
  obtain ⟨-, later, final, -, led, done⟩ := accessor_ends ran 1
  exact ⟨s, ran, lock, ⟨_, pc⟩, by rw [pc]; decide, later, final, led, done⟩

end RVision.Lines.Db
