import RVision.Lines.Db.Conservation

/-! The end of the pool. The destructor waits for the counter, but a thread that has already
passed the test of `m_drainig` comes to the deque later: draining is final exactly when no
such thread is left at the last test of the counter.
-/

namespace RVision.Lines.Db

open Transition

namespace AccessorPc

/-- In `pop`, between the test of `m_drainig` and `--m_curr`. -/
def committed : AccessorPc → Bool
  | .locking _ | .taking _ | .popped _ _ => true
  | _ => false

/-- The thread neither has a connection nor will take one once `m_drainig` is set. -/
def harmless : AccessorPc → Bool
  | .idle | .trying _ | .testing _ | .sleeping _ | .unlocking => true
  | .leaving _ none | .returned _ none | .holding none => true
  | _ => false

end AccessorPc

/-- The destructor's last test of the counter finds no thread between the test of `m_drainig`
and `--m_curr`, or there is no connection to take.
-/
def ExitsClear (s : PoolState) : PoolAction → Prop
  | .drain =>
      s.destructor = .looping
      → s.pool.max = s.pool.curr
      → s.pool.max = 0 ∨ ∀ thread, (s.threads thread).committed = false
  | _ => True

/-- What the destructor leaves behind. -/
structure Drained (size : UInt32) (s : PoolState) : Prop where
  flagged : s.pool.drainig = true
  full : s.pool.pool.length = size.toNat
  harmless : ∀ thread, (s.threads thread).harmless = true

section Steps

variable {size : UInt32} {s next : PoolState} {action : PoolAction}

/-- When the counter matches and nobody is committed, everything is in the deque. -/
theorem InBalance.drained (h : InBalance size s) (matched : s.pool.max = s.pool.curr)
    (clear : ∀ thread, (s.threads thread).committed = false)
    (flagged : s.pool.drainig = true)
    : Drained size s := by
  have short := h.once.length_le
  have counted := h.counted
  rw [← matched, h.max] at counted
  have settled (thread : Nat) (inside : (s.threads thread).inside = true)
      : s.threads thread ≠ .counting := by
    intro counting
    rw [h.ahead_of_inside inside, counting] at counted
    simp only [AccessorPc.ahead] at counted
    omega
  have full : s.pool.pool.length = size.toNat := by
    cases lock : s.lock with
    | none =>
        simp only [PoolState.ahead, lock, Option.elim_none] at counted
        omega
    | some thread =>
        have inside := (h.guarded thread).mpr lock
        rw [h.ahead_of_inside inside] at counted
        cases pc : s.threads thread with
        | popped construction conn => simpa [pc, AccessorPc.committed] using clear thread
        | counting => exact absurd pc (settled thread inside)
        | _ =>
            simp only [pc, AccessorPc.ahead] at counted
            omega
  refine ⟨flagged, full, ?_⟩
  intro thread
  have empty : (s.threads thread).held = none := h.once.held_eq_none full thread
  have uncommitted := clear thread
  have notCounting := settled thread
  revert empty uncommitted notCounting
  cases s.threads thread with
  | leaving construction result => cases result <;> simp [AccessorPc.held, AccessorPc.harmless]
  | returned construction result => cases result <;> simp [AccessorPc.held, AccessorPc.harmless]
  | holding connection => cases connection <;> simp [AccessorPc.held, AccessorPc.harmless]
  | _ => simp [AccessorPc.held, AccessorPc.harmless, AccessorPc.committed, AccessorPc.inside]

/-- A thread of a drained pool moves. -/
theorem Drained.goto (h : Drained size s) {thread : Nat} {pc : AccessorPc}
    (threads : next.threads = Function.update s.threads thread pc)
    (pool : next.pool = s.pool) (harmless : pc.harmless = true)
    : Drained size next ∧ next.pool = s.pool := by
  refine ⟨⟨pool ▸ h.flagged, pool ▸ h.full, ?_⟩, pool⟩
  rw [threads]
  exact forall_pc_update (fun (pc : AccessorPc) => pc.harmless = true) h.harmless harmless

/-- No step takes a connection out of a drained pool or puts one back. -/
theorem Drained.step (h : Drained size s) (exited : s.destructor = .exited)
    (taken : PoolStep s action next)
    : Drained size next ∧ next.pool = s.pool := by
  have place {thread : Nat} {pc : AccessorPc} (here : s.threads thread = pc)
      : pc.harmless = true :=
    here ▸ h.harmless thread
  cases taken with
  | construct | giveUp | attempt | refuse | sleep | wake | destroyEmpty | unlockPush =>
      exact h.goto rfl rfl rfl
  | pass _ notDrainig =>
      rw [h.flagged] at notDrainig
      cases notDrainig
  | @unlockPop _ _ result pc =>
      cases result with
      | none => exact h.goto rfl rfl rfl
      | some conn => cases place pc
  | store pc | spin pc | exit pc => simp [exited] at pc
  | lockPop pc | findEmpty pc | popFront pc | decrement pc | succeed pc | use pc | throws pc
    | destroy pc | lockPush pc | emplaceBack pc | increment pc => cases place pc

/-- Only the destructor of the pool sets the flag and moves the destructor. -/
theorem PoolStep.destructor_eq (h : PoolStep s action next) (thread : action ≠ .drain)
    : next.destructor = s.destructor ∧ next.pool.drainig = s.pool.drainig := by
  cases h <;> first | exact ⟨rfl, rfl⟩ | exact absurd rfl thread

/-- The flag is set before the wait begins. -/
theorem flag_of_reachable (reached : (poolMachine size).Reachable s)
    : s.destructor ≠ .idle → s.pool.drainig = true := by
  apply reached.invariant
    (motive := fun s => s.destructor ≠ .idle → s.pool.drainig = true)
  · simp [poolMachine]
  · intro s action next _ before taken
    have moved : PoolStep s action next := .of_step taken
    by_cases mine : action = .drain
    · subst action
      cases moved with
      | store _ => exact fun _ => rfl
      | spin pc _ => exact fun _ => before (by simp [pc])
      | exit pc _ => exact fun _ => before (by simp [pc])
    · obtain ⟨destructor, drainig⟩ := moved.destructor_eq mine
      rw [destructor, drainig]
      exact before

/-- A clear exit leaves a drained pool, and it stays drained. -/
theorem drained_of_clear (reached : (poolMachine size).ReachableVia ExitsClear s)
    (exited : s.destructor = .exited)
    : size = 0 ∨ Drained size s := by
  induction reached with
  | init => simp [poolMachine] at exited
  | @step s next action before clear taken ih =>
      have balance := inBalance_of_reachable before.reachable
      have moved : PoolStep s action next := .of_step taken
      by_cases mine : action = .drain
      · subst action
        cases moved with
        | store _ => cases exited
        | spin _ _ => cases exited
        | exit pc matched =>
            have flagged := flag_of_reachable before.reachable (by simp [pc])
            rcases clear pc matched with none | nobody
            · exact Or.inl (balance.max.symm.trans none)
            · have drained := balance.drained matched nobody flagged
              exact Or.inr ⟨drained.flagged, drained.full, drained.harmless⟩
      · have ended : s.destructor = .exited := (moved.destructor_eq mine).1.symm.trans exited
        rcases ih ended with none | drained
        · exact Or.inl none
        · exact Or.inr (drained.step ended moved).1

/-- All connections are in the deque, and no run from here changes it. -/
structure Final (size : UInt32) (s : PoolState) : Prop where
  full : ∀ conn < size.toNat, conn ∈ s.pool.pool
  later
    : ∀ actions later,
        (poolMachine size).runFrom s actions = some later → later.pool.pool = s.pool.pool

theorem Drained.final (h : Drained size s) (balance : InBalance size s)
    (exited : s.destructor = .exited)
    : Final size s := by
  refine ⟨?_, ?_⟩
  · intro conn inside
    rcases (balance.once.all conn).mp inside with there | ⟨thread, held⟩
    · exact there
    · rw [balance.once.held_eq_none h.full thread] at held
      cases held
  · intro actions later ran
    have kept : later.destructor = .exited ∧ Drained size later ∧ later.pool = s.pool := by
      apply Machine.runFrom_invariant ran
        (motive := fun later =>
          later.destructor = .exited ∧ Drained size later ∧ later.pool = s.pool)
      · exact ⟨exited, h, rfl⟩
      · intro state action next known taken
        obtain ⟨ended, drained, same⟩ := known
        have moved : PoolStep state action next := .of_step taken
        obtain ⟨still, pool⟩ := drained.step ended moved
        refine ⟨?_, still, pool.trans same⟩
        by_cases mine : action = .drain
        · subst action
          cases moved <;> simp_all
        · exact (moved.destructor_eq mine).1.trans ended
    rw [kept.2.2]

/-- Where there are no connections, there is nothing to take. -/
theorem final_of_size_zero (reached : (poolMachine 0).Reachable s) : Final 0 s := by
  have empty {s : PoolState} (reached : (poolMachine 0).Reachable s) : s.pool.pool = [] := by
    have short := (inBalance_of_reachable reached).once.length_le
    exact List.length_eq_zero_iff.mp (Nat.le_zero.mp short)
  refine ⟨fun conn inside => absurd inside (by simp), ?_⟩
  intro actions later ran
  rw [empty reached, empty (reached.runFrom ran)]

-----------------------------------------------------------------------------------------
-- A committed thread undoes the draining
-----------------------------------------------------------------------------------------

/-- Some run from here changes the deque. -/
def Changes (size : UInt32) (s : PoolState) : Prop :=
  ∃ actions later,
    (poolMachine size).runFrom s actions = some later ∧ later.pool.pool ≠ s.pool.pool

/-- A step that leaves the deque alone can come before the change. -/
theorem Changes.of_step (taken : (poolMachine size).step s action = some next)
    (same : next.pool.pool = s.pool.pool) (h : Changes size next)
    : Changes size s := by
  obtain ⟨actions, later, ran, different⟩ := h
  refine ⟨action :: actions, later, ?_, same ▸ different⟩
  simpa [Machine.runFrom, taken] using ran

theorem changes_of_taking {thread : Nat} {construction : Construction}
    (pc : s.threads thread = .taking construction) (nonempty : s.pool.pool ≠ [])
    : Changes size s := by
  obtain ⟨conn, rest, front⟩ := List.exists_cons_of_ne_nil nonempty
  have taken : (poolMachine size).step s (.advance thread)
      = some { s.goto thread
          (.popped { construction with found := construction.found ++ [some conn] } conn)
        with pool := { s.pool with pool := rest } } := by
    simp [poolMachine, poolStep, PoolState.advance, pc, front]
  refine ⟨[.advance thread], _, by simpa [Machine.runFrom] using taken, ?_⟩
  simp [front]

theorem changes_of_locking {thread : Nat} {construction : Construction}
    (pc : s.threads thread = .locking construction) (free : s.lock = none)
    (nonempty : s.pool.pool ≠ [])
    : Changes size s := by
  have taken : (poolMachine size).step s (.advance thread)
      = some { s.goto thread (.taking construction) with lock := some thread } := by
    simp [poolMachine, poolStep, PoolState.advance, pc, free]
  have inside : (s.goto thread (.taking construction)).threads thread
      = .taking construction :=
    Function.update_self ..
  exact Changes.of_step taken rfl (changes_of_taking inside nonempty)

/-- A thread that waits for `m_lock` gets it, and then takes a connection. -/
theorem changes_of_waiting {thread holder : Nat} {construction : Construction}
    (after : AccessorPc) (pc : s.threads thread = .locking construction)
    (other : thread ≠ holder)
    (taken : (poolMachine size).step s (.advance holder)
      = some { s.goto holder after with lock := none })
    (nonempty : s.pool.pool ≠ [])
    : Changes size s := by
  refine Changes.of_step taken rfl ?_
  have waits : (s.goto holder after).threads thread = .locking construction :=
    (Function.update_of_ne other _ _).trans pc
  exact changes_of_locking waits rfl nonempty

/-- With all connections in the deque, a committed thread can take one out. -/
theorem changes_of_committed (balance : InBalance size s)
    (matched : s.pool.max = s.pool.curr) (full : s.pool.pool.length = size.toNat)
    (nonempty : s.pool.pool ≠ []) {thread : Nat}
    (committed : (s.threads thread).committed = true)
    : Changes size s := by
  have empty (other : Nat) : (s.threads other).held = none :=
    balance.once.held_eq_none full other
  cases pc : s.threads thread with
  | taking construction => exact changes_of_taking pc nonempty
  | popped construction conn => simpa [pc, AccessorPc.held] using empty thread
  | locking construction =>
      cases lock : s.lock with
      | none => exact changes_of_locking pc lock nonempty
      | some holder =>
          have inside := (balance.guarded holder).mpr lock
          have counted := balance.counted
          rw [← matched, balance.max, balance.ahead_of_inside inside] at counted
          have other : thread ≠ holder := by
            intro same
            rw [← same, pc] at inside
            cases inside
          cases place : s.threads holder with
          | taking construction => exact changes_of_taking place nonempty
          | leaving construction result =>
              exact changes_of_waiting (.returned construction result) pc other
                (by simp [poolMachine, poolStep, PoolState.advance, place]) nonempty
          | unlocking =>
              exact changes_of_waiting .idle pc other
                (by simp [poolMachine, poolStep, PoolState.advance, place]) nonempty
          | counting =>
              simp only [place, AccessorPc.ahead] at counted
              omega
          | popped construction conn => simpa [place, AccessorPc.held] using empty holder
          | appending conn => simpa [place, AccessorPc.held] using empty holder
          | _ => simp [place, AccessorPc.inside] at inside
  | _ => simp [pc, AccessorPc.committed] at committed

theorem Final.length_eq (h : Final size s) (balance : InBalance size s)
    : s.pool.pool.length = size.toNat :=
  balance.once.length_eq h.full

/-- Draining is final exactly when the last test of the counter finds no committed thread.
In a run all of whose exits are clear the pool is final once its destructor has exited; and
whatever the run before, the state that the exit leaves is final if and only if the exit was
clear.
-/
theorem draining_final_iff (reached : (poolMachine size).Reachable s)
    : ((poolMachine size).ReachableVia ExitsClear s
        → s.destructor = .exited
        → Final size s)
      ∧ ∀ next,
          (poolMachine size).step s .drain = some next
          → next.destructor = .exited
          → (Final size next
            ↔ s.pool.max = 0 ∨ ∀ thread, (s.threads thread).committed = false) := by
  refine ⟨?_, ?_⟩
  · intro clear exited
    rcases drained_of_clear clear exited with rfl | drained
    · exact final_of_size_zero reached
    · exact drained.final (inBalance_of_reachable reached) exited
  · intro next taken exited
    have balance := inBalance_of_reachable reached
    have balanceNext := inBalance_of_reachable (reached.step taken)
    have flagged := flag_of_reachable reached
    have moved : PoolStep s .drain next := .of_step taken
    cases moved with
    | store _ => cases exited
    | spin _ _ => cases exited
    | exit pc matched =>
        constructor
        · intro final
          by_contra unclear
          obtain ⟨positive, thread, committed⟩
              : s.pool.max ≠ 0 ∧ ∃ thread, (s.threads thread).committed = true := by
            simpa using unclear
          have full := final.length_eq balanceNext
          have nonempty : s.pool.pool ≠ [] := by
            intro empty
            rw [empty, List.length_nil] at full
            exact positive (balance.max.trans (UInt32.toNat_inj.mp full.symm))
          obtain ⟨actions, later, ran, different⟩ :=
            changes_of_committed balanceNext matched full nonempty committed
          exact different (final.later actions later ran)
        · intro clear
          rcases clear with none | nobody
          · have zero : size = 0 := balance.max.symm.trans none
            subst size
            exact final_of_size_zero (reached.step taken)
          · have drained := balanceNext.drained matched nobody (flagged (by simp [pc]))
            exact drained.final balanceNext rfl

end Steps

/-- A thread has the only connection when the draining begins, and puts it back. -/
def clearRun : List PoolAction :=
  [.construct 0 1, .advance 0, .advance 0, .advance 0, .advance 0, .advance 0, .advance 0,
    .advance 0, .drain, .drain, .destroy 0, .advance 0, .advance 0, .advance 0, .advance 0]

theorem draining_final_clearRun
    : ∃ s next,
        (poolMachine 1).run clearRun = some s
        ∧ (poolMachine 1).step s .drain = some next
        ∧ next.destructor = .exited
        ∧ Final 1 next := by
  obtain ⟨s, next, ran, exits, exited, nobody⟩
      : ∃ s next,
          (poolMachine 1).run clearRun = some s
          ∧ (poolMachine 1).step s .drain = some next
          ∧ next.destructor = .exited
          ∧ ∀ thread, (s.threads thread).committed = false :=
    ⟨_, _, rfl, rfl, rfl, fun thread => by cases thread <;> rfl⟩
  have final := (draining_final_iff ⟨clearRun, ran⟩).2 next exits exited
  exact ⟨s, next, ran, exits, exited, final.mpr (Or.inr nobody)⟩

/-- A thread has passed the test of `m_drainig` when the flag is set; the counter still
matches, the destructor exits, and the thread takes the connection.
-/
def lateRun : List PoolAction :=
  [.construct 0 1, .advance 0, .advance 0, .drain, .drain]

theorem not_final_lateRun
    : ¬ ∀ size s,
        (poolMachine size).Reachable s → s.destructor = .exited → Final size s := by
  intro all
  obtain ⟨s, later, ran, exited, goesOn, there, gone⟩
      : ∃ s later,
          (poolMachine 1).run lateRun = some s
          ∧ s.destructor = .exited
          ∧ (poolMachine 1).runFrom s [.advance 0, .advance 0] = some later
          ∧ s.pool.pool = [0]
          ∧ later.pool.pool = [] :=
    ⟨_, _, rfl, rfl, rfl, rfl, rfl⟩
  have kept := (all 1 s ⟨lateRun, ran⟩ exited).later _ later goesOn
  rw [there, gone] at kept
  cases kept

end RVision.Lines.Db
