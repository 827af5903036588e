import Mathlib.Data.Nat.Count

/-! Counting threads by their program counters.
A group of threads is a function from thread numbers to program counters, of which the
first `size` belong to the group. A step of one thread is a `Function.update`.
-/

namespace Transition

variable {Pc : Type}

/-- How many of the first `size` threads are at a program counter that `holds`. -/
def tally (size : Nat) (holds : Pc → Bool) (pcs : Nat → Pc) : Nat :=
  Nat.count (fun thread => holds (pcs thread) = true) size

/-- A thread outside the group can move without changing its tally. -/
theorem tally_update_outside (holds : Pc → Bool) (pcs : Nat → Pc) {thread size : Nat}
    (outside : size ≤ thread) (pc : Pc)
    : tally size holds (Function.update pcs thread pc) = tally size holds pcs := by
  induction size with
  | zero => rfl
  | succ size ih =>
      have other : size ≠ thread := by omega
      have smaller := ih (by omega)
      simp only [tally, Nat.count_succ, Function.update_of_ne other] at smaller ⊢
      omega

/-- Moving one thread of the group trades its old contribution for its new one.
Witness: induction on the group's size; only the moved thread's place changes.
-/
theorem tally_update (holds : Pc → Bool) (pcs : Nat → Pc) {thread size : Nat}
    (inside : thread < size) (pc : Pc)
    : tally size holds (Function.update pcs thread pc) + (holds (pcs thread)).toNat
      = tally size holds pcs + (holds pc).toNat := by
  induction size with
  | zero => omega
  | succ size ih =>
      have last (value : Bool) : (if value = true then 1 else 0) = value.toNat := by
        cases value <;> rfl
      by_cases here : thread = size
      · subst thread
        have same := tally_update_outside holds pcs (le_refl size) pc
        simp only [tally, Nat.count_succ, Function.update_self, last] at same ⊢
        omega
      · have smaller := ih (by omega)
        have other : size ≠ thread := fun same => here same.symm
        simp only [tally, Nat.count_succ, Function.update_of_ne other] at smaller ⊢
        omega

/-- A tally is positive exactly when some thread of the group is at such a counter. -/
theorem tally_pos_iff {holds : Pc → Bool} {pcs : Nat → Pc} {size : Nat}
    : 0 < tally size holds pcs ↔ ∃ thread < size, holds (pcs thread) = true :=
  Nat.pos_iff_ne_zero.trans Nat.count_ne_iff_exists

/-- All threads of the group there, all of them counted. -/
theorem tally_eq_size {holds : Pc → Bool} {pcs : Nat → Pc} {size : Nat}
    (all : ∀ thread < size, holds (pcs thread) = true)
    : tally size holds pcs = size :=
  Nat.count_iff_forall.mpr all

/-- No thread there, nothing to count. -/
theorem tally_eq_zero {holds : Pc → Bool} {pcs : Nat → Pc} (size : Nat)
    (none : ∀ thread, holds (pcs thread) = false)
    : tally size holds pcs = 0 := by
  by_contra counted
  obtain ⟨thread, _, found⟩ := tally_pos_iff.mp (Nat.pos_of_ne_zero counted)
  simp [none thread] at found

/-- Two threads of the group there make a tally of at least two. -/
theorem eq_of_tally_le_one {holds : Pc → Bool} {pcs : Nat → Pc} {size left right : Nat}
    (few : tally size holds pcs ≤ 1) (leftInside : left < size) (rightInside : right < size)
    (leftHolds : holds (pcs left) = true) (rightHolds : holds (pcs right) = true)
    : left = right := by
  have ordered {first second : Nat} (inside : second < size)
      (firstHolds : holds (pcs first) = true) (secondHolds : holds (pcs second) = true)
      : ¬ first < second := by
    intro before
    have one : Nat.count (fun thread => holds (pcs thread) = true) first
        < Nat.count (fun thread => holds (pcs thread) = true) second :=
      Nat.count_strict_mono firstHolds before
    have two : Nat.count (fun thread => holds (pcs thread) = true) second
        < Nat.count (fun thread => holds (pcs thread) = true) size :=
      Nat.count_strict_mono secondHolds inside
    simp only [tally] at few
    omega
  have notBefore := ordered rightInside leftHolds rightHolds
  have notAfter := ordered leftInside rightHolds leftHolds
  omega

/-- Some thread stays at a counter when another one moves. -/
theorem exists_pc_update {pcs : Nat → Pc} {thread : Nat} {pc target : Pc}
    (left : pcs thread ≠ target) (h : ∃ worker, pcs worker = target)
    : ∃ worker, Function.update pcs thread pc worker = target := by
  obtain ⟨worker, here⟩ := h
  have other : worker ≠ thread := by
    intro same
    subst same
    exact left here
  exact ⟨worker, by simpa [other] using here⟩

/-- A thread that neither leaves nor enters a counter does not change whether some thread is
there.
-/
theorem exists_pc_update_iff {pcs : Nat → Pc} {thread : Nat} {pc target : Pc}
    (left : pcs thread ≠ target) (entered : pc ≠ target)
    : (∃ worker, Function.update pcs thread pc worker = target)
      ↔ ∃ worker, pcs worker = target := by
  refine ⟨?_, exists_pc_update left⟩
  intro there
  obtain ⟨worker, here⟩ := there
  by_cases same : worker = thread
  · subst worker
    simp [entered] at here
  · exact ⟨worker, by simpa [same] using here⟩

/-- What holds of every thread still does after one of them has moved to where it holds. -/
theorem forall_pc_update (holds : Pc → Prop) {pcs : Nat → Pc} {thread : Nat} {pc : Pc}
    (before : ∀ worker, holds (pcs worker)) (there : holds pc) (worker : Nat)
    : holds (Function.update pcs thread pc worker) := by
  by_cases same : worker = thread
  · rwa [same, Function.update_self]
  · rw [Function.update_of_ne same]
    exact before worker

end Transition
