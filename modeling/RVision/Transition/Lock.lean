import Mathlib.Logic.Function.Basic

/-! A lock and the program counters of the threads that may hold it. -/

namespace Transition

variable {Pc : Type}

/-- The lock is held by a thread exactly while its program counter is inside the critical
section.
-/
def Guarded (inside : Pc → Bool) (lock : Option Nat) (pcs : Nat → Pc) : Prop :=
  ∀ thread, inside (pcs thread) = true ↔ lock = some thread

variable {inside : Pc → Bool} {lock : Option Nat} {pcs : Nat → Pc} {thread : Nat} {pc : Pc}

namespace Guarded

/-- At most one thread is inside. -/
theorem eq_of_inside (h : Guarded inside lock pcs) {left right : Nat}
    (mine : inside (pcs left) = true) (its : inside (pcs right) = true)
    : left = right :=
  Option.some.inj (((h left).mp mine).symm.trans ((h right).mp its))

/-- No thread is inside while the lock is free. -/
theorem outside (h : Guarded inside lock pcs) (free : lock = none) (thread : Nat)
    : inside (pcs thread) = false := by
  cases place : inside (pcs thread) with
  | false => rfl
  | true => simpa [free] using (h thread).mp place

theorem acquire (h : Guarded inside lock pcs) (free : lock = none)
    (enters : inside pc = true)
    : Guarded inside (some thread) (Function.update pcs thread pc) := by
  intro other
  by_cases here : other = thread
  · subst other
    simp [enters]
  · have away := h.outside free other
    simp [here, away, Ne.symm here]

theorem release (h : Guarded inside lock pcs) (held : inside (pcs thread) = true)
    (leaves : inside pc = false)
    : Guarded inside none (Function.update pcs thread pc) := by
  intro other
  by_cases here : other = thread
  · subst other
    simp [leaves]
  · have away : inside (pcs other) ≠ true := fun its => here (h.eq_of_inside its held)
    simp [here, away]

/-- A thread that neither enters nor leaves does not touch the lock. -/
theorem move (h : Guarded inside lock pcs) (stays : inside pc = inside (pcs thread))
    : Guarded inside lock (Function.update pcs thread pc) := by
  intro other
  by_cases here : other = thread
  · rw [here, Function.update_self, stays]
    exact h thread
  · simpa [here] using h other

end Guarded

end Transition
