import Mathlib.Data.List.Nodup
import Mathlib.Data.List.Range
import Mathlib.Data.List.Perm.Subperm
import Mathlib.Logic.Function.Basic

/-! Items that are in one store or with one thread each. -/

namespace Transition

/-- The items below `size` are in the store or held by a thread, each of them once. -/
structure EachOnce (size : Nat) (store : List Nat) (held : Nat → Option Nat) : Prop where
  nodup : store.Nodup
  apart : ∀ thread item, held thread = some item → item ∉ store
  alone : ∀ left right item, held left = some item → held right = some item → left = right
  all : ∀ item, item < size ↔ item ∈ store ∨ ∃ thread, held thread = some item

namespace EachOnce

variable {size item thread : Nat} {store rest : List Nat} {held : Nat → Option Nat}

/-- At first everything is in the store. -/
theorem range (size : Nat) : EachOnce size (List.range size) (fun _ => none) where
  nodup := List.nodup_range
  apart := by simp
  alone := by simp
  all := by simp

/-- A thread with empty hands takes an item out of the store. -/
theorem take (h : EachOnce size (item :: rest) held) (free : held thread = none)
    : EachOnce size rest (Function.update held thread (some item)) := by
  obtain ⟨fresh, nodup⟩ := List.nodup_cons.mp h.nodup
  have taken (other : Nat) : held other ≠ some item := by
    intro its
    exact h.apart other item its (by simp)
  refine ⟨nodup, ?_, ?_, ?_⟩
  · intro other kept here
    by_cases same : other = thread
    · rw [same, Function.update_self, Option.some.injEq] at here
      exact here ▸ fresh
    · rw [Function.update_of_ne same] at here
      exact fun member => h.apart other kept here (List.mem_cons_of_mem _ member)
  · intro left right kept mine its
    by_cases first : left = thread <;> by_cases second : right = thread
    · rw [first, second]
    · rw [first, Function.update_self, Option.some.injEq] at mine
      rw [Function.update_of_ne second, ← mine] at its
      exact absurd its (taken right)
    · rw [second, Function.update_self, Option.some.injEq] at its
      rw [Function.update_of_ne first, ← its] at mine
      exact absurd mine (taken left)
    · rw [Function.update_of_ne first] at mine
      rw [Function.update_of_ne second] at its
      exact h.alone left right kept mine its
  · intro other
    rw [h.all other, List.mem_cons]
    constructor
    · intro place
      rcases place with (rfl | member) | ⟨holder, its⟩
      · exact Or.inr ⟨thread, Function.update_self ..⟩
      · exact Or.inl member
      · have different : holder ≠ thread := by
          intro same
          rw [same, free] at its
          cases its
        exact Or.inr ⟨holder, by rwa [Function.update_of_ne different]⟩
    · intro place
      rcases place with member | ⟨holder, its⟩
      · exact Or.inl (Or.inr member)
      · by_cases same : holder = thread
        · rw [same, Function.update_self, Option.some.injEq] at its
          exact Or.inl (Or.inl its.symm)
        · rw [Function.update_of_ne same] at its
          exact Or.inr ⟨holder, its⟩

/-- A thread puts its item back. -/
theorem give (h : EachOnce size store held) (mine : held thread = some item)
    : EachOnce size (store ++ [item]) (Function.update held thread none) := by
  have others {other kept : Nat} (its : Function.update held thread none other = some kept)
      : other ≠ thread ∧ held other = some kept := by
    by_cases same : other = thread
    · rw [same, Function.update_self] at its
      cases its
    · rw [Function.update_of_ne same] at its
      exact ⟨same, its⟩
  refine ⟨?_, ?_, ?_, ?_⟩
  · apply List.nodup_append.mpr
    refine ⟨h.nodup, List.nodup_singleton _, ?_⟩
    intro left member right single
    rw [List.mem_singleton] at single
    intro same
    exact h.apart thread item mine (single ▸ same ▸ member)
  · intro other kept its member
    obtain ⟨different, its⟩ := others its
    rcases List.mem_append.mp member with earlier | new
    · exact h.apart other kept its earlier
    · rw [List.mem_singleton.mp new] at its
      exact different (h.alone other thread item its mine)
  · intro left right kept mineToo its
    exact h.alone left right kept (others mineToo).2 (others its).2
  · intro other
    rw [h.all other, List.mem_append, List.mem_singleton]
    constructor
    · intro place
      rcases place with member | ⟨holder, its⟩
      · exact Or.inl (Or.inl member)
      · by_cases same : holder = thread
        · rw [same, mine, Option.some.injEq] at its
          exact Or.inl (Or.inr its.symm)
        · exact Or.inr ⟨holder, by rwa [Function.update_of_ne same]⟩
    · intro place
      rcases place with (member | rfl) | ⟨holder, its⟩
      · exact Or.inl member
      · exact Or.inr ⟨thread, mine⟩
      · exact Or.inr ⟨holder, (others its).2⟩

/-- A thread that keeps what it holds changes nothing. -/
theorem keep (h : EachOnce size store held) {now : Option Nat} (same : now = held thread)
    : EachOnce size store (Function.update held thread now) := by
  rw [same, Function.update_eq_self]
  exact h

theorem length_le (h : EachOnce size store held) : store.length ≤ size := by
  have inside : store ⊆ List.range size := by
    intro item member
    exact List.mem_range.mpr ((h.all item).mpr (Or.inl member))
  have shorter := (h.nodup.subperm inside).length_le
  rwa [List.length_range] at shorter

/-- A store that has everything is full. -/
theorem length_eq (h : EachOnce size store held) (full : ∀ item < size, item ∈ store)
    : store.length = size := by
  have all : List.range size ⊆ store := by
    intro item member
    exact full item (List.mem_range.mp member)
  have long := (List.nodup_range.subperm all).length_le
  rw [List.length_range] at long
  exact Nat.le_antisymm h.length_le long

/-- While a thread holds an item the store is not full. -/
theorem length_lt (h : EachOnce size store held) (mine : held thread = some item)
    : store.length < size := by
  have more := (h.give mine).length_le
  rw [List.length_append, List.length_singleton] at more
  omega

/-- A full store has everything. -/
theorem held_eq_none (h : EachOnce size store held) (full : store.length = size)
    (thread : Nat)
    : held thread = none := by
  cases mine : held thread with
  | none => rfl
  | some item =>
      have short := h.length_lt mine
      omega

end EachOnce

end Transition
