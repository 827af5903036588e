import Mathlib.Data.List.Infix

/-! Splitting a sequence at every occurrence of a separator: what the pieces can hold, and
where an empty piece comes from.
-/

namespace RVision.Text

variable {α : Type} [DecidableEq α] {separator : α}

/-- `List.splitOn` with its first piece apart. Every piece after it begins behind a separator. -/
theorem splitOn_cons_of_ne {first : α} (different : first ≠ separator) (rest : List α)
    : ∃ piece pieces,
        rest.splitOn separator = piece :: pieces
        ∧ (first :: rest).splitOn separator = (first :: piece) :: pieces := by
  cases split : rest.splitOn separator with
  | nil => exact absurd split (List.splitOn_ne_nil separator rest)
  | cons piece pieces =>
      refine ⟨piece, pieces, rfl, ?_⟩
      rw [List.splitOn_cons_eq_if_modifyHead, if_neg (by simpa using different), split]
      rfl

theorem splitOn_cons_self (rest : List α)
    : (separator :: rest).splitOn separator = [] :: rest.splitOn separator := by
  simp [List.splitOn_cons_eq_if_modifyHead]

/-- What is in a piece is in the sequence, and no separator. By induction on the sequence. -/
theorem ne_and_mem_of_mem_splitOn {sequence piece : List α} {element : α}
    (member : piece ∈ sequence.splitOn separator) (inside : element ∈ piece)
    : element ≠ separator ∧ element ∈ sequence := by
  induction sequence generalizing piece with
  | nil => simp_all
  | cons first rest ih =>
      have behind {piece : List α} (later : piece ∈ rest.splitOn separator)
          (inside : element ∈ piece)
          : element ≠ separator ∧ element ∈ first :: rest :=
        (ih later inside).imp_right (List.mem_cons_of_mem _)
      by_cases here : first = separator
      · subst here
        rw [splitOn_cons_self] at member
        rcases List.mem_cons.mp member with empty | later
        · simp [empty] at inside
        · exact behind later inside
      · obtain ⟨head, pieces, split, made⟩ := splitOn_cons_of_ne here rest
        rw [made] at member
        rcases List.mem_cons.mp member with same | later
        · rw [same] at inside
          rcases List.mem_cons.mp inside with rfl | inside
          · exact ⟨here, List.mem_cons_self⟩
          · exact behind (by simp [split]) inside
        · exact behind (by simp [split, later]) inside

theorem not_mem_of_mem_splitOn {sequence piece : List α}
    (member : piece ∈ sequence.splitOn separator)
    : separator ∉ piece :=
  fun inside => (ne_and_mem_of_mem_splitOn member inside).1 rfl

theorem mem_of_mem_splitOn {sequence piece : List α} {element : α}
    (member : piece ∈ sequence.splitOn separator) (inside : element ∈ piece)
    : element ∈ sequence :=
  (ne_and_mem_of_mem_splitOn member inside).2

/-- A member of a list is its first element or comes later. -/
theorem mem_iff_head_or_tail {β : Type} (list : List β) (element : β)
    : element ∈ list ↔ list.head? = some element ∨ element ∈ list.tail := by
  cases list with
  | nil => simp
  | cons first rest => simp [eq_comm]

/-- The first piece is empty where the sequence is, or begins with a separator. -/
theorem head_splitOn_eq_nil_iff (sequence : List α)
    : (sequence.splitOn separator).head? = some []
      ↔ sequence = [] ∨ sequence.head? = some separator := by
  cases sequence with
  | nil => simp
  | cons first rest =>
      by_cases here : first = separator
      · subst here
        simp [splitOn_cons_self]
      · obtain ⟨head, pieces, split, made⟩ := splitOn_cons_of_ne here rest
        simp [made, here]

/-- A later piece is empty at the end of a sequence that ends with a separator, and between
two separators in a row. By induction on the sequence.
-/
theorem nil_mem_tail_splitOn_iff (sequence : List α)
    : [] ∈ (sequence.splitOn separator).tail
      ↔ sequence.getLast? = some separator ∨ [separator, separator] <:+: sequence := by
  induction sequence with
  | nil => simp
  | cons first rest ih =>
      by_cases here : first = separator
      · subst here
        -- The pieces behind this separator are those of `rest`, its first one included.
        rw [splitOn_cons_self, List.tail_cons, mem_iff_head_or_tail, head_splitOn_eq_nil_iff,
          ih, List.infix_cons_iff]
        cases rest with
        | nil => simp
        | cons second rest => simp [List.getLast?_cons_cons, or_left_comm, eq_comm]
      · obtain ⟨head, pieces, split, made⟩ := splitOn_cons_of_ne here rest
        rw [made, List.tail_cons, List.infix_cons_iff]
        rw [split, List.tail_cons] at ih
        rw [ih]
        cases rest with
        | nil => simp [here, Ne.symm here]
        | cons second rest => simp [List.getLast?_cons_cons, Ne.symm here]

theorem nil_mem_splitOn_iff (sequence : List α)
    : [] ∈ sequence.splitOn separator
      ↔ sequence = [] ∨ sequence.head? = some separator ∨ sequence.getLast? = some separator
        ∨ [separator, separator] <:+: sequence := by
  rw [mem_iff_head_or_tail, head_splitOn_eq_nil_iff, nil_mem_tail_splitOn_iff, or_assoc]

end RVision.Text
