import Mathlib.Data.List.Basic

/-! Logs that only grow at their end, and where in them an entry can stand. -/

namespace Transition

variable {Entry : Type}

/-- An entry of an extended log is the new one, or it stood in the old log with the same
entries before it.
-/
theorem concat_eq_append_cons {log before after : List Entry} {new entry : Entry}
    : log ++ [new] = before ++ entry :: after
      ↔ (after = [] ∧ before = log ∧ entry = new)
        ∨ ∃ rest, after = rest ++ [new] ∧ log = before ++ entry :: rest := by
  constructor
  · intro split
    rcases List.eq_nil_or_concat after with rfl | ⟨rest, last, rfl⟩
    · obtain ⟨whole, final⟩ := List.append_inj' split rfl
      exact Or.inl ⟨rfl, whole.symm, (List.cons.inj final).1.symm⟩
    · have grouped : log ++ [new] = (before ++ entry :: rest) ++ [last] := by
        simpa using split
      obtain ⟨whole, final⟩ := List.append_inj' grouped rfl
      obtain rfl := (List.cons.inj final).1
      exact Or.inr ⟨rest, by simp, whole⟩
  · intro place
    rcases place with ⟨rfl, rfl, rfl⟩ | ⟨rest, rfl, rfl⟩
    · rfl
    · simp

/-- Counting over an extended log adds the new entry's own contribution. -/
theorem countP_concat (holds : Entry → Bool) (log : List Entry) (new : Entry)
    : (log ++ [new]).countP holds = log.countP holds + (holds new).toNat := by
  cases value : holds new <;> simp [value]

theorem countP_concat_of_not {holds : Entry → Bool} (log : List Entry) {new : Entry}
    (no : holds new = false)
    : (log ++ [new]).countP holds = log.countP holds := by
  simp [no]

/-- Taking one occurrence of an entry off a list takes it off its own count and no other. -/
theorem count_erase_add [DecidableEq Entry] {entries : List Entry} {entry : Entry}
    (member : entry ∈ entries) (counted : Entry)
    : (entries.erase entry).count counted + (if entry = counted then 1 else 0)
      = entries.count counted := by
  simp only [List.count_erase, beq_iff_eq]
  split_ifs with same
  · have positive := List.count_pos_iff.mpr member
    rw [same] at positive
    omega
  · simp

/-- A receiver that takes the oldest message it has not taken yet has still taken a prefix
of what was sent.
-/
theorem concat_isPrefix_of_next {taken sent : List Entry} {next : Entry}
    (h : taken <+: sent) (oldest : sent[taken.length]? = some next)
    : taken ++ [next] <+: sent := by
  obtain ⟨rest, rfl⟩ := h
  cases rest with
  | nil => simp at oldest
  | cons first rest =>
      obtain rfl : first = next := by simpa using oldest
      exact ⟨rest, by simp⟩

/-- Every entry that matters is preceded by what it needs. -/
def Preceded (needs : Entry → List Entry → Prop) (log : List Entry) : Prop :=
  ∀ before entry after, log = before ++ entry :: after → needs entry before

theorem preceded_nil (needs : Entry → List Entry → Prop) : Preceded needs [] := by
  intro before entry after split
  simp at split

/-- A log stays well ordered when its new entry finds what it needs. -/
theorem Preceded.concat {needs : Entry → List Entry → Prop} {log : List Entry}
    (h : Preceded needs log) {new : Entry} (found : needs new log)
    : Preceded needs (log ++ [new]) := by
  intro before entry after split
  rcases concat_eq_append_cons.mp split with ⟨_, rfl, rfl⟩ | ⟨rest, _, earlier⟩
  · exact found
  · exact h before entry rest earlier

/-- Entries that need nothing can be appended to any log. -/
theorem Preceded.append {needs : Entry → List Entry → Prop} {log : List Entry}
    (h : Preceded needs log) (more : List Entry)
    (free : ∀ entry ∈ more, ∀ before, needs entry before)
    : Preceded needs (log ++ more) := by
  induction more generalizing log with
  | nil => simpa using h
  | cons entry rest ih =>
      rw [List.append_cons]
      apply ih (h.concat (free entry (by simp) log))
      exact fun later member => free later (by simp [member])

-----------------------------------------------------------------------------------------
-- Openings and closings
-----------------------------------------------------------------------------------------

section Separated

variable {opens closes : Entry → Bool} {log : List Entry}

/-- Every opening is preceded by a closing. -/
def Reopened (opens closes : Entry → Bool) : List Entry → Prop :=
  Preceded (fun entry before => opens entry = true → ∃ closing ∈ before, closes closing = true)

/-- Between any two openings there is a closing. -/
def Separated (opens closes : Entry → Bool) (log : List Entry) : Prop :=
  ∀ before first after,
    log = before ++ first :: after → opens first = true → Reopened opens closes after

theorem Separated.tail {entry : Entry} (h : Separated opens closes (entry :: log))
    : Separated opens closes log :=
  fun before first after split => h (entry :: before) first after (by rw [split]; rfl)

theorem Reopened.tail {entry : Entry} (h : Reopened opens closes (entry :: log))
    (stays : closes entry = false)
    : Reopened opens closes log := by
  intro before first after split opening
  obtain ⟨closing, member, closed⟩ :=
    h (entry :: before) first after (by rw [split]; rfl) opening
  rcases List.mem_cons.mp member with rfl | earlier
  · simp [stays] at closed
  · exact ⟨closing, earlier, closed⟩

/-- Openings that are separated exceed the closings by at most one, and by none where a
closing comes first. Both are proved together, by induction on the log.
-/
theorem Separated.countP_le (h : Separated opens closes log)
    : log.countP opens ≤ log.countP closes + 1
      ∧ (Reopened opens closes log → log.countP opens ≤ log.countP closes) := by
  induction log with
  | nil => exact ⟨Nat.zero_le _, fun _ => Nat.le_refl _⟩
  | cons entry rest ih =>
      obtain ⟨more, none⟩ := ih h.tail
      simp only [List.countP_cons]
      cases opening : opens entry with
      | true =>
          have later := none (h [] entry rest rfl opening)
          refine ⟨by simp; omega, fun reopened => ?_⟩
          obtain ⟨closing, member, _⟩ := reopened [] entry rest rfl opening
          cases member
      | false =>
          refine ⟨by simp; omega, fun reopened => ?_⟩
          cases closed : closes entry with
          | true => simpa using more
          | false => simpa using none (reopened.tail closed)

theorem Separated.of_isPrefix (h : Separated opens closes log) {head : List Entry}
    (earlier : head <+: log)
    : Separated opens closes head := by
  obtain ⟨tail, rfl⟩ := earlier
  intro before first after split opening middle second rest inside again
  refine h before first (after ++ tail) (by simp [split]) opening middle second
    (rest ++ tail) (by simp [inside]) again

theorem separated_of_countP_le_one (few : log.countP opens ≤ 1)
    : Separated opens closes log := by
  intro before first after split opening middle second rest inside again
  subst inside
  subst split
  simp [List.countP_append, opening, again] at few
  omega

/-- Openings that closings never run ahead of, and that never run ahead by two, are
separated.
-/
theorem separated_of_balanced (apart : ∀ entry, opens entry = true → closes entry = false)
    (balanced : ∀ head, head <+: log
      → head.countP closes ≤ head.countP opens
        ∧ head.countP opens ≤ head.countP closes + 1)
    : Separated opens closes log := by
  intro before first after split opening middle second rest inside again
  subst inside
  subst split
  by_contra none
  have silent : middle.countP closes = 0 := by
    apply List.countP_eq_zero.mpr
    exact fun closing member closed => none ⟨closing, member, closed⟩
  have closed := (balanced before (List.prefix_append _ _)).1
  have opened := (balanced (before ++ first :: (middle ++ [second]))
    ⟨rest, by simp⟩).2
  simp [List.countP_append, opening, again, apart, silent] at opened
  omega

end Separated

end Transition
