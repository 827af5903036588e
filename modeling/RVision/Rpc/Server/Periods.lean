import Mathlib.Algebra.Ring.Int.Defs
import RVision.Rpc.Server.Adoption

/-! How long the writer sleeps before it calls the callback. The period of a request is an
unsigned number of 64 bits up to `_period`; `std::chrono::seconds` counts with a signed one.
-/

namespace RVision.Rpc.Server

open Transition

/-- `std::chrono::seconds _poll(_period)`. -/
def seconds (period : UInt64) : Int64 := period.toInt64

/-- For how many seconds `std::this_thread::sleep_for` blocks: it returns at once where the
duration is not positive.
-/
def sleepFor (duration : Int64) : Nat := duration.toInt.toNat

/-- From 2^63 on the duration is negative. -/
theorem toInt_seconds (period : UInt64)
    : (seconds period).toInt
      = if period.toNat < 2 ^ 63 then (period.toNat : Int) else period.toNat - 2 ^ 64 := by
  have small := period.toNat_lt
  have read : (seconds period).toInt = period.toBitVec.toInt := rfl
  rw [read, BitVec.toInt_eq_toNat_cond, UInt64.toNat_toBitVec]
  split_ifs <;> first | rfl | omega

theorem sleepFor_seconds (period : UInt64)
    : sleepFor (seconds period) = if period.toNat < 2 ^ 63 then period.toNat else 0 := by
  have small := period.toNat_lt
  rw [sleepFor, toInt_seconds]
  split_ifs <;> omega

-----------------------------------------------------------------------------------------
-- Every iteration has its request
-----------------------------------------------------------------------------------------

variable {Score : Type}

/-- The writer comes to its callback only with the locals of an accepted request, also in the
iteration that it ends after the shutdown has begun.
-/
structure Attributed (s : State Score) : Prop where
  inner
    : s.writer = .inner
      → s.shutdown = true ∨ s.subscription.changed = true ∨ UsesAccepted s
  exchanging : s.writer = .exchanging → s.subscription.changed = true ∨ UsesAccepted s
  serving : (∃ changed, s.writer = .calling changed) ∨ s.writer = .writing → UsesAccepted s
  invoked : Preceded ServesAccepted s.log

/-- A step that leaves the writer with its locals. -/
theorem Attributed.frame {s t : State Score} (h : Attributed s)
    (accepted : acceptedMessages s.log <+: acceptedMessages t.log)
    (locals : t.period = s.period ∧ t.sports = s.sports)
    (writer : t.writer = s.writer ∨ (s.writer = .parked ∧ t.writer = .testing))
    (flags : (s.subscription.changed = true → t.subscription.changed = true)
      ∧ (s.shutdown = true → t.shutdown = true))
    (ordered : Preceded ServesAccepted t.log)
    : Attributed t := by
  have kept (used : UsesAccepted s) : UsesAccepted t := used.kept accepted locals
  rcases writer with same | ⟨_, testing⟩
  · refine ⟨?_, ?_, ?_, ordered⟩
    · rw [same]
      exact fun pc => (h.inner pc).imp flags.2 (Or.imp flags.1 kept)
    · rw [same]
      exact fun pc => (h.exchanging pc).imp flags.1 kept
    · rw [same]
      exact fun pc => kept (h.serving pc)
  · exact ⟨by simp [testing], by simp [testing], by simp [testing], ordered⟩

/-- A step of the writer to a place where it does not serve anybody. -/
theorem Attributed.leave {s t : State Score} (h : Attributed s) (log : t.log = s.log)
    (left : ¬ t.writer.Serving)
    : Attributed t := by
  refine ⟨?_, ?_, ?_, log ▸ h.invoked⟩
  · exact fun pc => absurd (by simp [pc, WriterPc.Serving]) left
  · exact fun pc => absurd (by simp [pc, WriterPc.Serving]) left
  · intro pc
    rcases pc with ⟨changed, pc⟩ | pc <;> exact absurd (by simp [pc, WriterPc.Serving]) left

/-- The writer goes on with the locals of an accepted request. -/
theorem Attributed.of_used {t : State Score} (used : UsesAccepted t)
    (ordered : Preceded ServesAccepted t.log)
    : Attributed t :=
  ⟨fun _ => Or.inr (Or.inr used), fun _ => Or.inr used, fun _ => used, ordered⟩

theorem UsesAccepted.callback {s : State Score} (used : UsesAccepted s)
    (ordered : Preceded ServesAccepted s.log) (changed : Bool) (lines : List (String × Score))
    : Attributed (s.callback changed lines) := by
  have accepted := acceptedMessages_callback s changed lines
  exact .of_used (used.kept (by rw [accepted]) ⟨rfl, rfl⟩) (used.callback_ordered ordered)

theorem Attributed.writer {s next : State Score} (h : Attributed s) (adopts : Adopts s)
    (paid : FlagsPaid s) {action : WriterAction Score} (taken : Step s (.writer action) next)
    : Attributed next := by
  cases taken with
  | outer _ =>
      refine h.leave rfl ?_
      cases s.shutdown <;> simp [WriterPc.Serving]
  | refuse _ | park _ | takeFlag _ => exact h.leave rfl (by simp [WriterPc.Serving])
  | pass _ ready => exact ⟨fun _ => ready.imp_right Or.inl, by simp, by simp, h.invoked⟩
  | inner pc =>
      cases down : s.shutdown with
      | true => exact h.leave rfl (by simp [WriterPc.Serving])
      | false =>
          have due := (h.inner pc).resolve_left (by simp [down])
          exact ⟨by simp, fun _ => due, by simp, h.invoked⟩
  | missFlag pc unchanged =>
      have used : UsesAccepted s := (h.exchanging pc).resolve_left (by simp [unchanged])
      exact .of_used used h.invoked
  | copy pc =>
      have last := List.mem_of_getLast? (adopts.last_of_copying paid pc)
      have used : UsesAccepted s.adopt :=
        ⟨s.subscription.lastReq, last, rfl, by simp [State.adopt, adopts.copying pc]⟩
      exact .of_used used h.invoked
  | @callback changed lines pc => exact (h.serving (Or.inl ⟨changed, pc⟩)).callback h.invoked _ _
  | write pc =>
      have log := silent_log s.log s.write.log
        (Or.inr ⟨.started (.write s.response), trivial, rfl⟩)
      have used : UsesAccepted s.write := (h.serving (Or.inr pc)).kept (by rw [log.1]) ⟨rfl, rfl⟩
      exact .of_used used (log.2 h.invoked)

theorem Attributed.step {s next : State Score} (h : Attributed s) (adopts : Adopts s)
    (paid : FlagsPaid s) {action : Action Score} (taken : Step s action next)
    : Attributed next := by
  have down : s.shutdown = true → next.shutdown = true := by
    intro stopping
    by_contra running
    rw [taken.shutdown_mono (by simpa using running)] at stopping
    cases stopping
  have aside (aside : Aside s next) : Attributed next :=
    h.frame (by rw [aside.accepted]) aside.locals aside.writer
      ⟨fun up => aside.changed.trans up, down⟩ (aside.ordered h.invoked)
  cases action with
  | worker thread action =>
      by_cases stores : action = .storeChanged
      · subst action
        cases taken
        exact h.frame (List.prefix_refl _) ⟨rfl, rfl⟩ (Or.inl rfl) ⟨fun _ => rfl, id⟩ h.invoked
      · rcases taken.worker_aside stores with quiet | ⟨_, rfl⟩
        · exact aside quiet
        · have grown := acceptedMessages_accept s thread
          exact h.frame (grown ▸ List.prefix_append _ _) ⟨rfl, rfl⟩ (Or.inl rfl) ⟨id, id⟩
            (h.invoked.concat trivial)
  | start =>
      cases taken
      exact h.leave rfl (by simp [State.start, WriterPc.Serving])
  | cancel =>
      cases taken
      exact ⟨h.inner, h.exchanging, h.serving, h.invoked⟩
  | writer action => exact h.writer adopts paid taken
  | stop action => exact aside taken.stop_aside

theorem attributed_of_reachable {threads : Nat} {s : State Score}
    (reached : (machine Score threads).Reachable s)
    : Attributed s := by
  apply reached.invariant (motive := Attributed)
  · exact ⟨by simp [machine], by simp [machine], by simp [machine], preceded_nil _⟩
  · intro s action next before known taken
    exact known.step (adopts_of_reachable before) (flagsPaid_of_reachable before)
      (.of_step taken)

/-- Whatever the callback was called for was accepted. -/
theorem Attributed.accepted {s : State Score} (h : Attributed s) {invocation : Invocation Score}
    (called : invocation ∈ invocations s.log)
    : { pollingPeriod := invocation.period, sports := invocation.sports }
        ∈ acceptedMessages s.log := by
  obtain ⟨event, member, found⟩ := List.mem_filterMap.mp called
  cases event <;> simp at found
  subst found
  obtain ⟨before, after, split⟩ := List.append_of_mem member
  obtain ⟨message, early, period, sports⟩ := h.invoked before _ after split
  rw [period, sports, mem_acceptedMessages, split]
  exact List.mem_append_left _ early

end RVision.Rpc.Server
