import RVision.Rpc.Server.HandOver
import RVision.Rpc.Server.Responses

/-! Which request a changed call of the callback serves. Requests can overwrite each other
before the writer copies one, but a changed call never serves a request that an earlier
changed call has already used up.
-/

namespace RVision.Rpc.Server

open Transition

variable {Score : Type}

/-- The calls that were made with `changed = true` among the first `count` ones. -/
def changedBefore (log : List (Event Score)) (count : Nat) : Nat :=
  ((invocations log).take count).countP (·.changed)

/-- Of the accepted requests, the last one is remembered. A changed call uses the sports of
one of them, beyond as many of them as there were changed calls before it.
-/
structure Adopts (s : State Score) : Prop where
  last
    : acceptedMessages s.log ≠ []
      → s.subscription.lastReq ∈ (acceptedMessages s.log).getLast?
  copying : s.writer = .copying → s.sports = []
  calling
    : s.writer = .calling true
      → ∃ message ∈ (acceptedMessages s.log).drop (changedInvocations s.log),
          s.sports = message.sports
  called
    : ∀ index invocation,
        (invocations s.log)[index]? = some invocation
        → invocation.changed = true
        → ∃ message ∈ (acceptedMessages s.log).drop (changedBefore s.log index),
            invocation.sports = message.sports

/-- Later requests leave the earlier ones where they are. -/
theorem mem_drop_of_isPrefix {Entry : Type} {head entries : List Entry} {entry : Entry}
    {count : Nat} (before : head <+: entries) (member : entry ∈ head.drop count)
    : entry ∈ entries.drop count :=
  (before.drop count).mem member

/-- A step that calls nothing and after which the writer holds no new flag. -/
theorem Adopts.frame {s t : State Score} (h : Adopts s)
    (called : invocations t.log = invocations s.log)
    (accepted : acceptedMessages s.log <+: acceptedMessages t.log)
    (last : acceptedMessages t.log ≠ []
      → t.subscription.lastReq ∈ (acceptedMessages t.log).getLast?)
    (copying : t.writer = .copying → t.sports = [])
    (calling : t.writer = .calling true → s.writer = .calling true ∧ t.sports = s.sports)
    : Adopts t := by
  refine ⟨last, copying, ?_, ?_⟩
  · intro pc
    obtain ⟨before, same⟩ := calling pc
    obtain ⟨message, member, sports⟩ := h.calling before
    rw [changedInvocations, called, same]
    exact ⟨message, mem_drop_of_isPrefix accepted member, sports⟩
  · intro index invocation found flagged
    rw [called] at found
    obtain ⟨message, member, sports⟩ := h.called index invocation found flagged
    rw [changedBefore, called]
    exact ⟨message, mem_drop_of_isPrefix accepted member, sports⟩

/-- A step that takes no part in the hand-over. -/
theorem Adopts.aside {s t : State Score} (h : Adopts s) (aside : Aside s t)
    (called : invocations t.log = invocations s.log)
    : Adopts t := by
  refine h.frame called (by rw [aside.accepted]) ?_ ?_ ?_
  · rw [aside.accepted, aside.lastReq]
    exact h.last
  all_goals rcases aside.writer with same | ⟨_, testing⟩
  · rw [same, aside.locals.2]
    exact h.copying
  · simp [testing]
  · rw [same]
    exact fun pc => ⟨pc, aside.locals.2⟩
  · simp [testing]

/-- The flag that the writer holds says that there is a request that no changed call has used
up.
-/
theorem FlagsPaid.unused {s : State Score} (h : FlagsPaid s) (pc : s.writer = .copying)
    : changedInvocations s.log < (acceptedMessages s.log).length := by
  rw [FlagsPaid, pc] at h
  simp only [WriterPc.holdsFlag, Bool.toNat_true] at h
  omega

theorem Adopts.last_of_copying {s : State Score} (h : Adopts s) (paid : FlagsPaid s)
    (pc : s.writer = .copying)
    : s.subscription.lastReq ∈ (acceptedMessages s.log).getLast? := by
  have unused := paid.unused pc
  exact h.last (List.ne_nil_of_length_pos (by omega))

/-- The copy adopts the last accepted request. -/
theorem Adopts.copy {s : State Score} (h : Adopts s) (paid : FlagsPaid s)
    (pc : s.writer = .copying)
    : Adopts s.adopt := by
  refine ⟨h.last, by simp, ?_, h.called⟩
  intro _
  have unused := paid.unused pc
  have last := h.last_of_copying paid pc
  refine ⟨s.subscription.lastReq, ?_, ?_⟩
  · have final : s.subscription.lastReq
        ∈ ((acceptedMessages s.log).drop (changedInvocations s.log)).getLast? := by
      rw [List.getLast?_drop, if_neg (by omega)]
      exact last
    exact List.mem_of_getLast? final
  · simp [State.adopt, h.copying pc]

theorem Adopts.callback {s : State Score} (h : Adopts s) {changed : Bool}
    (pc : s.writer = .calling changed) (lines : List (String × Score))
    : Adopts (s.callback changed lines) := by
  have grown := invocations_callback s changed lines
  have accepted := acceptedMessages_callback s changed lines
  refine ⟨?_, by simp, by simp, ?_⟩
  · rw [accepted]
    exact h.last
  · intro index invocation found flagged
    rw [accepted, changedBefore, grown]
    rw [grown, List.getElem?_append] at found
    split_ifs at found with earlier
    · rw [List.take_append_of_le_length earlier.le]
      exact h.called index invocation found flagged
    · obtain ⟨here, rfl⟩ : index = (invocations s.log).length ∧ _ = invocation := by
        rw [List.getElem?_singleton] at found
        split_ifs at found with here
        exact ⟨by omega, Option.some.inj found⟩
      obtain rfl : changed = true := flagged
      subst index
      rw [List.take_left]
      exact h.calling pc

theorem Adopts.step {s next : State Score} (h : Adopts s) (paid : FlagsPaid s)
    {action : Action Score} (taken : Step s action next)
    : Adopts next := by
  by_cases callback : ∃ lines, action = .writer (.callback lines)
  · obtain ⟨lines, rfl⟩ := callback
    cases taken with
    | callback pc => exact h.callback pc lines
  have called := taken.invocations_eq (fun lines same => callback ⟨lines, same⟩)
  cases action with
  | worker thread action =>
      by_cases stores : action = .storeChanged
      · subst action
        cases taken
        exact ⟨h.last, h.copying, h.calling, h.called⟩
      · rcases taken.worker_aside stores with aside | ⟨_, rfl⟩
        · exact h.aside aside called
        · have grown := acceptedMessages_accept s thread
          refine h.frame called ?_ ?_ h.copying (fun pc => ⟨pc, rfl⟩)
          · exact grown ▸ List.prefix_append _ _
          · rw [grown]
            simp [State.accept]
  | start =>
      cases taken
      exact h.frame called (List.prefix_refl _) h.last (by simp [State.start])
        (by simp [State.start])
  | cancel =>
      cases taken
      exact ⟨h.last, h.copying, h.calling, h.called⟩
  | writer action =>
      cases taken with
      | callback => exact absurd ⟨_, rfl⟩ callback
      | copy pc => exact h.copy paid pc
      | write pc =>
          have same : acceptedMessages s.write.log = acceptedMessages s.log :=
            acceptedMessages_silent s.log trivial
          refine h.frame called (by rw [same]) ?_ (by simp) (by simp)
          rw [same]
          exact h.last
      | takeFlag => exact h.frame called (List.prefix_refl _) h.last (fun _ => rfl) (by simp)
      | outer | inner =>
          exact h.frame called (List.prefix_refl _) h.last (by cases s.shutdown <;> simp)
            (by cases s.shutdown <;> simp)
      | _ => exact h.frame called (List.prefix_refl _) h.last (by simp) (by simp)
  | stop action => exact h.aside taken.stop_aside called

theorem adopts_of_reachable {threads : Nat} {s : State Score}
    (reached : (machine Score threads).Reachable s)
    : Adopts s := by
  apply reached.invariant (motive := Adopts)
  · exact ⟨fun some => absurd rfl some, by simp [machine], by simp [machine],
      by simp [machine, invocations]⟩
  · intro s action next before known taken
    exact known.step (flagsPaid_of_reachable before) (.of_step taken)

end RVision.Rpc.Server
