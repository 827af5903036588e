import RVision.Rpc.Server.History

/-! Which call of the callback each written response comes from: the responses are those of
the calls, in order, and the first call is one with `changed = true`.
-/

namespace RVision.Rpc.Server

open Transition

variable {Score : Type}

/-- The responses passed to `m_stm.Write` so far, oldest first. -/
def writtenResponses (log : List (Event Score)) : List (SportsLinesResponse Score) :=
  log.filterMap (fun event => match event with
    | .started (.write response) => some response
    | _ => none)

/-- The response that is built from what the callback returned. -/
def Invocation.response (invocation : Invocation Score) : SportsLinesResponse Score :=
  State.buildResponse invocation.lines

/-- The response has one line for each line that was returned, in the same order. -/
theorem Invocation.response_lines (invocation : Invocation Score)
    : invocation.response.lines
      = invocation.lines.map (fun line => { score := line.2, sport := line.1 }) := by
  have folded := SportsLinesResponse.foldl_addLine ({} : SportsLinesResponse Score)
    (invocation.lines.map (fun line => { score := line.2, sport := line.1 }))
  rw [List.foldl_map] at folded
  rw [response, State.buildResponse, folded]
  rfl

/-- Only a call of the callback adds to the calls. -/
theorem Step.invocations_eq {s next : State Score} {action : Action Score}
    (taken : Step s action next) (other : ∀ lines, action ≠ .writer (.callback lines))
    : invocations next.log = invocations s.log := by
  cases taken with
  | callback => exact absurd rfl (other _)
  | deliver | accept | write | read | finish =>
      simp [State.deliver, State.accept, State.write, State.read, State.finish, State.issue,
        invocations]
  | _ => rfl

/-- While the writer is in the callback nothing else touches its locals. -/
theorem Step.calling_kept {s next : State Score} {action : Action Score}
    (taken : Step s action next) (other : ∀ lines, action ≠ .writer (.callback lines))
    {changed : Bool} (pc : s.writer = .calling changed) (built : s.built = true)
    : next.writer = .calling changed ∧ next.sports = s.sports ∧ next.period = s.period := by
  cases taken with
  | callback => exact absurd rfl (other _)
  | start fresh => simp [built] at fresh
  | notifyOne | notifyAll =>
      rcases wake_eq s with same | ⟨parked, _⟩
      · exact ⟨same.trans pc, rfl, rfl⟩
      · simp [pc] at parked
  | outer here | pass here | refuse here | park here | inner here | takeFlag here
    | missFlag here | copy here | write here => simp [pc] at here
  | _ => exact ⟨pc, rfl, rfl⟩

/-- Each response belongs to one call of the callback. Before the first call the writer has
passed its wait only because of a flag, and the flag is still up when it is exchanged.
-/
structure Produced (s : State Score) : Prop where
  responses
    : (invocations s.log).map Invocation.response
      = writtenResponses s.log ++ (if s.writer = .writing then [s.response] else [])
  first : ∀ invocation ∈ (invocations s.log).head?, invocation.changed = true
  inner
    : invocations s.log = []
      → s.writer = .inner
      → s.shutdown = true ∨ s.subscription.changed = true
  exchanging
    : invocations s.log = [] → s.writer = .exchanging → s.subscription.changed = true
  calling
    : ∀ changed, invocations s.log = [] → s.writer = .calling changed → changed = true

/-- A step that neither calls the callback nor writes, and lowers no flag. -/
theorem Produced.frame {s t : State Score} (h : Produced s)
    (log : invocations t.log = invocations s.log
      ∧ writtenResponses t.log = writtenResponses s.log)
    (writer : t.writer = s.writer ∨ (s.writer = .parked ∧ t.writer = .testing))
    (response : t.response = s.response)
    (flags : (s.subscription.changed = true → t.subscription.changed = true)
      ∧ (s.shutdown = true → t.shutdown = true))
    : Produced t := by
  have writing : t.writer = .writing ↔ s.writer = .writing := by
    rcases writer with same | ⟨parked, testing⟩
    · rw [same]
    · simp [parked, testing]
  refine ⟨?_, log.1 ▸ h.first, ?_, ?_, ?_⟩
  · rw [log.1, log.2, response]
    simp only [writing]
    exact h.responses
  all_goals rw [log.1]
  all_goals rcases writer with same | ⟨_, testing⟩
  · rw [same]
    exact fun none here => (h.inner none here).imp flags.2 flags.1
  · simp [testing]
  · rw [same]
    exact fun none here => flags.1 (h.exchanging none here)
  · simp [testing]
  · rw [same]
    exact h.calling
  · simp [testing]

/-- A step of the writer on its way to the callback, given what the next place needs. -/
theorem Produced.move {s t : State Score} (h : Produced s)
    (log : t.log = s.log) (before : s.writer ≠ .writing) (after : t.writer ≠ .writing)
    (inner : invocations s.log = []
      → t.writer = .inner
      → t.shutdown = true ∨ t.subscription.changed = true)
    (exchanging : invocations s.log = []
      → t.writer = .exchanging
      → t.subscription.changed = true)
    (calling : ∀ changed, invocations s.log = []
      → t.writer = .calling changed
      → changed = true)
    : Produced t := by
  have responses := h.responses
  rw [if_neg before] at responses
  exact ⟨by rw [log, if_neg after]; exact responses, log ▸ h.first, log ▸ inner,
    log ▸ exchanging, log ▸ calling⟩

theorem Produced.step {s next : State Score} (h : Produced s) {action : Action Score}
    (taken : Step s action next) (untouched : s.built = false → Untouched s)
    : Produced next := by
  cases taken with
  | start fresh =>
      have writer := (untouched fresh).writer
      exact h.move rfl (by simp [writer]) (by simp [State.start]) (by simp [State.start])
        (by simp [State.start]) (by simp [State.start])
  | post | loop | queueEnd | reject | cancel =>
      exact h.frame ⟨rfl, rfl⟩ (Or.inl rfl) rfl ⟨id, id⟩
  | deliver =>
      refine h.frame ?_ (Or.inl rfl) rfl ⟨?_, id⟩
      · simp [State.deliver, invocations, writtenResponses]
      · simp only [State.deliver, State.received]
        split <;> exact id
  | accept =>
      refine h.frame ?_ (Or.inl rfl) rfl ⟨id, id⟩
      simp [State.accept, invocations, writtenResponses]
  | storeChanged => exact h.frame ⟨rfl, rfl⟩ (Or.inl rfl) rfl ⟨fun _ => rfl, id⟩
  | notifyOne => exact h.frame ⟨rfl, rfl⟩ (wake_eq s) rfl ⟨id, id⟩
  | read =>
      refine h.frame ?_ (Or.inl rfl) rfl ⟨id, id⟩
      simp [State.read, State.issue, invocations, writtenResponses]
  | finish =>
      refine h.frame ?_ (Or.inl rfl) rfl ⟨id, id⟩
      simp [State.finish, State.issue, invocations, writtenResponses]
  | outer pc =>
      refine h.move rfl (by simp [pc]) ?_ ?_ ?_ ?_
      all_goals cases s.shutdown <;> simp
  | pass pc ready =>
      exact h.move rfl (by simp [pc]) (by simp) (fun _ _ => ready) (by simp) (by simp)
  | refuse pc | park pc =>
      exact h.move rfl (by simp [pc]) (by simp) (by simp) (by simp) (by simp)
  | inner pc =>
      cases down : s.shutdown with
      | true => exact h.move rfl (by simp [pc]) (by simp) (by simp) (by simp) (by simp)
      | false =>
          refine h.move rfl (by simp [pc]) (by simp) (by simp) ?_ (by simp)
          exact fun none _ => (h.inner none pc).resolve_left (by simp [down])
  | takeFlag pc =>
      exact h.move rfl (by simp [pc]) (by simp) (by simp) (by simp) (by simp)
  | missFlag pc unchanged =>
      refine h.move rfl (by simp [pc]) (by simp) (by simp) (by simp) ?_
      intro changed none _
      have raised := h.exchanging none pc
      simp [unchanged] at raised
  | copy pc =>
      exact h.move rfl (by simp [pc]) (by simp) (by simp) (by simp)
        (fun _ _ same => (WriterPc.calling.inj same).symm)
  | @callback changed lines pc =>
      have responses := h.responses
      have grown := invocations_callback s changed lines
      have kept : writtenResponses (s.callback changed lines).log = writtenResponses s.log := by
        simp [State.callback, writtenResponses]
      refine ⟨?_, ?_, by simp [grown], by simp [grown], by simp [grown]⟩
      · rw [grown, kept, List.map_append, responses]
        simp [pc, State.callback, Invocation.response]
      · rw [grown]
        cases earlier : invocations s.log with
        | nil => simpa using h.calling changed earlier pc
        | cons head rest =>
            have first := h.first
            rw [earlier] at first
            simpa using first
  | write pc =>
      have responses := h.responses
      have kept : invocations s.write.log = invocations s.log := by
        simp [State.write, State.issue, invocations]
      have grown : writtenResponses s.write.log = writtenResponses s.log ++ [s.response] := by
        simp [State.write, State.issue, writtenResponses]
      have some : invocations s.log ≠ [] := by
        intro none
        simp [none, pc] at responses
      refine ⟨?_, kept ▸ h.first, ?_, ?_, ?_⟩
      · rw [kept, grown, responses]
        simp [pc]
      all_goals simp [kept, some]
  | store => exact h.frame ⟨rfl, rfl⟩ (Or.inl rfl) rfl ⟨id, fun _ => rfl⟩
  | notifyAll => exact h.frame ⟨rfl, rfl⟩ (wake_eq s) rfl ⟨id, id⟩
  | shutdownServer | shutdownQueue | joinCrash | joinWriter | joinedAll | joinWorker
    | drain | drained => exact h.frame ⟨rfl, rfl⟩ (Or.inl rfl) rfl ⟨id, id⟩

theorem produced_of_reachable {threads : Nat} {s : State Score}
    (reached : (machine Score threads).Reachable s)
    : Produced s := by
  apply reached.invariant (motive := Produced)
  · exact ⟨rfl, by simp [machine, invocations], by simp [machine], by simp [machine],
      by simp [machine]⟩
  · intro s action next before known taken
    exact known.step (.of_step taken) (untouched_of_reachable before)

-----------------------------------------------------------------------------------------
-- The sports change only with the flag
-----------------------------------------------------------------------------------------

/-- The writer is in its inner loop and has not taken a flag since the last call. -/
def WriterPc.Unflagged : WriterPc → Prop
  | .inner | .exchanging | .calling false | .writing => True
  | _ => False

/-- The writer is outside its inner loop. -/
def WriterPc.Outside : WriterPc → Prop
  | .outer | .testing | .parking | .parked => True
  | _ => False

/-- A call with `changed = false` is for the sports of the call before it. A writer that has
called the callback never waits again.
-/
structure SportsKept (s : State Score) : Prop where
  chained
    : List.IsChain (fun earlier later => later.changed = false → later.sports = earlier.sports)
        (invocations s.log)
  kept
    : ∀ last ∈ (invocations s.log).getLast?, s.writer.Unflagged → s.sports = last.sports
  outside : invocations s.log ≠ [] → s.writer.Outside → s.writer = .outer ∧ s.shutdown = true

/-- A step that leaves the writer and its locals alone. -/
theorem SportsKept.frame {s t : State Score} (h : SportsKept s)
    (log : invocations t.log = invocations s.log)
    (writer : t.writer = s.writer ∨ (s.writer = .parked ∧ t.writer = .testing))
    (sports : t.sports = s.sports) (shutdown : s.shutdown = true → t.shutdown = true)
    : SportsKept t := by
  refine ⟨log ▸ h.chained, ?_, ?_⟩
  · rw [log, sports]
    rcases writer with same | ⟨_, testing⟩
    · rw [same]
      exact h.kept
    · simp [testing, WriterPc.Unflagged]
  · rw [log]
    intro some outside
    rcases writer with same | ⟨parked, _⟩
    · rw [same] at outside ⊢
      exact (h.outside some outside).imp_right shutdown
    · have before := (h.outside some (by simp [parked, WriterPc.Outside])).1
      simp [parked] at before

/-- A step of the writer that does not call the callback. -/
theorem SportsKept.move {s t : State Score} (h : SportsKept s)
    (log : invocations t.log = invocations s.log)
    (kept : invocations s.log ≠ [] → t.writer.Unflagged
      → s.writer.Unflagged ∧ t.sports = s.sports)
    (outside : invocations s.log ≠ [] → t.writer.Outside
      → t.writer = .outer ∧ t.shutdown = true)
    : SportsKept t := by
  refine ⟨log ▸ h.chained, ?_, log ▸ outside⟩
  rw [log]
  intro last found unflagged
  have some : invocations s.log ≠ [] := by
    intro none
    simp [none] at found
  obtain ⟨before, same⟩ := kept some unflagged
  exact same.trans (h.kept last found before)

theorem SportsKept.step {s next : State Score} (h : SportsKept s) {action : Action Score}
    (taken : Step s action next) (untouched : s.built = false → Untouched s)
    : SportsKept next := by
  have waits (pc : s.writer.Outside) (other : s.writer ≠ .outer)
      : invocations s.log = [] := by
    by_contra some
    exact other (h.outside some pc).1
  cases taken with
  | start fresh =>
      have none : invocations s.log = [] := by simp [(untouched fresh).log, invocations]
      exact h.move rfl (fun some => absurd none some) (fun some => absurd none some)
  | post | loop | queueEnd | reject | storeChanged | cancel =>
      exact h.frame rfl (Or.inl rfl) rfl id
  | deliver => exact h.frame (by simp [State.deliver, invocations]) (Or.inl rfl) rfl id
  | accept => exact h.frame (by simp [State.accept, invocations]) (Or.inl rfl) rfl id
  | notifyOne => exact h.frame rfl (wake_eq s) rfl id
  | read =>
      exact h.frame (by simp [State.read, State.issue, invocations]) (Or.inl rfl) rfl id
  | finish =>
      exact h.frame (by simp [State.finish, State.issue, invocations]) (Or.inl rfl) rfl id
  | outer pc =>
      refine h.move rfl ?_ ?_
      · cases s.shutdown <;> simp [WriterPc.Unflagged]
      · intro some
        have down := (h.outside some (by simp [pc, WriterPc.Outside])).2
        simp [down, WriterPc.Outside]
  | pass pc =>
      have none := waits (by simp [pc, WriterPc.Outside]) (by simp [pc])
      exact h.move rfl (fun some => absurd none some) (fun some => absurd none some)
  | refuse pc | park pc =>
      have none := waits (by simp [pc, WriterPc.Outside]) (by simp [pc])
      exact h.move rfl (fun some => absurd none some) (fun some => absurd none some)
  | inner pc =>
      refine h.move rfl (fun _ _ => ⟨by simp [pc, WriterPc.Unflagged], rfl⟩) ?_
      cases down : s.shutdown <;> simp [WriterPc.Outside]
  | takeFlag pc => exact h.move rfl (by simp [WriterPc.Unflagged]) (by simp [WriterPc.Outside])
  | missFlag pc =>
      exact h.move rfl (fun _ _ => ⟨by simp [pc, WriterPc.Unflagged], rfl⟩)
        (by simp [WriterPc.Outside])
  | copy pc => exact h.move rfl (by simp [WriterPc.Unflagged]) (by simp [WriterPc.Outside])
  | @callback changed lines pc =>
      have grown := invocations_callback s changed lines
      refine ⟨?_, ?_, by simp [WriterPc.Outside]⟩
      · rw [grown, List.isChain_append]
        refine ⟨h.chained, List.isChain_singleton _, ?_⟩
        intro last found new only unchanged
        obtain rfl : _ = new := by simpa using only
        obtain rfl : changed = false := unchanged
        exact h.kept last found (by simp [pc, WriterPc.Unflagged])
      · rw [grown]
        intro last found _
        obtain rfl : _ = last := by simpa using found
        rfl
  | write pc =>
      exact h.move (by simp [State.write, State.issue, invocations])
        (fun _ _ => ⟨by simp [pc, WriterPc.Unflagged], rfl⟩) (by simp [WriterPc.Outside])
  | store => exact h.frame rfl (Or.inl rfl) rfl (fun _ => rfl)
  | notifyAll => exact h.frame rfl (wake_eq s) rfl id
  | shutdownServer | shutdownQueue | joinCrash | joinWriter | joinedAll | joinWorker
    | drain | drained => exact h.frame rfl (Or.inl rfl) rfl id

theorem sportsKept_of_reachable {threads : Nat} {s : State Score}
    (reached : (machine Score threads).Reachable s)
    : SportsKept s := by
  apply reached.invariant (motive := SportsKept)
  · exact ⟨List.isChain_nil, by simp [machine, invocations], by simp [machine, invocations]⟩
  · intro s action next before known taken
    exact known.step (.of_step taken) (untouched_of_reachable before)

end RVision.Rpc.Server
