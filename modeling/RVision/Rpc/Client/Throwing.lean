import RVision.Rpc.Client.Ending

/-! A client whose response callback throws. `process` catches every exception, but outside of
its loop: the processor is gone, nothing has been started in place of the read it handled, and
`call` notices nothing.
-/

namespace RVision.Rpc.Client

open Transition

variable {Score : Type}

/-- The actions of a client whose callback may throw. -/
inductive ThrowingAction (Score : Type)
  | client (action : Action Score)
  /-- A successful read is handled, and `m_cb` throws. -/
  | throws (response : SportsLinesResponse Score)
deriving DecidableEq, Repr

/-- `on_read` up to the exception: it leaves the loop of `process`, is caught behind it, and the
thread ends. `m_response` is not cleared.
-/
def State.throws (s : State Score) (response : SportsLinesResponse Score) : State Score :=
  let parsed := s.response.parseInto response
  { s with
    processor := .exited
    inFlight := s.inFlight.erase .read
    response := parsed
    log := s.log ++ [.handled (.read (some response)), .handed (State.responseLines parsed)] }

def throwingStep (s : State Score) : ThrowingAction Score → Option (State Score)
  | .client action => step s action
  | .throws response =>
      if s.processor = .waiting ∧ .read ∈ s.inFlight then some (s.throws response) else none

def throwingMachine (Score : Type) : Machine (State Score) (ThrowingAction Score) where
  init := {}
  step := throwingStep

-----------------------------------------------------------------------------------------
-- A client that is abandoned
-----------------------------------------------------------------------------------------

/-- The processor has ended with the stream open: nothing is in flight, no call can start it
again, and Finish was not started.
-/
structure Abandoned (s : State Score) : Prop where
  exited : s.processor = .exited
  inFlight : s.inFlight = []
  started : s.started = true
  starter : ∀ thread, s.callers thread ≠ .starting
  unfinished : .finish ∉ operations s.log

/-- Pushed calls are all that an abandoned client still sees, and all that it keeps. -/
def Piles (old new : State Score) (calls : List Call) : Prop :=
  new.log = old.log ++ calls.map .pushed ∧ new.calls = old.calls ++ calls

theorem Piles.refl (s : State Score) : Piles s s [] := by simp [Piles]

theorem Piles.trans {old middle new : State Score} {first second : List Call}
    (earlier : Piles old middle first) (later : Piles middle new second)
    : Piles old new (first ++ second) := by
  refine ⟨?_, ?_⟩
  · rw [later.1, earlier.1, List.append_assoc, List.map_append]
  · rw [later.2, earlier.2, List.append_assoc]

theorem Abandoned.step {s next : State Score} (h : Abandoned s) {action : Action Score}
    (taken : Client.step s action = some next)
    : Abandoned next ∧ ∃ calls, Piles s next calls := by
  have kept {thread : Nat} {pc : CallerPc} (other : pc ≠ .starting)
      : ∀ caller, Function.update s.callers thread pc caller ≠ .starting :=
    forall_pc_update (· ≠ CallerPc.starting) h.starter other
  have still (caller : Nat) := h.starter caller
  cases action <;> simp only [Client.step, Option.ite_none_right_eq_some] at taken
  all_goals obtain ⟨guard, effect⟩ := taken
  all_goals obtain rfl := Option.some.inj effect
  case push thread call =>
    refine ⟨⟨h.exited, h.inFlight, h.started, kept (by simp), ?_⟩, [call], rfl, rfl⟩
    simpa [State.push, mem_operations_iff] using h.unfinished
  case exchange thread =>
    rw [State.exchange, if_pos h.started]
    exact ⟨⟨h.exited, h.inFlight, h.started, kept (by simp), h.unfinished⟩, [], .refl s⟩
  case startCall thread => exact absurd guard (h.starter thread)
  case loop | enter => simp [h.exited] at guard
  case deliver completion => simp [h.exited] at guard
  case drain =>
    exact ⟨⟨h.exited, rfl, h.started, still, h.unfinished⟩, [], .refl s⟩
  all_goals exact ⟨⟨h.exited, h.inFlight, h.started, still, h.unfinished⟩, [], .refl s⟩

/-- An abandoned client handles no read that could throw once more. -/
theorem Abandoned.throwingStep {s next : State Score} (h : Abandoned s)
    {action : ThrowingAction Score} (taken : Client.throwingStep s action = some next)
    : Abandoned next ∧ ∃ calls, Piles s next calls := by
  cases action with
  | client action => exact h.step taken
  | throws response =>
      obtain ⟨⟨waiting, -⟩, -⟩ := Option.ite_none_right_eq_some.mp taken
      simp [h.exited] at waiting

/-- The read that throws was the only operation of an open stream. -/
theorem abandoned_throws {s : State Score} (reached : (machine Score).Reachable s)
    (waiting : s.processor = .waiting) (tag : .read ∈ s.inFlight)
    (response : SportsLinesResponse Score)
    : Abandoned (s.throws response) := by
  have present : s.destroyer ≠ .gone := by
    intro gone
    have exited := exited_of_joined reached (gone ▸ trivial)
    simp [waiting] at exited
  obtain ⟨phase, h⟩ := exists_inPhase reached present
  obtain rfl : phase = .reading := by
    rw [h.inFlight] at tag
    cases phase <;> simp [Phase.inFlight] at tag
    rfl
  obtain ⟨rest, known, -, absent⟩ := h.operations
  have unfinished : .finish ∉ operations s.log := by simp [known, absent]
  refine ⟨rfl, ?_, h.started.mpr (by simp), fun thread => by simp [State.throws, h.starter], ?_⟩
  · simp [State.throws, h.inFlight, Phase.inFlight]
  · simpa [State.throws, mem_operations_iff] using unfinished

/-- Up to the exception the client is one whose callback returns. -/
theorem reachable_or_abandoned {s : State Score} (reached : (throwingMachine Score).Reachable s)
    : (machine Score).Reachable s ∨ Abandoned s := by
  apply reached.invariant
    (motive := fun s => (machine Score).Reachable s ∨ Abandoned s) (Or.inl Machine.reachable_init)
  intro s action next _ known taken
  rcases known with before | abandoned
  · cases action with
    | client action => exact Or.inl (before.step taken)
    | throws response =>
        obtain ⟨⟨waiting, tag⟩, effect⟩ := Option.ite_none_right_eq_some.mp taken
        obtain rfl := Option.some.inj effect
        exact Or.inr (abandoned_throws before waiting tag response)
  · exact Or.inr (abandoned.throwingStep taken).1

-----------------------------------------------------------------------------------------
-- Its destructor
-----------------------------------------------------------------------------------------

/-- What is left of `~client`. -/
def DestroyerPc.left : DestroyerPc → Nat
  | .alive => 6
  | .notifying => 5
  | .joining => 4
  | .cancelling => 3
  | .closing => 2
  | .draining => 1
  | .gone => 0

/-- The action is one of `~client`. -/
def ThrowingAction.destroys : ThrowingAction Score → Bool
  | .client .storeShutdown | .client .notifyAll | .client .join | .client .cancel
  | .client .shutdownQueue | .client .drain => true
  | _ => false

/-- The destructor finds the processor ended, whatever it has done so far. -/
theorem Abandoned.destroy {s : State Score} (h : Abandoned s) (present : s.destroyer ≠ .gone)
    : ∃ action next,
        ThrowingAction.destroys action = true
        ∧ Client.throwingStep s action = some next
        ∧ next.destroyer.left < s.destroyer.left := by
  cases pc : s.destroyer with
  | alive =>
      refine ⟨.client .storeShutdown, _, rfl, if_pos pc, ?_⟩
      simp [DestroyerPc.left]
  | notifying =>
      refine ⟨.client .notifyAll, _, rfl, if_pos pc, ?_⟩
      simp [DestroyerPc.left]
  | joining =>
      refine ⟨.client .join, _, rfl, if_pos ⟨pc, h.exited⟩, ?_⟩
      simp [DestroyerPc.left]
  | cancelling =>
      refine ⟨.client .cancel, _, rfl, if_pos pc, ?_⟩
      simp [DestroyerPc.left]
  | closing =>
      refine ⟨.client .shutdownQueue, _, rfl, if_pos pc, ?_⟩
      simp [DestroyerPc.left]
  | draining =>
      refine ⟨.client .drain, _, rfl, if_pos pc, ?_⟩
      simp [DestroyerPc.left]
  | gone => exact absurd pc present

theorem Abandoned.exists_gone {s : State Score} (h : Abandoned s)
    : ∃ ending last,
        (∀ action ∈ ending, ThrowingAction.destroys action = true)
        ∧ (throwingMachine Score).runFrom s ending = some last
        ∧ last.destroyer = .gone := by
  refine Machine.exists_runFrom_of_rank Abandoned (fun s => s.destroyer = .gone)
    (fun s => s.destroyer.left) ?_ h
  intro s abandoned
  by_cases gone : s.destroyer = .gone
  · exact Or.inl gone
  · obtain ⟨action, next, mine, taken, nearer⟩ := abandoned.destroy gone
    exact Or.inr ⟨action, next, mine, taken, (abandoned.throwingStep taken).1, nearer⟩

/-- A callback that throws ends the client without a word. However the run goes on, the response
that it was given is the last thing handled, no operation is started in its place, not even
Finish, and every call from any thread is accepted and stays in `m_calls`. The destructor, at
least, runs to its end without the server's help.
-/
theorem throw_abandons {s after final : State Score} {response : SportsLinesResponse Score}
    {actions : List (ThrowingAction Score)} (reached : (throwingMachine Score).Reachable s)
    (thrown : (throwingMachine Score).step s (.throws response) = some after)
    (ran : (throwingMachine Score).runFrom after actions = some final)
    : (∃ calls,
        final.log
            = s.log
              ++ .handled (.read (some response))
              :: .handed (response.lines.map (fun line => (line.score, line.sport)))
              :: calls.map .pushed
        ∧ final.calls = s.calls ++ calls)
      ∧ .finish ∉ operations final.log
      ∧ final.inFlight = []
      ∧ ∃ ending last,
          (∀ action ∈ ending, ThrowingAction.destroys action = true)
          ∧ (throwingMachine Score).runFrom final ending = some last
          ∧ last.destroyer = .gone := by
  obtain ⟨⟨waiting, tag⟩, effect⟩ := Option.ite_none_right_eq_some.mp thrown
  obtain rfl := Option.some.inj effect
  have intact : (machine Score).Reachable s := by
    rcases reachable_or_abandoned reached with intact | abandoned
    · exact intact
    · simp [abandoned.exited] at waiting
  obtain ⟨abandoned, calls, log, queue⟩
      : Abandoned final ∧ ∃ calls, Piles (s.throws response) final calls := by
    refine Machine.runFrom_invariant ran
      (motive := fun later => Abandoned later ∧ ∃ calls, Piles (s.throws response) later calls)
      ⟨abandoned_throws intact waiting tag response, [], .refl _⟩ ?_
    intro middle action next known taken
    obtain ⟨abandoned, before, piled⟩ := known
    obtain ⟨still, new, grown⟩ := abandoned.throwingStep taken
    exact ⟨still, before ++ new, piled.trans grown⟩
  refine ⟨⟨calls, ?_, queue⟩, abandoned.unfinished, abandoned.inFlight, abandoned.exists_gone⟩
  simpa [State.throws, State.responseLines_eq] using log

/-- The first response makes the callback throw, and another thread calls while the client is
being destroyed.
-/
def untilResponse : List (ThrowingAction Rat) :=
  [.push 0 (5, ["soccer"]), .exchange 0, .startCall 0, .loop, .enter,
    .deliver (.start true), .loop, .enter, .deliver (.write true), .loop, .enter].map .client

def afterThrow : List (ThrowingAction Rat) :=
  [.push 1 (7, ["baseball"]), .storeShutdown, .exchange 1].map .client

theorem throw_abandons_firstResponse
    : ∃ s after final,
        (throwingMachine Rat).run untilResponse = some s
        ∧ (throwingMachine Rat).step s (.throws { lines := [⟨3, "soccer"⟩] }) = some after
        ∧ (throwingMachine Rat).runFrom after afterThrow = some final
        ∧ final.calls = [(7, ["baseball"])]
        ∧ .finish ∉ operations final.log
        ∧ ∃ ending last,
            (throwingMachine Rat).runFrom final ending = some last
            ∧ last.destroyer = .gone := by
  obtain ⟨-, unfinished, -, ending, last, -, led, gone⟩ :=
    throw_abandons ⟨untilResponse, rfl⟩
      (show (throwingMachine Rat).step _ (.throws { lines := [⟨3, "soccer"⟩] }) = some _ from rfl)
      (show (throwingMachine Rat).runFrom _ afterThrow = some _ from rfl)
  exact ⟨_, _, _, rfl, rfl, rfl, rfl, unfinished, ending, last, led, gone⟩

end RVision.Rpc.Client
