import RVision.Rpc.Server.Adoption
import RVision.Rpc.Server.RequestOrder

/-! How far the reader was at each call of the callback. A call is flagged where a flag was stored
since the exchange before; it then serves the request that was accepted last when the writer
copied it. The log records neither the stores nor the exchanges, so both numbers are carried
along with the run.
-/

namespace RVision.Rpc.Server

open Transition

variable {Score : Type}

/-- How many accepted requests had their flag stored at the exchange for a call, and how many
were accepted at the last copy up to the call.
-/
structure Turn where
  stored : Nat := 0
  served : Nat := 0
deriving DecidableEq, Repr

namespace Turn

/-- The accepted request that the call serves. -/
def message (turn : Turn) (messages : List SportsLinesRequest) : Option SportsLinesRequest :=
  match turn.served with
  | 0 => none
  | served + 1 => messages[served]?

/-- `later` is the turn after `earlier`. Only the flag of the last accepted request can still be
missing, and without a new flag nothing is copied.
-/
structure Follows (earlier later : Turn) : Prop where
  grows : earlier.stored ≤ later.stored
  close : earlier.served ≤ later.stored + 1
  kept : later.stored = earlier.stored → later.served = earlier.served
  copied
    : earlier.stored < later.stored
      → later.stored ≤ later.served ∧ earlier.served ≤ later.served

instance (earlier later : Turn) : Decidable (Follows earlier later) :=
  decidable_of_iff
    (earlier.stored ≤ later.stored
      ∧ earlier.served ≤ later.stored + 1
      ∧ (later.stored = earlier.stored → later.served = earlier.served)
      ∧ (earlier.stored < later.stored
        → later.stored ≤ later.served ∧ earlier.served ≤ later.served))
    ⟨fun h => ⟨h.1, h.2.1, h.2.2.1, h.2.2.2⟩,
      fun h => ⟨h.grows, h.close, h.kept, h.copied⟩⟩

/-- A flag is stored only for a request that can be copied. -/
theorem Follows.behind {earlier later : Turn} (h : Follows earlier later)
    (behind : earlier.stored ≤ earlier.served)
    : later.stored ≤ later.served := by
  rcases h.grows.lt_or_eq with more | same
  · exact (h.copied more).1
  · rw [h.kept same.symm, ← same]
    exact behind

/-- Where a flag was stored since the turn before. -/
def raisedFrom (earlier : Turn) : List Turn → List Bool
  | [] => []
  | turn :: rest => decide (earlier.stored < turn.stored) :: raisedFrom turn rest

/-- The flags of all turns. -/
def raised (turns : List Turn) : List Bool := raisedFrom {} turns

theorem raisedFrom_append (earlier : Turn) (turns later : List Turn)
    : raisedFrom earlier (turns ++ later)
      = raisedFrom earlier turns ++ raisedFrom (turns.getLastD earlier) later := by
  induction turns generalizing earlier with
  | nil => rfl
  | cons turn rest ih => rw [List.cons_append, raisedFrom, ih, List.getLastD_cons]; rfl

theorem length_raisedFrom (earlier : Turn) (turns : List Turn)
    : (raisedFrom earlier turns).length = turns.length := by
  induction turns generalizing earlier with
  | nil => rfl
  | cons turn rest ih => simp [raisedFrom, ih]

/-- Each turn of a chain follows the one before it. -/
theorem follows_of_isChain {turns : List Turn} (chain : List.IsChain Follows ({} :: turns))
    {index : Nat} {turn : Turn} (found : turns[index]? = some turn)
    : Follows ((turns.take index).getLastD {}) turn := by
  obtain ⟨inside, rfl⟩ := List.getElem?_eq_some_iff.mp found
  rw [← List.take_append_drop index turns, List.drop_eq_getElem_cons inside,
    ← List.cons_append, List.isChain_append] at chain
  refine chain.2.2 _ ?_ _ rfl
  rw [List.getLast?_cons, ← List.getLastD_eq_getLast?]
  rfl

theorem message_mono {turn : Turn} {head messages : List SportsLinesRequest}
    (before : head <+: messages) {message : SportsLinesRequest}
    (found : turn.message head = some message)
    : turn.message messages = some message := by
  obtain ⟨later, rfl⟩ := before
  unfold Turn.message at found ⊢
  split at found
  next => cases found
  next served =>
    rw [List.getElem?_append_left (List.getElem?_eq_some_iff.mp found).1]
    exact found

theorem served_le {turn : Turn} {messages : List SportsLinesRequest}
    {message : SportsLinesRequest} (found : turn.message messages = some message)
    : turn.served ≤ messages.length := by
  unfold Turn.message at found
  split at found
  next => cases found
  next served here =>
    rw [here]
    exact (List.getElem?_eq_some_iff.mp found).1

/-- A turn that serves all there are serves the last one. -/
theorem message_of_served {turn : Turn} {messages : List SportsLinesRequest}
    (all : turn.served = messages.length) {message : SportsLinesRequest}
    (last : message ∈ messages.getLast?)
    : turn.message messages = some message := by
  rw [List.getLast?_eq_getElem?] at last
  unfold Turn.message
  split
  next none =>
    rw [List.eq_nil_of_length_eq_zero (all.symm.trans none)] at last
    cases last
  next served here =>
    have place : messages.length - 1 = served := by omega
    rw [← place]
    exact last

end Turn

/-- The call serves a request of those that were accepted. -/
def Serves (messages : List SportsLinesRequest) (invocation : Invocation Score) (turn : Turn)
    : Prop :=
  ∃ message, turn.message messages = some message ∧ invocation.sports = message.sports

/-- The writer has no exchange behind it for which the call is still to come. -/
def WriterPc.Between (pc : WriterPc) : Prop :=
  pc ≠ .copying ∧ ∀ changed, pc ≠ .calling changed

/-- The turns of the calls that were made, the turn that is being prepared, and how many requests
have their flag stored.
-/
structure TakesTurns (s : State Score) (turns : List Turn) (now : Turn) (stored : Nat)
    : Prop where
  quiet
    : (∀ thread, s.workers thread ≠ .storing) → (acceptedMessages s.log).length = stored
  storing
    : (∃ thread, s.workers thread = .storing)
      → (acceptedMessages s.log).length = stored + 1
  chain : List.IsChain Turn.Follows ({} :: turns)
  raised : (invocations s.log).map (·.changed) = Turn.raised turns
  serves : List.Forall₂ (Serves (acceptedMessages s.log)) (invocations s.log) turns
  past : now.stored ≤ stored ∧ now.served ≤ (acceptedMessages s.log).length
  flag : s.subscription.changed = true ↔ now.stored < stored
  between : s.writer.Between → now = turns.getLastD {}
  copying
    : s.writer = .copying
      → (turns.getLastD {}).stored < now.stored
        ∧ (turns.getLastD {}).served ≤ now.stored + 1
        ∧ now.served = (turns.getLastD {}).served
  calling
    : ∀ changed,
        s.writer = .calling changed
        → Turn.Follows (turns.getLastD {}) now
          ∧ (changed = true ↔ (turns.getLastD {}).stored < now.stored)
          ∧ (changed = true
            → ∃ message,
                now.message (acceptedMessages s.log) = some message
                ∧ s.sports = message.sports)

-----------------------------------------------------------------------------------------
-- One step
-----------------------------------------------------------------------------------------

theorem Serves.mono {head messages : List SportsLinesRequest} (before : head <+: messages)
    {invocation : Invocation Score} {turn : Turn} (h : Serves head invocation turn)
    : Serves messages invocation turn := by
  obtain ⟨message, found, sports⟩ := h
  exact ⟨message, Turn.message_mono before found, sports⟩

/-- Lists that match entry by entry match at their ends. -/
theorem forall₂_getLast {Left Right : Type} {relation : Left → Right → Prop}
    {lefts : List Left} {rights : List Right} (h : List.Forall₂ relation lefts rights)
    {left : Left} (last : left ∈ lefts.getLast?) (deflt : Right)
    : relation left (rights.getLastD deflt) := by
  induction h generalizing deflt with
  | nil => cases last
  | @cons first right rest others related _ ih =>
      rw [List.getLastD_cons]
      rw [List.getLast?_cons] at last
      cases rest with
      | nil =>
          obtain rfl := Option.some.inj last
          cases others with
          | nil => exact related
          | cons => contradiction
      | cons => exact ih last right

namespace TakesTurns

variable {s t : State Score} {turns : List Turn} {now : Turn} {stored : Nat}

/-- The flag of the last accepted request may be missing. -/
theorem close (h : TakesTurns s turns now stored)
    : stored ≤ (acceptedMessages s.log).length
      ∧ (acceptedMessages s.log).length ≤ stored + 1 := by
  by_cases storing : ∃ thread, s.workers thread = .storing
  · have counted := h.storing storing
    omega
  · have counted := h.quiet (fun thread here => storing ⟨thread, here⟩)
    omega

/-- A step that takes no part in the hand-over, or moves the writer between two calls. -/
theorem frame (h : TakesTurns s turns now stored)
    (log : acceptedMessages t.log = acceptedMessages s.log
      ∧ invocations t.log = invocations s.log)
    (storing : (∃ thread, t.workers thread = .storing)
      ↔ ∃ thread, s.workers thread = .storing)
    (changed : t.subscription.changed = s.subscription.changed)
    (writer : (t.writer = s.writer ∧ t.sports = s.sports)
      ∨ (s.writer.Between ∧ t.writer.Between))
    : TakesTurns t turns now stored := by
  obtain ⟨accepted, called⟩ := log
  refine ⟨?_, ?_, h.chain, ?_, ?_, ?_, ?_, ?_, ?_, ?_⟩
  · rw [accepted]
    intro quiet
    refine h.quiet (fun thread here => ?_)
    obtain ⟨other, there⟩ := storing.mpr ⟨thread, here⟩
    exact quiet other there
  · rw [accepted, storing]
    exact h.storing
  · rw [called]
    exact h.raised
  · rw [accepted, called]
    exact h.serves
  · rw [accepted]
    exact h.past
  · rw [changed]
    exact h.flag
  all_goals rcases writer with ⟨same, sports⟩ | ⟨left, entered⟩
  · rw [same]
    exact h.between
  · exact fun _ => h.between left
  · rw [same]
    exact h.copying
  · exact fun pc => absurd pc entered.1
  · rw [same, accepted, sports]
    exact h.calling
  · exact fun changed pc => absurd pc (entered.2 changed)

theorem aside (h : TakesTurns s turns now stored) (aside : Aside s t)
    (called : invocations t.log = invocations s.log)
    : TakesTurns t turns now stored := by
  refine h.frame ⟨aside.accepted, called⟩ aside.storing aside.changed ?_
  rcases aside.writer with same | ⟨parked, testing⟩
  · exact Or.inl ⟨same, aside.locals.2⟩
  · exact Or.inr ⟨by simp [parked, WriterPc.Between], by simp [testing, WriterPc.Between]⟩

/-- A step of a worker that neither checks a request nor stores a flag. -/
theorem worker (h : TakesTurns s turns now stored) {thread : Nat} {action : WorkerAction}
    (taken : Step s (.worker thread action) t) (stores : action ≠ .storeChanged)
    (unchecked : s.workers thread ≠ .checking)
    : TakesTurns t turns now stored :=
  h.aside ((taken.worker_aside stores).resolve_right (fun both => unchecked both.1))
    (taken.invocations_eq (by simp))

/-- Nobody else is storing a flag when a request is accepted. -/
theorem accept (h : TakesTurns s turns now stored) (thread : Nat)
    (quiet : ∀ thread, s.workers thread ≠ .storing)
    : TakesTurns (s.accept thread) turns now stored := by
  have accepted := acceptedMessages_accept s thread
  have called : invocations (s.accept thread).log = invocations s.log := by
    simp [State.accept, invocations]
  have grown : acceptedMessages s.log <+: acceptedMessages (s.accept thread).log :=
    accepted ▸ List.prefix_append _ _
  refine ⟨?_, ?_, h.chain, ?_, ?_, ⟨h.past.1, ?_⟩, h.flag, h.between, h.copying, ?_⟩
  · exact fun none => absurd (by simp [State.accept]) (none thread)
  · rw [accepted, List.length_append, h.quiet quiet]
    exact fun _ => rfl
  · rw [called]
    exact h.raised
  · rw [called]
    exact h.serves.imp (fun _ _ serves => serves.mono grown)
  · exact h.past.2.trans grown.length_le
  · intro changed pc
    obtain ⟨follows, flagged, copied⟩ := h.calling changed pc
    refine ⟨follows, flagged, fun up => ?_⟩
    obtain ⟨message, found, sports⟩ := copied up
    exact ⟨message, Turn.message_mono grown found, sports⟩

theorem storeChanged (h : TakesTurns s turns now stored) {thread : Nat}
    (pc : s.workers thread = .storing)
    (only : ∀ other, s.workers other = .storing → other = thread)
    : TakesTurns (s.storeChanged thread) turns now (stored + 1) := by
  have quiet (other : Nat) : (s.storeChanged thread).workers other ≠ .storing := by
    simp only [State.storeChanged]
    intro here
    by_cases same : other = thread
    · subst other
      simp at here
    · rw [Function.update_of_ne same] at here
      exact same (only other here)
  refine ⟨fun _ => h.storing ⟨thread, pc⟩, ?_, h.chain, h.raised, h.serves,
    ⟨Nat.le_succ_of_le h.past.1, h.past.2⟩, ?_, h.between, h.copying, h.calling⟩
  · rintro ⟨other, here⟩
    exact absurd here (quiet other)
  · exact iff_of_true rfl (Nat.lt_succ_of_le h.past.1)

/-- The exchange takes all flags that are stored. -/
theorem takeFlag (h : TakesTurns s turns now stored) (pc : s.writer = .exchanging)
    (changed : s.subscription.changed = true)
    : TakesTurns s.takeFlag turns { now with stored } stored := by
  have last := h.between (by simp [pc, WriterPc.Between])
  have bounded := h.past.2
  have close := h.close.2
  refine ⟨h.quiet, h.storing, h.chain, h.raised, h.serves, ⟨Nat.le_refl _, bounded⟩, ?_, ?_, ?_,
    by simp⟩
  · simp [State.takeFlag]
  · exact fun between => absurd rfl between.1
  · intro _
    rw [← last]
    exact ⟨h.flag.mp changed, bounded.trans close, rfl⟩

/-- With no flag since the last exchange this turn is the last one again. -/
theorem missFlag (h : TakesTurns s turns now stored) (pc : s.writer = .exchanging)
    (unchanged : s.subscription.changed = false)
    : TakesTurns { s with writer := .calling false } turns now stored := by
  have last := h.between (by simp [pc, WriterPc.Between])
  have none : ¬ now.stored < stored := by
    rw [← h.flag, unchanged]
    simp
  have few := h.past
  have close := h.close.2
  refine ⟨h.quiet, h.storing, h.chain, h.raised, h.serves, h.past, h.flag, ?_, by simp, ?_⟩
  · exact fun between => absurd rfl (between.2 false)
  · rintro changed ⟨⟩
    rw [← last]
    exact ⟨⟨Nat.le_refl _, by omega, fun _ => rfl, fun less => absurd less (Nat.lt_irrefl _)⟩,
      by simp, by simp⟩

/-- The copy serves the request that was accepted last. -/
theorem copy (h : TakesTurns s turns now stored) (adopts : Adopts s)
    (pc : s.writer = .copying)
    : TakesTurns s.adopt turns { now with served := (acceptedMessages s.log).length }
        stored := by
  obtain ⟨more, near, same⟩ := h.copying pc
  have few := h.past
  have behind := h.close.1
  have some : acceptedMessages s.log ≠ [] := by
    apply List.ne_nil_of_length_pos
    omega
  refine ⟨h.quiet, h.storing, h.chain, h.raised, h.serves, ⟨h.past.1, Nat.le_refl _⟩, h.flag,
    ?_, by simp, ?_⟩
  · exact fun between => absurd rfl (between.2 true)
  · rintro changed ⟨⟩
    refine ⟨⟨more.le, near, fun equal => absurd equal more.ne', fun _ => ?_⟩,
      iff_of_true rfl more, fun _ => ⟨s.subscription.lastReq, ?_, ?_⟩⟩
    · exact ⟨few.1.trans behind, same ▸ few.2⟩
    · exact Turn.message_of_served rfl (adopts.last some)
    · simp [State.adopt, adopts.copying pc]

/-- The writer is about to call for the sports of the request that its turn serves. -/
theorem serving (h : TakesTurns s turns now stored) (produced : Produced s)
    (kept : SportsKept s) {changed : Bool} (pc : s.writer = .calling changed)
    : ∃ message,
        now.message (acceptedMessages s.log) = some message ∧ s.sports = message.sports := by
  obtain ⟨follows, flagged, copied⟩ := h.calling changed pc
  cases up : changed with
  | true => exact copied up
  | false =>
      subst up
      -- The call before was for the same sports, and there was one.
      have same : now.stored = (turns.getLastD {}).stored := by
        have grows := follows.grows
        have still : ¬ (turns.getLastD {}).stored < now.stored := by simpa using flagged
        omega
      have served := follows.kept same
      cases earlier : (invocations s.log).getLast? with
      | none =>
          have first := produced.calling false (List.getLast?_eq_none_iff.mp earlier) pc
          cases first
      | some last =>
          have sports := kept.kept last earlier (by simp [pc, WriterPc.Unflagged])
          obtain ⟨message, found, before⟩ := forall₂_getLast h.serves earlier {}
          refine ⟨message, ?_, sports.trans before⟩
          rwa [Turn.message, served]

/-- The call is made for the turn that was prepared, or for the last one again. -/
theorem callback (h : TakesTurns s turns now stored) (produced : Produced s)
    (kept : SportsKept s) {changed : Bool} (pc : s.writer = .calling changed)
    (lines : List (String × Score))
    : TakesTurns (s.callback changed lines) (turns ++ [now]) now stored := by
  obtain ⟨follows, flagged, _⟩ := h.calling changed pc
  have serves := h.serving produced kept pc
  have called := invocations_callback s changed lines
  have accepted := acceptedMessages_callback s changed lines
  have raised : decide ((turns.getLastD {}).stored < now.stored) = changed := by
    rw [Bool.eq_iff_iff, decide_eq_true_iff]
    exact flagged.symm
  refine ⟨?_, ?_, ?_, ?_, ?_, ?_, h.flag, ?_, by simp, by simp⟩
  · rw [accepted]
    exact h.quiet
  · rw [accepted]
    exact h.storing
  · rw [← List.cons_append, List.isChain_append]
    refine ⟨h.chain, List.isChain_singleton _, ?_⟩
    intro last found next only
    rw [List.getLast?_cons, ← List.getLastD_eq_getLast?] at found
    obtain rfl := Option.some.inj found
    obtain rfl := Option.some.inj only
    exact follows
  · rw [called, List.map_append, h.raised, Turn.raised, Turn.raised, Turn.raisedFrom_append,
      Turn.raisedFrom, raised]
    rfl
  · rw [called, accepted]
    obtain ⟨message, found, sports⟩ := serves
    exact List.rel_append h.serves (.cons ⟨message, found, sports⟩ .nil)
  · rw [accepted]
    exact h.past
  · intro _
    simp

/-- A step may end one call, and stores at most one flag. -/
theorem step {threads : Nat} (h : TakesTurns s turns now stored)
    (reached : (machine Score threads).Reachable s) (single : s.log.countP isConnected ≤ 1)
    {action : Action Score} (taken : Step s action t)
    : ∃ more now stored, TakesTurns t (turns ++ more) now stored := by
  by_cases callback : ∃ lines, action = .writer (.callback lines)
  · obtain ⟨lines, rfl⟩ := callback
    cases taken with
    | callback pc =>
        exact ⟨[now], now, stored, h.callback (produced_of_reachable reached)
          (sportsKept_of_reachable reached) pc lines⟩
  have called := taken.invocations_eq (fun lines same => callback ⟨lines, same⟩)
  suffices ∃ now stored, TakesTurns t turns now stored by
    obtain ⟨now, stored, known⟩ := this
    exact ⟨[], now, stored, by rwa [List.append_nil]⟩
  cases action with
  | worker thread action =>
      by_cases stores : action = .storeChanged
      · subst action
        cases taken with
        | storeChanged pc =>
            refine ⟨now, stored + 1, h.storeChanged pc (fun other here => ?_)⟩
            exact eq_of_willRead reached single (by simp [here, WorkerPc.willRead])
              (by simp [pc, WorkerPc.willRead])
      · rcases taken.worker_aside stores with aside | ⟨pc, rfl⟩
        · exact ⟨now, stored, h.aside aside called⟩
        · refine ⟨now, stored, h.accept thread (fun other here => ?_)⟩
          have same : other = thread :=
            eq_of_willRead reached single (by simp [here, WorkerPc.willRead])
              (by simp [pc, WorkerPc.willRead])
          rw [same, pc] at here
          cases here
  | start =>
      cases taken with
      | start fresh =>
          have before := untouched_of_reachable reached fresh
          refine ⟨now, stored, h.frame ⟨rfl, rfl⟩ ?_ rfl (Or.inr ⟨?_, ?_⟩)⟩
          · simp only [State.start, before.workers]
            constructor
            · rintro ⟨thread, here⟩
              split at here <;> cases here
            · rintro ⟨_, here⟩
              cases here
          · simp [before.writer, WriterPc.Between]
          · simp [State.start, WriterPc.Between]
  | cancel =>
      cases taken
      exact ⟨now, stored, h.frame ⟨rfl, rfl⟩ Iff.rfl rfl (Or.inl ⟨rfl, rfl⟩)⟩
  | stop action => exact ⟨now, stored, h.aside taken.stop_aside called⟩
  | writer action =>
      cases taken with
      | callback => exact absurd ⟨_, rfl⟩ callback
      | takeFlag pc changed => exact ⟨_, _, h.takeFlag pc changed⟩
      | missFlag pc unchanged => exact ⟨_, _, h.missFlag pc unchanged⟩
      | copy pc => exact ⟨_, _, h.copy (adopts_of_reachable reached) pc⟩
      | write pc =>
          refine ⟨now, stored, h.frame ⟨acceptedMessages_silent s.log trivial, called⟩ Iff.rfl
            rfl (Or.inr ⟨?_, ?_⟩)⟩
          · simp [pc, WriterPc.Between]
          · simp [WriterPc.Between]
      | outer pc | inner pc =>
          refine ⟨now, stored, h.frame ⟨rfl, rfl⟩ Iff.rfl rfl (Or.inr ⟨?_, ?_⟩)⟩
          · simp [pc, WriterPc.Between]
          · cases s.shutdown <;> simp [WriterPc.Between]
      | pass pc | refuse pc | park pc =>
          refine ⟨now, stored, h.frame ⟨rfl, rfl⟩ Iff.rfl rfl (Or.inr ⟨?_, ?_⟩)⟩
          · simp [pc, WriterPc.Between]
          · simp [WriterPc.Between]

theorem init (threads : Nat) : TakesTurns (machine Score threads).init [] {} 0 := by
  refine ⟨fun _ => rfl, ?_, List.isChain_singleton _, rfl, .nil, ⟨Nat.le_refl _, Nat.le_refl _⟩,
    ?_, fun _ => rfl, ?_, ?_⟩ <;> simp [machine]

/-- A server that was just started has taken none. -/
theorem started (threads : Nat)
    : TakesTurns (State.start ({ threads } : State Score)) [] {} 0 := by
  have nobody (thread : Nat)
      : (State.start ({ threads } : State Score)).workers thread ≠ .storing := by
    simp only [State.start]
    split <;> simp
  refine (init threads).frame ⟨rfl, rfl⟩ ?_ rfl (Or.inr ⟨?_, ?_⟩)
  · constructor
    · rintro ⟨thread, here⟩
      exact absurd here (nobody thread)
    · simp [machine]
  · simp [machine, WriterPc.Between]
  · simp [State.start, WriterPc.Between]

/-- With one connection the calls of every run can be told by turns. -/
theorem of_reachable {threads : Nat} (reached : (machine Score threads).Reachable s)
    (single : s.log.countP isConnected ≤ 1)
    : ∃ turns now stored, TakesTurns s turns now stored := by
  refine reached.invariant
    (motive := fun s =>
      s.log.countP isConnected ≤ 1 → ∃ turns now stored, TakesTurns s turns now stored)
    (fun _ => ⟨[], {}, 0, .init threads⟩) ?_ single
  intro s action next before known taken still
  have grown : s.log.countP isConnected ≤ next.log.countP isConnected :=
    (Step.of_step taken).log_grows.sublist.countP_le
  obtain ⟨turns, now, stored, h⟩ := known (grown.trans still)
  obtain ⟨more, later⟩ := h.step before (grown.trans still) (.of_step taken)
  exact ⟨turns ++ more, later⟩

end TakesTurns

end RVision.Rpc.Server
