import Mathlib.Data.Bool.Basic
import RVision.Rpc.Server.SingleFlight
import RVision.Transition.Futures

/-! The last read of a server. Each worker asks for one connection when it starts and for none
after that; a read that fails is not started again. So a server has as many streams in its life
as it has workers, and is deaf once each of them had its failed read.
-/

namespace RVision.Rpc.Server

open Transition

variable {Score : Type}

/-- The log records a read that failed. -/
def isReadFailure : Event Score → Bool
  | .delivered (.read none) => true
  | _ => false

/-- Nothing that a client does gets into the log any more. -/
def Event.Deaf : Event Score → Prop
  | .delivered completion => completion.tag ≠ .connect ∧ completion.tag ≠ .read
  | .accepted _ | .started .read => False
  | .started (.write _) | .started .finish | .invoked _ => True

/-- A step adds a failed read to the log exactly when it delivers one. -/
theorem Step.readFailures {s next : State Score} {action : Action Score}
    (taken : Step s action next)
    : next.log.countP isReadFailure
      = s.log.countP isReadFailure + action.isFailedRead.toNat := by
  cases taken with
  | @deliver thread completion =>
      have same : isReadFailure (.delivered completion : Event Score)
          = (Action.worker thread (.deliver completion) : Action Score).isFailedRead := by
        rcases completion with _ | (_ | _) | _ | _ | _ <;> rfl
      simp only [State.deliver, countP_concat, same]
  | accept | callback | write | read | finish => exact countP_concat_of_not s.log rfl
  | _ => rfl

/-- The log counts the failed reads that the run delivered. -/
theorem countP_isReadFailure_of_run {threads : Nat} {actions : List (Action Score)}
    {s : State Score} (ran : (machine Score threads).run actions = some s)
    : s.log.countP isReadFailure = actions.countP Action.isFailedRead := by
  refine Machine.run_induction
    (motive := fun actions s =>
      s.log.countP isReadFailure = actions.countP Action.isFailedRead)
    rfl ?_ ran
  intro actions s action next _ counted taken
  rw [(Step.of_step taken).readFailures, countP_concat, counted]

/-- Every stream of the server had its failed read. -/
structure Deaf (threads : Nat) (s : State Score) : Prop where
  reached : (machine Score threads).Reachable s
  ended : threads ≤ s.log.countP isReadFailure

namespace Deaf

variable {threads : Nat} {s : State Score}

/-- There is no connection to come, and no worker has a read in hand. -/
theorem nothing_left (h : Deaf threads s)
    : .connect ∉ s.outstanding
      ∧ .read ∉ s.outstanding
      ∧ ∀ thread, (s.workers thread).willRead = false := by
  obtain ⟨⟨actions, ran⟩, ended⟩ := h
  have known := threadsKnown_of_reachable ⟨actions, ran⟩
  have accounted := accounted_of_run ran
  have reads := accounted.reads
  have connects := accounted.connects
  rw [countP_isReadFailure_of_run ran] at ended
  rw [known.size] at reads connects
  refine ⟨List.count_eq_zero.mp (by omega), List.count_eq_zero.mp (by omega), ?_⟩
  intro thread
  by_contra reading
  have inside : thread < threads := by
    apply known.inside
    intro absent
    simp [absent, WorkerPc.willRead] at reading
  have counted : 0 < tally threads WorkerPc.willRead s.workers :=
    tally_pos_iff.mpr ⟨thread, inside, by simpa using reading⟩
  omega

theorem not_at (h : Deaf threads s) {thread : Nat} {pc : WorkerPc}
    (here : s.workers thread = pc) (reads : pc.willRead = true)
    : False := by
  have none := h.nothing_left.2.2 thread
  rw [here, reads] at none
  cases none

theorem step {next : State Score} (h : Deaf threads s) {action : Action Score}
    (taken : Server.step s action = some next)
    : (Deaf threads next ∧ next.subscription.lastReq = s.subscription.lastReq)
      ∧ GrowsBy Event.Deaf s.log next.log := by
  have step := Step.of_step taken
  have ended : threads ≤ next.log.countP isReadFailure := by
    rw [step.readFailures]
    exact Nat.le_add_right_of_le h.ended
  have later : Deaf threads next := ⟨h.reached.step taken, ended⟩
  cases step with
  | @deliver thread completion _ tag =>
      have other : completion.tag ≠ .connect ∧ completion.tag ≠ .read := by
        constructor <;> intro same <;> rw [same] at tag
        · exact h.nothing_left.1 tag
        · exact h.nothing_left.2.1 tag
      refine ⟨⟨later, ?_⟩, .concat other⟩
      cases completion with
      | read message => exact absurd rfl other.2
      | connect | write | done | finish => rfl
  | accept pc => exact (h.not_at pc rfl).elim
  | read pc => exact (h.not_at pc rfl).elim
  | callback | write | finish => exact ⟨⟨later, rfl⟩, .concat trivial⟩
  | _ => exact ⟨⟨later, rfl⟩, .refl _⟩

end Deaf

-----------------------------------------------------------------------------------------
-- What is left for the writer
-----------------------------------------------------------------------------------------

/-- The writer copies the remembered request. -/
def Action.isCopy : Action Score → Bool
  | .writer .copy => true
  | _ => false

/-- The copies that the flag and the writer's place still stand for. -/
def State.copiesLeft (s : State Score) : Nat :=
  s.subscription.changed.toNat + (decide (s.writer = .copying)).toNat

theorem State.copiesLeft_le (s : State Score) : s.copiesLeft ≤ 2 :=
  Nat.add_le_add (Bool.toNat_le _) (Bool.toNat_le _)

theorem State.copiesLeft_mono {s t : State Score}
    (changed : t.subscription.changed = s.subscription.changed)
    (writer : t.writer = .copying → s.writer = .copying)
    : t.copiesLeft ≤ s.copiesLeft := by
  refine Nat.add_le_add (by rw [changed]) (Bool.toNat_le_toNat ?_)
  exact fun there => decide_eq_true (writer (of_decide_eq_true there))

theorem wake_copying {s : State Score} (there : s.wake = .copying) : s.writer = .copying := by
  rcases wake_eq s with same | ⟨_, testing⟩
  · exact same.symm.trans there
  · rw [testing] at there
    cases there

/-- With no worker to raise the flag, each copy uses one of those that are left. -/
theorem Deaf.copies_step {threads : Nat} {s next : State Score} (h : Deaf threads s)
    {action : Action Score} (taken : Server.step s action = some next)
    : next.copiesLeft + action.isCopy.toNat ≤ s.copiesLeft := by
  cases Step.of_step taken with
  | storeChanged pc => exact (h.not_at pc rfl).elim
  | takeFlag pc changed => simp [State.copiesLeft, State.takeFlag, pc, changed, Action.isCopy]
  | copy pc => simp [State.copiesLeft, State.adopt, pc, Action.isCopy]
  | @deliver thread completion =>
      refine State.copiesLeft_mono ?_ id
      rcases completion with _ | (_ | _) | _ | _ | _ <;> rfl
  | outer => exact State.copiesLeft_mono rfl (by split <;> simp)
  | inner => exact State.copiesLeft_mono rfl (by split <;> simp)
  | notifyOne | notifyAll => exact State.copiesLeft_mono rfl wake_copying
  | start | callback | write | pass | refuse | park | missFlag =>
      exact State.copiesLeft_mono rfl (by simp [State.start])
  | _ => exact Nat.le_refl _

/-- Each connection costs the stream that a worker posted. -/
theorem countP_isConnected_le {threads : Nat} {s : State Score}
    (reached : (machine Score threads).Reachable s)
    : s.log.countP isConnected ≤ threads := by
  obtain ⟨earlier, began⟩ := reached
  have connects := (accounted_of_run began).connects
  rw [(threadsKnown_of_reachable ⟨earlier, began⟩).size] at connects
  rw [countP_isConnected_of_run began]
  omega

/-- What a deaf server does from then on. -/
theorem Deaf.runFrom {threads : Nat} {s final : State Score} (h : Deaf threads s)
    {actions : List (Action Score)}
    (ran : (machine Score threads).runFrom s actions = some final)
    : GrowsBy Event.Deaf s.log final.log
      ∧ .connect ∉ final.outstanding
      ∧ .read ∉ final.outstanding
      ∧ final.subscription.lastReq = s.subscription.lastReq
      ∧ actions.countP Action.isCopy ≤ 2 := by
  obtain ⟨⟨still, kept⟩, grows⟩ := Machine.runFrom_growsBy
    (fun t : State Score => Deaf threads t ∧ t.subscription.lastReq = s.subscription.lastReq)
    State.log
    (fun t _ _ known taken =>
      ⟨⟨(known.1.step taken).1.1, (known.1.step taken).1.2.trans known.2⟩,
        (known.1.step taken).2⟩)
    ⟨h, rfl⟩ ran
  obtain ⟨_, few⟩ := Machine.countP_le_rank (Deaf threads) State.copiesLeft Action.isCopy
    (fun _ _ _ known taken => ⟨(known.step taken).1.1, known.copies_step taken⟩) h ran
  have bound := s.copiesLeft_le
  exact ⟨grows, still.nothing_left.1, still.nothing_left.2.1, kept, by omega⟩

/-- A server never has more connections than workers. Once as many reads have failed, the rest
of every run delivers no connection and no read, starts no read and accepts no request: the
remembered request stays what it is, and the writer copies it at most twice more.
-/
theorem deaf_after_last_read {threads : Nat} {s : State Score}
    (reached : (machine Score threads).Reachable s)
    : s.log.countP isConnected ≤ threads
      ∧ (threads ≤ s.log.countP isReadFailure
        → ∀ actions final,
            (machine Score threads).runFrom s actions = some final
            → GrowsBy Event.Deaf s.log final.log
              ∧ .connect ∉ final.outstanding
              ∧ .read ∉ final.outstanding
              ∧ final.subscription.lastReq = s.subscription.lastReq
              ∧ actions.countP Action.isCopy ≤ 2) :=
  ⟨countP_isConnected_le reached,
    fun ended _ _ ran => (show Deaf threads s from ⟨reached, ended⟩).runFrom ran⟩

/-- A stream that is closed after its first request, and the writer that goes on. -/
def closedStream : List (Action Rat) :=
  [.start, .worker 0 .post, .worker 0 .loop, .worker 0 (.deliver (.connect true)),
    .worker 0 .read, .worker 0 .loop,
    .worker 0 (.deliver (.read (some { pollingPeriod := 5, sports := ["football"] }))),
    .worker 0 .checkRequest, .worker 0 .storeChanged, .worker 0 .notifyOne, .worker 0 .read,
    .worker 0 .loop, .worker 0 (.deliver (.read none))]

def unheardWrites : List (Action Rat) :=
  [.writer .outer, .writer .test, .writer .inner, .writer .exchange, .writer .copy,
    .writer (.callback [("football", 3)]), .writer .write, .writer .inner, .writer .exchange,
    .writer (.callback [("football", 1)]), .writer .write]

theorem deaf_after_last_read_closedStream
    : ∃ s final,
        (machine Rat 1).run closedStream = some s
        ∧ s.log.countP isConnected ≤ 1
        ∧ s.log.countP isReadFailure = 1
        ∧ (machine Rat 1).runFrom s unheardWrites = some final
        ∧ final.subscription.lastReq = { pollingPeriod := 5, sports := ["football"] }
        ∧ GrowsBy Event.Deaf s.log final.log
        ∧ .read ∉ final.outstanding := by
  obtain ⟨few, deaf⟩ :=
    deaf_after_last_read (show (machine Rat 1).Reachable _ from ⟨closedStream, rfl⟩)
  obtain ⟨grows, _, unread, kept, _⟩ :=
    deaf (Nat.le_refl 1) unheardWrites _ rfl
  exact ⟨_, _, rfl, few, rfl, rfl, kept, grows, unread⟩

end RVision.Rpc.Server
