import RVision.Rpc.Server.Shutdown
import RVision.Transition.Futures

/-! Whether a call of `stop` gets past its wait for the writer. It notifies the writer once, after
both calls of `Shutdown`, and then joins it. A writer that blocks after the notification is
waited for in vain.
-/

namespace RVision.Rpc.Server

open Transition

variable {Score : Type}

/-- No request of the client is delivered. -/
def Action.Quiet : Action Score → Prop
  | .worker _ (.deliver (.read (some _))) => False
  | _ => True

/-- `stop` has been called and has not crashed. -/
def StopPc.Called : StopPc → Prop
  | .idle | .crashed => False
  | _ => True

/-- The writer sleeps, or is about to, and `stop` has made its one notification. -/
def Asleep (s : State Score) : Prop :=
  s.stopper = .joinWriter ∧ (s.writer = .parking ∨ s.writer = .parked)

/-- A worker is on its way to a notification of the writer. -/
def Notifies (s : State Score) (pc : WorkerPc) : Prop :=
  pc = .storing
  ∨ pc = .notifying
  ∨ (pc = .checking
    ∧ Subscription.Differs s.subscription.lastReq s.subscription.request)

/-- The writer sleeps and no worker is on its way to wake it. -/
def Stranded (s : State Score) : Prop :=
  Asleep s ∧ ∀ thread, ¬ Notifies s (s.workers thread)

-----------------------------------------------------------------------------------------
-- Where `stop` stands in every run
-----------------------------------------------------------------------------------------

/-- What the places of `stop` and of the threads say about each other. -/
structure StopPlaces (s : State Score) : Prop where
  shutdown : s.stopper.Called → s.shutdown = true
  writer : s.built = true → s.writer ≠ .absent
  workers : s.built = true → ∀ thread < s.threads, s.workers thread ≠ .absent

section Places

variable {s next : State Score} {action : Action Score}

theorem awake_ne_absent (there : s.writer ≠ .absent)
    (writer : next.writer = s.writer ∨ next.writer = s.wake)
    : next.writer ≠ .absent := by
  rcases writer with same | woken
  · rwa [same]
  · rcases wake_eq s with same | ⟨_, testing⟩
    · rwa [woken, same]
    · simp [woken, testing]

/-- A worker moves to a place of `process`, and may wake the writer. -/
theorem StopPlaces.worker (h : StopPlaces s) {thread : Nat} {pc : WorkerPc}
    (workers : next.workers = Function.update s.workers thread pc) (present : pc ≠ .absent)
    (same : next.lifecycle = s.lifecycle) (threads : next.threads = s.threads)
    (writer : next.writer = s.writer ∨ next.writer = s.wake)
    : StopPlaces next := by
  simp only [State.lifecycle, Prod.mk.injEq] at same
  obtain ⟨stopper, built, shutdown, _⟩ := same
  refine ⟨?_, ?_, ?_⟩
  · rw [stopper, shutdown]
    exact h.shutdown
  · rw [built]
    exact fun built => awake_ne_absent (h.writer built) writer
  · rw [built, threads, workers]
    intro built other inside
    by_cases here : other = thread
    · rwa [here, Function.update_self]
    · rw [Function.update_of_ne here]
      exact h.workers built other inside

/-- The writer moves to a place of `write`. -/
theorem StopPlaces.writes (h : StopPlaces s) (same : next.lifecycle = s.lifecycle)
    (threads : next.threads = s.threads) (workers : next.workers = s.workers)
    (present : next.writer ≠ .absent)
    : StopPlaces next := by
  simp only [State.lifecycle, Prod.mk.injEq] at same
  obtain ⟨stopper, built, shutdown, _⟩ := same
  refine ⟨?_, fun _ => present, ?_⟩
  · rw [stopper, shutdown]
    exact h.shutdown
  · rw [built, threads, workers]
    exact h.workers

theorem dispatch_ne_absent (s : State Score) (completion : Completion)
    : s.dispatch completion ≠ .absent := by
  rcases completion with (_ | _) | (_ | _) | (_ | _) | _ | _ <;> simp only [State.dispatch]
  case read.none => split <;> simp
  all_goals simp

/-- `stop` moves on. -/
theorem StopPlaces.stops (h : StopPlaces s) (shutdown : next.shutdown = true)
    (same : next.built = s.built ∧ next.threads = s.threads ∧ next.workers = s.workers)
    (writer : next.writer = s.writer ∨ next.writer = s.wake)
    : StopPlaces next := by
  obtain ⟨built, threads, workers⟩ := same
  refine ⟨fun _ => shutdown, ?_, ?_⟩
  · rw [built]
    exact fun built => awake_ne_absent (h.writer built) writer
  · rw [built, threads, workers]
    exact h.workers

theorem StopPlaces.step (h : StopPlaces s) (taken : Step s action next) : StopPlaces next := by
  cases taken with
  | start fresh idle =>
      refine ⟨?_, by simp [State.start], ?_⟩
      · simp [State.start, idle, StopPc.Called]
      · intro _ thread inside
        have inside : thread < s.threads := inside
        simp [State.start, inside]
  | cancel => exact ⟨h.shutdown, h.writer, h.workers⟩
  | post => exact h.worker rfl (by simp) rfl rfl (.inl rfl)
  | loop => exact h.worker rfl (by split <;> simp) rfl rfl (.inl rfl)
  | deliver => exact h.worker rfl (dispatch_ne_absent s _) rfl rfl (.inl rfl)
  | queueEnd | accept | reject | storeChanged | read | finish =>
      exact h.worker rfl (by simp) rfl rfl (.inl rfl)
  | notifyOne => exact h.worker rfl (by simp) rfl rfl (.inr rfl)
  | outer => exact h.writes rfl rfl rfl (by split <;> simp)
  | inner => exact h.writes rfl rfl rfl (by split <;> simp)
  | pass | refuse | park | takeFlag | missFlag | copy | callback | write =>
      exact h.writes rfl rfl rfl (by simp)
  | store => exact h.stops rfl ⟨rfl, rfl, rfl⟩ (.inl rfl)
  | notifyAll pc =>
      exact h.stops (h.shutdown (by simp [pc, StopPc.Called])) ⟨rfl, rfl, rfl⟩ (.inr rfl)
  | shutdownServer pc | shutdownQueue pc | joinCrash pc | joinWriter pc | joinedAll pc
  | joinWorker pc | drain pc | drained pc =>
      exact h.stops (h.shutdown (by simp [pc, StopPc.Called])) ⟨rfl, rfl, rfl⟩ (.inl rfl)

theorem stopPlaces_of_reachable {threads : Nat} (reached : (machine Score threads).Reachable s)
    : StopPlaces s := by
  refine reached.invariant (motive := StopPlaces) ?_ ?_
  · constructor <;> simp [machine, StopPc.Called]
  · exact fun _ _ _ _ known taken => known.step (.of_step taken)

-----------------------------------------------------------------------------------------
-- A stranded call never joins the writer
-----------------------------------------------------------------------------------------

/-- The workers that move without having read a request bring no notification. -/
theorem Stranded.worker (h : Stranded s) {thread : Nat} {pc : WorkerPc}
    (workers : next.workers = Function.update s.workers thread pc)
    (silent : ¬ Notifies s pc) (stopper : next.stopper = s.stopper)
    (writer : next.writer = s.writer) (subscription : next.subscription = s.subscription)
    : Stranded next := by
  refine ⟨⟨stopper.trans h.1.1, by rw [writer]; exact h.1.2⟩, ?_⟩
  rw [workers]
  simp only [Notifies, subscription]
  exact forall_pc_update (fun pc => ¬ Notifies s pc) h.2 silent

theorem dispatch_of_quiet {thread : Nat} {completion : Completion}
    (quiet : (Action.worker thread (.deliver completion) : Action Score).Quiet)
    : ¬ Notifies s (s.dispatch completion) ∧ s.received completion = s.subscription := by
  refine ⟨?_, ?_⟩
  · rcases completion with (_ | _) | (_ | _) | (_ | _) | _ | _
    case read.some => exact quiet.elim
    case read.none => simp only [State.dispatch]; split <;> simp [Notifies]
    all_goals simp [State.dispatch, Notifies]
  · rcases completion with _ | (_ | _) | _ | _ | _
    case read.some => exact quiet.elim
    all_goals rfl

theorem Stranded.step (h : Stranded s) (joinable : s.writerJoinable = true)
    (quiet : action.Quiet) (taken : Step s action next)
    : Stranded next ∧ next.writerJoinable = true := by
  obtain ⟨⟨joining, sleeping⟩, silent⟩ := id h
  cases taken with
  | start _ idle => rw [joining] at idle; cases idle
  | cancel => exact ⟨h, joinable⟩
  | post => exact ⟨h.worker rfl (by simp [Notifies]) rfl rfl rfl, joinable⟩
  | loop => exact ⟨h.worker rfl (by split <;> simp [Notifies]) rfl rfl rfl, joinable⟩
  | @deliver thread completion =>
      obtain ⟨other, kept⟩ := dispatch_of_quiet quiet
      exact ⟨h.worker rfl other rfl rfl kept, joinable⟩
  | queueEnd | reject | read | finish =>
      exact ⟨h.worker rfl (by simp [Notifies]) rfl rfl rfl, joinable⟩
  | @accept thread pc differs => exact absurd (.inr (.inr ⟨pc, differs⟩)) (silent thread)
  | @storeChanged thread pc => exact absurd (.inl pc) (silent thread)
  | @notifyOne thread pc => exact absurd (.inr (.inl pc)) (silent thread)
  | park pc => exact ⟨⟨⟨joining, .inr rfl⟩, silent⟩, joinable⟩
  | outer pc | pass pc | refuse pc | inner pc | takeFlag pc | missFlag pc | copy pc
  | callback pc | write pc => rw [pc] at sleeping; simp at sleeping
  | store pc | shutdownServer pc | shutdownQueue pc | notifyAll pc | joinedAll pc
  | joinWorker pc | drain pc | drained pc => rw [joining] at pc; simp at pc
  | joinCrash _ joined => rw [joinable] at joined; cases joined
  | joinWriter _ exited => rw [exited] at sleeping; simp at sleeping

end Places

-----------------------------------------------------------------------------------------
-- Any other call can join it
-----------------------------------------------------------------------------------------

/-- Without another request the writer can be joined. -/
def JoinsWriter (threads : Nat) (s : State Score) : Prop :=
  (machine Score threads).Leads Action.Quiet s (fun later => later.stopper = .joinWorkers 0)

theorem JoinsWriter.of_step {threads : Nat} {s next : State Score} {action : Action Score}
    (taken : Server.step s action = some next) (quiet : action.Quiet)
    (h : JoinsWriter threads next)
    : JoinsWriter threads s :=
  Machine.Leads.next quiet taken h

/-- A first call of `stop` on a started server that has still to join a writer. Both calls of
`Shutdown` have returned.
-/
structure JoinsNext (threads : Nat) (s : State Score) : Prop where
  reached : (machine Score threads).Reachable s
  built : s.built = true
  place : s.stopper = .notify ∨ s.stopper = .joinWriter
  joinable : s.writerJoinable = true

/-- The steps of a writer that is awake until it leaves its loop, once the flag is set. -/
def WriterPc.rank : WriterPc → Nat
  | .absent | .parking | .parked | .exited => 0
  | .outer => 1
  | .inner => 2
  | .testing | .writing => 3
  | .calling _ => 4
  | .copying => 5
  | .exchanging => 6

theorem WriterPc.rank_le (pc : WriterPc) : pc.rank ≤ 6 := by cases pc <;> simp [rank]

/-- The steps until the writer has left its loop, with the notification before them and the
block of a writer that is about to before that.
-/
def State.rank (s : State Score) : Nat :=
  if s.stopper = .notify then
    7 + (decide (s.writer = .parking)).toNat
  else
    s.writer.rank

section JoinsNext

variable {threads : Nat} {s next : State Score} {action : Action Score}

theorem JoinsNext.move (h : JoinsNext threads s) (taken : Server.step s action = some next)
    (place : next.stopper = .notify ∨ next.stopper = .joinWriter)
    (joinable : next.writerJoinable = s.writerJoinable)
    : JoinsNext threads next :=
  ⟨h.reached.step taken, (Step.of_step taken).built_mono h.built, place,
    joinable.trans h.joinable⟩

theorem JoinsNext.shutdown (h : JoinsNext threads s) : s.shutdown = true := by
  refine (stopPlaces_of_reachable h.reached).shutdown ?_
  rcases h.place with place | place <;> simp [place, StopPc.Called]

/-- Some step brings the writer closer to its end, and it is awake after it. -/
def Advances (threads : Nat) (s : State Score) : Prop :=
  ∃ action next,
    Action.Quiet action
    ∧ Server.step s action = some next
    ∧ (JoinsNext threads next ∧ ¬ Asleep next)
    ∧ next.rank < s.rank

/-- The writer that `stop` waits for makes a step. -/
theorem JoinsNext.writes (h : JoinsNext threads s) (pc : s.stopper = .joinWriter)
    (action : WriterAction Score) (taken : writerStep s action = some next)
    (same : next.stopper = s.stopper ∧ next.writerJoinable = s.writerJoinable)
    (awake : next.writer ≠ .parking ∧ next.writer ≠ .parked)
    (smaller : next.writer.rank < s.writer.rank)
    : Advances threads s := by
  obtain ⟨stopper, joinable⟩ := same
  rw [pc] at stopper
  have moved : Server.step s (.writer action) = some next := taken
  refine ⟨.writer action, next, trivial, moved, ⟨h.move moved (.inr stopper) joinable, ?_⟩, ?_⟩
  · exact fun asleep => asleep.2.elim awake.1 awake.2
  · simpa [State.rank, stopper, pc] using smaller

theorem JoinsNext.joinWriter (h : JoinsNext threads s) (pc : s.stopper = .joinWriter)
    (awake : ¬ Asleep s)
    : s.writer = .exited ∨ Advances threads s := by
  have set := h.shutdown
  cases place : s.writer with
  | absent => exact absurd place ((stopPlaces_of_reachable h.reached).writer h.built)
  | parking => exact absurd ⟨pc, .inl place⟩ awake
  | parked => exact absurd ⟨pc, .inr place⟩ awake
  | exited => exact .inl rfl
  | outer =>
      refine .inr (h.writes pc .outer (if_pos place) ⟨rfl, rfl⟩ ?_ ?_)
      · simp [set]
      · simp [set, place, WriterPc.rank]
  | testing =>
      have taken : writerStep s .test
          = some { s with writer := .inner, sports := [], period := 0 } := by
        simp [writerStep, place, State.test, set]
      exact .inr (h.writes pc .test taken ⟨rfl, rfl⟩ (by simp) (by simp [place, WriterPc.rank]))
  | inner =>
      refine .inr (h.writes pc .inner (if_pos place) ⟨rfl, rfl⟩ ?_ ?_)
      · simp [set]
      · simp [set, place, WriterPc.rank]
  | exchanging =>
      obtain ⟨next, taken⟩ : ∃ next, writerStep s .exchange = some next := ⟨_, if_pos place⟩
      cases Step.of_writerStep taken with
      | takeFlag | missFlag =>
          exact .inr (h.writes pc .exchange taken ⟨rfl, rfl⟩ (by simp)
            (by simp [place, WriterPc.rank]))
  | copying =>
      exact .inr (h.writes pc .copy (if_pos place) ⟨rfl, rfl⟩ (by simp [State.copy])
        (by simp [State.copy, place, WriterPc.rank]))
  | calling changed =>
      have taken : writerStep s (.callback []) = some (s.callback changed []) := by
        simp [writerStep, place]
      exact .inr (h.writes pc (.callback []) taken ⟨rfl, rfl⟩ (by simp)
        (by simp [place, WriterPc.rank]))
  | writing =>
      exact .inr (h.writes pc .write (if_pos place) ⟨rfl, rfl⟩ (by simp)
        (by simp [place, WriterPc.rank]))

/-- The notification reaches a writer that has blocked, so one that is about to comes first. -/
theorem JoinsNext.notify (h : JoinsNext threads s) (pc : s.stopper = .notify)
    : Advances threads s := by
  by_cases parking : s.writer = .parking
  · have taken : Server.step s (.writer .park) = some { s with writer := .parked } :=
      if_pos parking
    refine ⟨.writer .park, _, trivial, taken, ⟨h.move taken (.inl pc) rfl, ?_⟩, ?_⟩
    · simp [pc, Asleep]
    · simp [State.rank, pc, parking]
  · have taken : Server.step s (.stop .notifyAll)
        = some { s with writer := s.wake, stopper := .joinWriter } := if_pos pc
    refine ⟨.stop .notifyAll, _, trivial, taken, ⟨h.move taken (.inr rfl) rfl, ?_⟩, ?_⟩
    · rintro ⟨_, sleeping⟩
      simp only [State.wake] at sleeping
      split_ifs at sleeping with parked
      · simp at sleeping
      · exact sleeping.elim parking parked
    · have small := s.wake.rank_le
      simp only [State.rank, pc, reduceCtorEq, if_false, if_true]
      omega

end JoinsNext

section Asleep

variable {threads : Nat} {s : State Score} {thread : Nat}

end Asleep

-----------------------------------------------------------------------------------------
-- When `stop` can join the writer
-----------------------------------------------------------------------------------------

end RVision.Rpc.Server
