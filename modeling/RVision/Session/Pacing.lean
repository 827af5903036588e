import Mathlib.Algebra.Ring.Rat
import RVision.Rpc.Server.Periods
import RVision.Session.Served

/-! The sleep of the writer in a session. The writer sleeps once in every iteration, before it
calls the callback; the session does not show it, so it is a step of its own here. The period
is that of a call of the client, and nothing on its way checks it.
-/

namespace RVision.Session

open Transition
open RVision.Rpc
open RVision.Lines.Provider

/-- A session, the sleep of the writer's running iteration, and those of its earlier
iterations, oldest first.
-/
structure PacedState (Score : Type) where
  session : State Score
  slept : Option Int64 := none
  sleeps : List Int64 := []

inductive PacedAction (Score : Type)
  | session (action : Action Score)
  /-- `std::this_thread::sleep_for(_poll)`. -/
  | sleep
deriving DecidableEq

variable {Score : Type}

namespace PacedState

/-- The call of the callback comes after the sleep. -/
def Rested (s : PacedState Score) : Action Score → Prop
  | .fetch | .server (.writer (.callback _)) => s.slept.isSome = true
  | _ => True

instance (s : PacedState Score) (action : Action Score) : Decidable (s.Rested action) := by
  unfold Rested
  split <;> infer_instance

/-- A callback that returns ends the iteration. -/
def follow (s : PacedState Score) (action : Action Score) (session : State Score)
    : PacedState Score :=
  match action with
  | .server (.writer (.callback _)) =>
      { session, slept := none, sleeps := s.sleeps ++ s.slept.toList }
  | _ => { s with session }

theorem follow_of_ne (s : PacedState Score) {action : Action Score}
    (other : ∀ lines, action ≠ .server (.writer (.callback lines))) (session : State Score)
    : s.follow action session = { s with session } := by
  unfold follow
  split
  · exact absurd rfl (other _)
  · rfl

theorem of_not_rested {s : PacedState Score} {action : Action Score} (h : ¬ s.Rested action)
    : s.slept = none
      ∧ (action = .fetch ∨ ∃ lines, action = .server (.writer (.callback lines))) := by
  unfold Rested at h
  split at h
  next => exact ⟨by simpa using h, Or.inl rfl⟩
  next lines => exact ⟨by simpa using h, Or.inr ⟨lines, rfl⟩⟩
  next => exact absurd trivial h

end PacedState

section Machine

variable [DecidableEq Score] [Zero Score] [Sub Score]

def pacedStep (s : PacedState Score) : PacedAction Score → Option (PacedState Score)
  | .session action =>
      if s.Rested action then (step s.session action).map (s.follow action) else none
  | .sleep =>
      match s.session.server.writer, s.slept with
      | .calling _, none =>
          some { s with slept := some (Server.seconds s.session.server.period) }
      | _, _ => none

variable (Score)

def pacedMachine (threads : Nat) (sports : List String)
    : Machine (PacedState Score) (PacedAction Score) where
  init := { session := (machine Score threads sports).init }
  step := pacedStep

end Machine

-----------------------------------------------------------------------------------------
-- What one step does
-----------------------------------------------------------------------------------------

section Steps

variable [DecidableEq Score] [Zero Score] [Sub Score] {threads : Nat} {sports : List String}
  {s next : PacedState Score} {action : PacedAction Score}

/-- The transitions with their guards. -/
inductive PacedStep (s : PacedState Score) : PacedAction Score → PacedState Score → Prop
  | sleep {changed : Bool} (pc : s.session.server.writer = .calling changed)
    (awake : s.slept = none)
    : PacedStep s .sleep { s with slept := some (Server.seconds s.session.server.period) }
  | callback {lines : List (String × Score)} {session : State Score} {duration : Int64}
    (slept : s.slept = some duration)
    (taken : step s.session (.server (.writer (.callback lines))) = some session)
    : PacedStep s (.session (.server (.writer (.callback lines))))
        { session, slept := none, sleeps := s.sleeps ++ [duration] }
  | session {action : Action Score} {session : State Score} (rested : s.Rested action)
    (other : ∀ lines, action ≠ .server (.writer (.callback lines)))
    (taken : step s.session action = some session)
    : PacedStep s (.session action) { s with session }

theorem PacedStep.of_step (taken : pacedStep s action = some next)
    : PacedStep s action next := by
  cases action with
  | sleep =>
      simp only [pacedStep] at taken
      split at taken
      next changed pc awake => exact Option.some.inj taken ▸ .sleep pc awake
      next => cases taken
  | session action =>
      obtain ⟨rested, mapped⟩ := Option.ite_none_right_eq_some.mp taken
      obtain ⟨session, moved, rfl⟩ := Option.map_eq_some_iff.mp mapped
      by_cases callback : ∃ lines, action = .server (.writer (.callback lines))
      · obtain ⟨lines, rfl⟩ := callback
        obtain ⟨duration, slept⟩ := Option.isSome_iff_exists.mp rested
        have ends : s.follow (.server (.writer (.callback lines))) session
            = { session, slept := none, sleeps := s.sleeps ++ [duration] } := by
          simp [PacedState.follow, slept]
        exact ends ▸ .callback slept moved
      · have other (lines : List (String × Score))
            : action ≠ .server (.writer (.callback lines)) :=
          fun same => callback ⟨lines, same⟩
        rw [s.follow_of_ne other]
        exact .session rested other moved

/-- Without its sleeps it is a session. -/
theorem session_reachable (reached : (pacedMachine Score threads sports).Reachable s)
    : (machine Score threads sports).Reachable s.session := by
  refine reached.project PacedState.session Machine.reachable_init ?_
  intro s action next taken
  cases PacedStep.of_step taken with
  | sleep _ _ => exact Or.inl rfl
  | @callback lines _ _ _ moved => exact Or.inr ⟨.server (.writer (.callback lines)), moved⟩
  | @session action _ _ _ moved => exact Or.inr ⟨action, moved⟩

/-- The writer that calls the callback, or begins to, is the one that can sleep before it. -/
theorem calling_of_step {session after : State Score} {action : Action Score}
    (taken : step session action = some after)
    (calls : action = .fetch ∨ ∃ lines, action = .server (.writer (.callback lines)))
    : ∃ changed, session.server.writer = .calling changed := by
  rcases calls with rfl | ⟨lines, rfl⟩
  · simp only [step] at taken
    split at taken
    next changed pc idle => exact ⟨changed, pc⟩
    next => cases taken
  · obtain ⟨_, mapped⟩ := Option.ite_none_right_eq_some.mp taken
    obtain ⟨server, moved, -⟩ := Option.map_eq_some_iff.mp mapped
    cases Server.Step.of_step moved with
    | @callback changed _ pc => exact ⟨changed, pc⟩

theorem PacedState.Rested.follows {action : Action Score} (h : s.Rested action)
    (reached : (pacedMachine Score threads sports).Reachable s) {after : State Score}
    (taken : step s.session action = some after)
    : ∃ next, (pacedMachine Score threads sports).Reachable next ∧ next.session = after := by
  have followed : (pacedMachine Score threads sports).step s (.session action)
      = some (s.follow action after) := by
    simp [pacedMachine, pacedStep, h, taken]
  refine ⟨s.follow action after, reached.step followed, ?_⟩
  unfold PacedState.follow
  split <;> rfl

/-- Every session is one without its sleeps: where the next action needs a sleep, the writer
can take it.
-/
theorem exists_paced {session : State Score}
    (reached : (machine Score threads sports).Reachable session)
    : ∃ s, (pacedMachine Score threads sports).Reachable s ∧ s.session = session := by
  apply reached.invariant
    (motive := fun session =>
      ∃ s, (pacedMachine Score threads sports).Reachable s ∧ s.session = session)
  · exact ⟨_, Machine.reachable_init, rfl⟩
  · intro session action after _ known taken
    obtain ⟨s, reached, rfl⟩ := known
    by_cases rested : s.Rested action
    · exact rested.follows reached taken
    · obtain ⟨awake, calls⟩ := PacedState.of_not_rested rested
      obtain ⟨changed, pc⟩ := calling_of_step taken calls
      have sleeps : (pacedMachine Score threads sports).step s .sleep
          = some { s with slept := some (Server.seconds s.session.server.period) } := by
        simp [pacedMachine, pacedStep, pc, awake]
      have now : PacedState.Rested
          { s with slept := some (Server.seconds s.session.server.period) } action := by
        rcases calls with rfl | ⟨lines, rfl⟩ <;> rfl
      exact now.follows (reached.step sleeps) taken

-----------------------------------------------------------------------------------------
-- One sleep for each response
-----------------------------------------------------------------------------------------

/-- Each call of the callback was preceded by a sleep for the period it has noted. -/
structure Paced (s : PacedState Score) : Prop where
  asleep
    : ∀ duration,
        s.slept = some duration
        → (∃ changed, s.session.server.writer = .calling changed)
          ∧ duration = Server.seconds s.session.server.period
  before
    : s.sleeps
      = (Server.invocations s.session.server.log).map
          (fun invocation => Server.seconds invocation.period)

/-- Only the writer's callback ends its iteration. -/
theorem session_calling_kept {session after : State Score} {action : Action Score}
    (built : session.server.built = true) (taken : step session action = some after)
    (other : ∀ lines, action ≠ .server (.writer (.callback lines)))
    : Server.invocations after.server.log = Server.invocations session.server.log
      ∧ ∀ changed,
          session.server.writer = .calling changed
          → after.server.writer = .calling changed
            ∧ after.server.period = session.server.period := by
  rcases step_cases taken with ⟨_, _, _, _, _, rfl⟩ | ⟨act, server, rfl, _, moved, rfl⟩ | same
  · exact ⟨rfl, fun _ pc => ⟨pc, rfl⟩⟩
  · have inner (lines : List (String × Score)) : act ≠ .writer (.callback lines) :=
      fun same => other lines (congrArg Action.server same)
    have move := Server.Step.of_step moved
    refine ⟨move.invocations_eq inner, ?_⟩
    intro changed pc
    obtain ⟨stays, _, period⟩ := move.calling_kept inner pc built
    exact ⟨stays, period⟩
  · rw [same.2]
    exact ⟨rfl, fun _ pc => ⟨pc, rfl⟩⟩

theorem Paced.step (h : Paced s) (built : s.session.server.built = true)
    (taken : PacedStep s action next)
    : Paced next := by
  cases taken with
  | @sleep changed pc _ =>
      refine ⟨?_, h.before⟩
      intro duration slept
      exact ⟨⟨changed, pc⟩, (Option.some.inj slept).symm⟩
  | @callback lines session duration slept taken =>
      refine ⟨by simp, ?_⟩
      obtain ⟨_, period⟩ := h.asleep duration slept
      obtain ⟨_, mapped⟩ := Option.ite_none_right_eq_some.mp taken
      obtain ⟨server, moved, rfl⟩ := Option.map_eq_some_iff.mp mapped
      cases Server.Step.of_step moved with
      | @callback changed _ pc =>
          simp only [Server.invocations_callback, List.map_append, List.map_singleton]
          rw [← h.before, period]
  | session _ other moved =>
      obtain ⟨same, kept⟩ := session_calling_kept built moved other
      refine ⟨?_, by rw [same]; exact h.before⟩
      intro duration slept
      obtain ⟨⟨changed, pc⟩, period⟩ := h.asleep duration slept
      obtain ⟨stays, unchanged⟩ := kept changed pc
      exact ⟨⟨changed, stays⟩, period.trans (congrArg Server.seconds unchanged.symm)⟩

theorem paced_of_reachable (reached : (pacedMachine Score threads sports).Reachable s)
    : Paced s := by
  apply reached.invariant (motive := Paced)
  · exact ⟨by simp [pacedMachine], rfl⟩
  · intro s action next before known taken
    exact known.step (served_of_reachable (session_reachable before)).built (.of_step taken)

-----------------------------------------------------------------------------------------
-- The period that was asked for
-----------------------------------------------------------------------------------------

/-- What the server accepts is what a call has asked for. -/
theorem mem_pushedCalls_of_accepted {session : State Score}
    (reached : (machine Score threads sports).Reachable session) {message : SportsLinesRequest}
    (accepted : message ∈ Server.acceptedMessages session.server.log)
    : (message.pollingPeriod, message.sports) ∈ Client.pushedCalls session.client.log := by
  have channels := channels_of_reachable reached
  obtain ⟨checked, order⟩ :=
    Server.exists_inOrder (server_reachable reached) channels.connection
  have written := channels.requests.mem (order.mem_delivered accepted)
  have streams := Client.MessageStreams.invariant (client_reachable reached)
  rw [← streams.requests]
  exact List.mem_append_left _ (List.mem_map.mpr ⟨message, written, rfl⟩)

/-- The response at `index` is one to `call`: the callback was called for its period and its
sports, after a sleep for `duration`.
-/
structure Answers (s : PacedState Score) (index : Nat) (call : Client.Call)
    (duration : Int64)
    : Prop where
  pushed : call ∈ Client.pushedCalls s.session.client.log
  invoked
    : ∃ invocation,
        (Server.invocations s.session.server.log)[index]? = some invocation
        ∧ (invocation.period, invocation.sports) = call
  slept : s.sleeps[index]? = some duration

/-- The duration is the number of seconds that was asked for, and a positive one is waited
for.
-/
structure Honours (duration : Int64) (period : UInt64) : Prop where
  exactly : duration.toInt = period.toNat
  waits : 0 < period → 0 < Server.sleepFor duration

theorem honours_seconds_iff (period : UInt64)
    : Honours (Server.seconds period) period ↔ period.toNat < 2 ^ 63 := by
  constructor
  · intro honours
    by_contra large
    have exactly := honours.exactly
    rw [Server.toInt_seconds, if_neg large] at exactly
    omega
  · intro small
    refine ⟨by rw [Server.toInt_seconds, if_pos small], ?_⟩
    rw [Server.sleepFor_seconds, if_pos small]
    exact UInt64.lt_iff_toNat_lt.mp

omit [DecidableEq Score] [Zero Score] [Sub Score] in
theorem Answers.duration_eq {index : Nat} {call : Client.Call} {duration : Int64}
    (h : Answers s index call duration) (paced : Paced s)
    : duration = Server.seconds call.1 := by
  obtain ⟨invocation, found, rfl⟩ := h.invoked
  have slept := h.slept
  rw [paced.before, List.getElem?_map, found] at slept
  exact (Option.some.inj slept).symm

theorem exists_answers (reached : (pacedMachine Score threads sports).Reachable s) {index : Nat}
    (written : index < (Server.writtenResponses s.session.server.log).length)
    : ∃ call duration, Answers s index call duration := by
  have session := session_reachable reached
  have server := server_reachable session
  have inside : index < (Server.invocations s.session.server.log).length := by
    have lengths := congrArg List.length (Server.produced_of_reachable server).responses
    rw [List.length_map, List.length_append] at lengths
    omega
  obtain ⟨invocation, found⟩
      : ∃ invocation, (Server.invocations s.session.server.log)[index]? = some invocation :=
    ⟨_, List.getElem?_eq_getElem inside⟩
  have accepted := (Server.attributed_of_reachable server).accepted (List.mem_of_getElem? found)
  have slept : s.sleeps[index]? = some (Server.seconds invocation.period) := by
    rw [(paced_of_reachable reached).before, List.getElem?_map, found]
    rfl
  exact ⟨(invocation.period, invocation.sports), _,
    mem_pushedCalls_of_accepted session accepted, ⟨invocation, found, rfl⟩, slept⟩

/-- Every response is one to a call of the client, and the writer has slept for the period of
that call before it exactly where the period is below 2^63. For a larger one it does not sleep
at all.
-/
theorem honours_period_iff (reached : (pacedMachine Score threads sports).Reachable s)
    : (∀ index < (Server.writtenResponses s.session.server.log).length,
        ∃ call duration, Answers s index call duration)
      ∧ ∀ index call duration,
          Answers s index call duration
          → (Honours duration call.1 ↔ call.1.toNat < 2 ^ 63)
            ∧ (2 ^ 63 ≤ call.1.toNat → Server.sleepFor duration = 0) := by
  refine ⟨fun index written => exists_answers reached written, ?_⟩
  intro index call duration answers
  rw [answers.duration_eq (paced_of_reachable reached)]
  refine ⟨honours_seconds_iff call.1, ?_⟩
  intro large
  rw [Server.sleepFor_seconds, if_neg (by omega)]

end Steps

/-- A call for football at `period`, up to the second response that the server writes for
it.
-/
def twoResponses (period : UInt64) : List (PacedAction Rat) :=
  [.session (.client (.push 0 (period, ["football"]))), .session (.client (.exchange 0)),
    .session (.client (.startCall 0)), .session (.client .loop),
    .session (.client .enter), .session (.client (.deliver (.start true))),
    .session (.server (.worker 0 .post)), .session (.server (.worker 0 .loop)),
    .session (.server (.worker 0 (.deliver (.connect true)))),
    .session (.server (.worker 0 .read)), .session (.server (.worker 0 .loop)),
    .session (.server (.worker 0 (.deliver
      (.read (some { pollingPeriod := period, sports := ["football"] }))))),
    .session (.server (.worker 0 .checkRequest)),
    .session (.server (.worker 0 .storeChanged)), .session (.server (.writer .outer)),
    .session (.server (.writer .test)), .session (.server (.writer .inner)),
    .session (.server (.writer .exchange)), .session (.server (.writer .copy)), .sleep,
    .session .fetch, .session .line,
    .session (.server (.writer (.callback [("football", 0)]))),
    .session (.server (.writer .write)), .session (.server (.writer .inner)),
    .session (.server (.writer .exchange)), .sleep, .session .fetch, .session .line,
    .session (.server (.writer (.callback [("football", 0)]))),
    .session (.server (.writer .write))]

/-- The calls of the client, what the callback was called for, and the sleeps before it. -/
def pacing (s : PacedState Rat) : List Client.Call × List Client.Call × List Int64 :=
  (Client.pushedCalls s.session.client.log,
    (Server.invocations s.session.server.log).map
      (fun invocation => (invocation.period, invocation.sports)),
    s.sleeps)

theorem answers_of_pacing {s : PacedState Rat} {calls served : List Client.Call}
    {sleeps : List Int64} (seen : pacing s = (calls, served, sleeps)) {index : Nat}
    {call : Client.Call} {duration : Int64} (pushed : call ∈ calls)
    (called : served[index]? = some call) (slept : sleeps[index]? = some duration)
    : Answers s index call duration := by
  obtain ⟨rfl, rest⟩ := Prod.mk.inj seen
  obtain ⟨rfl, rfl⟩ := Prod.mk.inj rest
  rw [List.getElem?_map, Option.map_eq_some_iff] at called
  exact ⟨pushed, called, slept⟩

theorem honours_period_twoResponses
    : ∃ s duration,
        (pacedMachine Rat 1 ["football"]).run (twoResponses 5) = some s
        ∧ Answers s 1 (5, ["football"]) duration
        ∧ Honours duration 5 := by
  obtain ⟨s, ran, seen⟩ := Option.map_eq_some_iff.mp
    (show ((pacedMachine Rat 1 ["football"]).run (twoResponses 5)).map pacing
      = some ([(5, ["football"])], [(5, ["football"]), (5, ["football"])], [5, 5])
      by decide +kernel)
  have answers : Answers s 1 (5, ["football"]) 5 := answers_of_pacing seen (by simp) rfl rfl
  obtain ⟨honours, -⟩ := (honours_period_iff ⟨_, ran⟩).2 1 _ _ answers
  exact ⟨s, 5, ran, answers, honours.mpr (by decide)⟩

/-- 2^63 seconds. -/
def tooLong : UInt64 := 9223372036854775808

/-- A client that asks for as much gets its second response without any wait. -/
theorem not_honours_period_twoResponses
    : ∃ s duration,
        (pacedMachine Rat 1 ["football"]).run (twoResponses tooLong) = some s
        ∧ Answers s 1 (tooLong, ["football"]) duration
        ∧ Server.sleepFor duration = 0
        ∧ ¬ Honours duration tooLong := by
  obtain ⟨s, ran, seen⟩ := Option.map_eq_some_iff.mp
    (show ((pacedMachine Rat 1 ["football"]).run (twoResponses tooLong)).map pacing
      = some
          ([(tooLong, ["football"])], [(tooLong, ["football"]), (tooLong, ["football"])],
            [Server.seconds tooLong, Server.seconds tooLong])
      by decide +kernel)
  have large : ¬ tooLong.toNat < 2 ^ 63 := by decide +kernel
  refine ⟨s, Server.seconds tooLong, ran, answers_of_pacing seen (by simp) rfl rfl, ?_, ?_⟩
  · rw [Server.sleepFor_seconds, if_neg large]
  · exact mt (honours_seconds_iff _).mp large

end RVision.Session
