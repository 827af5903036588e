import RVision.App.Ready
import RVision.Http.Dispatcher

/-! One request from `handler::handleRequest` to its response. The dispatcher returns an error
code, and so does the executer that it calls; the executer has sent its own response by then,
and the handler sends another one for every code that is not `success`.
-/

namespace RVision.App

open Transition Lines.Provider
open RVision.Http RVision.Text
open RVision.Lines.Db (Errc)

variable {Score : Type}

/-- What `execute` comes to: a call of the registered executer, or a code of its own. -/
inductive Dispatched (Result : Type)
  | httpReadyCallback (params : Params)
  | result (value : Result)

instance : Pure Dispatched := ⟨.result⟩

/-- The one route that `main` registers. -/
def readyRoute : Registration Dispatched :=
  { method := bytes "GET"
    uri := bytes "ready"
    exec := fun _ params => .httpReadyCallback params }

def routeTable (poco : ByteString → Uri) : Dispatcher Dispatched :=
  Dispatcher.add poco ∅ readyRoute.method readyRoute.uri readyRoute.exec

namespace HttpStatus

def code : HttpStatus → Nat
  | .ok => 200
  | .tooEarly => 425

/-- What `http_ready_callback` returns after it has sent the status. -/
def errc : HttpStatus → Errc
  | .ok => .success
  | .tooEarly => .notImplement

end HttpStatus

/-- `HTTP_NOT_IMPLEMENTED`. -/
def httpNotImplemented : Nat := 501

/-- Where an execution of `handleRequest` is. -/
inductive HandlerPc
  | idle
  /-- In the executer that `execute` calls. -/
  | executing
  /-- `execute` has returned. -/
  | executed (errc : Errc)
  | finished
  /-- `execute` has thrown. -/
  | threw
deriving DecidableEq, Repr

/-- The application with its requests, and what was sent for each of them. -/
structure HandlerState (Score : Type) where
  app : AppState Score
  handlers : Nat → HandlerPc := fun _ => .idle
  sent : List (Nat × Nat) := []

inductive HandlerAction (Score : Type)
  | provider (action : ProviderAction Score)
  /-- `handleRequest` is called. -/
  | request (id : Nat) (request : Request)
  /-- The next step of the execution. -/
  | advance (id : Nat)
deriving DecidableEq

namespace HandlerState

def goto (s : HandlerState Score) (id : Nat) (pc : HandlerPc) : HandlerState Score :=
  { s with handlers := Function.update s.handlers id pc }

/-- `response.send()`. -/
def send (s : HandlerState Score) (id : Nat) (code : Nat) : HandlerState Score :=
  { s with sent := s.sent ++ [(id, code)] }

/-- The HTTP server starts once the provider is constructed. -/
def handleRequest (poco : ByteString → Uri) (s : HandlerState Score) (id : Nat)
    (request : Request)
    : Option (HandlerState Score) :=
  if s.app.provider.Constructed ∧ s.handlers id = .idle then
    match Dispatcher.execute poco (routeTable poco) request with
    | none => some (s.goto id .threw)
    | some (.httpReadyCallback _) => some (s.goto id .executing)
    | some (.result errc) => some (s.goto id (.executed errc))
  else
    none

def advance (s : HandlerState Score) (id : Nat) : Option (HandlerState Score) :=
  match s.handlers id with
  | .executing =>
      (s.app.httpReadyCallback id).map (fun app =>
        match s.app.callbacks id with
        | .answering status => { s.goto id (.executed status.errc) with app }.send id status.code
        | _ => { s with app })
  | .executed errc =>
      if errc ≠ .success then
        some ((s.goto id .finished).send id httpNotImplemented)
      else
        some (s.goto id .finished)
  | .idle | .finished | .threw => none

end HandlerState

def handlerStep [Zero Score] [Sub Score] (base : String) (poco : ByteString → Uri)
    (s : HandlerState Score)
    : HandlerAction Score → Option (HandlerState Score)
  | .provider action =>
      (providerStep base s.app.provider action).map (fun provider =>
        { s with app := { s.app with provider } })
  | .request id request => s.handleRequest poco id request
  | .advance id => s.advance id

def handlerMachine (Score : Type) [Zero Score] [Sub Score] (sports : Sports) (base : String)
    (poco : ByteString → Uri)
    : Machine (HandlerState Score) (HandlerAction Score) where
  init := { app := (appMachine Score sports base).init }
  step := handlerStep base poco

-----------------------------------------------------------------------------------------
-- What one step does
-----------------------------------------------------------------------------------------

/-- The transitions with their guards. -/
inductive HandlerStep [Zero Score] [Sub Score] (base : String) (s : HandlerState Score)
    : HandlerAction Score → HandlerState Score → Prop
  | provider {action : ProviderAction Score} {provider : ProviderState Score}
    (moved : providerStep base s.app.provider action = some provider)
    : HandlerStep base s (.provider action) { s with app := { s.app with provider } }
  | throw {id : Nat} (request : Request) (pc : s.handlers id = .idle)
    : HandlerStep base s (.request id request) (s.goto id .threw)
  | route {id : Nat} (request : Request) (pc : s.handlers id = .idle)
    (constructed : s.app.provider.Constructed)
    : HandlerStep base s (.request id request) (s.goto id .executing)
  | miss {id : Nat} (request : Request) (pc : s.handlers id = .idle)
    : HandlerStep base s (.request id request) (s.goto id (.executed .notFound))
  | callback {id : Nat} {app : AppState Score} (pc : s.handlers id = .executing)
    (moved : CallbackStep s.app id app)
    (unanswered : ∀ status, s.app.callbacks id ≠ .answering status)
    : HandlerStep base s (.advance id) { s with app }
  | answer {id : Nat} {status : HttpStatus} {app : AppState Score}
    (pc : s.handlers id = .executing) (answering : s.app.callbacks id = .answering status)
    (moved : CallbackStep s.app id app)
    : HandlerStep base s (.advance id)
        ({ s.goto id (.executed status.errc) with app }.send id status.code)
  | refuse {id : Nat} {errc : Errc} (pc : s.handlers id = .executed errc)
    (failed : errc ≠ .success)
    : HandlerStep base s (.advance id) ((s.goto id .finished).send id httpNotImplemented)
  | finish {id : Nat} (pc : s.handlers id = .executed .success)
    : HandlerStep base s (.advance id) (s.goto id .finished)

/-- The executer is the callback, and what the dispatcher returns without it is `not_found`. -/
theorem execute_routeTable {poco : ByteString → Uri} {request : Request}
    {dispatched : Dispatched Errc}
    (executed : Dispatcher.execute poco (routeTable poco) request = some dispatched)
    : (∃ params, dispatched = .httpReadyCallback params)
      ∨ dispatched = .result .notFound := by
  obtain ⟨choice, chosen, rfl⟩ := Option.map_eq_some_iff.mp executed
  rw [Dispatcher.choose_eq] at chosen
  obtain ⟨query, -, rfl⟩ := Option.map_eq_some_iff.mp chosen
  have table := Dispatcher.routes_add poco ∅ readyRoute request.method
  cases found : selected (poco request.uri).getSegments
      ((routeTable poco).routes request.method) with
  | none => exact Or.inr (by simp [found]; rfl)
  | some route =>
      have exec : route.exec = readyRoute.exec := by
        have member := mem_of_selected found
        rw [routeTable, table] at member
        split at member <;> simp_all [Dispatcher.routes, Registration.route]
      left
      simp only [found, Option.map_some, exec]
      exact ⟨_, rfl⟩

section Steps

variable [Zero Score] [Sub Score] {base : String} {poco : ByteString → Uri}
  {s next : HandlerState Score} {action : HandlerAction Score}

theorem HandlerStep.of_step (taken : handlerStep base poco s action = some next)
    : HandlerStep base s action next := by
  cases action with
  | provider action =>
      obtain ⟨provider, moved, rfl⟩ := Option.map_eq_some_iff.mp taken
      exact .provider moved
  | request id request =>
      obtain ⟨⟨constructed, pc⟩, dispatched⟩ := Option.ite_none_right_eq_some.mp taken
      split at dispatched
      next => exact Option.some.inj dispatched ▸ .throw request pc
      next => exact Option.some.inj dispatched ▸ .route request pc constructed
      next errc executed =>
        rcases execute_routeTable executed with ⟨params, other⟩ | missed
        · cases other
        · cases missed
          exact Option.some.inj dispatched ▸ .miss request pc
  | advance id =>
      cases pc : s.handlers id with
      | executing =>
          simp only [handlerStep, HandlerState.advance, pc] at taken
          obtain ⟨app, moved, rfl⟩ := Option.map_eq_some_iff.mp taken
          split
          next status answering =>
            exact .answer pc answering (httpReadyCallback_eq_some.mp moved)
          next unanswered =>
            exact .callback pc (httpReadyCallback_eq_some.mp moved) unanswered
      | executed errc =>
          simp only [handlerStep, HandlerState.advance, pc] at taken
          split at taken
          next failed => exact Option.some.inj taken ▸ .refuse pc failed
          next succeeded =>
            obtain rfl : errc = .success := by simpa using succeeded
            exact Option.some.inj taken ▸ .finish pc
      | idle => simp [handlerStep, HandlerState.advance, pc] at taken
      | finished => simp [handlerStep, HandlerState.advance, pc] at taken
      | threw => simp [handlerStep, HandlerState.advance, pc] at taken

end Steps

-----------------------------------------------------------------------------------------
-- What was sent for a request
-----------------------------------------------------------------------------------------

/-- What the executer has answered the request. -/
def answers (log : List AppEvent) (id : Nat) : List HttpStatus :=
  log.filterMap fun
    | .answered other status => if other = id then some status else none
    | _ => none

/-- All that was sent for the request. -/
def HandlerState.codes (s : HandlerState Score) (id : Nat) : List Nat :=
  (s.sent.filter (·.1 = id)).map Prod.snd

/-- One response was sent, and it is the one of the executer if that has sent one. -/
def OneResponse (s : HandlerState Score) (id : Nat) : Prop :=
  ∃ code, s.codes id = [code] ∧ ∀ status ∈ answers s.app.log id, code = status.code

/-- What an execution has sent, by where it is. -/
def Accounted : HandlerPc → List HttpStatus → List Nat → Prop
  | .idle, statuses, codes | .executing, statuses, codes | .threw, statuses, codes =>
      statuses = [] ∧ codes = []
  | .executed errc, statuses, codes =>
      (statuses = [] ∧ codes = [] ∧ errc = .notFound)
      ∨ ∃ status, statuses = [status] ∧ codes = [status.code] ∧ errc = status.errc
  | .finished, statuses, codes =>
      (statuses = [] ∧ codes = [httpNotImplemented])
      ∨ (statuses = [.ok] ∧ codes = [HttpStatus.code .ok])
      ∨ (statuses = [.tooEarly] ∧ codes = [HttpStatus.code .tooEarly, httpNotImplemented])

@[simp]
theorem HandlerState.codes_goto (s : HandlerState Score) (id other : Nat) (pc : HandlerPc)
    : (s.goto id pc).codes other = s.codes other :=
  rfl

theorem HandlerState.codes_send_self (s : HandlerState Score) (id code : Nat)
    : (s.send id code).codes id = s.codes id ++ [code] := by
  simp [codes, send]

theorem HandlerState.codes_send_of_ne (s : HandlerState Score) {id other : Nat}
    (different : other ≠ id) (code : Nat)
    : (s.send id code).codes other = s.codes other := by
  simp [codes, send, Ne.symm different]

theorem answers_concat_self (log : List AppEvent) (id : Nat) (status : HttpStatus)
    : answers (log ++ [.answered id status]) id = answers log id ++ [status] := by
  simp [answers]

theorem answers_concat_of_ne (log : List AppEvent) {id other : Nat} (different : other ≠ id)
    (status : HttpStatus)
    : answers (log ++ [.answered id status]) other = answers log other := by
  simp [answers, Ne.symm different]

namespace CallbackStep

variable {s next : AppState Score} {id : Nat}

theorem answers_of_ne (h : CallbackStep s id next) {other : Nat} (different : other ≠ id)
    : answers next.log other = answers s.log other := by
  cases h with
  | answer pc => exact answers_concat_of_ne _ different _
  | _ => simp [answers]

theorem answers_eq (h : CallbackStep s id next)
    (unanswered : ∀ status, s.callbacks id ≠ .answering status) (other : Nat)
    : answers next.log other = answers s.log other := by
  cases h with
  | answer pc => exact absurd pc (unanswered _)
  | _ => simp [answers]

/-- An execution that is at its answer gives it and returns. -/
theorem answered (h : CallbackStep s id next) {status : HttpStatus}
    (answering : s.callbacks id = .answering status)
    : next = { s.goto id .returned with log := s.log ++ [.answered id status] } := by
  cases h with
  | answer pc =>
      obtain rfl := CallbackPc.answering.inj (answering.symm.trans pc)
      rfl
  | begin pc | logState pc | ready pc | notReady pc | lock pc | create pc | alreadyExists pc
    | start pc | unlock pc => simp [answering] at pc

end CallbackStep

section Sent

variable [Zero Score] [Sub Score] {base : String} {poco : ByteString → Uri} {sports : Sports}
  {s next : HandlerState Score} {action : HandlerAction Score}

/-- The account of every execution. -/
def AllAccounted (s : HandlerState Score) : Prop :=
  ∀ id, Accounted (s.handlers id) (answers s.app.log id) (s.codes id)

omit [Zero Score] [Sub Score] in
/-- One execution moves on, and only its own account changes. -/
theorem AllAccounted.move (h : AllAccounted s) {id : Nat} {pc : HandlerPc}
    (handlers : next.handlers = Function.update s.handlers id pc)
    (others : ∀ other, other ≠ id →
      answers next.app.log other = answers s.app.log other ∧ next.codes other = s.codes other)
    (mine : Accounted pc (answers next.app.log id) (next.codes id))
    : AllAccounted next := by
  intro other
  rw [handlers]
  by_cases here : other = id
  · rw [here, Function.update_self]
    exact mine
  · obtain ⟨same, unsent⟩ := others other here
    rw [Function.update_of_ne here, same, unsent]
    exact h other

theorem AllAccounted.step (h : AllAccounted s) (taken : HandlerStep base s action next)
    : AllAccounted next := by
  have account {id : Nat} {pc : HandlerPc} (here : s.handlers id = pc)
      : Accounted pc (answers s.app.log id) (s.codes id) :=
    here ▸ h id
  cases taken with
  | provider _ => exact h
  | throw _ pc | route _ pc _ =>
      have before := account pc
      exact h.move rfl (fun _ _ => ⟨rfl, rfl⟩) before
  | miss _ pc =>
      obtain ⟨none, unsent⟩ := account pc
      exact h.move rfl (fun _ _ => ⟨rfl, rfl⟩) (Or.inl ⟨none, unsent, rfl⟩)
  | callback _ moved unanswered =>
      intro other
      rw [moved.answers_eq unanswered]
      exact h other
  | @answer id status app pc answering moved =>
      obtain ⟨none, unsent⟩ := account pc
      refine h.move rfl ?_ (Or.inr ⟨status, ?_, ?_, rfl⟩)
      · intro other different
        exact ⟨moved.answers_of_ne different, HandlerState.codes_send_of_ne _ different _⟩
      · rw [moved.answered answering]
        exact (answers_concat_self _ _ _).trans (by rw [none, List.nil_append])
      · exact (HandlerState.codes_send_self _ _ _).trans (congrArg (· ++ [status.code]) unsent)
  | @refuse id errc pc failed =>
      refine h.move rfl
        (fun other different => ⟨rfl, HandlerState.codes_send_of_ne _ different _⟩) ?_
      rw [HandlerState.codes_send_self, HandlerState.codes_goto]
      rcases account pc with ⟨none, unsent, -⟩ | ⟨status, answered, sent, returned⟩
      · exact Or.inl ⟨none, by rw [unsent, List.nil_append]⟩
      · cases status with
        | ok => exact absurd returned failed
        | tooEarly => exact Or.inr (Or.inr ⟨answered, by rw [sent, List.singleton_append]⟩)
  | finish pc =>
      refine h.move rfl (fun _ _ => ⟨rfl, rfl⟩) ?_
      rcases account pc with ⟨-, -, impossible⟩ | ⟨status, answered, sent, returned⟩
      · cases impossible
      · cases status with
        | ok => exact Or.inr (Or.inl ⟨answered, sent⟩)
        | tooEarly => cases returned

theorem allAccounted_of_reachable
    (reached : (handlerMachine Score sports base poco).Reachable s)
    : AllAccounted s := by
  apply reached.invariant (motive := AllAccounted)
  · exact fun id => ⟨rfl, rfl⟩
  · exact fun _ _ _ _ before taken => before.step (HandlerStep.of_step taken)

end Sent

-----------------------------------------------------------------------------------------
-- The executer under the handler
-----------------------------------------------------------------------------------------

/-- Where the executer can be, by where its handler is. -/
def Linked (constructed : Prop) : HandlerPc → CallbackPc → Prop
  | .idle, pc | .threw, pc => pc = .idle
  | .executing, pc => pc ≠ .returned ∧ constructed
  | .executed _, pc | .finished, pc => pc = .idle ∨ pc = .returned

def AllLinked (s : HandlerState Score) : Prop :=
  ∀ id, Linked s.app.provider.Constructed (s.handlers id) (s.app.callbacks id)

/-- Before its answer an execution does not return. -/
theorem CallbackStep.not_returned {s next : AppState Score} {id : Nat}
    (h : CallbackStep s id next) (unanswered : ∀ status, s.callbacks id ≠ .answering status)
    : next.callbacks id ≠ .returned := by
  cases h with
  | answer pc => exact absurd pc (unanswered _)
  | _ => simp

theorem CallbackStep.provider_eq {s next : AppState Score} {id : Nat}
    (h : CallbackStep s id next)
    : next.provider = s.provider := by
  cases h <;> rfl

section Linked

variable [Zero Score] [Sub Score] {base : String} {poco : ByteString → Uri} {sports : Sports}
  {s next : HandlerState Score} {action : HandlerAction Score}

omit [Zero Score] [Sub Score] in
theorem AllLinked.move (h : AllLinked s) {id : Nat} {pc : HandlerPc}
    (handlers : next.handlers = Function.update s.handlers id pc)
    (provider : next.app.provider = s.app.provider)
    (others : ∀ other, other ≠ id → next.app.callbacks other = s.app.callbacks other)
    (mine : Linked s.app.provider.Constructed pc (next.app.callbacks id))
    : AllLinked next := by
  intro other
  rw [handlers, provider]
  by_cases here : other = id
  · rw [here, Function.update_self]
    exact mine
  · rw [Function.update_of_ne here, others other here]
    exact h other

theorem AllLinked.step (h : AllLinked s) (taken : HandlerStep base s action next)
    : AllLinked next := by
  have linked {id : Nat} {pc : HandlerPc} (here : s.handlers id = pc)
      : Linked s.app.provider.Constructed pc (s.app.callbacks id) :=
    here ▸ h id
  cases taken with
  | provider moved =>
      intro id
      have constructed := (ProviderStep.of_step moved).later.1
      simp only
      cases pc : s.handlers id with
      | executing => exact ⟨(linked pc).1, constructed (linked pc).2⟩
      | idle | executed _ | finished | threw => exact linked pc
  | throw _ pc =>
      have before := linked pc
      exact h.move rfl rfl (fun _ _ => rfl) before
  | @route id _ pc constructed =>
      have idle : s.app.callbacks id = .idle := linked pc
      exact h.move rfl rfl (fun _ _ => rfl) ⟨by simp [HandlerState.goto, idle], constructed⟩
  | miss _ pc => exact h.move rfl rfl (fun _ _ => rfl) (Or.inl (linked pc))
  | @callback id app pc moved unanswered =>
      refine h.move (Function.update_eq_self_iff.mpr rfl).symm moved.provider_eq
        (fun _ different => moved.callbacks_of_ne different) ?_
      rw [pc]
      exact ⟨moved.not_returned unanswered, (linked pc).2⟩
  | answer pc answering moved =>
      refine h.move rfl moved.provider_eq (fun _ different => moved.callbacks_of_ne different) ?_
      rw [moved.answered answering]
      exact Or.inr (Function.update_self ..)
  | refuse pc _ | finish pc =>
      have before := linked pc
      exact h.move rfl rfl (fun _ _ => rfl) before

theorem allLinked_of_reachable (reached : (handlerMachine Score sports base poco).Reachable s)
    : AllLinked s := by
  apply reached.invariant (motive := AllLinked)
  · exact fun id => rfl
  · exact fun _ _ _ _ before taken => before.step (HandlerStep.of_step taken)

/-- The application under its handlers is the application. -/
theorem app_of_reachable (reached : (handlerMachine Score sports base poco).Reachable s)
    : (appMachine Score sports base).Reachable s.app := by
  refine reached.project HandlerState.app Machine.reachable_init ?_
  intro s action next taken
  cases HandlerStep.of_step taken with
  | @provider action provider moved =>
      refine Or.inr ⟨.provider action, ?_⟩
      simp [appMachine, appStep, moved]
  | @callback id _ _ moved _ =>
      exact Or.inr ⟨.callback id, httpReadyCallback_eq_some.mpr moved⟩
  | @answer id _ _ _ _ moved =>
      exact Or.inr ⟨.callback id, httpReadyCallback_eq_some.mpr moved⟩
  | throw | route | miss | refuse | finish => exact Or.inl rfl

end Linked

-----------------------------------------------------------------------------------------
-- Refusals
-----------------------------------------------------------------------------------------

/-- An executer that comes to its test finds the provider ready. -/
def TestsReady (s : HandlerState Score) : HandlerAction Score → Prop
  | .advance id =>
      s.handlers id = .executing
      → s.app.callbacks id = .testing
      → s.app.provider.provider.state = .ready
  | _ => True

instance (s : HandlerState Score) (action : HandlerAction Score)
    : Decidable (TestsReady s action) := by
  unfold TestsReady
  split <;> infer_instance

/-- The executer has found the provider not ready. -/
def Refused (s : AppState Score) (id : Nat) : Prop :=
  s.callbacks id = .answering .tooEarly ∨ .tooEarly ∈ answers s.log id

/-- A refusal is not taken back, and only a test that finds the provider not ready refuses. -/
theorem CallbackStep.refused_iff {s next : AppState Score} {id : Nat}
    (h : CallbackStep s id next) (other : Nat)
    : Refused next other
      ↔ Refused s other
        ∨ (other = id ∧ s.callbacks id = .testing ∧ s.provider.provider.state ≠ .ready) := by
  by_cases here : other = id
  · subst here
    cases h with
    | notReady pc no => simp [Refused, pc, no]
    | answer pc => simp [Refused, pc, answers_concat_self, or_comm, eq_comm]
    | ready pc yes => simp [Refused, pc, yes]
    | begin pc | logState pc | lock pc | create pc | alreadyExists pc | start pc | unlock pc =>
        simp [Refused, pc, answers]
  · simp [Refused, h.callbacks_of_ne here, h.answers_of_ne here, here]

section Refused

variable [Zero Score] [Sub Score] {base : String} {poco : ByteString → Uri} {sports : Sports}
  {s next : HandlerState Score} {action : HandlerAction Score}

theorem HandlerStep.refused {id : Nat} (h : HandlerStep base s action next)
    (refused : Refused s.app id)
    : Refused next.app id := by
  cases h with
  | callback _ moved _ | answer _ _ moved => exact (moved.refused_iff id).mpr (Or.inl refused)
  | provider | throw | route | miss | refuse | finish => exact refused

/-- In a run whose tests find the provider ready no request is refused. -/
theorem not_refused_of_testsReady
    (reached : (handlerMachine Score sports base poco).ReachableVia TestsReady s) (id : Nat)
    : ¬ Refused s.app id := by
  induction reached with
  | init => simp [Refused, handlerMachine, appMachine, answers]
  | @step s next action before meets taken ih =>
      cases HandlerStep.of_step taken with
      | @callback other _ pc moved _ | @answer other _ _ pc _ moved =>
          intro refused
          rcases (moved.refused_iff id).mp refused with earlier | ⟨-, testing, no⟩
          · exact ih earlier
          · exact no (meets pc testing)
      | provider | throw | route | miss | refuse | finish => exact ih

/-- A finished request has one response exactly if it was not refused. -/
theorem oneResponse_iff (reached : (handlerMachine Score sports base poco).Reachable s) {id : Nat}
    (finished : s.handlers id = .finished)
    : (OneResponse s id ↔ ¬ Refused s.app id)
      ∧ (Refused s.app id → s.codes id = [HttpStatus.code .tooEarly, httpNotImplemented]) := by
  have account := allAccounted_of_reachable reached id
  have linked := allLinked_of_reachable reached id
  rw [finished] at account linked
  have elsewhere : s.app.callbacks id ≠ .answering .tooEarly := by
    rcases linked with idle | returned
    · simp [idle]
    · simp [returned]
  rcases account with ⟨none, sent⟩ | ⟨ok, sent⟩ | ⟨tooEarly, sent⟩
  · simp [OneResponse, Refused, elsewhere, none, sent]
  · simp [OneResponse, Refused, elsewhere, ok, sent]
  · simp [OneResponse, Refused, tooEarly, sent]

end Refused

-----------------------------------------------------------------------------------------
-- Every request can be finished
-----------------------------------------------------------------------------------------

namespace HandlerPc

/-- `handleRequest` was called and has not thrown. -/
def begun : HandlerPc → Bool
  | .executing | .executed _ | .finished => true
  | .idle | .threw => false

end HandlerPc

/-- How far an execution is from its end: that of its executer, and two steps more. -/
def HandlerState.distance (s : HandlerState Score) (id : Nat) : Nat :=
  match s.handlers id with
  | .executing => s.app.distance id + 2
  | .executed _ => 1
  | .idle | .finished | .threw => 0

section Progress

variable [Zero Score] [Sub Score] {base : String} {poco : ByteString → Uri} {sports : Sports}
  {s : HandlerState Score}

/-- A step of the executer is a step of its handler. Either the executer is closer to its
answer now, or it has returned.
-/
theorem exists_advance {id other : Nat} {app : AppState Score}
    (executing : s.handlers other = .executing) (moved : CallbackStep s.app other app)
    (pc : s.handlers id = .executing) (closer : app.distance id < s.app.distance id)
    : ∃ next,
        (handlerMachine Score sports base poco).step s (.advance other) = some next
        ∧ (next.handlers id).begun = true
        ∧ next.distance id < s.distance id := by
  have ran : s.app.httpReadyCallback other = some app := httpReadyCallback_eq_some.mpr moved
  by_cases answering : ∃ status, s.app.callbacks other = .answering status
  · obtain ⟨status, answering⟩ := answering
    refine ⟨{ s.goto other (.executed status.errc) with app }.send other status.code, ?_, ?_, ?_⟩
    · simp [handlerMachine, handlerStep, HandlerState.advance, executing, ran, answering]
    · by_cases here : id = other
      · simp [HandlerState.goto, HandlerState.send, here, HandlerPc.begun]
      · simp [HandlerState.goto, HandlerState.send, here, pc, HandlerPc.begun]
    · by_cases here : id = other
      · subst here
        simp [HandlerState.distance, HandlerState.goto, HandlerState.send, pc]
      · simpa [HandlerState.distance, HandlerState.goto, HandlerState.send, here, pc] using closer
  · refine ⟨{ s with app }, ?_, ?_, ?_⟩
    · have unanswered : ∀ status, s.app.callbacks other ≠ .answering status :=
        not_exists.mp answering
      simp [handlerMachine, handlerStep, HandlerState.advance, executing, ran]
    · simp [pc, HandlerPc.begun]
    · simpa [HandlerState.distance, pc] using closer

/-- A request that is being handled is finished, or some execution can bring it closer. -/
theorem handler_progress (reached : (handlerMachine Score sports base poco).Reachable s)
    {id : Nat} (begun : (s.handlers id).begun = true)
    : s.handlers id = .finished
      ∨ ∃ other next,
          (handlerMachine Score sports base poco).step s (.advance other) = some next
          ∧ (next.handlers id).begun = true
          ∧ next.distance id < s.distance id := by
  cases pc : s.handlers id with
  | idle => simp [pc, HandlerPc.begun] at begun
  | threw => simp [pc, HandlerPc.begun] at begun
  | finished => exact Or.inl rfl
  | executed errc =>
      right
      by_cases failed : errc ≠ .success
      · refine ⟨id, (s.goto id .finished).send id httpNotImplemented, ?_, ?_, ?_⟩
        · simp [handlerMachine, handlerStep, HandlerState.advance, pc, failed]
        · simp [HandlerState.goto, HandlerState.send, HandlerPc.begun]
        · simp [HandlerState.distance, HandlerState.goto, HandlerState.send, pc]
      · refine ⟨id, s.goto id .finished, ?_, ?_, ?_⟩
        · simp [handlerMachine, handlerStep, HandlerState.advance, pc, failed]
        · simp [HandlerState.goto, HandlerPc.begun]
        · simp [HandlerState.distance, HandlerState.goto, pc]
  | executing =>
      right
      have linked := allLinked_of_reachable reached
      have mine := linked id
      rw [pc] at mine
      by_cases idle : s.app.callbacks id = .idle
      · have moved := CallbackStep.begin idle mine.2
        obtain ⟨next, taken, still, closer⟩ := exists_advance pc moved pc moved.distance_lt
        exact ⟨id, next, taken, still, closer⟩
      · obtain ⟨other, app, busy, moved, closer⟩ :=
          (appInvariant_of_reachable (app_of_reachable reached)).closer idle mine.1
        have running : s.app.callbacks other ≠ .returned := by
          intro returned
          have less := moved.left_lt
          simp [returned, CallbackPc.left] at less
        have executing : s.handlers other = .executing := by
          have its := linked other
          cases at_ : s.handlers other with
          | executing => rfl
          | idle | threw | executed _ | finished => simp_all [Linked]
        obtain ⟨next, taken, still, closer⟩ := exists_advance executing moved pc closer
        exact ⟨other, next, taken, still, closer⟩

theorem exists_finished (reached : (handlerMachine Score sports base poco).Reachable s) {id : Nat}
    (begun : (s.handlers id).begun = true)
    : ∃ actions final,
        (∀ action ∈ actions, ∃ other, action = HandlerAction.advance other)
        ∧ (handlerMachine Score sports base poco).runFrom s actions = some final
        ∧ final.handlers id = .finished := by
  refine Machine.exists_runFrom_of_rank
    (fun s => (handlerMachine Score sports base poco).Reachable s ∧ (s.handlers id).begun = true)
    (fun s => s.handlers id = .finished) (fun s => s.distance id) ?_ ⟨reached, begun⟩
  intro state onWay
  rcases handler_progress onWay.1 onWay.2 with done | ⟨other, next, taken, still, closer⟩
  · exact Or.inl done
  · exact Or.inr ⟨.advance other, next, ⟨other, rfl⟩, taken, ⟨onWay.1.step taken, still⟩, closer⟩

/-- Every request that is handled can be finished, and has then exactly one response, the
executer's if there is one, in every run whose tests find the provider ready. A test that finds
it not ready leads to two: the executer's 425 and the handler's 501.
-/
theorem one_response (reached : (handlerMachine Score sports base poco).Reachable s)
    : ((handlerMachine Score sports base poco).ReachableVia TestsReady s
        → ∀ id, s.handlers id = .finished → OneResponse s id)
      ∧ (∀ id,
          s.handlers id = .executing
          → s.app.callbacks id = .testing
          → s.app.provider.provider.state ≠ .ready
          → ∀ actions final,
              (handlerMachine Score sports base poco).runFrom s (.advance id :: actions)
                = some final
              → final.handlers id = .finished
              → final.codes id = [425, 501] ∧ ¬ OneResponse final id)
      ∧ ∀ id, (s.handlers id).begun = true
          → ∃ actions final,
              (∀ action ∈ actions, ∃ other, action = .advance other)
              ∧ (handlerMachine Score sports base poco).runFrom s actions = some final
              ∧ final.handlers id = .finished := by
  refine ⟨?_, ?_, fun id begun => exists_finished reached begun⟩
  · intro ready id finished
    exact (oneResponse_iff reached finished).1.mpr (not_refused_of_testsReady ready id)
  · intro id executing testing no actions final ran finished
    obtain ⟨next, taken, later⟩ := Option.bind_eq_some_iff.mp ran
    have refused : Refused next.app id := by
      have answered : s.app.httpReadyCallback id = some (s.app.goto id (.answering .tooEarly)) :=
        httpReadyCallback_eq_some.mpr (.notReady testing no)
      simp only [handlerMachine, handlerStep, HandlerState.advance, executing, answered, testing,
        Option.map_some, Option.some.injEq] at taken
      subst taken
      exact Or.inl (Function.update_self ..)
    have still : Refused final.app id :=
      Machine.runFrom_invariant (motive := fun s => Refused s.app id) later refused
        (fun _ _ _ before taken => (HandlerStep.of_step taken).refused before)
    obtain ⟨exactly, both⟩ := oneResponse_iff (reached.runFrom ran) finished
    exact ⟨both still, fun one => exactly.mp one still⟩

end Progress

/-- Football is polled before `GET /ready`; a `POST` has no route. -/
def polledRun : List (HandlerAction Rat) :=
  [.provider .register, .provider .startPoller, .provider (.poll "lines/football" 3),
    .request 0 ⟨bytes "GET", bytes "/ready"⟩, .advance 0, .advance 0,
    .request 1 ⟨bytes "POST", bytes "/ready"⟩, .advance 0, .advance 0, .advance 1, .advance 0,
    .advance 0, .advance 0, .advance 0, .advance 0]

theorem one_response_polledRun
    : ∃ s,
        (handlerMachine Rat football "lines" Dispatcher.relativeUri).run polledRun = some s
        ∧ s.codes 0 = [200]
        ∧ s.codes 1 = [501]
        ∧ OneResponse s 0
        ∧ OneResponse s 1 := by
  obtain ⟨s, guarded, ran, first, second, ok, missing⟩
      : ∃ s,
          ((handlerMachine Rat football "lines" Dispatcher.relativeUri).guard TestsReady).run
              polledRun
            = some s
          ∧ (handlerMachine Rat football "lines" Dispatcher.relativeUri).run polledRun = some s
          ∧ s.handlers 0 = .finished
          ∧ s.handlers 1 = .finished
          ∧ s.codes 0 = [200]
          ∧ s.codes 1 = [501] :=
    ⟨_, rfl, rfl, rfl, rfl, rfl, rfl⟩
  have one := (one_response ⟨polledRun, ran⟩).1 (Machine.ReachableVia.of_guard ⟨_, guarded⟩)
  exact ⟨s, ran, ok, missing, one 0 first, one 1 second⟩

/-- `GET /ready` before the first poll. -/
def unpolledRun : List (HandlerAction Rat) :=
  [.provider .register, .provider .startPoller, .request 0 ⟨bytes "GET", bytes "/ready"⟩,
    .advance 0, .advance 0, .advance 0, .advance 0, .advance 0]

/-- The executer answers 425, and the handler sends a 501 after it. -/
theorem two_responses_unpolledRun
    : ∃ s,
        (handlerMachine Rat football "lines" Dispatcher.relativeUri).run unpolledRun = some s
        ∧ s.handlers 0 = .finished
        ∧ s.codes 0 = [425, 501]
        ∧ ¬ OneResponse s 0 := by
  obtain ⟨s, ran, finished, sent⟩
      : ∃ s,
          (handlerMachine Rat football "lines" Dispatcher.relativeUri).run unpolledRun = some s
          ∧ s.handlers 0 = .finished
          ∧ s.codes 0 = [425, 501] :=
    ⟨_, rfl, rfl, rfl⟩
  refine ⟨s, ran, finished, sent, ?_⟩
  intro one
  obtain ⟨code, single, -⟩ := one
  rw [sent] at single
  cases single

end RVision.App
