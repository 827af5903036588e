import RVision.Http.Dispatcher
import RVision.Transition.Futures

/-! `http::server`: routes are added with `handle`, and `start` gives a copy of the table to the
factory whose handlers serve the requests.
-/

namespace RVision.Http

open RVision.Text Transition
open Dispatcher (relativeUri)

variable {m : Type → Type}

/-- `m_dispatcher`, and the table of the running `m_server`, if there is one. -/
structure HttpServer (m : Type → Type) where
  dispatcher : Dispatcher m := ∅
  factory : Option (Dispatcher m) := none

/-- A call of `handle` or of `start`; `create_socket` may throw in the latter. -/
inductive HttpAction (m : Type → Type)
  | handle (registration : Registration m)
  | start (binds : Bool)

namespace HttpServer

def handle (poco : ByteString → Uri) (server : HttpServer m) (registration : Registration m)
    : HttpServer m :=
  { server with
    dispatcher :=
      server.dispatcher.add poco registration.method registration.uri registration.exec }

/-- The factory gets its table by value. -/
def start (server : HttpServer m) (binds : Bool) : HttpServer m :=
  if binds then { server with factory := some server.dispatcher } else server

/-- `createRequestHandler` and `handleRequest` up to the call of the executer. -/
def choose (poco : ByteString → Uri) (server : HttpServer m) (request : Request)
    : Option (Choice m) :=
  server.factory.bind (fun dispatcher => dispatcher.choose poco request)

end HttpServer

def httpStep (poco : ByteString → Uri) (server : HttpServer m)
    : HttpAction m → Option (HttpServer m)
  | .handle registration => some (server.handle poco registration)
  | .start binds => some (server.start binds)

def httpMachine (m : Type → Type) (poco : ByteString → Uri)
    : Machine (HttpServer m) (HttpAction m) where
  init := {}
  step := httpStep poco

/-- The registrations of a run. -/
def handled (actions : List (HttpAction m)) : List (Registration m) :=
  actions.filterMap (fun action => match action with
    | .handle registration => some registration
    | .start _ => none)

-----------------------------------------------------------------------------------------
-- Routes that are added behind others
-----------------------------------------------------------------------------------------

theorem selected_append {segments : List ByteString} {first : List (Route m)}
    (found : ∃ route ∈ first, route.Qualifies segments) (later : List (Route m))
    : selected segments (first ++ later) = selected segments first := by
  obtain ⟨route, member, qualifies⟩ := found
  have some : (first.find? (fun route => route.Qualifies segments)).isSome = true :=
    List.find?_isSome.mpr ⟨route, member, by simpa using qualifies⟩
  obtain ⟨chosen, here⟩ := Option.isSome_iff_exists.mp some
  simp [selected, List.find?_append, here]

theorem rejectedBindings_append {segments : List ByteString} {first : List (Route m)}
    (found : ∃ route ∈ first, route.Qualifies segments) (later : List (Route m))
    : rejectedBindings segments (first ++ later) = rejectedBindings segments first := by
  obtain ⟨route, member, qualifies⟩ := found
  have short : ¬ (first.takeWhile fun route => ¬ route.Qualifies segments).length
      = first.length := by
    intro all
    have whole := (List.takeWhile_prefix _).eq_of_length all
    have refused := List.takeWhile_eq_self_iff.mp whole route member
    simp [qualifies] at refused
  rw [rejectedBindings, List.takeWhile_append, if_neg short, rejectedBindings]

/-- A request that some route takes is not touched by routes that are added behind: neither its
executer nor its parameters change.
-/
theorem choose_registered_append (poco : ByteString → Uri) {first : List (Registration m)}
    {request : Request} (found : ∃ registration ∈ first, registration.Qualifies poco request)
    (later : List (Registration m))
    : (Dispatcher.registered poco (first ++ later)).choose poco request
      = (Dispatcher.registered poco first).choose poco request := by
  have routes : (Dispatcher.registered poco (first ++ later)).routes request.method
      = (Dispatcher.registered poco first).routes request.method
        ++ (Dispatcher.registered poco later).routes request.method := by
    simp only [Dispatcher.routes_registered, List.filter_append, List.map_append]
  have taken : ∃ route ∈ (Dispatcher.registered poco first).routes request.method,
      route.Qualifies (poco request.uri).getSegments := by
    obtain ⟨registration, member, method, qualifies⟩ := found
    refine ⟨registration.route poco, ?_, qualifies⟩
    rw [Dispatcher.routes_registered]
    exact List.mem_map_of_mem (List.mem_filter.mpr ⟨member, by simpa using method⟩)
  simp only [Dispatcher.choose_eq, routes, selected_append taken, rejectedBindings_append taken]

-----------------------------------------------------------------------------------------
-- The table that serves
-----------------------------------------------------------------------------------------

theorem registered_concat (poco : ByteString → Uri) (registrations : List (Registration m))
    (registration : Registration m)
    : (Dispatcher.registered poco registrations).add poco registration.method registration.uri
        registration.exec
      = Dispatcher.registered poco (registrations ++ [registration]) := by
  simp [Dispatcher.registered]

/-- The table that `handle` fills holds the registrations of the run. -/
theorem dispatcher_of_run {poco : ByteString → Uri} {actions : List (HttpAction m)}
    {server : HttpServer m} (ran : (httpMachine m poco).run actions = some server)
    : server.dispatcher = Dispatcher.registered poco (handled actions) := by
  refine Machine.run_induction
    (motive := fun actions server =>
      server.dispatcher = Dispatcher.registered poco (handled actions)) rfl ?_ ran
  intro actions server action next _ known taken
  cases action with
  | handle registration =>
      obtain rfl := Option.some.inj taken
      simp [HttpServer.handle, known, registered_concat, handled]
  | start binds =>
      obtain rfl := Option.some.inj taken
      have same : handled (actions ++ [.start binds]) = handled actions := by simp [handled]
      rw [same, ← known]
      simp only [HttpServer.start]
      split <;> rfl

/-- Both tables have come from `registrations` by adding behind them. -/
def Extends (poco : ByteString → Uri) (registrations : List (Registration m))
    (server : HttpServer m)
    : Prop :=
  ∃ more serving,
    server.dispatcher = Dispatcher.registered poco (registrations ++ more)
    ∧ server.factory = some (Dispatcher.registered poco (registrations ++ serving))

theorem Extends.step {poco : ByteString → Uri} {registrations : List (Registration m)}
    {server next : HttpServer m} {action : HttpAction m}
    (h : Extends poco registrations server) (taken : httpStep poco server action = some next)
    : Extends poco registrations next := by
  obtain ⟨more, serving, dispatcher, factory⟩ := h
  cases action with
  | handle registration =>
      obtain rfl := Option.some.inj taken
      refine ⟨more ++ [registration], serving, ?_, factory⟩
      simp [HttpServer.handle, dispatcher, registered_concat]
  | start binds =>
      obtain rfl := Option.some.inj taken
      cases binds with
      | false => exact ⟨more, serving, dispatcher, factory⟩
      | true => exact ⟨more, more, dispatcher, by simp [HttpServer.start, dispatcher]⟩

theorem factory_of_step {poco : ByteString → Uri} {server next : HttpServer m}
    {action : HttpAction m} (other : action ≠ .start true)
    (taken : httpStep poco server action = some next)
    : next.factory = server.factory := by
  cases action with
  | handle registration =>
      obtain rfl := Option.some.inj taken
      rfl
  | start binds =>
      obtain rfl := Option.some.inj taken
      cases binds with
      | false => rfl
      | true => exact absurd rfl other

/-- What answers a request after a `start`: as long as there is no other one, the registrations
before it and none that came later; and where one of them takes the request, also after any
number of them, with the same executer and the same parameters.
-/
theorem choose_after_start (poco : ByteString → Uri) {before after : List (HttpAction m)}
    {request : Request} {server : HttpServer m}
    (fixed : (∃ registration ∈ handled before, registration.Qualifies poco request)
      ∨ ∀ action ∈ after, action ≠ .start true)
    (ran : (httpMachine m poco).run (before ++ .start true :: after) = some server)
    : server.choose poco request
      = (Dispatcher.registered poco (handled before)).choose poco request := by
  rw [Machine.run, Machine.runFrom_append] at ran
  obtain ⟨filled, began, ran⟩ := Option.bind_eq_some_iff.mp ran
  obtain ⟨started, taken, ran⟩ := Option.bind_eq_some_iff.mp ran
  obtain rfl := Option.some.inj taken
  have table := dispatcher_of_run began
  rcases fixed with found | last
  · have first : Extends poco (handled before) (filled.start true) :=
      ⟨[], [], by simpa [HttpServer.start] using table, by simp [HttpServer.start, table]⟩
    obtain ⟨_, serving, _, factory⟩ :=
      Machine.runFrom_invariant ran first (fun _ _ _ known taken => known.step taken)
    rw [HttpServer.choose, factory, Option.bind_some, choose_registered_append poco found]
  · have kept := Machine.runFrom_invariant_of_usable
      (motive := fun server : HttpServer m =>
        server.factory = some (Dispatcher.registered poco (handled before)))
      (fun _ _ _ known other taken => (factory_of_step other taken).trans known)
      (by simp [HttpServer.start, table]) last ran
    rw [HttpServer.choose, kept, Option.bind_some]

/-- `/:a/x`, and after the start a second route for `/1/x` and another start. -/
def firstRoute : List (HttpAction Id) :=
  [.handle ⟨bytes "GET", bytes "/:a/x", fun _ _ => .fail⟩]

def secondRoute : List (HttpAction Id) :=
  [.handle ⟨bytes "GET", bytes "/1/x", fun _ _ => .success⟩, .start true]

theorem choose_after_start_secondRoute
    : ∃ server,
        (httpMachine Id relativeUri).run (firstRoute ++ .start true :: secondRoute) = some server
        ∧ server.choose relativeUri ⟨bytes "GET", bytes "/1/x"⟩
          = (Dispatcher.registered relativeUri (handled firstRoute)).choose relativeUri
              ⟨bytes "GET", bytes "/1/x"⟩ := by
  obtain ⟨server, ran⟩ : ∃ server,
      (httpMachine Id relativeUri).run (firstRoute ++ .start true :: secondRoute)
        = some server := ⟨_, rfl⟩
  have qualifies : Registration.Qualifies relativeUri ⟨bytes "GET", bytes "/1/x"⟩
      (⟨bytes "GET", bytes "/:a/x", fun _ _ => .fail⟩ : Registration Id) := by
    decide
  have found := choose_after_start relativeUri
    (.inl ⟨_, List.mem_singleton.mpr rfl, qualifies⟩) ran
  exact ⟨server, ran, found⟩

end RVision.Http
