import Mathlib.Data.List.TakeWhile
import RVision.Http.Params
import RVision.Lines.Db.Statements

/-! `dispatcher`: the table of routes and how a request finds its executer. The two variables
`_executor` and `params` are shared by all rounds of the search, so a route that fails halfway
has already written to `params`.
-/

namespace RVision.Http

open RVision.Text
open RVision.Lines.Db (Errc)

def colon : UInt8 := ':'.toUInt8

/-- What `dispatcher` reads of a request. -/
structure Request where
  method : ByteString
  uri : ByteString
deriving DecidableEq

variable {m : Type → Type}

/-- An `executer` that is not empty. What it does with the response is an action of `m`. -/
abbrev Executer (m : Type → Type) := Request → Params → m Errc

structure Route (m : Type → Type) where
  segments : List ByteString
  exec : Executer m

/-- `m_executers`: the routes of each method, in the order they were added. -/
abbrev Dispatcher (m : Type → Type) := Finmap (fun _ : ByteString => List (Route m))

/-- `_executor` and `params` of `execute`. -/
structure Choice (m : Type → Type) where
  executor : Option (Executer m)
  params : Params

/-- `&(*n)[1]` is a C string: it ends at the first zero byte. -/
def paramName (segment : ByteString) : ByteString := (segment.drop 1).takeWhile (· ≠ 0)

/-- The inner loop. `(*n)[0]` is the zero byte where the segment is empty. -/
def matchSegments (exec : Executer m)
    : List ByteString → List ByteString → Choice m → Choice m
  | n :: ns, k :: ks, choice =>
      if n ≠ k ∧ n.headD 0 ≠ colon then
        { choice with executor := none }
      else
        let params :=
          if n.headD 0 = colon then choice.params.set (paramName n) k else choice.params
        matchSegments exec ns ks { executor := some exec, params }
  | _, _, choice => choice

/-- The loop over the routes of the method; it breaks once there is an executer. -/
def matchRoutes (segments : List ByteString) : List (Route m) → Choice m → Choice m
  | [], choice => choice
  | ex :: rest, choice =>
      let choice :=
        if ex.segments.length = segments.length then
          matchSegments ex.exec ex.segments segments choice
        else
          choice
      if choice.executor.isSome then choice else matchRoutes segments rest choice

/-- The loop that looks for a route without segments. -/
def matchEmpty (routes : List (Route m)) (choice : Choice m) : Choice m :=
  if choice.executor.isNone then
    { choice with executor := (routes.find? (·.segments.length = 0)).map Route.exec }
  else
    choice

namespace Dispatcher

/-- `poco` is the constructor of `Poco::URI`. -/
def add (poco : ByteString → Uri) (executers : Dispatcher m) (method uri : ByteString)
    (exec : Executer m)
    : Dispatcher m :=
  let route : Route m := { segments := (poco uri).getSegments, exec }
  executers.insert method ((executers.lookup method).getD [] ++ [route])

/-- `execute` up to its last line; `none` where `getParams` throws. -/
def choose (poco : ByteString → Uri) (executers : Dispatcher m) (request : Request)
    : Option (Choice m) :=
  let uri := poco request.uri
  uri.getParams.map fun params =>
    match executers.lookup request.method with
    | none => { executor := none, params }
    | some routes =>
        matchEmpty routes (matchRoutes uri.getSegments routes { executor := none, params })

def execute [Pure m] (poco : ByteString → Uri) (executers : Dispatcher m) (request : Request)
    : Option (m Errc) :=
  (choose poco executers request).map fun choice =>
    match choice.executor with
    | some executor => executor request choice.params
    | none => pure .notFound

end Dispatcher

-----------------------------------------------------------------------------------------
-- What is to be chosen
-----------------------------------------------------------------------------------------

/-- A segment of a route takes a segment of a path. -/
def Matches (n k : ByteString) : Prop := n = k ∨ n.head? = some colon

instance (n k : ByteString) : Decidable (Matches n k) :=
  inferInstanceAs (Decidable (n = k ∨ n.head? = some colon))

/-- The bindings of the `:name` segments, next to the segments that they take. -/
def bindings (pairs : List (ByteString × ByteString)) : List (ByteString × ByteString) :=
  pairs.filterMap fun (n, k) => if n.head? = some colon then some (paramName n, k) else none

namespace Route

/-- The route has as many segments as the path, and each one takes its own. -/
def Qualifies (segments : List ByteString) (route : Route m) : Prop :=
  List.Forall₂ Matches route.segments segments

instance (segments : List ByteString) : DecidablePred (Qualifies (m := m) segments) :=
  fun route => inferInstanceAs (Decidable (List.Forall₂ Matches route.segments segments))

def bindings (segments : List ByteString) (route : Route m)
    : List (ByteString × ByteString) :=
  Http.bindings (route.segments.zip segments)

/-- What a route of the same length binds before its first segment that does not match. -/
def partialBindings (segments : List ByteString) (route : Route m)
    : List (ByteString × ByteString) :=
  if route.segments.length = segments.length then
    Http.bindings ((route.segments.zip segments).takeWhile fun (n, k) => Matches n k)
  else
    []

end Route

/-- The first route that qualifies, else the first one without segments. -/
def selected (segments : List ByteString) (routes : List (Route m)) : Option (Route m) :=
  routes.find? (fun route => route.Qualifies segments) <|> routes.find? (·.segments = [])

theorem mem_of_selected {segments : List ByteString} {routes : List (Route m)} {route : Route m}
    (found : selected segments routes = some route)
    : route ∈ routes := by
  rw [selected, Option.orElse_eq_orElse, Option.orElse_eq_or] at found
  rcases Option.or_eq_some_iff.mp found with first | ⟨-, fallback⟩
  · exact List.mem_of_find?_eq_some first
  · exact List.mem_of_find?_eq_some fallback

/-- What the routes before the selected one have bound, in this order. -/
def rejectedBindings (segments : List ByteString) (routes : List (Route m))
    : List (ByteString × ByteString) :=
  (routes.takeWhile fun route => ¬ route.Qualifies segments).flatMap
    (Route.partialBindings segments)

-----------------------------------------------------------------------------------------
-- The loops
-----------------------------------------------------------------------------------------

theorem headD_eq_colon_iff (segment : ByteString)
    : segment.headD 0 = colon ↔ segment.head? = some colon := by
  cases segment with
  | nil => decide
  | cons byte rest => simp

/-- The executer of the last round decides: a mismatch takes it back, the last match sets it.
By induction on the segments of the route.
-/
theorem matchSegments_eq (exec : Executer m) {ns ks : List ByteString}
    (same : ns.length = ks.length) (choice : Choice m)
    : matchSegments exec ns ks choice
      = { executor :=
            if ns = [] then choice.executor
            else if List.Forall₂ Matches ns ks then some exec
            else none
          params :=
            choice.params.assign
              (bindings ((ns.zip ks).takeWhile fun (n, k) => Matches n k)) } := by
  induction ns generalizing ks choice with
  | nil => simp [matchSegments, bindings, Params.assign]
  | cons n ns ih =>
      cases ks with
      | nil => simp at same
      | cons k ks =>
          simp only [matchSegments, ne_eq, headD_eq_colon_iff]
          by_cases taken : Matches n k
          · have through : ¬ (¬ n = k ∧ ¬ n.head? = some colon) := by
              intro refused
              exact taken.elim refused.1 refused.2
            have shorter : ns.length = ks.length := by simpa using same
            rw [if_neg through, ih shorter, Choice.mk.injEq]
            constructor
            · cases ns with
              | nil =>
                  have ended : ks = [] := List.length_eq_zero_iff.mp shorter.symm
                  simp [ended, taken]
              | cons second ns => simp [taken]
            · rw [List.zip_cons_cons, List.takeWhile_cons_of_pos (by simpa using taken)]
              by_cases bound : n.head? = some colon
              · simp [bindings, bound, Params.assign_cons]
              · simp [bindings, bound]
          · have stopped : ¬ n = k ∧ ¬ n.head? = some colon := not_or.mp taken
            simp [stopped, taken, bindings, Params.assign]

/-- A path without segments only meets routes without segments, and they set nothing. -/
theorem matchRoutes_nil (routes : List (Route m)) (params : Params)
    : matchRoutes [] routes { executor := none, params } = { executor := none, params } := by
  induction routes with
  | nil => rfl
  | cons ex rest ih =>
      unfold matchRoutes
      by_cases same : ex.segments.length = ([] : List ByteString).length
      · have empty : ex.segments = [] := List.length_eq_zero_iff.mp same
        simp [empty, matchSegments, ih]
      · rw [if_neg same]
        simpa using ih

theorem Route.Qualifies.length_eq {segments : List ByteString} {route : Route m}
    (qualifies : route.Qualifies segments)
    : route.segments.length = segments.length :=
  List.Forall₂.length_eq qualifies

/-- A route that qualifies has no segment where its bindings would stop. -/
theorem Route.partialBindings_of_qualifies {segments : List ByteString} {route : Route m}
    (qualifies : route.Qualifies segments)
    : route.partialBindings segments = route.bindings segments := by
  have all : (route.segments.zip segments).takeWhile (fun (n, k) => Matches n k)
      = route.segments.zip segments := by
    refine List.takeWhile_eq_self_iff.mpr ?_
    intro pair member
    simpa using List.forall₂_zip qualifies member
  rw [partialBindings, if_pos qualifies.length_eq, all, bindings]

/-- One round of the search, on a path with segments. -/
theorem matchRoute_eq {segments : List ByteString} (nonempty : segments ≠ []) (ex : Route m)
    (params : Params)
    : (if ex.segments.length = segments.length then
        matchSegments ex.exec ex.segments segments { executor := none, params }
      else
        { executor := none, params })
      = { executor := if ex.Qualifies segments then some ex.exec else none
          params := params.assign (ex.partialBindings segments) } := by
  by_cases same : ex.segments.length = segments.length
  · have present : ex.segments ≠ [] := by
      intro empty
      rw [empty] at same
      exact nonempty (List.length_eq_zero_iff.mp same.symm)
    rw [if_pos same, matchSegments_eq _ same, if_neg present, Route.partialBindings,
      if_pos same]
    rfl
  · have refused : ¬ ex.Qualifies segments := fun qualifies => same qualifies.length_eq
    simp [same, refused, Route.partialBindings, Params.assign]

/-- The search stops at the first route that qualifies, with all that was bound on the way
there. By induction on the routes.
-/
theorem matchRoutes_eq {segments : List ByteString} (nonempty : segments ≠ [])
    (routes : List (Route m)) (params : Params)
    : matchRoutes segments routes { executor := none, params }
      = { executor := (routes.find? (fun route => route.Qualifies segments)).map Route.exec
          params :=
            (params.assign (rejectedBindings segments routes)).assign
              (((routes.find? (fun route => route.Qualifies segments)).map
                (Route.bindings segments)).getD []) } := by
  induction routes generalizing params with
  | nil => simp [matchRoutes, rejectedBindings, Params.assign]
  | cons ex rest ih =>
      unfold matchRoutes
      rw [matchRoute_eq nonempty]
      by_cases qualifies : ex.Qualifies segments
      · simp [qualifies, Route.partialBindings_of_qualifies, rejectedBindings, Params.assign]
      · have later : rejectedBindings segments (ex :: rest)
            = ex.partialBindings segments ++ rejectedBindings segments rest := by
          simp [rejectedBindings, qualifies]
        simp [qualifies, ih, later, Params.assign_append]

/-- All that `execute` does before it calls the executer, for the routes of the method. -/
theorem matchEmpty_matchRoutes_eq (segments : List ByteString) (routes : List (Route m))
    (params : Params)
    : matchEmpty routes (matchRoutes segments routes { executor := none, params })
      = { executor := (selected segments routes).map Route.exec
          params :=
            (params.assign (rejectedBindings segments routes)).assign
              (((selected segments routes).map (Route.bindings segments)).getD []) } := by
  have noSegments (route : Route m)
      : decide (route.segments.length = 0) = decide (route.segments = []) := by
    simp [List.length_eq_zero_iff]
  have fallback {route : Route m} (found : routes.find? (·.segments = []) = some route)
      : route.bindings segments = [] := by
    have empty : route.segments = [] := by simpa using List.find?_some found
    simp [Route.bindings, bindings, empty]
  by_cases empty : segments = []
  · -- Here a route qualifies where it has no segments, and binds nothing.
    subst empty
    have same (route : Route m) : decide (route.Qualifies []) = decide (route.segments = []) := by
      simp [Route.Qualifies]
    have chosen : selected [] routes = routes.find? (·.segments = []) := by
      simp [selected, same]
    have unbound : rejectedBindings [] routes = [] := by
      simp [rejectedBindings, Route.partialBindings, bindings]
    rw [matchRoutes_nil, chosen, unbound]
    simp only [matchEmpty, noSegments]
    cases last : routes.find? (·.segments = []) with
    | none => simp [Params.assign]
    | some route => simp [fallback last, Params.assign]
  · rw [matchRoutes_eq empty]
    cases found : routes.find? (fun route => route.Qualifies segments) with
    | some route => simp [matchEmpty, selected, found]
    | none =>
        simp only [matchEmpty, selected, found, noSegments]
        cases last : routes.find? (·.segments = []) with
        | none => simp
        | some route => simp [fallback last]

-----------------------------------------------------------------------------------------
-- The table
-----------------------------------------------------------------------------------------

/-- The arguments of one call of `add`. -/
structure Registration (m : Type → Type) where
  method : ByteString
  uri : ByteString
  exec : Executer m

namespace Registration

def route (poco : ByteString → Uri) (registration : Registration m) : Route m :=
  { segments := (poco registration.uri).getSegments, exec := registration.exec }

/-- Registered for the method of the request, with a route that takes its path. -/
def Qualifies (poco : ByteString → Uri) (request : Request) (registration : Registration m)
    : Prop :=
  registration.method = request.method
  ∧ List.Forall₂ Matches (poco registration.uri).getSegments (poco request.uri).getSegments

/-- Registered for the method of the request, with no segments. -/
def TakesRest (poco : ByteString → Uri) (request : Request) (registration : Registration m)
    : Prop :=
  registration.method = request.method ∧ (poco registration.uri).getSegments = []

instance (poco : ByteString → Uri) (request : Request)
    : DecidablePred (Qualifies (m := m) poco request) := fun registration =>
  inferInstanceAs (Decidable (registration.method = request.method
    ∧ List.Forall₂ Matches (poco registration.uri).getSegments (poco request.uri).getSegments))

instance (poco : ByteString → Uri) (request : Request)
    : DecidablePred (TakesRest (m := m) poco request) := fun registration =>
  inferInstanceAs (Decidable (registration.method = request.method
    ∧ (poco registration.uri).getSegments = []))

end Registration

namespace Dispatcher

/-- The table after a sequence of calls of `add`. -/
def registered (poco : ByteString → Uri) (registrations : List (Registration m))
    : Dispatcher m :=
  registrations.foldl
    (fun executers registration =>
      add poco executers registration.method registration.uri registration.exec)
    ∅

def routes (executers : Dispatcher m) (method : ByteString) : List (Route m) :=
  (executers.lookup method).getD []

theorem choose_eq (poco : ByteString → Uri) (executers : Dispatcher m) (request : Request)
    : choose poco executers request
      = (poco request.uri).getParams.map fun params =>
          let segments := (poco request.uri).getSegments
          let routes := executers.routes request.method
          { executor := (selected segments routes).map Route.exec
            params :=
              (params.assign (rejectedBindings segments routes)).assign
                (((selected segments routes).map (Route.bindings segments)).getD []) } := by
  unfold choose routes
  cases looked : executers.lookup request.method with
  | none => simp [selected, rejectedBindings, Params.assign]
  | some routes => simp [matchEmpty_matchRoutes_eq]

theorem routes_add (poco : ByteString → Uri) (executers : Dispatcher m)
    (registration : Registration m) (method : ByteString)
    : (add poco executers registration.method registration.uri registration.exec).routes method
      = executers.routes method
        ++ if registration.method = method then [registration.route poco] else [] := by
  by_cases here : registration.method = method
  · subst here
    simp [add, routes, Registration.route]
  · simp [add, routes, Finmap.lookup_insert_of_ne _ (Ne.symm here), here]

/-- `add` keeps the order, method by method. By induction on the calls, from any table. -/
theorem routes_registered (poco : ByteString → Uri) (registrations : List (Registration m))
    (method : ByteString)
    : (registered poco registrations).routes method
      = (registrations.filter (·.method = method)).map (Registration.route poco) := by
  have general (executers : Dispatcher m)
      : (registrations.foldl
            (fun executers registration =>
              add poco executers registration.method registration.uri registration.exec)
            executers).routes method
          = executers.routes method
            ++ (registrations.filter (·.method = method)).map (Registration.route poco) := by
    induction registrations generalizing executers with
    | nil => simp
    | cons registration rest ih =>
        rw [List.foldl_cons, ih, routes_add]
        by_cases here : registration.method = method
        · simp [here]
        · simp [here]
  simpa [registered, routes] using general ∅

/-- The selected route, as a registration. -/
theorem selected_routes_registered (poco : ByteString → Uri)
    (registrations : List (Registration m)) (request : Request)
    : selected (poco request.uri).getSegments
          ((registered poco registrations).routes request.method)
      = (registrations.find? (·.Qualifies poco request)
          <|> registrations.find? (·.TakesRest poco request)).map
        (Registration.route poco) := by
  have qualifies : (registrations.filter (·.method = request.method)).find?
        ((fun route => decide (route.Qualifies (poco request.uri).getSegments))
          ∘ Registration.route poco)
      = registrations.find? (·.Qualifies poco request) := by
    rw [List.find?_filter]
    congr 1
    funext registration
    exact decide_eq_decide.mpr (and_congr decide_eq_true_iff decide_eq_true_iff)
  have takesRest : (registrations.filter (·.method = request.method)).find?
        ((fun route => decide (route.segments = [])) ∘ Registration.route poco)
      = registrations.find? (·.TakesRest poco request) := by
    rw [List.find?_filter]
    congr 1
    funext registration
    exact decide_eq_decide.mpr (and_congr decide_eq_true_iff decide_eq_true_iff)
  rw [selected, routes_registered, List.find?_map, List.find?_map, qualifies, takesRest]
  cases registrations.find? (·.Qualifies poco request) with
  | none => rfl
  | some registration => rfl

/-- A request whose query parses is answered by the first registration that qualifies for it,
else by the first one of its method without segments, and is not found where there is neither.
`m` is arbitrary, so what `execute` returns is that one call and nothing besides.
-/
theorem execute_registered [Pure m] (poco : ByteString → Uri)
    (registrations : List (Registration m)) (request : Request) {query : Params}
    (parses : (poco request.uri).getParams = some query)
    : match registrations.find? (·.Qualifies poco request)
        <|> registrations.find? (·.TakesRest poco request) with
      | some registration =>
          ∃ params,
            execute poco (registered poco registrations) request
              = some (registration.exec request params)
      | none =>
          execute poco (registered poco registrations) request = some (pure Errc.notFound) := by
  have chosen := selected_routes_registered poco registrations request
  rw [execute, choose_eq, parses, Option.map_some, Option.map_some]
  cases found : registrations.find? (·.Qualifies poco request)
      <|> registrations.find? (·.TakesRest poco request) with
  | none =>
      rw [found, Option.map_none] at chosen
      simp [chosen]
  | some registration =>
      rw [found, Option.map_some] at chosen
      simp only [chosen, Option.map_some]
      exact ⟨_, rfl⟩

/-- A path, and a query behind it where there is a `?`. Empty segments are dropped. -/
def relativeUri (text : ByteString) : Uri where
  pathSegments := ((text.takeWhile (· ≠ '?'.toUInt8)).splitOn '/'.toUInt8).filter (· ≠ [])
  query := percentDecode ((text.dropWhile (· ≠ '?'.toUInt8)).drop 1)
  empty := text.isEmpty
  query_of_empty := by
    intro empty
    simp [List.isEmpty_iff.mp empty, percentDecode]

/-- `/:a/x`, and another route with two segments behind it. -/
def twoRoutes (uri : ByteString) : List (Registration Id) :=
  [⟨bytes "GET", bytes "/:a/x", fun _ _ => .fail⟩, ⟨bytes "GET", uri, fun _ _ => .success⟩]

/-- `/:a/x` and `/:a/y`: the second one takes `/1/y`. -/
theorem execute_registered_second
    : ∃ params,
        execute relativeUri (registered relativeUri (twoRoutes (bytes "/:a/y")))
          ⟨bytes "GET", bytes "/1/y"⟩
        = some ((fun _ _ => .success : Executer Id) ⟨bytes "GET", bytes "/1/y"⟩ params) := by
  have answered := execute_registered relativeUri (twoRoutes (bytes "/:a/y"))
    ⟨bytes "GET", bytes "/1/y"⟩ rfl
  have first : ¬ Registration.Qualifies relativeUri ⟨bytes "GET", bytes "/1/y"⟩
      (⟨bytes "GET", bytes "/:a/x", fun _ _ => .fail⟩ : Registration Id) := by
    decide
  have second : Registration.Qualifies relativeUri ⟨bytes "GET", bytes "/1/y"⟩
      (⟨bytes "GET", bytes "/:a/y", fun _ _ => .success⟩ : Registration Id) := by
    decide
  simpa [twoRoutes, first, second] using answered

/-- What `execute` hands to the executer is what the route asks for, except where an earlier
route has left a binding behind: for a name that the selected route does not bind again, and
with another value than the query gives it.
-/
theorem choose_eq_bindings_iff (poco : ByteString → Uri) (executers : Dispatcher m)
    (request : Request) {query : Params} {route : Route m}
    (parses : (poco request.uri).getParams = some query)
    (chosen : selected (poco request.uri).getSegments (executers.routes request.method)
      = some route)
    : choose poco executers request
        = some { executor := some route.exec
                 params := query.assign (route.bindings (poco request.uri).getSegments) }
      ↔ ∀ name value,
          (Params.assign ∅ (rejectedBindings (poco request.uri).getSegments
            (executers.routes request.method))).lookup name = some value →
          name ∈ (route.bindings (poco request.uri).getSegments).map Prod.fst
          ∨ query.lookup name = some value := by
  rw [choose_eq, parses, Option.map_some]
  simp only [chosen, Option.map_some, Option.getD_some, Option.some.injEq, Choice.mk.injEq,
    true_and]
  exact Params.assign_assign_eq_iff _ _ _

/-- `/:a/y` binds the name again that `/:a/x` has left. -/
theorem choose_eq_bindings_rebound
    : choose relativeUri (registered relativeUri (twoRoutes (bytes "/:a/y")))
        ⟨bytes "GET", bytes "/1/y"⟩
      = some { executor := some fun _ _ => .success
               params := Params.assign ∅ [(bytes "a", bytes "1")] } := by
  have chosen : selected (relativeUri (bytes "/1/y")).getSegments
        ((registered relativeUri (twoRoutes (bytes "/:a/y"))).routes (bytes "GET"))
      = some ⟨[bytes ":a", bytes "y"], fun _ _ => .success⟩ :=
    rfl
  refine (choose_eq_bindings_iff relativeUri _ ⟨bytes "GET", bytes "/1/y"⟩ rfl chosen).mpr ?_
  intro name value bound
  have left : name ∈ [(bytes "a", bytes "1")].map Prod.fst :=
    (Params.lookup_assign_isSome_iff _ _).mp (Option.isSome_iff_exists.mpr ⟨value, bound⟩)
  exact Or.inl left

/-- `/:b/y` is called for `/1/y` with the binding of `a` that `/:a/x` has left. -/
theorem choose_keeps_rejected_binding
    : choose relativeUri (registered relativeUri (twoRoutes (bytes "/:b/y")))
        ⟨bytes "GET", bytes "/1/y"⟩
      ≠ some { executor := some fun _ _ => .success
               params := Params.assign ∅ [(bytes "b", bytes "1")] } := by
  intro same
  have bound := congrArg (Option.map fun choice => choice.params.lookup (bytes "a")) same
  exact absurd bound (by decide)

end Dispatcher

end RVision.Http
