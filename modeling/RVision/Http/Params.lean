import Mathlib.Data.Finmap
import RVision.Text.Splitting
import RVision.Text.Percent

/-! The parameters of a request: `params`, and how `uri::getParams` takes a query apart. A
`std::string` is a string of bytes here. What Poco makes of a URI stands outside.
-/

namespace RVision.Http

open RVision.Text

def ampersand : UInt8 := '&'.toUInt8

def equalsSign : UInt8 := '='.toUInt8

/-- `params`, with its one member `m_params`. -/
abbrev Params := Finmap (fun _ : ByteString => ByteString)

namespace Params

/-- `set` of a map assigns its entries one after the other, over those that are there. -/
def setAll (params param : Params) : Params := param ∪ params

def set (params : Params) (name value : ByteString) : Params := params.insert name value

def get (params : Params) (name deflt : ByteString) : ByteString :=
  match params.lookup name with
  | some value => value
  | none => deflt

/-- `set` of one name after the other. -/
def assign (params : Params) (bindings : List (ByteString × ByteString)) : Params :=
  bindings.foldl (fun params binding => params.set binding.1 binding.2) params

theorem assign_cons (params : Params) (binding : ByteString × ByteString)
    (rest : List (ByteString × ByteString))
    : params.assign (binding :: rest) = (params.set binding.1 binding.2).assign rest :=
  rfl

theorem assign_append (params : Params) (first second : List (ByteString × ByteString))
    : params.assign (first ++ second) = (params.assign first).assign second :=
  List.foldl_append

/-- A name has its last binding, and keeps what it had where it is not bound. By induction on
the bindings.
-/
theorem lookup_assign (params : Params) (bindings : List (ByteString × ByteString))
    (name : ByteString)
    : (params.assign bindings).lookup name
      = ((assign ∅ bindings).lookup name <|> params.lookup name) := by
  induction bindings generalizing params with
  | nil => simp [assign]
  | cons binding rest ih =>
      rw [assign_cons, assign_cons, ih, ih (set ∅ binding.1 binding.2)]
      by_cases here : name = binding.1
      · subst here
        cases (assign ∅ rest).lookup binding.1 <;> simp [set]
      · cases (assign ∅ rest).lookup name <;> simp [set, Finmap.lookup_insert_of_ne _ here]

theorem lookup_assign_isSome_iff (bindings : List (ByteString × ByteString)) (name : ByteString)
    : ((assign ∅ bindings).lookup name).isSome ↔ name ∈ bindings.map Prod.fst := by
  induction bindings with
  | nil => simp [assign]
  | cons binding rest ih =>
      rw [assign_cons, lookup_assign, List.map_cons, List.mem_cons, ← ih]
      by_cases here : name = binding.1
      · subst here
        cases (assign ∅ rest).lookup binding.1 <;> simp [set]
      · simp [set, Finmap.lookup_insert_of_ne _ here, here]

/-- Bindings that come first leave no trace exactly where each of them is bound again or was
there before.
-/
theorem assign_assign_eq_iff (params : Params) (first second : List (ByteString × ByteString))
    : (params.assign first).assign second = params.assign second
      ↔ ∀ name value, (assign ∅ first).lookup name = some value →
          name ∈ second.map Prod.fst ∨ params.lookup name = some value := by
  have look (name : ByteString)
      : ((params.assign first).assign second).lookup name
          = ((assign ∅ second).lookup name
            <|> (assign ∅ first).lookup name <|> params.lookup name) := by
    rw [lookup_assign, lookup_assign params]
  constructor
  · intro same name value bound
    rw [← lookup_assign_isSome_iff, or_iff_not_imp_left]
    intro unbound
    have here := congrArg (Finmap.lookup name) same
    rw [look, lookup_assign params, Option.not_isSome_iff_eq_none.mp unbound, bound] at here
    simpa [eq_comm] using here
  · intro covered
    refine Finmap.ext_lookup (fun name => ?_)
    rw [look, lookup_assign params]
    cases again : (assign ∅ second).lookup name with
    | some value => simp
    | none =>
        cases bound : (assign ∅ first).lookup name with
        | none => simp
        | some value =>
            rcases covered name value bound with rebound | before
            · rw [← lookup_assign_isSome_iff, again] at rebound
              simp at rebound
            · simp [before]

/-- Where the names are distinct, each one has its only binding. -/
theorem lookup_assign_of_mem {bindings : List (ByteString × ByteString)}
    (distinct : (bindings.map Prod.fst).Nodup) {binding : ByteString × ByteString}
    (member : binding ∈ bindings)
    : (assign ∅ bindings).lookup binding.1 = some binding.2 := by
  obtain ⟨before, after, rfl⟩ := List.append_of_mem member
  have last : binding.1 ∉ after.map Prod.fst := by
    simp only [List.map_append, List.map_cons] at distinct
    exact (List.nodup_cons.mp (List.nodup_append.mp distinct).2.1).1
  have unbound : (assign ∅ after).lookup binding.1 = none := by
    rw [← lookup_assign_isSome_iff] at last
    simpa using last
  rw [assign_append, assign_cons, lookup_assign, unbound]
  simp [set]

end Params

/-- The tokens of a `Poco::StringTokenizer` without options: it splits at every separator
and keeps the empty tokens, but an empty string has none.
-/
def tokenize (text : ByteString) (separator : UInt8) : List ByteString :=
  if text = [] then [] else text.splitOn separator

/-- What the code uses of a `Poco::URI`. `query` is what `getQuery` returns, percent-decoded. -/
structure Uri where
  pathSegments : List ByteString
  query : ByteString
  empty : Bool
  query_of_empty : empty = true → query = []

namespace Uri

def getSegments (uri : Uri) : List ByteString := uri.pathSegments

/-- One round of the loop of `getParams`; `none` where `keyValueTokenizer[0]` throws. -/
def addToken (queries : Params) (token : ByteString) : Option Params :=
  let keyValueTokenizer := tokenize token equalsSign
  match keyValueTokenizer[0]? with
  | none => none
  | some name =>
      some (queries.set name
        (if 1 < keyValueTokenizer.length then keyValueTokenizer.getD 1 [] else []))

/-- `none` where it throws. -/
def getParams (uri : Uri) : Option Params :=
  if uri.empty then
    some ∅
  else if uri.query = [] then
    some ∅
  else
    let restTokenizer := tokenize uri.query ampersand
    (restTokenizer.foldlM addToken ∅).map (fun queries => Params.setAll ∅ queries)

-----------------------------------------------------------------------------------------
-- Where the query is taken apart
-----------------------------------------------------------------------------------------

/-- A URI that is empty has no query to look at. -/
theorem getParams_eq (uri : Uri)
    : uri.getParams = (tokenize uri.query ampersand).foldlM addToken ∅ := by
  unfold getParams
  split
  next empty => simp [tokenize, uri.query_of_empty empty]
  next =>
    split
    next empty => simp [tokenize, empty]
    next => simp [Params.setAll]

theorem tokenize_eq_nil_iff (text : ByteString) (separator : UInt8)
    : tokenize text separator = [] ↔ text = [] := by
  simp [tokenize, List.splitOn_ne_nil]

/-- Only an empty token has no name. -/
theorem addToken_isSome_iff (queries : Params) (token : ByteString)
    : (addToken queries token).isSome ↔ token ≠ [] := by
  rw [ne_eq, ← tokenize_eq_nil_iff token equalsSign]
  cases tokens : tokenize token equalsSign with
  | nil => simp [addToken, tokens]
  | cons name rest => simp [addToken, tokens]

/-- One round after the other, by induction on the tokens. -/
theorem foldlM_addToken_isSome_iff (queries : Params) (tokens : List ByteString)
    : (tokens.foldlM addToken queries).isSome ↔ [] ∉ tokens := by
  induction tokens generalizing queries with
  | nil => simp
  | cons token rest ih =>
      rw [List.foldlM_cons, List.mem_cons, not_or, ← ne_eq, ne_comm,
        ← addToken_isSome_iff queries]
      cases added : addToken queries token with
      | none => simp
      | some next => simpa using ih next

theorem getParams_isSome_iff_of_tokens (uri : Uri)
    : uri.getParams.isSome
      ↔ ∀ token ∈ tokenize uri.query ampersand, 0 < (tokenize token equalsSign).length := by
  rw [getParams_eq, foldlM_addToken_isSome_iff]
  constructor
  · intro absent token member
    refine List.length_pos_iff.mpr ?_
    rw [ne_eq, tokenize_eq_nil_iff]
    intro empty
    exact absent (empty ▸ member)
  · intro named empty
    have impossible := named [] empty
    simp [tokenize] at impossible

/-- `getParams` returns exactly for the query that is empty, and for those that neither begin
nor end with `&` and have no two of them in a row. Every other query throws.
-/
theorem getParams_isSome_iff (uri : Uri)
    : uri.getParams.isSome
      ↔ uri.query = []
        ∨ (uri.query.head? ≠ some ampersand
          ∧ uri.query.getLast? ≠ some ampersand
          ∧ ¬ [ampersand, ampersand] <:+: uri.query) := by
  rw [getParams_eq, foldlM_addToken_isSome_iff]
  by_cases empty : uri.query = []
  · simp [tokenize, empty]
  · rw [tokenize, if_neg empty, nil_mem_splitOn_iff]
    simp only [empty, false_or, not_or, ne_eq]

/-- `GET /ready?a=1&` -/
theorem getParams_throws_trailing_ampersand
    : (Uri.mk [bytes "ready"] (bytes "a=1&") false (by decide)).getParams.isSome = false := by
  decide

end Uri

end RVision.Http
