import RVision.Http.Params

/-! Writing a map of parameters as a query and reading it back. `getParams` splits the query
after `getQuery` has decoded it, so an escaped separator splits as well.
-/

namespace RVision.Http

open RVision.Text

/-- The bytes that a writer of queries escapes. -/
structure QueryReserved extends Reserved where
  test_ampersand : test ampersand = true
  test_equalsSign : test equalsSign = true

/-- `name=value` pairs joined by `&`, with both sides of each pair percent-encoded. -/
def encodeQuery (reserved : QueryReserved) (pairs : List (ByteString × ByteString))
    : ByteString :=
  [ampersand].intercalate
    (pairs.map fun (name, value) =>
      percentEncode reserved.toReserved name
        ++ equalsSign :: percentEncode reserved.toReserved value)

/-- The same pairs with nothing encoded. -/
def plainQuery (pairs : List (ByteString × ByteString)) : ByteString :=
  [ampersand].intercalate (pairs.map fun (name, value) => name ++ equalsSign :: value)

/-- `get` finds the values of the pairs, and its default for every other name. -/
def Params.Holds (params : Params) (pairs : List (ByteString × ByteString)) : Prop :=
  (∀ pair ∈ pairs, ∀ deflt, params.get pair.1 deflt = pair.2)
  ∧ ∀ name, name ∉ pairs.map Prod.fst → ∀ deflt, params.get name deflt = deflt

def NoSeparator (text : ByteString) : Prop := ampersand ∉ text ∧ equalsSign ∉ text

instance : DecidablePred NoSeparator := fun text =>
  inferInstanceAs (Decidable (ampersand ∉ text ∧ equalsSign ∉ text))

-----------------------------------------------------------------------------------------
-- The decoded query
-----------------------------------------------------------------------------------------

/-- `getQuery` undoes the encoding as a whole, by induction on the pairs. -/
theorem decode_encodeQuery {decode : ByteString → ByteString} (decodes : DecodesPercent decode)
    (reserved : QueryReserved) (pairs : List (ByteString × ByteString))
    : decode (encodeQuery reserved pairs) = plainQuery pairs := by
  have field (name value rest : ByteString)
      : decode ((percentEncode reserved.toReserved name
            ++ equalsSign :: percentEncode reserved.toReserved value) ++ rest)
          = (name ++ equalsSign :: value) ++ decode rest := by
    rw [List.append_assoc, decodes.decode_percentEncode_append, List.cons_append,
      decodes.plain _ _ (by decide), decodes.decode_percentEncode_append, List.append_assoc,
      List.cons_append]
  induction pairs with
  | nil => exact decodes.nil
  | cons pair rest ih =>
      obtain ⟨name, value⟩ := pair
      cases rest with
      | nil => simpa [encodeQuery, plainQuery, decodes.nil] using field name value []
      | cons second rest =>
          simp only [encodeQuery, plainQuery, List.map_cons, List.intercalate_cons_cons] at ih ⊢
          rw [List.append_assoc, field, List.singleton_append, decodes.plain _ _ (by decide), ih]
          simp

-----------------------------------------------------------------------------------------
-- Without separators the pairs come back
-----------------------------------------------------------------------------------------

theorem addToken_of_noSeparator (queries : Params) {name value : ByteString}
    (named : NoSeparator name) (valued : NoSeparator value)
    : Uri.addToken queries (name ++ equalsSign :: value) = some (queries.set name value) := by
  have tokens : tokenize (name ++ equalsSign :: value) equalsSign = [name, value] := by
    rw [tokenize, if_neg (by simp), List.splitOn_append_cons_self,
      List.splitOn_eq_singleton named.2, List.splitOn_eq_singleton valued.2]
    rfl
  simp [Uri.addToken, tokens]

theorem foldlM_addToken_of_noSeparator (queries : Params)
    (pairs : List (ByteString × ByteString))
    (free : ∀ pair ∈ pairs, NoSeparator pair.1 ∧ NoSeparator pair.2)
    : (pairs.map fun (name, value) => name ++ equalsSign :: value).foldlM Uri.addToken queries
      = some (queries.assign pairs) := by
  induction pairs generalizing queries with
  | nil => rfl
  | cons pair rest ih =>
      obtain ⟨named, valued⟩ := free pair List.mem_cons_self
      rw [List.map_cons, List.foldlM_cons, addToken_of_noSeparator queries named valued]
      exact ih _ (fun later member => free later (List.mem_cons_of_mem _ member))

theorem tokenize_plainQuery {pairs : List (ByteString × ByteString)} (nonempty : pairs ≠ [])
    (free : ∀ pair ∈ pairs, NoSeparator pair.1 ∧ NoSeparator pair.2)
    : tokenize (plainQuery pairs) ampersand
      = pairs.map fun (name, value) => name ++ equalsSign :: value := by
  have split : (plainQuery pairs).splitOn ampersand
      = pairs.map fun (name, value) => name ++ equalsSign :: value := by
    refine List.splitOn_intercalate ampersand ?_ (by simpa using nonempty)
    intro piece member
    obtain ⟨pair, known, rfl⟩ := List.mem_map.mp member
    obtain ⟨named, valued⟩ := free pair known
    have different : ampersand ≠ equalsSign := by decide
    simp [named.1, valued.1, different]
  rw [tokenize, if_neg, split]
  intro empty
  -- An empty query has one empty piece, and every pair has its `=`.
  rw [empty, List.splitOn_nil] at split
  cases pairs with
  | nil => exact nonempty rfl
  | cons pair rest => simp at split

theorem Params.holds_assign {pairs : List (ByteString × ByteString)}
    (distinct : (pairs.map Prod.fst).Nodup)
    : (Params.assign ∅ pairs).Holds pairs := by
  constructor
  · intro pair member deflt
    simp [get, lookup_assign_of_mem distinct member]
  · intro name absent deflt
    rw [← lookup_assign_isSome_iff] at absent
    have unbound : (assign ∅ pairs).lookup name = none := by simpa using absent
    simp [get, unbound]

-----------------------------------------------------------------------------------------
-- Nothing that comes back has a separator
-----------------------------------------------------------------------------------------

/-- Every name and every value that was found is free of separators. -/
def Params.Free (params : Params) : Prop :=
  ∀ name value, params.lookup name = some value → NoSeparator name ∧ NoSeparator value

/-- The name and the value are pieces of the token. -/
theorem addToken_free {queries next : Params} {token : ByteString}
    (added : Uri.addToken queries token = some next) (joined : ampersand ∉ token)
    (free : queries.Free)
    : next.Free := by
  have piece {text : ByteString} (member : text ∈ tokenize token equalsSign)
      : NoSeparator text := by
    unfold tokenize at member
    split at member
    · simp at member
    · exact ⟨fun inside => joined (mem_of_mem_splitOn member inside),
        not_mem_of_mem_splitOn member⟩
  unfold Uri.addToken at added
  cases tokens : tokenize token equalsSign with
  | nil => simp [tokens] at added
  | cons name rest =>
      have valued : NoSeparator ((name :: rest).getD 1 []) := by
        cases rest with
        | nil => simp [NoSeparator]
        | cons value rest => exact piece (by simp [tokens])
      rw [tokens] at added
      simp only [List.getElem?_cons_zero, Option.some.injEq] at added
      subst added
      intro bound value found
      by_cases here : bound = name
      · subst here
        rw [Params.set, Finmap.lookup_insert, Option.some.injEq] at found
        refine ⟨piece (by simp [tokens]), ?_⟩
        rw [← found]
        split
        · exact valued
        · simp [NoSeparator]
      · rw [Params.set, Finmap.lookup_insert_of_ne _ here] at found
        exact free bound value found

theorem foldlM_addToken_free {queries params : Params} {tokens : List ByteString}
    (added : tokens.foldlM Uri.addToken queries = some params)
    (joined : ∀ token ∈ tokens, ampersand ∉ token) (free : queries.Free)
    : params.Free := by
  induction tokens generalizing queries with
  | nil =>
      rw [List.foldlM_nil, Option.pure_def, Option.some.injEq] at added
      exact added ▸ free
  | cons token rest ih =>
      rw [List.foldlM_cons] at added
      obtain ⟨next, first, later⟩ := Option.bind_eq_some_iff.mp added
      have kept := addToken_free first (joined token List.mem_cons_self) free
      exact ih later (fun token member => joined token (List.mem_cons_of_mem _ member)) kept

theorem getParams_free {uri : Uri} {params : Params} (found : uri.getParams = some params)
    : params.Free := by
  rw [Uri.getParams_eq] at found
  refine foldlM_addToken_free found ?_ (fun name value impossible => by simp at impossible)
  intro token member
  unfold tokenize at member
  split at member
  · simp at member
  · exact not_mem_of_mem_splitOn member

/-- A query gives its map back exactly where no name and no value has a separator in it: the
escapes of a separator are gone before the query is split.
-/
theorem getParams_encodeQuery_iff {decode : ByteString → ByteString}
    (decodes : DecodesPercent decode) (reserved : QueryReserved)
    {pairs : List (ByteString × ByteString)} (nonempty : pairs ≠ [])
    (distinct : (pairs.map Prod.fst).Nodup) {uri : Uri}
    (query : uri.query = decode (encodeQuery reserved pairs))
    : (∃ params, uri.getParams = some params ∧ params.Holds pairs)
      ↔ ∀ pair ∈ pairs, NoSeparator pair.1 ∧ NoSeparator pair.2 := by
  constructor
  · intro holds pair member
    obtain ⟨params, found, values, -⟩ := holds
    have looked : params.lookup pair.1 = some pair.2 := by
      -- Two defaults tell a value from a default.
      have first := values pair member []
      have second := values pair member [percent]
      cases looked : params.lookup pair.1 with
      | none => simp_all [Params.get]
      | some value => simpa [Params.get, looked] using first
    exact getParams_free found _ _ looked
  · intro free
    refine ⟨Params.assign ∅ pairs, ?_, Params.holds_assign distinct⟩
    rw [Uri.getParams_eq, query, decode_encodeQuery decodes, tokenize_plainQuery nonempty free,
      foldlM_addToken_of_noSeparator ∅ pairs free]

/-- A writer that escapes what a query or a URI gives a meaning to. -/
def delimiters : QueryReserved where
  test byte := byte ∈ bytes "%&=#"
  test_percent := by decide
  test_ampersand := by decide
  test_equalsSign := by decide

/-- `?sport=soccer&odds=50%25` -/
theorem getParams_encodeQuery_soccer
    : ∃ params,
        (Uri.mk [bytes "ready"]
            (percentDecode (encodeQuery delimiters
              [(bytes "sport", bytes "soccer"), (bytes "odds", bytes "50%")]))
            false (by decide)).getParams
          = some params
        ∧ params.Holds [(bytes "sport", bytes "soccer"), (bytes "odds", bytes "50%")] :=
  (getParams_encodeQuery_iff percentDecode_decodes delimiters (by decide) (by decide) rfl).mpr
    (by decide)

/-- The value `1&2` of `?a=1%262` comes back as `1`. -/
theorem getParams_encodeQuery_loses_ampersand
    : ¬ ∃ params,
        (Uri.mk [bytes "ready"]
            (percentDecode (encodeQuery delimiters [(bytes "a", bytes "1&2")]))
            false (by decide)).getParams
          = some params
        ∧ params.Holds [(bytes "a", bytes "1&2")] := by
  intro holds
  obtain ⟨params, found, values, -⟩ := holds
  have cut : (Uri.mk [bytes "ready"]
      (percentDecode (encodeQuery delimiters [(bytes "a", bytes "1&2")]))
      false (by decide)).getParams.map (fun params => params.get (bytes "a") [])
        = some (bytes "1") := by
    decide
  rw [found, Option.map_some, values _ List.mem_cons_self] at cut
  exact absurd cut (by decide)

end RVision.Http
