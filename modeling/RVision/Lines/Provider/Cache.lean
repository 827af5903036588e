import Mathlib.Data.Finmap

/-! The delta cache of `lines_provider`. `update_cache` and each iteration of the loop of
`fetch_delta` are one critical section of `m_lines_cache_lock`, so an iteration is the unit
that pollers can come between.
-/

namespace RVision.Lines.Provider

/-- `limes_delta_cache_item`. -/
structure LimesDeltaCacheItem (Score : Type) where
  inited : Bool
  lastRecv : Score
  lastSend : Score
deriving DecidableEq, Repr

/-- `m_lines_cache`, keyed by sport. -/
abbrev LinesCache (Score : Type) := Finmap (fun _ : String => LimesDeltaCacheItem Score)

/-- The map that `fetch_delta` returns. -/
abbrev Deltas (Score : Type) := Finmap (fun _ : String => Score)

variable {Score : Type}

/-- The critical section of `update_cache`: the first score only registers the sport. -/
def updateCache [Zero Score] (cache : LinesCache Score) (sport : String) (score : Score)
    : LinesCache Score :=
  match cache.lookup sport with
  | none => cache.insert sport { inited := false, lastRecv := score, lastSend := 0 }
  | some item => cache.insert sport { item with inited := true, lastRecv := score }

/-- The critical section of `fetch_delta` for one line. Only a delta moves `last_send`. -/
def fetchLine [Sub Score] (cache : LinesCache Score) (deltas : Deltas Score) (changed : Bool)
    (line : String)
    : Deltas Score × LinesCache Score :=
  match cache.lookup line with
  | none => (deltas, cache)
  | some item =>
      if !changed then
        (deltas.insert line (item.lastRecv - item.lastSend),
          cache.insert line { item with lastSend := item.lastRecv })
      else
        (deltas.insert line item.lastRecv, cache)

/-- `fetch_delta` with no poller in between: the map it returns and the cache it leaves. -/
def fetchDelta [Sub Score] (cache : LinesCache Score) (lines : List String) (changed : Bool)
    : Deltas Score × LinesCache Score :=
  lines.foldl (fun state line => fetchLine state.2 state.1 changed line) (∅, cache)

/-- The constructor adds its sports one by one, each with score 0. -/
def registered [Zero Score] (sports : List String) : LinesCache Score :=
  sports.foldl (fun cache sport => updateCache cache sport 0) ∅

/-- A call of `fetch_delta` between two of its critical sections. `found` keeps the items as
they were found; the code has no such variable.
-/
structure FetchCall (Score : Type) where
  changed : Bool
  rest : List String
  deltas : Deltas Score := ∅
  found : LinesCache Score := ∅

/-- The call goes through its next critical section, if a line is left. -/
def FetchCall.advance [Sub Score] (call : FetchCall Score) (cache : LinesCache Score)
    : Option (FetchCall Score × LinesCache Score) :=
  match call.rest with
  | [] => none
  | line :: rest =>
      let (deltas, next) := fetchLine cache call.deltas call.changed line
      let found := match cache.lookup line with
        | none => call.found
        | some item => call.found.insert line item
      some ({ call with rest, deltas, found }, next)

-----------------------------------------------------------------------------------------
-- What one critical section does
-----------------------------------------------------------------------------------------

namespace LimesDeltaCacheItem

/-- What `fetch_delta` returns for the item it found. -/
def value [Sub Score] (item : LimesDeltaCacheItem Score) (changed : Bool) : Score :=
  if changed then item.lastRecv else item.lastRecv - item.lastSend

/-- What `fetch_delta` leaves of the item it found. -/
def sent (item : LimesDeltaCacheItem Score) (changed : Bool) : LimesDeltaCacheItem Score :=
  if changed then item else { item with lastSend := item.lastRecv }

end LimesDeltaCacheItem

theorem fetchLine_of_none [Sub Score] {cache : LinesCache Score} {line : String}
    (missing : cache.lookup line = none) (deltas : Deltas Score) (changed : Bool)
    : fetchLine cache deltas changed line = (deltas, cache) := by
  simp [fetchLine, missing]

theorem fetchLine_of_some [Sub Score] {cache : LinesCache Score} {line : String}
    {item : LimesDeltaCacheItem Score} (found : cache.lookup line = some item)
    (deltas : Deltas Score) (changed : Bool)
    : fetchLine cache deltas changed line
      = (deltas.insert line (item.value changed), cache.insert line (item.sent changed)) := by
  cases changed with
  | false => simp [fetchLine, found, LimesDeltaCacheItem.value, LimesDeltaCacheItem.sent]
  | true =>
      -- The absolute branch writes nothing back.
      have same : cache.insert line item = cache := by
        refine Finmap.ext_lookup (fun sport => ?_)
        by_cases here : sport = line
        · subst sport
          rw [Finmap.lookup_insert, found]
        · rw [Finmap.lookup_insert_of_ne _ here]
      simp [fetchLine, found, LimesDeltaCacheItem.value, LimesDeltaCacheItem.sent, same]

/-- Everything a running call can do: pass over a line that is not in the cache, or note
what it found.
-/
theorem FetchCall.advance_cases [Sub Score] {call next : FetchCall Score}
    {cache after : LinesCache Score} (h : call.advance cache = some (next, after))
    : ∃ line rest,
        call.rest = line :: rest
        ∧ ((cache.lookup line = none ∧ next = { call with rest } ∧ after = cache)
          ∨ ∃ item,
              cache.lookup line = some item
              ∧ next
                = { call with
                    rest
                    deltas := call.deltas.insert line (item.value call.changed)
                    found := call.found.insert line item }
              ∧ after = cache.insert line (item.sent call.changed)) := by
  cases lines : call.rest with
  | nil => simp [advance, lines] at h
  | cons line rest =>
      refine ⟨line, rest, rfl, ?_⟩
      cases looked : cache.lookup line with
      | none =>
          have made := fetchLine_of_none looked call.deltas call.changed
          simp only [advance, lines, looked, made, Option.some.injEq, Prod.mk.injEq] at h
          exact Or.inl ⟨rfl, h.1.symm, h.2.symm⟩
      | some item =>
          have made := fetchLine_of_some looked call.deltas call.changed
          simp only [advance, lines, looked, made, Option.some.injEq, Prod.mk.injEq] at h
          exact Or.inr ⟨item, rfl, h.1.symm, h.2.symm⟩

/-- With no poller in between, the critical sections of a call add up to `fetch_delta`.
Witness: induction on the lines, from any map and cache that the earlier lines have left.
-/
theorem FetchCall.foldlM_advance [Sub Score] (cache : LinesCache Score)
    (lines : List String) (changed : Bool)
    : ∃ found,
        lines.foldlM
            (fun (state : FetchCall Score × LinesCache Score) _ => state.1.advance state.2)
            ({ changed, rest := lines }, cache)
          = some ({ changed, rest := [], deltas := (fetchDelta cache lines changed).1, found },
              (fetchDelta cache lines changed).2) := by
  have general (deltas : Deltas Score) (found : LinesCache Score)
      : ∃ after,
          lines.foldlM
              (fun (state : FetchCall Score × LinesCache Score) _ => state.1.advance state.2)
              ({ changed, rest := lines, deltas, found }, cache)
            = some
                (FetchCall.mk changed []
                  (lines.foldl (fun state line => fetchLine state.2 state.1 changed line)
                    (deltas, cache)).1
                  after,
                (lines.foldl (fun state line => fetchLine state.2 state.1 changed line)
                  (deltas, cache)).2) := by
    induction lines generalizing cache deltas found with
    | nil => exact ⟨found, rfl⟩
    | cons line rest ih =>
        rw [List.foldlM_cons, List.foldl_cons]
        exact ih _ _ _
  exact general ∅ ∅

/-- `update_cache` never touches what was sent. -/
theorem lookup_updateCache_of_some [Zero Score] {cache : LinesCache Score} {sport : String}
    {item : LimesDeltaCacheItem Score} (found : cache.lookup sport = some item)
    (score : Score)
    : (updateCache cache sport score).lookup sport
      = some { item with inited := true, lastRecv := score } := by
  simp [updateCache, found]

/-- `update_cache` leaves the other sports alone. -/
theorem lookup_updateCache_of_ne [Zero Score] (cache : LinesCache Score)
    {sport other : String} (different : other ≠ sport) (score : Score)
    : (updateCache cache sport score).lookup other = cache.lookup other := by
  unfold updateCache
  split <;> exact Finmap.lookup_insert_of_ne _ different

/-- Updating a sport that is in the cache adds none. -/
theorem mem_updateCache [Zero Score] {cache : LinesCache Score} {sport : String}
    (known : (cache.lookup sport).isSome) (score : Score) (other : String)
    : other ∈ updateCache cache sport score ↔ other ∈ cache := by
  have member := Finmap.lookup_isSome.mp known
  unfold updateCache
  split
  all_goals
    rw [Finmap.mem_insert, or_iff_right_of_imp]
    intro here
    exact here ▸ member

/-- `update_cache` puts its sport into the cache and takes none out. -/
theorem mem_updateCache_iff [Zero Score] (cache : LinesCache Score) (sport : String)
    (score : Score) (other : String)
    : other ∈ updateCache cache sport score ↔ other = sport ∨ other ∈ cache := by
  unfold updateCache
  split <;> exact Finmap.mem_insert

/-- Registering one sport after the other adds just these. -/
theorem mem_foldl_updateCache [Zero Score] (cache : LinesCache Score) (sports : List String)
    (sport : String)
    : sport ∈ sports.foldl (fun cache sport => updateCache cache sport 0) cache
      ↔ sport ∈ sports ∨ sport ∈ cache := by
  induction sports generalizing cache with
  | nil => simp
  | cons first rest ih =>
      have later := ih (updateCache cache first 0)
      rw [mem_updateCache_iff] at later
      rw [List.mem_cons, or_assoc, or_left_comm]
      exact later

theorem mem_registered [Zero Score] (sports : List String) (sport : String)
    : sport ∈ (registered sports : LinesCache Score) ↔ sport ∈ sports := by
  rw [registered, mem_foldl_updateCache, or_iff_left Finmap.notMem_empty]

end RVision.Lines.Provider
