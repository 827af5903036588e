import RVision.Lines.Provider.Cache

/-! `lines_provider` with its pollers. A sport is a key of `m_lines_cache` under its own name
and of `m_pollers` under an address, which `add` and `rem` each put together by hand.
-/

namespace RVision.Lines.Provider

variable {Score : Type}

/-- `m_pollers`: the sport that the poller at each address polls. -/
abbrev Pollers := Finmap (fun _ : String => String)

/-- The address that `add` builds from `m_address`. -/
def addAddress (base sport : String) : String := base ++ "/" ++ sport

/-- The address that `rem` builds from `m_address`: it has a slash more. -/
def remAddress (base sport : String) : String := base ++ "//" ++ sport

/-- `lines_provider_state`. -/
inductive LinesProviderState
  | notInited
  | ready
deriving DecidableEq, Repr

/-- `state` counts the items that were updated since they were registered. -/
def cacheState (cache : LinesCache Score) : LinesProviderState :=
  let initedLines := cache.entries.countP (fun entry => entry.2.inited = true)
  if initedLines ≠ 0 ∧ initedLines = cache.entries.card then .ready else .notInited

/-- The critical section of `m_pollers_lock` in `add`: one poller an address. -/
def startPoller (base : String) (pollers : Pollers) (sport : String) : Pollers :=
  if addAddress base sport ∈ pollers then
    pollers
  else
    pollers.insert (addAddress base sport) sport

/-- The members of `lines_provider` that change; the database is apart from them. -/
structure LinesProvider (Score : Type) where
  cache : LinesCache Score := ∅
  pollers : Pollers := ∅
deriving DecidableEq

namespace LinesProvider

def state (provider : LinesProvider Score) : LinesProviderState :=
  cacheState provider.cache

/-- `add` goes through `update_cache` whether or not the sport is there. -/
def add [Zero Score] (base : String) (provider : LinesProvider Score) (sport : String)
    : LinesProvider Score :=
  { cache := updateCache provider.cache sport 0
    pollers := startPoller base provider.pollers sport }

/-- `rem` leaves the cache as it is. -/
def rem (base : String) (provider : LinesProvider Score) (sport : String)
    : LinesProvider Score :=
  if remAddress base sport ∈ provider.pollers then
    { provider with pollers := provider.pollers.erase (remAddress base sport) }
  else
    provider

/-- The callback that `add` gives to a poller. -/
def pollCallback [Zero Score] (provider : LinesProvider Score) (sport : String)
    (score : Score)
    : LinesProvider Score :=
  { provider with cache := updateCache provider.cache sport score }

end LinesProvider

-----------------------------------------------------------------------------------------
-- Addresses
-----------------------------------------------------------------------------------------

theorem addAddress_inj {base left right : String}
    : addAddress base left = addAddress base right ↔ left = right :=
  String.append_right_inj (base ++ "/")

/-- What `rem` looks for is the address of another sport. -/
theorem remAddress_eq (base sport : String)
    : remAddress base sport = addAddress base ("/" ++ sport) := by
  have slashes : "//" = "/" ++ "/" := by decide
  rw [remAddress, addAddress, slashes, ← String.append_assoc, String.append_assoc]

-----------------------------------------------------------------------------------------
-- What the operations do to a sport
-----------------------------------------------------------------------------------------

/-- Ready means that there is an item and none that was only registered. -/
theorem cacheState_eq_ready_iff (cache : LinesCache Score)
    : cacheState cache = .ready
      ↔ (∃ sport, sport ∈ cache)
        ∧ ∀ sport item, cache.lookup sport = some item → item.inited = true := by
  have all : cache.entries.countP (fun entry => entry.2.inited = true) = cache.entries.card
      ↔ ∀ sport item, cache.lookup sport = some item → item.inited = true := by
    rw [Multiset.countP_eq_card]
    constructor
    · exact fun every sport item found => every ⟨sport, item⟩ (Finmap.lookup_eq_some_iff.mp found)
    · exact fun every entry member => every entry.1 entry.2 (Finmap.lookup_eq_some_iff.mpr member)
  have someEntry : cache.entries.card ≠ 0 ↔ ∃ sport, sport ∈ cache := by
    rw [ne_eq, Multiset.card_eq_zero]
    constructor
    · intro nonempty
      obtain ⟨entry, member⟩ := Multiset.exists_mem_of_ne_zero nonempty
      exact ⟨entry.1, Finmap.mem_of_lookup_eq_some (Finmap.lookup_eq_some_iff.mpr member)⟩
    · intro known empty
      obtain ⟨sport, member⟩ := known
      obtain ⟨item, found⟩ := Finmap.mem_iff.mp member
      have entry := Finmap.lookup_eq_some_iff.mp found
      simp [empty] at entry
  rw [← all, ← someEntry]
  simp only [cacheState]
  split_ifs with counted
  · exact iff_of_true rfl ⟨counted.2 ▸ counted.1, counted.2⟩
  · refine iff_of_false (by simp) ?_
    intro full
    exact counted ⟨full.2 ▸ full.1, full.2⟩

theorem lookup_updateCache_of_none [Zero Score] {cache : LinesCache Score} {sport : String}
    (missing : cache.lookup sport = none) (score : Score)
    : (updateCache cache sport score).lookup sport
      = some { inited := false, lastRecv := score, lastSend := 0 } := by
  simp [updateCache, missing]

end RVision.Lines.Provider
