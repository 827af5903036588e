import Mathlib.Algebra.Ring.Rat
import Mathlib.Algebra.BigOperators.Group.List.Basic
import RVision.Lines.Provider.Cache
import RVision.Transition.Machine

/-! Pollers and any number of `fetch_delta` calls on one cache. Each call retakes
`m_lines_cache_lock` for every line, so updates and other calls come between any two of its
lines.
-/

namespace RVision.Lines.Provider

open Transition

variable {Score : Type}

/-- One iteration of the loop of `fetch_delta`: what it found in the cache and the value it
put into the map, if any.
-/
structure Visit (Score : Type) where
  line : String
  changed : Bool
  found : Option (LimesDeltaCacheItem Score)
  value : Option Score
deriving DecidableEq

/-- A running call with the list it was given and the iterations it has made; the code keeps
neither.
-/
structure Fetching (Score : Type) where
  lines : List String
  call : FetchCall Score
  visits : List (Visit Score) := []

/-- A call that has returned. -/
structure Returned (Score : Type) where
  thread : Nat
  lines : List String
  visits : List (Visit Score)
  deltas : Deltas Score

/-- The cache, the running call of each thread, and the history of iterations and results. -/
structure TrafficState (Score : Type) where
  cache : LinesCache Score := ∅
  calls : Nat → Option (Fetching Score) := fun _ => none
  visits : List (Visit Score) := []
  results : List (Returned Score) := []

/-- `line` names the line it visits, so that a run says by itself which sport each of its
steps is about.
-/
inductive TrafficAction (Score : Type)
  | update (sport : String) (score : Score)
  | fetch (thread : Nat) (lines : List String) (changed : Bool)
  | line (thread : Nat) (line : String)
  | ret (thread : Nat)
deriving DecidableEq, Repr

/-- What the iteration of `fetching` for `line` saw and computed when it left `call`. -/
def Fetching.visit (fetching : Fetching Score) (cache : LinesCache Score) (line : String)
    (call : FetchCall Score)
    : Visit Score :=
  { line
    changed := fetching.call.changed
    found := cache.lookup line
    value := (cache.lookup line).bind (fun _ => call.deltas.lookup line) }

def trafficStep [Zero Score] [Sub Score] (s : TrafficState Score)
    : TrafficAction Score → Option (TrafficState Score)
  | .update sport score => some { s with cache := updateCache s.cache sport score }
  | .fetch thread lines changed =>
      if (s.calls thread).isNone ∧ lines.Nodup then
        some { s with
          calls := Function.update s.calls thread
            (some { lines, call := { changed, rest := lines } }) }
      else
        none
  | .line thread line =>
      (s.calls thread).bind (fun fetching =>
        if fetching.call.rest.head? = some line then
          (fetching.call.advance s.cache).map (fun next =>
            let visit := fetching.visit s.cache line next.1
            { s with
              cache := next.2
              calls := Function.update s.calls thread
                (some { fetching with
                  call := next.1, visits := fetching.visits ++ [visit] })
              visits := s.visits ++ [visit] })
        else
          none)
  | .ret thread =>
      (s.calls thread).bind (fun fetching =>
        if fetching.call.rest = [] then
          some { s with
            calls := Function.update s.calls thread none
            results := s.results
              ++ [⟨thread, fetching.lines, fetching.visits, fetching.call.deltas⟩] }
        else
          none)

/-- The cache starts empty: a provider fills it with `update_cache` as well. -/
def trafficMachine (Score : Type) [Zero Score] [Sub Score]
    : Machine (TrafficState Score) (TrafficAction Score) where
  init := {}
  step := trafficStep

-----------------------------------------------------------------------------------------
-- What one step does
-----------------------------------------------------------------------------------------

/-- What an iteration records of the item it found. -/
def Visit.of [Sub Score] (line : String) (changed : Bool)
    (found : Option (LimesDeltaCacheItem Score))
    : Visit Score :=
  { line, changed, found, value := found.map (fun item => item.value changed) }

/-- What an iteration leaves of the call. -/
def Fetching.visited [Sub Score] (fetching : Fetching Score) (line : String)
    (rest : List String) (found : Option (LimesDeltaCacheItem Score))
    : Fetching Score :=
  { fetching with
    call := match found with
      | none => { fetching.call with rest }
      | some item =>
          { fetching.call with
            rest
            deltas := fetching.call.deltas.insert line (item.value fetching.call.changed)
            found := fetching.call.found.insert line item }
    visits := fetching.visits ++ [.of line fetching.call.changed found] }

/-- What an iteration leaves of the cache. -/
def visitCache (cache : LinesCache Score) (line : String) (changed : Bool)
    : LinesCache Score :=
  match cache.lookup line with
  | none => cache
  | some item => cache.insert line (item.sent changed)

/-- The transitions with their guards. -/
inductive TrafficStep [Zero Score] [Sub Score] (s : TrafficState Score)
    : TrafficAction Score → TrafficState Score → Prop
  | update (sport : String) (score : Score)
    : TrafficStep s (.update sport score)
        { s with cache := updateCache s.cache sport score }
  | fetch {thread : Nat} {lines : List String} (changed : Bool)
    (idle : s.calls thread = none) (nodup : lines.Nodup)
    : TrafficStep s (.fetch thread lines changed)
        { s with
          calls := Function.update s.calls thread
            (some { lines, call := { changed, rest := lines } }) }
  | line {thread : Nat} {line : String} {rest : List String} {fetching : Fetching Score}
    (running : s.calls thread = some fetching) (ahead : fetching.call.rest = line :: rest)
    : TrafficStep s (.line thread line)
        { s with
          cache := visitCache s.cache line fetching.call.changed
          calls := Function.update s.calls thread
            (some (fetching.visited line rest (s.cache.lookup line)))
          visits := s.visits ++ [.of line fetching.call.changed (s.cache.lookup line)] }
  | ret {thread : Nat} {fetching : Fetching Score}
    (running : s.calls thread = some fetching) (done : fetching.call.rest = [])
    : TrafficStep s (.ret thread)
        { s with
          calls := Function.update s.calls thread none
          results := s.results
            ++ [⟨thread, fetching.lines, fetching.visits, fetching.call.deltas⟩] }

/-- An iteration as `FetchCall.advance` makes it. -/
theorem Fetching.advance_eq [Sub Score] (fetching : Fetching Score) (cache : LinesCache Score)
    {line : String} {rest : List String} (ahead : fetching.call.rest = line :: rest)
    : ∃ call,
        fetching.call.advance cache
          = some (call, visitCache cache line fetching.call.changed)
        ∧ call = (fetching.visited line rest (cache.lookup line)).call
        ∧ fetching.visit cache line call
          = .of line fetching.call.changed (cache.lookup line) := by
  cases looked : cache.lookup line with
  | none =>
      have made := fetchLine_of_none looked fetching.call.deltas fetching.call.changed
      refine ⟨_, ?_, rfl, ?_⟩
      · simp [FetchCall.advance, ahead, made, visitCache, Fetching.visited, looked]
      · simp [Fetching.visit, Visit.of, looked]
  | some item =>
      have made := fetchLine_of_some looked fetching.call.deltas fetching.call.changed
      refine ⟨_, ?_, rfl, ?_⟩
      · simp [FetchCall.advance, ahead, made, visitCache, Fetching.visited, looked]
      · simp [Fetching.visit, Visit.of, Fetching.visited, looked]

theorem trafficStep_eq_some [Zero Score] [Sub Score] {s next : TrafficState Score}
    {action : TrafficAction Score}
    : trafficStep s action = some next ↔ TrafficStep s action next := by
  constructor
  · intro taken
    cases action with
    | update sport score =>
        obtain rfl := Option.some.inj taken
        exact .update sport score
    | fetch thread lines changed =>
        obtain ⟨⟨idle, nodup⟩, effect⟩ := Option.ite_none_right_eq_some.mp taken
        obtain rfl := Option.some.inj effect
        exact .fetch changed (Option.isNone_iff_eq_none.mp idle) nodup
    | line thread line =>
        obtain ⟨fetching, running, visited⟩ := Option.bind_eq_some_iff.mp taken
        obtain ⟨first, mapped⟩ := Option.ite_none_right_eq_some.mp visited
        obtain ⟨rest, ahead⟩ := List.head?_eq_some_iff.mp first
        obtain ⟨call, advanced, rfl, visit⟩ := fetching.advance_eq s.cache ahead
        simp only [advanced, visit, Option.map_some, Option.some.injEq] at mapped
        subst next
        exact .line running ahead
    | ret thread =>
        obtain ⟨fetching, running, returned⟩ := Option.bind_eq_some_iff.mp taken
        obtain ⟨done, effect⟩ := Option.ite_none_right_eq_some.mp returned
        obtain rfl := Option.some.inj effect
        exact .ret running done
  · intro step
    cases step with
    | update sport score => rfl
    | fetch changed idle nodup => simp [trafficStep, idle, nodup]
    | @line thread line rest fetching running ahead =>
        obtain ⟨call, advanced, rfl, visit⟩ := fetching.advance_eq s.cache ahead
        have first : fetching.call.rest.head? = some line := by simp [ahead]
        simp only [trafficStep, running, Option.bind_some, first, if_true, advanced, visit,
          Option.map_some]
        rfl
    | ret running done => simp [trafficStep, running, done]

theorem lookup_visitCache_self (cache : LinesCache Score) (line : String) (changed : Bool)
    : (visitCache cache line changed).lookup line
      = (cache.lookup line).map (fun item => item.sent changed) := by
  unfold visitCache
  split <;> simp [*]

theorem lookup_visitCache_of_ne (cache : LinesCache Score) {line other : String}
    (different : other ≠ line) (changed : Bool)
    : (visitCache cache line changed).lookup other = cache.lookup other := by
  unfold visitCache
  split
  · rfl
  · exact Finmap.lookup_insert_of_ne _ different

-----------------------------------------------------------------------------------------
-- The deltas of a sport add up
-----------------------------------------------------------------------------------------

namespace Visit

/-- The iteration was for `sport`, in the branch that moves `last_send`. -/
def isDeltaOf (sport : String) (visit : Visit Score) : Bool :=
  visit.line = sport && !visit.changed

@[simp] theorem isDeltaOf_of [Sub Score] (sport line : String) (changed : Bool)
    (found : Option (LimesDeltaCacheItem Score))
    : isDeltaOf sport (.of line changed found) = (decide (line = sport) && !changed) := rfl

end Visit

/-- The values that `changed = false` iterations computed for `sport`, oldest first. -/
def deltasOf (visits : List (Visit Score)) (sport : String) : List Score :=
  (visits.filter (Visit.isDeltaOf sport)).filterMap Visit.value

/-- The scores that `changed = false` iterations read for `sport`, oldest first. -/
def readsOf (visits : List (Visit Score)) (sport : String) : List Score :=
  (visits.filter (Visit.isDeltaOf sport)).filterMap
    (fun visit => visit.found.map LimesDeltaCacheItem.lastRecv)

/-- What was sent of a sport; a sport that is not in the cache was never sent. -/
def sentOf [Zero Score] (cache : LinesCache Score) (sport : String) : Score :=
  ((cache.lookup sport).map LimesDeltaCacheItem.lastSend).getD 0

/-- What was sent is the sum of the deltas and the score that the last of them read. -/
structure Conserved [AddCommGroup Score] (s : TrafficState Score) (sport : String)
    : Prop where
  sum : (deltasOf s.visits sport).sum = sentOf s.cache sport
  last : (readsOf s.visits sport).getLast?.getD 0 = sentOf s.cache sport

section Conservation

variable [AddCommGroup Score]

/-- `update_cache` never moves `last_send`, and registers a sport with 0. -/
theorem sentOf_updateCache (cache : LinesCache Score) (updated : String) (score : Score)
    (sport : String)
    : sentOf (updateCache cache updated score) sport = sentOf cache sport := by
  by_cases here : sport = updated
  · subst updated
    cases looked : cache.lookup sport with
    | none => simp [sentOf, updateCache, looked]
    | some item => simp [sentOf, lookup_updateCache_of_some looked score, looked]
  · simp only [sentOf, lookup_updateCache_of_ne cache here score]

/-- An iteration for another sport, or with `changed = true`, leaves the sport's deltas and
what was sent of it alone.
-/
theorem Conserved.other_visit {s next : TrafficState Score} {sport : String}
    (h : Conserved s sport) {line : String} {changed : Bool}
    (other : Visit.isDeltaOf sport (.of line changed (s.cache.lookup line)) = false)
    (cache : next.cache = visitCache s.cache line changed)
    (visits : next.visits = s.visits ++ [.of line changed (s.cache.lookup line)])
    : Conserved next sport := by
  have sent : sentOf next.cache sport = sentOf s.cache sport := by
    by_cases here : sport = line
    · subst line
      have absolute : changed = true := by simpa using other
      simp [sentOf, cache, lookup_visitCache_self, absolute, LimesDeltaCacheItem.sent]
    · simp only [sentOf, cache, lookup_visitCache_of_ne s.cache here changed]
  have same : next.visits.filter (Visit.isDeltaOf sport)
      = s.visits.filter (Visit.isDeltaOf sport) := by
    simp [visits, other]
  constructor
  · rw [deltasOf, same, sent]
    exact h.sum
  · rw [readsOf, same, sent]
    exact h.last

/-- A delta is what the sum was short of the score it reads. -/
theorem Conserved.delta_visit {s next : TrafficState Score} {sport : String}
    (h : Conserved s sport) (cache : next.cache = visitCache s.cache sport false)
    (visits : next.visits = s.visits ++ [.of sport false (s.cache.lookup sport)])
    : Conserved next sport := by
  have sent : sentOf next.cache sport
      = ((s.cache.lookup sport).map LimesDeltaCacheItem.lastRecv).getD 0 := by
    cases looked : s.cache.lookup sport with
    | none => simp [sentOf, cache, lookup_visitCache_self, looked]
    | some item =>
        simp [sentOf, cache, lookup_visitCache_self, looked, LimesDeltaCacheItem.sent]
  cases looked : s.cache.lookup sport with
  | none =>
      have nothing : sentOf s.cache sport = 0 := by simp [sentOf, looked]
      rw [looked] at sent visits
      have deltas : deltasOf next.visits sport = deltasOf s.visits sport := by
        simp [deltasOf, visits, Visit.of, Visit.isDeltaOf]
      have reads : readsOf next.visits sport = readsOf s.visits sport := by
        simp [readsOf, visits, Visit.of, Visit.isDeltaOf]
      constructor
      · rw [deltas, h.sum, nothing, sent]
        rfl
      · rw [reads, h.last, nothing, sent]
        rfl
  | some item =>
      have before : sentOf s.cache sport = item.lastSend := by simp [sentOf, looked]
      rw [looked] at sent visits
      have deltas : deltasOf next.visits sport
          = deltasOf s.visits sport ++ [item.lastRecv - item.lastSend] := by
        simp [deltasOf, visits, Visit.of, Visit.isDeltaOf, LimesDeltaCacheItem.value]
      have reads : readsOf next.visits sport = readsOf s.visits sport ++ [item.lastRecv] := by
        simp [readsOf, visits, Visit.of, Visit.isDeltaOf]
      constructor
      · rw [deltas, List.sum_append, h.sum, before, sent]
        simp
      · rw [reads, List.getLast?_concat, sent]
        rfl

theorem Conserved.step {s next : TrafficState Score} {action : TrafficAction Score}
    {sport : String} (h : Conserved s sport) (taken : TrafficStep s action next)
    : Conserved next sport := by
  cases taken with
  | update updated score =>
      have sent := sentOf_updateCache s.cache updated score sport
      exact ⟨h.sum.trans sent.symm, h.last.trans sent.symm⟩
  | fetch _ _ _ => exact ⟨h.sum, h.last⟩
  | @line thread line rest fetching running ahead =>
      by_cases delta : line = sport ∧ fetching.call.changed = false
      · obtain ⟨rfl, moves⟩ := delta
        apply h.delta_visit
        · rw [moves]
        · rw [moves]
      · have other : Visit.isDeltaOf sport
            (.of line fetching.call.changed (s.cache.lookup line)) = false := by
          simpa using delta
        exact h.other_visit other rfl rfl
  | ret _ _ => exact ⟨h.sum, h.last⟩

/-- In every reachable state, what was sent of a cached sport is the sum of all deltas
computed for it, and the score that the latest delta read.
-/
theorem deltasOf_sum_eq_lastSend {s : TrafficState Score}
    (reached : (trafficMachine Score).Reachable s) {sport : String}
    {item : LimesDeltaCacheItem Score} (cached : s.cache.lookup sport = some item)
    : (deltasOf s.visits sport).sum = item.lastSend
      ∧ item.lastSend = (readsOf s.visits sport).getLast?.getD 0 := by
  have conserved : Conserved s sport := by
    apply reached.invariant (motive := fun s => Conserved s sport)
    · exact ⟨rfl, rfl⟩
    · exact fun _ _ _ _ before taken => before.step (trafficStep_eq_some.mp taken)
  have sent : sentOf s.cache sport = item.lastSend := by simp [sentOf, cached]
  exact ⟨conserved.sum.trans sent, (conserved.last.trans sent).symm⟩

end Conservation

/-- Two calls and a poller on football, with an absolute read between the deltas. -/
def interleavedRun : List (TrafficAction Rat) :=
  [.update "football" 0, .fetch 0 ["football"] false, .update "football" 3,
    .fetch 1 ["football"] true, .line 0 "football", .update "football" 5,
    .line 1 "football", .ret 0, .fetch 0 ["baseball", "football"] false,
    .line 0 "baseball", .line 0 "football"]

theorem deltasOf_interleavedRun
    : ∃ s item,
        (trafficMachine Rat).run interleavedRun = some s
        ∧ s.cache.lookup "football" = some item
        ∧ deltasOf s.visits "football" = [3, 2]
        ∧ (deltasOf s.visits "football").sum = item.lastSend
        ∧ item.lastSend = (readsOf s.visits "football").getLast?.getD 0 := by
  have reached (s : TrafficState Rat) (ran : (trafficMachine Rat).run interleavedRun = some s)
      : (trafficMachine Rat).Reachable s := ⟨interleavedRun, ran⟩
  obtain ⟨s, ran, deltas, cached⟩
      : ∃ s,
          (trafficMachine Rat).run interleavedRun = some s
          ∧ deltasOf s.visits "football" = [3, 2]
          ∧ s.cache.lookup "football" = some ⟨true, 5, 5⟩ := by
    exact ⟨_, rfl, by decide +kernel, by decide +kernel⟩
  exact ⟨s, _, ran, cached, deltas, deltasOf_sum_eq_lastSend (reached s ran) cached⟩

end RVision.Lines.Provider
