import RVision.Lines.Poller
import RVision.Lines.Provider.Storage

/-! `lines_provider` under its pollers: each poll is an exchange with the server of the lines,
and only some of them end in the callback that `add` has given to the poller.
-/

namespace RVision.Lines.Provider

open RVision.Lines.Db (Sqlite)
open RVision.Lines.Poller

variable {Score Db : Type}

/-- One `poll()` of the poller of a sport. `available` says whether the pool has a connection
for the callback.
-/
structure PollRun (Score : Type) where
  sport : String
  exchange : Exchange Score
  available : Bool

/-- A provider, and the calls of `update_line` that its callbacks have made. -/
structure PolledProvider (Score Db : Type) where
  stored : StoredProvider Score Db
  updates : List (String × Score) := []

namespace PolledProvider

def poll [Zero Score] (sqlite : Sqlite Db) (polled : PolledProvider Score Db)
    (run : PollRun Score)
    : PolledProvider Score Db :=
  match Poller.poll run.sport run.exchange with
  | none => polled
  | some (sport, score) =>
      { stored := polled.stored.pollCallback sqlite run.available sport score
        updates := polled.updates ++ [(sport, score)] }

def pollAll [Zero Score] (sqlite : Sqlite Db) (polled : PolledProvider Score Db)
    (runs : List (PollRun Score))
    : PolledProvider Score Db :=
  runs.foldl (poll sqlite) polled

end PolledProvider

/-- The numbers that the polls have brought. -/
def numbers (runs : List (PollRun Score)) : List (String × Score) :=
  runs.filterMap fun run =>
    (run.exchange.number run.sport).map (fun score => (run.sport, score))

/-- The calls that the polls have made. -/
def calls [Zero Score] (runs : List (PollRun Score)) : List (String × Score) :=
  runs.filterMap fun run => Poller.poll run.sport run.exchange

/-- A sport has what its latest number says, and one `update_line` for each number. -/
structure TakesNumbers [Zero Score] (runs : List (PollRun Score)) (sport : String)
    (polled : PolledProvider Score Db) : Prop where
  received
    : received polled.stored.provider.cache sport = some (receivedAfter (numbers runs) sport)
  updates
    : polled.updates.filter (·.1 = sport) = (numbers runs).filter (·.1 = sport)

-----------------------------------------------------------------------------------------
-- What the callbacks leave
-----------------------------------------------------------------------------------------

section Callbacks

variable [Zero Score] (sqlite : Sqlite Db)

theorem updates_pollAll (polled : PolledProvider Score Db) (runs : List (PollRun Score))
    : (polled.pollAll sqlite runs).updates = polled.updates ++ calls runs := by
  induction runs generalizing polled with
  | nil => simp [PolledProvider.pollAll, calls]
  | cons run rest ih =>
      rw [PolledProvider.pollAll, List.foldl_cons, ← PolledProvider.pollAll, ih]
      cases called : Poller.poll run.sport run.exchange with
      | none => simp [PolledProvider.poll, calls, called]
      | some call => simp [PolledProvider.poll, calls, called]

/-- A registered sport has received its latest call. By induction on the polls, the last one
apart.
-/
theorem received_pollAll {polled : PolledProvider Score Db} {sport : String}
    (registered : received polled.stored.provider.cache sport = some (false, 0))
    (runs : List (PollRun Score))
    : received (polled.pollAll sqlite runs).stored.provider.cache sport
      = some (receivedAfter (calls runs) sport) := by
  induction runs using List.reverseRecOn with
  | nil => simpa [PolledProvider.pollAll, calls, receivedAfter, latestPoll] using registered
  | append_singleton runs run ih =>
      rw [PolledProvider.pollAll, List.foldl_concat, ← PolledProvider.pollAll, calls,
        List.filterMap_append, ← calls]
      cases called : Poller.poll run.sport run.exchange with
      | none => simp [PolledProvider.poll, called, ih]
      | some call =>
          obtain ⟨named, score⟩ := call
          have added : [run].filterMap (fun run => Poller.poll run.sport run.exchange)
              = [(named, score)] := by
            simp [called]
          have cached : (PolledProvider.poll sqlite (polled.pollAll sqlite runs)
                run).stored.provider.cache
              = updateCache (polled.pollAll sqlite runs).stored.provider.cache named score := by
            simp [PolledProvider.poll, called, StoredProvider.pollCallback,
              LinesProvider.pollCallback]
          rw [added, cached]
          by_cases here : sport = named
          · subst here
            have known : ((polled.pollAll sqlite runs).stored.provider.cache.lookup
                sport).isSome = true := by
              rw [received] at ih
              exact Option.isSome_map.symm.trans (congrArg Option.isSome ih)
            rw [received_updateCache_self, known, receivedAfter, latestPoll_concat_self]
          · rw [received_updateCache_of_ne _ here, ih, receivedAfter, receivedAfter,
              latestPoll_concat_of_ne _ here]

theorem received_add {stored : StoredProvider Score Db} {sport : String}
    (new : sport ∉ stored.provider.cache) (available : Bool) (base : String)
    : received (stored.add sqlite available base sport).provider.cache sport
      = some (false, 0) := by
  have cached : (stored.add sqlite available base sport).provider.cache
      = updateCache stored.provider.cache sport 0 :=
    rfl
  rw [cached, received_updateCache_self, Finmap.lookup_eq_none.mpr new]
  rfl

end Callbacks

-----------------------------------------------------------------------------------------
-- Calls against numbers
-----------------------------------------------------------------------------------------

section Numbers

variable [Zero Score]

omit [Zero Score] in
theorem numbers_cons (run : PollRun Score) (rest : List (PollRun Score))
    : numbers (run :: rest)
      = ((run.exchange.number run.sport).map (fun score => (run.sport, score))).toList
        ++ numbers rest := by
  cases brought : run.exchange.number run.sport <;> simp [numbers, brought]

theorem calls_cons (run : PollRun Score) (rest : List (PollRun Score))
    : calls (run :: rest) = (Poller.poll run.sport run.exchange).toList ++ calls rest := by
  cases called : Poller.poll run.sport run.exchange <;> simp [calls, called]

/-- Every number is a call, by induction on the polls. -/
theorem length_numbers_le (runs : List (PollRun Score)) (sport : String)
    : ((numbers runs).filter (·.1 = sport)).length
      ≤ ((calls runs).filter (·.1 = sport)).length := by
  induction runs with
  | nil => simp [numbers, calls]
  | cons run rest ih =>
      rw [numbers_cons, calls_cons, List.filter_append, List.filter_append, List.length_append,
        List.length_append]
      refine Nat.add_le_add ?_ ih
      rcases poll_cases run.sport run.exchange with
        ⟨score, brought, called, -⟩ | ⟨silent, -, -⟩ | ⟨silent, -, -⟩
      · simp [brought, called]
      · simp [silent]
      · simp [silent]

/-- The calls for a sport are its numbers where no response lacks the entry. By induction on
the polls; a poll without the entry makes the calls outnumber the numbers for good.
-/
theorem calls_eq_numbers_iff (runs : List (PollRun Score)) (sport : String)
    : (calls runs).filter (·.1 = sport) = (numbers runs).filter (·.1 = sport)
      ↔ ∀ run ∈ runs, run.sport = sport → ¬ run.exchange.MissesEntry sport := by
  induction runs with
  | nil => simp [numbers, calls]
  | cons run rest ih =>
      rw [List.forall_mem_cons, ← ih, numbers_cons, calls_cons]
      by_cases here : run.sport = sport
      · subst here
        rcases poll_cases run.sport run.exchange with
          ⟨score, brought, called, present⟩ | ⟨silent, called, missing⟩
          | ⟨silent, called, present⟩
        · simp [brought, called, present]
        · have longer := length_numbers_le rest run.sport
          refine iff_of_false ?_ (fun all => all.1 rfl missing)
          intro same
          have lengths := congrArg List.length same
          simp [silent, called] at lengths
          omega
        · simp [silent, called, present]
      · rcases poll_cases run.sport run.exchange with
          ⟨score, brought, called, -⟩ | ⟨silent, called, -⟩ | ⟨silent, called, -⟩
        · simp [brought, called, here]
        · simp [silent, called, here]
        · simp [silent, called, here]

omit [Zero Score] in
theorem latestPoll_congr {first second : List (String × Score)} {sport : String}
    (same : first.filter (·.1 = sport) = second.filter (·.1 = sport))
    : latestPoll first sport = latestPoll second sport := by
  rw [latestPoll, latestPoll, same]

end Numbers

/-- After its registration a sport has exactly what its numbers say, whatever its polls and those
of the other sports have come to, unless one of its responses is a document without an entry
for it: that one counts as a score of 0.
-/
theorem pollAll_takesNumbers_iff [Zero Score] (sqlite : Sqlite Db) (available : Bool)
    (base : String) {stored : StoredProvider Score Db} {sport : String}
    (new : sport ∉ stored.provider.cache) (runs : List (PollRun Score))
    : TakesNumbers runs sport
        (PolledProvider.pollAll sqlite { stored := stored.add sqlite available base sport } runs)
      ↔ ∀ run ∈ runs, run.sport = sport → ¬ run.exchange.MissesEntry sport := by
  rw [← calls_eq_numbers_iff]
  let start : PolledProvider Score Db := { stored := stored.add sqlite available base sport }
  have made : (start.pollAll sqlite runs).updates = calls runs := by
    rw [updates_pollAll, List.nil_append]
  have registered : received start.stored.provider.cache sport = some (false, 0) :=
    received_add sqlite new available base
  have left := received_pollAll sqlite registered runs
  constructor
  · intro takes
    have equal := takes.updates
    rwa [made] at equal
  · intro same
    refine ⟨?_, ?_⟩
    · rw [left, receivedAfter, receivedAfter, latestPoll_congr same]
    · rw [made, same]

/-- A document that has a score for one sport alone. -/
def scoreOf (sport : String) (score : Rat) : Exchange Rat :=
  .answered httpOk (.json fun key => if key = property sport then .number score else .missing)

/-- Between failures of three kinds, football takes its one number. -/
theorem pollAll_takesNumbers_football
    : TakesNumbers
        [⟨"football", .failed, true⟩, ⟨"football", .answered 503 .notJson, true⟩,
          ⟨"football", scoreOf "football" (5 / 2), true⟩,
          ⟨"football", .answered httpOk .notJson, false⟩]
        "football"
        (PolledProvider.pollAll footballSqlite
          { stored := ({ db := [] } : StoredProvider Rat (List String)).add footballSqlite true
              "lines" "football" }
          [⟨"football", .failed, true⟩, ⟨"football", .answered 503 .notJson, true⟩,
            ⟨"football", scoreOf "football" (5 / 2), true⟩,
            ⟨"football", .answered httpOk .notJson, false⟩]) := by
  refine (pollAll_takesNumbers_iff footballSqlite true "lines" Finmap.notMem_empty _).mpr ?_
  simp [Exchange.MissesEntry, scoreOf]

/-- After one response without an entry football counts as polled, with a score of 0. -/
theorem pollAll_takes_missing_football
    : ¬ TakesNumbers [⟨"football", .answered httpOk (.json fun _ => .missing), true⟩] "football"
        (PolledProvider.pollAll footballSqlite
          { stored := ({ db := [] } : StoredProvider Rat (List String)).add footballSqlite true
              "lines" "football" }
          [⟨"football", .answered httpOk (.json fun _ => .missing), true⟩]) := by
  intro takes
  have updates := takes.updates
  rw [updates_pollAll] at updates
  simp [calls, numbers, Exchange.number, Poller.poll, getDouble] at updates

end RVision.Lines.Provider
