import Mathlib.Algebra.Group.Basic
import Mathlib.Data.List.Dedup
import RVision.Lines.Provider.Cache

/-! A request that names a sport more than once. The list comes from the client as it is, and
`fetch_delta` visits the sport again: the second visit finds `last_send` where the first one
has put it, and overwrites the delta.
-/

namespace RVision.Lines.Provider

variable {Score : Type} [Sub Score]

/-- The rest of a call, from what the earlier lines have left. -/
def fetchLines (changed : Bool) (state : Deltas Score × LinesCache Score) (lines : List String)
    : Deltas Score × LinesCache Score :=
  lines.foldl (fun state line => fetchLine state.2 state.1 changed line) state

theorem fetchDelta_eq_fetchLines (cache : LinesCache Score) (lines : List String)
    (changed : Bool)
    : fetchDelta cache lines changed = fetchLines changed (∅, cache) lines :=
  rfl

theorem fetchLines_cons (changed : Bool) (state : Deltas Score × LinesCache Score)
    (line : String) (rest : List String)
    : fetchLines changed state (line :: rest)
      = fetchLines changed (fetchLine state.2 state.1 changed line) rest :=
  rfl

/-- What the map and the cache have for one sport. -/
def entry (state : Deltas Score × LinesCache Score) (sport : String)
    : Option Score × Option (LimesDeltaCacheItem Score) :=
  (state.1.lookup sport, state.2.lookup sport)

omit [Sub Score] in
theorem ext_entry {first second : Deltas Score × LinesCache Score}
    (same : ∀ sport, entry first sport = entry second sport)
    : first = second := by
  refine Prod.ext ?_ ?_
  · exact Finmap.ext_lookup (fun sport => congrArg Prod.fst (same sport))
  · exact Finmap.ext_lookup (fun sport => congrArg Prod.snd (same sport))

-----------------------------------------------------------------------------------------
-- One visit
-----------------------------------------------------------------------------------------

omit [Sub Score] in
/-- What was sent once is sent. -/
theorem LimesDeltaCacheItem.sent_sent (item : LimesDeltaCacheItem Score) (changed : Bool)
    : (item.sent changed).sent changed = item.sent changed := by
  cases changed <;> rfl

theorem entry_fetchLine_of_ne (changed : Bool) (state : Deltas Score × LinesCache Score)
    {line sport : String} (different : sport ≠ line)
    : entry (fetchLine state.2 state.1 changed line) sport = entry state sport := by
  cases looked : state.2.lookup line with
  | none => rw [fetchLine_of_none looked]
  | some item =>
      rw [fetchLine_of_some looked]
      simp [entry, Finmap.lookup_insert_of_ne _ different]

theorem entry_fetchLine_self (changed : Bool) {state : Deltas Score × LinesCache Score}
    {line : String} {item : LimesDeltaCacheItem Score}
    (found : state.2.lookup line = some item)
    : entry (fetchLine state.2 state.1 changed line) line
      = (some (item.value changed), some (item.sent changed)) := by
  rw [fetchLine_of_some found]
  simp [entry]

-----------------------------------------------------------------------------------------
-- All visits
-----------------------------------------------------------------------------------------

/-- A sport that is not named, or not in the cache, stays as it is. -/
theorem entry_fetchLines_of_unvisited (changed : Bool)
    (state : Deltas Score × LinesCache Score) {lines : List String} {sport : String}
    (unvisited : sport ∉ lines ∨ state.2.lookup sport = none)
    : entry (fetchLines changed state lines) sport = entry state sport := by
  induction lines generalizing state with
  | nil => rfl
  | cons line rest ih =>
      have first : entry (fetchLine state.2 state.1 changed line) sport = entry state sport := by
        by_cases here : sport = line
        · subst here
          have missing : state.2.lookup sport = none := by simpa using unvisited
          rw [fetchLine_of_none missing]
        · exact entry_fetchLine_of_ne changed state here
      rw [fetchLines_cons, ih, first]
      rcases unvisited with unnamed | missing
      · exact Or.inl (fun later => unnamed (List.mem_cons_of_mem _ later))
      · refine Or.inr ?_
        rw [← missing]
        exact congrArg Prod.snd first

/-- The first visit returns what has moved, every later one what has moved since the first:
nothing. By induction on the lines, for whatever the first visit finds.
-/
theorem entry_fetchLines_of_visited (changed : Bool)
    {state : Deltas Score × LinesCache Score} {lines : List String} {sport : String}
    {item : LimesDeltaCacheItem Score} (named : sport ∈ lines)
    (found : state.2.lookup sport = some item)
    : entry (fetchLines changed state lines) sport
      = (some (if lines.count sport = 1 then item.value changed
          else (item.sent changed).value changed),
        some (item.sent changed)) := by
  induction lines generalizing state item with
  | nil => simp at named
  | cons line rest ih =>
      rw [fetchLines_cons]
      by_cases here : line = sport
      · subst here
        have first := entry_fetchLine_self changed found
        by_cases again : line ∈ rest
        · have counted : 0 < rest.count line := List.count_pos_iff.mpr again
          have several : (line :: rest).count line ≠ 1 := by
            rw [List.count_cons_self]
            omega
          rw [ih again (congrArg Prod.snd first), if_neg several,
            LimesDeltaCacheItem.sent_sent, ite_self]
        · have once : (line :: rest).count line = 1 := by
            rw [List.count_cons_self, List.count_eq_zero.mpr again]
          rw [entry_fetchLines_of_unvisited changed _ (Or.inl again), first, if_pos once]
      · have later : sport ∈ rest := by simpa [Ne.symm here] using named
        have kept := entry_fetchLine_of_ne changed state (Ne.symm here)
        rw [ih later ((congrArg Prod.snd kept).trans found), List.count_cons_of_ne here]

/-- For the second visit to return the same, nothing may have moved before the first. -/
theorem LimesDeltaCacheItem.value_sent_eq_iff (item : LimesDeltaCacheItem Score)
    (changed : Bool)
    : (item.sent changed).value changed = item.value changed
      ↔ changed = true
        ∨ item.lastRecv - item.lastSend = item.lastRecv - item.lastRecv := by
  cases changed with
  | true => simp [sent]
  | false => simp [sent, value, eq_comm]

/-- No sport that is named more than once has moved since it was last sent, or absolute scores
are asked for.
-/
def Repeatable (cache : LinesCache Score) (lines : List String) (changed : Bool) : Prop :=
  changed = true
  ∨ ∀ sport item, 2 ≤ lines.count sport → cache.lookup sport = some item →
      item.lastRecv - item.lastSend = item.lastRecv - item.lastRecv

section Repeated

variable {cache : LinesCache Score} {lines : List String} {changed : Bool} {sport : String}
  {item : LimesDeltaCacheItem Score}

/-- Whatever the number of visits, the last one returns what the first one did. -/
theorem Repeatable.entry_eq (h : Repeatable cache lines changed) (named : sport ∈ lines)
    (found : cache.lookup sport = some item)
    : entry (fetchDelta cache lines changed) sport
      = (some (item.value changed), some (item.sent changed)) := by
  rw [fetchDelta_eq_fetchLines, entry_fetchLines_of_visited changed named found]
  split
  next => rfl
  next several =>
    have present := List.count_pos_iff.mpr named
    have again : 2 ≤ lines.count sport := by omega
    rw [(item.value_sent_eq_iff changed).mpr
      (h.imp_right (fun still => still sport item again found))]

theorem repeatable_of_nodup (distinct : lines.Nodup) : Repeatable cache lines changed := by
  refine Or.inr (fun sport item several _ => ?_)
  have once := List.nodup_iff_count_le_one.mp distinct sport
  omega

/-- A repeated sport whose value is returned has not moved. -/
theorem repeatable_of_returned
    (returned : ∀ sport ∈ lines, ∀ item, cache.lookup sport = some item →
      (fetchDelta cache lines changed).1.lookup sport = some (item.value changed))
    : Repeatable cache lines changed := by
  refine or_iff_not_imp_left.mpr ?_
  intro deltas sport item several found
  have named : sport ∈ lines := List.count_pos_iff.mp (by omega)
  have visited : entry (fetchDelta cache lines changed) sport = _ :=
    entry_fetchLines_of_visited changed named found
  rw [if_neg (by omega)] at visited
  have equal := Option.some.inj
    ((congrArg Prod.fst visited).symm.trans (returned sport named item found))
  exact ((item.value_sent_eq_iff changed).mp equal).resolve_left deltas

theorem Repeatable.fetchDelta_dedup (h : Repeatable cache lines changed)
    : fetchDelta cache lines changed = fetchDelta cache lines.dedup changed := by
  refine ext_entry (fun sport => ?_)
  by_cases served : sport ∈ lines ∧ (cache.lookup sport).isSome
  · obtain ⟨named, present⟩ := served
    obtain ⟨item, found⟩ := Option.isSome_iff_exists.mp present
    have once : Repeatable cache lines.dedup changed :=
      repeatable_of_nodup (List.nodup_dedup lines)
    rw [h.entry_eq named found, once.entry_eq (List.mem_dedup.mpr named) found]
  · have unserved : sport ∉ lines ∨ cache.lookup sport = none := by
      rw [not_and_or, Option.not_isSome_iff_eq_none] at served
      exact served
    rw [fetchDelta_eq_fetchLines, fetchDelta_eq_fetchLines,
      entry_fetchLines_of_unvisited changed _ unserved,
      entry_fetchLines_of_unvisited changed _
        (unserved.imp_left (fun unnamed => mt List.mem_dedup.mp unnamed))]

/-- The request is served like one without repetitions. -/
theorem fetchDelta_dedup_iff_repeatable
    : (fetchDelta cache lines changed = fetchDelta cache lines.dedup changed
        ∧ ∀ sport ∈ lines, ∀ item, cache.lookup sport = some item →
            (fetchDelta cache lines changed).1.lookup sport = some (item.value changed))
      ↔ Repeatable cache lines changed := by
  constructor
  · exact fun same => repeatable_of_returned same.2
  · intro repeatable
    refine ⟨repeatable.fetchDelta_dedup, ?_⟩
    intro sport named item found
    exact congrArg Prod.fst (repeatable.entry_eq named found)

end Repeated

/-- A request that repeats its sports is served like one that names each of them once, and what
is noted as sent was returned, exactly where absolute scores are asked for or no sport that is
repeated has moved since it was last sent.
-/
theorem fetchDelta_dedup_iff (cache : LinesCache Score) (lines : List String) (changed : Bool)
    : (fetchDelta cache lines changed = fetchDelta cache lines.dedup changed
        ∧ ∀ sport ∈ lines, ∀ item, cache.lookup sport = some item →
            (fetchDelta cache lines changed).1.lookup sport = some (item.value changed))
      ↔ changed = true
        ∨ ∀ sport item, 2 ≤ lines.count sport → cache.lookup sport = some item →
            item.lastRecv - item.lastSend = item.lastRecv - item.lastRecv :=
  fetchDelta_dedup_iff_repeatable

/-- With exact scores, the sports that are repeated are those that were last sent as they were
last received.
-/
theorem fetchDelta_dedup_iff_sent {Score : Type} [AddGroup Score] (cache : LinesCache Score)
    (lines : List String) (changed : Bool)
    : (fetchDelta cache lines changed = fetchDelta cache lines.dedup changed
        ∧ ∀ sport ∈ lines, ∀ item, cache.lookup sport = some item →
            (fetchDelta cache lines changed).1.lookup sport = some (item.value changed))
      ↔ changed = true
        ∨ ∀ sport item, 2 ≤ lines.count sport → cache.lookup sport = some item →
            item.lastRecv = item.lastSend := by
  simp only [fetchDelta_dedup_iff_repeatable, Repeatable, sub_right_inj,
    eq_comm (a := LimesDeltaCacheItem.lastSend _)]

/-- The score of soccer has moved from 1 to 3 since it was last sent. -/
def soccerMoved : LinesCache Int :=
  Finmap.singleton "soccer" { inited := true, lastRecv := 3, lastSend := 1 }

/-- A request that names soccer twice gets 0 for it, and the movement is gone. -/
theorem fetchDelta_repeats_soccer
    : fetchDelta soccerMoved ["soccer", "soccer"] false
      ≠ fetchDelta soccerMoved ["soccer", "soccer"].dedup false := by
  intro same
  have returned := congrArg (fun state => state.1.lookup "soccer") same
  exact absurd returned (by decide)

end RVision.Lines.Provider
