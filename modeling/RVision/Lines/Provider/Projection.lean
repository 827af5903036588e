import RVision.Lines.Provider.Traffic

/-! Sports do not interfere: what happens to one sport is decided by the steps about it. A
run is projected on a sport by deleting the steps about other sports and cutting the lists of
its calls down to that sport.
-/

namespace RVision.Lines.Provider

open Transition

variable {Score : Type}

/-- The part of a step that is about `sport`, if any. -/
def projectAction (sport : String) : TrafficAction Score → Option (TrafficAction Score)
  | .update updated score => if updated = sport then some (.update updated score) else none
  | .fetch thread lines changed =>
      some (.fetch thread (lines.filter (fun line => line = sport)) changed)
  | .line thread line => if line = sport then some (.line thread line) else none
  | .ret thread => some (.ret thread)

/-- The run without the steps about other sports. -/
def project (sport : String) (actions : List (TrafficAction Score))
    : List (TrafficAction Score) :=
  actions.filterMap (projectAction sport)

/-- What each returned call had for `sport`, oldest first. -/
def returnedFor (results : List (Returned Score)) (sport : String)
    : List (Nat × Option Score) :=
  results.map (fun result => (result.thread, result.deltas.lookup sport))

-----------------------------------------------------------------------------------------
-- A run and its projection
-----------------------------------------------------------------------------------------

/-- `right` is `left` cut down to `sport`. -/
structure Fetching.CutTo (sport : String) (left right : Fetching Score) : Prop where
  changed : right.call.changed = left.call.changed
  rest : right.call.rest = left.call.rest.filter (fun line => line = sport)
  value : right.call.deltas.lookup sport = left.call.deltas.lookup sport

/-- The states of a run and of its projection on `sport`. -/
structure TrafficState.CutTo (sport : String) (left right : TrafficState Score) : Prop where
  cached : right.cache.lookup sport = left.cache.lookup sport
  calls : ∀ thread, Option.Rel (Fetching.CutTo sport) (left.calls thread) (right.calls thread)
  visits : right.visits = left.visits.filter (fun visit => visit.line = sport)
  results : returnedFor right.results sport = returnedFor left.results sport

/-- Moving one thread of both runs alike keeps their calls related. -/
theorem calls_cutTo_update {sport : String} {left right : Nat → Option (Fetching Score)}
    (h : ∀ thread, Option.Rel (Fetching.CutTo sport) (left thread) (right thread))
    (thread : Nat) {mine its : Option (Fetching Score)}
    (moved : Option.Rel (Fetching.CutTo sport) mine its)
    : ∀ other,
        Option.Rel (Fetching.CutTo sport) (Function.update left thread mine other)
          (Function.update right thread its other) := by
  intro other
  by_cases here : other = thread
  · subst other
    simpa using moved
  · simpa [here] using h other

/-- The related call of a running one. -/
theorem TrafficState.CutTo.running {sport : String} {left right : TrafficState Score}
    (h : left.CutTo sport right) {thread : Nat} {fetching : Fetching Score}
    (running : left.calls thread = some fetching)
    : ∃ cut, right.calls thread = some cut ∧ fetching.CutTo sport cut := by
  have related := h.calls thread
  rw [running] at related
  cases other : right.calls thread with
  | none => simp [other] at related
  | some cut => exact ⟨cut, rfl, by simpa [other] using related⟩

/-- `update_cache` reads nothing but the entry it writes. -/
theorem lookup_updateCache_congr [Zero Score] {left right : LinesCache Score} {sport : String}
    (same : right.lookup sport = left.lookup sport) (score : Score)
    : (updateCache right sport score).lookup sport
      = (updateCache left sport score).lookup sport := by
  unfold updateCache
  rw [same]
  cases left.lookup sport <;> simp

section Simulation

variable [Zero Score] [Sub Score]

/-- A step about another sport leaves the projected run where it is. -/
theorem TrafficState.CutTo.erased {sport : String} {left right next : TrafficState Score}
    {action : TrafficAction Score} (h : left.CutTo sport right)
    (taken : TrafficStep left action next) (other : projectAction sport action = none)
    : next.CutTo sport right := by
  cases taken with
  | update updated score =>
      have different : sport ≠ updated := by
        intro same
        simp [projectAction, same] at other
      have kept := lookup_updateCache_of_ne left.cache different score
      exact ⟨h.cached.trans kept.symm, h.calls, h.visits, h.results⟩
  | fetch _ _ _ => simp [projectAction] at other
  | @line thread line rest fetching running ahead =>
      have different : sport ≠ line := by
        intro same
        simp [projectAction, same] at other
      obtain ⟨cut, its, related⟩ := h.running running
      have kept := lookup_visitCache_of_ne left.cache different fetching.call.changed
      refine ⟨h.cached.trans kept.symm, ?_, ?_, h.results⟩
      · intro which
        by_cases here : which = thread
        · subst which
          have passed
              : (fetching.visited line rest (left.cache.lookup line)).CutTo sport cut := by
            refine ⟨?_, ?_, ?_⟩
            · rw [related.changed]
              unfold Fetching.visited
              split <;> rfl
            · rw [related.rest, ahead]
              unfold Fetching.visited
              split <;> simp [different.symm]
            · rw [related.value]
              unfold Fetching.visited
              split
              · rfl
              · exact (Finmap.lookup_insert_of_ne _ different).symm
          simpa [its] using passed
        · simpa [here] using h.calls which
      · rw [h.visits]
        simp [Visit.of, different.symm]
  | ret _ _ => simp [projectAction] at other

/-- A step about the sport is taken in the projected run as well, with the same effect on
the sport.
-/
theorem TrafficState.CutTo.answered {sport : String} {left right next : TrafficState Score}
    {action label : TrafficAction Score} (h : left.CutTo sport right)
    (taken : TrafficStep left action next) (mine : projectAction sport action = some label)
    : ∃ after, TrafficStep right label after ∧ next.CutTo sport after := by
  cases taken with
  | update updated score =>
      obtain ⟨same, kept⟩ := Option.ite_none_right_eq_some.mp mine
      obtain rfl := Option.some.inj kept
      subst updated
      refine ⟨_, .update sport score, ?_⟩
      exact ⟨lookup_updateCache_congr h.cached score, h.calls, h.visits, h.results⟩
  | @fetch thread lines changed idle nodup =>
      obtain rfl := Option.some.inj mine
      have free : right.calls thread = none := by
        have related := h.calls thread
        rw [idle] at related
        cases other : right.calls thread with
        | none => rfl
        | some _ => simp [other] at related
      refine ⟨_, .fetch changed free (nodup.filter _), ?_⟩
      refine ⟨h.cached, ?_, h.visits, h.results⟩
      apply calls_cutTo_update h.calls thread
      exact .some ⟨rfl, rfl, rfl⟩
  | @line thread line rest fetching running ahead =>
      obtain ⟨same, kept⟩ := Option.ite_none_right_eq_some.mp mine
      obtain rfl := Option.some.inj kept
      subst line
      obtain ⟨cut, its, related⟩ := h.running running
      have next : cut.call.rest = sport :: rest.filter (fun line => line = sport) := by
        simp [related.rest, ahead]
      refine ⟨_, .line its next, ?_⟩
      refine ⟨?_, ?_, ?_, h.results⟩
      · simp only [lookup_visitCache_self, h.cached, related.changed]
      · apply calls_cutTo_update h.calls thread
        rw [h.cached]
        cases looked : left.cache.lookup sport with
        | none => exact .some ⟨related.changed, rfl, related.value⟩
        | some item =>
            refine .some ⟨related.changed, rfl, ?_⟩
            simp only [Fetching.visited, Finmap.lookup_insert, related.changed]
      · simp [h.visits, h.cached, related.changed, Visit.of]
  | @ret thread fetching running done =>
      obtain rfl := Option.some.inj mine
      obtain ⟨cut, its, related⟩ := h.running running
      have finished : cut.call.rest = [] := by simp [related.rest, done]
      refine ⟨_, .ret its finished, ?_⟩
      refine ⟨h.cached, calls_cutTo_update h.calls thread .none, h.visits, ?_⟩
      have results := h.results
      unfold returnedFor at results ⊢
      simp [results, related.value]

/-- A run and its projection on a sport end in related states. -/
theorem run_project {actions : List (TrafficAction Score)} {s : TrafficState Score}
    (ran : (trafficMachine Score).run actions = some s) (sport : String)
    : ∃ view,
        (trafficMachine Score).run (project sport actions) = some view
        ∧ s.CutTo sport view := by
  apply Machine.run_filterMap _ _ _ ran
  · exact ⟨rfl, fun _ => .none, rfl, rfl⟩
  · intro left right action next related taken other
    exact related.erased (trafficStep_eq_some.mp taken) other
  · intro left right action next label related taken mine
    obtain ⟨after, moved, same⟩ := related.answered (trafficStep_eq_some.mp taken) mine
    exact ⟨after, trafficStep_eq_some.mpr moved, same⟩

end Simulation

-----------------------------------------------------------------------------------------
-- The keys of a result
-----------------------------------------------------------------------------------------

/-- The iterations made and the lines to come are the requested list, and the map has the
lines that were in the cache when they were visited.
-/
structure Fetching.Faithful (fetching : Fetching Score) : Prop where
  lines : fetching.visits.map Visit.line ++ fetching.call.rest = fetching.lines
  keys
    : ∀ sport,
        sport ∈ fetching.call.deltas
        ↔ ∃ visit ∈ fetching.visits, visit.line = sport ∧ visit.found.isSome

/-- A result's keys are the requested sports that were in the cache when visited, and each
requested sport was visited once, in the requested order.
-/
structure Returned.Faithful (result : Returned Score) : Prop where
  lines : result.visits.map Visit.line = result.lines
  keys
    : ∀ sport,
        sport ∈ result.deltas
        ↔ sport ∈ result.lines
          ∧ ∃ visit ∈ result.visits, visit.line = sport ∧ visit.found.isSome

theorem Fetching.Faithful.visited [Sub Score] {fetching : Fetching Score}
    (h : fetching.Faithful) {line : String} {rest : List String}
    (ahead : fetching.call.rest = line :: rest) (found : Option (LimesDeltaCacheItem Score))
    : (fetching.visited line rest found).Faithful := by
  have lines := h.lines
  have keys := h.keys
  rw [ahead] at lines
  cases found with
  | none =>
      refine ⟨by simpa [Fetching.visited, Visit.of] using lines, ?_⟩
      intro sport
      refine (keys sport).trans ?_
      simp [Fetching.visited, Visit.of]
  | some item =>
      refine ⟨by simpa [Fetching.visited, Visit.of] using lines, ?_⟩
      intro sport
      refine Finmap.mem_insert.trans ?_
      rw [keys sport]
      simp only [Fetching.visited, Visit.of, List.mem_append, List.mem_singleton]
      constructor
      · intro either
        rcases either with rfl | ⟨visit, member, about, present⟩
        · exact ⟨_, Or.inr rfl, rfl, rfl⟩
        · exact ⟨visit, Or.inl member, about, present⟩
      · intro visited
        obtain ⟨visit, earlier | rfl, about, present⟩ := visited
        · exact Or.inr ⟨visit, earlier, about, present⟩
        · exact Or.inl about.symm

theorem Fetching.Faithful.returned {fetching : Fetching Score} (h : fetching.Faithful)
    (done : fetching.call.rest = []) (thread : Nat)
    : Returned.Faithful
        ⟨thread, fetching.lines, fetching.visits, fetching.call.deltas⟩ := by
  have lines := h.lines
  rw [done, List.append_nil] at lines
  refine ⟨lines, ?_⟩
  intro sport
  refine (h.keys sport).trans ⟨?_, And.right⟩
  intro visited
  refine ⟨?_, visited⟩
  obtain ⟨visit, member, about, _⟩ := visited
  rw [← lines, ← about]
  exact List.mem_map_of_mem member

/-- All running and returned calls are faithful. -/
structure TrafficState.Faithful (s : TrafficState Score) : Prop where
  calls : ∀ thread fetching, s.calls thread = some fetching → fetching.Faithful
  results : ∀ result ∈ s.results, result.Faithful

section Keys

variable [Zero Score] [Sub Score]

theorem TrafficState.Faithful.step {s next : TrafficState Score}
    {action : TrafficAction Score} (h : s.Faithful) (taken : TrafficStep s action next)
    : next.Faithful := by
  -- A step that moves one thread to a faithful call, or to none, keeps the others.
  have moved {thread : Nat} {call : Option (Fetching Score)}
      (new : ∀ fetching, call = some fetching → fetching.Faithful)
      : ∀ other fetching,
          Function.update s.calls thread call other = some fetching → fetching.Faithful := by
    intro other fetching running
    by_cases here : other = thread
    · subst other
      exact new fetching (by simpa using running)
    · exact h.calls other fetching (by simpa [here] using running)
  cases taken with
  | update sport score => exact ⟨h.calls, h.results⟩
  | @fetch thread lines changed idle nodup =>
      refine ⟨moved ?_, h.results⟩
      intro fetching begun
      obtain rfl := Option.some.inj begun
      refine ⟨rfl, fun sport => ?_⟩
      simp [Finmap.notMem_empty]
  | @line thread line rest fetching running ahead =>
      refine ⟨moved ?_, h.results⟩
      intro visited made
      obtain rfl := Option.some.inj made
      exact (h.calls thread fetching running).visited ahead _
  | @ret thread fetching running done =>
      refine ⟨moved (by simp), ?_⟩
      intro result member
      rcases List.mem_append.mp member with earlier | new
      · exact h.results result earlier
      · obtain rfl := List.mem_singleton.mp new
        exact (h.calls thread fetching running).returned done thread

theorem faithful_of_reachable {s : TrafficState Score}
    (reached : (trafficMachine Score).Reachable s)
    : s.Faithful := by
  apply reached.invariant (motive := TrafficState.Faithful)
  · exact ⟨by simp [trafficMachine], by simp [trafficMachine]⟩
  · exact fun _ _ _ _ before taken => before.step (trafficStep_eq_some.mp taken)

end Keys

-----------------------------------------------------------------------------------------
-- Whole operations
-----------------------------------------------------------------------------------------

theorem fetchLine_cache [Sub Score] (cache : LinesCache Score) (deltas : Deltas Score)
    (changed : Bool) (line : String)
    : (fetchLine cache deltas changed line).2 = visitCache cache line changed := by
  cases looked : cache.lookup line with
  | none => simp [fetchLine_of_none looked, visitCache, looked]
  | some item => simp [fetchLine_of_some looked, visitCache, looked]

theorem lookup_fetchLine [Sub Score] (cache : LinesCache Score) (deltas : Deltas Score)
    (changed : Bool) (line sport : String)
    : (fetchLine cache deltas changed line).1.lookup sport
      = if sport = line then
          ((cache.lookup sport).map (fun item => item.value changed)).or (deltas.lookup sport)
        else
          deltas.lookup sport := by
  split_ifs with here
  · subst line
    cases looked : cache.lookup sport with
    | none => simp [fetchLine_of_none looked]
    | some item => simp [fetchLine_of_some looked]
  · cases looked : cache.lookup line with
    | none => simp [fetchLine_of_none looked]
    | some item =>
        rw [fetchLine_of_some looked]
        exact Finmap.lookup_insert_of_ne _ here

/-- Sport by sport, what `fetch_delta` returns and leaves. Witness: induction on the lines;
the head is not met again.
-/
theorem lookup_fetchDelta [Sub Score] (cache : LinesCache Score) {lines : List String}
    (nodup : lines.Nodup) (changed : Bool) (sport : String)
    : (fetchDelta cache lines changed).1.lookup sport
        = (if sport ∈ lines then
            (cache.lookup sport).map (fun item => item.value changed)
          else
            none)
      ∧ (fetchDelta cache lines changed).2.lookup sport
        = (if sport ∈ lines then
            (cache.lookup sport).map (fun item => item.sent changed)
          else
            cache.lookup sport) := by
  have general (deltas : Deltas Score)
      : (lines.foldl (fun state line => fetchLine state.2 state.1 changed line)
            (deltas, cache)).1.lookup sport
          = (if sport ∈ lines then
              ((cache.lookup sport).map (fun item => item.value changed)).or
                (deltas.lookup sport)
            else
              deltas.lookup sport)
        ∧ (lines.foldl (fun state line => fetchLine state.2 state.1 changed line)
            (deltas, cache)).2.lookup sport
          = (if sport ∈ lines then
              (cache.lookup sport).map (fun item => item.sent changed)
            else
              cache.lookup sport) := by
    induction lines generalizing cache deltas with
    | nil => simp
    | cons line rest ih =>
        obtain ⟨fresh, nodup⟩ := List.nodup_cons.mp nodup
        obtain ⟨values, caches⟩ := ih (visitCache cache line changed) nodup
          (fetchLine cache deltas changed line).1
        have split : fetchLine cache deltas changed line
            = ((fetchLine cache deltas changed line).1, visitCache cache line changed) :=
          Prod.ext rfl (fetchLine_cache cache deltas changed line)
        rw [List.foldl_cons, split, values, caches, lookup_fetchLine]
        by_cases here : sport = line
        · subst line
          simp [fresh, lookup_visitCache_self]
        · simp [here, lookup_visitCache_of_ne cache here]
  simpa [fetchDelta] using general ∅

/-- `fetch_delta` does not depend on the order of its list. -/
theorem fetchDelta_perm [Sub Score] (cache : LinesCache Score) {lines order : List String}
    (nodup : lines.Nodup) (permuted : order.Perm lines) (changed : Bool)
    : fetchDelta cache order changed = fetchDelta cache lines changed := by
  have alike (sport : String) := lookup_fetchDelta cache nodup changed sport
  have ordered (sport : String) :=
    lookup_fetchDelta cache (permuted.nodup_iff.mpr nodup) changed sport
  apply Prod.ext
  · apply Finmap.ext_lookup
    intro sport
    rw [(alike sport).1, (ordered sport).1]
    simp only [permuted.mem_iff]
  · apply Finmap.ext_lookup
    intro sport
    rw [(alike sport).2, (ordered sport).2]
    simp only [permuted.mem_iff]

/-- A whole call with no step in between. -/
inductive Operation (Score : Type)
  | update (sport : String) (score : Score)
  | fetch (lines : List String) (nodup : lines.Nodup) (changed : Bool)

namespace Operation

def sports : Operation Score → List String
  | .update sport _ => [sport]
  | .fetch lines _ _ => lines

/-- The map that the operation returns, empty for an update, and the cache it leaves. -/
def apply [Zero Score] [Sub Score] (operation : Operation Score) (cache : LinesCache Score)
    : Deltas Score × LinesCache Score :=
  match operation with
  | .update sport score => (∅, updateCache cache sport score)
  | .fetch lines _ changed => fetchDelta cache lines changed

variable [Zero Score] [Sub Score]

/-- An operation leaves every other sport alone. -/
theorem lookup_apply_of_not_mem (operation : Operation Score) (cache : LinesCache Score)
    {sport : String} (other : sport ∉ operation.sports)
    : (operation.apply cache).2.lookup sport = cache.lookup sport := by
  cases operation with
  | update updated score =>
      exact lookup_updateCache_of_ne cache (by simpa [sports] using other) score
  | fetch lines nodup changed =>
      exact (lookup_fetchDelta cache nodup changed sport).2.trans (if_neg other)

/-- An operation reads nothing but the entries of its own sports. -/
theorem apply_congr (operation : Operation Score) {left right : LinesCache Score}
    (same : ∀ sport ∈ operation.sports, right.lookup sport = left.lookup sport)
    : (operation.apply right).1 = (operation.apply left).1
      ∧ ∀ sport ∈ operation.sports,
          (operation.apply right).2.lookup sport = (operation.apply left).2.lookup sport := by
  cases operation with
  | update updated score =>
      refine ⟨rfl, fun sport member => ?_⟩
      obtain rfl := List.mem_singleton.mp member
      exact lookup_updateCache_congr (same sport member) score
  | fetch lines nodup changed =>
      have mine (sport : String) := lookup_fetchDelta left nodup changed sport
      have its (sport : String) := lookup_fetchDelta right nodup changed sport
      constructor
      · apply Finmap.ext_lookup
        intro sport
        refine (its sport).1.trans (Eq.trans ?_ (mine sport).1.symm)
        split_ifs with member
        · rw [same sport member]
        · rfl
      · intro sport member
        refine (its sport).2.trans (Eq.trans ?_ (mine sport).2.symm)
        rw [same sport member]

/-- Both orders of the two operations return the same maps and leave the same cache. -/
def Commutes (first second : Operation Score) : Prop :=
  ∀ cache : LinesCache Score,
    (first.apply (second.apply cache).2).1 = (first.apply cache).1
    ∧ (second.apply (first.apply cache).2).1 = (second.apply cache).1
    ∧ (second.apply (first.apply cache).2).2 = (first.apply (second.apply cache).2).2

theorem commutes_of_disjoint {first second : Operation Score}
    (apart : first.sports.Disjoint second.sports)
    : first.Commutes second := by
  intro cache
  have mine := first.apply_congr (fun sport member =>
    second.lookup_apply_of_not_mem cache (apart member))
  have its := second.apply_congr (fun sport member =>
    first.lookup_apply_of_not_mem cache (apart.symm member))
  refine ⟨mine.1, its.1, Finmap.ext_lookup (fun sport => ?_)⟩
  by_cases inFirst : sport ∈ first.sports
  · rw [second.lookup_apply_of_not_mem _ (apart inFirst), mine.2 sport inFirst]
  · rw [first.lookup_apply_of_not_mem _ inFirst]
    by_cases inSecond : sport ∈ second.sports
    · exact its.2 sport inSecond
    · rw [second.lookup_apply_of_not_mem _ inSecond,
        second.lookup_apply_of_not_mem _ inSecond,
        first.lookup_apply_of_not_mem _ inFirst]

end Operation

-----------------------------------------------------------------------------------------
-- Runs that agree sport by sport
-----------------------------------------------------------------------------------------

/-- What the calls returned, oldest first. -/
def outcomes (results : List (Returned Score)) : List (Nat × Deltas Score) :=
  results.map (fun result => (result.thread, result.deltas))

theorem outcomes_eq {left right : List (Returned Score)}
    (same : ∀ sport, returnedFor left sport = returnedFor right sport)
    : outcomes left = outcomes right := by
  induction left generalizing right with
  | nil =>
      have empty : right = [] := by simpa [returnedFor] using (same "").symm
      simp [empty]
  | cons first rest ih =>
      cases right with
      | nil => simpa [returnedFor] using same ""
      | cons other others =>
          have split (sport : String) := List.cons.inj (same sport)
          have deltas : first.deltas = other.deltas := by
            apply Finmap.ext_lookup
            exact fun sport => (Prod.mk.inj (split sport).1).2
          have threads : first.thread = other.thread := (Prod.mk.inj (split "").1).1
          have later := ih (fun sport => (split sport).2)
          simpa [outcomes, deltas, threads] using later

section Runs

variable [Zero Score] [Sub Score]

/-- Two runs with the same steps about each sport end with the same cache and results: the
order of the lines of a call, and of steps about different sports, does not matter.
-/
theorem outcomes_eq_of_project_eq {actions others : List (TrafficAction Score)}
    {s t : TrafficState Score} (ran : (trafficMachine Score).run actions = some s)
    (ranToo : (trafficMachine Score).run others = some t)
    (same : ∀ sport, project sport others = project sport actions)
    : t.cache = s.cache ∧ outcomes t.results = outcomes s.results := by
  have agree (sport : String)
      : t.cache.lookup sport = s.cache.lookup sport
        ∧ returnedFor t.results sport = returnedFor s.results sport := by
    obtain ⟨view, projected, mine⟩ := run_project ran sport
    obtain ⟨view', projectedToo, its⟩ := run_project ranToo sport
    rw [same sport, projected] at projectedToo
    obtain rfl := Option.some.inj projectedToo
    exact ⟨its.cached.symm.trans mine.cached, its.results.symm.trans mine.results⟩
  exact ⟨Finmap.ext_lookup (fun sport => (agree sport).1),
    outcomes_eq (fun sport => (agree sport).2)⟩

/-- Sports do not interfere. A run has, for each sport, the iterations, the returned values
and the final entry of its projection; hence the keys of every result, the order of a list,
and the exchange of operations on different sports.
-/
theorem sports_independent {actions : List (TrafficAction Score)} {s : TrafficState Score}
    (ran : (trafficMachine Score).run actions = some s)
    : (∀ sport, ∃ view,
        (trafficMachine Score).run (project sport actions) = some view
        ∧ view.cache.lookup sport = s.cache.lookup sport
        ∧ view.visits = s.visits.filter (fun visit => visit.line = sport)
        ∧ returnedFor view.results sport = returnedFor s.results sport)
      ∧ (∀ result ∈ s.results, result.Faithful)
      ∧ (∀ others t,
          (trafficMachine Score).run others = some t
          → (∀ sport, project sport others = project sport actions)
          → t.cache = s.cache ∧ outcomes t.results = outcomes s.results)
      ∧ (∀ (cache : LinesCache Score) (lines order : List String) (changed : Bool),
          lines.Nodup
          → order.Perm lines
          → fetchDelta cache order changed = fetchDelta cache lines changed)
      ∧ ∀ first second : Operation Score,
          first.sports.Disjoint second.sports → first.Commutes second := by
  refine ⟨?_, ?_, ?_, ?_, ?_⟩
  · intro sport
    obtain ⟨view, projected, cut⟩ := run_project ran sport
    exact ⟨view, projected, cut.cached, cut.visits, cut.results⟩
  · exact (faithful_of_reachable ⟨actions, ran⟩).results
  · exact fun others t ranToo same => outcomes_eq_of_project_eq ran ranToo same
  · exact fun cache lines order changed nodup permuted =>
      fetchDelta_perm cache nodup permuted changed
  · exact fun first second apart => Operation.commutes_of_disjoint apart

end Runs

/-- A call for three sports, one of them unknown, that two pollers come into. -/
def mixedRun : List (TrafficAction Rat) :=
  [.update "football" 0, .update "baseball" 0, .update "football" 4,
    .fetch 0 ["football", "soccer", "baseball"] false, .line 0 "football",
    .update "football" 5, .update "baseball" 2, .line 0 "soccer", .line 0 "baseball",
    .ret 0]

theorem sports_independent_mixedRun
    : ∃ s,
        (trafficMachine Rat).run mixedRun = some s
        ∧ returnedFor s.results "baseball" = [(0, some 2)]
        ∧ returnedFor s.results "soccer" = [(0, none)]
        ∧ ∃ view,
            (trafficMachine Rat).run (project "baseball" mixedRun) = some view
            ∧ returnedFor view.results "baseball" = [(0, some 2)] := by
  obtain ⟨s, ran, baseball, soccer⟩
      : ∃ s,
          (trafficMachine Rat).run mixedRun = some s
          ∧ returnedFor s.results "baseball" = [(0, some 2)]
          ∧ returnedFor s.results "soccer" = [(0, none)] :=
    ⟨_, rfl, by decide +kernel, by decide +kernel⟩
  obtain ⟨view, projected, _, _, results⟩ := (sports_independent ran).1 "baseball"
  exact ⟨s, ran, baseball, soccer, view, projected, results.trans baseball⟩

end RVision.Lines.Provider
