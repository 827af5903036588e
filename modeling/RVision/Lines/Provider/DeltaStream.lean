import Mathlib.Algebra.Ring.Rat
import Mathlib.Tactic.Abel
import RVision.Lines.Provider.Cache
import RVision.Transition.Machine

/-! What a consumer makes of the stream of `fetch_delta` results. Absolute and delta results
share the one `last_send` of a sport, and only the delta branch moves it.
-/

namespace RVision.Lines.Provider

open Transition

variable {Score : Type}

/-- What the consumer knows of each sport of the current subscription. `base` is the item
that the absolute read found; the consumer does not see it.
-/
structure Consumer (Score : Type) where
  est : String → Option Score := fun _ => none
  base : String → Option (LimesDeltaCacheItem Score) := fun _ => none

/-- A `changed = true` result opens a subscription and sets its sports; a `changed = false`
result is added to what is set.
-/
def Consumer.accept [Add Score] (consumer : Consumer Score) (call : FetchCall Score)
    : Consumer Score :=
  if call.changed then
    { est := fun sport => call.deltas.lookup sport
      base := fun sport => call.found.lookup sport }
  else
    { consumer with
      est := fun sport =>
        (consumer.est sport).map (fun est =>
          match call.deltas.lookup sport with
          | some delta => est + delta
          | none => est) }

/-- A returned call with the consumer that has taken it in. -/
structure Result (Score : Type) where
  call : FetchCall Score
  consumer : Consumer Score

/-- The cache, the writer's call of `fetch_delta` if one is running, and the results. -/
structure StreamState (Score : Type) where
  cache : LinesCache Score
  called : Bool := false
  fetch : Option (FetchCall Score) := none
  consumer : Consumer Score := {}
  results : List (Result Score) := []

inductive StreamAction (Score : Type)
  | update (sport : String) (score : Score)
  | fetch (lines : List String) (changed : Bool)
  | line
  | ret
deriving DecidableEq, Repr

/-- Pollers update sports that are in the cache; the writer makes one call at a time, on a
list without duplicates, and its first one with `changed = true`.
-/
def streamStep [AddCommGroup Score] (s : StreamState Score)
    : StreamAction Score → Option (StreamState Score)
  | .update sport score =>
      if (s.cache.lookup sport).isSome then
        some { s with cache := updateCache s.cache sport score }
      else
        none
  | .fetch lines changed =>
      if s.fetch.isNone ∧ lines.Nodup ∧ (s.called = true ∨ changed = true) then
        some { s with called := true, fetch := some { changed, rest := lines } }
      else
        none
  | .line =>
      s.fetch.bind (fun call =>
        (call.advance s.cache).map (fun next =>
          { s with fetch := some next.1, cache := next.2 }))
  | .ret =>
      s.fetch.bind (fun call =>
        if call.rest = [] then
          some { s with
            fetch := none
            consumer := s.consumer.accept call
            results := s.results ++ [{ call, consumer := s.consumer.accept call }] }
        else
          none)

/-- A provider whose constructor has added `sports`. -/
def streamMachine (Score : Type) [AddCommGroup Score] (sports : List String)
    : Machine (StreamState Score) (StreamAction Score) where
  init := { cache := registered sports }
  step := streamStep

namespace Result

/-- The consumer's value of every sport in the result that is set is the score that was in
the cache when the sport was read.
-/
def Reconstructed (result : Result Score) : Prop :=
  ∀ sport est,
    sport ∈ result.call.deltas
    → result.consumer.est sport = some est
    → (result.call.found.lookup sport).map LimesDeltaCacheItem.lastRecv = some est

/-- A delta is added only to a sport whose absolute read found nothing that was still to be
sent.
-/
def Settled (result : Result Score) : Prop :=
  result.call.changed = false
  → ∀ sport item,
      sport ∈ result.call.deltas
      → result.consumer.base sport = some item
      → item.lastRecv = item.lastSend

end Result

-----------------------------------------------------------------------------------------
-- The distance between the consumer and `last_send`
-----------------------------------------------------------------------------------------

/-- The consumer is as far from `last_send` as the absolute read was. -/
def Balanced [Sub Score] (cache : LinesCache Score) (consumer : Consumer Score)
    (sport : String) : Prop :=
  (consumer.est sport = none ∧ consumer.base sport = none)
  ∨ ∃ est item current,
      consumer.est sport = some est
      ∧ consumer.base sport = some item
      ∧ cache.lookup sport = some current
      ∧ est - current.lastSend = item.lastRecv - item.lastSend

/-- A running call has noted what it found, reads no line twice, and after a delta
`last_send` is what was read.
-/
structure Tracked [Sub Score] (cache : LinesCache Score) (call : FetchCall Score)
    : Prop where
  nodup : call.rest.Nodup
  fresh : ∀ sport ∈ call.rest, call.found.lookup sport = none
  values
    : ∀ sport,
        call.deltas.lookup sport
          = (call.found.lookup sport).map (fun item => item.value call.changed)
  baseline
    : ∀ sport item,
        call.found.lookup sport = some item
        → ∃ current,
            cache.lookup sport = some current
            ∧ current.lastSend = (item.sent call.changed).lastSend

/-- The consumer as it will be if the running call returns with what it has so far. -/
def StreamState.view [Add Score] (s : StreamState Score) : Consumer Score :=
  match s.fetch with
  | some call => s.consumer.accept call
  | none => s.consumer

structure StreamInvariant [AddCommGroup Score] (s : StreamState Score) : Prop where
  balanced : ∀ sport, Balanced s.cache s.view sport
  tracked : ∀ call, s.fetch = some call → Tracked s.cache call
  results : ∀ result ∈ s.results, result.Reconstructed ↔ result.Settled

section Invariant

variable [AddCommGroup Score]

/-- A cache in which no sport was sent more keeps the distance. -/
theorem Balanced.of_lastSend {cache after : LinesCache Score} {consumer : Consumer Score}
    {sport : String} (h : Balanced cache consumer sport)
    (kept : ∀ current, cache.lookup sport = some current
      → ∃ next, after.lookup sport = some next ∧ next.lastSend = current.lastSend)
    : Balanced after consumer sport := by
  rcases h with unset | ⟨est, item, current, set, read, known, distance⟩
  · exact Or.inl unset
  · obtain ⟨next, looked, sent⟩ := kept current known
    exact Or.inr ⟨est, item, next, set, read, looked, sent ▸ distance⟩

/-- `update_cache` leaves every `last_send` alone. -/
theorem lastSend_updateCache (cache : LinesCache Score) (sport : String) (score : Score)
    (other : String) (current : LimesDeltaCacheItem Score)
    (found : cache.lookup other = some current)
    : ∃ next,
        (updateCache cache sport score).lookup other = some next
        ∧ next.lastSend = current.lastSend := by
  by_cases here : other = sport
  · subst other
    exact ⟨_, lookup_updateCache_of_some found score, rfl⟩
  · exact ⟨current, (lookup_updateCache_of_ne cache here score).trans found, rfl⟩

theorem StreamInvariant.update {s : StreamState Score} (h : StreamInvariant s)
    (sport : String) (score : Score)
    : StreamInvariant { s with cache := updateCache s.cache sport score } := by
  have kept := lastSend_updateCache s.cache sport score
  refine ⟨?_, ?_, h.results⟩
  · exact fun other => (h.balanced other).of_lastSend (kept other)
  · intro call running
    have tracked := h.tracked call running
    refine ⟨tracked.nodup, tracked.fresh, tracked.values, ?_⟩
    intro other item found
    obtain ⟨current, looked, sent⟩ := tracked.baseline other item found
    obtain ⟨next, after, same⟩ := kept other current looked
    exact ⟨next, after, same.trans sent⟩

/-- A call that has just begun changes nothing for the consumer, or forgets everything. -/
theorem StreamInvariant.fetch {s : StreamState Score} (h : StreamInvariant s)
    (idle : s.fetch = none) {lines : List String} (nodup : lines.Nodup) (changed : Bool)
    : StreamInvariant { s with called := true, fetch := some { changed, rest := lines } } := by
  have before : s.view = s.consumer := by simp [StreamState.view, idle]
  refine ⟨?_, ?_, h.results⟩
  · intro sport
    cases changed with
    | true => exact Or.inl ⟨rfl, rfl⟩
    | false =>
        have same : s.consumer.accept { changed := false, rest := lines } = s.consumer := by
          simp [Consumer.accept]
        have known := h.balanced sport
        rw [before] at known
        simpa [StreamState.view, same] using known
  · intro call running
    cases running
    exact ⟨nodup, by simp, by simp, by simp⟩

/-- Reading a sport keeps its distance: an absolute read sets the consumer to what was
found, a delta moves the consumer and `last_send` by the same amount.
-/
theorem balanced_read {cache : LinesCache Score} {consumer : Consumer Score}
    {call : FetchCall Score} (tracked : Tracked cache call) {line : String}
    (new : call.found.lookup line = none) {item : LimesDeltaCacheItem Score}
    (looked : cache.lookup line = some item)
    (before : Balanced cache (consumer.accept call) line) (rest : List String)
    : Balanced (cache.insert line (item.sent call.changed))
        (consumer.accept
          { call with
            rest
            deltas := call.deltas.insert line (item.value call.changed)
            found := call.found.insert line item }) line := by
  have unread : call.deltas.lookup line = none := by simp [tracked.values, new]
  obtain ⟨changed, lines, deltas, found⟩ := call
  cases changed with
  | true =>
      refine Or.inr ⟨item.lastRecv, item, item, ?_, ?_, ?_, rfl⟩
      · simp [Consumer.accept, LimesDeltaCacheItem.value]
      · simp [Consumer.accept]
      · simp [LimesDeltaCacheItem.sent]
  | false =>
      replace unread : deltas.lookup line = none := unread
      rcases before with ⟨unset, unread⟩ | ⟨est, base, current, set, read, known, distance⟩
      · simp only [Consumer.accept, Bool.false_eq_true, if_false, Option.map_eq_none_iff]
          at unset unread
        exact Or.inl ⟨by simp [Consumer.accept, unset], by simp [Consumer.accept, unread]⟩
      · obtain rfl : current = item := Option.some.inj (known.symm.trans looked)
        simp only [Consumer.accept, Bool.false_eq_true, if_false, unread,
          Option.map_eq_some_iff, exists_eq_right] at set read
        refine Or.inr ⟨est + (current.lastRecv - current.lastSend), base,
          current.sent false, ?_, ?_, ?_, ?_⟩
        · simp [Consumer.accept, set, LimesDeltaCacheItem.value]
        · simp [Consumer.accept, read]
        · simp
        · rw [← distance]
          simp only [LimesDeltaCacheItem.sent, Bool.false_eq_true, if_false]
          abel

/-- Reading one sport leaves every other one as it was. -/
theorem balanced_other {cache : LinesCache Score} {consumer : Consumer Score}
    {call : FetchCall Score} {sport line : String} (different : sport ≠ line)
    (before : Balanced cache (consumer.accept call) sport) (rest : List String)
    (value : Score) (item after : LimesDeltaCacheItem Score)
    : Balanced (cache.insert line after)
        (consumer.accept
          { call with
            rest
            deltas := call.deltas.insert line value
            found := call.found.insert line item }) sport := by
  have delta : (call.deltas.insert line value).lookup sport = call.deltas.lookup sport :=
    Finmap.lookup_insert_of_ne _ different
  have found : (call.found.insert line item).lookup sport = call.found.lookup sport :=
    Finmap.lookup_insert_of_ne _ different
  have looked : (cache.insert line after).lookup sport = cache.lookup sport :=
    Finmap.lookup_insert_of_ne _ different
  simpa only [Balanced, Consumer.accept, apply_ite Consumer.est, apply_ite Consumer.base,
    ite_apply, delta, found, looked] using before

theorem Tracked.read {cache : LinesCache Score} {call : FetchCall Score}
    (h : Tracked cache call) {line : String} {rest : List String}
    (lines : call.rest = line :: rest) {item : LimesDeltaCacheItem Score}
    : Tracked (cache.insert line (item.sent call.changed))
        { call with
          rest
          deltas := call.deltas.insert line (item.value call.changed)
          found := call.found.insert line item } := by
  have nodup := h.nodup
  rw [lines, List.nodup_cons] at nodup
  refine ⟨nodup.2, ?_, ?_, ?_⟩
  · intro sport member
    have different : sport ≠ line := fun same => nodup.1 (same ▸ member)
    rw [Finmap.lookup_insert_of_ne _ different]
    exact h.fresh sport (by simp [lines, member])
  · intro sport
    by_cases here : sport = line
    · subst sport
      simp
    · simp only [Finmap.lookup_insert_of_ne _ here]
      exact h.values sport
  · intro sport other found
    by_cases here : sport = line
    · subst sport
      obtain rfl : item = other := by simpa using found
      exact ⟨_, Finmap.lookup_insert _, rfl⟩
    · rw [Finmap.lookup_insert_of_ne _ here] at found ⊢
      exact h.baseline sport other found

theorem StreamInvariant.line {s : StreamState Score} (h : StreamInvariant s)
    {call next : FetchCall Score} {after : LinesCache Score} (running : s.fetch = some call)
    (advanced : call.advance s.cache = some (next, after))
    : StreamInvariant { s with fetch := some next, cache := after } := by
  have tracked := h.tracked call running
  have view : s.view = s.consumer.accept call := by simp [StreamState.view, running]
  have balanced := h.balanced
  rw [view] at balanced
  obtain ⟨line, rest, lines, skipped | read⟩ := FetchCall.advance_cases advanced
  · obtain ⟨_, rfl, rfl⟩ := skipped
    refine ⟨balanced, ?_, h.results⟩
    intro call running
    cases running
    have nodup := tracked.nodup
    rw [lines, List.nodup_cons] at nodup
    refine ⟨nodup.2, ?_, tracked.values, tracked.baseline⟩
    exact fun sport member => tracked.fresh sport (by simp [lines, member])
  · obtain ⟨item, looked, rfl, rfl⟩ := read
    refine ⟨?_, ?_, h.results⟩
    · intro sport
      by_cases here : sport = line
      · subst sport
        exact balanced_read tracked (tracked.fresh line (by simp [lines])) looked
          (balanced line) rest
      · exact balanced_other here (balanced sport) rest _ item _
    · intro call running
      cases running
      exact tracked.read lines

/-- A returned call reconstructs the scores exactly when it is settled. -/
theorem reconstructed_iff_settled {cache : LinesCache Score} {consumer : Consumer Score}
    {call : FetchCall Score} (tracked : Tracked cache call)
    (balanced : ∀ sport, Balanced cache (consumer.accept call) sport)
    : (Result.mk call (consumer.accept call)).Reconstructed
      ↔ (Result.mk call (consumer.accept call)).Settled := by
  have read (sport : String) (member : sport ∈ call.deltas)
      : ∃ item, call.found.lookup sport = some item := by
    obtain ⟨value, delta⟩ := Finmap.mem_iff.mp member
    rw [tracked.values, Option.map_eq_some_iff] at delta
    obtain ⟨item, found, _⟩ := delta
    exact ⟨item, found⟩
  cases changed : call.changed with
  | true =>
      -- What was returned is what was found.
      have reconstructed : (Result.mk call (consumer.accept call)).Reconstructed := by
        intro sport est member set
        obtain ⟨item, found⟩ := read sport member
        have value := tracked.values sport
        simp only [Consumer.accept, changed, if_true] at set
        rw [set, found, changed] at value
        rw [found]
        exact value.symm
      have settled : (Result.mk call (consumer.accept call)).Settled := by
        intro unchanged
        simp [changed] at unchanged
      exact iff_of_true reconstructed settled
  | false =>
      -- For a sport that is read and set, both sides say that the distance is zero.
      have distance (sport : String) {est : Score} {item base : LimesDeltaCacheItem Score}
          (found : call.found.lookup sport = some item)
          (set : (consumer.accept call).est sport = some est)
          (from_ : (consumer.accept call).base sport = some base)
          : item.lastRecv = est ↔ base.lastRecv = base.lastSend := by
        obtain ⟨current, looked, sent⟩ := tracked.baseline sport item found
        rcases balanced sport with ⟨unset, _⟩ | ⟨est', base', current', set', from', known, eq⟩
        · simp [unset] at set
        · obtain rfl := Option.some.inj (set.symm.trans set')
          obtain rfl := Option.some.inj (from_.symm.trans from')
          obtain rfl := Option.some.inj (looked.symm.trans known)
          rw [sent, changed] at eq
          rw [eq_comm, ← sub_eq_zero, ← sub_eq_zero (a := base.lastRecv), ← eq]
          rfl
      constructor
      · intro reconstructed _ sport base member opened
        obtain ⟨item, found⟩ := read sport member
        rcases balanced sport with ⟨_, unread⟩ | ⟨est, _, _, set, _⟩
        · simp [unread] at opened
        · have same := reconstructed sport est member set
          replace same : (call.found.lookup sport).map LimesDeltaCacheItem.lastRecv
            = some est := same
          rw [found] at same
          exact (distance sport found set opened).mp (Option.some.inj same)
      · intro settled sport est member set
        obtain ⟨item, found⟩ := read sport member
        rcases balanced sport with ⟨unset, _⟩ | ⟨_, base, _, _, opened, _⟩
        · simp [unset] at set
        · have zero := settled changed sport base member opened
          have same := (distance sport found set opened).mpr zero
          change (call.found.lookup sport).map LimesDeltaCacheItem.lastRecv = some est
          rw [found, ← same]
          rfl

theorem StreamInvariant.ret {s : StreamState Score} (h : StreamInvariant s)
    {call : FetchCall Score} (running : s.fetch = some call)
    : StreamInvariant
        { s with
          fetch := none
          consumer := s.consumer.accept call
          results := s.results ++ [{ call, consumer := s.consumer.accept call }] } := by
  have view : s.view = s.consumer.accept call := by simp [StreamState.view, running]
  have balanced := h.balanced
  rw [view] at balanced
  refine ⟨balanced, by simp, ?_⟩
  intro result member
  rcases List.mem_append.mp member with before | new
  · exact h.results result before
  · obtain rfl := List.mem_singleton.mp new
    exact reconstructed_iff_settled (h.tracked call running) balanced

theorem StreamInvariant.step {s next : StreamState Score} (h : StreamInvariant s)
    {action : StreamAction Score} (taken : streamStep s action = some next)
    : StreamInvariant next := by
  cases action with
  | update sport score =>
      obtain ⟨_, effect⟩ := Option.ite_none_right_eq_some.mp taken
      obtain rfl := Option.some.inj effect
      exact h.update sport score
  | fetch lines changed =>
      obtain ⟨guard, effect⟩ := Option.ite_none_right_eq_some.mp taken
      obtain rfl := Option.some.inj effect
      exact h.fetch (Option.isNone_iff_eq_none.mp guard.1) guard.2.1 changed
  | line =>
      obtain ⟨call, running, mapped⟩ := Option.bind_eq_some_iff.mp taken
      obtain ⟨⟨next, after⟩, advanced, rfl⟩ := Option.map_eq_some_iff.mp mapped
      exact h.line running advanced
  | ret =>
      obtain ⟨call, running, returned⟩ := Option.bind_eq_some_iff.mp taken
      obtain ⟨_, effect⟩ := Option.ite_none_right_eq_some.mp returned
      obtain rfl := Option.some.inj effect
      exact h.ret running

/-- In every run, for every set of sports, the consumer has reconstructed the score after
every result exactly when every delta was added to a settled absolute value.
-/
theorem reconstructed_iff_settled_of_reachable {sports : List String}
    {s : StreamState Score} (reached : (streamMachine Score sports).Reachable s)
    : (∀ result ∈ s.results, result.Reconstructed)
      ↔ ∀ result ∈ s.results, result.Settled := by
  have invariant : StreamInvariant s := by
    apply reached.invariant (motive := StreamInvariant)
    · exact ⟨fun _ => Or.inl ⟨rfl, rfl⟩, by simp [streamMachine], by simp [streamMachine]⟩
    · exact fun _ _ _ _ before taken => before.step taken
  constructor
  · exact fun all result member => (invariant.results result member).mp (all result member)
  · exact fun all result member => (invariant.results result member).mpr (all result member)

end Invariant

/-- Baseball has not moved since it was registered, so its first delta is right. -/
def settledRun : List (StreamAction Rat) :=
  [.fetch ["baseball"] true, .line, .ret, .update "baseball" 2, .fetch ["baseball"] false,
    .line, .ret]

/-- Football has moved before it is first read, and that move is sent twice. -/
def unsettledRun : List (StreamAction Rat) :=
  [.update "football" 3, .fetch ["football"] true, .line, .ret, .fetch ["football"] false,
    .line, .ret]

theorem reconstructed_settledRun
    : ∃ s,
        (streamMachine Rat ["baseball"]).run settledRun = some s
        ∧ s.results.length = 2
        ∧ ∀ result ∈ s.results, result.Reconstructed := by
  obtain ⟨s, ran, two, settled⟩
      : ∃ s, (streamMachine Rat ["baseball"]).run settledRun = some s
          ∧ s.results.length = 2
          ∧ ∀ result ∈ s.results,
              result.call.changed = false
              → ∀ sport ∈ result.call.deltas.keys,
                  ∀ item ∈ result.consumer.base sport, item.lastRecv = item.lastSend :=
    ⟨_, rfl, rfl, by decide +kernel⟩
  refine ⟨s, ran, two, (reconstructed_iff_settled_of_reachable ⟨settledRun, ran⟩).mpr ?_⟩
  intro result member unchanged sport item named base
  exact settled result member unchanged sport (Finmap.mem_keys.mpr named) item base

theorem not_reconstructed_unsettledRun
    : ¬ ∀ sports s,
        (streamMachine Rat sports).Reachable s
        → ∀ result ∈ s.results, result.Reconstructed := by
  intro all
  obtain ⟨s, ran⟩ : ∃ s, (streamMachine Rat ["football"]).run unsettledRun = some s :=
    ⟨_, rfl⟩
  have reconstructed := all ["football"] s ⟨unsettledRun, ran⟩
  obtain rfl := Option.some.inj ran
  have last := reconstructed _ (List.mem_append_right _ (List.mem_singleton_self _))
    "football" 6 (by decide) (by decide +kernel)
  exact absurd last (by decide +kernel)

end RVision.Lines.Provider
