import RVision.Session.Channels

/-! Which sports a response names: those of the request it serves that the provider has,
whatever the pollers do in between.
-/

namespace RVision.Session

open Transition
open RVision.Rpc
open RVision.Lines.Provider

variable {Score : Type}

/-- The provider's sports never change; a running call has looked up a first part of the
writer's list; and every finished call has returned what the provider has of its list.
-/
structure Served [Zero Score] (sports : List String) (s : State Score) : Prop where
  cached : ∀ sport, sport ∈ s.cache ↔ sport ∈ (registered sports : LinesCache Score)
  built : s.server.built = true
  fetching
    : ∀ call,
        s.fetch = some call
        → s.server.writer = .calling call.changed
          ∧ ∃ looked,
              s.server.sports = looked ++ call.rest
              ∧ ∀ sport, sport ∈ call.deltas ↔ sport ∈ looked ∧ sport ∈ s.cache
  called
    : ∀ invocation ∈ Server.invocations s.server.log, ∀ sport,
        sport ∈ invocation.lines.map Prod.fst
          ↔ sport ∈ invocation.sports ∧ sport ∈ (registered sports : LinesCache Score)

/-- An enumeration names the sports of the map. -/
theorem Enumerates.mem_iff {lines : List (String × Score)} {deltas : Deltas Score}
    (h : Enumerates lines deltas) (sport : String)
    : sport ∈ lines.map Prod.fst ↔ sport ∈ deltas := by
  rw [Finmap.mem_def, ← h]
  simp [Multiset.keys]

/-- A list with a line for each sport of a map goes through the map. -/
theorem Enumerates.of_lookup {lines : List (String × Score)} {deltas : Deltas Score}
    (distinct : (lines.map Prod.fst).Nodup)
    (same : ∀ sport score, (sport, score) ∈ lines ↔ deltas.lookup sport = some score)
    : Enumerates lines deltas := by
  have keys : (Multiset.ofList (lines.map (fun line =>
      (⟨line.1, line.2⟩ : Sigma fun _ : String => Score)))).NodupKeys := by
    rw [Multiset.coe_nodupKeys, List.NodupKeys, List.keys, List.map_map]
    exact distinct
  have whole : (⟨_, keys⟩ : Deltas Score) = deltas := by
    refine Finmap.ext_lookup (fun sport => Option.ext (fun score => ?_))
    rw [Finmap.lookup_eq_some_iff, ← same]
    simp
  rw [Enumerates, ← whole]

section Steps

variable [Zero Score] {threads : Nat} {sports : List String} {s : State Score}

/-- The callback returns the whole map of the running call; no other step of the server
touches the call or its list.
-/
theorem Served.server (h : Served sports s) {act : Server.Action Score}
    (may : ServerMay s act) {server : Server.State Score}
    (moved : Server.step s.server act = some server)
    : Served sports { s with server, fetch := fetchAfter s act } := by
  have taken := Server.Step.of_step moved
  have built := taken.built_mono h.built
  by_cases callback : ∃ lines, act = .writer (.callback lines)
  · obtain ⟨lines, rfl⟩ := callback
    obtain ⟨call, running, rest, listed⟩ := may
    obtain ⟨_, looked, list, found⟩ := h.fetching call running
    rw [rest, List.append_nil] at list
    refine ⟨h.cached, built, by simp [fetchAfter], ?_⟩
    cases taken with
    | @callback changed _ pc =>
        intro invocation member sport
        change invocation ∈ Server.invocations (s.server.callback changed lines).log at member
        rw [Server.invocations_callback, List.mem_append, List.mem_singleton] at member
        rcases member with before | rfl
        · exact h.called invocation before sport
        · rw [listed.mem_iff, found, h.cached, list]
  · have other (lines : List (String × Score)) : act ≠ .writer (.callback lines) :=
      fun same => callback ⟨lines, same⟩
    have same : fetchAfter s act = s.fetch := by
      unfold fetchAfter
      split
      · exact absurd rfl (other _)
      · rfl
    refine ⟨h.cached, built, ?_, ?_⟩
    · intro call running
      obtain ⟨pc, looked, list, found⟩ := h.fetching call (same.symm.trans running)
      obtain ⟨stays, kept, _⟩ := taken.calling_kept other pc h.built
      exact ⟨stays, looked, kept.trans list, found⟩
    · change ∀ invocation ∈ Server.invocations server.log, _
      rw [taken.invocations_eq other]
      exact h.called

variable [Sub Score]

/-- One more line of the list has been looked up. -/
theorem Served.line (h : Served sports s) {call next : FetchCall Score}
    {after : LinesCache Score} (running : s.fetch = some call)
    (advanced : call.advance s.cache = some (next, after))
    : Served sports { s with fetch := some next, cache := after } := by
  obtain ⟨pc, looked, list, found⟩ := h.fetching call running
  obtain ⟨line, rest, lines, skipped | read⟩ := FetchCall.advance_cases advanced
  · obtain ⟨missing, rfl, rfl⟩ := skipped
    refine ⟨h.cached, h.built, ?_, h.called⟩
    intro call running
    cases running
    refine ⟨pc, looked ++ [line], by simp [list, lines], ?_⟩
    intro sport
    rw [found sport, List.mem_append, List.mem_singleton]
    have absent : line ∉ s.cache := Finmap.lookup_eq_none.mp missing
    constructor
    · exact fun member => ⟨Or.inl member.1, member.2⟩
    · intro found
      obtain ⟨before | rfl, known⟩ := found
      · exact ⟨before, known⟩
      · exact absurd known absent
  · obtain ⟨item, present, rfl, rfl⟩ := read
    have known : line ∈ s.cache := Finmap.mem_of_lookup_eq_some present
    have same (sport : String)
        : sport ∈ s.cache.insert line (item.sent call.changed) ↔ sport ∈ s.cache := by
      rw [Finmap.mem_insert, or_iff_right_of_imp]
      intro here
      exact here ▸ known
    refine ⟨fun sport => (same sport).trans (h.cached sport), h.built, ?_, h.called⟩
    intro call running
    cases running
    refine ⟨pc, looked ++ [line], by simp [list, lines], ?_⟩
    intro sport
    rw [Finmap.mem_insert, found sport, List.mem_append, List.mem_singleton, same]
    constructor
    · intro found
      rcases found with rfl | member
      · exact ⟨Or.inr rfl, known⟩
      · exact ⟨Or.inl member.1, member.2⟩
    · intro found
      obtain ⟨before | rfl, cached⟩ := found
      · exact Or.inr ⟨before, cached⟩
      · exact Or.inl rfl

variable [DecidableEq Score]

theorem Served.step (h : Served sports s) {next : State Score} {action : Action Score}
    (taken : step s action = some next)
    : Served sports next := by
  cases action with
  | client act =>
      obtain ⟨_, mapped⟩ := Option.ite_none_right_eq_some.mp taken
      obtain ⟨client, _, rfl⟩ := Option.map_eq_some_iff.mp mapped
      exact ⟨h.cached, h.built, h.fetching, h.called⟩
  | server act =>
      obtain ⟨may, mapped⟩ := Option.ite_none_right_eq_some.mp taken
      obtain ⟨server, moved, rfl⟩ := Option.map_eq_some_iff.mp mapped
      exact h.server may moved
  | update sport score =>
      obtain ⟨known, effect⟩ := Option.ite_none_right_eq_some.mp taken
      obtain rfl := Option.some.inj effect
      have same := mem_updateCache known score
      refine ⟨fun other => (same other).trans (h.cached other), h.built, ?_, h.called⟩
      intro call running
      obtain ⟨pc, looked, list, found⟩ := h.fetching call running
      refine ⟨pc, looked, list, fun other => (found other).trans ?_⟩
      rw [same]
  | fetch =>
      simp only [Session.step] at taken
      split at taken
      · rename_i changed pc idle
        obtain rfl := Option.some.inj taken
        refine ⟨h.cached, h.built, ?_, h.called⟩
        intro call running
        cases running
        exact ⟨pc, [], rfl, by simp [Finmap.notMem_empty]⟩
      · cases taken
  | line =>
      obtain ⟨call, running, mapped⟩ := Option.bind_eq_some_iff.mp taken
      obtain ⟨⟨next, after⟩, advanced, rfl⟩ := Option.map_eq_some_iff.mp mapped
      exact h.line running advanced

theorem served_of_reachable (reached : (machine Score threads sports).Reachable s)
    : Served sports s := by
  apply reached.invariant (motive := Served sports)
  · refine ⟨fun _ => Iff.rfl, rfl, by simp [machine], ?_⟩
    simp [machine, Server.State.start, Server.invocations]
  · exact fun _ _ _ _ known taken => known.step taken

end Steps

end RVision.Session
