import RVision.Rpc.Server.Periods
import RVision.Session.Served

/-! Where the lines that reach the client's callback come from: each list answers one request
that the client has written, and each score goes back to scores that the cache has received
and sent before.
-/

namespace RVision.Session

open Transition
open RVision.Rpc
open RVision.Lines.Provider

variable {Score : Type}

/-- Which scores of a sport may stand in its item as `last_recv` and as `last_send`. A delta
makes the one to the other.
-/
structure Sources (Score : Type) where
  recv : String → Score → Prop
  send : String → Score → Prop
  sent : ∀ sport score, recv sport score → send sport score

namespace Sources

variable (sources : Sources Score)

def Item (sport : String) (item : LimesDeltaCacheItem Score) : Prop :=
  sources.recv sport item.lastRecv ∧ sources.send sport item.lastSend

/-- What `fetch_delta` may return for a sport: a score that was received, or how far one is
from a score that was sent.
-/
def Value [Sub Score] (changed : Bool) (sport : String) (score : Score) : Prop :=
  match changed with
  | true => sources.recv sport score
  | false =>
      ∃ received sent,
        sources.recv sport received ∧ sources.send sport sent ∧ score = received - sent

variable {sources}

theorem Item.value [Sub Score] {sport : String} {item : LimesDeltaCacheItem Score}
    (h : sources.Item sport item) (changed : Bool)
    : sources.Value changed sport (item.value changed) := by
  cases changed with
  | true => exact h.1
  | false => exact ⟨item.lastRecv, item.lastSend, h.1, h.2, rfl⟩

theorem Item.sent {sport : String} {item : LimesDeltaCacheItem Score}
    (h : sources.Item sport item) (changed : Bool)
    : sources.Item sport (item.sent changed) := by
  cases changed with
  | true => exact h
  | false => exact ⟨h.1, sources.sent sport _ h.1⟩

end Sources

/-- Every item, every value that a running call has put into its map and every line that a
finished call has returned has its source; no call returns two lines for one sport.
-/
structure Sourced [Sub Score] (sources : Sources Score) (s : State Score) : Prop where
  cache : ∀ sport item, s.cache.lookup sport = some item → sources.Item sport item
  fetching
    : ∀ call, s.fetch = some call → ∀ sport score,
        call.deltas.lookup sport = some score → sources.Value call.changed sport score
  called
    : ∀ invocation ∈ Server.invocations s.server.log, ∀ line ∈ invocation.lines,
        sources.Value invocation.changed line.1 line.2
  distinct
    : ∀ invocation ∈ Server.invocations s.server.log,
        (invocation.lines.map Prod.fst).Nodup

/-- An enumeration has a line for each entry of the map. -/
theorem Enumerates.mem_iff_lookup {lines : List (String × Score)} {deltas : Deltas Score}
    (h : Enumerates lines deltas) (line : String × Score)
    : line ∈ lines ↔ deltas.lookup line.1 = some line.2 := by
  rw [Finmap.lookup_eq_some_iff, ← h]
  simp

/-- An enumeration names no sport twice. -/
theorem Enumerates.nodup {lines : List (String × Score)} {deltas : Deltas Score}
    (h : Enumerates lines deltas)
    : (lines.map Prod.fst).Nodup := by
  have keys := deltas.nodupKeys
  rw [← h, Multiset.coe_nodupKeys, List.NodupKeys, List.keys, List.map_map] at keys
  exact keys

-----------------------------------------------------------------------------------------
-- What the steps keep
-----------------------------------------------------------------------------------------

section Steps

variable [Sub Score] {sources : Sources Score} {s : State Score}

/-- The callback returns the map of the running call, under the flag that the writer holds. -/
theorem Sourced.server [Zero Score] (h : Sourced sources s) {sports : List String}
    (served : Served sports s) {act : Server.Action Score} (may : ServerMay s act)
    {server : Server.State Score} (moved : Server.step s.server act = some server)
    : Sourced sources { s with server, fetch := fetchAfter s act } := by
  have taken := Server.Step.of_step moved
  by_cases callback : ∃ lines, act = .writer (.callback lines)
  · obtain ⟨lines, rfl⟩ := callback
    obtain ⟨call, running, _, listed⟩ := may
    have pc := (served.fetching call running).1
    cases taken with
    | @callback changed _ here =>
        obtain rfl := Server.WriterPc.calling.inj (here.symm.trans pc)
        have calls := Server.invocations_callback s.server call.changed lines
        refine ⟨h.cache, by simp [fetchAfter], ?_, ?_⟩
        · intro invocation member
          change invocation ∈ Server.invocations (s.server.callback call.changed lines).log
            at member
          rw [calls, List.mem_append, List.mem_singleton] at member
          rcases member with before | rfl
          · exact h.called invocation before
          · intro line returned
            exact h.fetching call running _ _ ((listed.mem_iff_lookup line).mp returned)
        · intro invocation member
          change invocation ∈ Server.invocations (s.server.callback call.changed lines).log
            at member
          rw [calls, List.mem_append, List.mem_singleton] at member
          rcases member with before | rfl
          · exact h.distinct invocation before
          · exact listed.nodup
  · have other (lines : List (String × Score)) : act ≠ .writer (.callback lines) :=
      fun same => callback ⟨lines, same⟩
    have same : fetchAfter s act = s.fetch := by
      unfold fetchAfter
      split
      · exact absurd rfl (other _)
      · rfl
    have calls := taken.invocations_eq other
    refine ⟨h.cache, same.symm ▸ h.fetching, ?_, ?_⟩
    · exact fun invocation member => h.called invocation (calls ▸ member)
    · exact fun invocation member => h.distinct invocation (calls ▸ member)

/-- A line that is looked up takes its value from its item and leaves the item sourced. -/
theorem Sourced.line (h : Sourced sources s) {call next : FetchCall Score}
    {after : LinesCache Score} (running : s.fetch = some call)
    (advanced : call.advance s.cache = some (next, after))
    : Sourced sources { s with fetch := some next, cache := after } := by
  obtain ⟨line, rest, _, skipped | read⟩ := FetchCall.advance_cases advanced
  · obtain ⟨_, rfl, rfl⟩ := skipped
    refine ⟨h.cache, ?_, h.called, h.distinct⟩
    intro later same
    obtain rfl := Option.some.inj same
    exact h.fetching call running
  · obtain ⟨item, present, rfl, rfl⟩ := read
    have source := h.cache line item present
    refine ⟨?_, ?_, h.called, h.distinct⟩
    · intro sport found looked
      by_cases here : sport = line
      · subst sport
        obtain rfl := Option.some.inj ((Finmap.lookup_insert _).symm.trans looked)
        exact source.sent call.changed
      · exact h.cache sport found ((Finmap.lookup_insert_of_ne _ here).symm.trans looked)
    · intro later same sport score looked
      obtain rfl := Option.some.inj same
      by_cases here : sport = line
      · subst sport
        obtain rfl := Option.some.inj ((Finmap.lookup_insert _).symm.trans looked)
        exact source.value call.changed
      · exact h.fetching call running sport score
          ((Finmap.lookup_insert_of_ne _ here).symm.trans looked)

/-- A poll of a sport in the cache brings a score that may be received. -/
theorem Sourced.update [Zero Score] (h : Sourced sources s) {sport : String} {score : Score}
    (known : (s.cache.lookup sport).isSome) (polled : sources.recv sport score)
    : Sourced sources { s with cache := updateCache s.cache sport score } := by
  refine ⟨?_, h.fetching, h.called, h.distinct⟩
  intro other item found
  by_cases here : other = sport
  · subst other
    obtain ⟨before, present⟩ := Option.isSome_iff_exists.mp known
    rw [lookup_updateCache_of_some present] at found
    obtain rfl := Option.some.inj found
    exact ⟨polled, (h.cache sport before present).2⟩
  · exact h.cache other item ((lookup_updateCache_of_ne _ here score).symm.trans found)

/-- More scores to come from leave everything sourced. -/
theorem Sourced.mono (h : Sourced sources s) {wider : Sources Score}
    (recv : ∀ sport score, sources.recv sport score → wider.recv sport score)
    (send : ∀ sport score, sources.send sport score → wider.send sport score)
    : Sourced wider s := by
  have value {changed : Bool} {sport : String} {score : Score}
      (known : sources.Value changed sport score)
      : wider.Value changed sport score := by
    cases changed with
    | true => exact recv sport score known
    | false =>
        obtain ⟨received, sent, one, other, same⟩ := known
        exact ⟨received, sent, recv sport received one, send sport sent other, same⟩
  refine ⟨?_, ?_, ?_, h.distinct⟩
  · intro sport item found
    have known := h.cache sport item found
    exact ⟨recv sport _ known.1, send sport _ known.2⟩
  · exact fun call running sport score found => value (h.fetching call running sport score found)
  · exact fun invocation called line member => value (h.called invocation called line member)

/-- Every step keeps the sources, where what the pollers bring may be received. -/
theorem Sourced.step [Zero Score] [DecidableEq Score] (h : Sourced sources s)
    {sports : List String} (served : Served sports s) {next : State Score}
    {action : Action Score} (taken : step s action = some next)
    (polled : ∀ sport score, action = .update sport score → sources.recv sport score)
    : Sourced sources next := by
  cases action with
  | client act =>
      obtain ⟨_, mapped⟩ := Option.ite_none_right_eq_some.mp taken
      obtain ⟨client, _, rfl⟩ := Option.map_eq_some_iff.mp mapped
      exact ⟨h.cache, h.fetching, h.called, h.distinct⟩
  | server act =>
      obtain ⟨may, mapped⟩ := Option.ite_none_right_eq_some.mp taken
      obtain ⟨server, moved, rfl⟩ := Option.map_eq_some_iff.mp mapped
      exact h.server served may moved
  | update sport score =>
      obtain ⟨known, effect⟩ := Option.ite_none_right_eq_some.mp taken
      obtain rfl := Option.some.inj effect
      exact h.update known (polled sport score rfl)
  | fetch =>
      simp only [Session.step] at taken
      split at taken
      · obtain rfl := Option.some.inj taken
        refine ⟨h.cache, ?_, h.called, h.distinct⟩
        intro call same sport score looked
        obtain rfl := Option.some.inj same
        simp at looked
      · cases taken
  | line =>
      obtain ⟨call, running, mapped⟩ := Option.bind_eq_some_iff.mp taken
      obtain ⟨⟨next, after⟩, advanced, rfl⟩ := Option.map_eq_some_iff.mp mapped
      exact h.line running advanced

end Steps

-----------------------------------------------------------------------------------------
-- What the client's callback gets
-----------------------------------------------------------------------------------------

/-- The list that the client builds from a response, whose lines are those of the call. -/
def handedBy (invocation : Server.Invocation Score) : List (Score × String) :=
  invocation.lines.map (fun line => (line.2, line.1))

section Handed

variable [DecidableEq Score] [Zero Score] [Sub Score] {threads : Nat} {sports : List String}
  {s : State Score}

/-- The lists that the client's callback got are those of the first calls of the server's
callback, in order.
-/
theorem handedLines_isPrefix (reached : (machine Score threads sports).Reachable s)
    : Client.handedLines s.client.log <+: (Server.invocations s.server.log).map handedBy := by
  have streams := Client.MessageStreams.invariant (client_reachable reached)
  have produced
      : Client.receivedResponses s.client.log
        <+: (Server.invocations s.server.log).map Server.Invocation.response := by
    rw [(Server.produced_of_reachable (server_reachable reached)).responses]
    exact (channels_of_reachable reached).responses.trans (List.prefix_append _ _)
  let pairs (response : SportsLinesResponse Score) : List (Score × String) :=
    response.lines.map (fun line => (line.score, line.sport))
  have lines : pairs ∘ Server.Invocation.response = handedBy := by
    funext invocation
    simp [pairs, Server.Invocation.response_lines, handedBy]
  have handed := produced.map pairs
  rwa [← streams.responses, List.map_map, lines] at handed

/-- The list at a position is what the server's callback returned at that position. -/
theorem invocation_of_handed (reached : (machine Score threads sports).Reachable s)
    {position : Nat} {lines : List (Score × String)}
    (handed : (Client.handedLines s.client.log)[position]? = some lines)
    : ∃ invocation,
        (Server.invocations s.server.log)[position]? = some invocation
        ∧ lines = handedBy invocation := by
  obtain ⟨inside, here⟩ := List.getElem?_eq_some_iff.mp handed
  have found := List.prefix_iff_getElem?.mp (handedLines_isPrefix reached) position inside
  rw [here, List.getElem?_map, Option.map_eq_some_iff] at found
  obtain ⟨invocation, called, same⟩ := found
  exact ⟨invocation, called, same.symm⟩

/-- Every call of the server's callback is for a request that the client has written. -/
theorem requested_of_invocation (reached : (machine Score threads sports).Reachable s)
    {invocation : Server.Invocation Score}
    (called : invocation ∈ Server.invocations s.server.log)
    : { pollingPeriod := invocation.period, sports := invocation.sports }
        ∈ Client.writtenRequests s.client.log := by
  have server := server_reachable reached
  have channels := channels_of_reachable reached
  have accepted := (Server.attributed_of_reachable server).accepted called
  obtain ⟨_, inOrder⟩ := Server.exists_inOrder server channels.connection
  exact channels.requests.mem (inOrder.mem_delivered accepted)

end Handed

end RVision.Session
