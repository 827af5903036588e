import RVision.Session.TurnTaking

/-! How a server with one worker comes to write a given response, when the pollers give it the
scores that the response is to show; and with it from one response of a client to the next.
-/

namespace RVision.Session

open Transition
open RVision.Rpc
open RVision.Lines.Provider

variable {Score : Type}

/-- Lines of different sports can be looked up by their sports. -/
theorem exists_scores [Zero Score] {lines : List (SportLine Score)}
    (distinct : (lines.map SportLine.sport).Nodup)
    : ∃ scores : String → Score, ∀ line ∈ lines, scores line.sport = line.score := by
  induction lines with
  | nil => exact ⟨fun _ => 0, by simp⟩
  | cons line rest ih =>
      rw [List.map_cons, List.nodup_cons] at distinct
      obtain ⟨scores, found⟩ := ih distinct.2
      refine ⟨Function.update scores line.sport line.score, ?_⟩
      rintro other (_ | ⟨_, member⟩)
      · simp
      · have apart : other.sport ≠ line.sport := by
          intro same
          exact distinct.1 (same ▸ List.mem_map_of_mem member)
        rw [Function.update_of_ne apart]
        exact found other member

/-- The lines of a response, as the map that the callback returns has them. -/
def pairsOf (response : SportsLinesResponse Score) : List (String × Score) :=
  response.lines.map (fun line => (line.sport, line.score))

theorem buildResponse_pairsOf (response : SportsLinesResponse Score)
    : Server.State.buildResponse (pairsOf response) = response := by
  have folded := Server.Invocation.response_lines
    { sports := [], period := 0, changed := false, lines := pairsOf response }
  rw [Server.Invocation.response] at folded
  refine congrArg SportsLinesResponse.mk (folded.trans ?_)
  simp [pairsOf, Function.comp_def]

/-- A map with the scores of a response for the sports that it names has its lines. -/
theorem Names.enumerates {names : List String} {response : SportsLinesResponse Score}
    {message : SportsLinesRequest} (named : Names names response message)
    (distinct : (response.lines.map SportLine.sport).Nodup)
    {scores : String → Score}
    (shown : ∀ line ∈ response.lines, scores line.sport = line.score)
    {deltas : Deltas Score}
    (listed : ∀ sport,
      deltas.lookup sport
        = if sport ∈ message.sports ∧ sport ∈ names then some (scores sport) else none)
    : Enumerates (pairsOf response) deltas := by
  have same : (pairsOf response).map Prod.fst = response.lines.map SportLine.sport := by
    rw [pairsOf, List.map_map]
    rfl
  refine .of_lookup (same ▸ distinct) (fun sport score => ?_)
  rw [listed]
  constructor
  · intro member
    obtain ⟨line, here, equal⟩ := List.mem_map.mp member
    obtain ⟨rfl, rfl⟩ := Prod.mk.inj equal
    rw [if_pos ((named _).mp (List.mem_map_of_mem here)), shown line here]
  · intro found
    obtain ⟨both, same⟩ := Option.ite_none_right_eq_some.mp found
    obtain ⟨line, here, rfl⟩ := List.mem_map.mp ((named sport).mpr both)
    refine List.mem_map.mpr ⟨line, here, ?_⟩
    rw [← shown line here, Option.some.inj same]

/-- Whatever was sent, some poll differs from it by any value: so it is with exact scores. -/
def AnyDifference (Score : Type) [Sub Score] : Prop :=
  ∀ sent value : Score, ∃ received, received - sent = value

section Answering

variable [DecidableEq Score] [Zero Score] [Sub Score] {names : List String} {s : State Score}
  {client : Client.State Score} {turns : List Server.Turn} {turn : Server.Turn}

/-- A poll in front of the line makes `fetch_delta` take the score that is wanted. -/
theorem exists_line_of_cached (exact : AnyDifference Score)
    (reached : (machine Score 1 names).Reachable s) {call : FetchCall Score}
    (running : s.fetch = some call) {line : String} {rest : List String}
    (ahead : call.rest = line :: rest) {item : LimesDeltaCacheItem Score}
    (looked : s.cache.lookup line = some item) (score : Score)
    : ∃ t next,
        (machine Score 1 names).Reachable t
        ∧ t.client = s.client
        ∧ t.server = s.server
        ∧ t.fetch = some next
        ∧ next.rest = rest
        ∧ next.deltas = call.deltas.insert line score := by
  obtain ⟨received, value⟩ : ∃ received,
      LimesDeltaCacheItem.value { item with inited := true, lastRecv := received }
        call.changed
      = score := by
    cases call.changed with
    | false => exact exact item.lastSend score
    | true => exact ⟨score, rfl⟩
  have polled : (machine Score 1 names).step s (.update line received)
      = some { s with cache := updateCache s.cache line received } := by
    simp [machine, step, looked]
  have found := lookup_updateCache_of_some looked received
  obtain ⟨next, cache, visited, less, deltas⟩ : ∃ next cache,
      (machine Score 1 names).step { s with cache := updateCache s.cache line received } .line
        = some { s with cache, fetch := some next }
      ∧ next.rest = rest
      ∧ next.deltas = call.deltas.insert line score := by
    simp [machine, step, running, FetchCall.advance, ahead, fetchLine_of_some found, value]
  exact ⟨_, next, (reached.step polled).step visited, rfl, rfl, rfl, less, deltas⟩

/-- So the next line can be made to return any score, if the provider has its sport. -/
theorem exists_line (exact : AnyDifference Score)
    (reached : (machine Score 1 names).Reachable s) {call : FetchCall Score}
    (running : s.fetch = some call) {line : String} {rest : List String}
    (ahead : call.rest = line :: rest) (scores : String → Score)
    : ∃ t next,
        (machine Score 1 names).Reachable t
        ∧ t.client = s.client
        ∧ t.server = s.server
        ∧ t.fetch = some next
        ∧ next.rest = rest
        ∧ ∀ sport,
            next.deltas.lookup sport
              = if sport = line ∧ line ∈ names then some (scores line)
                else call.deltas.lookup sport := by
  have known : line ∈ s.cache ↔ line ∈ names :=
    ((served_of_reachable reached).cached line).trans (mem_registered names line)
  cases looked : s.cache.lookup line with
  | none =>
      have unknown : line ∉ names := by
        rw [← known]
        exact Finmap.lookup_eq_none.mp looked
      have moved : (machine Score 1 names).step s .line
          = some { s with fetch := some { call with rest } } := by
        simp [machine, step, running, FetchCall.advance, ahead, looked,
          fetchLine_of_none looked]
      exact ⟨_, _, reached.step moved, rfl, rfl, rfl, rfl, fun sport => by simp [unknown]⟩
  | some item =>
      have cached : line ∈ names := known.mp (Finmap.mem_of_lookup_eq_some looked)
      obtain ⟨t, next, reached, client, server, fetch, less, deltas⟩ :=
        exists_line_of_cached exact reached running ahead looked (scores line)
      refine ⟨t, next, reached, client, server, fetch, less, fun sport => ?_⟩
      rw [deltas]
      by_cases here : sport = line
      · subst sport
        simp [cached]
      · simp [Finmap.lookup_insert_of_ne _ here, here]

/-- The call of `fetch_delta` can be made to return any scores, by induction on its lines. -/
theorem exists_fetched (exact : AnyDifference Score)
    (reached : (machine Score 1 names).Reachable s) {call : FetchCall Score}
    (running : s.fetch = some call) (scores : String → Score)
    : ∃ t final,
        (machine Score 1 names).Reachable t
        ∧ t.client = s.client
        ∧ t.server = s.server
        ∧ t.fetch = some final
        ∧ final.rest = []
        ∧ ∀ sport,
            final.deltas.lookup sport
              = if sport ∈ call.rest ∧ sport ∈ names then some (scores sport)
                else call.deltas.lookup sport := by
  induction ahead : call.rest generalizing s call with
  | nil => exact ⟨s, call, reached, rfl, rfl, running, ahead, by simp⟩
  | cons line rest ih =>
      obtain ⟨t, next, reached, client, server, fetch, less, here⟩ :=
        exists_line exact reached running ahead scores
      obtain ⟨u, final, reached, sameClient, sameServer, fetch, done, later⟩ :=
        ih reached fetch less
      refine ⟨u, final, reached, sameClient.trans client, sameServer.trans server, fetch, done,
        fun sport => ?_⟩
      rw [later, here]
      by_cases one : sport = line
      · subst sport
        by_cases had : line ∈ names <;> simp [had]
      · simp [one]

namespace Taking

variable {stored : Nat} {changed : Bool} {pc : Server.WorkerPc}

/-- The writer's sports are those of the request that the turn serves. -/
theorem asked (h : Taking names client turns turn stored (.calling changed) pc s)
    {message : SportsLinesRequest}
    (found : turn.message (Server.effective (Client.writtenRequests client.log))
      = some message)
    : s.server.sports = message.sports := by
  have server := server_reachable h.reached
  obtain ⟨other, here, sports⟩ :=
    h.taken.serving (Server.produced_of_reachable server)
      (Server.sportsKept_of_reachable server) h.writer
  have same := Server.Turn.message_mono (accepted_isPrefix h.reached) here
  rw [h.client, found] at same
  exact sports.trans (congrArg SportsLinesRequest.sports (Option.some.inj same.symm))

/-- There is a response for each turn that was taken. -/
theorem length_writtenResponses
    (h : Taking names client turns turn stored (.calling changed) pc s)
    : (Server.writtenResponses s.server.log).length = turns.length := by
  have responses := (Server.produced_of_reachable (server_reachable h.reached)).responses
  rw [h.writer, if_neg (by simp), List.append_nil] at responses
  have raised := h.taken.raised
  calc
    (Server.writtenResponses s.server.log).length
      = (Server.invocations s.server.log).length := by rw [← responses, List.length_map]
    _ = (Server.Turn.raised turns).length := by rw [← raised, List.length_map]
    _ = turns.length := Server.Turn.length_raisedFrom _ _

/-- When the pollers have given the scores of a response, the writer writes it. -/
theorem respond (h : Taking names client turns turn stored (.calling changed) pc s)
    {t : State Score} (reached : (machine Score 1 names).Reachable t)
    (alone : t.client = s.client) (same : t.server = s.server)
    {call : FetchCall Score} (running : t.fetch = some call) (done : call.rest = [])
    {response : SportsLinesResponse Score}
    (listed : Enumerates (pairsOf response) call.deltas)
    (read : turns.length = (Client.receivedResponses client.log).length)
    : ∃ u,
        Taking names client (turns ++ [turn]) turn stored .inner pc u
        ∧ u.nextResponse = some response := by
  obtain ⟨_, server, cache, fetch⟩ := t
  obtain rfl : server = s.server := same
  have beginning := server_reachable h.reached
  have called : Server.step s.server (.writer (.callback (pairsOf response)))
      = some (s.server.callback changed (pairsOf response)) := by
    simp [Server.step, Server.writerStep, h.writer]
  have written : Server.step (s.server.callback changed (pairsOf response)) (.writer .write)
      = some (s.server.callback changed (pairsOf response)).write := by
    simp [Server.step, Server.writerStep]
  have taken := h.taken.callback (Server.produced_of_reachable beginning)
    (Server.sportsKept_of_reachable beginning) h.writer (pairsOf response)
  refine ⟨_,
    { reached :=
        reachable_server (reachable_server reached called ⟨call, running, done, listed⟩)
          written trivial
      client := alone.trans h.client
      running := h.running
      fetch := rfl
      writer := rfl
      worker := h.worker
      reads := fun waiting => List.mem_append_left _ (h.reads waiting)
      taken := taken.frame
        ⟨Server.acceptedMessages_silent _ trivial,
          (Server.Step.of_step written).invocations_eq (by simp)⟩
        Iff.rfl rfl (Or.inr ⟨by simp [Server.WriterPc.Between],
          by simp [Server.State.write, Server.State.issue, Server.WriterPc.Between]⟩) },
    ?_⟩
  have after : Server.writtenResponses (s.server.callback changed (pairsOf response)).write.log
      = Server.writtenResponses s.server.log ++ [response] := by
    simp [Server.State.write, Server.State.issue, Server.State.callback,
      Server.writtenResponses, buildResponse_pairsOf]
  rw [State.nextResponse, alone, after]
  change _[(Client.receivedResponses s.client.log).length]? = _
  rw [h.client, ← read, ← h.length_writtenResponses]
  simp

/-- The server calls for a turn, gets the scores of a response that it explains, and writes this
response.
-/
theorem answer (exact : AnyDifference Score)
    (h : Taking names client turns turn stored (.calling changed) pc s)
    {message : SportsLinesRequest}
    (found : turn.message (Server.effective (Client.writtenRequests client.log))
      = some message)
    {response : SportsLinesResponse Score} (named : Names names response message)
    (distinct : (response.lines.map SportLine.sport).Nodup)
    (read : turns.length = (Client.receivedResponses client.log).length)
    : ∃ t,
        Taking names client (turns ++ [turn]) turn stored .inner pc t
        ∧ t.nextResponse = some response := by
  have begun : (machine Score 1 names).step s .fetch
      = some { s with fetch := some { changed, rest := s.server.sports } } := by
    simp [machine, step, h.writer, h.fetch]
  obtain ⟨scores, shown⟩ := exists_scores distinct
  obtain ⟨t, final, reached, alone, same, running, done, deltas⟩ :=
    exists_fetched exact (h.reached.step begun) rfl scores
  refine h.respond reached alone same running done ?_ read
  refine named.enumerates distinct shown (fun sport => ?_)
  rw [deltas, h.asked found]
  simp

end Taking

-----------------------------------------------------------------------------------------
-- A whole turn
-----------------------------------------------------------------------------------------

/-- Between two responses that the client reads: the server has not been connected yet, or it
has just written a response.
-/
def Paused (names : List String) (client : Client.State Score) (turns : List Server.Turn)
    (s : State Score)
    : Prop :=
  (turns = []
    ∧ Taking names client [] {} 0 .outer .posting s
    ∧ .delivered (.connect true) ∉ s.server.log)
  ∨ (turns ≠ []
    ∧ StandsAt names client turns (turns.getLastD {}) .inner (restOf (turns.getLastD {})) s)

/-- The server can come to have stored the flags that a turn needs. -/
theorem Paused.prepare (h : Paused names client turns s)
    (called : turns = [] → .issued .startCall ∈ client.log)
    (follows : (turns.getLastD {}).Follows turn)
    (behind : (turns.getLastD {}).stored ≤ (turns.getLastD {}).served)
    {message : SportsLinesRequest}
    (found : turn.message (Server.effective (Client.writtenRequests client.log))
      = some message)
    : ∃ t,
        StandsAt names client turns (turns.getLastD {}) .inner
          (max (restOf (turns.getLastD {})) (2 * turn.stored)) t := by
  have written := Server.Turn.served_le found
  have ahead := follows.behind behind
  rcases h with ⟨rfl, fresh, unconnected⟩ | ⟨_, h⟩
  · have some : 0 < turn.stored := by
      by_contra none
      have kept := follows.kept (by simpa using none)
      rw [Server.Turn.message, kept] at found
      cases found
    obtain ⟨t, h⟩ := fresh.connect (called rfl) unconnected
    obtain ⟨t, h⟩ := h.outer
    have start : StandsAt names client [] {} .testing 0 t := h
    obtain ⟨t, h⟩ := start.advance (by simp) (Nat.zero_le (2 * turn.stored)) (by omega)
    obtain ⟨t, h⟩ := Taking.pass h (by simp; omega)
    refine ⟨t, ?_⟩
    simpa [StandsAt, restOf] using h
  · obtain ⟨grows, close, kept, copied⟩ := follows
    refine h.advance (by simp) (le_max_left _ _) ?_
    have served : (turns.getLastD {}).served ≤ turn.served := by
      rcases grows.lt_or_eq with more | same
      · exact (copied more).2
      · exact (kept same.symm).ge
    unfold restOf
    split <;> omega

/-- From one response to the next one that is explained. -/
theorem Paused.take (exact : AnyDifference Score) (h : Paused names client turns s)
    (called : turns = [] → .issued .startCall ∈ client.log)
    (follows : (turns.getLastD {}).Follows turn)
    (behind : (turns.getLastD {}).stored ≤ (turns.getLastD {}).served)
    {message : SportsLinesRequest}
    (found : turn.message (Server.effective (Client.writtenRequests client.log))
      = some message)
    {response : SportsLinesResponse Score} (named : Names names response message)
    (distinct : (response.lines.map SportLine.sport).Nodup)
    (read : turns.length = (Client.receivedResponses client.log).length)
    : ∃ t, Paused names client (turns ++ [turn]) t ∧ t.nextResponse = some response := by
  obtain ⟨t, ready⟩ := h.prepare called follows behind found
  obtain ⟨t, calling⟩ := ready.call follows behind (Server.Turn.served_le found)
  obtain ⟨t, written, next⟩ := Taking.answer exact calling found named distinct read
  refine ⟨t, Or.inr ⟨by simp, ?_⟩, next⟩
  rw [List.getLastD_concat]
  exact written

end Answering

end RVision.Session
