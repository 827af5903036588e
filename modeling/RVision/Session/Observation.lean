import Mathlib.Algebra.Ring.Rat
import RVision.Rpc.Server.Turns
import RVision.Session.Served

/-! What a client can tell from its own requests and responses about the `changed` flag with
which each response was produced. The flag is no field of the response, and the server takes
it at its own pace: the client can only look for the ways in which the server may have taken
its requests, and knows a flag where all of them agree on it.
-/

namespace RVision.Session

open Transition
open RVision.Rpc
open RVision.Lines.Provider

variable {Score : Type}

/-- The events of the client that it can observe. -/
inductive Observation (Score : Type)
  | wrote (request : SportsLinesRequest)
  | read (response : SportsLinesResponse Score)
deriving DecidableEq, Repr

/-- Requests written and responses read, in their order. -/
def observations (log : List (Client.Event Score)) : List (Observation Score) :=
  log.filterMap (fun event => match event with
    | .issued (.write request) => some (.wrote request)
    | .handled (.read (some response)) => some (.read response)
    | _ => none)

def requestsOf (seen : List (Observation Score)) : List SportsLinesRequest :=
  seen.filterMap (fun observation => match observation with
    | .wrote request => some request
    | .read _ => none)

def responsesOf (seen : List (Observation Score)) : List (SportsLinesResponse Score) :=
  seen.filterMap (fun observation => match observation with
    | .wrote _ => none
    | .read response => some response)

/-- The value of `changed` with which `fetch_delta` was called for each response. -/
def flags (s : State Score) : List Bool :=
  (Server.invocations s.server.log).map Server.Invocation.changed

theorem observations_append (log events : List (Client.Event Score))
    : observations (log ++ events) = observations log ++ observations events :=
  List.filterMap_append

theorem requestsOf_observations (log : List (Client.Event Score))
    : requestsOf (observations log) = Client.writtenRequests log := by
  unfold requestsOf observations Client.writtenRequests
  rw [List.filterMap_filterMap]
  congr 1
  funext event
  rcases event with _ | operation | completion | _
  case issued => cases operation <;> rfl
  case handled =>
    rcases completion with _ | response | _ | _ | _ | _
    case read => cases response <;> rfl
    all_goals rfl
  all_goals rfl

theorem responsesOf_observations (log : List (Client.Event Score))
    : responsesOf (observations log) = Client.receivedResponses log := by
  unfold responsesOf observations Client.receivedResponses
  rw [List.filterMap_filterMap]
  congr 1
  funext event
  rcases event with _ | operation | completion | _
  case issued => cases operation <;> rfl
  case handled =>
    rcases completion with _ | response | _ | _ | _ | _
    case read => cases response <;> rfl
    all_goals rfl
  all_goals rfl

-----------------------------------------------------------------------------------------
-- Explanations
-----------------------------------------------------------------------------------------

/-- The response names the sports of the request that the provider has. -/
def Names (sports : List String) (response : SportsLinesResponse Score)
    (message : SportsLinesRequest)
    : Prop :=
  ∀ sport,
    sport ∈ response.lines.map SportLine.sport ↔ sport ∈ message.sports ∧ sport ∈ sports

instance (sports : List String) (response : SportsLinesResponse Score)
    (message : SportsLinesRequest)
    : Decidable (Names sports response message) :=
  decidable_of_iff
    ((∀ sport ∈ response.lines.map SportLine.sport,
        sport ∈ message.sports ∧ sport ∈ sports)
      ∧ ∀ sport ∈ message.sports,
          sport ∈ sports → sport ∈ response.lines.map SportLine.sport)
    ⟨fun h sport => ⟨h.1 sport, fun both => h.2 sport both.1 both.2⟩,
      fun h => ⟨fun sport => (h sport).mp, fun sport asked had => (h sport).mpr ⟨asked, had⟩⟩⟩

/-- The turns explain what is seen after `written` was written and the turn `last` was taken:
each response serves a change of the subscription that is already written.
-/
inductive Explains (sports : List String)
    : Server.Turn
      → List SportsLinesRequest
      → List (Observation Score)
      → List Server.Turn
      → Prop
  | nil {last : Server.Turn} {written : List SportsLinesRequest}
      : Explains sports last written [] []
  | wrote {last : Server.Turn} {written : List SportsLinesRequest}
      {request : SportsLinesRequest} {rest : List (Observation Score)}
      {turns : List Server.Turn}
      (h : Explains sports last (written ++ [request]) rest turns)
      : Explains sports last written (.wrote request :: rest) turns
  | read {last turn : Server.Turn} {written : List SportsLinesRequest}
      {response : SportsLinesResponse Score} {message : SportsLinesRequest}
      {rest : List (Observation Score)} {turns : List Server.Turn}
      (follows : last.Follows turn)
      (found : turn.message (Server.effective written) = some message)
      (names : Names sports response message)
      (h : Explains sports turn written rest turns)
      : Explains sports last written (.read response :: rest) (turn :: turns)

/-- The turns that may come next when `response` is read. -/
def nextTurns (sports : List String) (last : Server.Turn) (written : List SportsLinesRequest)
    (response : SportsLinesResponse Score)
    : List Server.Turn :=
  let counts := List.range ((Server.effective written).length + 1)
  (counts.flatMap (fun stored => counts.map (fun served => { stored, served }))).filter
    (fun turn =>
      last.Follows turn
      ∧ ∃ message ∈ turn.message (Server.effective written), Names sports response message)

/-- All explanations. -/
def explanations (sports : List String)
    : Server.Turn
      → List SportsLinesRequest
      → List (Observation Score)
      → List (List Server.Turn)
  | _, _, [] => [[]]
  | last, written, .wrote request :: rest =>
      explanations sports last (written ++ [request]) rest
  | last, written, .read response :: rest =>
      (nextTurns sports last written response).flatMap (fun turn =>
        (explanations sports turn written rest).map (turn :: ·))

theorem mem_nextTurns {sports : List String} {last : Server.Turn}
    (behind : last.stored ≤ last.served) (written : List SportsLinesRequest)
    (response : SportsLinesResponse Score) (turn : Server.Turn)
    : turn ∈ nextTurns sports last written response
      ↔ last.Follows turn
        ∧ ∃ message ∈ turn.message (Server.effective written),
            Names sports response message := by
  rw [nextTurns, List.mem_filter, decide_eq_true_iff, and_iff_right_iff_imp]
  rintro ⟨follows, message, found, _⟩
  have served := Server.Turn.served_le found
  have stored := follows.behind behind
  rw [List.mem_flatMap]
  refine ⟨turn.stored, ?_, List.mem_map.mpr ⟨turn.served, ?_, rfl⟩⟩ <;> rw [List.mem_range]
  · exact Nat.lt_succ_of_le (stored.trans served)
  · exact Nat.lt_succ_of_le served

theorem mem_explanations {sports : List String} {last : Server.Turn}
    (behind : last.stored ≤ last.served) (written : List SportsLinesRequest)
    (seen : List (Observation Score)) (turns : List Server.Turn)
    : turns ∈ explanations sports last written seen
      ↔ Explains sports last written seen turns := by
  induction seen generalizing last written turns with
  | nil =>
      rw [explanations, List.mem_singleton]
      constructor
      · rintro rfl
        exact .nil
      · rintro ⟨⟩
        rfl
  | cons observation rest ih =>
      cases observation with
      | wrote request =>
          rw [explanations, ih behind]
          constructor
          · exact .wrote
          · rintro ⟨⟩
            assumption
      | read response =>
          simp only [explanations, List.mem_flatMap, List.mem_map, mem_nextTurns behind]
          constructor
          · rintro ⟨turn, ⟨follows, message, found, names⟩, later, member, rfl⟩
            exact .read follows found names ((ih (follows.behind behind) written later).mp member)
          · rintro ⟨⟩
            next turn message later follows found names h =>
              exact ⟨turn, ⟨follows, message, found, names⟩, later,
                (ih (follows.behind behind) written later).mpr h, rfl⟩

/-- Every explanation has `flag` at `position`. -/
def Tells (sports : List String) (seen : List (Observation Score)) (position : Nat)
    (flag : Bool)
    : Prop :=
  ∀ turns,
    Explains sports {} [] seen turns → (Server.Turn.raised turns)[position]? = some flag

instance (sports : List String) (seen : List (Observation Score)) (position : Nat)
    (flag : Bool)
    : Decidable (Tells sports seen position flag) :=
  decidable_of_iff
    (∀ turns ∈ explanations sports {} [] seen,
      (Server.Turn.raised turns)[position]? = some flag)
    (forall_congr' fun turns =>
      imp_congr_left (mem_explanations (Nat.le_refl _) [] seen turns))

-- The second response must serve the second request, and the third one cannot serve the third.
example
    : Tells ["football", "hockey"]
        [.wrote { pollingPeriod := 5, sports := ["football", "hockey"] },
          .read
            { lines :=
                [{ score := (3 : Rat), sport := "football" }, { score := 1, sport := "hockey" }] },
          .wrote { pollingPeriod := 5, sports := ["football"] },
          .read { lines := [{ score := 3, sport := "football" }] },
          .wrote { pollingPeriod := 5, sports := ["football", "hockey"] },
          .read { lines := [{ score := 3, sport := "football" }] }]
        2 false := by
  decide +kernel

namespace Explains

variable {sports : List String} {last : Server.Turn} {written : List SportsLinesRequest}
  {seen more : List (Observation Score)} {turns later : List Server.Turn}

theorem length_eq (h : Explains sports last written seen turns)
    : turns.length = (responsesOf seen).length := by
  induction h with
  | nil => rfl
  | wrote _ ih => exact ih
  | read _ _ _ _ ih => exact congrArg Nat.succ ih

/-- An explanation goes on from its last turn. -/
theorem append (h : Explains sports last written seen turns)
    (next : Explains sports (turns.getLastD last) (written ++ requestsOf seen) more later)
    : Explains sports last written (seen ++ more) (turns ++ later) := by
  induction h with
  | nil => simpa [requestsOf] using next
  | wrote _ ih => exact .wrote (ih (List.append_cons .. ▸ next))
  | read follows found names _ ih =>
      rw [List.getLastD_cons] at next
      exact .read follows found names (ih next)

/-- An explanation of everything explains the first part, and goes on from there. -/
theorem split (h : Explains sports last written (seen ++ more) turns)
    : ∃ first rest,
        turns = first ++ rest
        ∧ Explains sports last written seen first
        ∧ Explains sports (first.getLastD last) (written ++ requestsOf seen) more rest := by
  induction seen generalizing last written turns with
  | nil => exact ⟨[], turns, rfl, .nil, by simpa [requestsOf] using h⟩
  | cons observation others ih =>
      cases h with
      | wrote h =>
          obtain ⟨first, rest, both, early, late⟩ := ih h
          exact ⟨first, rest, both, .wrote early, by simpa [requestsOf] using late⟩
      | read follows found names h =>
          obtain ⟨first, rest, rfl, early, late⟩ := ih h
          refine ⟨_ :: first, rest, rfl, .read follows found names early, ?_⟩
          rw [List.getLastD_cons]
          exact late

/-- Flags are stored only for requests that can be served. -/
theorem behind (h : Explains sports last written seen turns) (known : last.stored ≤ last.served)
    : (turns.getLastD last).stored ≤ (turns.getLastD last).served := by
  induction h with
  | nil => exact known
  | wrote _ ih => exact ih known
  | read follows _ _ _ ih =>
      rw [List.getLastD_cons]
      exact ih (follows.behind known)

/-- Nothing needs an explanation while no response is read. -/
theorem of_unread (unread : responsesOf seen = []) : Explains sports last written seen [] := by
  induction seen generalizing written with
  | nil => exact .nil
  | cons observation rest ih =>
      cases observation with
      | wrote request => exact .wrote (ih unread)
      | read response => cases unread

end Explains

-----------------------------------------------------------------------------------------
-- Changes that show
-----------------------------------------------------------------------------------------

/-- The two responses name the same set of sports. -/
def SameLines (earlier later : SportsLinesResponse Score) : Prop :=
  earlier.lines.map SportLine.sport ⊆ later.lines.map SportLine.sport
  ∧ later.lines.map SportLine.sport ⊆ earlier.lines.map SportLine.sport

instance (earlier later : SportsLinesResponse Score) : Decidable (SameLines earlier later) :=
  inferInstanceAs (Decidable (_ ∧ _))

/-- Where the set of sports differs from that of the response before. -/
def changesFrom (previous : SportsLinesResponse Score)
    : List (SportsLinesResponse Score) → List Bool
  | [] => []
  | response :: rest => (!decide (SameLines previous response)) :: changesFrom response rest

/-- Where a list of responses shows a change; the first one is one. -/
def visibleChanges : List (SportsLinesResponse Score) → List Bool
  | [] => []
  | response :: rest => true :: changesFrom response rest


namespace Explains

variable {sports : List String} {last : Server.Turn} {written : List SportsLinesRequest}
  {seen : List (Observation Score)} {turns : List Server.Turn}

/-- After a response whose turn is known, each change that shows is flagged: without a flag the
request of the turn before is served again.
-/
theorem changes_imply_raised (h : Explains sports last written seen turns)
    {previous : SportsLinesResponse Score} {message : SportsLinesRequest}
    (served : last.message (Server.effective written) = some message)
    (names : Names sports previous message)
    : List.Forall₂ (fun shown flag => shown = true → flag = true)
        (changesFrom previous (responsesOf seen)) (Server.Turn.raisedFrom last turns) := by
  induction h generalizing previous message with
  | nil => exact .nil
  | @wrote _ written request _ _ _ ih =>
      have grown := Server.effective_grows (List.prefix_append written [request])
      exact ih (Server.Turn.message_mono grown served) names
  | @read last turn _ response other _ _ follows found named _ ih =>
      refine .cons ?_ (ih found named)
      intro shown
      by_contra unraised
      have grows := follows.grows
      have kept := follows.kept (by simp at unraised; omega)
      have same : other = message := by
        rw [Server.Turn.message, kept] at found
        exact Option.some.inj (found.symm.trans served)
      subst other
      have alike : SameLines previous response :=
        ⟨fun sport here => (named sport).mpr ((names sport).mp here),
          fun sport here => (names sport).mpr ((named sport).mp here)⟩
      simp [alike] at shown

/-- The first response is flagged, since nothing was served before it. -/
theorem visible_implies_raised (h : Explains sports last written seen turns)
    (first : last.served = 0)
    : List.Forall₂ (fun shown flag => shown = true → flag = true)
        (visibleChanges (responsesOf seen)) (Server.Turn.raisedFrom last turns) := by
  induction h with
  | nil => exact .nil
  | wrote _ ih => exact ih first
  | @read last turn _ _ _ _ _ follows found named rest _ =>
      refine .cons (fun _ => ?_) (rest.changes_imply_raised found named)
      by_contra unraised
      have grows := follows.grows
      have kept := follows.kept (by simp at unraised; omega)
      rw [Server.Turn.message, kept, first] at found
      cases found

end Explains

/-- A change that shows tells the client that its response was flagged. -/
theorem tells_of_visible {sports : List String} {seen : List (Observation Score)}
    {position : Nat} (visible : (visibleChanges (responsesOf seen))[position]? = some true)
    : Tells sports seen position true := by
  intro turns h
  have implies := h.visible_implies_raised rfl
  obtain ⟨inside, shown⟩ := List.getElem?_eq_some_iff.mp visible
  obtain ⟨lengths, raised⟩ := List.forall₂_iff_get.mp implies
  exact List.getElem?_eq_some_iff.mpr ⟨_, raised position inside (lengths ▸ inside) shown⟩

-----------------------------------------------------------------------------------------
-- What two runs have in common
-----------------------------------------------------------------------------------------

/-- A response names the sports of the map that the callback returned. -/
theorem names_response (invocation : Server.Invocation Score)
    : invocation.response.lines.map SportLine.sport = invocation.lines.map Prod.fst := by
  rw [Server.Invocation.response_lines, List.map_map]
  rfl

/-- The server has taken turns, and those of the responses that were read explain what the
client has seen.
-/
structure Explained (sports : List String) (s : State Score) (turns : List Server.Turn)
    : Prop where
  taken : ∃ now stored, Server.TakesTurns s.server turns now stored
  explains
    : Explains sports {} [] (observations s.client.log)
        (turns.take (Client.receivedResponses s.client.log).length)

/-- The calls that are explained are some of those that were made. -/
theorem Explained.take_length {sports : List String} {s : State Score}
    {turns : List Server.Turn} (h : Explained sports s turns)
    : (Client.receivedResponses s.client.log).length ≤ turns.length := by
  have lengths := h.explains.length_eq
  rw [responsesOf_observations, List.length_take] at lengths
  omega

/-- What the client does without reading a response needs no further explanation. -/
theorem explains_append_unread {sports : List String}
    {turns : List Server.Turn} {log events : List (Client.Event Score)}
    (h : Explains sports {} [] (observations log) turns)
    (unread : Client.receivedResponses events = [])
    : Explains sports {} [] (observations (log ++ events)) turns := by
  rw [observations_append, ← List.append_nil turns]
  exact h.append (.of_unread (by rw [responsesOf_observations, unread]))

section Runs

variable [DecidableEq Score] [Zero Score] [Sub Score] {threads : Nat} {sports : List String}
  {s : State Score} {turns : List Server.Turn}

/-- What the server accepts are changes that the client has written. -/
theorem accepted_isPrefix (reached : (machine Score threads sports).Reachable s)
    : Server.acceptedMessages s.server.log
      <+: Server.effective (Client.writtenRequests s.client.log) := by
  have channels := channels_of_reachable reached
  obtain ⟨checked, inOrder⟩ :=
    Server.exists_inOrder (server_reachable reached) channels.connection
  rw [inOrder.accepted]
  apply Server.effective_grows
  refine List.IsPrefix.trans ?_ channels.requests
  rcases inOrder.delivered with ⟨_, all⟩ | ⟨_, all⟩
  · rw [all]
  · exact all ▸ List.prefix_append _ _

/-- The next response in the channel comes from a call of the callback. -/
theorem exists_called (reached : (machine Score threads sports).Reachable s)
    {response : SportsLinesResponse Score} (next : s.nextResponse = some response)
    : ∃ invocation,
        (Server.invocations s.server.log)[(Client.receivedResponses s.client.log).length]?
            = some invocation
        ∧ invocation.response = response := by
  rw [← Option.map_eq_some_iff, ← List.getElem?_map,
    (Server.produced_of_reachable (server_reachable reached)).responses]
  exact List.getElem?_append_left (List.getElem?_eq_some_iff.mp next).1 ▸ next

/-- The next response in the channel is explained by the turn of its call. -/
theorem Explained.next (h : Explained sports s turns)
    (reached : (machine Score threads sports).Reachable s)
    {response : SportsLinesResponse Score} (next : s.nextResponse = some response)
    : ∃ turn message,
        turns[(Client.receivedResponses s.client.log).length]? = some turn
        ∧ turn.message (Server.effective (Client.writtenRequests s.client.log)) = some message
        ∧ Names sports response message := by
  obtain ⟨now, stored, taken⟩ := h.taken
  obtain ⟨invocation, called, rfl⟩ := exists_called reached next
  obtain ⟨inside, here⟩ := List.getElem?_eq_some_iff.mp called
  obtain ⟨lengths, serves⟩ := List.forall₂_iff_get.mp taken.serves
  obtain ⟨message, found, asked⟩ := serves _ inside (lengths ▸ inside)
  rw [List.get_eq_getElem, here] at asked
  refine ⟨_, message, List.getElem?_eq_getElem (lengths ▸ inside),
    Server.Turn.message_mono (accepted_isPrefix reached) found, ?_⟩
  intro sport
  rw [names_response, ← asked]
  exact ((served_of_reachable reached).called invocation (List.mem_of_getElem? called)
    sport).trans (and_congr_right (fun _ => mem_registered sports sport))

/-- Reading the next response takes the turn of its call into the explanation. -/
theorem Explained.read (h : Explained sports s turns)
    (reached : (machine Score threads sports).Reachable s)
    {response : SportsLinesResponse Score} (next : s.nextResponse = some response)
    : Explains sports {} [] (observations s.client.log ++ [.read response])
        (turns.take ((Client.receivedResponses s.client.log).length + 1)) := by
  obtain ⟨turn, message, here, found, names⟩ := h.next reached next
  obtain ⟨now, stored, taken⟩ := h.taken
  rw [List.take_add_one, here]
  refine h.explains.append (.read ?_ ?_ names .nil)
  · exact Server.Turn.follows_of_isChain taken.chain here
  · rwa [List.nil_append, requestsOf_observations]

theorem Explained.client (h : Explained sports s turns)
    (reached : (machine Score threads sports).Reachable s)
    {act : Client.Action Score} (may : ClientMay s act) {client : Client.State Score}
    (moved : Client.step s.client act = some client)
    : Explained sports { s with client } turns := by
  refine ⟨h.taken, ?_⟩
  change Explains sports {} [] (observations client.log)
    (turns.take (Client.receivedResponses client.log).length)
  rcases Client.step_log moved with ⟨completion, events, rfl, reaction, log⟩
    | ⟨_, events, log, _, unread, _⟩
  · have silent := reaction.unread
    by_cases read : ∃ response, completion = .read (some response)
    · obtain ⟨response, rfl⟩ := read
      rw [log, List.append_cons, Client.receivedResponses_append, silent, List.append_nil,
        Client.receivedResponses_append, List.length_append]
      refine explains_append_unread ?_ silent
      rw [observations_append]
      exact h.read reached may
    · have unread : Client.receivedResponses (.handled completion :: events) = [] := by
        rw [Client.receivedResponses_handled (fun response same => read ⟨response, same⟩)]
        exact silent
      rw [log, Client.receivedResponses_append, unread, List.append_nil]
      exact explains_append_unread h.explains unread
  · rw [log, Client.receivedResponses_append, unread, List.append_nil]
    exact explains_append_unread h.explains unread

/-- A step of the server may take a further turn. -/
theorem Explained.server (h : Explained sports s turns)
    (reached : (machine Score threads sports).Reachable s) {act : Server.Action Score}
    {server : Server.State Score} (moved : Server.step s.server act = some server)
    (fetch : Option (FetchCall Score))
    : ∃ turns, Explained sports { s with server, fetch } turns := by
  obtain ⟨now, stored, taken⟩ := h.taken
  obtain ⟨more, later⟩ := taken.step (server_reachable reached)
    (channels_of_reachable reached).connection (.of_step moved)
  refine ⟨turns ++ more, later, ?_⟩
  rw [List.take_append_of_le_length h.take_length]
  exact h.explains

end Runs

-----------------------------------------------------------------------------------------
-- Two runs that the client cannot tell apart
-----------------------------------------------------------------------------------------

/-- A request for football alone. -/
def football (period : UInt64) : SportsLinesRequest :=
  { pollingPeriod := period, sports := ["football"] }

/-- What there is to see of a run. -/
def view (s : State Rat) : List (Observation Rat) × List Bool :=
  (observations s.client.log, flags s)

end RVision.Session
