import Mathlib.Algebra.Ring.Rat
import RVision.Lines.Provider.Traffic
import RVision.Session.Observation
import RVision.Session.Provenance

/-! Score movements on their way to the client. A delta moves `last_send` when its line is
looked up; from then on it is in the map of the running call, in a response that the client has
not handed over yet, or in a list that the client's callback got.
-/

namespace RVision.Session

open Transition
open RVision.Rpc
open RVision.Lines.Provider

variable {Score : Type}

/-- The scores of `sport` in what the callback returned without the flag. -/
def deltasFor (sport : String) (invocation : Server.Invocation Score) : List Score :=
  if invocation.changed then []
  else (invocation.lines.filter (fun line => line.1 = sport)).map Prod.snd

/-- The scores of `sport` in a list that the client's callback got without the flag. -/
def handedFor (sport : String) (entry : Bool × List (Score × String)) : List Score :=
  if entry.1 then [] else (entry.2.filter (fun line => line.2 = sport)).map Prod.fst

section Totals

variable [AddCommGroup Score]

/-- All movements of `sport` in some calls of the callback. -/
def moved (invocations : List (Server.Invocation Score)) (sport : String) : Score :=
  (invocations.flatMap (deltasFor sport)).sum

/-- What a running call has taken of `sport` without returning it yet. -/
def taking (fetch : Option (FetchCall Score)) (sport : String) : Score :=
  match fetch with
  | none => 0
  | some call => if call.changed then 0 else (call.deltas.lookup sport).getD 0

/-- All movements of `sport` that the client's callback was told. -/
def told (s : State Score) (sport : String) : Score :=
  (((flags s).zip (Client.handedLines s.client.log)).flatMap (handedFor sport)).sum

/-- The movements of `sport` in the responses that the client has not handed over. -/
def inTransit (s : State Score) (sport : String) : Score :=
  moved ((Server.invocations s.server.log).drop (Client.handedLines s.client.log).length) sport

theorem moved_append (first second : List (Server.Invocation Score)) (sport : String)
    : moved (first ++ second) sport = moved first sport + moved second sport := by
  simp [moved]

end Totals

/-- A sport that is named once has one line. -/
theorem filter_sport_eq_singleton {lines : List (String × Score)} {line : String × Score}
    (distinct : (lines.map Prod.fst).Nodup) (member : line ∈ lines)
    : lines.filter (fun other => other.1 = line.1) = [line] := by
  obtain ⟨before, after, rfl⟩ := List.append_of_mem member
  simp only [List.map_append, List.map_cons, List.nodup_append, List.nodup_cons] at distinct
  have left : before.filter (fun other => other.1 = line.1) = [] := by
    rw [List.filter_eq_nil_iff]
    intro other earlier here
    exact distinct.2.2 other.1 (List.mem_map_of_mem earlier) line.1 (by simp)
      (of_decide_eq_true here)
  have right : after.filter (fun other => other.1 = line.1) = [] := by
    rw [List.filter_eq_nil_iff]
    intro other later here
    exact distinct.2.1.1 (of_decide_eq_true here ▸ List.mem_map_of_mem later)
  simp [List.filter_append, left, right]

section Totals

variable [AddCommGroup Score]

/-- Returning the map of a call moves what the call had taken. -/
theorem moved_callback {lines : List (String × Score)} {call : FetchCall Score}
    (listed : Enumerates lines call.deltas) (sports : List String) (period : UInt64)
    (sport : String)
    : moved [{ sports, period, changed := call.changed, lines }] sport
      = taking (some call) sport := by
  have scores : (lines.filter (fun line => line.1 = sport)).map Prod.snd
      = (call.deltas.lookup sport).toList := by
    cases found : call.deltas.lookup sport with
    | none =>
        rw [Option.toList_none, List.map_eq_nil_iff, List.filter_eq_nil_iff]
        intro line member here
        have entry := (listed.mem_iff_lookup line).mp member
        rw [of_decide_eq_true here, found] at entry
        cases entry
    | some score =>
        have member := (listed.mem_iff_lookup (sport, score)).mpr found
        rw [filter_sport_eq_singleton listed.nodup member]
        rfl
  cases changed : call.changed with
  | true => simp [moved, deltasFor, taking, changed]
  | false =>
      simp only [moved, List.flatMap_singleton, deltasFor, taking, changed, scores]
      cases call.deltas.lookup sport <;> simp

/-- A line of its own that a call looks up: what it takes of the sport is what `last_send` moves
by.
-/
theorem taking_advance {call next : FetchCall Score} {cache after : LinesCache Score}
    (advanced : call.advance cache = some (next, after))
    (fresh : ∀ line ∈ call.rest.head?, line ∉ call.deltas) (sport : String)
    : taking (some next) sport + sentOf cache sport
      = taking (some call) sport + sentOf after sport := by
  obtain ⟨line, rest, lines, skipped | read⟩ := FetchCall.advance_cases advanced
  · obtain ⟨_, rfl, rfl⟩ := skipped
    rfl
  · obtain ⟨item, present, rfl, rfl⟩ := read
    by_cases here : sport = line
    · subst sport
      have untaken : call.deltas.lookup line = none :=
        Finmap.lookup_eq_none.mpr (fresh line (by simp [lines]))
      cases changed : call.changed with
      | true => simp [taking, changed, sentOf, present, LimesDeltaCacheItem.sent]
      | false =>
          simp [taking, changed, sentOf, present, untaken, LimesDeltaCacheItem.sent,
            LimesDeltaCacheItem.value]
    · simp only [taking, sentOf, Finmap.lookup_insert_of_ne _ here]

end Totals

-----------------------------------------------------------------------------------------
-- Lists without repetitions
-----------------------------------------------------------------------------------------

/-- No caller of `call` names a sport twice. -/
def DistinctCalls (s : State Score) : Prop :=
  ∀ call ∈ Client.pushedCalls s.client.log, call.2.Nodup

section Steps

variable [AddCommGroup Score] {sports : List String} {s : State Score}

/-- A registered sport was not sent yet. -/
theorem sentOf_registered (sports : List String) (sport : String)
    : sentOf (registered sports : LinesCache Score) sport = 0 := by
  have general (cache : LinesCache Score)
      : sentOf (sports.foldl (fun cache sport => updateCache cache sport 0) cache) sport
        = sentOf cache sport := by
    induction sports generalizing cache with
    | nil => rfl
    | cons first rest ih =>
        rw [List.foldl_cons, ih, sentOf_updateCache]
  exact general ∅

/-- A step of the server moves what the running call had taken when it returns its map, and
nothing otherwise.
-/
theorem moved_server {act : Server.Action Score} (served : Served sports s)
    (may : ServerMay s act) {server : Server.State Score}
    (went : Server.step s.server act = some server) (sport : String)
    : moved (Server.invocations server.log) sport + taking (fetchAfter s act) sport
      = moved (Server.invocations s.server.log) sport + taking s.fetch sport := by
  have taken := Server.Step.of_step went
  by_cases callback : ∃ lines, act = .writer (.callback lines)
  · obtain ⟨lines, rfl⟩ := callback
    obtain ⟨call, running, _, listed⟩ := may
    have pc := (served.fetching call running).1
    cases taken with
    | @callback changed _ here =>
        obtain rfl := Server.WriterPc.calling.inj (here.symm.trans pc)
        rw [Server.invocations_callback, moved_append, moved_callback listed, running]
        simp [fetchAfter, taking]
  · have other (lines : List (String × Score)) : act ≠ .writer (.callback lines) :=
      fun same => callback ⟨lines, same⟩
    have same : fetchAfter s act = s.fetch := by
      unfold fetchAfter
      split
      · exact absurd rfl (other _)
      · rfl
    rw [taken.invocations_eq other, same]

end Steps

section Runs

variable [DecidableEq Score] [AddCommGroup Score] {threads : Nat} {sports : List String}
  {s : State Score}

/-- A writer in the callback has the list of some caller. -/
theorem nodup_of_calling (reached : (machine Score threads sports).Reachable s)
    (distinct : DistinctCalls s) {changed : Bool} (pc : s.server.writer = .calling changed)
    : s.server.sports.Nodup := by
  have server := server_reachable reached
  have channels := channels_of_reachable reached
  obtain ⟨message, accepted, _, list⟩ :=
    (Server.attributed_of_reachable server).serving (Or.inl ⟨changed, pc⟩)
  obtain ⟨_, inOrder⟩ := Server.exists_inOrder server channels.connection
  have written := channels.requests.mem (inOrder.mem_delivered accepted)
  have streams := (Client.MessageStreams.invariant (client_reachable reached)).requests
  have pushed : (message.pollingPeriod, message.sports)
      ∈ Client.pushedCalls s.client.log := by
    rw [← streams]
    exact List.mem_append_left _ (List.mem_map.mpr ⟨message, written, rfl⟩)
  rw [list]
  exact distinct _ pushed

/-- The log of the client only grows. -/
theorem DistinctCalls.before {next : State Score} {action : Action Score}
    (taken : step s action = some next) (distinct : DistinctCalls next)
    : DistinctCalls s := by
  have grown : Client.pushedCalls s.client.log <+: Client.pushedCalls next.client.log := by
    rcases step_cases taken with ⟨_, client, _, _, moved, rfl⟩ | ⟨_, _, _, _, _, rfl⟩
      | ⟨client, _⟩
    · rcases Client.step_log moved with ⟨_, events, _, _, log⟩ | ⟨_, events, log, _, _, _⟩
      · exact (log ▸ List.prefix_append _ _ : s.client.log <+: client.log).filterMap _
      · exact (log ▸ List.prefix_append _ _ : s.client.log <+: client.log).filterMap _
    · exact List.prefix_refl _
    · rw [client]
  exact fun call member => distinct call (grown.mem member)

/-- A line of the running call moves from the cache to what the call has taken. -/
theorem moved_line (reached : (machine Score threads sports).Reachable s)
    (distinct : DistinctCalls s) {call later : FetchCall Score} {after : LinesCache Score}
    (running : s.fetch = some call) (advanced : call.advance s.cache = some (later, after))
    {sport : String}
    (balance : moved (Server.invocations s.server.log) sport + taking (some call) sport
      = sentOf s.cache sport)
    : moved (Server.invocations s.server.log) sport + taking (some later) sport
      = sentOf after sport := by
  obtain ⟨pc, looked, list, found⟩ := (served_of_reachable reached).fetching call running
  have names := nodup_of_calling reached distinct pc
  have fresh (line : String) (ahead : line ∈ call.rest.head?) : line ∉ call.deltas := by
    obtain ⟨rest, lines⟩ := List.head?_eq_some_iff.mp ahead
    rw [list, lines] at names
    intro member
    exact List.disjoint_of_nodup_append names ((found line).mp member).1 (by simp)
  have balanced := taking_advance advanced fresh sport
  have shifted
      : moved (Server.invocations s.server.log) sport + taking (some later) sport
          + sentOf s.cache sport
        = sentOf after sport + sentOf s.cache sport := by
    rw [add_assoc, balanced, ← add_assoc, balance, add_comm]
  exact add_right_cancel shifted

/-- The movements that were returned and the ones that the running call has taken are what was
sent.
-/
theorem moved_add_taking (reached : (machine Score threads sports).Reachable s)
    (distinct : DistinctCalls s) (sport : String)
    : moved (Server.invocations s.server.log) sport + taking s.fetch sport
      = sentOf s.cache sport := by
  refine reached.invariant
    (motive := fun s => DistinctCalls s
      → moved (Server.invocations s.server.log) sport + taking s.fetch sport
        = sentOf s.cache sport) ?_ ?_ distinct
  · intro _
    have nothing : sentOf (registered sports : LinesCache Score) sport = 0 :=
      sentOf_registered sports sport
    simp [machine, Server.State.start, Server.invocations, moved, taking, nothing]
  intro s action next before known taken distinctNext
  have distinct := distinctNext.before taken
  have balance := known distinct
  have served := served_of_reachable before
  cases action with
  | client act =>
      obtain ⟨_, mapped⟩ := Option.ite_none_right_eq_some.mp taken
      obtain ⟨client, _, rfl⟩ := Option.map_eq_some_iff.mp mapped
      exact balance
  | server act =>
      obtain ⟨may, mapped⟩ := Option.ite_none_right_eq_some.mp taken
      obtain ⟨server, went, rfl⟩ := Option.map_eq_some_iff.mp mapped
      exact (moved_server served may went sport).trans balance
  | update updated score =>
      obtain ⟨_, effect⟩ := Option.ite_none_right_eq_some.mp taken
      obtain rfl := Option.some.inj effect
      exact balance.trans (sentOf_updateCache s.cache updated score sport).symm
  | fetch =>
      change step s .fetch = some next at taken
      simp only [step] at taken
      split at taken
      · rename_i changed pc idle
        obtain rfl := Option.some.inj taken
        rw [idle] at balance
        simpa [taking] using balance
      · cases taken
  | line =>
      obtain ⟨call, running, mapped⟩ := Option.bind_eq_some_iff.mp taken
      obtain ⟨⟨later, after⟩, advanced, rfl⟩ := Option.map_eq_some_iff.mp mapped
      rw [running] at balance
      exact moved_line before distinct running advanced balance

-----------------------------------------------------------------------------------------
-- What the client was told
-----------------------------------------------------------------------------------------

/-- A list told with its flag is a call's. -/
theorem zip_map_of_isPrefix {Entry Left Right : Type} {head entries : List Entry}
    (before : head <+: entries) (left : Entry → Left) (right : Entry → Right)
    : (entries.map left).zip (head.map right)
      = head.map (fun entry => (left entry, right entry)) := by
  obtain ⟨rest, rfl⟩ := before
  induction head with
  | nil => simp
  | cons entry head ih => simpa using ih

/-- What the client was told is what the first calls moved. -/
theorem told_eq (reached : (machine Score threads sports).Reachable s) (sport : String)
    : told s sport
      = moved
          ((Server.invocations s.server.log).take (Client.handedLines s.client.log).length)
          sport := by
  have handed := List.prefix_iff_eq_take.mp (handedLines_isPrefix reached)
  rw [← List.map_take] at handed
  have told := zip_map_of_isPrefix
    (List.take_prefix (Client.handedLines s.client.log).length
      (Server.invocations s.server.log))
    Server.Invocation.changed handedBy
  have same : handedFor sport ∘ (fun invocation : Server.Invocation Score =>
      (invocation.changed, handedBy invocation)) = deltasFor sport := by
    funext invocation
    simp [handedFor, handedBy, deltasFor, List.filter_map, Function.comp_def]
  rw [← handed] at told
  rw [Session.told, flags, told, List.flatMap_map, moved]
  exact congrArg (fun scores => (List.flatMap scores _).sum) same

/-- No score movement is lost between the cache and the client. In every run in which no caller
names a sport twice, what the client's callback was told of a sport, what is in responses on
their way and what the running call has taken add up to what was sent.
-/
theorem told_add_inTransit_add_taking (reached : (machine Score threads sports).Reachable s)
    (distinct : DistinctCalls s) {sport : String} {item : LimesDeltaCacheItem Score}
    (cached : s.cache.lookup sport = some item)
    : told s sport + inTransit s sport + taking s.fetch sport = item.lastSend := by
  have sent : sentOf s.cache sport = item.lastSend := by simp [sentOf, cached]
  rw [told_eq reached, inTransit, ← moved_append, List.take_append_drop, ← sent]
  exact moved_add_taking reached distinct sport

end Runs

/-- The calls of the writer for football: one after the change, then a delta that the client
reads, one that it does not read, and one that is being looked up.
-/
def threeDeltas : List (Action Rat) :=
  let call (score : Rat) : List (Action Rat) :=
    [.fetch, .line, .server (.writer (.callback [("football", score)])),
      .server (.writer .write), .server (.writer .inner), .server (.writer .exchange)]
  let read (score : Rat) : List (Action Rat) :=
    [.client .loop, .client .enter, .client (.deliver (.read (some
      { lines := [{ score, sport := "football" }] })))]
  [.client (.push 0 (5, ["football"])), .client (.exchange 0), .client (.startCall 0),
    .client .loop, .client .enter, .client (.deliver (.start true)),
    .server (.worker 0 .post), .server (.worker 0 .loop),
    .server (.worker 0 (.deliver (.connect true))),
    .server (.worker 0 .read), .server (.worker 0 .loop),
    .server (.worker 0 (.deliver
      (.read (some { pollingPeriod := 5, sports := ["football"] })))),
    .server (.worker 0 .checkRequest), .server (.worker 0 .storeChanged),
    .server (.writer .outer), .server (.writer .test), .server (.writer .inner),
    .server (.writer .exchange), .server (.writer .copy), .update "football" 3]
  ++ call 3 ++ call 3
  ++ [.update "football" 5] ++ call 2
  ++ [.update "football" 9, .fetch, .line, .client .loop, .client .enter,
    .client (.deliver (.write true))]
  ++ read 3 ++ read 3

theorem told_add_inTransit_add_taking_threeDeltas
    : ∃ s item,
        (machine Rat 1 ["football"]).run threeDeltas = some s
        ∧ s.cache.lookup "football" = some item
        ∧ item.lastSend = 9
        ∧ told s "football" = 3
        ∧ inTransit s "football" = 2
        ∧ taking s.fetch "football" = 4
        ∧ told s "football" + inTransit s "football" + taking s.fetch "football"
          = item.lastSend := by
  obtain ⟨s, ran, facts⟩
      : ∃ s,
          (machine Rat 1 ["football"]).run threeDeltas = some s
          ∧ (Client.pushedCalls s.client.log, s.cache.lookup "football", told s "football",
              inTransit s "football", taking s.fetch "football")
            = ([(5, ["football"])], some ⟨true, 9, 9⟩, 3, 2, 4) := by
    apply Option.map_eq_some_iff.mp
    show ((machine Rat 1 ["football"]).run threeDeltas).map _ = some _
    decide +kernel
  simp only [Prod.mk.injEq] at facts
  obtain ⟨pushed, cached, received, sent, taken⟩ := facts
  have distinct : DistinctCalls s := by
    intro call member
    rw [pushed, List.mem_singleton] at member
    simp [member]
  exact ⟨s, _, ran, cached, rfl, received, sent, taken,
    told_add_inTransit_add_taking ⟨threeDeltas, ran⟩ distinct cached⟩

end RVision.Session
