import RVision.Rpc.Client.Lockstep
import RVision.Session.Machine

/-! What holds across the two channels in every run, whatever fails: each party runs as it
does alone, and each has read a prefix of what the other has written.
-/

namespace RVision.Session

open Transition
open RVision.Rpc
open RVision.Lines.Provider

variable {Score : Type}

/-- Both channels are FIFO and lose nothing, and there is one connection. -/
structure Channels (s : State Score) : Prop where
  requests
    : Server.deliveredRequests s.server.log <+: Client.writtenRequests s.client.log
  responses
    : Client.receivedResponses s.client.log <+: Server.writtenResponses s.server.log
  connection : s.server.log.countP Server.isConnected ≤ 1

/-- A step of the client keeps the channels: what it writes goes to the end of one of them,
what it reads comes from the front of the other.
-/
theorem Channels.client {s : State Score} (h : Channels s) {act : Client.Action Score}
    (may : ClientMay s act) {client : Client.State Score}
    (moved : Client.step s.client act = some client)
    : Channels { s with client } := by
  have grown {events : List (Client.Event Score)} (log : client.log = s.client.log ++ events)
      : Server.deliveredRequests s.server.log <+: Client.writtenRequests client.log := by
    rw [log, Client.writtenRequests, List.filterMap_append]
    exact h.requests.trans (List.prefix_append _ _)
  rcases Client.step_log moved with ⟨completion, events, rfl, reaction, log⟩ | quiet
  · refine ⟨grown log, ?_, h.connection⟩
    change Client.receivedResponses client.log <+: _
    rw [log, Client.receivedResponses_append]
    by_cases read : ∃ response, completion = .read (some response)
    · obtain ⟨response, rfl⟩ := read
      have one : Client.receivedResponses (.handled (.read (some response)) :: events)
          = [response] := congrArg (response :: ·) reaction.unread
      rw [one]
      exact concat_isPrefix_of_next h.responses may
    · rw [Client.receivedResponses_handled (fun response same => read ⟨response, same⟩),
        reaction.unread, List.append_nil]
      exact h.responses
  · obtain ⟨_, events, log, _, unread, _⟩ := quiet
    refine ⟨grown log, ?_, h.connection⟩
    change Client.receivedResponses client.log <+: _
    rw [log, Client.receivedResponses_append, unread, List.append_nil]
    exact h.responses

/-- A step of the server keeps the channels. -/
theorem Channels.server {s : State Score} (h : Channels s) {act : Server.Action Score}
    (may : ServerMay s act) {server : Server.State Score}
    (moved : Server.step s.server act = some server)
    (fetch : Option (FetchCall Score))
    : Channels { s with server, fetch } := by
  have taken := Server.Step.of_step moved
  refine ⟨?_, ?_, ?_⟩
  · change Server.deliveredRequests server.log <+: _
    rw [taken.delivered]
    by_cases request : act.request = []
    · rw [request, List.append_nil]
      exact h.requests
    · obtain ⟨thread, message, rfl⟩ : ∃ thread message,
          act = .worker thread (.deliver (.read (some message))) := by
        unfold Server.Action.request at request
        split at request
        · exact ⟨_, _, rfl⟩
        · exact absurd rfl request
      exact concat_isPrefix_of_next h.requests may
  · exact h.responses.trans (taken.log_grows.filterMap _)
  · change server.log.countP Server.isConnected ≤ 1
    rw [taken.connections]
    cases connect : act.isConnect with
    | false => simpa using h.connection
    | true =>
        -- The guard lets a connection through only where there is none.
        obtain ⟨thread, rfl⟩ : ∃ thread, act = .worker thread (.deliver (.connect true)) := by
          unfold Server.Action.isConnect at connect
          split at connect
          · exact ⟨_, rfl⟩
          · cases connect
        have none : s.server.log.countP Server.isConnected = 0 := by
          apply List.countP_eq_zero.mpr
          intro event member found
          unfold Server.isConnected at found
          split at found
          · exact may.2 member
          · cases found
        simp [none]

section Steps

variable [DecidableEq Score] [Zero Score] [Sub Score]

/-- Everything a step can do to the two parties. -/
theorem step_cases {s next : State Score} {action : Action Score}
    (taken : step s action = some next)
    : (∃ act client,
        action = .client act
        ∧ ClientMay s act
        ∧ Client.step s.client act = some client
        ∧ next = { s with client })
      ∨ (∃ act server,
          action = .server act
          ∧ ServerMay s act
          ∧ Server.step s.server act = some server
          ∧ next = { s with server, fetch := fetchAfter s act })
      ∨ (next.client = s.client ∧ next.server = s.server) := by
  cases action with
  | client act =>
      obtain ⟨may, mapped⟩ := Option.ite_none_right_eq_some.mp taken
      obtain ⟨client, moved, rfl⟩ := Option.map_eq_some_iff.mp mapped
      exact Or.inl ⟨act, client, rfl, may, moved, rfl⟩
  | server act =>
      obtain ⟨may, mapped⟩ := Option.ite_none_right_eq_some.mp taken
      obtain ⟨server, moved, rfl⟩ := Option.map_eq_some_iff.mp mapped
      exact Or.inr (Or.inl ⟨act, server, rfl, may, moved, rfl⟩)
  | update sport score =>
      obtain ⟨_, effect⟩ := Option.ite_none_right_eq_some.mp taken
      obtain rfl := Option.some.inj effect
      exact Or.inr (Or.inr ⟨rfl, rfl⟩)
  | fetch =>
      simp only [step] at taken
      split at taken
      · obtain rfl := Option.some.inj taken
        exact Or.inr (Or.inr ⟨rfl, rfl⟩)
      · cases taken
  | line =>
      obtain ⟨call, _, mapped⟩ := Option.bind_eq_some_iff.mp taken
      obtain ⟨_, _, rfl⟩ := Option.map_eq_some_iff.mp mapped
      exact Or.inr (Or.inr ⟨rfl, rfl⟩)

variable {threads : Nat} {sports : List String} {s : State Score}

/-- Seen alone, the client runs as its own machine does. -/
theorem client_reachable (reached : (machine Score threads sports).Reachable s)
    : (Client.machine Score).Reachable s.client := by
  apply reached.project State.client Machine.reachable_init
  intro s action next taken
  rcases step_cases taken with ⟨act, client, _, _, moved, rfl⟩ | ⟨_, _, _, _, _, rfl⟩ | same
  · exact Or.inr ⟨act, moved⟩
  · exact Or.inl rfl
  · exact Or.inl same.1

/-- Seen alone, the server runs as its own machine does. -/
theorem server_reachable (reached : (machine Score threads sports).Reachable s)
    : (Server.machine Score threads).Reachable s.server := by
  apply reached.project State.server ⟨[.start], rfl⟩
  intro s action next taken
  rcases step_cases taken with ⟨_, _, _, _, _, rfl⟩ | ⟨act, server, _, _, moved, rfl⟩ | same
  · exact Or.inl rfl
  · exact Or.inr ⟨act, moved⟩
  · exact Or.inl same.2

theorem channels_of_reachable (reached : (machine Score threads sports).Reachable s)
    : Channels s := by
  apply reached.invariant (motive := Channels)
  · exact ⟨List.prefix_refl _, List.prefix_refl _, Nat.zero_le _⟩
  · intro s action next _ known taken
    rcases step_cases taken with ⟨_, _, _, may, moved, rfl⟩ | ⟨_, _, _, may, moved, rfl⟩
      | ⟨client, server⟩
    · exact known.client may moved
    · exact known.server may moved _
    · obtain ⟨requests, responses, connection⟩ := known
      rw [← client, ← server] at requests responses
      rw [← server] at connection
      exact ⟨requests, responses, connection⟩

end Steps

end RVision.Session
