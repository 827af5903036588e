import RVision.Lines.Provider.Cache
import RVision.Rpc.Client.MessageStreams
import RVision.Rpc.Server.RequestOrder
import RVision.Rpc.Server.Responses

/-! One client, the server and the provider behind its callback. The stream between client
and server is two reliable FIFO channels: a successful read takes the oldest message that
was written and not yet read, and the one call of the client is connected at most once.
-/

namespace RVision.Session

open Transition
open RVision.Rpc
open RVision.Lines.Provider

/-- The two parties and the provider. `fetch` is the writer's running call of `fetch_delta`;
what is in the channels follows from what was written and read.
-/
structure State (Score : Type) where
  client : Client.State Score := {}
  server : Server.State Score
  cache : LinesCache Score
  fetch : Option (FetchCall Score) := none

inductive Action (Score : Type)
  | client (action : Client.Action Score)
  | server (action : Server.Action Score)
  | update (sport : String) (score : Score)
  | fetch
  | line
deriving DecidableEq, Repr

variable {Score : Type}

namespace State

/-- The oldest request in the channel to the server. -/
def nextRequest (s : State Score) : Option SportsLinesRequest :=
  (Client.writtenRequests s.client.log)[(Server.deliveredRequests s.server.log).length]?

/-- The oldest response in the channel to the client. -/
def nextResponse (s : State Score) : Option (SportsLinesResponse Score) :=
  (Server.writtenResponses s.server.log)[(Client.receivedResponses s.client.log).length]?

end State

/-- `lines` goes through the returned map in some order. -/
def Enumerates (lines : List (String × Score)) (deltas : Deltas Score) : Prop :=
  Multiset.ofList (lines.map (fun line => (⟨line.1, line.2⟩ : Sigma fun _ : String => Score)))
    = deltas.entries

instance [DecidableEq Score] (lines : List (String × Score)) (deltas : Deltas Score)
    : Decidable (Enumerates lines deltas) :=
  inferInstanceAs (Decidable (_ = _))

/-- The client reads what the channel holds. -/
def ClientMay (s : State Score) : Client.Action Score → Prop
  | .deliver (.read (some response)) => s.nextResponse = some response
  | _ => True

/-- The server is connected once, by the client's `StartCall`; it reads what the channel
holds; and its callback returns what `fetch_delta` computed.
-/
def ServerMay (s : State Score) : Server.Action Score → Prop
  | .worker _ (.deliver (.connect true)) =>
      .issued .startCall ∈ s.client.log ∧ .delivered (.connect true) ∉ s.server.log
  | .worker _ (.deliver (.read (some message))) => s.nextRequest = some message
  | .writer (.callback lines) =>
      ∃ call ∈ s.fetch, call.rest = [] ∧ Enumerates lines call.deltas
  | _ => True

section Decidable

variable [DecidableEq Score]

instance (s : State Score) (action : Client.Action Score) : Decidable (ClientMay s action) :=
  match action with
  | .deliver (.read (some _)) => inferInstanceAs (Decidable (_ = _))
  | .deliver (.read none) | .deliver (.start _) | .deliver (.write _)
  | .deliver (.complete _) | .deliver (.done _) | .deliver (.finish _) => .isTrue trivial
  | .push _ _ | .exchange _ | .startCall _ | .loop | .enter | .storeShutdown | .notifyAll
  | .join | .cancel | .shutdownQueue | .drain => .isTrue trivial

instance (s : State Score) (action : Server.Action Score) : Decidable (ServerMay s action) :=
  match action with
  | .worker _ (.deliver (.connect true)) => inferInstanceAs (Decidable (_ ∧ _))
  | .worker _ (.deliver (.read (some _))) => inferInstanceAs (Decidable (_ = _))
  | .writer (.callback _) => inferInstanceAs (Decidable (∃ call ∈ s.fetch, _))
  | .worker _ (.deliver (.connect false)) | .worker _ (.deliver (.read none))
  | .worker _ (.deliver (.write _)) | .worker _ (.deliver (.done _))
  | .worker _ (.deliver (.finish _)) => .isTrue trivial
  | .worker _ .post | .worker _ .loop | .worker _ .queueEnd | .worker _ .checkRequest
  | .worker _ .storeChanged | .worker _ .notifyOne | .worker _ .read | .worker _ .finish =>
      .isTrue trivial
  | .writer .outer | .writer .test | .writer .park | .writer .inner | .writer .exchange
  | .writer .copy | .writer .write => .isTrue trivial
  | .start | .cancel | .stop _ => .isTrue trivial

/-- A callback that returns ends the call of `fetch_delta`. -/
def fetchAfter (s : State Score) : Server.Action Score → Option (FetchCall Score)
  | .writer (.callback _) => none
  | _ => s.fetch

/-- One step of one party; the writer's callback is its call of `fetch_delta`, line by
line, and the pollers update sports that are in the cache.
-/
def step [Zero Score] [Sub Score] (s : State Score) : Action Score → Option (State Score)
  | .client action =>
      if ClientMay s action then
        (Client.step s.client action).map (fun client => { s with client })
      else
        none
  | .server action =>
      if ServerMay s action then
        (Server.step s.server action).map (fun server =>
          { s with server, fetch := fetchAfter s action })
      else
        none
  | .update sport score =>
      if (s.cache.lookup sport).isSome then
        some { s with cache := updateCache s.cache sport score }
      else
        none
  | .fetch =>
      match s.server.writer, s.fetch with
      | .calling changed, none =>
          some { s with fetch := some { changed, rest := s.server.sports } }
      | _, _ => none
  | .line =>
      s.fetch.bind (fun call =>
        (call.advance s.cache).map (fun next =>
          { s with fetch := some next.1, cache := next.2 }))

variable (Score)

/-- A server that was started with `threads` workers, over a provider of `sports`, and a
client that has not called it yet.
-/
def machine [Zero Score] [Sub Score] (threads : Nat) (sports : List String)
    : Machine (State Score) (Action Score) where
  init :=
    { server := Server.State.start { threads }
      cache := registered sports }
  step := step

end Decidable

end RVision.Session
