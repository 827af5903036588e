import Mathlib.Data.List.Chain
import RVision.Rpc.Messages

/-! The subscription that `server::on_read` hands to the writer: the request just read, the
request remembered from before, and the flag that tells the writer to look again.
`check_request` compares the polling period and the number of sports, not the sports.
-/

namespace RVision.Rpc.Server

/-- `m_request`, `m_last_req` and `m_changed`. Both messages start out as default ones. -/
structure Subscription where
  request : SportsLinesRequest := {}
  lastReq : SportsLinesRequest := {}
  changed : Bool := false
deriving DecidableEq, Repr

namespace Subscription

/-- `server::check_request`, which runs under `m_written_lock`. -/
def checkRequest (s : Subscription) : Bool × Subscription :=
  if s.lastReq.pollingPeriod ≠ s.request.pollingPeriod then
    (true, { s with lastReq := s.request })
  else if s.lastReq.sports.length ≠ s.request.sports.length then
    (true, { s with lastReq := s.request })
  else
    (false, s)

/-- `on_read(true)` up to its next Read: the message is in `m_request`, and an accepted one
raises the flag.
-/
def onRead (s : Subscription) (message : SportsLinesRequest) : Subscription :=
  match checkRequest { s with request := message } with
  | (true, s) => { s with changed := true }
  | (false, s) => s

/-- The writer's `m_changed.compare_exchange_strong(_expected, false)` with
`_expected = true`.
-/
def exchange (s : Subscription) : Bool × Subscription :=
  if s.changed then (true, { s with changed := false }) else (false, s)

/-- `check_request` takes `message` for a change of `known`. -/
def Differs (known message : SportsLinesRequest) : Prop :=
  known.pollingPeriod ≠ message.pollingPeriod
  ∨ known.sports.length ≠ message.sports.length

instance (known message : SportsLinesRequest) : Decidable (Differs known message) :=
  inferInstanceAs (Decidable (_ ∨ _))

theorem checkRequest_of_differs {s : Subscription} (differs : Differs s.lastReq s.request)
    : s.checkRequest = (true, { s with lastReq := s.request }) := by
  unfold checkRequest
  rcases differs with period | size
  · simp [period]
  · by_cases period : s.lastReq.pollingPeriod = s.request.pollingPeriod
    · simp [period, size]
    · simp [period]

theorem checkRequest_of_not_differs {s : Subscription}
    (same : ¬ Differs s.lastReq s.request)
    : s.checkRequest = (false, s) := by
  simp only [Differs, not_or, not_not] at same
  simp [checkRequest, same.1, same.2]

theorem onRead_of_differs {s : Subscription} {message : SportsLinesRequest}
    (differs : Differs s.lastReq message)
    : s.onRead message = { request := message, lastReq := message, changed := true } := by
  have checked := checkRequest_of_differs (s := { s with request := message }) differs
  simp [onRead, checked]

theorem onRead_of_not_differs {s : Subscription} {message : SportsLinesRequest}
    (same : ¬ Differs s.lastReq message)
    : s.onRead message = { s with request := message } := by
  have checked := checkRequest_of_not_differs (s := { s with request := message }) same
  simp [onRead, checked]

end Subscription

-----------------------------------------------------------------------------------------
-- Which updates are lost
-----------------------------------------------------------------------------------------

/-- The two requests name the same set of sports. -/
def SameSports (left right : SportsLinesRequest) : Prop :=
  ∀ sport, sport ∈ left.sports ↔ sport ∈ right.sports

theorem SameSports.symm {left right : SportsLinesRequest} (h : SameSports left right)
    : SameSports right left :=
  fun sport => (h sport).symm

theorem SameSports.trans {left middle right : SportsLinesRequest}
    (hl : SameSports left middle) (hr : SameSports middle right)
    : SameSports left right :=
  fun sport => (hl sport).trans (hr sport)

/-- What reaches the subscription: a message read, or the writer taking the flag. -/
inductive SubscriptionEvent
  | read (message : SportsLinesRequest)
  | exchange
deriving DecidableEq, Repr

/-- The messages read, oldest first. -/
def messages (events : List SubscriptionEvent) : List SportsLinesRequest :=
  events.filterMap (fun event => match event with
    | .read message => some message
    | .exchange => none)

/-- After reading `message`, what is remembered asks for the same, and the writer is told
whenever that differs from what was in effect before.
-/
structure Remembered (before after : Subscription) (message : SportsLinesRequest)
    : Prop where
  period : after.lastReq.pollingPeriod = message.pollingPeriod
  sports : SameSports after.lastReq message
  told
    : message.pollingPeriod ≠ before.lastReq.pollingPeriod
        ∨ ¬ SameSports message before.lastReq
      → after.changed = true

/-- Every message is remembered when it is read, wherever the writer takes the flag. -/
def NoUpdateLost (s : Subscription) : List SubscriptionEvent → Prop
  | [] => True
  | .read message :: rest =>
      Remembered s (s.onRead message) message ∧ NoUpdateLost (s.onRead message) rest
  | .exchange :: rest => NoUpdateLost s.exchange.2 rest

/-- Two consecutive messages that `check_request` cannot tell apart ask for the same. -/
def Distinguishable (previous message : SportsLinesRequest) : Prop :=
  Subscription.Differs previous message ∨ SameSports previous message

/-- The remembered request stands for `previous`: `check_request` sees no difference, and
there is none.
-/
structure StandsFor (known previous : SportsLinesRequest) : Prop where
  period : known.pollingPeriod = previous.pollingPeriod
  size : known.sports.length = previous.sports.length
  sports : SameSports known previous

theorem StandsFor.differs_iff {known previous : SportsLinesRequest}
    (h : StandsFor known previous) (message : SportsLinesRequest)
    : Subscription.Differs known message ↔ Subscription.Differs previous message := by
  simp only [Subscription.Differs, h.period, h.size]

/-- A message that is no difference is remembered exactly when its sports are those in
effect.
-/
theorem remembered_iff_of_not_differs {s : Subscription} {message : SportsLinesRequest}
    (same : ¬ Subscription.Differs s.lastReq message)
    : Remembered s (s.onRead message) message ↔ SameSports s.lastReq message := by
  rw [Subscription.onRead_of_not_differs same]
  simp only [Subscription.Differs, not_or, not_not] at same
  constructor
  · intro h
    exact h.sports
  · intro sports
    refine ⟨same.1, sports, ?_⟩
    intro differs
    rcases differs with period | other
    · exact absurd same.1.symm period
    · exact absurd sports.symm other

/-- The iff for any subscription that stands for the message read last, by induction on
the events.
-/
theorem noUpdateLost_iff_isChain_of_standsFor (events : List SubscriptionEvent)
    {s : Subscription} {previous : SportsLinesRequest}
    (stands : StandsFor s.lastReq previous)
    : NoUpdateLost s events
      ↔ List.IsChain Distinguishable (previous :: messages events) := by
  induction events generalizing s previous with
  | nil => simp [NoUpdateLost, messages]
  | cons event rest ih =>
      cases event with
      | exchange =>
          have kept : s.exchange.2.lastReq = s.lastReq := by
            unfold Subscription.exchange
            split <;> rfl
          exact ih (kept ▸ stands)
      | read message =>
          have unfolded : messages (.read message :: rest) = message :: messages rest := rfl
          rw [unfolded, List.isChain_cons_cons]
          by_cases differs : Subscription.Differs s.lastReq message
          · -- An accepted message is remembered as it is.
            have remembered : Remembered s (s.onRead message) message := by
              rw [Subscription.onRead_of_differs differs]
              exact ⟨rfl, fun _ => Iff.rfl, fun _ => rfl⟩
            have told : Distinguishable previous message :=
              Or.inl ((stands.differs_iff message).mp differs)
            have next : StandsFor (s.onRead message).lastReq message := by
              rw [Subscription.onRead_of_differs differs]
              exact ⟨rfl, rfl, fun _ => Iff.rfl⟩
            simp only [NoUpdateLost, remembered, told, true_and]
            exact ih next
          · have remembered := remembered_iff_of_not_differs differs
            have told : Distinguishable previous message ↔ SameSports s.lastReq message := by
              have blind := (stands.differs_iff message).not.mp differs
              simp only [Distinguishable, blind, false_or]
              exact ⟨stands.sports.trans, stands.sports.symm.trans⟩
            simp only [NoUpdateLost, remembered, told, and_congr_right_iff]
            intro sports
            apply ih
            rw [Subscription.onRead_of_not_differs differs]
            simp only [Subscription.Differs, not_or, not_not] at differs
            exact ⟨differs.1, differs.2, sports⟩

/-- No update is lost exactly when every two consecutive messages with the same period and
the same number of sports name the same sports; the first one is compared with the default
message.
-/
theorem noUpdateLost_iff_isChain (events : List SubscriptionEvent)
    : NoUpdateLost {} events ↔ List.IsChain Distinguishable ({} :: messages events) :=
  noUpdateLost_iff_isChain_of_standsFor events ⟨rfl, rfl, fun _ => Iff.rfl⟩

/-- Changing football for baseball at the same period is not remembered. -/
theorem update_lost_of_same_size
    : ¬ ∀ events, NoUpdateLost {} events := by
  intro all
  have lost := all
    [.read { pollingPeriod := 5, sports := ["football"] }, .exchange,
      .read { pollingPeriod := 5, sports := ["baseball"] }]
  have remembered := lost.2.1.sports "baseball"
  exact absurd remembered (by decide)

end RVision.Rpc.Server
