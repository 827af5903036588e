/-! `lines_poller::poll`: one request for the score of a sport, and whether it ends in a call
of the callback. Every exception on the way is caught and logged.
-/

namespace RVision.Lines.Poller

/-- The value of a JSON document at a path. -/
inductive Entry (Score : Type)
  | missing
  | notNumeric
  | number (score : Score)
deriving DecidableEq, Repr

/-- The body of a response, as far as `Poco::Util::JSONConfiguration` reads it. -/
inductive Body (Score : Type)
  | notJson
  | json (document : String → Entry Score)

/-- What comes of a request: the session throws, or there is a response. -/
inductive Exchange (Score : Type)
  | failed
  | answered (status : Nat) (body : Body Score)

variable {Score : Type}

/-- `HTTPResponse::HTTP_OK`. -/
def httpOk : Nat := 200

/-- `lines.` and the sport in upper case. -/
def property (sport : String) : String := "lines." ++ sport.map Char.toUpper

/-- `getDouble` of Poco: the default where there is no entry, and `none` where it throws. -/
def getDouble (document : String → Entry Score) (key : String) (deflt : Score)
    : Option Score :=
  match document key with
  | .missing => some deflt
  | .notNumeric => none
  | .number score => some score

/-- The call of the callback that a poll makes, if it makes one. -/
def poll [Zero Score] (sport : String) : Exchange Score → Option (String × Score)
  | .failed => none
  | .answered status body =>
      if status = httpOk then
        match body with
        | .notJson => none
        | .json document =>
            (getDouble document (property sport) 0).map (fun score => (sport, score))
      else
        none

-----------------------------------------------------------------------------------------
-- What an exchange brings
-----------------------------------------------------------------------------------------

/-- The number that an exchange brings for a sport. -/
def Exchange.number (sport : String) : Exchange Score → Option Score
  | .failed => none
  | .answered status body =>
      if status = httpOk then
        match body with
        | .notJson => none
        | .json document =>
            match document (property sport) with
            | .number score => some score
            | .missing | .notNumeric => none
      else
        none

/-- The response is a document without an entry for the sport. -/
def Exchange.MissesEntry (sport : String) (exchange : Exchange Score) : Prop :=
  ∃ document,
    exchange = .answered httpOk (.json document) ∧ document (property sport) = .missing

/-- All that can come of a poll: the number is reported, a score of 0 is reported because there
is no entry, or nothing is.
-/
theorem poll_cases [Zero Score] (sport : String) (exchange : Exchange Score)
    : (∃ score, exchange.number sport = some score ∧ poll sport exchange = some (sport, score)
        ∧ ¬ exchange.MissesEntry sport)
      ∨ (exchange.number sport = none ∧ poll sport exchange = some (sport, 0)
        ∧ exchange.MissesEntry sport)
      ∨ (exchange.number sport = none ∧ poll sport exchange = none
        ∧ ¬ exchange.MissesEntry sport) := by
  cases exchange with
  | failed => simp [Exchange.number, Exchange.MissesEntry, poll]
  | answered status body =>
      by_cases ok : status = httpOk
      · subst ok
        cases body with
        | notJson => simp [Exchange.number, Exchange.MissesEntry, poll]
        | json document =>
            cases entry : document (property sport) <;>
              simp [Exchange.number, Exchange.MissesEntry, poll, getDouble, entry]
      · simp [Exchange.number, Exchange.MissesEntry, poll, ok]

end RVision.Lines.Poller
