/-! The messages of `rvision.proto` and the operations of their generated classes that the
client and the server use. Scores stay abstract: no message code computes with them.
-/

namespace RVision.Rpc

structure SportLine (Score : Type) where
  score : Score
  sport : String
deriving DecidableEq, Repr

/-- A message that is default-constructed asks for period 0 and no sports. -/
structure SportsLinesRequest where
  pollingPeriod : UInt64 := 0
  sports : List String := []
deriving DecidableEq, Repr

structure SportsLinesResponse (Score : Type) where
  lines : List (SportLine Score) := []
deriving DecidableEq, Repr

namespace SportsLinesRequest

def clear (_ : SportsLinesRequest) : SportsLinesRequest := {}

def setPollingPeriod (req : SportsLinesRequest) (period : UInt64) : SportsLinesRequest :=
  { req with pollingPeriod := period }

def addSports (req : SportsLinesRequest) (sport : String) : SportsLinesRequest :=
  { req with sports := req.sports ++ [sport] }

/-- Adding sports one by one appends them in order and leaves the period alone. -/
theorem foldl_addSports (req : SportsLinesRequest) (sports : List String)
    : sports.foldl addSports req = { req with sports := req.sports ++ sports } := by
  induction sports generalizing req with
  | nil => simp
  | cons sport rest ih => simp [ih, addSports]

end SportsLinesRequest

namespace SportsLinesResponse

variable {Score : Type}

def clear (_ : SportsLinesResponse Score) : SportsLinesResponse Score := {}

def addLine (response : SportsLinesResponse Score) (line : SportLine Score)
    : SportsLinesResponse Score :=
  { response with lines := response.lines ++ [line] }

/-- Adding lines one by one appends them in order. -/
theorem foldl_addLine (response : SportsLinesResponse Score)
    (lines : List (SportLine Score))
    : lines.foldl addLine response = { lines := response.lines ++ lines } := by
  induction lines generalizing response with
  | nil => simp
  | cons line rest ih => simp [ih, addLine]

/-- Reading a message off the stream parses it into the given buffer, which first drops
what the buffer held.
-/
def parseInto (buffer message : SportsLinesResponse Score) : SportsLinesResponse Score :=
  message.lines.foldl addLine buffer.clear

@[simp] theorem parseInto_eq (buffer message : SportsLinesResponse Score)
    : buffer.parseInto message = message := by
  simp [parseInto, foldl_addLine, clear]

end SportsLinesResponse

end RVision.Rpc
