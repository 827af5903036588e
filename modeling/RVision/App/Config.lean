import Mathlib
import RVision.Lines.Provider.Readiness

/-! `app::startup` and the part of `app::main` that depends on it. The sports are read from the
last index down to the first, into a map, so that of two entries for one sport the earlier one
counts; the logger is set last, and everything after `startup` uses it without a test.
-/

namespace RVision.App

open RVision.Lines.Provider

/-- The properties of the configuration after their expansion, which Poco can carry out where no
property refers to itself.
-/
abbrev Configuration := String → Option String

/-- What the application relies on outside of it: how Poco reads an integer (`none` where it
throws), and whether spdlog can open a daily file.
-/
structure Libraries where
  parseInt : String → Option Int32
  opensFile : String → Bool

/-- The default where the property is missing. -/
def Configuration.getString (config : Configuration) (key deflt : String) : String :=
  (config key).getD deflt

/-- The default where the property is missing; `none` where Poco throws. -/
def Configuration.getInt (config : Configuration) (libraries : Libraries) (key : String)
    (deflt : Int32)
    : Option Int32 :=
  match config key with
  | none => some deflt
  | some value => libraries.parseInt value

-----------------------------------------------------------------------------------------
-- The names of the properties
-----------------------------------------------------------------------------------------

namespace Property

def loggerName : String := "rvision"

def loggerFile : String := "rvision.log"

def rpcServer : String := "grpc_server"

def httpServer : String := "http_server"

def linesServerHost : String := "lines_server.host"

def linesServerApi : String := "lines_server.api"

def linesCount : String := "lines_count"

def lines : String := "lines"

def linesName : String := "sport"

def linesPoll : String := "poll"

def loggerLevel : String := "logger_level"

def loggerSink : String := "logger_sink"

end Property

structure LineSportProperty where
  nameProperty : String
  pollProperty : String
deriving DecidableEq, Repr

def createLineSportProperty (count : Nat) : LineSportProperty :=
  let linesProperty := Property.lines ++ "[" ++ count.repr ++ "]"
  { nameProperty := linesProperty ++ "." ++ Property.linesName
    pollProperty := linesProperty ++ "." ++ Property.linesPoll }

-----------------------------------------------------------------------------------------
-- The logger
-----------------------------------------------------------------------------------------

/-- The levels of spdlog that the configuration can name. -/
inductive Level
  | info
  | debug
  | err
deriving DecidableEq, Repr

def getLoggerLevel (level : String) : Level :=
  match level with
  | "info" => .info
  | "debug" => .debug
  | "error" => .err
  | _ => .info

inductive Sink
  | console
  | dailyFile (name path : String) (hour minute : Nat)
deriving DecidableEq, Repr

structure Logger where
  sink : Sink
  level : Level
  flushOn : Option Level
  pattern : String
deriving DecidableEq, Repr

def loggerPattern : String := "[%H:%M:%S %z] [%n] [%^---%L---%$] [thread %t] %v"

/-- `create_logger`: the outer `none` where spdlog throws, the inner one for `nullptr`. -/
def createLogger (libraries : Libraries) (level sink name path : String)
    : Option (Option Logger) :=
  if sink = "console" then
    some (some
      { sink := .console
        level := getLoggerLevel level
        flushOn := none
        pattern := loggerPattern })
  else if sink = "file" then
    if libraries.opensFile path then
      some (some
        { sink := .dailyFile name path 23 59
          level := getLoggerLevel level
          flushOn := some (getLoggerLevel level)
          pattern := loggerPattern })
    else
      none
  else
    some none

-----------------------------------------------------------------------------------------
-- `startup`
-----------------------------------------------------------------------------------------

/-- `_lines_pollers`: the period of each sport. -/
abbrev LinesPollers := Finmap (fun _ : String => UInt32)

structure AppConfig where
  rpcSrvAddrr : String
  httpSrvAddrr : String
  linesSrvHost : String
  linesSrvApi : String
  dataFolder : String
  linesPollers : LinesPollers

/-- The loop over `lines_count`, which counts down to the index it reads. -/
def readLines (libraries : Libraries) (config : Configuration)
    : Nat → LinesPollers → Option LinesPollers
  | 0, pollers => some pollers
  | count + 1, pollers =>
      let lineProperty := createLineSportProperty count
      let sport := config.getString lineProperty.nameProperty ""
      (config.getInt libraries lineProperty.pollProperty 1).bind (fun poll =>
        readLines libraries config count (pollers.insert sport poll.toUInt32))

/-- The sports of the configuration; a count below zero is no count. -/
def readPollers (libraries : Libraries) (config : Configuration) : Option LinesPollers := do
  let linesCount ← config.getInt libraries Property.linesCount 0
  readLines libraries config linesCount.toInt.toNat ∅

/-- `startup`: `none` where it throws, and then `m_logger` is not set. -/
def startup (libraries : Libraries) (config : Configuration)
    : Option (AppConfig × Option Logger) := do
  let linesPollers ← readPollers libraries config
  let dataFolder := config.getString "application.dataDir" ""
  let loggerPath := dataFolder ++ "\\" ++ Property.loggerFile
  let loggerLevel := config.getString Property.loggerLevel "debug"
  let loggerSink := config.getString Property.loggerSink "console"
  let logger ← createLogger libraries loggerLevel loggerSink Property.loggerName loggerPath
  some
    ({ rpcSrvAddrr := config.getString Property.rpcServer "localhost:50502"
       httpSrvAddrr := config.getString Property.httpServer "localhost:10052"
       linesSrvHost := config.getString Property.linesServerHost "http://localhost:8000"
       linesSrvApi := config.getString Property.linesServerApi "api/v1/lines"
       dataFolder
       linesPollers },
      logger)

/-- What `main` goes on with when `startup` is over. What becomes of the main thread after that
is not modelled: making the data folder or starting a server may still throw.
-/
inductive MainOutcome
  /-- `m_logger` is not set, and the handler of what `startup` threw uses it, or the main thread
  does.
  -/
  | nullLogger
  /-- The main thread begins with `m_logger` set. -/
  | started (config : AppConfig) (logger : Logger)

def main (libraries : Libraries) (config : Configuration) : MainOutcome :=
  match startup libraries config with
  | none => .nullLogger
  | some (_, none) => .nullLogger
  | some (appConfig, some logger) => .started appConfig logger

-----------------------------------------------------------------------------------------
-- The names of the properties are apart
-----------------------------------------------------------------------------------------

theorem nameProperty_inj {left right : Nat}
    : (createLineSportProperty left).nameProperty = (createLineSportProperty right).nameProperty
      ↔ left = right := by
  simp only [createLineSportProperty, String.append_left_inj, String.append_right_inj,
    Nat.repr_inj]

theorem pollProperty_inj {left right : Nat}
    : (createLineSportProperty left).pollProperty = (createLineSportProperty right).pollProperty
      ↔ left = right := by
  simp only [createLineSportProperty, String.append_left_inj, String.append_right_inj,
    Nat.repr_inj]

/-- The two properties of a line end in different letters. -/
theorem nameProperty_ne_pollProperty (left right : Nat)
    : (createLineSportProperty left).nameProperty
      ≠ (createLineSportProperty right).pollProperty := by
  intro same
  have last := congrArg (fun name => name.toList.reverse.head?) same
  simp [createLineSportProperty, Property.linesName, Property.linesPoll] at last

theorem nameProperty_ne_linesCount (index : Nat)
    : (createLineSportProperty index).nameProperty ≠ Property.linesCount := by
  intro same
  have sixth := congrArg (fun name => name.toList[5]?) same
  simp [createLineSportProperty, Property.lines, Property.linesCount] at sixth

theorem pollProperty_ne_linesCount (index : Nat)
    : (createLineSportProperty index).pollProperty ≠ Property.linesCount := by
  intro same
  have sixth := congrArg (fun name => name.toList[5]?) same
  simp [createLineSportProperty, Property.lines, Property.linesCount] at sixth

-----------------------------------------------------------------------------------------
-- The sports
-----------------------------------------------------------------------------------------

/-- The lines of a configuration: what the loop reads at each index. -/
structure Holds (libraries : Libraries) (config : Configuration) (lines : List (String × Int32))
    : Prop where
  sports
    : ∀ index line,
        lines[index]? = some line
        → config.getString (createLineSportProperty index).nameProperty "" = line.1
  polls
    : ∀ index line,
        lines[index]? = some line
        → config.getInt libraries (createLineSportProperty index).pollProperty 1 = some line.2

/-- The loop leaves the first line of each sport, whatever it started from. By induction on the
count, from the last line to the first.
-/
theorem readLines_eq {libraries : Libraries} {config : Configuration}
    {lines : List (String × Int32)} (holds : Holds libraries config lines) {count : Nat}
    (inside : count ≤ lines.length) (pollers : LinesPollers)
    : ∃ result,
        readLines libraries config count pollers = some result
        ∧ ∀ sport,
            result.lookup sport
              = (((lines.take count).lookup sport).map Int32.toUInt32).or
                  (pollers.lookup sport) := by
  induction count generalizing pollers with
  | zero => exact ⟨pollers, rfl, by simp⟩
  | succ count ih =>
      obtain ⟨line, here⟩ : ∃ line, lines[count]? = some line :=
        ⟨_, List.getElem?_eq_getElem inside⟩
      obtain ⟨result, ran, known⟩ :=
        ih (Nat.le_of_succ_le inside) (pollers.insert line.1 line.2.toUInt32)
      refine ⟨result, ?_, fun sport => ?_⟩
      · simp only [readLines, holds.sports count line here, holds.polls count line here,
          Option.bind_some, ran]
      · rw [known, List.take_add_one, here, Option.toList_some, List.lookup_append]
        cases earlier : (lines.take count).lookup sport with
        | some poll => simp
        | none =>
            by_cases same : sport = line.1
            · subst same
              simp [List.lookup, Finmap.lookup_insert]
            · have other : (sport == line.1) = false := by simpa using same
              simp [List.lookup, other, Finmap.lookup_insert_of_ne _ same]

/-- The properties that describe `lines`, with `print` for the integers. -/
def properties (print : Int32 → String) (lines : List (String × Int32))
    : List (String × String) :=
  (Property.linesCount, print (Int32.ofNat lines.length))
  :: lines.zipIdx.flatMap (fun (line, index) =>
      [((createLineSportProperty index).nameProperty, line.1),
        ((createLineSportProperty index).pollProperty, print line.2)])

theorem beq_false_of_ne {left right : String} (other : left ≠ right) : (left == right) = false :=
  beq_eq_false_iff_ne.mpr other

/-- Each line is found under its own index, by induction on the lines from any first index. -/
theorem lookup_lines (print : Int32 → String) {lines : List (String × Int32)} {offset : Nat}
    {line : String × Int32} (here : lines[offset]? = some line) (first : Nat)
    : let entries := (lines.zipIdx first).flatMap (fun (line, index) =>
        [((createLineSportProperty index).nameProperty, line.1),
          ((createLineSportProperty index).pollProperty, print line.2)])
      entries.lookup (createLineSportProperty (first + offset)).nameProperty = some line.1
      ∧ entries.lookup (createLineSportProperty (first + offset)).pollProperty
        = some (print line.2) := by
  induction lines generalizing offset first with
  | nil => simp at here
  | cons head rest ih =>
      simp only [List.zipIdx_cons, List.flatMap_cons, List.cons_append, List.nil_append]
      have crossed := beq_false_of_ne (nameProperty_ne_pollProperty first first).symm
      cases offset with
      | zero =>
          obtain rfl : head = line := by simpa using here
          simp [List.lookup, crossed]
      | succ offset =>
          obtain ⟨name, poll⟩ := ih (by simpa using here) (first + 1)
          have shifted : first + (offset + 1) = first + 1 + offset := by omega
          have apart : first + 1 + offset ≠ first := by omega
          have names := beq_false_of_ne (mt nameProperty_inj.mp apart)
          have polls := beq_false_of_ne (mt pollProperty_inj.mp apart)
          have nameToPoll := beq_false_of_ne
            (nameProperty_ne_pollProperty (first + 1 + offset) first)
          have pollToName := beq_false_of_ne
            (nameProperty_ne_pollProperty first (first + 1 + offset)).symm
          simp only [shifted, List.lookup, names, polls, nameToPoll, pollToName]
          exact ⟨name, poll⟩

/-- A configuration that describes `lines` and is `others` elsewhere. -/
def describe (print : Int32 → String) (lines : List (String × Int32)) (others : Configuration)
    : Configuration :=
  fun key => ((properties print lines).lookup key).or (others key)

/-- A configuration that describes lines holds them. -/
theorem holds_describe {libraries : Libraries} {print : Int32 → String}
    (reads : ∀ value, libraries.parseInt (print value) = some value)
    (lines : List (String × Int32)) (others : Configuration)
    : Holds libraries (describe print lines others) lines := by
  constructor
  · intro index line here
    have found := (lookup_lines print here 0).1
    rw [Nat.zero_add] at found
    have apart := beq_false_of_ne (nameProperty_ne_linesCount index)
    simp only [Configuration.getString, describe, properties, List.lookup, apart, found,
      Option.some_or, Option.getD_some]
  · intro index line here
    have found := (lookup_lines print here 0).2
    rw [Nat.zero_add] at found
    have apart := beq_false_of_ne (pollProperty_ne_linesCount index)
    simp only [Configuration.getInt, describe, properties, List.lookup, apart, found,
      Option.some_or, reads]

/-- Reading back: whatever else the configuration holds, a list of lines that fits into an `int`
count is read as the map that has the period of the first line of each sport and of no other
sport. The period of a negative poll is its value modulo 2^32.
-/
theorem readPollers_describe {libraries : Libraries} {print : Int32 → String}
    (reads : ∀ value, libraries.parseInt (print value) = some value)
    {lines : List (String × Int32)} (fits : lines.length < 2 ^ 31) (others : Configuration)
    : ∃ pollers,
        readPollers libraries (describe print lines others) = some pollers
        ∧ ∀ sport, pollers.lookup sport = (lines.lookup sport).map Int32.toUInt32 := by
  have count : (describe print lines others).getInt libraries Property.linesCount 0
      = some (Int32.ofNat lines.length) := by
    simp [Configuration.getInt, describe, properties, reads]
  have size : (Int32.ofNat lines.length).toInt.toNat = lines.length := by
    rw [Int32.toInt_ofNat_of_lt fits, Int.toNat_natCast]
  obtain ⟨pollers, ran, known⟩ :=
    readLines_eq (holds_describe reads lines others) (Nat.le_refl _) ∅
  refine ⟨pollers, ?_, fun sport => ?_⟩
  · simp only [readPollers, count, Option.bind_eq_bind, Option.bind_some, size, ran]
  · rw [known, List.take_length, Finmap.lookup_empty, Option.or_none]

/-- Decimal numerals, and every file can be opened. -/
def decimal : Libraries where
  parseInt text := text.toInt?.map Int32.ofInt
  opensFile _ := true

/-- The lines of the configuration that is shipped, with soccer given once more. -/
def shippedLines : List (String × Int32) :=
  [("soccer", 1), ("baseball", 2), ("football", 3), ("soccer", 9)]

theorem readPollers_describe_shippedLines
    : ∃ pollers,
        readPollers decimal
            (describe (fun value => value.toInt.repr) shippedLines (fun _ => none))
          = some pollers
        ∧ pollers.lookup "soccer" = some 1
        ∧ pollers.lookup "hockey" = none := by
  have reads (value : Int32) : decimal.parseInt value.toInt.repr = some value := by
    simp [decimal]
  obtain ⟨pollers, read, known⟩ :=
    readPollers_describe reads (show shippedLines.length < 2 ^ 31 by decide) (fun _ => none)
  exact ⟨pollers, read, known "soccer", known "hockey"⟩

-----------------------------------------------------------------------------------------
-- The logger
-----------------------------------------------------------------------------------------

/-- The property is there and no integer. -/
def Configuration.Unreadable (config : Configuration) (libraries : Libraries) (key : String)
    : Prop :=
  ∃ value, config key = some value ∧ libraries.parseInt value = none

theorem getInt_eq_none_iff {libraries : Libraries} {config : Configuration} {key : String}
    (deflt : Int32)
    : config.getInt libraries key deflt = none ↔ config.Unreadable libraries key := by
  unfold Configuration.getInt Configuration.Unreadable
  cases config key <;> simp

/-- The loop throws exactly where the poll of one of its lines cannot be read. By induction on
the count.
-/
theorem readLines_eq_none_iff {libraries : Libraries} {config : Configuration} {count : Nat}
    {pollers : LinesPollers}
    : readLines libraries config count pollers = none
      ↔ ∃ index < count,
          config.Unreadable libraries (createLineSportProperty index).pollProperty := by
  induction count generalizing pollers with
  | zero => simp [readLines]
  | succ count ih =>
      simp only [readLines, Nat.lt_succ_iff_lt_or_eq, or_and_right, exists_or, exists_eq_left]
      cases poll : config.getInt libraries (createLineSportProperty count).pollProperty 1 with
      | none => simp [(getInt_eq_none_iff 1).mp poll]
      | some value =>
          have readable : ¬ config.Unreadable libraries
              (createLineSportProperty count).pollProperty := by
            rw [← getInt_eq_none_iff 1, poll]
            simp
          simp [ih, readable]

/-- The sink of the configuration and the file that it may name. -/
def Configuration.loggerSink (config : Configuration) : String :=
  config.getString Property.loggerSink "console"

def Configuration.loggerPath (config : Configuration) : String :=
  config.getString "application.dataDir" "" ++ "\\" ++ Property.loggerFile

/-- The sink is one that `create_logger` knows, and its file can be opened. -/
def Configuration.HasSink (config : Configuration) (libraries : Libraries) : Prop :=
  config.loggerSink = "console"
  ∨ (config.loggerSink = "file" ∧ libraries.opensFile config.loggerPath = true)

/-- Poco can parse the number of lines and the poll of each of them. -/
def Configuration.Parses (config : Configuration) (libraries : Libraries) : Prop :=
  ∃ count,
    config.getInt libraries Property.linesCount 0 = some count
    ∧ ∀ index < count.toInt.toNat,
        ¬ config.Unreadable libraries (createLineSportProperty index).pollProperty

/-- There is a logger for a console, and for a file that can be opened; it has the level that
was asked for.
-/
theorem createLogger_cases (libraries : Libraries) (level sink name path : String)
    : ((sink = "console" ∨ (sink = "file" ∧ libraries.opensFile path = true))
        ∧ ∃ logger,
            createLogger libraries level sink name path = some (some logger)
            ∧ logger.level = getLoggerLevel level)
      ∨ (¬ (sink = "console" ∨ (sink = "file" ∧ libraries.opensFile path = true))
        ∧ (createLogger libraries level sink name path = none
          ∨ createLogger libraries level sink name path = some none)) := by
  unfold createLogger
  by_cases console : sink = "console"
  · simp [console]
  · by_cases file : sink = "file"
    · by_cases opens : libraries.opensFile path = true
      · simp [file, opens]
      · simp [file, opens]
    · simp [console, file]

/-- The sports can be read exactly where the count and the polls of the counted lines can. -/
theorem readPollers_isSome_iff {libraries : Libraries} {config : Configuration}
    : (readPollers libraries config).isSome ↔ config.Parses libraries := by
  simp only [readPollers, Option.bind_eq_bind, Configuration.Parses]
  cases config.getInt libraries Property.linesCount 0 with
  | none => simp
  | some count =>
      rw [← not_iff_not, Option.not_isSome_iff_eq_none]
      simp [readLines_eq_none_iff]

/-- `main` sets its logger exactly where Poco can parse the integers of the configuration, and the
sink is the console or a file that can be opened; the sports and the level are then those of the
configuration. Everywhere else it runs into the unset logger.
-/
theorem main_eq_started_iff {libraries : Libraries} {config : Configuration}
    : ((∃ appConfig logger,
          main libraries config = .started appConfig logger
          ∧ readPollers libraries config = some appConfig.linesPollers
          ∧ logger.level = getLoggerLevel (config.getString Property.loggerLevel "debug"))
        ↔ config.Parses libraries ∧ config.HasSink libraries)
      ∧ (main libraries config = .nullLogger
        ↔ ¬ (config.Parses libraries ∧ config.HasSink libraries)) := by
  rw [← readPollers_isSome_iff]
  have created := createLogger_cases libraries (config.getString Property.loggerLevel "debug")
    config.loggerSink Property.loggerName config.loggerPath
  simp only [main, startup, Option.bind_eq_bind]
  cases readPollers libraries config with
  | none => simp
  | some pollers =>
      rcases created with ⟨sink, logger, opened, level⟩ | ⟨sink, failed | unknown⟩
      · simp only [Configuration.loggerSink, Configuration.loggerPath] at opened
        simp [opened, level, Configuration.HasSink, sink]
      · simp only [Configuration.loggerSink, Configuration.loggerPath] at failed
        simp [failed, Configuration.HasSink, sink]
      · simp only [Configuration.loggerSink, Configuration.loggerPath] at unknown
        simp [unknown, Configuration.HasSink, sink]

end RVision.App
