/-! The statements of `lines_db`. Each function of `connection` puts a text of SQL together and
gives it to SQLite, which stands outside: a parameter that answers a text with the rows it
finds and how it ends.
-/

namespace RVision.Lines.Db

/-- `rvision::core::errc`. -/
inductive Errc
  | fail
  | success
  | notFound
  | invalidArgument
  | insufficientResources
  | notImplement
deriving DecidableEq, Repr

/-- What `sqlite3_exec` returns. -/
inductive ResultCode
  | ok
  | row
  | done
  | abort
  | error (code : Nat)
deriving DecidableEq, Repr

/-- The columns of a result row as text, `NULL` as `none`. -/
abbrev Row := List (Option String)

/-- How SQLite executes a text: the rows it finds, each with the database at that moment,
and how it ends when no callback stops it.
-/
inductive Execution (Db : Type)
  | ended (result : ResultCode) (db : Db)
  | found (row : Row) (db : Db) (rest : Execution Db)
deriving DecidableEq, Repr

/-- The library behind a connection. -/
abbrev Sqlite (Db : Type) := Db → String → Execution Db

/-- The callback of `sqlite3_exec`: what it returns and what it leaves in its data. -/
abbrev ExecCallback (Data : Type) := Row → Data → Int × Data

variable {Db Data : Type}

/-- `sqlite3_exec` calls the callback for each row and stops where it returns non-zero. -/
def Execution.drive (callback : Option (ExecCallback Data))
    : Execution Db → Data → ResultCode × Db × Data
  | .ended result db, data => (result, db, data)
  | .found row db rest, data =>
      match callback with
      | none => rest.drive none data
      | some call =>
          match call row data with
          | (0, data) => rest.drive (some call) data
          | (_, data) => (.abort, db, data)

def sqlite3Exec (sqlite : Sqlite Db) (db : Db) (sql : String)
    (callback : Option (ExecCallback Data)) (data : Data)
    : ResultCode × Db × Data :=
  (sqlite db sql).drive callback data

-----------------------------------------------------------------------------------------
-- `connection`
-----------------------------------------------------------------------------------------

namespace Connection

def retrieveError : ResultCode → Errc
  | .ok | .done | .row => .success
  | .abort | .error _ => .fail

def execute (sqlite : Sqlite Db) (db : Db) (sql : String) : Errc × Db :=
  let (result, db, _) := sqlite3Exec sqlite db sql none ()
  (retrieveError result, db)

def addLineSql (line : String) : String :=
  "CREATE TABLE IF NOT EXISTS " ++ line
    ++ " (id int AUTO_INCREMENT, score REAL, PRIMARY KEY (id)); "
    ++ "CREATE INDEX IF NOT EXISTS score_index ON " ++ line ++ " (score ASC);"

def addLine (sqlite : Sqlite Db) (db : Db) (line : String) : Errc × Db :=
  execute sqlite db (addLineSql line)

def remLineSql (line : String) : String := "DROP TABLE " ++ line ++ ";"

def remLine (sqlite : Sqlite Db) (db : Db) (line : String) : Errc × Db :=
  execute sqlite db (remLineSql line)

/-- `score` is the text that `std::to_string` makes of the score. -/
def updateLineSql (line score : String) : String :=
  "INSERT INTO " ++ line ++ " (score) values (" ++ score ++ ");"

def updateLine (sqlite : Sqlite Db) (db : Db) (line score : String) : Errc × Db :=
  execute sqlite db (updateLineSql line score)

/-- The two queries pass a callback that leaves its data alone and returns 1. -/
def select (sqlite : Sqlite Db) (db : Db) (sql : String) (data : Data) : Errc × Db × Data :=
  let (result, db, data) := sqlite3Exec sqlite db sql (some fun _ data => (1, data)) data
  (retrieveError result, db, data)

def lastScoreSql (line : String) : String :=
  "SELECT * FROM " ++ line ++ " ORDERED BY rowid DESC LIMIT 1;"

/-- `score` is the caller's variable; `none` is one that was never written. -/
def lastScore {Score : Type} (sqlite : Sqlite Db) (db : Db) (line : String)
    (score : Option Score)
    : Errc × Db × Option Score :=
  select sqlite db (lastScoreSql line) score

/-- `_sql += _portion` appends the character with the code of `_portion`. -/
def fetchScoreSql (line : String) : String :=
  let portion : Nat := 100
  "SELECT * FROM" ++ line ++ "ORDERED BY id LIMIT " ++ String.singleton (.ofNat portion) ++ ";"

def fetchScore {Score : Type} (sqlite : Sqlite Db) (db : Db) (line : String)
    (score : List Score)
    : Errc × Db × List Score :=
  select sqlite db (fetchScoreSql line) score

-----------------------------------------------------------------------------------------
-- What a query brings back
-----------------------------------------------------------------------------------------

/-- Where SQLite finds no row, a query returns how the text ended. -/
theorem select_of_ended {sqlite : Sqlite Db} {db after : Db} {sql : String}
    {result : ResultCode} (answer : sqlite db sql = .ended result after) (data : Data)
    : select sqlite db sql data = (retrieveError result, after, data) := by
  simp [select, sqlite3Exec, answer, Execution.drive]

/-- At the first row the callback asks SQLite to stop, and the query has failed. -/
theorem select_of_found {sqlite : Sqlite Db} {db after : Db} {sql : String} {row : Row}
    {rest : Execution Db} (answer : sqlite db sql = .found row after rest) (data : Data)
    : select sqlite db sql data = (.fail, after, data) := by
  simp [select, sqlite3Exec, answer, Execution.drive, retrieveError]

end Connection

-----------------------------------------------------------------------------------------
-- `lines_db`
-----------------------------------------------------------------------------------------

namespace LinesDb

/-- Run `use` on the connection of a new accessor, unless the pool had none to give. -/
def access {State : Type} (available : Bool) (state : State) (use : State → Errc × State)
    : Errc × State :=
  if available then use state else (.insufficientResources, state)

def addLine (sqlite : Sqlite Db) (available : Bool) (db : Db) (line : String) : Errc × Db :=
  access available db (fun db => Connection.addLine sqlite db line)

def remLine (sqlite : Sqlite Db) (available : Bool) (db : Db) (line : String) : Errc × Db :=
  access available db (fun db => Connection.remLine sqlite db line)

/-- `update_line` calls `add_line` of the connection. -/
def updateLine {Score : Type} (sqlite : Sqlite Db) (available : Bool) (db : Db)
    (line : String) (_score : Score)
    : Errc × Db :=
  access available db (fun db => Connection.addLine sqlite db line)

def lastScore {Score : Type} (sqlite : Sqlite Db) (available : Bool) (db : Db)
    (line : String) (score : Option Score)
    : Errc × Db × Option Score :=
  access available (db, score) (fun (db, score) => Connection.lastScore sqlite db line score)

def fetchScore {Score : Type} (sqlite : Sqlite Db) (available : Bool) (db : Db)
    (line : String) (score : List Score)
    : Errc × Db × List Score :=
  access available (db, score) (fun (db, score) => Connection.fetchScore sqlite db line score)

end LinesDb

end RVision.Lines.Db
