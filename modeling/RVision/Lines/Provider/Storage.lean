import RVision.Lines.Db.Statements
import RVision.Lines.Provider.Readiness

/-! `lines_provider` with its database. A poll goes to the database and then to the cache;
`fetch_last` and `fetch` read the database alone and drop every error code on the way.
-/

namespace RVision.Lines.Provider

open RVision.Lines.Db

variable {Score Db : Type}

/-- A provider and what its connections have stored. -/
structure StoredProvider (Score Db : Type) where
  provider : LinesProvider Score := {}
  db : Db

/-- What a loop over `sports` has collected. The code keeps only `lines`. -/
structure Collected (Value Db : Type) where
  lines : Finmap (fun _ : String => Value) := ∅
  reads : List (String × Errc) := []
  db : Db

/-- One iteration: the entry is made whatever the query returned. -/
def Collected.read {Value : Type} (query : Db → String → Errc × Db × Value)
    (state : Collected Value Db) (sport : String)
    : Collected Value Db :=
  let (errc, db, value) := query state.db sport
  { lines := state.lines.insert sport value, reads := state.reads ++ [(sport, errc)], db }

namespace StoredProvider

variable (sqlite : Sqlite Db) (available : Bool)

def add [Zero Score] (base : String) (stored : StoredProvider Score Db) (sport : String)
    : StoredProvider Score Db :=
  let (_, db) := LinesDb.addLine sqlite available stored.db sport
  { provider := stored.provider.add base sport, db }

def rem (base : String) (stored : StoredProvider Score Db) (sport : String)
    : StoredProvider Score Db :=
  let (_, db) := LinesDb.remLine sqlite available stored.db sport
  { provider := stored.provider.rem base sport, db }

def pollCallback [Zero Score] (stored : StoredProvider Score Db) (sport : String)
    (score : Score)
    : StoredProvider Score Db :=
  let (_, db) := LinesDb.updateLine sqlite available stored.db sport score
  { provider := stored.provider.pollCallback sport score, db }

/-- The constructor adds its sports to whatever the database holds. -/
def construct [Zero Score] (base : String) (sports : List String) (db : Db)
    : StoredProvider Score Db :=
  sports.foldl (add sqlite available base) { db }

/-- The provider after a sequence of poll callbacks. -/
def polled [Zero Score] (stored : StoredProvider Score Db) (polls : List (String × Score))
    : StoredProvider Score Db :=
  polls.foldl (fun stored poll => stored.pollCallback sqlite available poll.1 poll.2) stored

/-- `fetch_last` declares a new `score` for each sport and does not initialise it. -/
def fetchLast (stored : StoredProvider Score Db) (sports : List String)
    : Collected (Option Score) Db :=
  sports.foldl (Collected.read (fun db sport => LinesDb.lastScore sqlite available db sport none))
    { db := stored.db }

/-- `fetch` declares a new vector for each sport. -/
def fetch (stored : StoredProvider Score Db) (sports : List String)
    : Collected (List Score) Db :=
  sports.foldl (Collected.read (fun db sport => LinesDb.fetchScore sqlite available db sport []))
    { db := stored.db }

end StoredProvider

/-- What was fetched for the listed sports is what the cache has from their latest polls, and
a failed read leaves no entry.
-/
structure Agrees (polls : List (String × Score)) (listed : List String)
    (cache : LinesCache Score) (fetched : Collected (Option Score) Db)
    : Prop where
  latest
    : ∀ sport ∈ listed, ∀ score,
        latestPoll polls sport = some score
        → fetched.lines.lookup sport = some (some score)
          ∧ (cache.lookup sport).map LimesDeltaCacheItem.lastRecv = some score
  failed : ∀ read ∈ fetched.reads, read.2 ≠ .success → read.1 ∉ fetched.lines

/-- SQLite executes the query of `last_score` for each sport in turn, and finds no row. -/
def SelectsNothing (sqlite : Sqlite Db) : Db → List String → Prop
  | _, [] => True
  | db, sport :: rest =>
      ∃ result after,
        sqlite db (Connection.lastScoreSql sport) = .ended result after
        ∧ Connection.retrieveError result = .success
        ∧ SelectsNothing sqlite after rest

/-- SQLite knows no `ORDERED BY`: it rejects the query for any name that does not itself end
the statement.
-/
def Rejects (sqlite : Sqlite Db) (sport : String) : Prop :=
  ∀ db, ∃ code, sqlite db (Connection.lastScoreSql sport) = .ended (.error code) db

-----------------------------------------------------------------------------------------
-- What a loop over the sports collects
-----------------------------------------------------------------------------------------

section Collected

variable {Value : Type} {query : Db → String → Errc × Db × Value}

/-- Where the query never writes its variable, every sport gets the variable as it was
declared. Witness: induction on the sports, from any earlier state of the loop.
-/
theorem lookup_foldl_read {value : Value} (unwritten : ∀ db sport, (query db sport).2.2 = value)
    (sports : List String) (state : Collected Value Db) (sport : String)
    : (sports.foldl (Collected.read query) state).lines.lookup sport
      = if sport ∈ sports then some value else state.lines.lookup sport := by
  induction sports generalizing state with
  | nil => simp
  | cons first rest ih =>
      rw [List.foldl_cons, ih]
      by_cases later : sport ∈ rest
      · simp [later]
      · by_cases here : sport = first
        · subst first
          simp [Collected.read, unwritten]
        · simp [Collected.read, later, here, Finmap.lookup_insert_of_ne _ here]

/-- The loop reads each sport once, in order. -/
theorem map_fst_foldl_read (sports : List String) (state : Collected Value Db)
    : (sports.foldl (Collected.read query) state).reads.map Prod.fst
      = state.reads.map Prod.fst ++ sports := by
  induction sports generalizing state with
  | nil => simp
  | cons first rest ih => simp [ih, Collected.read]

end Collected

section FetchLast

variable (sqlite : Sqlite Db) (stored : StoredProvider Score Db) (listed : List String)

/-- A read of one sport, by what SQLite answers: the variable is never written. -/
theorem lastScore_cases (db : Db) (sport : String) (score : Option Score)
    : (∃ result after,
        sqlite db (Connection.lastScoreSql sport) = .ended result after
        ∧ LinesDb.lastScore sqlite true db sport score
          = (Connection.retrieveError result, after, score))
      ∨ ∃ row after rest,
          sqlite db (Connection.lastScoreSql sport) = .found row after rest
          ∧ LinesDb.lastScore sqlite true db sport score = (.fail, after, score) := by
  cases answer : sqlite db (Connection.lastScoreSql sport) with
  | ended result after =>
      exact Or.inl ⟨result, after, rfl, Connection.select_of_ended answer score⟩
  | found row after rest =>
      exact Or.inr ⟨row, after, rest, rfl, Connection.select_of_found answer score⟩

/-- Every listed sport has an entry, and its score was never written. -/
theorem lookup_fetchLast (sport : String)
    : (stored.fetchLast sqlite true listed).lines.lookup sport
      = if sport ∈ listed then some none else none := by
  have unwritten (db : Db) (sport : String)
      : (LinesDb.lastScore sqlite true db sport (none : Option Score)).2.2 = none := by
    rcases lastScore_cases sqlite db sport (none : Option Score) with
      ⟨_, _, _, effect⟩ | ⟨_, _, _, _, effect⟩
    · rw [effect]
    · rw [effect]
  rw [StoredProvider.fetchLast, lookup_foldl_read unwritten]
  simp

theorem mem_fetchLast_iff (sport : String)
    : sport ∈ (stored.fetchLast sqlite true listed).lines ↔ sport ∈ listed := by
  rw [← Finmap.lookup_isSome, lookup_fetchLast]
  split_ifs with member <;> simp [member]

theorem map_fst_reads
    : (stored.fetchLast sqlite true listed).reads.map Prod.fst = listed :=
  map_fst_foldl_read listed { db := stored.db }

/-- The reads succeed as long as SQLite selects nothing. Witness: induction on the sports,
from any earlier state of the loop.
-/
theorem reads_succeed_iff
    : (∀ read ∈ (stored.fetchLast sqlite true listed).reads, read.2 = .success)
      ↔ SelectsNothing sqlite stored.db listed := by
  have general (state : Collected (Option Score) Db)
      : (∀ read ∈ (listed.foldl (Collected.read
            (fun db sport => LinesDb.lastScore sqlite true db sport none)) state).reads,
            read.2 = .success)
        ↔ (∀ read ∈ state.reads, read.2 = .success)
          ∧ SelectsNothing sqlite state.db listed := by
    induction listed generalizing state with
    | nil => simp [SelectsNothing]
    | cons sport rest ih =>
        rw [List.foldl_cons, ih]
        rcases lastScore_cases sqlite state.db sport (none : Option Score) with
          ⟨result, after, answer, effect⟩ | ⟨row, after, later, answer, effect⟩
        · simp [Collected.read, effect, SelectsNothing, answer, or_imp, forall_and, and_assoc]
        · simp [Collected.read, effect, SelectsNothing, answer, or_imp, forall_and]
  have whole := general { db := stored.db }
  rw [StoredProvider.fetchLast, whole]
  simp

end FetchLast

-----------------------------------------------------------------------------------------
-- The database and the cache
-----------------------------------------------------------------------------------------

/-- The database never sees a score: after any polls it is what adding their sports again
would have made of it.
-/
theorem polled_db [Zero Score] (sqlite : Sqlite Db) (available : Bool)
    (stored : StoredProvider Score Db) (polls : List (String × Score))
    : (stored.polled sqlite available polls).db
      = polls.foldl (fun db poll => (LinesDb.addLine sqlite available db poll.1).2)
          stored.db := by
  induction polls generalizing stored with
  | nil => rfl
  | cons poll rest ih =>
      have next := ih (stored.pollCallback sqlite available poll.1 poll.2)
      rw [List.foldl_cons]
      exact next

theorem agrees_iff (sqlite : Sqlite Db) (stored : StoredProvider Score Db)
    (polls : List (String × Score)) (listed : List String)
    : Agrees polls listed stored.provider.cache (stored.fetchLast sqlite true listed)
      ↔ (∀ sport ∈ listed, ∀ score, (sport, score) ∉ polls)
        ∧ SelectsNothing sqlite stored.db listed := by
  rw [← reads_succeed_iff]
  constructor
  · intro agrees
    refine ⟨?_, ?_⟩
    · intro sport member score polled
      obtain ⟨latest, found⟩ :=
        Option.isSome_iff_exists.mp ((latestPoll_isSome_iff polls sport).mpr ⟨score, polled⟩)
      have fetched := (agrees.latest sport member latest found).1
      rw [lookup_fetchLast, if_pos member] at fetched
      cases fetched
    · intro read member
      by_contra failure
      refine agrees.failed read member failure ?_
      rw [mem_fetchLast_iff, ← map_fst_reads sqlite stored listed]
      exact List.mem_map_of_mem member
  · intro condition
    obtain ⟨unpolled, succeed⟩ := condition
    refine ⟨?_, ?_⟩
    · intro sport member score found
      obtain ⟨other, inside⟩ := (latestPoll_isSome_iff polls sport).mp (by simp [found])
      exact absurd inside (unpolled sport member other)
    · exact fun read member failure => absurd (succeed read member) failure

theorem selectsNothing_iff_nil {sqlite : Sqlite Db} {db : Db} {listed : List String}
    (rejected : ∀ sport ∈ listed, Rejects sqlite sport)
    : SelectsNothing sqlite db listed ↔ listed = [] := by
  cases listed with
  | nil => simp [SelectsNothing]
  | cons sport rest =>
      obtain ⟨code, answer⟩ := rejected sport List.mem_cons_self db
      simp [SelectsNothing, answer, Connection.retrieveError]

/-- Whatever SQLite answers, the database and the cache agree about the listed sports exactly
where none of them was polled and SQLite executes the query for each of them and finds no
row. Where it rejects the queries, that leaves the empty list.
-/
theorem fetchLast_agrees_iff [Zero Score] (sqlite : Sqlite Db) (base : String) (db : Db)
    (sports : List String) (polls : List (String × Score)) (listed : List String)
    : let stored := (StoredProvider.construct sqlite true base sports db).polled sqlite true polls
      let fetched := stored.fetchLast sqlite true listed
      (Agrees polls listed stored.provider.cache fetched
        ↔ (∀ sport ∈ listed, ∀ score, (sport, score) ∉ polls)
          ∧ SelectsNothing sqlite stored.db listed)
      ∧ ((∀ sport ∈ listed, Rejects sqlite sport)
        → (Agrees polls listed stored.provider.cache fetched ↔ listed = [])) := by
  intro stored fetched
  have condition := agrees_iff sqlite stored polls listed
  refine ⟨condition, ?_⟩
  intro rejected
  rw [condition, selectsNothing_iff_nil rejected, and_iff_right_iff_imp]
  intro empty
  simp [empty]

/-- SQLite as far as `football` is concerned: it creates the table and its index, and knows no
`ORDERED BY`.
-/
def footballSqlite : Sqlite (List String) := fun tables sql =>
  if sql = Connection.addLineSql "football" then
    .ended .ok (tables.insert "football")
  else
    .ended (.error 1) tables

theorem rejects_football : Rejects footballSqlite "football" := by
  have other : Connection.lastScoreSql "football" ≠ Connection.addLineSql "football" := by
    decide
  intro tables
  exact ⟨1, if_neg other⟩

theorem fetchLast_agrees_iff_football
    : Rejects footballSqlite "football"
      ∧ ∀ listed : List String,
          (∀ sport ∈ listed, sport = "football")
          → let stored :=
              (StoredProvider.construct footballSqlite true "lines" ["football"] []).polled
                footballSqlite true [("football", (5 / 2 : Rat))]
            Agrees [("football", 5 / 2)] listed stored.provider.cache
                (stored.fetchLast footballSqlite true listed)
              ↔ listed = [] := by
  refine ⟨rejects_football, ?_⟩
  intro listed only
  refine (fetchLast_agrees_iff footballSqlite "lines" [] ["football"] [("football", 5 / 2)]
    listed).2 ?_
  intro sport member
  exact only sport member ▸ rejects_football

/-- Even where SQLite creates every table, a sport that was polled has an entry whose score
was never written.
-/
theorem fetchLast_disagrees_football
    : ¬ ∀ (Db : Type) (sqlite : Sqlite Db) (base : String) (db : Db) (sports : List String)
          (polls : List (String × Rat)) (listed : List String),
          (∀ sport ∈ sports, ∀ db, (Connection.addLine sqlite db sport).1 = .success)
          → let stored :=
              (StoredProvider.construct sqlite true base sports db).polled sqlite true polls
            Agrees polls listed stored.provider.cache
              (stored.fetchLast sqlite true listed) := by
  intro all
  have agrees := all (List String) footballSqlite "lines" [] ["football"] [("football", 5 / 2)]
    ["football"] (by simp [Connection.addLine, Connection.execute, sqlite3Exec, footballSqlite,
      Execution.drive, Connection.retrieveError])
  have fetched := (agrees.latest "football" (by simp) (5 / 2) (by simp [latestPoll])).1
  rw [lookup_fetchLast] at fetched
  simp at fetched

end RVision.Lines.Provider
