import Mathlib.Data.List.Nodup
import RVision.Lines.Db.Statements

/-! The tables and indexes that `connection::add_line` makes. Its text creates a table and an
index on the score, both `IF NOT EXISTS`; the table has the name of the line, the index has the
same name for every line. What SQLite does with such a text stands outside, as hypotheses on
its catalogue.
-/

namespace RVision.Lines.Db

structure Index where
  name : String
  table : String
  column : String
deriving DecidableEq, Repr

/-- The objects of a database, in the order they were created. -/
structure Catalogue where
  tables : List String := []
  indexes : List Index := []
deriving DecidableEq, Repr

/-- SQLite compares names without regard to case. -/
def fold (name : String) : List Char := name.toList.map Char.toLower

namespace Catalogue

def HasTable (catalogue : Catalogue) (name : String) : Prop :=
  fold name ∈ catalogue.tables.map fold

def HasIndex (catalogue : Catalogue) (name : String) : Prop :=
  fold name ∈ catalogue.indexes.map (fun index => fold index.name)

/-- The table has an index on the column. -/
def Indexes (catalogue : Catalogue) (table column : String) : Prop :=
  ∃ index ∈ catalogue.indexes, fold index.table = fold table ∧ index.column = column

instance (catalogue : Catalogue) (name : String) : Decidable (catalogue.HasTable name) :=
  inferInstanceAs (Decidable (fold name ∈ catalogue.tables.map fold))

instance (catalogue : Catalogue) (name : String) : Decidable (catalogue.HasIndex name) :=
  inferInstanceAs (Decidable (fold name ∈ catalogue.indexes.map (fun index => fold index.name)))

def addTable (catalogue : Catalogue) (name : String) : Catalogue :=
  { catalogue with tables := catalogue.tables ++ [name] }

def addIndex (catalogue : Catalogue) (index : Index) : Catalogue :=
  { catalogue with indexes := catalogue.indexes ++ [index] }

@[simp]
theorem hasTable_addTable (catalogue : Catalogue) (new name : String)
    : (catalogue.addTable new).HasTable name
      ↔ catalogue.HasTable name ∨ fold name = fold new := by
  simp [HasTable, addTable]

@[simp]
theorem hasTable_addIndex (catalogue : Catalogue) (index : Index) (name : String)
    : (catalogue.addIndex index).HasTable name ↔ catalogue.HasTable name :=
  Iff.rfl

@[simp]
theorem hasIndex_addTable (catalogue : Catalogue) (new name : String)
    : (catalogue.addTable new).HasIndex name ↔ catalogue.HasIndex name :=
  Iff.rfl

/-- With the table of one line, the lines behind it are still new. -/
theorem fresh_rest {before after : Catalogue} {line : String} {rest : List String}
    (tables : ∀ name, after.HasTable name ↔ before.HasTable name ∨ fold name = fold line)
    (distinct : ((line :: rest).map fold).Nodup)
    (fresh : ∀ next ∈ line :: rest, ¬ before.HasTable next)
    : ∀ next ∈ rest, ¬ after.HasTable next := by
  intro next member
  have unlike : fold next ≠ fold line := by
    intro same
    exact (List.nodup_cons.mp distinct).1 (same ▸ List.mem_map_of_mem member)
  have missing := fresh next (List.mem_cons_of_mem _ member)
  simp [tables, missing, unlike]

end Catalogue

namespace Connection

def createTableSql (line : String) : String :=
  "CREATE TABLE IF NOT EXISTS " ++ line
    ++ " (id int AUTO_INCREMENT, score REAL, PRIMARY KEY (id)); "

def createIndexSql (line : String) : String :=
  "CREATE INDEX IF NOT EXISTS score_index ON " ++ line ++ " (score ASC);"

theorem addLineSql_eq (line : String)
    : addLineSql line = createTableSql line ++ createIndexSql line := by
  have regroup (create columns index score : String)
      : create ++ line ++ columns ++ index ++ line ++ score
        = create ++ line ++ columns ++ (index ++ line ++ score) := by
    simp only [String.append_assoc]
  exact regroup _ _ _ _

/-- Calls of `add_line` one after the other: what they return and the database they leave. -/
def addLines {Db : Type} (sqlite : Sqlite Db) : Db → List String → List Errc × Db
  | db, [] => ([], db)
  | db, line :: rest =>
      let (errc, db) := addLine sqlite db line
      let (errcs, db) := addLines sqlite db rest
      (errc :: errcs, db)

end Connection

/-- The name that every line gives to its index. -/
def scoreIndex : String := "score_index"

/-- What SQLite documents about the two statements, for the names that it takes for tables. -/
structure CreatesIfMissing {Db : Type} (sqlite : Sqlite Db) (catalogue : Db → Catalogue)
    (valid : String → Prop) : Prop where
  /-- `sqlite3_exec` goes on with the next statement, -/
  next {db after : Db} {line : String} (known : valid line)
    (ended : sqlite db (Connection.createTableSql line) = .ended .ok after)
    : sqlite db (Connection.createTableSql line ++ Connection.createIndexSql line)
      = sqlite after (Connection.createIndexSql line)
  /-- but not after an error. -/
  stop {db after : Db} {line : String} {code : Nat} (known : valid line)
    (ended : sqlite db (Connection.createTableSql line) = .ended (.error code) after)
    : sqlite db (Connection.createTableSql line ++ Connection.createIndexSql line)
      = .ended (.error code) after
  tableExists {db : Db} {line : String} (known : valid line)
    (there : (catalogue db).HasTable line)
    : sqlite db (Connection.createTableSql line) = .ended .ok db
  /-- A table cannot have the name of an index. -/
  tableBlocked {db : Db} {line : String} (known : valid line)
    (missing : ¬ (catalogue db).HasTable line) (taken : (catalogue db).HasIndex line)
    : ∃ code, sqlite db (Connection.createTableSql line) = .ended (.error code) db
  tableNew {db : Db} {line : String} (known : valid line)
    (missing : ¬ (catalogue db).HasTable line) (free : ¬ (catalogue db).HasIndex line)
    : ∃ after,
        sqlite db (Connection.createTableSql line) = .ended .ok after
        ∧ catalogue after = (catalogue db).addTable line
  /-- An index cannot have the name of a table. -/
  indexBlocked {db : Db} {line : String} (known : valid line)
    (taken : (catalogue db).HasTable scoreIndex)
    : ∃ code, sqlite db (Connection.createIndexSql line) = .ended (.error code) db
  indexExists {db : Db} {line : String} (known : valid line)
    (free : ¬ (catalogue db).HasTable scoreIndex) (there : (catalogue db).HasIndex scoreIndex)
    (table : (catalogue db).HasTable line)
    : sqlite db (Connection.createIndexSql line) = .ended .ok db
  indexNew {db : Db} {line : String} (known : valid line)
    (free : ¬ (catalogue db).HasTable scoreIndex)
    (missing : ¬ (catalogue db).HasIndex scoreIndex) (table : (catalogue db).HasTable line)
    : ∃ after,
        sqlite db (Connection.createIndexSql line) = .ended .ok after
        ∧ catalogue after = (catalogue db).addIndex ⟨scoreIndex, line, "score"⟩

section Statements

variable {Db : Type} {sqlite : Sqlite Db} {catalogue : Db → Catalogue} {valid : String → Prop}
  {db : Db} {line : String}

-----------------------------------------------------------------------------------------
-- One call
-----------------------------------------------------------------------------------------

theorem Connection.addLine_of_ended {result : ResultCode} {after : Db}
    (ended : sqlite db (createTableSql line ++ createIndexSql line) = .ended result after)
    : addLine sqlite db line = (retrieveError result, after) := by
  rw [← addLineSql_eq] at ended
  simp [addLine, execute, sqlite3Exec, ended, Execution.drive]

namespace CreatesIfMissing

/-- A line that has its table finds an index of the name and changes nothing. -/
theorem addLine_again (h : CreatesIfMissing sqlite catalogue valid) (known : valid line)
    (there : (catalogue db).HasTable line) (free : ¬ (catalogue db).HasTable scoreIndex)
    (taken : (catalogue db).HasIndex scoreIndex)
    : Connection.addLine sqlite db line = (.success, db) := by
  exact Connection.addLine_of_ended
    ((h.next known (h.tableExists known there)).trans (h.indexExists known free taken there))

/-- A new line gets its table; the index goes to the line that comes first. -/
theorem addLine_new (h : CreatesIfMissing sqlite catalogue valid) (known : valid line)
    (missing : ¬ (catalogue db).HasTable line) (unnamed : ¬ (catalogue db).HasIndex line)
    (free : ¬ (catalogue db).HasTable scoreIndex) (other : fold line ≠ fold scoreIndex)
    : ∃ after,
        Connection.addLine sqlite db line = (.success, after)
        ∧ catalogue after
          = (if (catalogue db).HasIndex scoreIndex then (catalogue db).addTable line
            else ((catalogue db).addTable line).addIndex ⟨scoreIndex, line, "score"⟩)
        ∧ ∀ name,
            (catalogue after).HasTable name
            ↔ (catalogue db).HasTable name ∨ fold name = fold line := by
  obtain ⟨between, made, tabled⟩ := h.tableNew known missing unnamed
  have still : ¬ (catalogue between).HasTable scoreIndex := by
    simp [tabled, free, Ne.symm other]
  have table : (catalogue between).HasTable line := by simp [tabled]
  by_cases taken : (catalogue db).HasIndex scoreIndex
  · have same : (catalogue between).HasIndex scoreIndex := by simp [tabled, taken]
    refine ⟨between, ?_, by rw [if_pos taken, tabled], by simp [tabled]⟩
    exact Connection.addLine_of_ended
      ((h.next known made).trans (h.indexExists known still same table))
  · have unindexed : ¬ (catalogue between).HasIndex scoreIndex := by simp [tabled, taken]
    obtain ⟨after, indexed, both⟩ := h.indexNew known still unindexed table
    refine ⟨after, ?_, by rw [if_neg taken, both, tabled], by simp [both, tabled]⟩
    exact Connection.addLine_of_ended ((h.next known made).trans indexed)

/-- A line with the name of the index cannot have both. -/
theorem addLine_clash (h : CreatesIfMissing sqlite catalogue valid) (known : valid line)
    (missing : ¬ (catalogue db).HasTable line) (same : fold line = fold scoreIndex)
    : (Connection.addLine sqlite db line).1 ≠ .success := by
  by_cases taken : (catalogue db).HasIndex line
  · obtain ⟨code, blocked⟩ := h.tableBlocked known missing taken
    rw [Connection.addLine_of_ended (h.stop known blocked)]
    simp [Connection.retrieveError]
  · obtain ⟨between, made, tabled⟩ := h.tableNew known missing taken
    have occupied : (catalogue between).HasTable scoreIndex := by simp [tabled, same]
    obtain ⟨code, blocked⟩ := h.indexBlocked known occupied
    rw [Connection.addLine_of_ended ((h.next known made).trans blocked)]
    simp [Connection.retrieveError]

-----------------------------------------------------------------------------------------
-- All calls
-----------------------------------------------------------------------------------------

/-- Lines that are new and have an index of the name to find: they all succeed, and get no
index. By induction on the lines.
-/
theorem addLines_later (h : CreatesIfMissing sqlite catalogue valid) {first : String}
    {lines : List String} (known : ∀ line ∈ lines, valid line)
    (distinct : (lines.map fold).Nodup)
    (fresh : ∀ line ∈ lines, ¬ (catalogue db).HasTable line)
    (free : ¬ (catalogue db).HasTable scoreIndex)
    (single : (catalogue db).indexes = [⟨scoreIndex, first, "score"⟩])
    (other : ∀ line ∈ lines, fold line ≠ fold scoreIndex)
    : (∀ errc ∈ (Connection.addLines sqlite db lines).1, errc = .success)
      ∧ catalogue (Connection.addLines sqlite db lines).2
        = { tables := (catalogue db).tables ++ lines
            indexes := [⟨scoreIndex, first, "score"⟩] } := by
  induction lines generalizing db with
  | nil =>
      refine ⟨by simp [Connection.addLines], ?_⟩
      rw [List.append_nil, ← single]
      rfl
  | cons line rest ih =>
      have different := other line List.mem_cons_self
      have unnamed : ¬ (catalogue db).HasIndex line := by
        simpa [Catalogue.HasIndex, single] using different
      have taken : (catalogue db).HasIndex scoreIndex := by simp [Catalogue.HasIndex, single]
      obtain ⟨after, made, left, tables⟩ := h.addLine_new (known line List.mem_cons_self)
        (fresh line List.mem_cons_self) unnamed free different
      rw [if_pos taken] at left
      have freshAfter := Catalogue.fresh_rest tables distinct fresh
      have freeAfter : ¬ (catalogue after).HasTable scoreIndex := by
        simp [tables, free, Ne.symm different]
      obtain ⟨succeed, ends⟩ := ih (fun next member => known next (List.mem_cons_of_mem _ member))
        (List.nodup_cons.mp distinct).2 freshAfter freeAfter (by rw [left]; exact single)
        (fun next member => other next (List.mem_cons_of_mem _ member))
      refine ⟨?_, ?_⟩
      · simpa [Connection.addLines, made] using succeed
      · simp only [Connection.addLines, made]
        rw [ends, left]
        simp [Catalogue.addTable]

/-- Among new lines, one with the name of the index fails, or an earlier one does. -/
theorem addLines_clash (h : CreatesIfMissing sqlite catalogue valid) {lines : List String}
    (known : ∀ line ∈ lines, valid line) (distinct : (lines.map fold).Nodup)
    (fresh : ∀ line ∈ lines, ¬ (catalogue db).HasTable line)
    (free : ¬ (catalogue db).HasTable scoreIndex)
    (clash : ∃ line ∈ lines, fold line = fold scoreIndex)
    : ∃ errc ∈ (Connection.addLines sqlite db lines).1, errc ≠ .success := by
  induction lines generalizing db with
  | nil => simp at clash
  | cons line rest ih =>
      have valid := known line List.mem_cons_self
      have new := fresh line List.mem_cons_self
      by_cases failed : (Connection.addLine sqlite db line).1 = .success
      · -- So `line` is not the one, and has got its table.
        have different : fold line ≠ fold scoreIndex := fun same =>
          h.addLine_clash valid new same failed
        have unnamed : ¬ (catalogue db).HasIndex line := by
          intro taken
          obtain ⟨code, blocked⟩ := h.tableBlocked valid new taken
          rw [Connection.addLine_of_ended (h.stop valid blocked)] at failed
          cases failed
        obtain ⟨after, made, -, tables⟩ := h.addLine_new valid new unnamed free different
        have freshAfter := Catalogue.fresh_rest tables distinct fresh
        have freeAfter : ¬ (catalogue after).HasTable scoreIndex := by
          simp [tables, free, Ne.symm different]
        obtain ⟨errc, member, wrong⟩ := ih
          (fun next member => known next (List.mem_cons_of_mem _ member))
          (List.nodup_cons.mp distinct).2 freshAfter freeAfter (by simpa [different] using clash)
        exact ⟨errc, by simp [Connection.addLines, made, member], wrong⟩
      · exact ⟨_, by simp [Connection.addLines], failed⟩

end CreatesIfMissing

/-- The line has its table and an index on its score, and another call changes nothing. -/
structure Indexed (sqlite : Sqlite Db) (catalogue : Db → Catalogue) (db : Db) (line : String)
    : Prop where
  table : (catalogue db).HasTable line
  index : (catalogue db).Indexes line "score"
  again : Connection.addLine sqlite db line = (.success, db)

/-- That is so for every line once all calls have succeeded. -/
def ScoresIndexed (sqlite : Sqlite Db) (catalogue : Db → Catalogue) (db : Db)
    (lines : List String)
    : Prop :=
  (∀ errc ∈ (Connection.addLines sqlite db lines).1, errc = .success)
  → ∀ line ∈ lines, Indexed sqlite catalogue (Connection.addLines sqlite db lines).2 line

/-- What is left of the calls when no line has the name of the index: the table of every line,
and the index of the first.
-/
theorem CreatesIfMissing.addLines_empty (h : CreatesIfMissing sqlite catalogue valid)
    {first : String} {rest : List String} (known : ∀ line ∈ first :: rest, valid line)
    (distinct : ((first :: rest).map fold).Nodup) (empty : catalogue db = {})
    (other : ∀ line ∈ first :: rest, fold line ≠ fold scoreIndex)
    : (∀ errc ∈ (Connection.addLines sqlite db (first :: rest)).1, errc = .success)
      ∧ catalogue (Connection.addLines sqlite db (first :: rest)).2
        = { tables := first :: rest
            indexes := [⟨scoreIndex, first, "score"⟩] } := by
  have different := other first List.mem_cons_self
  have missing (name : String) : ¬ (catalogue db).HasTable name := by
    simp [empty, Catalogue.HasTable]
  have unindexed (name : String) : ¬ (catalogue db).HasIndex name := by
    simp [empty, Catalogue.HasIndex]
  obtain ⟨after, made, left, tables⟩ := h.addLine_new (known first List.mem_cons_self)
    (missing first) (unindexed first) (missing scoreIndex) different
  rw [if_neg (unindexed scoreIndex)] at left
  have freshAfter := Catalogue.fresh_rest tables distinct (fun next _ => missing next)
  have freeAfter : ¬ (catalogue after).HasTable scoreIndex := by
    simp [tables, missing, Ne.symm different]
  obtain ⟨succeed, ends⟩ := h.addLines_later
    (fun next member => known next (List.mem_cons_of_mem _ member))
    (List.nodup_cons.mp distinct).2 freshAfter freeAfter
    (by rw [left, empty]; rfl)
    (fun next member => other next (List.mem_cons_of_mem _ member))
  refine ⟨?_, ?_⟩
  · simpa [Connection.addLines, made] using succeed
  · simp only [Connection.addLines, made]
    rw [ends, left, empty]
    rfl

section Single

variable {first line : String}

/-- The only index is that of the first line. -/
theorem Catalogue.indexes_iff_of_single {catalogue : Catalogue}
    (single : catalogue.indexes = [⟨scoreIndex, first, "score"⟩])
    : catalogue.Indexes line "score" ↔ fold first = fold line := by
  simp [Indexes, single]

/-- The line of the only index has all it needs. -/
theorem CreatesIfMissing.indexed_of_single (h : CreatesIfMissing sqlite catalogue valid)
    (known : valid line) (other : fold line ≠ fold scoreIndex)
    (ends : catalogue db = { tables := [line], indexes := [⟨scoreIndex, line, "score"⟩] })
    : Indexed sqlite catalogue db line := by
  have table : (catalogue db).HasTable line := by simp [ends, Catalogue.HasTable]
  have free : ¬ (catalogue db).HasTable scoreIndex := by
    simpa [ends, Catalogue.HasTable] using Ne.symm other
  have taken : (catalogue db).HasIndex scoreIndex := by simp [ends, Catalogue.HasIndex]
  refine ⟨table, ?_, h.addLine_again known table free taken⟩
  exact (Catalogue.indexes_iff_of_single (by rw [ends])).mpr rfl

end Single

/-- Every line has its score index exactly where there is at most one line, or one with the name
of the index, for which a call fails. From the second line on the index is already there: it
belongs to the first.
-/
theorem scoresIndexed_iff (h : CreatesIfMissing sqlite catalogue valid) {lines : List String}
    (known : ∀ line ∈ lines, valid line) (distinct : (lines.map fold).Nodup)
    (empty : catalogue db = {})
    : ScoresIndexed sqlite catalogue db lines
      ↔ lines.length ≤ 1 ∨ ∃ line ∈ lines, fold line = fold scoreIndex := by
  have missing (name : String) : ¬ (catalogue db).HasTable name := by
    simp [empty, Catalogue.HasTable]
  by_cases clash : ∃ line ∈ lines, fold line = fold scoreIndex
  · refine iff_of_true ?_ (Or.inr clash)
    intro succeed
    obtain ⟨errc, member, wrong⟩ :=
      h.addLines_clash known distinct (fun line _ => missing line) (missing scoreIndex) clash
    exact absurd (succeed errc member) wrong
  · have other : ∀ line ∈ lines, fold line ≠ fold scoreIndex := by simpa using clash
    rw [or_iff_left clash]
    cases lines with
    | nil => simp [ScoresIndexed, Connection.addLines]
    | cons first rest =>
        obtain ⟨succeed, ends⟩ := h.addLines_empty known distinct empty other
        unfold ScoresIndexed
        generalize Connection.addLines sqlite db (first :: rest) = all at succeed ends ⊢
        constructor
        · intro indexed
          cases rest with
          | nil => simp
          | cons second rest =>
              have same : fold first = fold second :=
                (Catalogue.indexes_iff_of_single (by rw [ends])).mp
                  (indexed succeed second (by simp)).index
              exact absurd (List.mem_map_of_mem List.mem_cons_self)
                (same ▸ (List.nodup_cons.mp distinct).1)
        · intro one _ line member
          have none : rest = [] := by simpa using one
          subst none
          obtain rfl := List.mem_singleton.mp member
          exact h.indexed_of_single (known line member) (other line member) ends

end Statements

-----------------------------------------------------------------------------------------
-- A SQLite that knows three names
-----------------------------------------------------------------------------------------

inductive Statement
  | createTable (line : String)
  | createIndex (line : String)
  | both (line : String)
deriving DecidableEq, Repr

def knownNames : List String := ["soccer", "football", "score_index"]

def parse (sql : String) : Option Statement :=
  (knownNames.flatMap fun line =>
    [(Connection.createTableSql line, Statement.createTable line),
      (Connection.createIndexSql line, .createIndex line),
      (Connection.createTableSql line ++ Connection.createIndexSql line, .both line)]).lookup sql

namespace Catalogue

def createTable (catalogue : Catalogue) (line : String) : Execution Catalogue :=
  if catalogue.HasTable line then .ended .ok catalogue
  else if catalogue.HasIndex line then .ended (.error 1) catalogue
  else .ended .ok (catalogue.addTable line)

def createIndex (catalogue : Catalogue) (line : String) : Execution Catalogue :=
  if ¬ catalogue.HasTable line then .ended (.error 1) catalogue
  else if catalogue.HasTable scoreIndex then .ended (.error 1) catalogue
  else if catalogue.HasIndex scoreIndex then .ended .ok catalogue
  else .ended .ok (catalogue.addIndex ⟨scoreIndex, line, "score"⟩)

end Catalogue

def knownSqlite : Sqlite Catalogue := fun catalogue sql =>
  match parse sql with
  | some (.createTable line) => catalogue.createTable line
  | some (.createIndex line) => catalogue.createIndex line
  | some (.both line) =>
      match catalogue.createTable line with
      | .ended .ok after => after.createIndex line
      | failed => failed
  | none => .ended (.error 1) catalogue

theorem parse_knownNames
    : ∀ line ∈ knownNames,
        parse (Connection.createTableSql line) = some (.createTable line)
        ∧ parse (Connection.createIndexSql line) = some (.createIndex line)
        ∧ parse (Connection.createTableSql line ++ Connection.createIndexSql line)
          = some (.both line) := by
  decide

theorem knownSqlite_creates : CreatesIfMissing knownSqlite id (· ∈ knownNames) where
  next known ended := by
    obtain ⟨table, index, both⟩ := parse_knownNames _ known
    simp_all [knownSqlite]
  stop known ended := by
    obtain ⟨table, index, both⟩ := parse_knownNames _ known
    simp_all [knownSqlite]
  tableExists known there := by
    simp_all [knownSqlite, parse_knownNames _ known, Catalogue.createTable]
  tableBlocked known missing taken := by
    simp_all [knownSqlite, parse_knownNames _ known, Catalogue.createTable]
  tableNew known missing free := by
    simp_all [knownSqlite, parse_knownNames _ known, Catalogue.createTable]
  indexBlocked known taken := by
    refine ⟨1, ?_⟩
    simp_all [knownSqlite, parse_knownNames _ known, Catalogue.createIndex]
  indexExists known free there table := by
    simp_all [knownSqlite, parse_knownNames _ known, Catalogue.createIndex]
  indexNew known free missing table := by
    simp_all [knownSqlite, parse_knownNames _ known, Catalogue.createIndex]

/-- A line alone gets its index and two lines do not; the name of the index fails. -/
theorem scoresIndexed_iff_knownNames
    : ScoresIndexed knownSqlite id {} ["soccer"]
      ∧ ¬ ScoresIndexed knownSqlite id {} ["football", "soccer"]
      ∧ ScoresIndexed knownSqlite id {} ["football", "soccer", "score_index"] := by
  have indexed {lines : List String} (known : ∀ line ∈ lines, line ∈ knownNames)
      (distinct : (lines.map fold).Nodup)
      : ScoresIndexed knownSqlite id {} lines
        ↔ lines.length ≤ 1 ∨ ∃ line ∈ lines, fold line = fold scoreIndex :=
    scoresIndexed_iff knownSqlite_creates known distinct rfl
  rw [indexed (by decide) (by decide), indexed (by decide) (by decide),
    indexed (by decide) (by decide)]
  decide

/-- Football gets no index: the name is taken by the index of soccer. -/
theorem not_scoresIndexed_football : ¬ ScoresIndexed knownSqlite id {} ["soccer", "football"] := by
  intro indexed
  have known : ∀ line ∈ ["soccer", "football"], line ∈ knownNames := by decide
  obtain ⟨succeed, ends⟩ := knownSqlite_creates.addLines_empty known (by decide) rfl (by decide)
  have same : fold "soccer" = fold "football" :=
    (Catalogue.indexes_iff_of_single (by rw [ends])).mp
      (indexed succeed "football" (by decide)).index
  exact absurd same (by decide)

end RVision.Lines.Db
