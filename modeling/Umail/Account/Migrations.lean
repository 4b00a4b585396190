import Umail.Framework.Table
import Umail.Contract.Text

/-! # Schema migrations

  `account/migrations.ts` and the schema half of `account/commands.ts` of
  `apps/server/src`. The database is the table `schema_migrations` and
  everything else in it; what SQLite does with a statement of a migration is
  a parameter (`exec`), which may change both, may fail, and may leave a half
  written database behind when it fails. Only `transactionSync` rolls back.

  * `Applied` is what it means that a list of migrations was applied in
    order, each one once and each one recorded.
  * `applyAccountSchema_ok_iff`: the call succeeds exactly on a compatible
    database from which `Applied` leads on.
-/

namespace Umail

open Relational

/-! ## The source -/

structure AccountMigration where
  version : Int
  name : String
  sql : String
  deriving DecidableEq

/-- `sql.split(";")`, trimmed, without the empty parts. -/
def sqlStatements (sql : String) : List String :=
  ((sql.toList.splitOn ';').map trim).filterMap fun statement =>
    if statement.isEmpty then none else some (String.ofList statement)

/-- A row of the table `schema_migrations`. -/
structure SchemaMigrationRecord where
  version : Int
  name : String
  applied_at : String
  deriving DecidableEq

/-- `version INTEGER PRIMARY KEY`, `name TEXT NOT NULL UNIQUE` -/
instance : Keyed SchemaMigrationRecord (Int × String) where
  key r := (r.version, r.name)
  clash a b := a.1 = b.1 ∨ a.2 = b.2
  symm h := h.imp Eq.symm Eq.symm
  decClash _ _ := inferInstanceAs (Decidable (_ ∨ _))

structure SchemaMigrationRow where
  version : Int
  name : String

structure AccountDatabase (δ : Type) where
  /-- Every other table, with its rows, and every index. -/
  contents : δ
  /-- `none` before the table is created. -/
  schema_migrations : Option (Table SchemaMigrationRecord)

/-- What SQLite throws. -/
inductive SqlError where
  | noSuchTable
  | uniqueConstraint
  | statement (message : String)

inductive SchemaError where
  | sql (cause : SqlError)
  | schemaIncompatible (schemaVersion : Int) (supportedVersion : Option Int)
  | schemaMigration (version : Int) (migration : String) (cause : SqlError)

/-- A piece of code that reads and writes the database. When it throws, the
    database is what it has written so far. -/
abbrev Sql (ε δ α : Type) := EStateM ε (AccountDatabase δ) α

section source

variable {ε δ α : Type}

/-- A closure that throws is rolled back. -/
def transactionSync (closure : Sql ε δ α) : Sql ε δ α := fun db =>
  match closure db with
  | .ok a db' => .ok a db'
  | .error e _ => .error e db

/-- `CREATE TABLE IF NOT EXISTS schema_migrations` -/
def createSchemaMigrations : Sql SqlError δ Unit := fun db =>
  .ok () { db with schema_migrations := some (db.schema_migrations.getD .empty) }

def readAppliedMigrations : Sql SqlError δ (List SchemaMigrationRow) := fun db =>
  match db.schema_migrations with
  | none => .error .noSuchTable db
  | some table =>
    let rows := table.rows.insertionSort fun a b => a.version ≤ b.version
    .ok (rows.map fun row => { version := row.version, name := row.name }) db

/-- The map keeps the last migration of a version. -/
def knownByVersion (migrations : List AccountMigration) (version : Int) :
    Option AccountMigration :=
  migrations.reverse.find? (·.version = version)

/-- `Math.max(...)`; `none` is `-Infinity`, the maximum of nothing. -/
def supportedVersion (migrations : List AccountMigration) : Option Int :=
  (migrations.map (·.version)).max?

/-- `version > supported` -/
def exceeds (version : Int) (supported : Option Int) : Bool := supported.all (· < version)

def assertCompatibleSchema :
    List SchemaMigrationRow → List AccountMigration → Except SchemaError Unit
  | [], _ => .ok ()
  | row :: rest, migrations =>
    match knownByVersion migrations row.version with
    | none => .error (.schemaIncompatible row.version (supportedVersion migrations))
    | some known =>
      if known.name ≠ row.name || exceeds row.version (supportedVersion migrations) then
        .error (.schemaIncompatible row.version (supportedVersion migrations))
      else assertCompatibleSchema rest migrations

def pendingMigrations (applied : List SchemaMigrationRow) (migrations : List AccountMigration) :
    List AccountMigration :=
  migrations.filter fun migration => migration.version ∉ applied.map (·.version)

/-- `INSERT INTO schema_migrations (version, name, applied_at) VALUES (?, ?, ?)` -/
def insertSchemaMigration (record : SchemaMigrationRecord) : Sql SqlError δ Unit := fun db =>
  match db.schema_migrations with
  | none => .error .noSuchTable db
  | some table =>
    match table.insert? record with
    | none => .error .uniqueConstraint db
    | some table => .ok () { db with schema_migrations := some table }

variable (exec : String → Sql SqlError δ Unit)

/-- Executes statements one after the other. -/
def execAll : List String → Sql SqlError δ Unit
  | [] => pure ()
  | statement :: rest => do
    exec statement
    execAll rest

def AccountMigration.record (migration : AccountMigration) (nowIso : String) :
    SchemaMigrationRecord :=
  { version := migration.version, name := migration.name, applied_at := nowIso }

def applyMigration (migration : AccountMigration) (nowIso : String) : Sql SchemaError δ Unit :=
  EStateM.adaptExcept (.schemaMigration migration.version migration.name) do
    execAll exec (sqlStatements migration.sql)
    insertSchemaMigration (migration.record nowIso)

def applyMigrations (nowIso : String) : List AccountMigration → Sql SchemaError δ Unit
  | [] => pure ()
  | migration :: rest => do
    applyMigration exec migration nowIso
    applyMigrations nowIso rest

def applyAccountSchema (nowIso : String) (migrations : List AccountMigration) :
    Sql SchemaError δ Unit :=
  transactionSync do
    EStateM.adaptExcept .sql createSchemaMigrations
    let applied ← EStateM.adaptExcept .sql readAppliedMigrations
    match assertCompatibleSchema applied migrations with
    | .error e => throw e
    | .ok () => applyMigrations exec nowIso (pendingMigrations applied migrations)

end source

/-! ## What a call is for -/

section meaning

variable {δ : Type} (db : AccountDatabase δ) (migrations : List AccountMigration)

/-- The recorded migrations, in the order in which they were recorded. -/
def AccountDatabase.records : List SchemaMigrationRecord :=
  (db.schema_migrations.getD .empty).rows

def AccountDatabase.Recorded (version : Int) (name : String) : Prop :=
  ∃ r ∈ db.records, r.version = version ∧ r.name = name

instance (version : Int) (name : String) : Decidable (db.Recorded version name) :=
  inferInstanceAs (Decidable (∃ r ∈ db.records, _))

/-- Every recorded migration is known under its name. -/
def AccountDatabase.Compatible : Prop :=
  ∀ r ∈ db.records, ∃ m ∈ migrations, m.version = r.version ∧ m.name = r.name

/-- The known migrations that are not recorded, in the order of the list. -/
def AccountDatabase.missing : List AccountMigration :=
  migrations.filter fun m => ¬ db.Recorded m.version m.name

/-- The database with a table for the records. -/
def AccountDatabase.prepared : AccountDatabase δ :=
  { db with schema_migrations := some (db.schema_migrations.getD .empty) }

/-- `after` is what `before` becomes when the migrations of the list are applied
    in order: each one runs its statements, all of them succeed, and then it
    is recorded. -/
inductive Applied (exec : String → Sql SqlError δ Unit) (nowIso : String) :
    List AccountMigration → AccountDatabase δ → AccountDatabase δ → Prop
  | nil {before} : Applied exec nowIso [] before before
  | cons {m rest before written recorded after} :
    execAll exec (sqlStatements m.sql) before = .ok () written →
    insertSchemaMigration (m.record nowIso) written = .ok () recorded →
    Applied exec nowIso rest recorded after →
    Applied exec nowIso (m :: rest) before after

/-- No statement of the migrations touches the records. -/
def KeepsRecords (exec : String → Sql SqlError δ Unit) : Prop :=
  ∀ m ∈ migrations, ∀ statement ∈ sqlStatements m.sql, ∀ db db',
    exec statement db = .ok () db' → db'.schema_migrations = db.schema_migrations

end meaning

/-! ## Code that throws -/

section throwing

variable {ε ε' δ α β : Type} {db db' : AccountDatabase δ}

theorem sql_bind_ok {x : Sql ε δ α} {f : α → Sql ε δ β} {b : β} :
    (x >>= f) db = .ok b db' ↔ ∃ a mid, x db = .ok a mid ∧ f a mid = .ok b db' := by
  show EStateM.bind x f db = _ ↔ _
  unfold EStateM.bind
  cases hx : x db with
  | ok a mid => simp
  | error e mid => simp

theorem sql_bind_of_ok {x : Sql ε δ α} {f : α → Sql ε δ β} {a : α}
    (h : x db = .ok a db') :
    (x >>= f) db = f a db' := by
  show EStateM.bind x f db = _
  unfold EStateM.bind
  rw [h]

@[simp] theorem sql_pure_ok {a b : α} :
    (pure a : Sql ε δ α) db = .ok b db' ↔ a = b ∧ db = db' := by
  show EStateM.Result.ok a db = _ ↔ _
  rw [EStateM.Result.ok.injEq]

@[simp] theorem sql_adapt_ok {f : ε → ε'} {x : Sql ε δ α} {a : α} :
    EStateM.adaptExcept f x db = .ok a db' ↔ x db = .ok a db' := by
  unfold EStateM.adaptExcept
  cases x db <;> simp

theorem transactionSync_ok {x : Sql ε δ α} {a : α} :
    transactionSync x db = .ok a db' ↔ x db = .ok a db' := by
  unfold transactionSync
  cases x db <;> simp

/-- **All or nothing**: a transaction that does not succeed leaves everything
    as it was. -/
theorem transactionSync_cases (x : Sql ε δ α) (db : AccountDatabase δ) :
    (∃ a db', transactionSync x db = .ok a db') ∨ ∃ e, transactionSync x db =
      .error e db := by
  unfold transactionSync
  cases x db with
  | ok a db' => exact .inl ⟨a, db', rfl⟩
  | error e db' => exact .inr ⟨e, rfl⟩

end throwing

/-! ## Compatibility -/

section compatibility

variable {δ : Type} {db : AccountDatabase δ} {migrations : List AccountMigration}

theorem knownByVersion_eq_some (hversions : (migrations.map (·.version)).Nodup)
    {version : Int} {m : AccountMigration} :
    knownByVersion migrations version = some m ↔ m ∈ migrations ∧ m.version = version := by
  constructor
  · intro h
    have hmem := List.mem_of_find?_eq_some h
    have hversion := List.find?_some h
    exact ⟨List.mem_reverse.mp hmem, of_decide_eq_true hversion⟩
  · rintro ⟨hm, rfl⟩
    unfold knownByVersion
    cases hfind : migrations.reverse.find? fun n => n.version = m.version with
    | none =>
      have hnone := List.find?_eq_none.mp hfind m (List.mem_reverse.mpr hm)
      exact absurd (decide_eq_true rfl) hnone
    | some n =>
      have hn := List.mem_reverse.mp (List.mem_of_find?_eq_some hfind)
      have hfound := List.find?_some hfind
      have hversion : n.version = m.version := of_decide_eq_true hfound
      rw [List.inj_on_of_nodup_map hversions hn hm hversion]

theorem not_exceeds_supportedVersion {m : AccountMigration} (hm : m ∈ migrations) :
    exceeds m.version (supportedVersion migrations) = false := by
  unfold exceeds
  cases hmax : supportedVersion migrations with
  | none =>
    rw [supportedVersion, List.max?_eq_none_iff, List.map_eq_nil_iff] at hmax
    rw [hmax] at hm
    exact absurd hm List.not_mem_nil
  | some newest =>
    have hle := (List.max?_eq_some_iff.mp hmax).2 m.version (List.mem_map.mpr ⟨m, hm, rfl⟩)
    simpa using hle

theorem assertCompatibleSchema_ok (hversions : (migrations.map (·.version)).Nodup)
    {applied : List SchemaMigrationRow} :
    assertCompatibleSchema applied migrations = .ok () ↔
      ∀ row ∈ applied, ∃ m ∈ migrations, m.version = row.version ∧ m.name = row.name := by
  induction applied with
  | nil => simp [assertCompatibleSchema]
  | cons row rest ih =>
    rw [List.forall_mem_cons, ← ih, assertCompatibleSchema]
    cases hknown : knownByVersion migrations row.version with
    | none =>
      simp only [reduceCtorEq, false_iff, not_and]
      rintro ⟨m, hm, hversion, -⟩
      have hsome := (knownByVersion_eq_some hversions).mpr ⟨hm, hversion⟩
      exact absurd (hknown.symm.trans hsome) (by simp)
    | some known =>
      obtain ⟨hmem, hversion⟩ := (knownByVersion_eq_some hversions).mp hknown
      -- A known version is not newer than the newest one.
      have hle : exceeds row.version (supportedVersion migrations) = false :=
        hversion ▸ not_exceeds_supportedVersion hmem
      simp only [hle, Bool.or_false, decide_eq_true_eq]
      by_cases hname : known.name = row.name
      · rw [if_neg (not_not.mpr hname)]
        exact ⟨fun h => ⟨⟨known, hmem, hversion, hname⟩, h⟩, And.right⟩
      · rw [if_pos hname]
        simp only [reduceCtorEq, false_iff, not_and]
        intro ⟨m, hm, hmversion, hmname⟩
        have hm : m = known :=
          List.inj_on_of_nodup_map hversions hm hmem (hmversion.trans hversion.symm)
        exact absurd (hm ▸ hmname) hname

/-- Of a compatible database, the migrations whose version is not recorded
    are the missing ones. -/
theorem pendingMigrations_eq (hversions : (migrations.map (·.version)).Nodup)
    (h : db.Compatible migrations) {applied : List SchemaMigrationRow}
    (happlied : ∀ version, version ∈ applied.map (·.version) ↔
      version ∈ db.records.map (·.version)) :
    pendingMigrations applied migrations = db.missing migrations := by
  unfold pendingMigrations AccountDatabase.missing
  refine List.filter_congr fun m hm => ?_
  rw [decide_eq_decide, not_iff_not, happlied, List.mem_map]
  constructor
  · intro ⟨r, hr, hversion⟩
    obtain ⟨n, hn, hnversion, hnname⟩ := h r hr
    have hnm : n = m := List.inj_on_of_nodup_map hversions hn hm (hnversion.trans hversion)
    exact ⟨r, hr, hversion, (hnm ▸ hnname).symm⟩
  · rintro ⟨r, hr, hversion, -⟩
    exact ⟨r, hr, hversion⟩

end compatibility

/-! ## What a call does -/

section call

variable {δ : Type} {db after : AccountDatabase δ} {migrations : List AccountMigration}
  {exec : String → Sql SqlError δ Unit} {nowIso : String}

theorem applyMigrations_ok {ms : List AccountMigration} :
    applyMigrations exec nowIso ms db = .ok () after ↔ Applied exec nowIso ms db after := by
  induction ms generalizing db with
  | nil =>
    rw [applyMigrations, sql_pure_ok]
    constructor
    · rintro ⟨-, rfl⟩
      exact .nil
    · intro heq
      cases heq
      exact ⟨rfl, rfl⟩
  | cons m rest ih =>
    simp only [applyMigrations, applyMigration, sql_bind_ok, sql_adapt_ok, ih]
    constructor
    · intro ⟨_, recorded, ⟨_, written, hwritten, hrecorded⟩, hrest⟩
      exact .cons hwritten hrecorded hrest
    · rintro (_ | ⟨hwritten, hrecorded, hrest⟩)
      exact ⟨(), _, ⟨(), _, hwritten, hrecorded⟩, hrest⟩

theorem createSchemaMigrations_ok :
    (createSchemaMigrations : Sql SqlError δ Unit) db = .ok () db.prepared := rfl

/-- The rows that are read are the records, sorted. -/
theorem readAppliedMigrations_prepared (db : AccountDatabase δ) : ∃ applied,
    readAppliedMigrations db.prepared = .ok applied db.prepared ∧
      ∀ version name, ({ version, name } : SchemaMigrationRow) ∈ applied ↔
        db.Recorded version name := by
  refine ⟨_, rfl, fun version name => ?_⟩
  simp only [List.mem_map, List.mem_insertionSort, SchemaMigrationRow.mk.injEq]
  exact Iff.rfl

/-- The call succeeds exactly on a compatible database from which the missing
    migrations can be applied. -/
theorem applyAccountSchema_ok_iff (hversions : (migrations.map (·.version)).Nodup) :
    applyAccountSchema exec nowIso migrations db = .ok () after ↔
      db.Compatible migrations ∧
        Applied exec nowIso (db.missing migrations) db.prepared after := by
  obtain ⟨applied, hread, hrows⟩ := readAppliedMigrations_prepared db
  have hcompatible : assertCompatibleSchema applied migrations = .ok () ↔
      db.Compatible migrations := by
    rw [assertCompatibleSchema_ok hversions]
    constructor
    · intro h r hr
      exact h { version := r.version, name := r.name }
        ((hrows r.version r.name).mpr ⟨r, hr, rfl, rfl⟩)
    · intro h ⟨version, name⟩ hrow
      obtain ⟨r, hr, rfl, rfl⟩ := (hrows version name).mp hrow
      exact h r hr
  unfold applyAccountSchema
  rw [transactionSync_ok, sql_bind_of_ok (sql_adapt_ok.mpr createSchemaMigrations_ok),
    sql_bind_of_ok (sql_adapt_ok.mpr hread), ← hcompatible]
  cases hassert : assertCompatibleSchema applied migrations with
  | error e =>
    constructor
    · intro heq
      cases heq
    · -- an incompatible database: neither side holds
      rintro ⟨⟨⟩, -⟩
  | ok _ =>
    have hversion : ∀ version, version ∈ applied.map (·.version) ↔
        version ∈ db.records.map (·.version) := by
      intro version
      simp only [List.mem_map]
      constructor
      · rintro ⟨⟨v, name⟩, hrow, rfl⟩
        obtain ⟨r, hr, hv, -⟩ := (hrows v name).mp hrow
        exact ⟨r, hr, hv⟩
      · rintro ⟨r, hr, rfl⟩
        exact ⟨_, (hrows r.version r.name).mpr ⟨r, hr, rfl, rfl⟩, rfl⟩
    -- what the code still has to apply is what the database misses
    have hmissing := pendingMigrations_eq hversions (hcompatible.mp hassert) hversion
    show applyMigrations exec nowIso _ _ = _ ↔ _
    rw [hmissing, applyMigrations_ok]
    exact ⟨fun h => ⟨rfl, h⟩, And.right⟩

/-- A call that does not succeed is rolled back. -/
theorem applyAccountSchema_cases (exec : String → Sql SqlError δ Unit) (nowIso : String)
    (migrations : List AccountMigration) (db : AccountDatabase δ) :
    (∃ after, applyAccountSchema exec nowIso migrations db = .ok () after) ∨
      ∃ e, applyAccountSchema exec nowIso migrations db = .error e db :=
  (transactionSync_cases _ db).imp_left fun ⟨(), after, h⟩ => ⟨after, h⟩

/-- Statements that keep the records are followed by a database with the same
    records. -/
theorem execAll_keeps {statements : List String}
    (h : ∀ statement ∈ statements, ∀ db db',
      exec statement db = .ok () db' → db'.schema_migrations = db.schema_migrations)
    (hexec : execAll exec statements db = .ok () after) :
    after.schema_migrations = db.schema_migrations := by
  induction statements generalizing db with
  | nil =>
    obtain ⟨-, rfl⟩ := sql_pure_ok.mp hexec
    rfl
  | cons statement rest ih =>
    obtain ⟨_, mid, hfirst, hrest⟩ := sql_bind_ok.mp hexec
    exact (ih (fun s hs => h s (List.mem_cons_of_mem _ hs)) hrest).trans
      (h statement List.mem_cons_self _ _ hfirst)

theorem insertSchemaMigration_records {record : SchemaMigrationRecord}
    (h : insertSchemaMigration record db = .ok () after) :
    after.records = db.records ++ [record] := by
  unfold insertSchemaMigration at h
  cases htable : db.schema_migrations with
  | none => simp [htable] at h
  | some table =>
    cases hinsert : table.insert? record with
    | none => simp [htable, hinsert] at h
    | some table' =>
      simp only [htable, hinsert, EStateM.Result.ok.injEq, true_and] at h
      subst h
      simp only [AccountDatabase.records, htable, Option.getD_some]
      exact Table.insert?_rows hinsert

/-- Applying a list of migrations adds one record for each of them, in order. -/
theorem Applied.records_eq {ms : List AccountMigration} (h : Applied exec nowIso ms db after)
    (hkeeps : KeepsRecords ms exec) :
    after.records = db.records ++ ms.map (·.record nowIso) := by
  induction h with
  | nil => rw [List.map_nil, List.append_nil]
  | @cons m rest before written recorded after hexec hinsert _ ih =>
    have hwritten : written.records = before.records :=
      congrArg (fun table => (Option.getD table .empty).rows)
        (execAll_keeps (hkeeps m List.mem_cons_self) hexec)
    rw [ih fun n hn => hkeeps n (List.mem_cons_of_mem _ hn),
      insertSchemaMigration_records hinsert, hwritten, List.map_cons, List.append_assoc,
      List.singleton_append]

/-- The table of the records is there after the first record. -/
theorem Applied.prepared_eq {ms : List AccountMigration} (h : Applied exec nowIso ms db after)
    (hkeeps : KeepsRecords ms exec) (hdb : db.schema_migrations.isSome) :
    after.prepared = after := by
  have hsome : after.schema_migrations.isSome := by
    induction h with
    | nil => exact hdb
    | @cons m rest before written recorded after hexec hinsert _ ih =>
      apply ih (fun n hn => hkeeps n (List.mem_cons_of_mem _ hn))
      unfold insertSchemaMigration at hinsert
      split at hinsert
      · cases hinsert
      · split at hinsert
        · cases hinsert
        · cases hinsert
          rfl
  obtain ⟨table, htable⟩ := Option.isSome_iff_exists.mp hsome
  obtain ⟨contents, schema_migrations⟩ := after
  obtain rfl : schema_migrations = some table := htable
  rfl

/-- After a call that succeeded, exactly the known migrations are recorded. -/
theorem recorded_iff_known (hcompatible : db.Compatible migrations)
    (hrecords : after.records = db.records ++ (db.missing migrations).map (·.record nowIso))
    (version : Int) (name : String) :
    after.Recorded version name ↔ ∃ m ∈ migrations, m.version = version ∧
      m.name = name := by
  unfold AccountDatabase.Recorded
  rw [hrecords]
  constructor
  · rintro ⟨r, hr, rfl, rfl⟩
    rcases List.mem_append.mp hr with hr | hr
    · exact hcompatible r hr
    · obtain ⟨m, hm, rfl⟩ := List.mem_map.mp hr
      exact ⟨m, (List.mem_filter.mp hm).1, rfl, rfl⟩
  · rintro ⟨m, hm, rfl, rfl⟩
    by_cases hrecorded : db.Recorded m.version m.name
    · obtain ⟨r, hr, h⟩ := hrecorded
      exact ⟨r, List.mem_append_left _ hr, h⟩
    · refine ⟨m.record nowIso, List.mem_append_right _ (List.mem_map.mpr ⟨m, ?_, rfl⟩),
        rfl, rfl⟩
      exact List.mem_filter.mpr ⟨hm, decide_eq_true hrecorded⟩

/-- Where the recorded migrations are the known ones, a call does nothing. -/
theorem applyAccountSchema_again (hversions : (migrations.map (·.version)).Nodup)
    (hprepared : db.prepared = db)
    (hrecorded : ∀ version name, db.Recorded version name ↔
      ∃ m ∈ migrations, m.version = version ∧ m.name = name) (nowIso : String) :
    applyAccountSchema exec nowIso migrations db = .ok () db := by
  refine (applyAccountSchema_ok_iff hversions).mpr ⟨fun r hr => ?_, ?_⟩
  · exact (hrecorded r.version r.name).mp ⟨r, hr, rfl, rfl⟩
  · have hmissing : db.missing migrations = [] := by
      refine List.filter_eq_nil_iff.mpr fun m hm hmissing => of_decide_eq_true hmissing ?_
      exact (hrecorded m.version m.name).mpr ⟨m, hm, rfl, rfl⟩
    rw [hmissing, hprepared]
    exact .nil

/-- A recorded migration that the list does not know, knows under another name
    or is newer than everything in it. -/
def Foreign (migrations : List AccountMigration) (version : Int) (name : String) : Prop :=
  (∀ m ∈ migrations, m.version ≠ version) ∨
    (∃ m ∈ migrations, m.version = version ∧ m.name ≠ name) ∨
    ∀ m ∈ migrations, m.version < version

theorem not_compatible_of_foreign (hversions : (migrations.map (·.version)).Nodup)
    {version : Int} {name : String} (hrecorded : db.Recorded version name)
    (hforeign : Foreign migrations version name) : ¬ db.Compatible migrations := by
  obtain ⟨r, hr, rfl, rfl⟩ := hrecorded
  intro hcompatible
  obtain ⟨m, hm, hversion, hname⟩ := hcompatible r hr
  rcases hforeign with hunknown | ⟨n, hn, hnversion, hnname⟩ | hnewer
  · exact hunknown m hm hversion
  · have hmn : n = m :=
      List.inj_on_of_nodup_map hversions hn hm (hnversion.trans hversion.symm)
    exact hnname (hmn ▸ hname)
  · exact absurd (hnewer m hm) (by rw [hversion]; exact lt_irrefl _)

/-- What is promised of one call on `db`. -/
structure AllOrNothing (exec : String → Sql SqlError δ Unit) (nowIso : String)
    (migrations : List AccountMigration) (db : AccountDatabase δ) : Prop where
  /-- A failure leaves schema, data and records as they were. -/
  atomic : (∃ after, applyAccountSchema exec nowIso migrations db = .ok () after) ∨
    ∃ e, applyAccountSchema exec nowIso migrations db = .error e db
  /-- A success has applied the missing migrations, each once, in list order. -/
  applied : ∀ after, applyAccountSchema exec nowIso migrations db = .ok () after →
    Applied exec nowIso (db.missing migrations) db.prepared after
  /-- Unless a body touches the records itself, the known migrations are
      recorded afterwards, the old records are kept, and a further call
      changes nothing. -/
  recorded : KeepsRecords (db.missing migrations) exec →
    ∀ after, applyAccountSchema exec nowIso migrations db = .ok () after →
      (∀ version name, after.Recorded version name ↔
        ∃ m ∈ migrations, m.version = version ∧ m.name = name) ∧
      after.records = db.records ++ (db.missing migrations).map (·.record nowIso) ∧
      ∀ laterIso, applyAccountSchema exec laterIso migrations after = .ok () after
  /-- Unknown, renamed and newer migrations are refused. -/
  foreign : ∀ version name, db.Recorded version name → Foreign migrations version name →
    ∃ e, applyAccountSchema exec nowIso migrations db = .error e db
  /-- Nothing else is refused. -/
  complete : (∀ version name, db.Recorded version name → ¬ Foreign migrations version name) →
    ∀ after, Applied exec nowIso (db.missing migrations) db.prepared after →
      applyAccountSchema exec nowIso migrations db = .ok () after

/-- **Schema application is all-or-nothing.** -/
theorem schema_all_or_nothing (exec : String → Sql SqlError δ Unit) (nowIso : String)
    (migrations : List AccountMigration) (db : AccountDatabase δ)
    (hversions : (migrations.map (·.version)).Nodup) :
    AllOrNothing exec nowIso migrations db := by
  have hok : ∀ after, applyAccountSchema exec nowIso migrations db = .ok () after ↔ _ :=
    fun after => applyAccountSchema_ok_iff hversions
  constructor
  · exact applyAccountSchema_cases exec nowIso migrations db
  · exact fun after h => ((hok after).mp h).2
  · intro hkeeps after h
    obtain ⟨hcompatible, happlied⟩ := (hok after).mp h
    have hrecords := happlied.records_eq hkeeps
    have hrecorded := recorded_iff_known hcompatible hrecords
    have hprepared := happlied.prepared_eq hkeeps rfl
    exact ⟨hrecorded, hrecords,
      fun laterIso => applyAccountSchema_again hversions hprepared hrecorded laterIso⟩
  · -- a foreign record is not compatible, so the run cannot succeed
    intro version name hrecorded hforeign
    apply (applyAccountSchema_cases exec nowIso migrations db).resolve_left
    intro ⟨after, h⟩
    exact not_compatible_of_foreign hversions hrecorded hforeign ((hok after).mp h).1
  · intro hknown after happlied
    refine (hok after).mpr ⟨fun r hr => ?_, happlied⟩
    -- an unknown record has a version of its own or another name
    by_contra hunknown
    apply hknown r.version r.name ⟨r, hr, rfl, rfl⟩
    by_cases hversion : ∃ m ∈ migrations, m.version = r.version
    · obtain ⟨m, hm, hv⟩ := hversion
      exact .inr (.inl ⟨m, hm, hv, fun hname => hunknown ⟨m, hm, hv, hname⟩⟩)
    · exact .inl fun m hm hv => hversion ⟨m, hm, hv⟩

end call

/-! ## Sample database

  The contents are the texts of the tables that exist, as `sqlite_schema`
  keeps them. -/

section sample

namespace Sample

/-- What SQLite does with the two kinds of statement of the sample. -/
def execSample (statement : String) : Sql SqlError (List String) Unit := fun db =>
  if statement = "DELETE FROM schema_migrations" then
    match db.schema_migrations with
    | none => .error .noSuchTable db
    | some _ => .ok () { db with schema_migrations := some .empty }
  else if statement ∈ db.contents then .error (.statement "table already exists") db
  else .ok () { db with contents := db.contents ++ [statement] }

def notes : AccountMigration :=
  { version := 1, name := "0001_notes", sql := "CREATE TABLE notes (id TEXT);\n" }

def tags : AccountMigration :=
  { version := 2, name := "0002_tags", sql := "CREATE TABLE tags (id TEXT);" }

/-- A migration that empties the records. -/
def forget : AccountMigration :=
  { version := 2, name := "0002_forget", sql := "DELETE FROM schema_migrations" }

/-- A database that no migration has reached. -/
def fresh : AccountDatabase (List String) := { contents := [], schema_migrations := none }

/-- The database of a release that knew `notes` alone. -/
def installed : AccountDatabase (List String) where
  contents := ["CREATE TABLE notes (id TEXT)"]
  schema_migrations := Table.empty.insert? (notes.record "then")

/-- The database after `tags`. -/
def upgraded : AccountDatabase (List String) where
  contents := ["CREATE TABLE notes (id TEXT)", "CREATE TABLE tags (id TEXT)"]
  schema_migrations := (Table.empty.insert? (notes.record "then")).bind
    (·.insert? (tags.record "now"))

/-- The database after `notes` and `forget`. -/
def forgotten : AccountDatabase (List String) where
  contents := ["CREATE TABLE notes (id TEXT)"]
  schema_migrations := Table.empty.insert? (forget.record "now")

end Sample

open Sample

/-- A statement other than the `DELETE` keeps the records. -/
theorem execSample_keeps {statement : String} (h : statement ≠ "DELETE FROM schema_migrations")
    {db db' : AccountDatabase (List String)} (hexec : execSample statement db = .ok () db') :
    db'.schema_migrations = db.schema_migrations := by
  unfold execSample at hexec
  rw [if_neg h] at hexec
  split at hexec
  · exact absurd hexec (by simp)
  · obtain ⟨-, rfl⟩ := EStateM.Result.ok.inj hexec
    rfl

/-- A database at the first migration is brought to the second one. Both are
    recorded then, a further call changes nothing, and an older release, which
    does not know the second migration, is refused. -/
theorem schema_all_or_nothing_upgraded : ∃ after,
    applyAccountSchema execSample "now" [notes, tags] installed = .ok () after ∧
    after.contents = ["CREATE TABLE notes (id TEXT)", "CREATE TABLE tags (id TEXT)"] ∧
    after.records = [notes.record "then", tags.record "now"] ∧
    (∀ laterIso, applyAccountSchema execSample laterIso [notes, tags] after = .ok () after) ∧
    ∃ e, applyAccountSchema execSample "later" [notes] after = .error e after := by
  have hversions : ([notes, tags].map (·.version)).Nodup := by decide
  have htags : sqlStatements tags.sql = ["CREATE TABLE tags (id TEXT)"] := by decide +kernel
  have hmissing : installed.missing [notes, tags] = [tags] := by decide +kernel
  have hcall := schema_all_or_nothing execSample "now" [notes, tags] installed hversions
  have hkeeps : KeepsRecords (installed.missing [notes, tags]) execSample := by
    rw [hmissing]
    intro m hm statement hstatement db db' hexec
    rw [List.mem_singleton.mp hm, htags, List.mem_singleton] at hstatement
    subst hstatement
    exact execSample_keeps (by decide) hexec
  have happlied : Applied execSample "now" (installed.missing [notes, tags]) installed.prepared
      upgraded := by
    rw [hmissing]
    exact .cons (by rw [htags]; rfl) rfl .nil
  -- nothing that is recorded is foreign to the list
  have hknown : ∀ version name, installed.Recorded version name →
      ¬ Foreign [notes, tags] version name := by
    intro version name hrecorded
    obtain ⟨r, hr, rfl, rfl⟩ := hrecorded
    obtain rfl : r = notes.record "then" := List.mem_singleton.mp hr
    intro hforeign
    rcases hforeign with hunknown | ⟨m, hm, hversion, hname⟩ | hnewer
    · exact hunknown notes List.mem_cons_self rfl
    · have heq : m = notes :=
        List.inj_on_of_nodup_map hversions hm List.mem_cons_self hversion
      exact hname (heq ▸ rfl)
    · exact absurd (hnewer notes List.mem_cons_self) (lt_irrefl _)
  have hok := hcall.complete hknown upgraded happlied
  obtain ⟨-, hrecords, hagain⟩ := hcall.recorded hkeeps upgraded hok
  refine ⟨upgraded, hok, rfl, ?_, hagain, ?_⟩
  · rw [hrecords, hmissing]
    rfl
  · exact (schema_all_or_nothing execSample "later" [notes] upgraded (by decide)).foreign
      tags.version tags.name
      ⟨tags.record "now", List.mem_cons_of_mem _ List.mem_cons_self, rfl, rfl⟩
      (.inr (.inr (by decide)))

/-- A body that empties the records: the call succeeds, the first migration is
    not recorded, and the next call fails. -/
theorem records_emptied_by_body :
    ([notes, forget].map (·.version)).Nodup ∧ ([notes, forget].map (·.name)).Nodup ∧
    applyAccountSchema execSample "now" [notes, forget] fresh = .ok () forgotten ∧
    ¬ forgotten.Recorded notes.version notes.name ∧
    ∃ e, applyAccountSchema execSample "now" [notes, forget] forgotten = .error e forgotten := by
  have hversions : ([notes, forget].map (·.version)).Nodup := by decide
  have hnotes : sqlStatements notes.sql = ["CREATE TABLE notes (id TEXT)"] := by decide +kernel
  have hforget : sqlStatements forget.sql = ["DELETE FROM schema_migrations"] := by
    decide +kernel
  refine ⟨hversions, by decide, ?_, by decide +kernel, ?_⟩
  · refine (applyAccountSchema_ok_iff hversions).mpr
      ⟨fun r hr => absurd hr List.not_mem_nil, ?_⟩
    have hmissing : fresh.missing [notes, forget] = [notes, forget] := rfl
    rw [hmissing]
    exact .cons (by rw [hnotes]; rfl) rfl (.cons (by rw [hforget]; rfl) rfl .nil)
  · apply (applyAccountSchema_cases _ _ _ _).resolve_left
    intro ⟨after, h⟩
    have happlied := ((applyAccountSchema_ok_iff hversions).mp h).2
    have hmissing : forgotten.missing [notes, forget] = [notes] := by decide +kernel
    rw [hmissing] at happlied
    -- the table of the first migration is there already
    obtain _ | ⟨hexec, -, -⟩ := happlied
    rw [hnotes] at hexec
    cases hexec

end sample

end Umail
