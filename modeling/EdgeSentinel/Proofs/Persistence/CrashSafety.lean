import Mathlib.Data.List.Nodup
import EdgeSentinel.Persistence.Migrations

/-!
# `EdgeSentinel.Proofs.Persistence.CrashSafety`: migrations that are cut short

A script and the row that records it are not in one transaction. The row comes last, so a
recorded version has all its objects (`Recorded`), wherever the runs before were cut short. The
statements of a script that was cut short do nothing where their objects exist.

`Extends` is what every statement keeps: objects and rows stay. `Within` compares the schemas of
two files. A list of migrations that runs through on a new file runs through on every file that
its runs have left (`Within.migrate`): the file is between two states of the run on the new one.
-/

set_option autoImplicit false

namespace EdgeSentinel.Proofs.Persistence

open EdgeSentinel.Persistence
open EdgeSentinel.Persistence.SqliteFile

variable {ρ : Type} {db db' : SqliteFile ρ}

/-! ### What a statement does -/

theorem setTable_self (name : String) (t : Table ρ) :
    (db.setTable name t).tables name = some t := Function.update_self _ _ _

theorem setTable_of_ne {name name' : String} (t : Table ρ) (hne : name' ≠ name) :
    (db.setTable name t).tables name' = db.tables name' := Function.update_of_ne hne _ _

theorem setIndex_self (name : String) (i : Index) :
    (db.setIndex name i).indexes name = some i := Function.update_self _ _ _

theorem setIndex_of_ne {name name' : String} (i : Index) (hne : name' ≠ name) :
    (db.setIndex name i).indexes name' = db.indexes name' := Function.update_of_ne hne _ _

/-- A statement `CREATE ... IF NOT EXISTS` finds its object, or makes it under a new name. -/
theorem create_cases {c : Create} (h : db.create c = .ok db') :
    (db' = db ∧ Present db c) ∨
    (∃ name columns, c = .table name columns ∧ db.tables name = none ∧ db.indexes name = none ∧
      db' = db.setTable name { columns := columns }) ∨
    (∃ name table columns, c = .index name table columns ∧ db.tables name = none ∧
      db.indexes name = none ∧ db' = db.setIndex name { table := table, columns := columns }) := by
  cases c with
  | table name columns =>
    simp only [SqliteFile.create] at h
    split at h
    · rename_i htable
      exact Or.inl ⟨(Except.ok.inj h).symm, htable⟩
    · split at h
      · cases h
      · rename_i htable hindex
        exact Or.inr (Or.inl ⟨name, columns, rfl, by simpa using htable, by simpa using hindex,
          (Except.ok.inj h).symm⟩)
  | index name table columns =>
    simp only [SqliteFile.create] at h
    split at h
    · cases h
    · split at h
      · cases h
      · split at h
        · rename_i hindex
          exact Or.inl ⟨(Except.ok.inj h).symm, hindex⟩
        · split at h
          · cases h
          · rename_i htable hindex _
            exact Or.inr (Or.inr ⟨name, table, columns, rfl, by simpa using htable,
              by simpa using hindex, (Except.ok.inj h).symm⟩)

/-- A row is recorded once. -/
theorem record_cases {version : Int} {name : String} (h : db.record version name = .ok db') :
    ∃ t, db.tables schemaMigrations = some t ∧ version ∉ db.versions ∧
      db' = db.setTable schemaMigrations { t with rows := t.rows ++ [.applied version name] } := by
  simp only [SqliteFile.record] at h
  split at h
  · cases h
  · rename_i t ht
    split at h
    · cases h
    · rename_i hversion
      exact ⟨t, ht, hversion, (Except.ok.inj h).symm⟩

/-- A created object is present. -/
theorem present_of_create {c : Create} (h : db.create c = .ok db') : Present db' c := by
  rcases create_cases h with ⟨rfl, hpresent⟩ | ⟨name, columns, rfl, -, -, rfl⟩ |
    ⟨name, table, columns, rfl, -, -, rfl⟩
  · exact hpresent
  · simp only [Present, setTable_self, Option.isSome_some]
  · simp only [Present, setIndex_self, Option.isSome_some]

/-- Creating an object records nothing. -/
theorem versions_create {c : Create} (h : db.create c = .ok db') : db'.versions = db.versions := by
  rcases create_cases h with ⟨rfl, -⟩ | ⟨name, columns, rfl, hnone, -, rfl⟩ |
    ⟨name, table, columns, rfl, -, -, rfl⟩
  · rfl
  · unfold SqliteFile.versions
    by_cases hname : schemaMigrations = name
    · subst hname
      rw [setTable_self, hnone]
      rfl
    · rw [setTable_of_ne _ hname]
  · rfl

theorem versions_record {version : Int} {name : String} (h : db.record version name = .ok db') :
    db'.versions = db.versions ++ [version] := by
  obtain ⟨t, ht, -, rfl⟩ := record_cases h
  unfold SqliteFile.versions
  rw [setTable_self, ht]
  simp

/-! ### What every statement keeps -/

/-- The objects and the rows of `db` stay in `db'`, and the tables of the application stay as
they are. -/
structure Extends (db db' : SqliteFile ρ) : Prop where
  tables : ∀ name t, db.tables name = some t → ∃ t', db'.tables name = some t' ∧
    t'.columns = t.columns ∧ t.rows <+: t'.rows ∧ (name ≠ schemaMigrations → t' = t)
  indexes : ∀ name i, db.indexes name = some i → db'.indexes name = some i

namespace Extends

variable {db'' : SqliteFile ρ}

theorem refl (db : SqliteFile ρ) : Extends db db where
  tables _ t ht := ⟨t, ht, rfl, List.prefix_refl _, fun _ => rfl⟩
  indexes _ _ hi := hi

theorem trans (h : Extends db db') (h' : Extends db' db'') : Extends db db'' where
  tables name t ht := by
    obtain ⟨t', ht', hcolumns, hrows, hsame⟩ := h.tables name t ht
    obtain ⟨t'', ht'', hcolumns', hrows', hsame'⟩ := h'.tables name t' ht'
    exact ⟨t'', ht'', hcolumns'.trans hcolumns, hrows.trans hrows',
      fun hname => (hsame' hname).trans (hsame hname)⟩
  indexes name i hi := h'.indexes name i (h.indexes name i hi)

theorem present (h : Extends db db') {c : Create} (hpresent : Present db c) : Present db' c := by
  cases c with
  | table name columns =>
    obtain ⟨t, ht⟩ := Option.isSome_iff_exists.mp hpresent
    obtain ⟨t', ht', -⟩ := h.tables name t ht
    exact Option.isSome_iff_exists.mpr ⟨t', ht'⟩
  | index name table columns =>
    obtain ⟨i, hi⟩ := Option.isSome_iff_exists.mp hpresent
    exact Option.isSome_iff_exists.mpr ⟨i, h.indexes name i hi⟩

theorem of_create {c : Create} (h : db.create c = .ok db') : Extends db db' := by
  rcases create_cases h with ⟨rfl, -⟩ | ⟨name, columns, rfl, hnone, -, rfl⟩ |
    ⟨name, table, columns, rfl, -, hnone, rfl⟩
  · exact refl _
  · refine ⟨fun name' t ht => ?_, fun _ _ hi => hi⟩
    have hne : name' ≠ name := by
      rintro rfl
      rw [hnone] at ht
      cases ht
    exact ⟨t, (setTable_of_ne _ hne).trans ht, rfl, List.prefix_refl _, fun _ => rfl⟩
  · refine ⟨(refl db).tables, fun name' i hi => ?_⟩
    have hne : name' ≠ name := by
      rintro rfl
      rw [hnone] at hi
      cases hi
    exact (setIndex_of_ne _ hne).trans hi

theorem of_record {version : Int} {name : String} (h : db.record version name = .ok db') :
    Extends db db' := by
  obtain ⟨t, ht, -, rfl⟩ := record_cases h
  refine ⟨fun name' t' ht' => ?_, fun _ _ hi => hi⟩
  by_cases hname : name' = schemaMigrations
  · subst hname
    obtain rfl : t = t' := Option.some.inj (ht.symm.trans ht')
    exact ⟨_, setTable_self _ _, rfl, List.prefix_append _ _, fun hne => absurd rfl hne⟩
  · exact ⟨t', (setTable_of_ne _ hname).trans ht', rfl, List.prefix_refl _, fun _ => rfl⟩

theorem of_execute {s : SqlStatement} (h : db.execute s = .ok db') : Extends db db' := by
  cases s with
  | create c => exact of_create h
  | record version name => exact of_record h

/-- Statements keep what they find, also when one of them fails. -/
theorem of_executeAll (statements : List SqlStatement) :
    ∀ db : SqliteFile ρ, Extends db (executeAll statements db).1 := by
  induction statements with
  | nil => exact fun db => refl db
  | cons s statements ih =>
    intro db
    rw [executeAll]
    cases h : db.execute s with
    | error e => exact refl db
    | ok db₁ => exact (of_execute h).trans (ih db₁)

end Extends

/-! ### Statement after statement -/

/-- A list of statements goes on with its second part when the first one does not fail. -/
theorem executeAll_append (xs ys : List SqlStatement) :
    ∀ db : SqliteFile ρ, executeAll (xs ++ ys) db =
      match executeAll xs db with
      | (db', none) => executeAll ys db'
      | (db', some e) => (db', some e) := by
  induction xs with
  | nil => exact fun _ => rfl
  | cons s xs ih =>
    intro db
    rw [List.cons_append, executeAll, executeAll]
    cases db.execute s with
    | error e => rfl
    | ok db₁ => exact ih db₁

theorem executeAll_cons_none {s : SqlStatement} {statements : List SqlStatement}
    (h : executeAll (s :: statements) db = (db', none)) :
    ∃ db₁, db.execute s = .ok db₁ ∧ executeAll statements db₁ = (db', none) := by
  rw [executeAll] at h
  split at h
  · rename_i db₁ h₁
    exact ⟨db₁, h₁, h⟩
  · simp at h

theorem extends_of_none {statements : List SqlStatement}
    (h : executeAll statements db = (db', none)) : Extends db db' := by
  have hextends := Extends.of_executeAll statements db
  rw [h] at hextends
  exact hextends

/-- Both parts of a list run through when the list does. -/
theorem executeAll_append_none {xs ys : List SqlStatement}
    (h : executeAll (xs ++ ys) db = (db', none)) :
    ∃ db₁, executeAll xs db = (db₁, none) ∧ executeAll ys db₁ = (db', none) := by
  rw [executeAll_append] at h
  split at h
  · rename_i db₁ h₁
    exact ⟨db₁, h₁, h⟩
  · simp at h

/-- The objects that statements create, and the versions, which they leave. -/
theorem executeAll_creates (cs : List Create) :
    ∀ db : SqliteFile ρ, (executeAll (cs.map .create) db).1.versions = db.versions ∧
      ((executeAll (cs.map .create) db).2 = none →
        ∀ c ∈ cs, Present (executeAll (cs.map .create) db).1 c) := by
  induction cs with
  | nil => exact fun db => ⟨rfl, fun _ c hc => by simp at hc⟩
  | cons c cs ih =>
    intro db
    rw [List.map_cons, executeAll]
    cases h : db.execute (.create c) with
    | error e => exact ⟨rfl, fun hnone => by simp at hnone⟩
    | ok db₁ =>
      obtain ⟨hversions, hpresent⟩ := ih db₁
      refine ⟨hversions.trans (versions_create h), fun hnone x hx => ?_⟩
      rcases List.mem_cons.mp hx with rfl | hx
      · exact (Extends.of_executeAll _ db₁).present (present_of_create h)
      · exact hpresent hnone x hx

/-- A migration that is cut short is not recorded. One that is not has all its objects, and its
version is recorded. -/
theorem executeAll_migration (m : Migration) (limit : Nat) (db : SqliteFile ρ) :
    (executeAll (m.statements.take limit) db).1.versions = db.versions ∨
    ((executeAll (m.statements.take limit) db).1.versions = db.versions ++ [m.version] ∧
      m.version ∉ db.versions ∧
      ∀ c ∈ m.sql, Present (executeAll (m.statements.take limit) db).1 c) := by
  by_cases hlimit : limit ≤ m.sql.length
  · left
    rw [Migration.statements, List.take_append_of_le_length (by simpa using hlimit),
      ← List.map_take]
    exact (executeAll_creates _ db).1
  · rw [List.take_of_length_le (by rw [Migration.statements]; simp; omega), Migration.statements,
      executeAll_append]
    obtain ⟨hversions, hpresent⟩ := executeAll_creates m.sql db
    cases hcreates : executeAll (m.sql.map .create) db with
    | mk db₁ failed =>
      rw [hcreates] at hversions hpresent
      cases failed with
      | some e => exact Or.inl hversions
      | none =>
        dsimp only
        rw [executeAll]
        cases hrecord : db₁.execute (.record m.version m.name) with
        | error e => exact Or.inl hversions
        | ok db₂ =>
          obtain ⟨-, -, hnot, -⟩ := record_cases hrecord
          refine Or.inr ⟨?_, ?_, fun c hc => ?_⟩
          · exact (versions_record hrecord).trans (congrArg (· ++ _) hversions)
          · rw [← hversions]
            exact hnot
          · exact (Extends.of_record hrecord).present (hpresent rfl c hc)

/-- A migration that runs through has all its objects, and its version is recorded. -/
theorem migration_of_none {m : Migration} (h : executeAll m.statements db = (db', none)) :
    db'.versions = db.versions ++ [m.version] ∧ ∀ c ∈ m.sql, Present db' c := by
  obtain ⟨db₁, hcreates, hrecord⟩ := executeAll_append_none h
  obtain ⟨hversions, hpresent⟩ := executeAll_creates m.sql db
  rw [hcreates] at hversions hpresent
  obtain ⟨db₂, hok, hend⟩ := executeAll_cons_none hrecord
  cases hend
  refine ⟨(versions_record hok).trans (congrArg (· ++ _) hversions), fun c hc => ?_⟩
  exact (Extends.of_record hok).present (hpresent rfl c hc)

/-! ### What is recorded -/

theorem pending_cons (m : Migration) (ms : List Migration) (applied : List Int) :
    pending (m :: ms) applied
      = (if m.version ∈ applied then [] else m.statements) ++ pending ms applied :=
  List.flatMap_cons

/-- A recorded version is that of a migration, it is recorded once, and all the objects of its
migration are present. -/
structure Recorded (ms : List Migration) (db : SqliteFile ρ) : Prop where
  present : ∀ m ∈ ms, m.version ∈ db.versions → ∀ c ∈ m.sql, Present db c
  once : db.versions.Nodup
  known : ∀ v ∈ db.versions, v ∈ ms.map (·.version)

section
variable {ms : List Migration}

/-- Statements that record nothing keep what is recorded. -/
theorem Recorded.of_versions_eq (h : Recorded ms db) (hextends : Extends db db')
    (hversions : db'.versions = db.versions) : Recorded ms db' where
  present m hm hv c hc := hextends.present (h.present m hm (hversions ▸ hv) c hc)
  once := hversions ▸ h.once
  known v hv := h.known v (hversions ▸ hv)

/-- A migration keeps what is recorded, wherever it is cut short. -/
theorem Recorded.migration (hdistinct : (ms.map (·.version)).Nodup) (h : Recorded ms db)
    {m : Migration} (hm : m ∈ ms) (limit : Nat) :
    Recorded ms (executeAll (m.statements.take limit) db).1 := by
  have hextends := Extends.of_executeAll (m.statements.take limit) db
  rcases executeAll_migration m limit db with hversions | ⟨hversions, hnew, hpresent⟩
  · exact h.of_versions_eq hextends hversions
  · refine ⟨fun m' hm' hv c hc => ?_, ?_, fun v hv => ?_⟩
    · rw [hversions, List.mem_append, List.mem_singleton] at hv
      rcases hv with hv | hv
      · exact hextends.present (h.present m' hm' hv c hc)
      · -- Versions are distinct, so it is the migration that has just run.
        obtain rfl : m' = m := List.inj_on_of_nodup_map hdistinct hm' hm hv
        exact hpresent c hc
    · rw [hversions]
      exact List.nodup_append.mpr ⟨h.once, List.nodup_singleton _, by
        rintro v hv _ hmem rfl
        obtain rfl := List.mem_singleton.mp hmem
        exact hnew hv⟩
    · rw [hversions, List.mem_append, List.mem_singleton] at hv
      rcases hv with hv | rfl
      · exact h.known v hv
      · exact List.mem_map_of_mem hm

/-- So does the loop, over any part of the list. The induction is on the migrations that are
left. -/
theorem Recorded.loop (hdistinct : (ms.map (·.version)).Nodup) (applied : List Int)
    (ms' : List Migration) : ms' ⊆ ms → ∀ (limit : Nat) (db : SqliteFile ρ), Recorded ms db →
      Recorded ms (executeAll ((pending ms' applied).take limit) db).1 := by
  induction ms' with
  | nil =>
    intro _ limit db h
    have hnil : (pending [] applied).take limit = [] := List.take_nil
    rw [hnil]
    exact h
  | cons m ms' ih =>
    intro hsub limit db h
    obtain ⟨hm, hms'⟩ := List.cons_subset.mp hsub
    rw [pending_cons]
    split
    · exact ih hms' limit db h
    · rw [List.take_append, executeAll_append]
      have hmigration := h.migration hdistinct hm limit
      split
      · rename_i db₁ hrun
        rw [hrun] at hmigration
        exact ih hms' _ db₁ hmigration
      · rename_i db₁ e hrun
        rw [hrun] at hmigration
        exact hmigration

/-- The application writes neither the schema nor the versions. -/
theorem Recorded.write (h : Recorded ms db) (table : String) (rows : List ρ) :
    Recorded ms (db.write table rows) := by
  unfold SqliteFile.write
  split
  · exact h
  · rename_i t ht
    split
    · exact h
    · rename_i hname
      have hversions : (db.setTable table { t with rows := rows.map .data }).versions
          = db.versions := by
        unfold SqliteFile.versions
        rw [setTable_of_ne _ (Ne.symm hname)]
      refine ⟨fun m hm hv c hc => ?_, hversions ▸ h.once, fun v hv => h.known v (hversions ▸ hv)⟩
      have hpresent := h.present m hm (hversions ▸ hv) c hc
      cases c with
      | index name table' columns => exact hpresent
      | table name columns =>
        by_cases hsame : name = table
        · subst hsame
          simp only [Present, setTable_self, Option.isSome_some]
        · simp only [Present, setTable_of_ne _ hsame]
          exact hpresent

theorem Recorded.after (hdistinct : (ms.map (·.version)).Nodup) (h : Recorded ms db)
    (e : FileEvent ρ) : Recorded ms (db.after ms e) := by
  cases e with
  | writes table rows => exact h.write table rows
  | migrates limit =>
    cases limit with
    | zero => exact h
    | succ limit =>
      rw [SqliteFile.after, migrateUpTo]
      cases hcreate : db.create createSchemaMigrations with
      | error e => exact h
      | ok db₁ =>
        have hcreated := h.of_versions_eq (Extends.of_create hcreate) (versions_create hcreate)
        exact hcreated.loop hdistinct _ ms (List.Subset.refl ms) limit db₁

theorem Recorded.empty : Recorded ms (SqliteFile.empty : SqliteFile ρ) where
  present _ _ hv := by cases hv
  once := List.nodup_nil
  known _ hv := by cases hv

/-- The file after some events, from a new file on. -/
def produced (ms : List Migration) (events : List (FileEvent ρ)) : SqliteFile ρ :=
  events.foldl (fun db e => db.after ms e) .empty

theorem Recorded.foldl (hdistinct : (ms.map (·.version)).Nodup) (events : List (FileEvent ρ)) :
    ∀ db : SqliteFile ρ, Recorded ms db →
      Recorded ms (events.foldl (fun db e => db.after ms e) db) := by
  induction events with
  | nil => exact fun db h => h
  | cons e events ih => exact fun db h => ih _ (h.after hdistinct e)

theorem recorded_produced (hdistinct : (ms.map (·.version)).Nodup) (events : List (FileEvent ρ)) :
    Recorded ms (produced ms events) :=
  Recorded.foldl hdistinct events _ .empty

/-- A run of an older release, whose list lacks the last migrations, is a run of this list that
is cut short. -/
theorem migrate_older (older newer : List Migration) (db : SqliteFile ρ) :
    ∃ limit, db.migrate older = db.migrateUpTo (older ++ newer) limit := by
  cases hcreate : db.create createSchemaMigrations with
  | error e =>
    refine ⟨1, ?_⟩
    rw [migrate, migrateUpTo, hcreate]
  | ok db₁ =>
    refine ⟨(pending older db₁.versions).length + 1, ?_⟩
    have happend : pending (older ++ newer) db₁.versions
        = pending older db₁.versions ++ pending newer db₁.versions := List.flatMap_append
    rw [migrate, migrateUpTo, hcreate]
    dsimp only
    rw [happend, List.take_left]

/-! ### A run that is not cut short -/

/-- The loop runs every migration that is not recorded. -/
theorem loop_of_none (applied : List Int) (ms' : List Migration) :
    ∀ db : SqliteFile ρ, executeAll (pending ms' applied) db = (db', none) →
      db'.versions = db.versions
        ++ (ms'.filter fun m => m.version ∉ applied).map (·.version) ∧
      ∀ m ∈ ms', m.version ∉ applied → ∀ c ∈ m.sql, Present db' c := by
  induction ms' with
  | nil =>
    intro db h
    cases h
    exact ⟨(List.append_nil _).symm, by simp⟩
  | cons m ms' ih =>
    intro db h
    rw [pending_cons] at h
    by_cases happlied : m.version ∈ applied
    · rw [if_pos happlied, List.nil_append] at h
      obtain ⟨hversions, hpresent⟩ := ih db h
      refine ⟨?_, fun x hx hnot => ?_⟩
      · rw [hversions, List.filter_cons_of_neg (by simpa using happlied)]
      · rcases List.mem_cons.mp hx with rfl | hx
        · exact absurd happlied hnot
        · exact hpresent x hx hnot
    · rw [if_neg happlied] at h
      obtain ⟨db₁, hfirst, hrest⟩ := executeAll_append_none h
      obtain ⟨hversion, hobjects⟩ := migration_of_none hfirst
      obtain ⟨hversions, hpresent⟩ := ih db₁ hrest
      refine ⟨?_, fun x hx hnot => ?_⟩
      · rw [hversions, hversion, List.filter_cons_of_pos (by simpa using happlied),
          List.map_cons, List.append_assoc, List.singleton_append]
      · rcases List.mem_cons.mp hx with rfl | hx
        · intro c hc
          exact (extends_of_none hrest).present (hobjects c hc)
        · exact hpresent x hx hnot

/-- The parts of a run that is not cut short. -/
theorem migrate_parts (h : db.migrate ms = (db', none)) :
    ∃ db₁, db.create createSchemaMigrations = .ok db₁ ∧ db₁.versions = db.versions ∧
      executeAll (pending ms db.versions) db₁ = (db', none) := by
  rw [migrate] at h
  cases hcreate : db.create createSchemaMigrations with
  | error e => simp [hcreate] at h
  | ok db₁ =>
    rw [hcreate] at h
    dsimp only at h
    have hversions := versions_create hcreate
    rw [hversions] at h
    exact ⟨db₁, rfl, hversions, h⟩

theorem extends_of_migrate (h : db.migrate ms = (db', none)) : Extends db db' := by
  obtain ⟨db₁, hcreate, -, hloop⟩ := migrate_parts h
  exact (Extends.of_create hcreate).trans (extends_of_none hloop)

/-- It leaves every object of every migration, and every version recorded once. -/
theorem Recorded.migrate (hdistinct : (ms.map (·.version)).Nodup) (h : Recorded ms db)
    (hrun : db.migrate ms = (db', none)) :
    (∀ m ∈ ms, ∀ c ∈ m.sql, Present db' c) ∧ db'.versions.Perm (ms.map (·.version)) := by
  obtain ⟨db₁, hcreate, hversions₁, hloop⟩ := migrate_parts hrun
  obtain ⟨hversions, hpresent⟩ := loop_of_none db.versions ms db₁ hloop
  constructor
  · intro m hm c hc
    by_cases happlied : m.version ∈ db.versions
    · exact (extends_of_migrate hrun).present (h.present m hm happlied c hc)
    · exact hpresent m hm happlied c hc
  -- What was recorded before and what the loop records make up the list.
  · have hpart := (hdistinct.sublist (List.filter_sublist.map _) :
      ((ms.filter fun m => m.version ∉ db.versions).map (·.version)).Nodup)
    rw [hversions, hversions₁, List.perm_ext_iff_of_nodup _ hdistinct]
    · intro v
      rw [List.mem_append]
      constructor
      · rintro (hv | hv)
        · exact h.known v hv
        · obtain ⟨m, hm, rfl⟩ := List.mem_map.mp hv
          exact List.mem_map_of_mem (List.mem_of_mem_filter hm)
      · intro hv
        by_cases hrecorded : v ∈ db.versions
        · exact Or.inl hrecorded
        · obtain ⟨m, hm, rfl⟩ := List.mem_map.mp hv
          exact Or.inr (List.mem_map_of_mem (List.mem_filter.mpr ⟨hm, by simpa using hrecorded⟩))
    · refine List.nodup_append.mpr ⟨h.once, hpart, ?_⟩
      rintro v hv _ hmem rfl
      obtain ⟨m, hm, rfl⟩ := List.mem_map.mp hmem
      exact absurd hv (by simpa using (List.mem_filter.mp hm).2)

theorem pending_eq_nil {applied : List Int} (h : ∀ m ∈ ms, m.version ∈ applied) :
    pending ms applied = [] := by
  rw [pending, List.flatMap_eq_nil_iff]
  exact fun m hm => if_pos (h m hm)

/-- After it, another run does nothing. -/
theorem migrate_again (hrun : db.migrate ms = (db', none))
    (hversions : db'.versions.Perm (ms.map (·.version))) : db'.migrate ms = (db', none) := by
  obtain ⟨db₁, hcreate, -, hloop⟩ := migrate_parts hrun
  have htable : (db'.tables schemaMigrations).isSome :=
    (extends_of_none hloop).present (present_of_create hcreate)
  have hfound : db'.create createSchemaMigrations = .ok db' := by
    simp only [createSchemaMigrations, SqliteFile.create, htable, if_true]
  rw [migrate, hfound]
  dsimp only
  rw [pending_eq_nil fun m hm => hversions.mem_iff.mpr (List.mem_map_of_mem hm)]
  rfl

end

/-! ### A list that runs through on a new file -/

/-- The objects of `db` are in `db'`, and the tables with the same columns. -/
structure Within (db db' : SqliteFile ρ) : Prop where
  tables : ∀ name t, db.tables name = some t →
    ∃ t', db'.tables name = some t' ∧ t'.columns = t.columns
  indexes : ∀ name, (db.indexes name).isSome → (db'.indexes name).isSome

/-- No name is that of a table and of an index. -/
def Separate (db : SqliteFile ρ) : Prop :=
  ∀ name, (db.tables name).isSome → db.indexes name = none

namespace Within

-- The list runs through on a new file: `e` is a file of that run, `e₁` the next one and `f` the
-- last one. `d` is a file that other runs have left.
variable {e e₁ d f : SqliteFile ρ}

theorem trans (h : Within e d) (h' : Within d f) : Within e f where
  tables name t ht := by
    obtain ⟨t', ht', hcolumns⟩ := h.tables name t ht
    obtain ⟨t'', ht'', hcolumns'⟩ := h'.tables name t' ht'
    exact ⟨t'', ht'', hcolumns'.trans hcolumns⟩
  indexes name hi := h'.indexes name (h.indexes name hi)

theorem of_extends (h : Extends db db') : Within db db' where
  tables name t ht := by
    obtain ⟨t', ht', hcolumns, -⟩ := h.tables name t ht
    exact ⟨t', ht', hcolumns⟩
  indexes name hi := by
    obtain ⟨i, hi⟩ := Option.isSome_iff_exists.mp hi
    exact Option.isSome_iff_exists.mpr ⟨i, h.indexes name i hi⟩

theorem isSome (h : Within e d) {name : String} (ht : (e.tables name).isSome) :
    (d.tables name).isSome := by
  obtain ⟨t, ht⟩ := Option.isSome_iff_exists.mp ht
  obtain ⟨t', ht', -⟩ := h.tables name t ht
  exact Option.isSome_iff_exists.mpr ⟨t', ht'⟩

theorem of_empty (db : SqliteFile ρ) : Within .empty db where
  tables _ _ ht := by cases ht
  indexes _ hi := by cases hi

/-- A statement whose object is there already is skipped without a difference. -/
theorem skips (hed : Within e d) (hdf : Within d f) (he₁f : Within e₁ f) {c : Create}
    (h : e.create c = .ok e₁) (hpresent : Present d c) : Within e₁ d := by
  rcases create_cases h with ⟨rfl, -⟩ | ⟨name, columns, rfl, -, -, rfl⟩ |
    ⟨name, table, columns, rfl, -, -, rfl⟩
  · exact hed
  · refine ⟨fun name' t ht => ?_, hed.indexes⟩
    by_cases hname : name' = name
    · subst hname
      -- The table has the columns of the last file, both here and there.
      obtain ⟨t', ht'⟩ := Option.isSome_iff_exists.mp hpresent
      obtain ⟨t₁, ht₁, hcolumns₁⟩ := hdf.tables name' t' ht'
      obtain ⟨t₂, ht₂, hcolumns₂⟩ := he₁f.tables name' t ht
      obtain rfl : t₁ = t₂ := Option.some.inj (ht₁.symm.trans ht₂)
      exact ⟨t', ht', hcolumns₁.symm.trans hcolumns₂⟩
    · exact hed.tables name' t ((setTable_of_ne _ hname).symm.trans ht)
  · refine ⟨hed.tables, fun name' hi => ?_⟩
    by_cases hname : name' = name
    · subst hname
      exact hpresent
    · refine hed.indexes name' ?_
      rw [setIndex_of_ne _ hname] at hi
      exact hi

/-- A table with the same columns on both sides. -/
theorem setTable (hed : Within e d) (name : String) {t t' : Table ρ}
    (hcolumns : t'.columns = t.columns) :
    Within (e.setTable name t) (d.setTable name t') := by
  refine ⟨fun name' x hx => ?_, hed.indexes⟩
  by_cases hname : name' = name
  · subst hname
    rw [setTable_self] at hx ⊢
    obtain rfl := Option.some.inj hx
    exact ⟨t', rfl, hcolumns⟩
  · rw [setTable_of_ne _ hname] at hx ⊢
    exact hed.tables name' x hx

theorem setTable_left (hdf : Within d f) {name : String} {t t' : Table ρ}
    (ht' : f.tables name = some t') (hcolumns : t'.columns = t.columns) :
    Within (d.setTable name t) f := by
  refine ⟨fun name' x hx => ?_, hdf.indexes⟩
  by_cases hname : name' = name
  · subst hname
    rw [setTable_self] at hx
    obtain rfl := Option.some.inj hx
    exact ⟨t', ht', hcolumns⟩
  · rw [setTable_of_ne _ hname] at hx
    exact hdf.tables name' x hx

theorem setIndex (hed : Within e d) (name : String) (i : Index) :
    Within (e.setIndex name i) (d.setIndex name i) := by
  refine ⟨hed.tables, fun name' hi => ?_⟩
  by_cases hname : name' = name
  · subst hname
    rw [setIndex_self]
    rfl
  · rw [setIndex_of_ne _ hname] at hi ⊢
    exact hed.indexes name' hi

theorem setIndex_left (hdf : Within d f) {name : String} {i : Index}
    (hi : (f.indexes name).isSome) : Within (d.setIndex name i) f := by
  refine ⟨hdf.tables, fun name' hx => ?_⟩
  by_cases hname : name' = name
  · subst hname
    exact hi
  · rw [setIndex_of_ne _ hname] at hx
    exact hdf.indexes name' hx

theorem createTable (hed : Within e d) (hdf : Within d f) (he₁f : Within e₁ f) (hf : Separate f)
    {name : String} {columns : List String} (h : e.create (.table name columns) = .ok e₁) :
    ∃ d₁, d.create (.table name columns) = .ok d₁ ∧ Within e₁ d₁ ∧ Within d₁ f := by
  by_cases htable : (d.tables name).isSome
  · refine ⟨d, ?_, hed.skips hdf he₁f h htable, hdf⟩
    simp only [SqliteFile.create, htable, if_true]
  -- The last file has a table of this name, so `d` has no index of it.
  · have hindex : ¬ (d.indexes name).isSome := by
      intro hindex
      have hnone := hf name (he₁f.isSome (present_of_create h))
      have hsome := hdf.indexes name hindex
      simp [hnone] at hsome
    have hcreate : d.create (.table name columns)
        = .ok (d.setTable name { columns := columns }) := by
      simp [SqliteFile.create, htable, hindex]
    rcases create_cases h with ⟨rfl, hpresent⟩ | ⟨_, _, hc, -, -, rfl⟩ | ⟨_, _, _, hc, -⟩
    · exact absurd (hed.isSome hpresent) htable
    · cases hc
      obtain ⟨t', ht', hcolumns⟩ := he₁f.tables name _ (setTable_self _ _)
      exact ⟨_, hcreate, hed.setTable name rfl, hdf.setTable_left ht' hcolumns⟩
    · cases hc

theorem createIndex (hed : Within e d) (hdf : Within d f) (he₁f : Within e₁ f) (hf : Separate f)
    {name table : String} {columns : List String}
    (h : e.create (.index name table columns) = .ok e₁) :
    ∃ d₁, d.create (.index name table columns) = .ok d₁ ∧ Within e₁ d₁ ∧ Within d₁ f := by
  have hindex₁ := present_of_create h
  -- The last file has an index of this name, so `d` has no table of it.
  have htable : ¬ (d.tables name).isSome := by
    intro htable
    have hnone := hf name (hdf.isSome htable)
    have hsome := he₁f.indexes name hindex₁
    simp [hnone] at hsome
  cases ht : e.tables table with
  | none => simp [SqliteFile.create, ht] at h
  | some t =>
    obtain ⟨t', ht', hcolumns⟩ := hed.tables table t ht
    by_cases hindex : (d.indexes name).isSome
    · refine ⟨d, ?_, hed.skips hdf he₁f h hindex, hdf⟩
      simp [SqliteFile.create, ht', htable, hindex]
    · have hindexe : ¬ (e.indexes name).isSome := fun hi => hindex (hed.indexes name hi)
      have htablee : ¬ (e.tables name).isSome := fun hi => htable (hed.isSome hi)
      by_cases hall : ∀ c ∈ columns, c ∈ t.columns
      · have he : e.create (.index name table columns)
            = .ok (e.setIndex name { table := table, columns := columns }) := by
          simp only [SqliteFile.create, ht, if_neg htablee, if_neg hindexe,
            if_neg (not_not.mpr hall)]
        have hd : d.create (.index name table columns)
            = .ok (d.setIndex name { table := table, columns := columns }) := by
          rw [← hcolumns] at hall
          simp only [SqliteFile.create, ht', if_neg htable, if_neg hindex,
            if_neg (not_not.mpr hall)]
        obtain rfl := Except.ok.inj (h.symm.trans he)
        exact ⟨_, hd, hed.setIndex _ _, hdf.setIndex_left (he₁f.indexes name hindex₁)⟩
      · simp only [SqliteFile.create, ht, if_neg htablee, if_neg hindexe, if_pos hall] at h
        cases h

/-- A statement that succeeds on `e` succeeds on `d`. -/
theorem create (hed : Within e d) (hdf : Within d f) (he₁f : Within e₁ f) (hf : Separate f)
    {c : Create} (h : e.create c = .ok e₁) :
    ∃ d₁, d.create c = .ok d₁ ∧ Within e₁ d₁ ∧ Within d₁ f := by
  cases c with
  | table name columns => exact hed.createTable hdf he₁f hf h
  | index name table columns => exact hed.createIndex hdf he₁f hf h

/-- A new version is recorded on `d` as on `e`. -/
theorem record (hed : Within e d) (hdf : Within d f) {version : Int} {name : String}
    (h : e.record version name = .ok e₁) (hnew : version ∉ d.versions) :
    ∃ d₁, d.record version name = .ok d₁ ∧ Within e₁ d₁ ∧ Within d₁ f := by
  obtain ⟨t, ht, -, rfl⟩ := record_cases h
  obtain ⟨t', ht', hcolumns⟩ := hed.tables schemaMigrations t ht
  obtain ⟨t'', ht'', hcolumns'⟩ := hdf.tables schemaMigrations t' ht'
  refine ⟨d.setTable schemaMigrations { t' with rows := t'.rows ++ [.applied version name] }, ?_,
    ?_, ?_⟩
  · simp only [SqliteFile.record, ht', if_neg hnew]
  · exact hed.setTable schemaMigrations hcolumns
  · exact hdf.setTable_left ht'' hcolumns'

/-- The statements of a script, where they succeed on `e`. -/
theorem creates (hf : Separate f) (cs : List Create) : ∀ (e d : SqliteFile ρ) (limit : Nat),
    Within e d → Within d f → executeAll (cs.map .create) e = (e₁, none) → Within e₁ f →
    ∃ d₁, executeAll ((cs.map .create).take limit) d = (d₁, none) ∧ Within d₁ f ∧
      (cs.length ≤ limit → Within e₁ d₁) := by
  induction cs with
  | nil =>
    intro e d limit hed hdf hrun _
    cases hrun
    exact ⟨d, by rw [List.map_nil, List.take_nil]; rfl, hdf, fun _ => hed⟩
  | cons c cs ih =>
    intro e d limit hed hdf hrun he₁f
    obtain ⟨e₂, hcreate, hrest⟩ := executeAll_cons_none hrun
    -- The statement makes its object in `d`, or finds it there.
    obtain ⟨d₂, hd₂, he₂d₂, hd₂f⟩ :=
      hed.create hdf ((of_extends (extends_of_none hrest)).trans he₁f) hf hcreate
    cases limit with
    | zero =>
      refine ⟨d, rfl, hdf, fun hle => ?_⟩
      simp at hle
    | succ limit =>
      obtain ⟨d₁, hd₁, hd₁f, hlast⟩ := ih e₂ d₂ limit he₂d₂ hd₂f hrest he₁f
      have hd₂' : d.execute (.create c) = .ok d₂ := hd₂
      refine ⟨d₁, ?_, hd₁f, fun hle => hlast (by simpa using hle)⟩
      rw [List.map_cons, List.take_succ_cons, executeAll, hd₂']
      exact hd₁

/-- The script of a migration whose objects are there already. -/
theorem skipsAll (cs : List Create) : ∀ e d : SqliteFile ρ, Within e d → Within d f →
    executeAll (cs.map .create) e = (e₁, none) → Within e₁ f → (∀ c ∈ cs, Present d c) →
    Within e₁ d := by
  induction cs with
  | nil =>
    intro e d hed _ hrun _ _
    cases hrun
    exact hed
  | cons c cs ih =>
    intro e d hed hdf hrun he₁f hpresent
    obtain ⟨e₂, hcreate, hrest⟩ := executeAll_cons_none hrun
    have he₂d := hed.skips hdf ((of_extends (extends_of_none hrest)).trans he₁f) hcreate
      (hpresent c List.mem_cons_self)
    exact ih e₂ d he₂d hdf hrest he₁f fun x hx => hpresent x (List.mem_cons_of_mem _ hx)

/-- A migration, as far as it gets, where it succeeds on `e`. -/
theorem migration (hf : Separate f) {m : Migration} (limit : Nat) (hed : Within e d)
    (hdf : Within d f) (hrun : executeAll m.statements e = (e₁, none)) (he₁f : Within e₁ f)
    (hnew : m.version ∉ d.versions) :
    ∃ d₁, executeAll (m.statements.take limit) d = (d₁, none) ∧ Within d₁ f ∧
      (m.statements.length ≤ limit → Within e₁ d₁) := by
  obtain ⟨e₂, hcreates, hrecord⟩ := executeAll_append_none hrun
  obtain ⟨e₃, hok, hend⟩ := executeAll_cons_none hrecord
  cases hend
  have he₂f := (of_extends (Extends.of_record hok)).trans he₁f
  obtain ⟨d₂, hd₂, hd₂f, hlast⟩ := creates hf m.sql e d limit hed hdf hcreates he₂f
  by_cases hle : limit ≤ m.sql.length
  · refine ⟨d₂, ?_, hd₂f, fun hlimit => ?_⟩
    · rw [Migration.statements, List.take_append_of_le_length (by simpa using hle)]
      exact hd₂
    · simp only [Migration.statements, List.length_append, List.length_map,
        List.length_singleton] at hlimit
      omega
  -- The script is run as a whole, and its record follows.
  · have hall : (m.sql.map SqlStatement.create).take limit = m.sql.map .create :=
      List.take_of_length_le (by rw [List.length_map]; omega)
    have hversions := (executeAll_creates m.sql d).1
    rw [hall] at hd₂
    rw [hd₂] at hversions
    obtain ⟨d₁, hd₁, he₁d₁, hd₁f⟩ := (hlast (by omega)).record hd₂f hok (hversions ▸ hnew)
    refine ⟨d₁, ?_, hd₁f, fun _ => he₁d₁⟩
    have hd₁' : d₂.execute (.record m.version m.name) = .ok d₁ := hd₁
    rw [Migration.statements, List.take_of_length_le (by simp; omega), executeAll_append, hd₂]
    dsimp only
    rw [executeAll, hd₁']
    rfl

/-- A recorded migration is skipped without a difference. -/
theorem skipsMigration (hed : Within e d) (hdf : Within d f) {m : Migration}
    (hrun : executeAll m.statements e = (e₁, none)) (he₁f : Within e₁ f)
    (hpresent : ∀ c ∈ m.sql, Present d c) : Within e₁ d := by
  obtain ⟨e₂, hcreates, hrecord⟩ := executeAll_append_none hrun
  obtain ⟨e₃, hok, hend⟩ := executeAll_cons_none hrecord
  cases hend
  have he₂d := skipsAll m.sql e d hed hdf hcreates
    ((of_extends (Extends.of_record hok)).trans he₁f) hpresent
  obtain ⟨t, ht, -, rfl⟩ := record_cases hok
  obtain ⟨t', ht', hcolumns⟩ := he₂d.tables schemaMigrations t ht
  exact he₂d.setTable_left ht' hcolumns

/-- The loop, as far as it gets, where the whole list runs through on `e`. The migrations that
are recorded have their objects. The induction is on the migrations that are left. -/
theorem loop (hf : Separate f) (applied : List Int) (ms : List Migration) :
    ∀ (e d : SqliteFile ρ) (limit : Nat), Within e d → Within d f →
      executeAll (pending ms []) e = (f, none) → (ms.map (·.version)).Nodup →
      (∀ m ∈ ms, m.version ∈ applied → ∀ c ∈ m.sql, Present d c) →
      (∀ m ∈ ms, m.version ∉ applied → m.version ∉ d.versions) →
      ∃ d₁, executeAll ((pending ms applied).take limit) d = (d₁, none) ∧ Within d₁ f := by
  induction ms with
  | nil =>
    intro e d limit _ hdf _ _ _ _
    have hnil : (pending [] applied).take limit = [] := List.take_nil
    exact ⟨d, by rw [hnil]; rfl, hdf⟩
  | cons m ms ih =>
    intro e d limit hed hdf hrun hdistinct hpresent hnew
    rw [pending_cons, if_neg List.not_mem_nil] at hrun
    obtain ⟨e₁, hfirst, hrest⟩ := executeAll_append_none hrun
    have he₁f := of_extends (extends_of_none hrest)
    rw [List.map_cons, List.nodup_cons] at hdistinct
    rw [pending_cons]
    by_cases happlied : m.version ∈ applied
    · rw [if_pos happlied, List.nil_append]
      have he₁d := hed.skipsMigration hdf hfirst he₁f (hpresent m List.mem_cons_self happlied)
      exact ih e₁ d limit he₁d hdf hrest hdistinct.2
        (fun x hx => hpresent x (List.mem_cons_of_mem _ hx))
        (fun x hx => hnew x (List.mem_cons_of_mem _ hx))
    · rw [if_neg happlied, List.take_append, executeAll_append]
      obtain ⟨d₁, hd₁, hd₁f, hlast⟩ :=
        migration hf limit hed hdf hfirst he₁f (hnew m List.mem_cons_self happlied)
      rw [hd₁]
      by_cases hle : m.statements.length ≤ limit
      · rw [List.take_of_length_le hle] at hd₁
        have hversions := (migration_of_none hd₁).1
        refine ih e₁ d₁ _ (hlast hle) hd₁f hrest hdistinct.2 (fun x hx hx' c hc => ?_)
          (fun x hx hx' => ?_)
        · exact (extends_of_none hd₁).present (hpresent x (List.mem_cons_of_mem _ hx) hx' c hc)
        · rw [hversions, List.mem_append, List.mem_singleton]
          rintro (hmem | heq)
          · exact hnew x (List.mem_cons_of_mem _ hx) hx' hmem
          · exact hdistinct.1 (heq ▸ List.mem_map_of_mem hx)
      · -- The run is cut short within this migration.
        have hzero : limit - m.statements.length = 0 := by omega
        rw [hzero]
        exact ⟨d₁, rfl, hd₁f⟩

end Within

theorem Separate.create (h : Separate db) {c : Create} (hcreate : db.create c = .ok db') :
    Separate db' := by
  rcases create_cases hcreate with ⟨rfl, -⟩ | ⟨name, columns, rfl, -, hindex, rfl⟩ |
    ⟨name, table, columns, rfl, htable, -, rfl⟩
  · exact h
  · intro name' hname'
    by_cases hname : name' = name
    · subst hname
      exact hindex
    · rw [setTable_of_ne _ hname] at hname'
      exact h name' hname'
  · intro name' hname'
    have hname : name' ≠ name := by
      rintro rfl
      have hsome : (db.tables name').isSome := hname'
      simp [htable] at hsome
    rw [setIndex_of_ne _ hname]
    exact h name' hname'

theorem Separate.record (h : Separate db) {version : Int} {name : String}
    (hrecord : db.record version name = .ok db') : Separate db' := by
  obtain ⟨t, ht, -, rfl⟩ := record_cases hrecord
  intro name' hname'
  refine h name' ?_
  by_cases hname : name' = schemaMigrations
  · rw [hname, ht]
    rfl
  · rw [setTable_of_ne _ hname] at hname'
    exact hname'

theorem Separate.executeAll (statements : List SqlStatement) :
    ∀ db : SqliteFile ρ, Separate db → Separate (executeAll statements db).1 := by
  induction statements with
  | nil => exact fun db h => h
  | cons s statements ih =>
    intro db h
    rw [SqliteFile.executeAll]
    cases hs : db.execute s with
    | error e => exact h
    | ok db₁ =>
      refine ih db₁ ?_
      cases s with
      | create c => exact h.create hs
      | record version name => exact h.record hs

section
variable {ms : List Migration} {d f : SqliteFile ρ}

/-- A run on a new file leaves no name to a table and an index. -/
theorem separate_of_migrate (hrun : SqliteFile.empty.migrate ms = (f, none)) : Separate f := by
  obtain ⟨e, hcreate, -, hloop⟩ := migrate_parts hrun
  have hempty : Separate (SqliteFile.empty : SqliteFile ρ) := fun _ _ => rfl
  have hseparate := (hempty.create hcreate).executeAll
    (pending ms (SqliteFile.empty : SqliteFile ρ).versions)
  rw [hloop] at hseparate
  exact hseparate

/-- The loop of a run that is cut short, or not. It fails nowhere. -/
theorem Within.run (hrun : SqliteFile.empty.migrate ms = (f, none))
    (hdistinct : (ms.map (·.version)).Nodup) (hrecorded : Recorded ms d) (hdf : Within d f) :
    ∃ d₁, d.create createSchemaMigrations = .ok d₁ ∧ Within d₁ f ∧ ∀ limit, ∃ d₂,
      executeAll ((pending ms d₁.versions).take limit) d₁ = (d₂, none) ∧ Within d₂ f := by
  obtain ⟨e, hcreate, -, hloop⟩ := migrate_parts hrun
  have hf := separate_of_migrate hrun
  obtain ⟨d₁, hd₁, hed₁, hd₁f⟩ := (Within.of_empty d).create hdf
    (of_extends (extends_of_none hloop)) hf hcreate
  have hrecorded₁ := hrecorded.of_versions_eq (Extends.of_create hd₁) (versions_create hd₁)
  exact ⟨d₁, hd₁, hd₁f, fun limit => Within.loop hf d₁.versions ms e d₁ limit hed₁ hd₁f hloop
    hdistinct hrecorded₁.present fun _ _ hnot => hnot⟩

theorem Within.write (h : Within d f) (table : String) (rows : List ρ) :
    Within (d.write table rows) f := by
  unfold SqliteFile.write
  split
  · exact h
  · rename_i t ht
    split
    · exact h
    · obtain ⟨t', ht', hcolumns⟩ := h.tables table t ht
      exact h.setTable_left ht' hcolumns

theorem Within.after (hrun : SqliteFile.empty.migrate ms = (f, none))
    (hdistinct : (ms.map (·.version)).Nodup) (hrecorded : Recorded ms d) (hdf : Within d f)
    (e : FileEvent ρ) : Within (d.after ms e) f := by
  cases e with
  | writes table rows => exact hdf.write table rows
  | migrates limit =>
    cases limit with
    | zero => exact hdf
    | succ limit =>
      obtain ⟨d₁, hd₁, -, hloop⟩ := Within.run hrun hdistinct hrecorded hdf
      obtain ⟨d₂, hd₂, hd₂f⟩ := hloop limit
      rw [SqliteFile.after, migrateUpTo, hd₁]
      dsimp only
      rw [hd₂]
      exact hd₂f

/-- On every file that runs have left, a list that runs through on a new file runs through. -/
theorem Within.migrate (hrun : SqliteFile.empty.migrate ms = (f, none))
    (hdistinct : (ms.map (·.version)).Nodup) (events : List (FileEvent ρ)) :
    ((produced ms events).migrate ms).2 = none := by
  have hwithin : ∀ d : SqliteFile ρ, Recorded ms d → Within d f →
      Within (events.foldl (fun db e => db.after ms e) d) f := by
    induction events with
    | nil => exact fun d _ h => h
    | cons e events ih =>
      exact fun d hrecorded h => ih _ (hrecorded.after hdistinct e)
        (Within.after hrun hdistinct hrecorded h e)
  obtain ⟨d₁, hd₁, -, hloop⟩ := Within.run hrun hdistinct (recorded_produced hdistinct events)
    (hwithin _ .empty (Within.of_empty f))
  obtain ⟨d₂, hd₂, -⟩ := hloop (pending ms d₁.versions).length
  rw [List.take_length] at hd₂
  rw [SqliteFile.migrate, hd₁]
  dsimp only
  rw [hd₂]

end

/-! ### Crash safety -/

/-- What a run leaves that is not cut short: every object of every migration, every version
recorded once, the tables and rows there were, and nothing to do for another run. -/
structure Migrated (ms : List Migration) (db db' : SqliteFile ρ) : Prop where
  objects : ∀ m ∈ ms, ∀ c ∈ m.sql, Present db' c
  versions : db'.versions.Perm (ms.map (·.version))
  keeps : Extends db db'
  again : db'.migrate ms = (db', none)

/-- Whatever runs were cut short before, a recorded version has all its objects, and a run that
is not cut short completes the schema. On a list that runs through on a new file, no statement
of it fails. -/
theorem migrate_crashSafe (ms : List Migration) (hdistinct : (ms.map (·.version)).Nodup)
    (events : List (FileEvent ρ)) :
    (∀ m ∈ ms, m.version ∈ (produced ms events).versions →
      ∀ c ∈ m.sql, Present (produced ms events) c) ∧
    (∀ db', (produced ms events).migrate ms = (db', none) →
      Migrated ms (produced ms events) db') ∧
    (((SqliteFile.empty : SqliteFile ρ).migrate ms).2 = none →
      ((produced ms events).migrate ms).2 = none) := by
  have hrecorded := recorded_produced hdistinct events
  refine ⟨hrecorded.present, fun db' hrun => ?_, fun hnone => ?_⟩
  · obtain ⟨hobjects, hversions⟩ := hrecorded.migrate hdistinct hrun
    exact ⟨hobjects, hversions, extends_of_migrate hrun, migrate_again hrun hversions⟩
  · cases hrun : (SqliteFile.empty : SqliteFile ρ).migrate ms with
    | mk f failed =>
      rw [hrun] at hnone
      obtain rfl : failed = none := hnone
      exact Within.migrate hrun hdistinct events

/-- The migrations of a device that lost power in the third one, and then before its record. -/
theorem migrate_crashSafe_shipped :
    ∃ db', (produced migrations [.migrates 6, .writes "runtime_state" [1], .migrates 3]).migrate
        migrations = (db', none) ∧
      Migrated migrations
        (produced migrations [.migrates 6, .writes "runtime_state" [1], .migrates 3]) db' := by
  obtain ⟨-, hmigrated, hcompletes⟩ := migrate_crashSafe migrations (by decide)
    [.migrates 6, .writes "runtime_state" [1], .migrates 3]
  cases hrun : (produced migrations [.migrates 6, .writes "runtime_state" [1],
    .migrates 3]).migrate migrations with
  | mk db' failed =>
    rw [hrun] at hcompletes
    obtain rfl : failed = none := hcompletes (by decide)
    exact ⟨db', rfl, hmigrated db' hrun⟩

end EdgeSentinel.Proofs.Persistence
