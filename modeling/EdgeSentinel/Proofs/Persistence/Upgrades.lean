import Mathlib.Data.List.Induction
import EdgeSentinel.Proofs.Persistence.CrashSafety

/-!
# `EdgeSentinel.Proofs.Persistence.Upgrades`: a device that changes its release

`persistence/migrations.py` asks that a shipped migration is never edited, and that a new one is
added instead. The list of a release is then a first part of the list of the newest one. A device
may boot any of them, in any order, and lose power in any boot (`ReleaseEvent`).

`upgraded_like_new` says that no boot of any release fails, and that a complete boot of the newest
one leaves the schema of a new device. A boot of an older release is a boot of the newest one that
is cut short (`exists_limit`), so `Recorded` and `Within` hold of the file. The schema is determined
by `FromFirst`: the loop runs the scripts in order and a statement leaves an object that exists, so
an object is that of the first statement with its name.
-/

set_option autoImplicit false

namespace EdgeSentinel.Proofs.Persistence

open EdgeSentinel.Persistence
open EdgeSentinel.Persistence.SqliteFile

/-! ### Releases -/

/-- What happens to the file over the releases of the program. -/
inductive ReleaseEvent (ρ : Type) where
  /-- A run of `_migrate` in the release that has so many migrations. It gets to at most so many
  statements. -/
  | boots (release limit : Nat)
  | writes (table : String) (rows : List ρ)

variable {ρ : Type} {ms : List Migration} {db db' : SqliteFile ρ}

/-- The file after an event. `ms` is the list of the newest release. -/
def ReleaseEvent.after (ms : List Migration) (db : SqliteFile ρ) : ReleaseEvent ρ → SqliteFile ρ
  | .boots release limit => (db.migrateUpTo (ms.take release) limit).1
  | .writes table rows => db.write table rows

/-- The file of a device, from a new file on. -/
def released (ms : List Migration) (events : List (ReleaseEvent ρ)) : SqliteFile ρ :=
  events.foldl (ReleaseEvent.after ms) .empty

/-- A boot of an older release is one of the newest release that is cut short. -/
theorem exists_limit (ms : List Migration) (db : SqliteFile ρ) (release limit : Nat) :
    ∃ limit', db.migrateUpTo (ms.take release) limit = db.migrateUpTo ms limit' := by
  cases limit with
  | zero => exact ⟨0, rfl⟩
  | succ limit =>
    cases hcreate : db.create createSchemaMigrations with
    | error e =>
      refine ⟨1, ?_⟩
      rw [migrateUpTo, migrateUpTo, hcreate]
    | ok db₁ =>
      have hsplit : pending (ms.take release ++ ms.drop release) db₁.versions
          = pending (ms.take release) db₁.versions ++ pending (ms.drop release) db₁.versions :=
        List.flatMap_append
      rw [List.take_append_drop] at hsplit
      refine ⟨min limit (pending (ms.take release) db₁.versions).length + 1, ?_⟩
      rw [migrateUpTo, migrateUpTo, hcreate]
      dsimp only
      rw [hsplit, List.take_append_of_le_length (Nat.min_le_right _ _), ← List.take_eq_take_min]

/-- A complete boot is one of the newest release that is cut short, too. -/
theorem exists_limit_migrate (ms : List Migration) (db : SqliteFile ρ) (release : Nat) :
    ∃ limit, db.migrate (ms.take release) = db.migrateUpTo ms limit := by
  obtain ⟨limit, hlimit⟩ := migrate_older (ms.take release) (ms.drop release) db
  rw [List.take_append_drop] at hlimit
  exact ⟨limit, hlimit⟩

/-! ### The first statement with a name -/

/-- The columns of the first table with the name. -/
def firstTable (cs : List Create) (name : String) : Option (List String) :=
  cs.findSome? fun
    | .table name' columns => if name' = name then some columns else none
    | .index _ _ _ => none

/-- The first index with the name. -/
def firstIndex (cs : List Create) (name : String) : Option Index :=
  cs.findSome? fun
    | .table _ _ => none
    | .index name' table columns => if name' = name then some ⟨table, columns⟩ else none

/-- All `CREATE` statements of `_migrate`. -/
def creates (ms : List Migration) : List Create :=
  createSchemaMigrations :: ms.flatMap (·.sql)

section
variable {cs : List Create} {name : String} (hpresent : ∀ c ∈ cs, Present db c)
include hpresent

/-- No statement whose object is present makes a table that is absent. -/
theorem firstTable_eq_none (habsent : db.tables name = none) : firstTable cs name = none := by
  refine List.findSome?_eq_none_iff.mpr fun c hc => ?_
  have hobject := hpresent c hc
  cases c with
  | index name' table columns => rfl
  | table name' columns =>
    refine if_neg ?_
    rintro rfl
    simp [Present, habsent] at hobject

theorem firstIndex_eq_none (habsent : db.indexes name = none) : firstIndex cs name = none := by
  refine List.findSome?_eq_none_iff.mpr fun c hc => ?_
  have hobject := hpresent c hc
  cases c with
  | table name' columns => rfl
  | index name' table columns =>
    refine if_neg ?_
    rintro rfl
    simp [Present, habsent] at hobject

end

/-- The first statement of a name is the one after those whose objects are present. -/
theorem firstTable_of_absent {before after : List Create} {name : String} {columns : List String}
    (hbefore : ∀ c ∈ before, Present db c) (habsent : db.tables name = none) :
    firstTable (before ++ .table name columns :: after) name = some columns := by
  have hnone := firstTable_eq_none hbefore habsent
  rw [firstTable] at hnone
  rw [firstTable, List.findSome?_append, hnone, Option.none_or]
  simp

theorem firstIndex_of_absent {before after : List Create} {name table : String}
    {columns : List String} (hbefore : ∀ c ∈ before, Present db c)
    (habsent : db.indexes name = none) :
    firstIndex (before ++ .index name table columns :: after) name = some ⟨table, columns⟩ := by
  have hnone := firstIndex_eq_none hbefore habsent
  rw [firstIndex] at hnone
  rw [firstIndex, List.findSome?_append, hnone, Option.none_or]
  simp

/-- Every object is that of the first statement with its name. -/
structure FromFirst (cs : List Create) (db : SqliteFile ρ) : Prop where
  tables : ∀ name t, db.tables name = some t → firstTable cs name = some t.columns
  indexes : ∀ name i, db.indexes name = some i → firstIndex cs name = some i

namespace FromFirst

variable {cs before after : List Create}

theorem empty : FromFirst cs (SqliteFile.empty : SqliteFile ρ) where
  tables _ _ ht := by cases ht
  indexes _ _ hi := by cases hi

/-- Rows do not matter. -/
theorem setTable (h : FromFirst cs db) {name : String} {t t' : Table ρ}
    (ht : db.tables name = some t) (hcolumns : t'.columns = t.columns) :
    FromFirst cs (db.setTable name t') := by
  refine ⟨fun name' x hx => ?_, h.indexes⟩
  by_cases hname : name' = name
  · subst hname
    rw [setTable_self] at hx
    obtain rfl := Option.some.inj hx
    rw [hcolumns]
    exact h.tables name' t ht
  · rw [setTable_of_ne _ hname] at hx
    exact h.tables name' x hx

/-- A statement, when the objects of those before it are present. -/
theorem create (h : FromFirst cs db) {c : Create} (hcs : cs = before ++ c :: after)
    (hbefore : ∀ x ∈ before, Present db x) (hcreate : db.create c = .ok db') :
    FromFirst cs db' := by
  rcases create_cases hcreate with ⟨rfl, -⟩ | ⟨name, columns, rfl, htable, -, rfl⟩ |
    ⟨name, table, columns, rfl, -, hindex, rfl⟩
  · exact h
  · refine ⟨fun name' x hx => ?_, h.indexes⟩
    by_cases hname : name' = name
    · subst hname
      rw [setTable_self] at hx
      obtain rfl := Option.some.inj hx
      rw [hcs]
      exact firstTable_of_absent hbefore htable
    · rw [setTable_of_ne _ hname] at hx
      exact h.tables name' x hx
  · refine ⟨h.tables, fun name' i hi => ?_⟩
    by_cases hname : name' = name
    · subst hname
      rw [setIndex_self] at hi
      obtain rfl := Option.some.inj hi
      rw [hcs]
      exact firstIndex_of_absent hbefore hindex
    · rw [setIndex_of_ne _ hname] at hi
      exact h.indexes name' i hi

/-- A script, when the objects of the scripts before it are present. -/
theorem script (sql : List Create) : ∀ (before : List Create) (db : SqliteFile ρ),
    cs = before ++ sql ++ after → (∀ x ∈ before, Present db x) → FromFirst cs db →
    FromFirst cs (executeAll (sql.map .create) db).1 := by
  induction sql with
  | nil => exact fun _ _ _ _ h => h
  | cons c sql ih =>
    intro before db hcs hbefore h
    rw [List.map_cons, executeAll]
    cases hcreate : db.execute (.create c) with
    | error e => exact h
    | ok db₁ =>
      have hcreate' : db.create c = .ok db₁ := hcreate
      have hcs' : cs = before ++ c :: (sql ++ after) := by
        rw [hcs, List.append_assoc, List.cons_append]
      refine ih (before ++ [c]) db₁ (by rw [hcs]; simp) (fun x hx => ?_)
        (h.create hcs' hbefore hcreate')
      rcases List.mem_append.mp hx with hx | hx
      · exact (Extends.of_create hcreate').present (hbefore x hx)
      · obtain rfl := List.mem_singleton.mp hx
        exact present_of_create hcreate'

/-- A migration, wherever it is cut short. -/
theorem migration (h : FromFirst cs db) (m : Migration) (limit : Nat)
    (hcs : cs = before ++ m.sql ++ after) (hbefore : ∀ x ∈ before, Present db x) :
    FromFirst cs (executeAll (m.statements.take limit) db).1 := by
  by_cases hlimit : limit ≤ m.sql.length
  · rw [Migration.statements, List.take_append_of_le_length (by simpa using hlimit),
      ← List.map_take]
    have hcs' : cs = before ++ m.sql.take limit ++ (m.sql.drop limit ++ after) := by
      rw [hcs, List.append_assoc, List.append_assoc, ← List.append_assoc (m.sql.take limit),
        List.take_append_drop]
    exact script _ before db hcs' hbefore h
  · rw [List.take_of_length_le (by rw [Migration.statements]; simp; omega), Migration.statements,
      executeAll_append]
    have hscript := script m.sql before db hcs hbefore h
    cases hrun : executeAll (m.sql.map .create) db with
    | mk db₁ failed =>
      rw [hrun] at hscript
      cases failed with
      | some e => exact hscript
      | none =>
        dsimp only
        rw [executeAll]
        cases hrecord : db₁.execute (.record m.version m.name) with
        | error e => exact hscript
        | ok db₂ =>
          obtain ⟨t, ht, -, rfl⟩ := record_cases hrecord
          exact hscript.setTable ht rfl

/-- The loop, wherever it is cut short. The recorded migrations have their objects. The induction
is on the migrations that are left. -/
theorem loop (applied : List Int) (ms : List Migration) :
    ∀ (before : List Create) (db : SqliteFile ρ) (limit : Nat),
      cs = before ++ ms.flatMap (·.sql) → (∀ x ∈ before, Present db x) →
      (∀ m ∈ ms, m.version ∈ applied → ∀ c ∈ m.sql, Present db c) → FromFirst cs db →
      FromFirst cs (executeAll ((pending ms applied).take limit) db).1 := by
  induction ms with
  | nil =>
    intro before db limit _ _ _ h
    have hnil : (pending [] applied).take limit = [] := List.take_nil
    rw [hnil]
    exact h
  | cons m ms ih =>
    intro before db limit hcs hbefore hpresent h
    have hcs' : cs = before ++ m.sql ++ ms.flatMap (·.sql) := by
      rw [hcs, List.flatMap_cons, List.append_assoc]
    -- What is present is still present in a later file.
    have hlater : ∀ db₁ : SqliteFile ρ, Extends db db₁ → (∀ c ∈ m.sql, Present db₁ c) →
        ∀ x ∈ before ++ m.sql, Present db₁ x := by
      intro db₁ hextends hsql x hx
      rcases List.mem_append.mp hx with hx | hx
      · exact hextends.present (hbefore x hx)
      · exact hsql x hx
    rw [pending_cons]
    by_cases happlied : m.version ∈ applied
    · rw [if_pos happlied, List.nil_append]
      exact ih _ db limit hcs'
        (hlater db (Extends.refl db) (hpresent m List.mem_cons_self happlied))
        (fun x hx => hpresent x (List.mem_cons_of_mem _ hx)) h
    · rw [if_neg happlied, List.take_append, executeAll_append]
      have hmigration := h.migration m limit hcs' hbefore
      split
      · rename_i db₁ hrun
        rw [hrun] at hmigration
        by_cases hle : m.statements.length ≤ limit
        · rw [List.take_of_length_le hle] at hrun
          have hextends := extends_of_none hrun
          exact ih _ db₁ _ hcs' (hlater db₁ hextends (migration_of_none hrun).2)
            (fun x hx hx' c hc =>
              hextends.present (hpresent x (List.mem_cons_of_mem _ hx) hx' c hc)) hmigration
        · -- The run is cut short within this migration.
          have hzero : limit - m.statements.length = 0 := by omega
          rw [hzero]
          exact hmigration
      · rename_i db₁ e hrun
        rw [hrun] at hmigration
        exact hmigration

/-- The tables of a file in which no object is missing. -/
theorem tables_eq (h : FromFirst cs db) (hall : ∀ c ∈ cs, Present db c) (name : String) :
    (db.tables name).map (·.columns) = firstTable cs name := by
  cases htable : db.tables name with
  | some t => exact (h.tables name t htable).symm
  | none => exact (firstTable_eq_none hall htable).symm

theorem indexes_eq (h : FromFirst cs db) (hall : ∀ c ∈ cs, Present db c) (name : String) :
    db.indexes name = firstIndex cs name := by
  cases hindex : db.indexes name with
  | some i => exact (h.indexes name i hindex).symm
  | none => exact (firstIndex_eq_none hall hindex).symm

end FromFirst

/-! ### The file of a device -/

/-- What every boot and every write keeps. The list of the newest release runs through on a new
file and leaves `f`. -/
structure Underway (ms : List Migration) (f db : SqliteFile ρ) : Prop where
  recorded : Recorded ms db
  within : Within db f
  fromFirst : FromFirst (creates ms) db

namespace Underway

variable {f : SqliteFile ρ}

theorem empty : Underway ms f (.empty : SqliteFile ρ) := ⟨.empty, Within.of_empty f, .empty⟩

/-- No boot fails. -/
theorem boots (h : Underway ms f db) (hnew : SqliteFile.empty.migrate ms = (f, none))
    (hdistinct : (ms.map (·.version)).Nodup) (limit : Nat) :
    (db.migrateUpTo ms limit).2 = none := by
  cases limit with
  | zero => rfl
  | succ limit =>
    obtain ⟨d₁, hd₁, -, hloop⟩ := Within.run hnew hdistinct h.recorded h.within
    obtain ⟨d₂, hd₂, -⟩ := hloop limit
    rw [migrateUpTo, hd₁]
    dsimp only
    rw [hd₂]

/-- The objects after a boot are those of the first statements. -/
theorem fromFirst_migrateUpTo (h : Underway ms f db) (limit : Nat) :
    FromFirst (creates ms) (db.migrateUpTo ms limit).1 := by
  cases limit with
  | zero => exact h.fromFirst
  | succ limit =>
    rw [migrateUpTo]
    cases hcreate : db.create createSchemaMigrations with
    | error e => exact h.fromFirst
    | ok db₁ =>
      have hextends := Extends.of_create hcreate
      have hfirst : ∀ x ∈ [createSchemaMigrations], Present db₁ x := by
        intro x hx
        obtain rfl := List.mem_singleton.mp hx
        exact present_of_create hcreate
      have hcreated : FromFirst (creates ms) db₁ :=
        h.fromFirst.create (List.nil_append _).symm (by simp) hcreate
      have hrecorded := h.recorded.of_versions_eq hextends (versions_create hcreate)
      exact FromFirst.loop db₁.versions ms [createSchemaMigrations] db₁ limit rfl hfirst
        hrecorded.present hcreated

theorem fromFirst_write (h : FromFirst (creates ms) db) (table : String) (rows : List ρ) :
    FromFirst (creates ms) (db.write table rows) := by
  unfold SqliteFile.write
  split
  · exact h
  · rename_i t ht
    split
    · exact h
    · exact h.setTable ht rfl

theorem after (h : Underway ms f db) (hnew : SqliteFile.empty.migrate ms = (f, none))
    (hdistinct : (ms.map (·.version)).Nodup) (e : ReleaseEvent ρ) :
    Underway ms f (e.after ms db) := by
  cases e with
  | writes table rows =>
    exact ⟨h.recorded.write table rows, h.within.write table rows,
      fromFirst_write h.fromFirst table rows⟩
  | boots release limit =>
    obtain ⟨limit', hlimit⟩ := exists_limit ms db release limit
    have hafter : ReleaseEvent.after ms db (.boots release limit)
        = db.after ms (.migrates limit') := congrArg Prod.fst hlimit
    rw [hafter]
    exact ⟨h.recorded.after hdistinct _, Within.after hnew hdistinct h.recorded h.within _,
      h.fromFirst_migrateUpTo limit'⟩

theorem of_released (hnew : SqliteFile.empty.migrate ms = (f, none))
    (hdistinct : (ms.map (·.version)).Nodup) (events : List (ReleaseEvent ρ)) :
    Underway ms f (released ms events) := by
  induction events using List.reverseRecOn with
  | nil => exact empty
  | append_singleton events e ih =>
    rw [released, List.foldl_append]
    exact ih.after hnew hdistinct e

/-- What a complete boot of the newest release leaves. -/
theorem fromFirst_migrate (h : Underway ms f db) : FromFirst (creates ms) (db.migrate ms).1 := by
  obtain ⟨limit, hlimit⟩ := exists_limit_migrate ms db ms.length
  rw [List.take_length] at hlimit
  rw [hlimit]
  exact h.fromFirst_migrateUpTo limit

theorem present_migrate (h : Underway ms f db) (hdistinct : (ms.map (·.version)).Nodup)
    (hrun : db.migrate ms = (db', none)) : ∀ c ∈ creates ms, Present db' c := by
  intro c hc
  rcases List.mem_cons.mp hc with rfl | hc
  · obtain ⟨db₁, hcreate, -, hloop⟩ := migrate_parts hrun
    exact (extends_of_none hloop).present (present_of_create hcreate)
  · obtain ⟨m, hm, hc⟩ := List.mem_flatMap.mp hc
    exact (h.recorded.migrate hdistinct hrun).1 m hm c hc

end Underway

/-! ### Upgrades -/

/-- The same tables with the same columns, and the same indexes. -/
structure SameSchema (db db' : SqliteFile ρ) : Prop where
  tables : ∀ name, (db.tables name).map (·.columns) = (db'.tables name).map (·.columns)
  indexes : ∀ name, db.indexes name = db'.indexes name

/-- A release in which a shipped migration was edited runs no statement of it. -/
theorem migrate_edited (hrun : db.migrate ms = (db', none))
    (hversions : db'.versions.Perm (ms.map (·.version))) {edited : List Migration}
    (hshipped : ∀ m ∈ edited, m.version ∈ ms.map (·.version)) :
    db'.migrate edited = (db', none) := by
  obtain ⟨db₁, hcreate, -, hloop⟩ := migrate_parts hrun
  have htable : (db'.tables schemaMigrations).isSome :=
    (extends_of_none hloop).present (present_of_create hcreate)
  have hfound : db'.create createSchemaMigrations = .ok db' := by
    simp only [createSchemaMigrations, SqliteFile.create, htable, if_true]
  rw [migrate, hfound]
  dsimp only
  rw [pending_eq_nil fun m hm => hversions.mem_iff.mpr (hshipped m hm)]
  rfl

/-- The schema of a device does not depend on its past. Whichever releases it has booted, in any
order, and wherever these boots were cut short: no boot of any release fails, and a complete boot
of the newest release leaves the schema that it leaves on a new device, with every row there was.
After it, a list of the same versions changes nothing, whatever its scripts are. -/
theorem upgraded_like_new (ms : List Migration) (hdistinct : (ms.map (·.version)).Nodup)
    (f : SqliteFile ρ) (hnew : SqliteFile.empty.migrate ms = (f, none))
    (events : List (ReleaseEvent ρ)) :
    (∀ release, ((released ms events).migrate (ms.take release)).2 = none) ∧
    ∃ db', (released ms events).migrate ms = (db', none) ∧ SameSchema db' f ∧
      Migrated ms (released ms events) db' ∧
      ∀ edited : List Migration, (∀ m ∈ edited, m.version ∈ ms.map (·.version)) →
        db'.migrate edited = (db', none) := by
  have hunderway := Underway.of_released hnew hdistinct events
  have hboots : ∀ release, ((released ms events).migrate (ms.take release)).2 = none := by
    intro release
    obtain ⟨limit, hlimit⟩ := exists_limit_migrate ms (released ms events) release
    rw [hlimit]
    exact hunderway.boots hnew hdistinct limit
  refine ⟨hboots, ?_⟩
  have hnone := hboots ms.length
  rw [List.take_length] at hnone
  cases hrun : (released ms events).migrate ms with
  | mk db' failed =>
    rw [hrun] at hnone
    obtain rfl : failed = none := hnone
    -- Both files have the objects of the first statements.
    have hempty : Underway ms f (.empty : SqliteFile ρ) := .empty
    have hfirst := hunderway.fromFirst_migrate
    have hfirst' := hempty.fromFirst_migrate
    rw [hrun] at hfirst
    rw [hnew] at hfirst'
    have hall := hunderway.present_migrate hdistinct hrun
    have hall' := hempty.present_migrate hdistinct hnew
    have hschema : SameSchema db' f := by
      refine ⟨fun name => ?_, fun name => ?_⟩
      · exact (hfirst.tables_eq hall name).trans (hfirst'.tables_eq hall' name).symm
      · exact (hfirst.indexes_eq hall name).trans (hfirst'.indexes_eq hall' name).symm
    obtain ⟨hobjects, hversions⟩ := hunderway.recorded.migrate hdistinct hrun
    exact ⟨db', rfl, hschema,
      ⟨hobjects, hversions, extends_of_migrate hrun, migrate_again hrun hversions⟩,
      fun edited hshipped => migrate_edited hrun hversions hshipped⟩

/-- The device boots the release with two migrations, loses power in the newest one, and goes back
to the release with three. -/
def wentBack : List (ReleaseEvent Nat) :=
  [.boots 2 9, .writes "runtime_state" [1], .boots 4 3, .boots 3 9]

theorem upgraded_like_new_wentBack :
    ∃ db', (released migrations wentBack).migrate migrations = (db', none) ∧
      SameSchema db' ((SqliteFile.empty : SqliteFile Nat).migrate migrations).1 := by
  have hnew : (SqliteFile.empty : SqliteFile Nat).migrate migrations
      = (((SqliteFile.empty : SqliteFile Nat).migrate migrations).1, none) :=
    Prod.ext rfl (by decide)
  obtain ⟨-, db', hrun, hschema, -⟩ :=
    upgraded_like_new migrations (by decide) _ hnew wentBack
  exact ⟨db', hrun, hschema⟩

end EdgeSentinel.Proofs.Persistence
