import DataAccess.Compile.AdapterCode
import DataAccess.Proofs.Database.Upserting
import DataAccess.Proofs.Storage.Leasing
import DataAccess.Storage.Table

/-!
This module contains what becomes of rows that are upserted into a table with a key and, in one case, a
second unique column. The insertion may be kept from inserting a row by another row than the one that the
update looks for. Main statement: a row whose upsert succeeds is in the table, unless its key was not there
and another row had its unique value.
-/

namespace DataAccess

namespace Storage

namespace Tables

variable (d : Tables) (t : Table)

theorem get_set (rows : List Row) : (d.set rows t).get t = rows := by
  cases t with
  | _ => rfl

theorem mem_insertRow (row : Row) (rows : List Row) : row ∈ insertRow row rows := by
  induction rows with
  | nil => exact List.mem_singleton_self row
  | cons r rest ih =>
    unfold insertRow
    split
    . exact List.mem_cons_self
    . exact List.mem_cons_of_mem r ih

def Taken (row : Row) : Prop :=
  ∃ r ∈ d.get t, r.id = row.id ∨ collidesIn t (storable row.v) r = true

def Misses (row : Row) : Prop :=
  (∀ r ∈ d.get t, r.id ≠ row.id) ∧ ∃ r ∈ d.get t, collidesIn t (storable row.v) r = true

variable {d t} in
theorem Misses.taken {row : Row} (h : d.Misses t row) : d.Taken t row :=
  h.2.imp fun _ ⟨hr, hcollides⟩ => ⟨hr, Or.inr hcollides⟩

theorem putAt_cases (row : Row)
    : let effect := d.putAt t row.id row.v .abort
      (¬d.Taken t row ∧ effect.result = .ok 1 ∧ ⟨row.id, storable row.v⟩ ∈ effect.data.get t) ∨
        (d.Taken t row ∧ (∃ m, effect.result = .error (.uniqueConstraint m)) ∧ effect.data = d ∧
          effect.undoesTransaction = false) := by
  unfold putAt Taken
  dsimp only
  cases hid : (d.get t).any (·.id == row.id) with
  | true =>
    obtain ⟨r, hr, hsame⟩ := List.any_eq_true.1 hid
    exact Or.inr ⟨⟨r, hr, Or.inl (eq_of_beq hsame)⟩, ⟨_, rfl⟩, rfl, rfl⟩
  | false =>
    cases hv : (d.get t).any (collidesIn t (storable row.v)) with
    | true =>
      obtain ⟨r, hr, hcollides⟩ := List.any_eq_true.1 hv
      exact Or.inr ⟨⟨r, hr, Or.inr hcollides⟩, ⟨_, rfl⟩, rfl, rfl⟩
    | false =>
      refine Or.inl ⟨?_, rfl, ?_⟩
      . rintro ⟨r, hr, hsame | hcollides⟩
        . exact List.any_eq_false.1 hid r hr (beq_iff_eq.2 hsame)
        . exact List.any_eq_false.1 hv r hr hcollides
      . change _ ∈ (d.set _ t).get t
        rw [get_set]
        exact mem_insertRow _ _

theorem update_cases (row : Row)
    : let effect := d.update t (.integer row.id) row.v .abort
      ((∀ r ∈ d.get t, r.id ≠ row.id) ∧ effect.result = .ok 0 ∧ effect.data = d) ∨
        ((∃ r ∈ d.get t, r.id = row.id) ∧ effect.result = .ok 1 ∧
          ⟨row.id, storable row.v⟩ ∈ effect.data.get t) ∨
        ∃ f, effect.result = .error f := by
  unfold update
  dsimp only
  cases hfound : (d.get t).find? fun r => whole? (.integer row.id) == some r.id with
  | none =>
    refine Or.inl ⟨?_, rfl, rfl⟩
    intro r hr hid
    have hne := List.find?_eq_none.1 hfound r hr
    rw [hid] at hne
    exact hne (beq_self_eq_true (some row.id))
  | some r =>
    have hsame : (some row.id == some r.id) = true :=
      List.find?_some (p := fun r : Row => some row.id == some r.id) hfound
    have hid : row.id = r.id := Option.some.inj (eq_of_beq hsame)
    have hr : r ∈ d.get t := List.mem_of_find?_eq_some hfound
    right
    dsimp only
    cases hv : (d.get t).any fun r' => r'.id != r.id && collidesIn t (storable row.v) r' with
    | true => exact Or.inr ⟨_, rfl⟩
    | false =>
      refine Or.inl ⟨⟨r, hr, hid.symm⟩, rfl, ?_⟩
      change _ ∈ (d.set _ t).get t
      rw [get_set]
      refine List.mem_map.2 ⟨r, List.mem_filter.2 ⟨hr, ?_⟩, ?_⟩
      . simp
      . simp [hid]

end Tables

namespace Table

def rowEntity (t : Table) : Entity where
  name := "Row"
  table := t.name
  fields := [⟨"id", "id", false, none⟩, ⟨"v", "v", true, none⟩]
  primaryKey := ["id"]
  projectionOf := none

def insertSql (t : Table) : String :=
  AdapterSql.insert t.rowEntity t.name none

def updateSql (t : Table) : String :=
  AdapterSql.update t.rowEntity t.name none

/-- What the statements of an upsert do, when their slots are bound. The key that is set is the one that is
looked for. -/
def command? (t : Table) (s : Statement) : Option Command :=
  if s.sql = t.insertSql then
    match s.bindings with
    | [id, v] => some (.put t id v .abort)
    | _ => none
  else if s.sql = t.updateSql then
    match s.bindings with
    | [_, v, id] => some (.set t id v .abort)
    | _ => none
  else none

def upsertMeaning (t : Table) : Meaning Tables Statement where
  write s d :=
    match t.command? s with
    | some command => d.write command
    | none => d.failed (.engine "not an error")
  read _ _ := .ok ([], [])
  check := Tables.check

def upserting (t : Table) (insertion update : Nat) : UpsertAdapter Row where
  insertion := ⟨t.name, insertion, fun r s => (s.bind 1 (.integer r.id)).bind 2 r.v⟩
  update := ⟨t.name, update, fun r s => ((s.bind 1 (.integer r.id)).bind 2 r.v).bind 3 (.integer r.id)⟩

/-- Both statements of an adapter are prepared, and no slot beyond the declared ones was bound in them. -/
structure Prepared (t : Table) (insertion update : Nat) (statements : List SharedStatement) : Prop where
  distinct : insertion ≠ update
  insertion : Holds statements insertion t.insertSql 2
  update : Holds statements update t.updateSql 3

/-- What an upsert that succeeds comes to in the table: a row that is not stored is one that the table misses,
and the table stays as it is. -/
structure Accounts (t : Table) (row : Row) (before : Tables) (fate : UpsertAdapter.Fate)
    (after : Tables) : Prop where
  missed_iff : ¬fate.Stored ↔ before.Misses t row
  stored : fate.Stored → ⟨row.id, storable row.v⟩ ∈ after.get t
  unchanged : ¬fate.Stored → after = before

theorem updateSql_ne_insertSql (t : Table) : t.updateSql ≠ t.insertSql := by
  cases t with
  | _ => decide +kernel

theorem write_insertSql (t : Table) (row : Row) (d : Tables)
    : t.upsertMeaning.write ⟨t.insertSql, [.integer row.id, row.v]⟩ d
        =
      d.putAt t row.id row.v .abort := by
  unfold upsertMeaning command?
  dsimp only
  rw [if_pos rfl]
  rfl

theorem write_updateSql (t : Table) (row : Row) (d : Tables)
    : t.upsertMeaning.write ⟨t.updateSql, [.integer row.id, row.v, .integer row.id]⟩ d
        =
      d.update t (.integer row.id) row.v .abort := by
  unfold upsertMeaning command?
  dsimp only
  rw [if_neg t.updateSql_ne_insertSql, if_pos rfl]
  rfl

theorem write_eq_uniqueConstraint {t : Table} {q : Statement} {c : Connection Tables} {m : String}
    (h : (c.write t.upsertMeaning q).1 = .error (.uniqueConstraint m))
    : (t.upsertMeaning.write q c.data).result = .error (.uniqueConstraint m) := by
  rcases Connection.effect_of_write_eq_error h with heffect | hcheck
  . exact heffect
  . change Tables.check _ = _ at hcheck
    unfold Tables.check at hcheck
    dsimp only at hcheck
    split at hcheck
    . cases hcheck
    . cases hcheck

section

variable {t : Table} {thread insertion update : Nat} {db : Database (Store (Connection Tables))}
  {row : Row} {fate : UpsertAdapter.Fate} {after : Database (Store (Connection Tables))}

theorem Prepared.bound? (h : t.Prepared insertion update db.statements) (row : Row)
    : (t.upserting insertion update).insertion.bound? row db
          = some ⟨t.insertSql, [.integer row.id, row.v]⟩ ∧
        (t.upserting insertion update).update.bound? row db
          = some ⟨t.updateSql, [.integer row.id, row.v, .integer row.id]⟩ := by
  constructor
  . obtain ⟨s, hs, hfits⟩ := h.insertion
    change db.statements[insertion]?.map _ = _
    rw [hs, Option.map_some]
    change some (((s.acquire.1.statement).bind 1 _).bind 2 _) = _
    rw [hfits.statement_acquire]
    rfl
  . obtain ⟨s, hs, hfits⟩ := h.update
    change db.statements[update]?.map _ = _
    rw [hs, Option.map_some]
    change some ((((s.acquire.1.statement).bind 1 _).bind 2 _).bind 3 _) = _
    rw [hfits.statement_acquire]
    rfl

theorem Prepared.inserted (h : t.Prepared insertion update db.statements) (thread : Nat) (row : Row)
    : let tried := ((t.upserting insertion update).insertion.insert
        (Store.engine (Connection.link t.upsertMeaning) thread) row db).2
      tried.store.connection
          = (db.store.connection.write t.upsertMeaning ⟨t.insertSql, [.integer row.id, row.v]⟩).2.2 ∧
        t.Prepared insertion update tried.statements := by
  have hbind (s : Statement) (hs : s.Fits t.insertSql 2)
      : (((s.bind 1 (.integer row.id)).bind 2 row.v)).Fits t.insertSql 2 :=
    (hs.bind (by decide) _).bind (by decide) _
  obtain ⟨hconnection, hholds, hothers⟩ :=
    Database.leasing_writes _ (Database.writes_insert _ thread [t.name]) hbind h.insertion
  exact ⟨hconnection, h.distinct, hholds, hothers _ _ _ h.distinct.symm h.update⟩

theorem Prepared.updated (h : t.Prepared insertion update db.statements) (thread : Nat) (row : Row)
    : let tried := ((t.upserting insertion update).update.handle
        (Store.engine (Connection.link t.upsertMeaning) thread) row db).2
      tried.store.connection
          = (db.store.connection.write t.upsertMeaning
              ⟨t.updateSql, [.integer row.id, row.v, .integer row.id]⟩).2.2 ∧
        t.Prepared insertion update tried.statements := by
  have hbind (s : Statement) (hs : s.Fits t.updateSql 3)
      : ((((s.bind 1 (.integer row.id)).bind 2 row.v)).bind 3 (.integer row.id)).Fits t.updateSql 3 :=
    ((hs.bind (by decide) _).bind (by decide) _).bind (by decide) _
  obtain ⟨hconnection, hholds, hothers⟩ :=
    Database.leasing_writes _ (Database.writes_execute _ thread [t.name]) hbind h.update
  exact ⟨hconnection, h.distinct, hothers _ _ _ h.distinct h.insertion, hholds⟩

theorem Prepared.fares (h : t.Prepared insertion update db.statements)
    (hfares : (t.upserting insertion update).Fares (Store.engine (Connection.link t.upsertMeaning) thread)
      row db fate after)
    : t.Accounts row db.store.connection.data fate after.store.connection.data ∧
        t.Prepared insertion update after.statements := by
  have hput := db.store.connection.data.putAt_cases t row
  dsimp only at hput
  rw [← write_insertSql] at hput
  obtain ⟨htried, hprepared⟩ := h.inserted thread row
  cases fate with
  | inserted id =>
    obtain ⟨s, hs, hr, rfl⟩ := hfares
    obtain rfl := Option.some.inj (hs.symm.trans (h.bound? row).1)
    obtain ⟨n, hn⟩ := (Store.insert_eq _ _ _).1.1 ⟨id, hr⟩
    obtain ⟨heffect, hdata⟩ := Connection.effect_of_write_eq_ok hn
    rcases hput with ⟨hfree, _, hmem⟩ | ⟨_, ⟨m, hm⟩, _⟩
    . rw [← hdata, ← htried] at hmem
      refine ⟨⟨?_, fun _ => hmem, fun hnot => absurd trivial hnot⟩, hprepared⟩
      exact ⟨fun hnot => absurd trivial hnot, fun hmisses => absurd hmisses.taken hfree⟩
    . cases hm.symm.trans heffect
  | updated conflict rows =>
    obtain ⟨s, hs, hr, s', hs', hr', rfl⟩ := hfares
    obtain rfl := Option.some.inj (hs.symm.trans (h.bound? row).1)
    obtain rfl := Option.some.inj (hs'.symm.trans (hprepared.bound? row).2)
    have heffect := write_eq_uniqueConstraint (((Store.insert_eq _ _ _).2 _).1 hr)
    obtain ⟨hupdated, hprepared'⟩ := hprepared.updated thread row
    obtain ⟨heffect', hdata⟩ := Connection.effect_of_write_eq_ok hr'
    rcases hput with ⟨_, hok, _⟩ | ⟨htaken, _, hsame, hundoes⟩
    . cases hok.symm.trans heffect
    . have hbefore := Connection.data_write_of_unchanged hsame hundoes
      rw [← htried] at hbefore
      rw [write_updateSql, hbefore] at heffect' hdata
      refine ⟨?_, hprepared'⟩
      rw [hupdated, hdata]
      rcases db.store.connection.data.update_cases t row with
        ⟨hmissing, hzero, hdata⟩ | ⟨⟨r, hr, hid⟩, hone, hmem⟩ | ⟨f, hf⟩
      . obtain rfl : 0 = rows := Except.ok.inj (hzero.symm.trans heffect')
        obtain ⟨r, hr, hid | hcollides⟩ := htaken
        . exact absurd hid (hmissing r hr)
        . exact ⟨⟨fun _ => ⟨hmissing, r, hr, hcollides⟩, fun _ => Nat.lt_irrefl 0⟩,
            fun hstored => absurd hstored (Nat.lt_irrefl 0), fun _ => hdata⟩
      . obtain rfl : 1 = rows := Except.ok.inj (hone.symm.trans heffect')
        have hstored : (UpsertAdapter.Fate.updated conflict 1).Stored := Nat.one_pos
        refine ⟨⟨fun hnot => absurd hstored hnot, fun hmisses => ?_⟩, fun _ => hmem,
          fun hnot => absurd hstored hnot⟩
        exact absurd hid (hmisses.1 r hr)
      . cases hf.symm.trans heffect'

end

end Table

end Storage

namespace UpsertAdapter

open Storage (Connection Store Table Tables)

/-- Upserting one entity or several succeeds if and only if each of them was inserted, or a unique column
kept it from that and its update succeeded, whether that changed a row or not. Each answer is the new
identifier, or `-1`. In a table, a row whose upsert succeeds is there afterwards if and only if its key was
there before or no other row had its unique value. Otherwise the table stays as it is. -/
theorem upserts_accounted (e : Engine σ Statement) (a : UpsertAdapter α) (single : Int64 → β)
    (batch : List Int64 → γ) (db after : Database σ)
    : (∀ entity answer,
        (single <$> a.upsert e entity) db = (.ok answer, after)
          ↔
        ∃ fate, a.Fares e entity db fate after ∧ single fate.answer = answer) ∧
      (∀ entities answer,
        (batch <$> a.upsertAll e entities) db = (.ok answer, after)
          ↔
        ∃ fates, InTurn (a.Fares e) entities db fates after ∧ batch (fates.map Fate.answer) = answer) ∧
      ∀ (t : Table) (thread insertion update : Nat) (rows : List Storage.Row)
        (before left : Database (Store (Connection Tables))) (fates : List Fate),
        let e := Store.engine (Connection.link t.upsertMeaning) thread
        let step := (t.upserting insertion update).Fares e
        t.Prepared insertion update before.statements →
          InTurn step rows before fates left →
          InTurn (fun row x fate y =>
              step row x fate y ∧
                t.Accounts row x.store.connection.data fate y.store.connection.data)
            rows before fates left ∧
            t.Prepared insertion update left.statements := by
  refine ⟨fun entity answer => ?_, fun entities answer => ?_, ?_⟩
  . rw [Operation.map_eq_ok_iff]
    constructor
    . rintro ⟨id, hupsert, hid⟩
      obtain ⟨fate, hfares, rfl⟩ := upsert_eq_ok_iff.1 hupsert
      exact ⟨fate, hfares, hid⟩
    . rintro ⟨fate, hfares, hid⟩
      exact ⟨fate.answer, upsert_eq_ok_iff.2 ⟨fate, hfares, rfl⟩, hid⟩
  . rw [Operation.map_eq_ok_iff]
    constructor
    . rintro ⟨ids, hupsert, hids⟩
      obtain ⟨fates, hfates, rfl⟩ := upsertAll_eq_ok_iff.1 hupsert
      exact ⟨fates, hfates, hids⟩
    . rintro ⟨fates, hfates, hids⟩
      exact ⟨fates.map Fate.answer, upsertAll_eq_ok_iff.2 ⟨fates, hfates, rfl⟩, hids⟩
  . intro t thread insertion update rows before left fates e step hprepared hrows
    apply hrows.of_kept (fun db => t.Prepared insertion update db.statements) ?_ hprepared
    intro row db fate next hdb hfares
    obtain ⟨haccounts, hnext⟩ := hdb.fares hfares
    exact ⟨⟨hfares, haccounts⟩, hnext⟩

def taggedDatabase : Database (Store (Connection Tables)) where
  store := .new (.new { Tables.empty with tags := [⟨1, .text "a"⟩] })
  statements := [.new (Table.insertSql .tags) 2, .new (Table.updateSql .tags) 3]
  tracker := .new
  cancellation := .empty

theorem prepared_taggedDatabase : Table.tags.Prepared 0 1 taggedDatabase.statements where
  distinct := by decide
  insertion := ⟨_, rfl, rfl, rfl, by simp [SharedStatement.new]⟩
  update := ⟨_, rfl, rfl, rfl, by simp [SharedStatement.new]⟩

def tagEngine : Engine (Store (Connection Tables)) Statement :=
  Store.engine (Connection.link Table.tags.upsertMeaning) 0

theorem upserts_accounted_tags
    : ∃ (left : Database (Store (Connection Tables))) (fates : List Fate),
        (id <$> (Table.tags.upserting 0 1).upsertAll tagEngine
            [⟨2, .text "b"⟩, ⟨1, .text "c"⟩, ⟨3, .text "c"⟩]) taggedDatabase
            = (.ok [2, -1, -1], left) ∧
          fates.map Fate.answer = [2, -1, -1] ∧
          InTurn (fun row x fate y =>
              (Table.tags.upserting 0 1).Fares tagEngine row x fate y ∧
                Table.tags.Accounts row x.store.connection.data fate y.store.connection.data)
            [⟨2, .text "b"⟩, ⟨1, .text "c"⟩, ⟨3, .text "c"⟩] taggedDatabase fates left := by
  have hanswer : ((id <$> (Table.tags.upserting 0 1).upsertAll tagEngine
      [⟨2, .text "b"⟩, ⟨1, .text "c"⟩, ⟨3, .text "c"⟩]) taggedDatabase).1 = .ok [2, -1, -1] := by cbv
  rcases hleft : (id <$> (Table.tags.upserting 0 1).upsertAll tagEngine
      [⟨2, .text "b"⟩, ⟨1, .text "c"⟩, ⟨3, .text "c"⟩]) taggedDatabase with ⟨answer, left⟩
  rw [hleft] at hanswer
  obtain rfl : answer = _ := hanswer
  obtain ⟨_, hbatch, htables⟩ := upserts_accounted tagEngine (Table.tags.upserting 0 1) id id
    taggedDatabase left
  obtain ⟨fates, hfares, hfates⟩ := (hbatch _ [2, -1, -1]).1 hleft
  obtain ⟨haccounts, _⟩ := htables .tags 0 0 1 _ taggedDatabase left fates prepared_taggedDatabase hfares
  exact ⟨left, fates, rfl, hfates, haccounts⟩

/-- A tag of another key with a value that is there already is neither inserted nor found by the update, but
its upsert succeeds. -/
theorem upserted_dropping_tag
    : let left := (Table.tags.upserting 0 1).upsert tagEngine ⟨2, .text "a"⟩ taggedDatabase
      left.1 = .ok (-1) ∧ left.2.store.connection.data.tags = [⟨1, .text "a"⟩] ∧
        ¬∃ fate, (Table.tags.upserting 0 1).Fares tagEngine ⟨2, .text "a"⟩ taggedDatabase fate left.2 ∧
          fate.Stored := by
  have htags : ((Table.tags.upserting 0 1).upsert tagEngine ⟨2, .text "a"⟩
      taggedDatabase).2.store.connection.data.tags = [⟨1, .text "a"⟩] := by cbv
  refine ⟨by cbv, htags, ?_⟩
  rintro ⟨fate, hfares, hstored⟩
  have hmem := (prepared_taggedDatabase.fares hfares).1.stored hstored
  change _ ∈ Storage.Tables.tags _ at hmem
  rw [htags, List.mem_singleton] at hmem
  cases hmem

end UpsertAdapter

end DataAccess
