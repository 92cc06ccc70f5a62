import DataAccess.Proofs.Compile.Classified
import DataAccess.Proofs.Compile.Conversions
import DataAccess.Proofs.Rows.Calls
import DataAccess.Proofs.Rows.RoundTrip
import DataAccess.Proofs.Sql.RowStatements

/-!
This module contains that the statement of an adapter, its number of slots and its binding function belong
together. Main statement: an adapter has statements on the fields and on the key fields of its entity. Each
has as many slots as the adapter says, and the binding function binds each slot once and in order, to what is
stored for a field in the slot's column.
-/

namespace DataAccess

open Code (Expr)
open Sql (ColumnSlot Piece RowStatement SlotUse)

namespace AdapterSql

variable (e : Entity) (table : String) (policy : Option ConflictPolicy)

theorem toList_quoted (name : String) : (quoted name).toList = (Piece.name name).source := by
  simp [quoted, Piece.source]

theorem toList_verb (letters : String)
    : (verb letters policy).toList ++ [' '] = (RowStatement.verb letters policy).flatMap Piece.source := by
  cases policy with
  | none => simp [verb, RowStatement.verb, Piece.source]
  | some policy => simp [verb, RowStatement.verb, Piece.source]

theorem toList_equation (use : SlotUse) (f : Field)
    : (equation f).toList = (RowStatement.equation use f.column).flatMap Piece.source := by
  simp [equation, quoted, RowStatement.equation, Piece.source]

theorem toList_keyCondition
    : (keyCondition e).toList
        =
      (RowStatement.condition (e.keyFields.map Field.column)).flatMap Piece.source := by
  unfold keyCondition RowStatement.condition
  rw [String.toList_intercalate, flatMap_intercalate, List.map_map, List.map_map]
  congr 1
  apply List.map_congr_left
  intro f _
  exact toList_equation .tested f

theorem insert_eq_text
    : insert e table policy = (RowStatement.insert policy table (e.fields.map Field.column)).text := by
  unfold RowStatement.text RowStatement.pieces
  apply String.toList_inj.1
  simp [insert, String.toList_intercalate, flatMap_intercalate, ← toList_verb, Function.comp_def,
    Piece.source, toList_quoted]

theorem delete_eq_text
    : delete e table = (RowStatement.delete table (e.keyFields.map Field.column)).text := by
  unfold RowStatement.text RowStatement.pieces
  apply String.toList_inj.1
  simp [delete, ← toList_keyCondition, Piece.source, toList_quoted]

theorem update_eq_text
    : update e table policy
        =
      (RowStatement.update policy table (e.fields.map Field.column)
        (e.keyFields.map Field.column)).text := by
  unfold RowStatement.text RowStatement.pieces
  apply String.toList_inj.1
  simp [update, String.toList_intercalate, flatMap_intercalate, ← toList_verb, Function.comp_def,
    ← toList_keyCondition, ← toList_equation, Piece.source, toList_quoted]

end AdapterSql

structure BoundField where
  use : SlotUse
  field : Field

def BoundField.slot (b : BoundField) : ColumnSlot :=
  ⟨b.use, b.field.column⟩

/-- A statement on a table with the fields that are bound in its slots. -/
structure AdapterStatement where
  statement : RowStatement
  bound : List BoundField

namespace Entity

variable (e : Entity)

def boundFor (use : SlotUse) : List BoundField :=
  e.fields.map (BoundField.mk use)

def boundKey : List BoundField :=
  e.keyFields.map (BoundField.mk .tested)

/-- The key is complete if and only if it is not empty and its fields have its names, in key order. -/
theorem hasCompleteKey_iff
    : e.hasCompleteKey = true ↔ e.primaryKey ≠ [] ∧ e.keyFields.map Field.name = e.primaryKey := by
  let found (key : String) := e.fields.find? (·.name == key)
  have hnames {keys : List String} (h : (keys.filterMap found).length = keys.length)
      : (keys.filterMap found).map Field.name = keys := by
    induction keys with
    | nil => rfl
    | cons key rest ih =>
      cases hf : found key with
      | none =>
        have hle := List.length_filterMap_le found rest
        rw [List.filterMap_cons_none hf, List.length_cons] at h
        omega
      | some f =>
        have hname : f.name = key := by simpa using List.find?_some hf
        rw [List.filterMap_cons_some hf] at h ⊢
        rw [List.map_cons, hname, ih (Nat.succ.inj h)]
  simp only [hasCompleteKey, Bool.and_eq_true, Bool.not_eq_true', List.isEmpty_eq_false_iff, beq_iff_eq]
  refine and_congr_right fun _ => ⟨hnames, fun h => ?_⟩
  rw [← h, List.length_map]

end Entity

/-- The statements of an operation on an entity. An entity that is upserted is inserted or else updated. -/
def ShortcutOp.statements (op : ShortcutOp) (e : Entity) (table : String) : List AdapterStatement :=
  let columns := e.fields.map Field.column
  let keys := e.keyFields.map Field.column
  match op with
  | .insert policy => [⟨.insert policy table columns, e.boundFor .inserted⟩]
  | .delete => [⟨.delete table keys, e.boundKey⟩]
  | .update policy => [⟨.update policy table columns keys, e.boundFor .changed ++ e.boundKey⟩]
  | .upsert =>
    [⟨.insert none table columns, e.boundFor .inserted⟩,
      ⟨.update none table columns keys, e.boundFor .changed ++ e.boundKey⟩]

namespace AdapterCode

/-- What an adapter for one statement is made from: the table that it reports, the text of the statement,
the number of slots and the binding function. -/
structure Part where
  table : String
  sql : String
  slots : Nat
  binder : Expr

/-- The parts of an adapter. One that upserts is made of two others. -/
def parts : Expr → List Part
  | .call .newUpsertAdapter [insertion, update] => parts insertion ++ parts update
  | .call (.newInsertAdapter _) [_, .text table, .text sql, .number slots _, binder]
  | .call (.newChangeAdapter _) [_, .text table, .text sql, .number slots _, binder] =>
    [⟨table, sql, slots, binder⟩]
  | _ => []

/-- A part of an adapter performs a statement with fields in its slots. The `k`-th slot in the text is for
the column of the `k`-th field. Whatever an entity has in its fields, the binding function binds each slot
once, in order, to what is stored for the slot's field. -/
structure Part.Performs (e : Entity) (p : Part) (s : AdapterStatement) : Prop where
  table : p.table = s.statement.table
  sql : p.sql = s.statement.text
  slots : p.slots = s.statement.slots.length
  columns : s.statement.slots = s.bound.map BoundField.slot
  calls : ∀ {τ : Type} {Val : τ → Type} [DecidableEq τ] (u : UserTypes Val) (i : u.Instance e),
    ∃ calls,
      (∀ start, u.callBinder p.binder start i.record = some (start.bindAll calls)) ∧
        calls.map Prod.fst = List.range' 1 p.slots ∧
        calls.map (fun call => some call.2) = s.bound.map fun b => i.stored? b.field

variable {e : Entity}

theorem Part.performs_of_columns {table sql : String} {fields : List Field} {st : RowStatement}
    {bound : List BoundField} (htable : table = st.table) (hsql : sql = st.text)
    (hcolumns : st.slots = bound.map BoundField.slot) (hbound : bound.map BoundField.field = fields)
    (hfields : fields ⊆ e.fields)
    : Part.Performs e ⟨table, sql, fields.length, AdapterCode.binder e fields⟩ ⟨st, bound⟩ where
  table := htable
  sql := hsql
  slots := by
    subst hbound
    rw [hcolumns, List.length_map, List.length_map]
  columns := hcolumns
  calls u i := by
    obtain ⟨calls, hcalls, hslots, hvalues⟩ := calls?_binder hfields i
    refine ⟨calls, fun start => ?_, hslots, ?_⟩
    . rw [u.callBinder_eq, hcalls]
      rfl
    . subst hbound
      rw [hvalues, List.map_map]
      rfl

variable (e) (table : String) (policy : Option ConflictPolicy)

theorem performs_insert
    : Part.Performs e ⟨table, AdapterSql.insert e table policy, e.fields.length, binder e e.fields⟩
        ⟨.insert policy table (e.fields.map Field.column), e.boundFor .inserted⟩ := by
  apply Part.performs_of_columns rfl (AdapterSql.insert_eq_text ..)
  . simp [Entity.boundFor, BoundField.slot]
  . simp [Entity.boundFor, Function.comp_def]
  . exact List.Subset.refl e.fields

theorem performs_delete
    : Part.Performs e ⟨table, AdapterSql.delete e table, e.keyFields.length, binder e e.keyFields⟩
        ⟨.delete table (e.keyFields.map Field.column), e.boundKey⟩ := by
  apply Part.performs_of_columns rfl (AdapterSql.delete_eq_text ..)
  . simp [Entity.boundKey, BoundField.slot]
  . simp [Entity.boundKey, Function.comp_def]
  . exact e.keyFields_subset

theorem performs_update
    : Part.Performs e
        ⟨table, AdapterSql.update e table policy, (e.fields ++ e.keyFields).length,
          binder e (e.fields ++ e.keyFields)⟩
        ⟨.update policy table (e.fields.map Field.column) (e.keyFields.map Field.column),
          e.boundFor .changed ++ e.boundKey⟩ := by
  apply Part.performs_of_columns rfl (AdapterSql.update_eq_text ..)
  . simp [Entity.boundFor, Entity.boundKey, BoundField.slot, Function.comp_def]
  . simp [Entity.boundFor, Entity.boundKey, Function.comp_def]
  . exact List.append_subset.2 ⟨List.Subset.refl e.fields, e.keyFields_subset⟩

/-- The parts of an operation's adapter perform the statements of the operation. -/
theorem performs_adapterRequest (op : ShortcutOp) (e : Entity) (table : String)
    : List.Forall₂ (Part.Performs e) (parts (adapterRequest op e table).value)
        (op.statements e table) := by
  cases op with
  | insert policy => exact .cons (performs_insert e table (some policy)) .nil
  | delete => exact .cons (performs_delete e table) .nil
  | update policy => exact .cons (performs_update e table (some policy)) .nil
  | upsert => exact .cons (performs_insert e table none) (.cons (performs_update e table none) .nil)

theorem table_of_mem_parts {op : ShortcutOp} {e : Entity} {table : String} {p : Part}
    (h : p ∈ parts (adapterRequest op e table).value) : p.table = table := by
  cases op with
  | insert | delete | update =>
    obtain rfl := List.mem_singleton.1 h
    rfl
  | upsert =>
    rcases List.mem_pair.1 h with rfl | rfl
    . rfl
    . rfl

end AdapterCode

/-- A target that is resolved is an entity with fields, and with a complete key where the operation needs
one. What is written is its own table or, for a part of an entity, that of the whole. -/
theorem Interface.target_of_resolveTarget {i : Interface} {m : Method} {op : ShortcutOp} {t : Target}
    {r : ResolvedTarget} (h : i.resolveTarget m op t = .ok r)
    : r.entity.fields ≠ [] ∧ (op.needsKey = true → r.entity.hasCompleteKey = true) ∧
        i.writtenTable? r.entity = some r.table := by
  have htable := (resolveTarget_eq_ok h).1.table
  suffices hentity : r.entity.fields ≠ [] ∧ (op.needsKey = true → r.entity.hasCompleteKey = true) from
    ⟨hentity.1, hentity.2, htable⟩
  have hkey {e : Entity} (hguard : ¬(op.needsKey && !e.hasCompleteKey) = true) (hop : op.needsKey = true)
      : e.hasCompleteKey = true := by
    simpa [hop] using hguard
  unfold resolveTarget at h
  split at h
  . obtain ⟨e, _, h⟩ := exists_of_bind_eq_ok h
    obtain ⟨hfields, h⟩ := ok_of_guard h
    rw [List.isEmpty_iff] at hfields
    dsimp only at h
    split at h
    . obtain ⟨_, _, h⟩ := exists_of_bind_eq_ok h
      obtain ⟨_, _, h⟩ := exists_of_bind_eq_ok h
      obtain ⟨hguard, h⟩ := ok_of_guard h
      cases h
      exact ⟨hfields, hkey hguard⟩
    . obtain ⟨_, _, h⟩ := exists_of_bind_eq_ok h
      obtain ⟨hguard, h⟩ := ok_of_guard h
      cases h
      exact ⟨hfields, hkey hguard⟩
  . cases h

/-- Each statement of an adapter has as many slots as the adapter says. The binding function binds each of
them once, in order, to what is stored for a field in the slot's column: for all fields in the order of the
columns that are set, and then for the key fields in key order. The table that the statement is on is the one
that the adapter reports: that of the entity or, for a part of an entity, that of the whole. -/
theorem adapters_aligned (op : ShortcutOp) (e : Entity) (table : String)
    : List.Forall₂ (AdapterCode.Part.Performs e) (AdapterCode.parts (adapterRequest op e table).value)
          (op.statements e table) ∧
        (∀ p ∈ AdapterCode.parts (adapterRequest op e table).value, p.table = table) ∧
        (e.hasCompleteKey = true → e.keyFields.map Field.name = e.primaryKey) ∧
        ∀ (i : Interface) (m : Method) (t : Target) (r : ResolvedTarget),
          i.resolveTarget m op t = .ok r →
            r.entity.fields ≠ [] ∧ (op.needsKey = true → r.entity.hasCompleteKey = true) ∧
              i.writtenTable? r.entity = some r.table := by
  refine ⟨AdapterCode.performs_adapterRequest op e table, ?_, ?_, ?_⟩
  . intro p hp
    exact AdapterCode.table_of_mem_parts hp
  . intro hkey
    exact (e.hasCompleteKey_iff.1 hkey).2
  . intro i m t r hr
    exact Interface.target_of_resolveTarget hr

/-- The members of teams. A flag that may be absent is written as a word. -/
def member : Entity where
  name := "Member"
  table := "members"
  fields := [⟨"team", "team", false, none⟩, ⟨"user", "user_id", false, none⟩,
    ⟨"owner", "is_owner", true, some ⟨false, [.mk "Flag" .none]⟩⟩]
  primaryKey := ["user", "team"]
  projectionOf := none

def membership : Entity :=
  { member with name := "Membership", table := "memberships", projectionOf := some "Member" }

def join : Method where
  name := "join"
  params := [⟨"entry", .path false [.mk "Membership" .none], false, none⟩]
  returns := none
  delivery := .direct
  kind := .upsert [⟨"entry", "Membership", false⟩]

def teams : Interface where
  name := "Teams"
  entities := [member, membership]
  converters := [⟨false, [.mk "Flag" .none]⟩]
  backing := none
  methods := [join]

def joined (owner : Option Bool) : UserTypes.profileTypes.Instance membership where
  contents := membership.fields.zip [⟨.one .text, "red"⟩, ⟨.one .text, "ada"⟩, ⟨.option .bool, owner⟩]
  fields := rfl
  typed f v h := by
    simp only [membership, member, List.zip_cons_cons, List.zip_nil_left, List.mem_cons, Prod.mk.injEq,
      List.not_mem_nil, or_false] at h
    rcases h with ⟨rfl, rfl⟩ | ⟨rfl, rfl⟩ | ⟨rfl, rfl⟩
    all_goals rfl
  distinct := by decide

theorem adapters_aligned_membership
    : ∃ r insertion update,
        teams.resolveTarget join .upsert ⟨"entry", "Membership", false⟩ = .ok r ∧
          r.entity = membership ∧ membership.hasCompleteKey = true ∧
          membership.keyFields.map Field.name = ["user", "team"] ∧
          teams.writtenTable? membership = some "members" ∧
          AdapterCode.parts (adapterRequest .upsert membership "members").value = [insertion, update] ∧
          insertion.table = "members" ∧ update.table = "members" ∧ update.slots = 5 ∧
          ∀ owner, ∃ calls,
            UserTypes.profileTypes.callBinder update.binder .empty (joined owner).record
                = some (Statement.empty.bindAll calls) ∧
              calls.map Prod.fst = [1, 2, 3, 4, 5] ∧
              calls.map (fun call => some call.2)
                = [some (.text "red"), some (.text "ada"),
                    some (owner.elim .null fun b => .text (bif b then "yes" else "no")),
                    some (.text "ada"), some (.text "red")] := by
  have hkey : membership.hasCompleteKey = true := by decide
  obtain ⟨r, hr, hentity⟩ : ∃ r,
      teams.resolveTarget join .upsert ⟨"entry", "Membership", false⟩ = .ok r ∧ r.entity = membership :=
    ⟨_, rfl, rfl⟩
  obtain ⟨hperforms, htable, hnames, hresolved⟩ := adapters_aligned .upsert membership "members"
  obtain ⟨_, _, hwritten⟩ := hresolved teams join _ r hr
  rw [hentity] at hwritten
  have hupdate := (List.forall₂_cons.1 (List.forall₂_cons.1 hperforms).2).1
  refine ⟨r, _, _, hr, hentity, hkey, hnames hkey, ?_, rfl, htable _ List.mem_cons_self,
    htable _ (List.mem_cons_of_mem _ List.mem_cons_self), hupdate.slots, ?_⟩
  . cases hr
    exact hwritten
  . intro owner
    obtain ⟨calls, hcalls, hslots, hvalues⟩ := hupdate.calls UserTypes.profileTypes (joined owner)
    refine ⟨calls, hcalls .empty, hslots, hvalues.trans ?_⟩
    cases owner with
    | none => rfl
    | some b => rfl

end DataAccess
