import DataAccess.Proofs.Rows.Bound
import DataAccess.Proofs.Rows.Lookups

/-!
This module contains that entities survive a write and a read. Main statement: what an entity was bound to is
read as the same entity from every row that has it in the columns of the entity, wherever these are.
-/

namespace DataAccess

open Code (Block Expr FieldInit Path Stmt)

def AdapterSql.slotIndex (e : Entity) (column : String) : Nat :=
  (e.fields.map Field.column).idxOf column

def Cursor.firstCell? (c : Cursor) (column : String) : Option Value :=
  (c.columns.findIdx? (· == column)).bind c.cell?

def Cursor.firstIndex (c : Cursor) (f : Field) : Nat :=
  (c.columns.findIdx? (· == f.column)).getD 0

theorem Cursor.columnIndex_of_findIdx? {c : Cursor} {column : String} {index : Nat}
    (h : c.columns.findIdx? (· == column) = some index) : c.columnIndex column = .ok index := by
  unfold columnIndex columnIndex?
  rw [h]
  rfl

namespace RowCode

theorem foldlM_lookUp {c : Cursor} {index : Field → Nat} {fields : List Field}
    (hindex : ∀ f ∈ fields, c.columnIndex f.column = .ok (index f))
    (hdistinct : (fields.map Field.name).Nodup) (scope : String → Option RowBinding)
    (hcursor : scope "_cursor" = some .cursor)
    : ∃ scope', (fields.map lookUp).foldlM (UserTypes.lookUp c) scope = pure scope' ∧
        (∀ x, (∀ f ∈ fields, x ≠ indexName f) → scope' x = scope x) ∧
        ∀ f ∈ fields, scope' (indexName f) = some (.column (index f)) := by
  let found := fields.map fun f => (f, index f)
  have hfound : (fields.mapM fun f => do return (f, ← c.columnIndex f.column)) = .ok found := by
    apply mapM_eq_pure_map
    intro f hf
    rw [hindex f hf]
    rfl
  have hfields : found.map Prod.fst = fields := List.map_map.trans (List.map_id fields)
  refine ⟨UserTypes.indexed scope found, ?_, ?_, ?_⟩
  . rw [UserTypes.foldlM_lookUp_eq fields hcursor, hfound]
    rfl
  . intro x hx
    apply UserTypes.indexed_of_ne
    rwa [hfields]
  . intro f hf
    apply UserTypes.indexed_of_mem (by rwa [hfields])
    exact List.mem_map_of_mem (f := fun f => (f, index f)) hf

end RowCode

namespace UserTypes

variable {τ : Type} {Val : τ → Type} {u : UserTypes Val} {e : Entity}

theorem declared_of_nodup (hdistinct : (e.fields.map Field.name).Nodup) {f : Field} (hf : f ∈ e.fields)
    : u.declared e f.name = some (u.fieldType f) := by
  unfold declared
  cases hfind : e.fields.find? (·.name == f.name) with
  | none => simpa using List.find?_eq_none.1 hfind f hf
  | some g =>
    have hname : g.name = f.name := by simpa using List.find?_some hfind
    have hg : g ∈ e.fields := List.mem_of_find?_eq_some hfind
    rw [List.inj_on_of_nodup_map hdistinct hg hf hname]
    rfl

variable [DecidableEq τ]

theorem mapM_readInit {types : String → Option (FieldType τ)} {c : Cursor}
    {scope : String → Option RowBinding} {l : List (Field × TypedValue Val)}
    (h : ∀ f v, (f, v) ∈ l →
      u.readInit types c scope (.mk f.name (RowCode.readField f)) = pure (f.name, v))
    : ((l.map Prod.fst).map fun f => FieldInit.mk f.name (RowCode.readField f)).mapM
          (u.readInit types c scope)
        = pure (l.map fun (f, v) => (f.name, v)) := by
  rw [List.mapM_map, List.mapM_map]
  apply mapM_eq_pure_map
  rintro ⟨f, v⟩ hmem
  exact h f v hmem

/-- Where the bound values stand in a row, each field has a value there from which it is read again. -/
theorem exists_cell {i : u.Instance e} {xs : List Value}
    (hxs : List.Forall₂ (fun fv x => u.Restores fv.1 fv.2 x) i.contents xs)
    (hcolumns : (e.fields.map Field.column).Nodup) {s : Statement} {c : Cursor}
    (hcells : ∀ column ∈ e.fields.map Field.column,
      c.firstCell? column = (s.bindFrom 0 xs).bindings[AdapterSql.slotIndex e column]?)
    {f : Field} {v : TypedValue Val} (h : (f, v) ∈ i.contents)
    : c.columnIndex f.column = .ok (c.firstIndex f) ∧
        ∃ x, c.cell? (c.firstIndex f) = some x ∧ u.Restores f v x := by
  obtain ⟨k, hk, hfv⟩ := List.getElem_of_mem h
  have hx : k < xs.length := hxs.length_eq ▸ hk
  have hrestores : u.Restores f v xs[k] := by
    have hget := hxs.get hk hx
    simp only [List.get_eq_getElem, hfv] at hget
    exact hget
  have hfield : (e.fields.map Field.column)[k]? = some f.column := by
    simp [← i.fields, List.getElem?_eq_getElem hk, hfv]
  obtain ⟨hlt, hcolumn⟩ := List.getElem?_eq_some_iff.1 hfield
  -- The columns are distinct, so the first one of this name is the field's own.
  have hslot : AdapterSql.slotIndex e f.column = k := by
    unfold AdapterSql.slotIndex
    rw [← hcolumn]
    exact hcolumns.idxOf_getElem k hlt
  have hbound : (s.bindFrom 0 xs).bindings[0 + k]? = some xs[k] :=
    Statement.getElem?_bindFrom (List.getElem?_eq_getElem hx)
  have hcell := hcells f.column (hcolumn ▸ List.getElem_mem hlt)
  rw [hslot, ← Nat.zero_add k, hbound] at hcell
  obtain ⟨index, hindex, hcell⟩ := Option.bind_eq_some_iff.1 hcell
  have hfirst : c.firstIndex f = index := by
    unfold Cursor.firstIndex
    rw [hindex]
    rfl
  rw [hfirst]
  exact ⟨Cursor.columnIndex_of_findIdx? hindex, _, hcell, hrestores⟩

/-- An entity is read if each of its columns is there and has a value from which its field is read. -/
theorem callRow_eq (i : u.Instance e) {c : Cursor}
    (hcells : ∀ f v, (f, v) ∈ i.contents →
      c.columnIndex f.column = .ok (c.firstIndex f) ∧
        ∃ x, c.cell? (c.firstIndex f) = some x ∧ u.Restores f v x)
    : u.callRow (u.declared e) c (RowCode.adapter e).body = pure i.record := by
  have hindex : ∀ f ∈ e.fields, c.columnIndex f.column = .ok (c.firstIndex f) := by
    intro f hf
    rw [← i.fields] at hf
    obtain ⟨⟨_, v⟩, hmem, rfl⟩ := List.mem_map.1 hf
    exact (hcells _ v hmem).1
  obtain ⟨scope, hscope, hframe, hindices⟩ := RowCode.foldlM_lookUp hindex i.distinct
    (Function.update (fun _ => none) "_cursor" (some .cursor)) (Function.update_self ..)
  have hcursor : scope "_cursor" = some .cursor := by
    rw [hframe "_cursor" fun f _ => (RowCode.indexName_ne_cursor f).symm]
    exact Function.update_self ..
  have hread : ∀ f v, (f, v) ∈ i.contents →
      u.readInit (u.declared e) c scope (.mk f.name (RowCode.readField f)) = pure (f.name, v) := by
    intro f v hmem
    have hf : f ∈ e.fields := i.fields ▸ List.mem_map_of_mem hmem
    obtain ⟨_, x, hx, hrestores⟩ := hcells f v hmem
    exact hrestores c scope _ hcursor (hindices f hf) hx _ (declared_of_nodup i.distinct hf)
  have hinits := mapM_readInit hread
  rw [i.fields] at hinits
  unfold RowCode.adapter RowCode.body callRow
  dsimp only
  rw [hscope, pure_bind, hinits, pure_bind]
  rfl

/-- An entity whose columns have names of their own can be bound as the adapter that inserts it does. From
every row that has the bound values in the first columns of these names it is read again. -/
theorem callRow_of_bound (hlawful : u.Lawful e) (hcolumns : (e.fields.map Field.column).Nodup)
    (i : u.Instance e) (table : String) (policy : Option ConflictPolicy) (s : Statement)
    : ∃ binder bound,
        AdapterCode.binder? (AdapterCode.insert e table policy) = some binder ∧
          u.callBinder binder s i.record = some bound ∧
          ∀ c : Cursor,
            (∀ column ∈ e.fields.map Field.column,
              c.firstCell? column = bound.bindings[AdapterSql.slotIndex e column]?) →
              (u.callRow (u.declared e) c (RowCode.adapter e).body).run = some (.ok i.record) := by
  obtain ⟨xs, hxs, hbind⟩ := callBinder_restores hlawful i
  refine ⟨_, s.bindFrom 0 xs, rfl, hbind s, ?_⟩
  intro c hcells
  exact callRow_eq i fun _ _ hmem => exists_cell hxs hcolumns hcells hmem

/-- The types of a profile: a name, a nick name that may be absent, and flags written as words. -/
def profileTypes : UserTypes ColumnType.Val where
  toValue := ColumnType.store
  fromValue := ColumnType.read
  field name := if name = "nick" then .option .text else .text
  converted _ := .bool
  column _ := .text
  toColumn _ b := bif b then "yes" else "no"
  fromColumn _ (s : String) := s == "yes"

def profile : Entity :=
  let flag : Path := ⟨false, [.mk "Flag" .none]⟩
  { name := "Profile"
    table := "profiles"
    fields := [⟨"name", "name", false, none⟩, ⟨"nick", "nick", true, none⟩,
      ⟨"active", "is_active", false, some flag⟩, ⟨"invited", "is_invited", true, some flag⟩]
    primaryKey := ["name"]
    projectionOf := none }

theorem profileTypes_lawful : profileTypes.Lawful profile where
  field f _ _ := by
    have htype : profileTypes.field f.name = .option .text ∨ profileTypes.field f.name = .text := by
      unfold profileTypes
      dsimp only
      split
      . exact Or.inl rfl
      . exact Or.inr rfl
    generalize profileTypes.field f.name = t at htype
    intro a
    rcases htype with rfl | rfl
    . cases a with
      | none => rfl
      | some s => rfl
    . rfl
  column _ _ _ _ _ := rfl
  converter _ _ _ _ b := by
    cases b with
    | false => rfl
    | true => rfl
  present _ _ _ _ _ _ := rfl

def ada : profileTypes.Instance profile where
  contents := profile.fields.zip
    [⟨.one .text, "ada"⟩, ⟨.one (.option .text), none⟩, ⟨.one .bool, true⟩, ⟨.option .bool, some false⟩]
  fields := rfl
  typed f v h := by
    simp only [profile, List.zip_cons_cons, List.zip_nil_left, List.mem_cons, Prod.mk.injEq,
      List.not_mem_nil, or_false] at h
    rcases h with ⟨rfl, rfl⟩ | ⟨rfl, rfl⟩ | ⟨rfl, rfl⟩ | ⟨rfl, rfl⟩
    all_goals rfl
  distinct := by decide

def adaRow : Cursor where
  columns := ["is_invited", "nick", "rank", "is_active", "name", "is_active"]
  rest := []
  count := 1
  current := some [.text "no", .null, .integer 7, .text "yes", .text "ada", .null]
  closed := false
  signal := none
  hooked := false
  hookRuns := 0

theorem callRow_of_bound_ada
    : profileTypes.Lawful profile ∧ (profile.fields.map Field.column).Nodup ∧
        (profileTypes.callRow (profileTypes.declared profile) adaRow (RowCode.adapter profile).body).run
          = some (.ok ada.record) := by
  have hcolumns : (profile.fields.map Field.column).Nodup := by decide
  refine ⟨profileTypes_lawful, hcolumns, ?_⟩
  obtain ⟨binder, bound, hbinder, hbound, hread⟩ :=
    callRow_of_bound profileTypes_lawful hcolumns ada "profiles" none .empty
  cases hbinder
  have hvalues : profileTypes.callBinder (AdapterCode.binder profile profile.fields) .empty ada.record
      = some ⟨"", [.text "ada", .null, .text "yes", .text "no"]⟩ := rfl
  cases hbound.symm.trans hvalues
  apply hread
  intro column hcolumn
  have hname : column = "name" ∨ column = "nick" ∨ column = "is_active" ∨ column = "is_invited" := by
    simpa [profile] using hcolumn
  rcases hname with rfl | rfl | rfl | rfl
  all_goals rfl

end UserTypes

end DataAccess
