import DataAccess.Proofs.Rows.Meaning
import Mathlib.Data.List.Nodup

/-!
This module contains what the functions that bind entities do: a value in a slot of its own for each field,
from which the field is read again.
-/

namespace DataAccess

open Code (Block Expr FieldInit Path Stmt)

namespace Statement

def bindFrom (s : Statement) (before : Nat) : List Value → Statement
  | [] => s
  | x :: rest => (s.bind (before + 1) x).bindFrom (before + 1) rest

theorem getElem?_bind_self (s : Statement) (slot : Nat) (x : Value)
    : (s.bind (slot + 1) x).bindings[slot]? = some x := by
  unfold bind
  rw [List.getElem?_set_self]
  rw [List.length_append, List.length_replicate]
  omega

theorem getElem?_bind_of_lt {s : Statement} {slot other : Nat} {x y : Value}
    (h : s.bindings[other]? = some y) (hlt : other < slot)
    : (s.bind (slot + 1) x).bindings[other]? = some y := by
  unfold bind
  rw [List.getElem?_set_ne (Nat.ne_of_gt hlt)]
  rw [List.getElem?_append_left (List.getElem?_eq_some_iff.1 h).1]
  exact h

theorem getElem?_bindFrom_of_lt {s : Statement} {before other : Nat} {y : Value}
    (h : s.bindings[other]? = some y) (hlt : other < before) (xs : List Value)
    : (s.bindFrom before xs).bindings[other]? = some y := by
  induction xs generalizing s before with
  | nil => exact h
  | cons x rest ih =>
    apply ih
    . exact getElem?_bind_of_lt h hlt
    . exact Nat.lt_succ_of_lt hlt

theorem getElem?_bindFrom {s : Statement} {before i : Nat} {x : Value} {xs : List Value}
    (h : xs[i]? = some x)
    : (s.bindFrom before xs).bindings[before + i]? = some x := by
  induction xs generalizing s before i with
  | nil => cases h
  | cons y rest ih =>
    cases i with
    | zero =>
      cases h
      exact getElem?_bindFrom_of_lt (getElem?_bind_self s before x) (Nat.lt_succ_self before) rest
    | succ i =>
      rw [← Nat.succ_add_eq_add_succ]
      exact ih h

end Statement

namespace Cursor

def cell? (c : Cursor) (index : Nat) : Option Value :=
  c.current.bind (·[index]?)

variable {c : Cursor} {index : Nat} {x : Value}

theorem isNull_of_cell? (h : c.cell? index = some x) : c.isNull index = x.isNull := by
  unfold isNull
  rw [show c.current.bind (·[index]?) = some x from h]

theorem getWith_of_cell? {read : Value → Except ConversionError α} {a : α}
    (h : c.cell? index = some x) (hread : read x = .ok a)
    : c.getWith read index = .ok a := by
  obtain ⟨row, hrow, hx⟩ := Option.bind_eq_some_iff.1 h
  unfold getWith
  rw [hrow]
  dsimp only
  rw [hx]
  dsimp only
  rw [hread]
  rfl

end Cursor

variable {τ : Type} {Val : τ → Type} (u : UserTypes Val)

/-- Types that an entity survives with: what is stored is read again, what is converted is converted back,
and nothing that is there is stored as absent. -/
structure UserTypes.Lawful (e : Entity) : Prop where
  field : ∀ f ∈ e.fields, f.converter = none →
    ∀ a, u.fromValue (u.field f.name) (u.toValue (u.field f.name) a) = .ok a
  column : ∀ f ∈ e.fields, ∀ p, f.converter = some p →
    ∀ a, u.fromValue (u.column p) (u.toValue (u.column p) a) = .ok a
  converter : ∀ f ∈ e.fields, ∀ p, f.converter = some p →
    ∀ a, u.fromColumn p (u.toColumn p a) = a
  present : ∀ f ∈ e.fields, ∀ p, f.converter = some p → f.nullable = true →
    ∀ a, (u.toValue (u.column p) (u.toColumn p a)).isNull = false

theorem UserTypes.Instance.lookup_entries {u : UserTypes Val} {e : Entity} (i : u.Instance e) {f : Field}
    {v : TypedValue Val} (h : (f, v) ∈ i.contents) : i.record.entries.lookup f.name = some v := by
  obtain ⟨front, back, hcontents⟩ := List.append_of_mem h
  have hdistinct := i.distinct
  rw [← i.fields, hcontents, List.map_map, List.map_append, List.nodup_append] at hdistinct
  rw [List.lookup_eq_some_iff]
  let named (entry : Field × TypedValue Val) := (entry.1.name, entry.2)
  refine ⟨front.map named, back.map named, ?_, ?_⟩
  . simp [record, hcontents, named]
  . intro entry hentry
    obtain ⟨other, hother, rfl⟩ := List.mem_map.1 hentry
    have hne : other.1.name ≠ f.name :=
      hdistinct.2.2 _ (List.mem_map_of_mem hother) _ List.mem_cons_self
    simpa using hne.symm

namespace AdapterCode

def scope (r : Record Val) : String → Option (Binding Val) :=
  Function.update (Function.update (fun _ => none) "_statement" (some .statement)) "_entity"
    (some (.record r))

theorem scope_statement (r : Record Val) : scope r "_statement" = some .statement := by
  simp [scope]

end AdapterCode

variable [DecidableEq τ]

namespace UserTypes

theorem eval_toColumn {scope : String → Option (Binding Val)} {p : Path} {e : Expr}
    {a : Val (u.converted p)} (h : u.eval scope e = some ⟨.one (u.converted p), a⟩)
    : u.eval scope (.borrow (.call (.toColumn p) [e]))
        = some ⟨.one (u.column p), u.toColumn p a⟩ := by
  simp only [eval, h]
  simp [TypedValue.as?]
  rfl

theorem effect_bind {scope : String → Option (Binding Val)} {e : Expr} {t : τ} {a : Val t}
    (hscope : scope "_statement" = some .statement) (h : u.eval scope e = some ⟨.one t, a⟩)
    (s : Statement) (slot : Nat)
    : u.effect scope s (.method BoundStatement.statementVar .bind [.number slot true, e])
        = some (s.bind slot (u.toValue t a)) := by
  simp only [BoundStatement.statementVar, effect, hscope, h]
  rfl

theorem effect_bindNull {scope : String → Option (Binding Val)}
    (hscope : scope "_statement" = some .statement) (s : Statement) (slot : Nat)
    : u.effect scope s (.method BoundStatement.statementVar .bindNull [.number slot true])
        = some (s.bindNull slot) := by
  simp only [BoundStatement.statementVar, effect, hscope]
  rfl

theorem effect_matchOption {scope : String → Option (Binding Val)} {e present absent : Expr}
    {name : String} {t : τ} {o : Option (Val t)} (h : u.eval scope e = some ⟨.option t, o⟩)
    (s : Statement)
    : u.effect scope s (.matchOption e name (.ofExpr present) absent)
        = o.elim (u.effect scope s absent) fun a =>
          u.effect (Function.update scope name (some (.typed ⟨.one t, a⟩))) s present := by
  rw [Block.ofExpr, effect, h]
  cases o with
  | none => rfl
  | some a => rfl

variable {c : Cursor} {scope : String → Option RowBinding} {name : String} {index : Nat} {x : Value}

theorem read_get {t : τ} {a : Val t} (hcursor : scope "_cursor" = some .cursor)
    (hname : scope name = some (.column index)) (hcell : c.cell? index = some x)
    (h : u.fromValue t x = .ok a)
    : u.read c scope (.attempt (.method RowCode.cursorVar (.get none) [.var name])) (.one t)
        = pure a := by
  rw [RowCode.cursorVar, read.eq_def]
  simp only [hcursor, hname]
  exact congrArg (fun r => (liftM r : Attempt (Val t))) (Cursor.getWith_of_cell? hcell h)

theorem read_fromColumn {p : Path} {e : Expr} {b : Val (u.column p)}
    (h : u.read c scope e (.one (u.column p)) = pure b)
    : u.read c scope (.call (.fromColumn p) [e]) (.one (u.converted p)) = pure (u.fromColumn p b) := by
  rw [read.eq_def]
  dsimp only
  rw [h]
  exact (pure_bind b _).trans (dif_pos rfl)

theorem read_ifElse {t : FieldType τ} {yes no : Expr} (hcursor : scope "_cursor" = some .cursor)
    (hname : scope name = some (.column index)) (hcell : c.cell? index = some x)
    : u.read c scope
        (.ifElse (.method RowCode.cursorVar .isNull [.var name]) (.ofExpr yes) (.ofExpr no)) t
        = if x.isNull then u.read c scope yes t else u.read c scope no t := by
  rw [RowCode.cursorVar, Block.ofExpr, Block.ofExpr, read.eq_def]
  simp only [hcursor, hname, Cursor.isNull_of_cell? hcell]

theorem read_none (t : τ) : u.read c scope .none (.option t) = pure none := by
  rw [read.eq_def]

theorem read_some {t : τ} {e : Expr} {a : Val t} (h : u.read c scope e (.one t) = pure a)
    : u.read c scope (.some e) (.option t) = pure (some a) := by
  rw [read.eq_def]
  dsimp only
  rw [h]
  exact pure_bind a _

end UserTypes

def UserTypes.Restores (f : Field) (v : TypedValue Val) (x : Value) : Prop :=
  ∀ (c : Cursor) (scope : String → Option RowBinding) (index : Nat),
    scope "_cursor" = some .cursor → scope (RowCode.indexName f) = some (.column index) →
      c.cell? index = some x →
        ∀ types : String → Option (FieldType τ), types f.name = some (u.fieldType f) →
          u.readInit types c scope (.mk f.name (RowCode.readField f)) = pure (f.name, v)

theorem UserTypes.readInit_eq {types : String → Option (FieldType τ)} {c : Cursor}
    {scope : String → Option RowBinding} {name : String} {e : Expr} {t : FieldType τ} {a : t.Val Val}
    (htype : types name = some t) (h : u.read c scope e t = pure a)
    : u.readInit types c scope (.mk name e) = pure (name, ⟨t, a⟩) := by
  simp only [readInit, htype, h]
  exact pure_bind a _

namespace UserTypes

variable {name column : String} {p : Path}

theorem restores_plain {nullable : Bool} {a : Val (u.field name)} {x : Value}
    (h : u.fromValue (u.field name) x = .ok a)
    : u.Restores ⟨name, column, nullable, none⟩ ⟨.one (u.field name), a⟩ x := by
  intro c scope index hcursor hindex hcell types htype
  exact u.readInit_eq htype (u.read_get hcursor hindex hcell h)

theorem restores_converted {a : Val (u.converted p)} {b : Val (u.column p)} {x : Value}
    (h : u.fromValue (u.column p) x = .ok b) (hconverter : u.fromColumn p b = a)
    : u.Restores ⟨name, column, false, some p⟩ ⟨.one (u.converted p), a⟩ x := by
  intro c scope index hcursor hindex hcell types htype
  subst hconverter
  exact u.readInit_eq htype (u.read_fromColumn (u.read_get hcursor hindex hcell h))

theorem restores_absent
    : u.Restores ⟨name, column, true, some p⟩ ⟨.option (u.converted p), none⟩ .null := by
  intro c scope index hcursor hindex hcell types htype
  apply u.readInit_eq htype
  exact (u.read_ifElse hcursor hindex hcell).trans (u.read_none _)

theorem restores_present {a : Val (u.converted p)} {b : Val (u.column p)} {x : Value}
    (h : u.fromValue (u.column p) x = .ok b) (hpresent : x.isNull = false)
    (hconverter : u.fromColumn p b = a)
    : u.Restores ⟨name, column, true, some p⟩ ⟨.option (u.converted p), some a⟩ x := by
  intro c scope index hcursor hindex hcell types htype
  subst hconverter
  apply u.readInit_eq htype
  refine (u.read_ifElse hcursor hindex hcell).trans ?_
  rw [hpresent]
  exact u.read_some (u.read_fromColumn (u.read_get hcursor hindex hcell h))

end UserTypes

namespace AdapterCode

variable {u} {r : Record Val}

theorem eval_fieldOf (f : Field) : u.eval (scope r) (fieldOf f) = r.entries.lookup f.name := by
  simp [fieldOf, UserTypes.eval, scope]

theorem exec_bindField_nullable {name column : String} {p : Path} {o : Option (Val (u.converted p))}
    (hr : r.entries.lookup name = some ⟨.option (u.converted p), o⟩) (s : Statement) (slot : Nat)
    : u.exec (scope r) s (bindField slot ⟨name, column, true, some p⟩)
        = some (s.bind slot (o.elim .null fun a => u.toValue (u.column p) (u.toColumn p a))) := by
  refine (u.effect_matchOption ((eval_fieldOf _).trans hr) s).trans ?_
  cases o with
  | none => exact u.effect_bindNull (scope_statement r) s slot
  | some a =>
    apply u.effect_bind
    . simp [scope_statement]
    . apply u.eval_toColumn
      simp [UserTypes.eval]

theorem bindField_restores {e : Entity} {f : Field} {v : TypedValue Val} (hlawful : u.Lawful e)
    (hf : f ∈ e.fields) (htype : v.type = u.fieldType f) (hr : r.entries.lookup f.name = some v)
    : ∃ x, u.Restores f v x ∧
        ∀ s slot, u.exec (scope r) s (bindField slot f) = some (s.bind slot x) := by
  obtain ⟨name, column, nullable, converter⟩ := f
  obtain ⟨t, a⟩ := v
  -- The cases are those of the code for a field: without a converter the type's own options are bound.
  cases converter with
  | none =>
    change t = .one (u.field name) at htype
    subst htype
    refine ⟨_, u.restores_plain (hlawful.field _ hf rfl a), ?_⟩
    exact u.effect_bind (scope_statement r) ((eval_fieldOf _).trans hr)
  | some p =>
    have hcolumn := hlawful.column _ hf p rfl
    have hconverter := hlawful.converter _ hf p rfl
    cases nullable with
    | false =>
      change t = .one (u.converted p) at htype
      subst htype
      refine ⟨_, u.restores_converted (hcolumn _) (hconverter a), ?_⟩
      apply u.effect_bind (scope_statement r)
      exact u.eval_toColumn ((eval_fieldOf _).trans hr)
    | true =>
      change t = .option (u.converted p) at htype
      subst htype
      refine ⟨_, ?_, exec_bindField_nullable hr⟩
      cases a with
      | none => exact u.restores_absent
      | some a =>
        exact u.restores_present (hcolumn _) (hlawful.present _ hf p rfl rfl a) (hconverter a)

theorem bindFields_restores {e : Entity} {l : List (Field × TypedValue Val)} (hlawful : u.Lawful e)
    (hl : ∀ f v, (f, v) ∈ l →
      f ∈ e.fields ∧ v.type = u.fieldType f ∧ r.entries.lookup f.name = some v)
    : ∃ xs, List.Forall₂ (fun fv x => u.Restores fv.1 fv.2 x) l xs ∧
        ∀ s before,
          (((l.map Prod.fst).zipIdx before).map fun (f, i) => bindField (i + 1) f).foldlM
              (u.exec (scope r)) s
            = some (s.bindFrom before xs) := by
  induction l with
  | nil => exact ⟨[], .nil, fun s before => rfl⟩
  | cons fv rest ih =>
    obtain ⟨f, v⟩ := fv
    obtain ⟨hf, htype, hr⟩ := hl f v List.mem_cons_self
    obtain ⟨x, hx, hbind⟩ := bindField_restores hlawful hf htype hr
    obtain ⟨xs, hxs, hrest⟩ := ih fun f v hmem => hl f v (List.mem_cons_of_mem _ hmem)
    refine ⟨x :: xs, .cons hx hxs, ?_⟩
    intro s before
    rw [List.map_cons, List.zipIdx_cons, List.map_cons, List.foldlM_cons, hbind]
    exact hrest (s.bind (before + 1) x) (before + 1)

end AdapterCode

namespace UserTypes

variable {u} {e : Entity}

/-- An entity is bound as values from which its fields are read again, in their order. -/
theorem callBinder_restores (hlawful : u.Lawful e) (i : u.Instance e)
    : ∃ xs, List.Forall₂ (fun fv x => u.Restores fv.1 fv.2 x) i.contents xs ∧
        ∀ s, u.callBinder (AdapterCode.binder e e.fields) s i.record = some (s.bindFrom 0 xs) := by
  have hcontents : ∀ f v, (f, v) ∈ i.contents →
      f ∈ e.fields ∧ v.type = u.fieldType f ∧ i.record.entries.lookup f.name = some v := by
    intro f v hmem
    refine ⟨?_, i.typed f v hmem, i.lookup_entries hmem⟩
    rw [← i.fields]
    exact List.mem_map_of_mem hmem
  obtain ⟨xs, hxs, hbind⟩ := AdapterCode.bindFields_restores hlawful hcontents
  refine ⟨xs, hxs, ?_⟩
  intro s
  have hbound := hbind s 0
  rw [i.fields] at hbound
  exact (if_pos rfl).trans hbound

end UserTypes

end DataAccess
