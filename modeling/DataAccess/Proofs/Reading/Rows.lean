import DataAccess.Proofs.Compile.Written
import DataAccess.Proofs.Reading.Meaning
import DataAccess.Proofs.Rows.RoundTrip

/-!
This module contains what rows are read as. An entity has the columns of all its fields looked up first, and
then its fields are read, both in the order of the fields; a scalar is the first column. Main statement: the
code that reads a row does just this, up to the first failure.
-/

namespace DataAccess

open Code (Expr FieldInit)

def Cursor.showing (columns : List String) (row : RowValues) : Cursor :=
  { new columns [] none with current := some row }

namespace UserTypes

variable {τ : Type} {Val : τ → Type} (u : UserTypes Val)

/-- A field, read from the column of an index. A converter sees no absent value. -/
def readField (c : Cursor) (f : Field) (index : Nat) : Except Fault (TypedValue Val) :=
  match f.converter, f.nullable with
  | none, _ => do
    let a ← c.getWith (u.fromValue (u.field f.name)) index
    return ⟨.one (u.field f.name), a⟩
  | some p, false => do
    let a ← c.getWith (u.fromValue (u.column p)) index
    return ⟨.one (u.converted p), u.fromColumn p a⟩
  | some p, true =>
    if c.isNull index then return ⟨.option (u.converted p), none⟩
    else do
      let a ← c.getWith (u.fromValue (u.column p)) index
      return ⟨.option (u.converted p), some (u.fromColumn p a)⟩

def entityOf (e : Entity) (c : Cursor) : Except Fault (Record Val) := do
  let found ← e.fields.mapM fun f => do return (f, ← c.columnIndex f.column)
  let entries ← found.mapM fun (f, index) => do return (f.name, ← u.readField c f index)
  return ⟨e.name, entries⟩

theorem entityOf_congr {c d : Cursor} (hcolumns : c.columns = d.columns)
    (hcurrent : c.current = d.current) (e : Entity) : u.entityOf e c = u.entityOf e d := by
  have hindex (name : String) : c.columnIndex name = d.columnIndex name := by
    unfold Cursor.columnIndex Cursor.columnIndex?
    rw [hcolumns]
  have hfield (f : Field) (index : Nat) : u.readField c f index = u.readField d f index := by
    unfold readField Cursor.getWith Cursor.isNull
    rw [hcurrent]
  unfold entityOf
  simp only [hindex, hfield]

variable {u} [DecidableEq τ]

section Read

variable {c : Cursor} {scope : String → Option RowBinding} {name : String} {index : Nat}

theorem read_get_eq (hcursor : scope "_cursor" = some .cursor)
    (hname : scope name = some (.column index)) (t : τ)
    : u.read c scope (.attempt (.method RowCode.cursorVar (.get none) [.var name])) (.one t)
        = .ofExcept (α := Val t) (c.getWith (u.fromValue t) index) := by
  rw [RowCode.cursorVar, UserTypes.read.eq_def]
  simp only [hcursor, hname]
  rfl

theorem read_fromColumn_eq {p : Code.Path} {e : Expr} {r : Except Fault (Val (u.column p))}
    (h : u.read c scope e (.one (u.column p)) = .ofExcept r)
    : u.read c scope (.call (.fromColumn p) [e]) (.one (u.converted p))
        = .ofExcept (r.map (u.fromColumn p)) := by
  rw [UserTypes.read.eq_def]
  dsimp only
  rw [h]
  cases r with
  | error => rfl
  | ok a => exact dif_pos rfl

theorem read_some_eq {t : τ} {e : Expr} {r : Except Fault (Val t)}
    (h : u.read c scope e (.one t) = .ofExcept r)
    : u.read c scope (.some e) (.option t) = .ofExcept (r.map some) := by
  rw [UserTypes.read.eq_def]
  dsimp only
  rw [h]
  cases r with
  | error | ok => rfl

theorem read_isNull_eq (hcursor : scope "_cursor" = some .cursor)
    (hname : scope name = some (.column index)) {t : FieldType τ} {yes no : Expr}
    : u.read c scope
        (.ifElse (.method RowCode.cursorVar .isNull [.var name]) (.ofExpr yes) (.ofExpr no)) t
        = if c.isNull index then u.read c scope yes t else u.read c scope no t := by
  rw [RowCode.cursorVar, Code.Block.ofExpr, Code.Block.ofExpr, UserTypes.read.eq_def]
  simp only [hcursor, hname]

theorem readInit_of_read {types : String → Option (FieldType τ)} {e : Expr} {t : FieldType τ}
    {r : Except Fault (t.Val Val)} (htype : types name = some t)
    (h : u.read c scope e t = .ofExcept r)
    : u.readInit types c scope (.mk name e) = .ofExcept (r.map fun a => (name, ⟨t, a⟩)) := by
  simp only [readInit, htype, h]
  cases r with
  | error | ok => rfl

theorem readInit_readField {types : String → Option (FieldType τ)} {f : Field}
    (hcursor : scope "_cursor" = some .cursor)
    (hindex : scope (RowCode.indexName f) = some (.column index))
    (htype : types f.name = some (u.fieldType f))
    : u.readInit types c scope (.mk f.name (RowCode.readField f))
        = .ofExcept (do return (f.name, ← u.readField c f index)) := by
  have hget := read_get_eq (u := u) (c := c) hcursor hindex
  obtain ⟨name, column, nullable, converter⟩ := f
  match converter, nullable with
  | none, _ =>
    have hread := hget (u.field name)
    dsimp only [readField]
    generalize c.getWith (u.fromValue (u.field name)) index = r at hread ⊢
    refine (readInit_of_read htype hread).trans ?_
    cases r with
    | error | ok => rfl
  | some p, false =>
    have hread := hget (u.column p)
    dsimp only [readField]
    generalize c.getWith (u.fromValue (u.column p)) index = r at hread ⊢
    refine (readInit_of_read htype (read_fromColumn_eq hread)).trans ?_
    cases r with
    | error | ok => rfl
  | some p, true =>
    have hcolumn := hget (u.column p)
    have hnull : u.read c scope (RowCode.readField ⟨name, column, true, some p⟩)
        (.option (u.converted p)) = _ := read_isNull_eq hcursor hindex
    dsimp only [readField]
    generalize c.getWith (u.fromValue (u.column p)) index = r at hcolumn ⊢
    split at hnull
    . next habsent =>
      rw [if_pos habsent]
      exact readInit_of_read htype ((hnull.trans (read_none u _)).trans rfl)
    . next hpresent =>
      rw [if_neg hpresent]
      have hread := hnull.trans (read_some_eq (read_fromColumn_eq hcolumn))
      refine (readInit_of_read htype hread).trans ?_
      cases r with
      | error | ok => rfl

end Read

theorem callRow_eq_entityOf (u : UserTypes Val) {e : Entity}
    (hdistinct : (e.fields.map Field.name).Nodup) (c : Cursor)
    : u.callRow (u.declared e) c (RowCode.adapter e).body = .ofExcept (u.entityOf e c) := by
  unfold RowCode.adapter RowCode.body callRow entityOf
  dsimp only
  rw [foldlM_lookUp_eq e.fields (Function.update_self ..)]
  cases hfound : e.fields.mapM fun f => do return (f, ← c.columnIndex f.column) with
  | error => rfl
  | ok found =>
    have hfields := map_fst_of_mapM hfound
    have hinits : (found.map fun (f, _) => FieldInit.mk f.name (RowCode.readField f)).mapM
        (u.readInit (u.declared e) c
          (indexed (Function.update (fun _ => none) "_cursor" (some .cursor)) found))
          = .ofExcept (found.mapM fun (f, index) => do return (f.name, ← u.readField c f index)) := by
      rw [List.mapM_map]
      apply Attempt.ofExcept_mapM
      rintro ⟨f, index⟩ hmem
      have hf : f ∈ e.fields := hfields ▸ List.mem_map_of_mem (f := Prod.fst) hmem
      apply readInit_readField
      . rw [indexed_of_ne fun g _ => (RowCode.indexName_ne_cursor g).symm]
        exact Function.update_self ..
      . exact indexed_of_mem (hfields ▸ hdistinct) hmem
      . exact declared_of_nodup hdistinct hf
    rw [← hfields, List.map_map]
    change (do
      let inits ← (found.map fun (f, _) => FieldInit.mk f.name (RowCode.readField f)).mapM _
      return Record.mk e.name inits : Attempt (Record Val)) = _
    rw [hinits]
    exact (Attempt.ofExcept_bind _ _).symm

end UserTypes

namespace Perform

variable {τ : Type} {Val : τ → Type} {β : Type}

def ofExcept (r : Except Fault β) : Perform σ α Val β :=
  ofAttempt (.ofExcept r)

theorem onCursor_eq {p : Performance σ α Val} {c : Cursor} {f : Cursor → Attempt β}
    (hcursor : p.scope.isCursor "_cursor" = true) (hc : p.cursor = some c)
    : onCursor "_cursor" f p = ofAttempt (f c) p := by
  unfold onCursor
  rw [if_pos hcursor, hc]
  rfl

end Perform

namespace Surroundings

variable {τ : Type} {Val : τ → Type} (w : Surroundings σ α Val)

def rowValue (c : Cursor) : Row → Returned Val
  | .entity e => (w.types.entityOf e c).map .record
  | .scalar type => (c.getWith (w.types.fromValue (w.scalar type)) 0).map (.scalar (w.scalar type))

def rowOption (c : Cursor) : Row → Returned Val
  | .entity e => (w.rowValue c (.entity e)).map .just
  | .scalar type =>
    c.getWith (fun v =>
      if v.isNull then .ok .nothing
      else (w.types.fromValue (w.scalar type) v).map fun a => .just (.scalar (w.scalar type) a)) 0

def Finds (names : List String) : Row → Prop
  | .entity e => ∃ name, names = [name] ∧ w.function name = some (RowCode.adapter e) ∧
    w.struct e.name = some e ∧ (e.fields.map Field.name).Nodup
  | .scalar _ => True

variable {w}

theorem rowValue_congr {c d : Cursor} (hcolumns : c.columns = d.columns)
    (hcurrent : c.current = d.current) (row : Row) : w.rowValue c row = w.rowValue d row := by
  cases row with
  | entity e => exact congrArg (Except.map ReadValue.record) (w.types.entityOf_congr hcolumns hcurrent e)
  | scalar =>
    unfold rowValue Cursor.getWith
    rw [hcurrent]

theorem rowOption_congr {c d : Cursor} (hcolumns : c.columns = d.columns)
    (hcurrent : c.current = d.current) (row : Row) : w.rowOption c row = w.rowOption d row := by
  cases row with
  | entity e => exact congrArg (Except.map ReadValue.just) (rowValue_congr hcolumns hcurrent (.entity e))
  | scalar =>
    unfold rowOption Cursor.getWith
    rw [hcurrent]

variable [DecidableEq τ]

theorem callRow_eq {name : String} {e : Entity} (hfunction : w.function name = some (RowCode.adapter e))
    (hstruct : w.struct e.name = some e) (hdistinct : (e.fields.map Field.name).Nodup) (c : Cursor)
    : w.callRow name c = .ofExcept (w.rowValue c (.entity e)) := by
  have hentity : (RowCode.adapter e).entity = e.name := rfl
  unfold callRow
  rw [hfunction]
  dsimp only
  rw [hentity, hstruct]
  dsimp only [rowValue]
  rw [UserTypes.callRow_eq_entityOf w.types hdistinct]
  cases w.types.entityOf e c with
  | error | ok => rfl

variable {p : Performance σ α Val} {c : Cursor} {names : List String} {row : Row}

theorem read_value (hrow : w.Finds names row) (hcursor : p.scope.isCursor "_cursor" = true)
    (hc : p.cursor = some c)
    : w.read (row.readWith names).value p = Perform.ofExcept (w.rowValue c row) p := by
  cases row with
  | entity e =>
    obtain ⟨name, rfl, hfunction, hstruct, hdistinct⟩ := hrow
    have hcall : w.read ((Row.entity e).readWith [name]).value p
        = Perform.onCursor "_cursor" (w.callRow name) p := by
      simp only [Row.readWith, RowRead.ofEntity, RowCode.cursorVar, read]
      rfl
    rw [hcall, Perform.onCursor_eq hcursor hc, callRow_eq hfunction hstruct hdistinct]
    rfl
  | scalar type =>
    have hcolumn : w.read ((Row.scalar type).readWith names).value p
        = Perform.onCursor "_cursor" (fun c => w.column 0 c (.declared type)) p := by
      simp only [Row.readWith, RowRead.ofScalar, RowCode.cursorVar, read]
    rw [hcolumn, Perform.onCursor_eq hcursor hc]
    dsimp only [column, rowValue]
    cases c.getWith (w.types.fromValue (w.scalar type)) 0 with
    | error | ok => rfl

theorem read_optional (hrow : w.Finds names row) (hcursor : p.scope.isCursor "_cursor" = true)
    (hc : p.cursor = some c)
    : w.read (row.readWith names).optional p = Perform.ofExcept (w.rowOption c row) p := by
  cases row with
  | entity e =>
    have hjust : w.read ((Row.entity e).readWith names).optional
        = (do return .just (← w.read ((Row.entity e).readWith names).value)) := by
      simp only [Row.readWith, RowRead.ofEntity, read]
    rw [hjust]
    change (w.read _ p).bind _ = _
    rw [read_value hrow hcursor hc]
    dsimp only [rowOption]
    cases w.rowValue c (.entity e) with
    | error | ok => rfl
  | scalar type =>
    have hcolumn : w.read ((Row.scalar type).readWith names).optional p
        = Perform.onCursor "_cursor" (fun c => w.column 0 c (.option (.declared type))) p := by
      simp only [Row.readWith, RowRead.ofScalar, RowCode.cursorVar, read]
    rw [hcolumn, Perform.onCursor_eq hcursor hc]
    rfl

end Surroundings

end DataAccess
