import DataAccess.Proofs.Lists
import DataAccess.Proofs.Rows.Meaning

/-!
This module contains how the functions that read rows look up columns. Main statement: they find the columns
of all fields, one after the other and up to the first that is not there.
-/

namespace DataAccess

namespace Attempt

def ofExcept (r : Except Fault α) : Attempt α :=
  ExceptT.mk (some r)

theorem ofExcept_bind (r : Except Fault α) (f : α → Except Fault β)
    : ofExcept (r >>= f) = ofExcept r >>= fun a => ofExcept (f a) := by
  cases r with
  | ok | error => rfl

theorem ofExcept_mapM {l : List α} {f : α → Attempt β} {g : α → Except Fault β}
    (h : ∀ a ∈ l, f a = ofExcept (g a)) : l.mapM f = ofExcept (l.mapM g) := by
  induction l with
  | nil => rfl
  | cons a rest ih =>
    rw [List.mapM_cons, List.mapM_cons, h a List.mem_cons_self,
      ih fun b hb => h b (List.mem_cons_of_mem _ hb)]
    simp only [ofExcept_bind]
    rfl

end Attempt

namespace RowCode

theorem indexName_ne_cursor (f : Field) : indexName f ≠ "_cursor" := by
  intro h
  have hlength := congrArg String.toList h
  simp [indexName, String.toList_append] at hlength

theorem name_eq_of_indexName_eq {f g : Field} (h : indexName f = indexName g) : f.name = g.name :=
  (String.append_right_inj _).1 h

end RowCode

namespace UserTypes

def indexed (scope : String → Option RowBinding) (found : List (Field × Nat))
    : String → Option RowBinding :=
  found.foldl (fun scope (f, index) =>
    Function.update scope (RowCode.indexName f) (some (.column index))) scope

theorem indexed_of_ne {scope : String → Option RowBinding} {found : List (Field × Nat)} {x : String}
    (h : ∀ f ∈ found.map Prod.fst, x ≠ RowCode.indexName f) : indexed scope found x = scope x := by
  unfold indexed
  induction found generalizing scope with
  | nil => rfl
  | cons fi rest ih =>
    rw [List.foldl_cons, ih fun f hf => h f (List.mem_cons_of_mem _ hf)]
    exact Function.update_of_ne (h fi.1 List.mem_cons_self) ..

theorem indexed_of_mem {scope : String → Option RowBinding} {found : List (Field × Nat)}
    (hdistinct : ((found.map Prod.fst).map Field.name).Nodup) {f : Field} {index : Nat}
    (h : (f, index) ∈ found)
    : indexed scope found (RowCode.indexName f) = some (.column index) := by
  induction found generalizing scope with
  | nil => cases h
  | cons fi rest ih =>
    obtain ⟨hnew, hrest⟩ := List.nodup_cons.1 hdistinct
    change indexed (Function.update scope (RowCode.indexName fi.1) (some (.column fi.2))) rest _ = _
    rcases List.mem_cons.1 h with rfl | h
    . rw [indexed_of_ne]
      . exact Function.update_self ..
      . intro g hg heq
        apply hnew
        rw [RowCode.name_eq_of_indexName_eq heq]
        exact List.mem_map_of_mem hg
    . exact ih hrest h

theorem map_fst_of_mapM {fields : List Field} {found : List (Field × Nat)}
    {g : Field → Except Fault Nat} (h : (fields.mapM fun f => do return (f, ← g f)) = .ok found)
    : found.map Prod.fst = fields := by
  induction fields generalizing found with
  | nil =>
    cases h
    rfl
  | cons f rest ih =>
    rw [List.mapM_cons] at h
    cases hf : g f with
    | error =>
      rw [hf] at h
      cases h
    | ok index =>
      cases hrest : rest.mapM fun f => do return (f, ← g f) with
      | error =>
        rw [hf, hrest] at h
        cases h
      | ok more =>
        rw [hf, hrest] at h
        cases h
        exact congrArg (f :: ·) (ih hrest)

theorem lookUp_eq {c : Cursor} {scope : String → Option RowBinding}
    (hcursor : scope "_cursor" = some .cursor) (f : Field)
    : UserTypes.lookUp c scope (RowCode.lookUp f) = (do
        let index ← Attempt.ofExcept (c.columnIndex f.column)
        return Function.update scope (RowCode.indexName f) (some (.column index))) := by
  simp only [RowCode.lookUp, RowCode.cursorVar, UserTypes.lookUp, hcursor]
  rfl

/-- All columns are found, up to the first that is not there. -/
theorem foldlM_lookUp_eq {c : Cursor} (fields : List Field) {scope : String → Option RowBinding}
    (hcursor : scope "_cursor" = some .cursor)
    : (fields.map RowCode.lookUp).foldlM (UserTypes.lookUp c) scope = (do
        let found ← Attempt.ofExcept (fields.mapM fun f => do return (f, ← c.columnIndex f.column))
        return indexed scope found) := by
  induction fields generalizing scope with
  | nil => rfl
  | cons f rest ih =>
    rw [List.map_cons, List.foldlM_cons, lookUp_eq hcursor, List.mapM_cons]
    cases c.columnIndex f.column with
    | error => rfl
    | ok index =>
      have hcursor' : Function.update scope (RowCode.indexName f) (some (.column index)) "_cursor"
          = some .cursor :=
        (Function.update_of_ne (RowCode.indexName_ne_cursor f).symm ..).trans hcursor
      change List.foldlM _ _ _ = _
      rw [ih hcursor']
      cases rest.mapM fun f => do return (f, ← c.columnIndex f.column) with
      | error | ok => rfl

end UserTypes

end DataAccess
