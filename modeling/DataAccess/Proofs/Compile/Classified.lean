import DataAccess.Compile.Plan
import DataAccess.Proofs.Binding.Denotation
import DataAccess.Proofs.Lists

/-!
This module contains what is certain of a method once it has its category. What the category refers to
is what the interface has under that name, its statement is that of the method, and the method can
deliver its result in the way it is to.
-/

namespace DataAccess

/-- The table that rows of an entity are written to: for a part of an entity, that of the whole. -/
def Interface.writtenTable? (i : Interface) (e : Entity) : Option String :=
  match e.projectionOf with
  | some full => (i.entity? full).map Entity.table
  | none => some e.table

structure Interface.Checked (i : Interface) (e : Entity) : Prop where
  entity : i.entity? e.name = some e
  declared : ∀ c ∈ e.converters, i.declares c = true

/-- An entity that is read is the one that the interface has under its name. -/
def Row.Known (i : Interface) : Row → Prop
  | entity e => i.entity? e.name = some e
  | scalar _ => True

def Row.Checked (i : Interface) : Row → Prop
  | entity e => i.Checked e
  | scalar _ => True

theorem Row.Checked.known {i : Interface} {r : Row} (h : r.Checked i) : r.Known i := by
  cases r with
  | entity e => exact h.entity
  | scalar => trivial

structure ResolvedTarget.Known (i : Interface) (t : ResolvedTarget) : Prop where
  entity : i.entity? t.entity.name = some t.entity
  table : i.writtenTable? t.entity = some t.table

/-- What a category refers to is what an interface has under that name. -/
def Category.Known (i : Interface) (m : Method) : Category → Prop
  | read q => q.shape.row.Known i
  | write q => ∃ sql, m.kind = .write sql ∧ BoundStatement.resolve m sql = .ok q.statement
  | shortcut s => ∀ t ∈ s.targets, t.Known i
  | raw q => q.shape.row.Known i
  | transaction _ | delegate _ => True

def RawSource.param? : RawSource → Option Parameter
  | text p | owned p | borrowed p => some p
  | missing => none

def Category.arguments (m : Method) : Category → List Parameter
  | read q => q.statement.params
  | write q => q.statement.params
  | shortcut s => s.targets.map (·.param)
  | transaction _ | delegate _ => m.params
  | raw q => q.source.param?.toList

namespace Interface

variable {i : Interface} {m : Method}

theorem name_of_entity? {name : String} {e : Entity} (h : i.entity? name = some e)
    : e.name = name := by
  simpa using List.find?_some h

theorem entity?_name {name : String} {e : Entity} (h : i.entity? name = some e)
    : i.entity? e.name = some e := by
  rw [name_of_entity? h]
  exact h

theorem converterProblems_eq_nil_iff {owner : String} {converters : List Code.Path}
    : i.converterProblems owner converters = [] ↔ ∀ c ∈ converters, i.declares c = true := by
  simp [converterProblems]

theorem checkedEntity_eq_ok {e e' : Entity} (h : i.checkedEntity e = .ok e')
    : e' = e ∧ ∀ c ∈ e.converters, i.declares c = true := by
  unfold checkedEntity at h
  split at h
  . next hnil =>
    cases h
    exact ⟨rfl, converterProblems_eq_nil_iff.1 hnil⟩
  . cases h

theorem requireEntity_eq_ok {name : String} {e : Entity} (h : i.requireEntity m name = .ok e)
    : i.entity? name = some e ∧ i.Checked e := by
  unfold requireEntity at h
  split at h
  . next found hfound =>
    obtain ⟨rfl, hdeclared⟩ := checkedEntity_eq_ok h
    exact ⟨hfound, entity?_name hfound, hdeclared⟩
  . cases h

theorem checked_of_resolveRow {row : RowShape} {r : Row} (h : i.resolveRow m row = .ok r)
    : r.Checked i := by
  cases row with
  | entity name =>
    obtain ⟨e, he, hr⟩ := exists_of_bind_eq_ok h
    cases hr
    exact (requireEntity_eq_ok he).2
  | scalar type =>
    cases h
    trivial

theorem checked_of_inferRow {type : Code.TypeExpr} {r : Row} (h : i.inferRow type = .ok r)
    : r.Checked i := by
  unfold inferRow at h
  split at h
  . next e hfound =>
    obtain ⟨e', he, hr⟩ := exists_of_bind_eq_ok h
    cases hr
    obtain ⟨rfl, hdeclared⟩ := checkedEntity_eq_ok he
    obtain ⟨name, _, hname⟩ := Option.bind_eq_some_iff.1 hfound
    exact ⟨entity?_name hname, hdeclared⟩
  . cases h
    trivial

theorem checked_of_resolveShape {declared : Option ResultShape} {s : Shape}
    (h : i.resolveShape m declared = .ok s) : s.row.Checked i := by
  have wrapped {multiplicity : Multiplicity} {value : Code.TypeExpr} {row : Except Problem Row}
      (hrow : ∀ r, row = .ok r → r.Checked i)
      (h : (do return ⟨multiplicity, ← row, value⟩) = Except.ok s) : s.row.Checked i := by
    obtain ⟨r, hr, hs⟩ := exists_of_bind_eq_ok h
    cases hs
    exact hrow r hr
  unfold resolveShape at h
  split at h
  . cases h
  . split at h
    . split at h
      . cases h
      . exact wrapped (fun _ => checked_of_resolveRow) h
    . split at h
      . cases h
      . exact wrapped (fun _ => checked_of_resolveRow) h
    . split at h
      . exact wrapped (fun _ => checked_of_inferRow) h
      . exact wrapped (fun _ => checked_of_inferRow) h
      . exact wrapped (fun _ => checked_of_inferRow) h

theorem resolveTarget_eq_ok {op : ShortcutOp} {t : Target} {r : ResolvedTarget}
    (h : i.resolveTarget m op t = .ok r) : r.Known i ∧ i.Checked r.entity ∧ r.param ∈ m.params := by
  unfold resolveTarget at h
  split at h
  . next param hparam =>
    obtain ⟨e, he, h⟩ := exists_of_bind_eq_ok h
    have hchecked := (requireEntity_eq_ok he).2
    have hmem := List.mem_of_find?_eq_some hparam
    obtain ⟨_, h⟩ := ok_of_guard h
    dsimp only at h
    split at h
    . next full hfull =>
      obtain ⟨whole, hwhole, h⟩ := exists_of_bind_eq_ok h
      obtain ⟨table, htable, h⟩ := exists_of_bind_eq_ok h
      cases htable
      obtain ⟨_, h⟩ := ok_of_guard h
      cases h
      refine ⟨⟨hchecked.entity, ?_⟩, hchecked, hmem⟩
      unfold writtenTable?
      rw [hfull]
      dsimp only
      rw [(requireEntity_eq_ok hwhole).1]
      rfl
    . next hwhole =>
      obtain ⟨table, htable, h⟩ := exists_of_bind_eq_ok h
      cases htable
      obtain ⟨_, h⟩ := ok_of_guard h
      cases h
      refine ⟨⟨hchecked.entity, ?_⟩, hchecked, hmem⟩
      unfold writtenTable?
      rw [hwhole]
  . cases h

theorem mem_of_mapM_resolveTarget {op : ShortcutOp} {targets : List Target}
    {resolved : List ResolvedTarget} (h : targets.mapM (i.resolveTarget m op) = .ok resolved)
    : ∀ r ∈ resolved, ∃ t ∈ targets, i.resolveTarget m op t = .ok r :=
  fun _ hr => exists_of_forall₂ (forall₂_of_mapM_eq_ok h) hr

end Interface

def MethodKind.shortcut? : MethodKind → Option (ShortcutOp × List Target)
  | insert targets policy => some (.insert policy, targets)
  | delete targets => some (.delete, targets)
  | update targets policy => some (.update policy, targets)
  | upsert targets => some (.upsert, targets)
  | read _ _ _ _ | write _ | transaction _ | raw _ _ _ | delegate _ => none

namespace Interface

variable {i : Interface} {m : Method}

inductive Resolved (i : Interface) (m : Method) : Category → Prop where
  | read {sql : String} {declared : Option ResultShape} {observed tables : List String}
      {inTransaction : Bool} {s : BoundStatement} {shape : Shape}
      (hkind : m.kind = .read sql declared observed inTransaction)
      (hstatement : BoundStatement.resolve m sql = .ok s)
      (hshape : i.resolveShape m declared = .ok shape) :
      Resolved i m (.read ⟨s, shape, tables, inTransaction⟩)
  | write {sql : String} {s : BoundStatement} {result : WriteResult} {tables : List String}
      (hkind : m.kind = .write sql) (hstatement : BoundStatement.resolve m sql = .ok s) :
      Resolved i m (.write ⟨s, result, tables⟩)
  | shortcut {op : ShortcutOp} {targets : List Target} {resolved : List ResolvedTarget}
      {result : ShortcutResult} (hkind : m.kind.shortcut? = some (op, targets))
      (htargets : targets.mapM (i.resolveTarget m op) = .ok resolved)
      (hresult : shortcutResult m op resolved = .ok result) :
      Resolved i m (.shortcut ⟨op, resolved, result⟩)
  | transaction {body : Code.Path} (hkind : m.kind = .transaction body) :
      Resolved i m (.transaction body)
  | raw {param : Option String} {declared : Option ResultShape} {tables : List String}
      {shape : Shape} (hkind : m.kind = .raw param declared tables)
      (hshape : i.resolveShape m declared = .ok shape) :
      Resolved i m (.raw ⟨rawSource m param, shape, tables⟩)
  | delegate {forwarded : String} {target : Method} (hkind : m.kind = .delegate forwarded) :
      Resolved i m (.delegate target)

theorem resolved_of_resolve {c : Category} (h : i.resolve m = .ok c) : Resolved i m c := by
  have shortcut {op : ShortcutOp} {targets : List Target} (hkind : m.kind.shortcut? = some (op, targets))
      (h : i.resolveShortcut m op targets = .ok c) : Resolved i m c := by
    unfold resolveShortcut at h
    obtain ⟨_, h⟩ := ok_of_guard h
    obtain ⟨resolved, hresolved, h⟩ := exists_of_bind_eq_ok h
    obtain ⟨result, hresult, h⟩ := exists_of_bind_eq_ok h
    cases h
    exact .shortcut hkind hresolved hresult
  unfold resolve at h
  split at h
  . next sql declared observed inTransaction hkind =>
    obtain ⟨s, hs, h⟩ := exists_of_bind_eq_ok h
    obtain ⟨_, h⟩ := ok_of_guard h
    obtain ⟨shape, hshape, h⟩ := exists_of_bind_eq_ok h
    cases h
    exact .read hkind hs hshape
  . next sql hkind =>
    obtain ⟨s, hs, h⟩ := exists_of_bind_eq_ok h
    obtain ⟨_, h⟩ := ok_of_guard h
    obtain ⟨result, _, h⟩ := exists_of_bind_eq_ok h
    cases h
    exact .write hkind hs
  . next targets policy hkind => exact shortcut (congrArg MethodKind.shortcut? hkind) h
  . next targets hkind => exact shortcut (congrArg MethodKind.shortcut? hkind) h
  . next targets policy hkind => exact shortcut (congrArg MethodKind.shortcut? hkind) h
  . next targets hkind => exact shortcut (congrArg MethodKind.shortcut? hkind) h
  . next body hkind =>
    cases h
    exact .transaction hkind
  . next param declared tables hkind =>
    unfold resolveRaw at h
    obtain ⟨_, h⟩ := ok_of_guard h
    obtain ⟨shape, hshape, h⟩ := exists_of_bind_eq_ok h
    cases h
    exact .raw hkind hshape
  . next forwarded hkind =>
    unfold resolveDelegate at h
    split at h
    . obtain ⟨_, h⟩ := ok_of_guard h
      obtain ⟨_, h⟩ := ok_of_guard h
      dsimp only at h
      split at h
      . cases h
      . obtain ⟨_, h⟩ := ok_of_guard h
        cases h
        exact .delegate hkind
    . cases h

theorem known_of_resolve {c : Category} (h : i.resolve m = .ok c) : c.Known i m := by
  cases resolved_of_resolve h with
  | read _ _ hshape => exact (checked_of_resolveShape hshape).known
  | write hkind hstatement => exact ⟨_, hkind, hstatement⟩
  | shortcut _ htargets _ =>
    intro r hr
    obtain ⟨t, _, ht⟩ := mem_of_mapM_resolveTarget htargets r hr
    exact (resolveTarget_eq_ok ht).1
  | transaction => trivial
  | raw _ hshape => exact (checked_of_resolveShape hshape).known
  | delegate => trivial

theorem param?_of_rawSource {param : Option String} {p : Parameter}
    (h : (rawSource m param).param? = some p) : p ∈ m.params := by
  unfold rawSource at h
  split at h
  . cases h
  . next found hfound =>
    obtain ⟨name, _, hparam⟩ := Option.bind_eq_some_iff.1 hfound
    have hmem := List.mem_of_find?_eq_some hparam
    split at h
    . cases h
      exact hmem
    . split at h
      . cases h
        exact hmem
      . cases h
        exact hmem
      . cases h

theorem arguments_subset {c : Category} (h : i.resolve m = .ok c) : c.arguments m ⊆ m.params := by
  cases resolved_of_resolve h with
  | read _ hstatement _ => exact BoundStatement.params_subset_of_resolve hstatement
  | write _ hstatement => exact BoundStatement.params_subset_of_resolve hstatement
  | shortcut _ htargets _ =>
    intro p hp
    obtain ⟨r, hr, rfl⟩ := List.mem_map.1 hp
    obtain ⟨t, _, ht⟩ := mem_of_mapM_resolveTarget htargets r hr
    exact (resolveTarget_eq_ok ht).2.2
  | raw _ _ =>
    intro p hp
    exact param?_of_rawSource (Option.mem_toList.1 hp)
  | transaction | delegate => exact List.Subset.refl m.params

theorem targets_of_rowIds {s : Shortcut} (h : i.resolve m = .ok (.shortcut s))
    (hresult : s.result = .rowId ∨ s.result = .rowIds) : s.targets.length = 1 := by
  cases resolved_of_resolve h with
  | @shortcut op targets resolved result _ _ hshortcut =>
    have hunit : .unit ≠ result := by
      rcases hresult with rfl | rfl
      . simp
      . simp
    have hcount (type : Code.TypeExpr) : .count type ≠ result := by
      rcases hresult with rfl | rfl
      . simp
      . simp
    unfold shortcutResult at hshortcut
    split at hshortcut
    . exact absurd (Except.ok.inj hshortcut) hunit
    . split at hshortcut
      . split at hshortcut
        . rfl
        . cases hshortcut
      . split at hshortcut
        . rfl
        . cases hshortcut
      all_goals
        split at hshortcut
        . exact absurd (Except.ok.inj hshortcut) (hcount _)
        . cases hshortcut

theorem category_of_write {sql : String} {s : BoundStatement} {c : Category}
    (h : i.resolve m = .ok c) (hkind : m.kind = .write sql)
    (hs : BoundStatement.resolve m sql = .ok s) : ∃ q : WriteQuery, c = .write q ∧ q.statement = s := by
  unfold resolve at h
  rw [hkind] at h
  obtain ⟨s', hs', h⟩ := exists_of_bind_eq_ok h
  obtain ⟨_, h⟩ := ok_of_guard h
  obtain ⟨result, _, h⟩ := exists_of_bind_eq_ok h
  cases h
  cases hs.symm.trans hs'
  exact ⟨_, rfl, rfl⟩

theorem problems_of_classify {c : Classified} (h : i.classify m = .ok c)
    : c.method = m ∧ i.resolve m = .ok c.category ∧
        i.converterProblems m.name (m.params.filterMap (·.converter)) = [] ∧
        deliveryProblems m c.category = [] := by
  unfold classify at h
  dsimp only at h
  split at h
  . cases h
  . next category hcategory =>
    split at h
    . cases h
    . next hnone =>
      cases h
      have hproblems := (Problem.combine_eq_none_iff _).1 hnone
      exact ⟨rfl, hcategory, List.append_eq_nil_iff.1 hproblems⟩

theorem classify_eq_ok {c : Classified} (h : i.classify m = .ok c)
    : c.method = m ∧ i.resolve m = .ok c.category ∧ c.category.supports m.delivery = true := by
  obtain ⟨hmethod, hcategory, _, hdelivery⟩ := problems_of_classify h
  refine ⟨hmethod, hcategory, ?_⟩
  unfold deliveryProblems at hdelivery
  split at hdelivery
  . cases hdelivery
  . next hsupports => simpa using hsupports

theorem exists_method_of_classified {classified : List Classified}
    (h : i.methods.map i.classify = classified.map .ok)
    : ∀ c ∈ classified, ∃ m ∈ i.methods, i.classify m = .ok c := by
  intro c hc
  rw [← List.mem_map, h]
  exact List.mem_map_of_mem hc

end Interface

end DataAccess
