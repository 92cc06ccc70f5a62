import DataAccess.Proofs.Rows.Bound

/-!
This module contains the calls that a binding function makes: which slot it binds to which value, one call
after the other. Main statement: for a list of fields there is one call for each, in their order and with the
slots counted from one, and what is bound is what is stored for the field.
-/

namespace DataAccess

open Code (Block Expr Path Stmt)

variable {τ : Type} {Val : τ → Type} {e : Entity}

def Statement.bindAll (s : Statement) (calls : List (Nat × Value)) : Statement :=
  calls.foldl (fun s call => s.bind call.1 call.2) s

namespace UserTypes

/-- What is stored for a value of a field. A converter does not see that a value is absent. -/
def stored (u : UserTypes Val) : (f : Field) → (u.fieldType f).Val Val → Value
  | ⟨name, _, _, none⟩, a => u.toValue (u.field name) a
  | ⟨_, _, false, some p⟩, a => u.toValue (u.column p) (u.toColumn p a)
  | ⟨_, _, true, some p⟩, o => Option.elim o .null fun a => u.toValue (u.column p) (u.toColumn p a)

section

variable (u : UserTypes Val) [DecidableEq τ]

def Instance.stored? {u : UserTypes Val} (i : u.Instance e) (f : Field) : Option Value := do
  let v ← i.record.entries.lookup f.name
  let a ← v.as? (u.fieldType f)
  return u.stored f a

def call? (scope : String → Option (Binding Val)) : Expr → Option (Nat × Value)
  | .method (.var x) .bind [.number slot _, e] => do
    let .statement ← scope x | none
    let ⟨.one t, a⟩ ← u.eval scope e | none
    return (slot, u.toValue t a)
  | .method (.var x) .bindNull [.number slot _] => do
    let .statement ← scope x | none
    return (slot, .null)
  | .matchOption e x (.mk [] (some present)) absent => do
    let ⟨.option t, o⟩ ← u.eval scope e | none
    match o with
    | some a => call? (Function.update scope x (some (.typed ⟨.one t, a⟩))) present
    | none => call? scope absent
  | _ => none

def callOf? (scope : String → Option (Binding Val)) : Stmt → Option (Nat × Value)
  | .run e | .runBlock e => u.call? scope e
  | _ => none

def calls? (binder : Expr) (r : Record Val) : Option (List (Nat × Value)) :=
  match binder with
  | .closure _ [(x, .statement), (y, .entity name)] none (.mk body none) =>
    let scope := Function.update (fun _ => none) x (some .statement)
    if name = r.name then body.mapM (u.callOf? (Function.update scope y (some (.record r)))) else none
  | _ => none

section

variable {scope : String → Option (Binding Val)}

theorem call?_bind {e : Expr} {t : τ} {a : Val t} (hscope : scope "_statement" = some .statement)
    (h : u.eval scope e = some ⟨.one t, a⟩) (slot : Nat)
    : u.call? scope (.method BoundStatement.statementVar .bind [.number slot true, e])
        = some (slot, u.toValue t a) := by
  simp only [BoundStatement.statementVar, call?, hscope, h]
  rfl

theorem call?_bindNull (hscope : scope "_statement" = some .statement) (slot : Nat)
    : u.call? scope (.method BoundStatement.statementVar .bindNull [.number slot true])
        = some (slot, .null) := by
  simp only [BoundStatement.statementVar, call?, hscope]
  rfl

theorem call?_matchOption {e present absent : Expr} {name : String} {t : τ} {o : Option (Val t)}
    (h : u.eval scope e = some ⟨.option t, o⟩)
    : u.call? scope (.matchOption e name (.ofExpr present) absent)
        = o.elim (u.call? scope absent) fun a =>
          u.call? (Function.update scope name (some (.typed ⟨.one t, a⟩))) present := by
  rw [Block.ofExpr, call?, h]
  cases o with
  | none => rfl
  | some a => rfl

end

theorem effect_eq_call? (scope : String → Option (Binding Val)) (s : Statement) (e : Expr)
    : u.effect scope s e = (u.call? scope e).map fun call => s.bind call.1 call.2 := by
  fun_induction u.effect scope s e with
  | case1 scope x slot _ e =>
    unfold call?
    cases scope x with
    | none => rfl
    | some b =>
      cases b with
      | statement =>
        cases u.eval scope e with
        | none => rfl
        | some v =>
          obtain ⟨t, a⟩ := v
          cases t with
          | one | option => rfl
      | record | typed => rfl
  | case2 scope x slot =>
    unfold call?
    cases scope x with
    | none => rfl
    | some b =>
      cases b with
      | statement | record | typed => rfl
  | case3 scope e x present absent ihpresent ihabsent =>
    unfold call?
    cases u.eval scope e with
    | none => rfl
    | some v =>
      obtain ⟨t, o⟩ := v
      cases t with
      | one => rfl
      | option t =>
        cases o with
        | none => exact ihabsent
        | some a => exact ihpresent t a
  | case4 _ _ hbind hnull hmatch =>
    rw [call?]
    . rfl
    . exact hbind
    . exact hnull
    . exact hmatch

theorem foldlM_exec_eq (scope : String → Option (Binding Val)) (s : Statement) (body : List Stmt)
    : body.foldlM (u.exec scope) s = (body.mapM (u.callOf? scope)).map s.bindAll := by
  have hexec (s : Statement) (st : Stmt)
      : u.exec scope s st = (u.callOf? scope st).map fun call => s.bind call.1 call.2 := by
    cases st with
    | run e | runBlock e => exact u.effect_eq_call? scope s e
    | _ => rfl
  induction body generalizing s with
  | nil => rfl
  | cons st rest ih =>
    rw [List.foldlM_cons, List.mapM_cons, hexec]
    cases u.callOf? scope st with
    | none => rfl
    | some call =>
      refine (ih (s.bind call.1 call.2)).trans ?_
      cases rest.mapM (u.callOf? scope) with
      | none | some => rfl

theorem callBinder_eq (binder : Expr) (s : Statement) (r : Record Val)
    : u.callBinder binder s r = (u.calls? binder r).map s.bindAll := by
  unfold callBinder
  split
  . unfold calls?
    dsimp only
    split
    . exact u.foldlM_exec_eq _ s _
    . rfl
  . next hnot =>
    rw [calls?]
    . rfl
    . exact hnot

end

end UserTypes

section

variable {u : UserTypes Val} [DecidableEq τ] {r : Record Val}

theorem UserTypes.Instance.stored?_eq (i : u.Instance e) {f : Field} {a : (u.fieldType f).Val Val}
    (h : (f, ⟨u.fieldType f, a⟩) ∈ i.contents) : i.stored? f = some (u.stored f a) := by
  unfold stored?
  rw [i.lookup_entries h]
  simp [TypedValue.as?]

namespace AdapterCode

theorem callOf?_bindField {f : Field} {a : (u.fieldType f).Val Val}
    (hr : r.entries.lookup f.name = some ⟨u.fieldType f, a⟩) (slot : Nat)
    : u.callOf? (scope r) (bindField slot f) = some (slot, u.stored f a) := by
  have hfield := (eval_fieldOf (u := u) f).trans hr
  obtain ⟨name, column, nullable, converter⟩ := f
  cases converter with
  | none => exact u.call?_bind (scope_statement r) hfield slot
  | some p =>
    cases nullable with
    | false => exact u.call?_bind (scope_statement r) (u.eval_toColumn hfield) slot
    | true =>
      refine (u.call?_matchOption hfield).trans ?_
      cases a with
      | none => exact u.call?_bindNull (scope_statement r) slot
      | some a =>
        apply u.call?_bind
        . simp [scope_statement]
        . apply u.eval_toColumn
          simp [UserTypes.eval]

theorem calls?_binder {fields : List Field} (hfields : fields ⊆ e.fields) (i : u.Instance e)
    : ∃ calls,
        u.calls? (binder e fields) i.record = some calls ∧
          calls.map Prod.fst = List.range' 1 fields.length ∧
          calls.map (fun call => some call.2) = fields.map i.stored? := by
  have hbound (before : Nat)
      : ∃ calls,
          ((fields.zipIdx before).map fun entry => bindField (entry.2 + 1) entry.1).mapM
              (u.callOf? (scope i.record))
            = some calls ∧
          calls.map Prod.fst = List.range' (before + 1) fields.length ∧
          calls.map (fun call => some call.2) = fields.map i.stored? := by
    induction fields generalizing before with
    | nil => exact ⟨[], rfl, rfl, rfl⟩
    | cons f rest ih =>
      obtain ⟨hf, hrest⟩ := List.cons_subset.1 hfields
      rw [← i.fields] at hf
      obtain ⟨⟨_, t, a⟩, hmem, rfl⟩ := List.mem_map.1 hf
      obtain rfl : t = _ := i.typed _ _ hmem
      obtain ⟨calls, hcalls, hslots, hvalues⟩ := ih hrest (before + 1)
      refine ⟨(before + 1, u.stored _ a) :: calls, ?_, ?_, ?_⟩
      . rw [List.zipIdx_cons, List.map_cons, List.mapM_cons,
          callOf?_bindField (i.lookup_entries hmem), hcalls]
        rfl
      . rw [List.map_cons, hslots]
        rfl
      . rw [List.map_cons, List.map_cons, i.stored?_eq hmem, hvalues]
  obtain ⟨calls, hcalls, hslots, hvalues⟩ := hbound 0
  exact ⟨calls, (if_pos rfl).trans hcalls, hslots, hvalues⟩

end AdapterCode

end

end DataAccess
