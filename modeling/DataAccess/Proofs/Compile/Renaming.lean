import DataAccess.Proofs.Compile.References

/-!
This module contains the renaming of helpers in code. Main statement: code in which no helper gets another
name stays as it is.
-/

namespace DataAccess

namespace Code

def renamedField (f : String → String) : Expr → String → String
  | .var owner, name => if (owner = "self" ∨ owner = "__this") ∧ name ≠ "__db" then f name else name
  | _, name => name

mutual

def Expr.rename (f : String → String) : Expr → Expr
  | .var name => .var name
  | .text value => .text value
  | .number n typed => .number n typed
  | .bool b => .bool b
  | .unit => .unit
  | .field e name => .field (e.rename f) (renamedField f e name)
  | .call function args => .call function (renameExprs f args)
  | .function function => .function function
  | .method receiver m args => .method (receiver.rename f) m (renameExprs f args)
  | .borrow e => .borrow (e.rename f)
  | .borrowMut e => .borrowMut (e.rename f)
  | .attempt e => .attempt (e.rename f)
  | .add a b => .add (a.rename f) (b.rename f)
  | .array items => .array (renameExprs f items)
  | .ok e => .ok (e.rename f)
  | .err e => .err (e.rename f)
  | .some e => .some (e.rename f)
  | .none => .none
  | .missingResult statement => .missingResult (statement.rename f)
  | .record name fields => .record name (renameFields f fields)
  | .block b => .block (b.rename f)
  | .ifElse condition yes no => .ifElse (condition.rename f) (yes.rename f) (no.rename f)
  | .matchOption e binder present absent =>
    .matchOption (e.rename f) binder (present.rename f) (absent.rename f)
  | .closure moves params result body => .closure moves params result (body.rename f)

def renameExprs (f : String → String) : List Expr → List Expr
  | [] => []
  | e :: rest => e.rename f :: renameExprs f rest

def FieldInit.rename (f : String → String) : FieldInit → FieldInit
  | .mk name value => .mk name (value.rename f)

def renameFields (f : String → String) : List FieldInit → List FieldInit
  | [] => []
  | init :: rest => init.rename f :: renameFields f rest

def Stmt.rename (f : String → String) : Stmt → Stmt
  | .bind mutable name type value => .bind mutable name type (value.rename f)
  | .run e => .run (e.rename f)
  | .runBlock e => .runBlock (e.rename f)
  | .addTo name value => .addTo name (value.rename f)
  | .forIn name items body => .forIn name (items.rename f) (renameStmts f body)
  | .whileLoop condition body => .whileLoop (condition.rename f) (renameStmts f body)
  | .ret e => .ret (e.rename f)

def renameStmts (f : String → String) : List Stmt → List Stmt
  | [] => []
  | s :: rest => s.rename f :: renameStmts f rest

def Block.rename (f : String → String) : Block → Block
  | .mk statements none => .mk (renameStmts f statements) none
  | .mk statements (some result) => .mk (renameStmts f statements) (some (result.rename f))

end

def Fixes (f : String → String) (references : List Reference) : Prop :=
  ∀ name, .helper name ∈ references → f name = name

variable {f : String → String}

theorem fixes_nil : Fixes f [] :=
  fun _ h => by cases h

theorem fixes_append {first rest : List Reference}
    : Fixes f (first ++ rest) ↔ Fixes f first ∧ Fixes f rest := by
  constructor
  . intro h
    exact ⟨fun name hname => h name (List.mem_append_left _ hname),
      fun name hname => h name (List.mem_append_right _ hname)⟩
  . rintro ⟨hfirst, hrest⟩ name hname
    rcases List.mem_append.1 hname with hname | hname
    . exact hfirst name hname
    . exact hrest name hname

theorem renamedField_eq_self {e : Expr} {name : String} (h : Fixes f (ownField e name))
    : renamedField f e name = name := by
  cases e with
  | var owner =>
    unfold renamedField
    unfold ownField at h
    dsimp only at h ⊢
    split
    . next hown =>
      rw [if_pos hown] at h
      exact h name (by simp)
    . rfl
  | _ => rfl

mutual

theorem Expr.rename_eq_self : (e : Expr) → Fixes f e.references → e.rename f = e
  | .var _, _ | .text _, _ | .number _ _, _ | .bool _, _ | .unit, _ | .none, _ | .function _, _ => rfl
  | .field e name, h => by
    obtain ⟨hname, he⟩ := fixes_append.1 h
    rw [Expr.rename, renamedField_eq_self hname, e.rename_eq_self he]
  | .call _ args, h => by
    obtain ⟨_, hargs⟩ := fixes_append.1 h
    rw [Expr.rename, renameExprs_eq_self args hargs]
  | .method receiver _ args, h => by
    obtain ⟨hreceiver, hargs⟩ := fixes_append.1 h
    rw [Expr.rename, receiver.rename_eq_self hreceiver, renameExprs_eq_self args hargs]
  | .borrow e, h | .borrowMut e, h | .attempt e, h | .ok e, h | .err e, h | .some e, h
  | .missingResult e, h => by rw [Expr.rename, e.rename_eq_self h]
  | .add a b, h => by
    obtain ⟨ha, hb⟩ := fixes_append.1 h
    rw [Expr.rename, a.rename_eq_self ha, b.rename_eq_self hb]
  | .array items, h => by rw [Expr.rename, renameExprs_eq_self items h]
  | .record _ fields, h => by rw [Expr.rename, renameFields_eq_self fields h]
  | .block b, h => by rw [Expr.rename, b.rename_eq_self h]
  | .ifElse condition yes no, h => by
    obtain ⟨hfirst, hno⟩ := fixes_append.1 h
    obtain ⟨hcondition, hyes⟩ := fixes_append.1 hfirst
    rw [Expr.rename, condition.rename_eq_self hcondition, yes.rename_eq_self hyes, no.rename_eq_self hno]
  | .matchOption e _ present absent, h => by
    obtain ⟨hfirst, habsent⟩ := fixes_append.1 h
    obtain ⟨he, hpresent⟩ := fixes_append.1 hfirst
    rw [Expr.rename, e.rename_eq_self he, present.rename_eq_self hpresent, absent.rename_eq_self habsent]
  | .closure _ _ _ body, h => by rw [Expr.rename, body.rename_eq_self h]

theorem renameExprs_eq_self : (items : List Expr) → Fixes f (exprReferences items) →
    renameExprs f items = items
  | [], _ => rfl
  | e :: rest, h => by
    obtain ⟨he, hrest⟩ := fixes_append.1 h
    rw [renameExprs, e.rename_eq_self he, renameExprs_eq_self rest hrest]

theorem FieldInit.rename_eq_self : (init : FieldInit) → Fixes f init.references → init.rename f = init
  | .mk _ value, h => by rw [FieldInit.rename, value.rename_eq_self h]

theorem renameFields_eq_self : (fields : List FieldInit) → Fixes f (fieldReferences fields) →
    renameFields f fields = fields
  | [], _ => rfl
  | init :: rest, h => by
    obtain ⟨hinit, hrest⟩ := fixes_append.1 h
    rw [renameFields, init.rename_eq_self hinit, renameFields_eq_self rest hrest]

theorem Stmt.rename_eq_self : (s : Stmt) → Fixes f s.references → s.rename f = s
  | .bind _ _ _ value, h | .addTo _ value, h => by rw [Stmt.rename, value.rename_eq_self h]
  | .run e, h | .runBlock e, h | .ret e, h => by rw [Stmt.rename, e.rename_eq_self h]
  | .forIn _ items body, h | .whileLoop items body, h => by
    obtain ⟨hitems, hbody⟩ := fixes_append.1 h
    rw [Stmt.rename, items.rename_eq_self hitems, renameStmts_eq_self body hbody]

theorem renameStmts_eq_self : (statements : List Stmt) → Fixes f (stmtReferences statements) →
    renameStmts f statements = statements
  | [], _ => rfl
  | s :: rest, h => by
    obtain ⟨hs, hrest⟩ := fixes_append.1 h
    rw [renameStmts, s.rename_eq_self hs, renameStmts_eq_self rest hrest]

theorem Block.rename_eq_self : (b : Block) → Fixes f b.references → b.rename f = b
  | .mk statements none, h => by rw [Block.rename, renameStmts_eq_self statements h]
  | .mk statements (some result), h => by
    obtain ⟨hstatements, hresult⟩ := fixes_append.1 h
    rw [Block.rename, renameStmts_eq_self statements hstatements, result.rename_eq_self hresult]

end

theorem renameStmts_eq_map (f : String → String) (statements : List Stmt)
    : renameStmts f statements = statements.map (Stmt.rename f) := by
  induction statements with
  | nil => rfl
  | cons s rest ih => rw [renameStmts, ih, List.map_cons]

end Code

end DataAccess
