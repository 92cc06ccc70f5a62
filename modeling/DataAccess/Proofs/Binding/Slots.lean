import DataAccess.Proofs.Binding.Denotation
import DataAccess.Proofs.Binding.Frames
import DataAccess.Proofs.Compile.Apart

/-!
This module contains what it means that code builds a statement: it declares the statement with a slot
for each value, and binds the values to the slots from the first one on, each once. A statement whose
first slots are bound and whose other slots are absent is what there is between two bindings. A parameter
that is called like a variable of the code is out of reach by then, and cannot be bound.
-/

namespace DataAccess

open Code (Call Datum Frame Happening Revised Stmt Variable execAll)
open Sql (Section)

def fill : List Section → List (List Char) → List Char
  | [], _ => []
  | .text chars :: rest, pieces => chars ++ fill rest pieces
  | .placeholder _ :: rest, piece :: pieces => piece ++ fill rest pieces
  | .placeholder _ :: rest, [] => fill rest []

def valueOf (c : Call α) (p : Parameter) : Value :=
  c.toValue (p.converter.elim id c.convert (c.argument p.name))

def itemValues (c : Call α) (p : Parameter) : List Value :=
  (c.items p.name).map fun a => c.toValue (p.converter.elim id c.convert a)

def boundFrom (start : Nat) (values : List Value) : List Happening :=
  values.zipIdx.map fun (v, i) => .bound (start + i + 1) v

def Code.Call.passed (c : Call α) (p : Parameter) : Variable α β :=
  if p.multiple then .items (c.items p.name) else .argument (c.argument p.name)

/-- A call opens a frame where nothing has happened yet and where each of some parameters stands for what is
passed for it. -/
structure Code.Call.Opens (c : Call α) (f : Frame α β) (params : List Parameter) : Prop where
  noted : f.noted = []
  passed : ∀ p ∈ params, f.get? p.name = some (c.passed p)

def Code.Call.opening (c : Call α) (params : List Parameter) : Frame α β :=
  ⟨params.map fun p => (p.name, c.passed p), []⟩

/-- The frame of code that has built a statement of a text with these values in its slots. -/
structure Built (f : Frame α β) (text : List Char) (values : List Value) : Prop where
  statement : f.datum? "_statement" = some (.statement ⟨String.ofList text, values⟩)
  noted : f.noted = .declared (.acquire (String.ofList text) values.length) :: boundFrom 0 values

/-- In a call, code builds a statement of a text with these values in its slots. -/
def Builds (c : Call α) (f : Frame α β) (code : List Stmt) (text : List Char) (values : List Value)
    : Prop :=
  ∃ g, execAll c f code = some g ∧ Built g text values

/-- The parameters of a statement that cannot be bound, because the code that binds them has variables of their
names by then. -/
def BoundStatement.hidden (s : BoundStatement) : List Parameter :=
  s.params.filter fun p => s.locals.contains p.name

theorem boundFrom_append (start : Nat) (front back : List Value)
    : boundFrom start (front ++ back)
        =
      boundFrom start front ++ boundFrom (start + front.length) back := by
  unfold boundFrom
  rw [List.zipIdx_append, List.map_append, List.append_right_inj]
  rw [Nat.zero_add, List.zipIdx_eq_map_add, List.map_map]
  apply List.map_congr_left
  rintro ⟨v, i⟩ _
  simp only [Function.comp, Happening.bound.injEq, and_true]
  omega

def partlyBound (text : List Char) (bound : List Value) (left : Nat) : Statement :=
  ⟨String.ofList text, bound ++ List.replicate left .null⟩

theorem partlyBound_nil (text : List Char) (left : Nat)
    : partlyBound text [] left = .acquire (String.ofList text) left := rfl

theorem partlyBound_zero (text : List Char) (bound : List Value)
    : partlyBound text bound 0 = ⟨String.ofList text, bound⟩ := by
  simp [partlyBound]

theorem bind_partlyBound (text : List Char) (bound : List Value) (left : Nat) (v : Value)
    : (partlyBound text bound (left + 1)).bind (bound.length + 1) v
        =
      partlyBound text (bound ++ [v]) left := by
  unfold partlyBound Statement.bind
  have : bound.length + 1 - (bound ++ List.replicate (left + 1) Value.null).length = 0 := by
    rw [List.length_append, List.length_replicate]
    omega
  simp only [this, List.replicate_zero, List.append_nil]
  rw [List.set_append_right _ _ (Nat.le_refl _), List.replicate_succ]
  simp

theorem BoundStatement.hidden_eq_nil {s : BoundStatement}
    : s.hidden = [] ↔ ∀ p ∈ s.params, p.name ∉ s.locals := by
  simp [hidden, List.filter_eq_nil_iff]

theorem BoundStatement.exists_of_hidden {s : BoundStatement} (h : s.hidden ≠ [])
    : ∃ p ∈ s.params, p.name ∈ s.locals := by
  obtain ⟨p, hp⟩ := List.exists_mem_of_ne_nil _ h
  rw [hidden, List.mem_filter, List.contains_iff_mem] at hp
  exact ⟨p, hp⟩

namespace Code.Call

variable (c : Call α) {f : Frame α β}

theorem Opens.argument {c : Call α} {params : List Parameter} (h : c.Opens f params) {p : Parameter}
    (hp : p ∈ params) (hmultiple : p.multiple = false)
    : f.get? p.name = some (.argument (c.argument p.name)) := by
  rw [h.passed p hp, Call.passed, hmultiple]
  rfl

theorem Opens.items {c : Call α} {params : List Parameter} (h : c.Opens f params) {p : Parameter}
    (hp : p ∈ params) (hmultiple : p.multiple = true)
    : f.get? p.name = some (.items (c.items p.name)) := by
  rw [h.passed p hp, Call.passed, hmultiple]
  rfl

theorem Opens.mono {c : Call α} {params more : List Parameter} (h : c.Opens f more) (hparams : params ⊆ more)
    : c.Opens f params where
  noted := h.noted
  passed p hp := h.passed p (hparams hp)

theorem opens_opening {params : List Parameter} (hdistinct : (params.map Parameter.name).Nodup)
    : c.Opens (c.opening params : Frame α β) params where
  noted := rfl
  passed p hp := by
    unfold opening Frame.get?
    induction params with
    | nil => cases hp
    | cons q rest ih =>
      rw [List.map_cons, List.nodup_cons] at hdistinct
      rw [List.map_cons, List.lookup_cons]
      rcases List.mem_cons.1 hp with rfl | hp
      . rw [BEq.rfl]
      . have hne : p.name ≠ q.name := fun heq => hdistinct.1 (heq ▸ List.mem_map_of_mem hp)
        rw [beq_eq_false_iff_ne.2 hne]
        exact ih hdistinct.2 hp

theorem bound?_converted (converter : Option Path) {plain argument : Expr} {a : α}
    (hplain : c.bound? f plain = some a) (hargument : c.bound? f argument = some a)
    (hcount : f.count? argument = none)
    : c.bound? f (BoundStatement.converted converter plain argument)
        =
      some (converter.elim id c.convert a) := by
  cases converter with
  | none => exact hplain
  | some path =>
    simp only [BoundStatement.converted, bound?, hargument, hcount]
    rfl

theorem bound?_scalarValue {p : Parameter} {a : α} (h : f.get? p.name = some (.argument a))
    : c.bound? f (BoundStatement.scalarValue p) = some (p.converter.elim id c.convert a) := by
  have hbound : c.bound? f (.borrow (.var p.name)) = some a := by simp [bound?, Frame.argument?, h]
  apply c.bound?_converted p.converter hbound hbound
  simp [Frame.count?, Frame.datum?, h]

theorem bound?_itemValue (p : Parameter) {a : α} (h : f.get? "_item" = some (.argument a))
    : c.bound? f (BoundStatement.itemValue p) = some (p.converter.elim id c.convert a) := by
  have hbound : c.bound? f (.var "_item") = some a := by simp [bound?, Frame.argument?, h]
  apply c.bound?_converted p.converter hbound hbound
  simp [Frame.count?, Frame.datum?, h]

/-- Data of the code are no values to be bound, unless a converter takes them for a count. -/
theorem bound?_scalarValue_of_held {p : Parameter} {mutable : Bool} {d : Datum}
    (h : f.get? p.name = some (.held mutable d))
    (hcount : ∀ n, d = .count n → ∀ path, c.convertCount path n = none)
    : c.bound? f (BoundStatement.scalarValue p) = none := by
  have hbound : c.bound? f (.borrow (.var p.name)) = none := by simp [bound?, Frame.argument?, h]
  unfold BoundStatement.scalarValue BoundStatement.converted
  cases p.converter with
  | none => exact hbound
  | some path =>
    cases d with
    | count n => simp [bound?, Frame.count?, Frame.datum?, h, hcount n rfl]
    | text | statement => simp [bound?, Frame.count?, Frame.argument?, Frame.datum?, h]

theorem exec_bindTo_eq_none {c : Call α} (slot : Expr) {value : Expr} (h : c.bound? f value = none)
    : (BoundStatement.bindTo slot value).exec c f = none := by
  simp only [BoundStatement.bindTo, BoundStatement.statementVar, Stmt.exec, step, effect, h]
  rcases c.eval f slot with _ | _ | _ | _
  all_goals rfl

end Code.Call

structure Underway (f : Frame α β) (text : List Char) (bound : List Value) (left : Nat) : Prop where
  statement : ∃ mutable,
    f.get? "_statement" = some (.held mutable (.statement (partlyBound text bound left))) ∧
      (left ≠ 0 → mutable = true)
  noted : f.noted =
    .declared (.acquire (String.ofList text) (bound.length + left)) :: boundFrom 0 bound

namespace Underway

variable {f g : Frame α β} {text : List Char} {bound : List Value}

theorem declare (f : Frame α β) (hf : f.noted = []) (mutable : Bool) (text : List Char) (slots : Nat)
    (hmut : slots ≠ 0 → mutable = true)
    : Underway (f.declare mutable "_statement" (.statement (.acquire (String.ofList text) slots)))
        text [] slots where
  statement := ⟨mutable, f.get?_declare_self .., hmut⟩
  noted := by simp [Frame.declare, Frame.note, Frame.push, hf, boundFrom]

theorem built (h : Underway f text bound 0) : Built f text bound where
  statement := by
    obtain ⟨mutable, hstatement, _⟩ := h.statement
    simp [Frame.datum?, hstatement, partlyBound_zero]
  noted := h.noted

theorem congr (h : Underway f text bound left) (hstatement : g.get? "_statement" = f.get? "_statement")
    (hnoted : g.noted = f.noted) : Underway g text bound left where
  statement := hstatement ▸ h.statement
  noted := hnoted.trans h.noted

theorem bindTo (c : Call α) (h : Underway f text bound (left + 1)) (slot value : Code.Expr)
    (hslot : c.eval f slot = some (.count (bound.length + 1))) (hvalue : c.bound? f value = some a)
    : ∃ g, c.step f (BoundStatement.bindTo slot value) = some g ∧
        Underway g text (bound ++ [c.toValue a]) left ∧
        Revised ["_statement"] f.vars g.vars := by
  obtain ⟨mutable, hstatement, hmut⟩ := h.statement
  -- A statement with a slot to go was declared as one that may be changed.
  rw [hmut (by omega)] at hstatement
  let next := Datum.statement (partlyBound text (bound ++ [c.toValue a]) left)
  have hbind : Call.bindSlot (bound.length + 1) (c.toValue a)
      (.statement (partlyBound text bound (left + 1))) = some next := by
    rw [Call.bindSlot, bind_partlyBound]
  refine ⟨(f.put "_statement" (.held true next)).note (.bound (bound.length + 1) (c.toValue a)), ?_, ?_, ?_⟩
  . simp only [BoundStatement.bindTo, BoundStatement.statementVar, Call.step, Call.effect, hslot, hvalue,
      Frame.change_of_held hstatement hbind, Option.bind_eq_bind, Option.bind_some]
    rfl
  . constructor
    . exact ⟨true, f.get?_put_self _ hstatement, fun _ => rfl⟩
    . have hlast : boundFrom bound.length [c.toValue a]
          = [.bound (bound.length + 1) (c.toValue a)] := rfl
      simp only [Frame.note, Frame.put, h.noted, boundFrom_append, Nat.zero_add, hlast,
        List.length_append, List.length_singleton, List.cons_append]
      rw [Nat.add_assoc, Nat.add_comm 1 left]
  . exact Revised.replace hstatement trivial

end Underway

end DataAccess
