import DataAccess.Background.Call
import DataAccess.Background.Future
import DataAccess.Compile.AdapterCode
import DataAccess.Compile.Lowering
import DataAccess.Database.Adapter
import DataAccess.Database.Transaction
import Mathlib.Logic.Function.Basic

/-!
This module contains the meaning of the bodies of shortcuts. A body has adapters write what was passed to its
method, keeps or counts what they give back, and ends in a result. It is left by the first failure.

Parameters and the variables that the code declares are in one scope, where a variable hides what had its name
before. Code is made sense of before it runs: code that makes no sense in some place has no meaning at all.
-/

namespace DataAccess

open Code (Block CodeType Expr Stmt TypeExpr)

def IntType.all : List IntType :=
  [.i8, .i16, .i32, .i64, .i128, .isize, .u8, .u16, .u32, .u64, .u128, .usize]

def Code.TypeExpr.intType? (t : TypeExpr) : Option IntType :=
  t.simpleName.bind fun name => IntType.all.find? (·.name == name)

theorem Code.TypeExpr.exists_intType? {t : TypeExpr} (h : t.isInteger = true)
    : ∃ target, t.intType? = some target := by
  obtain ⟨name, hname, hmem⟩ := (Option.any_eq_true ..).1 h
  have hall : ∀ name ∈ integerNames, (IntType.all.find? (·.name == name)).isSome := by decide
  obtain ⟨target, htarget⟩ := Option.isSome_iff_exists.1 (hall name (List.contains_iff_mem.1 hmem))
  refine ⟨target, ?_⟩
  rw [intType?, hname]
  exact htarget

namespace Shortcut

inductive ValueType where
  | unit
  | count
  | integer (target : IntType)
  | rowId
  | rowIds

def ValueType.Val : ValueType → Type
  | unit => Unit
  | count => Nat
  | integer _ => Int
  | rowId => Int64
  | rowIds => List Int64

structure Deed (σ : Type) where
  type : ValueType
  run : Operation σ type.Val

def Deed.count? : Deed σ → Option (Operation σ Nat)
  | ⟨.count, run⟩ => some run
  | _ => none

inductive Passed (α : Type) where
  | one (entity : α)
  | many (entities : List α)

def Passed.isMany : Passed α → Bool
  | one _ => false
  | many _ => true

inductive Writer (α : Type) where
  | insertion (a : Adapter α)
  | change (a : Adapter α)
  | upsertion (a : UpsertAdapter α)

def Writer.call (e : Engine σ Statement) : Writer α → Code.Method → Passed α → Option (Deed σ)
  | insertion a, .insert, .one x => some ⟨.unit, a.insertUnit e x⟩
  | insertion a, .insertAll, .many xs => some ⟨.unit, a.insertAllUnit e xs⟩
  | insertion a, .insertReturningId, .one x => some ⟨.rowId, a.insert e x⟩
  | insertion a, .insertReturningIds, .many xs => some ⟨.rowIds, a.insertAll e xs⟩
  | change a, .handle, .one x => some ⟨.count, a.handle e x⟩
  | change a, .handleAll, .many xs => some ⟨.count, a.handleAll e xs⟩
  | upsertion a, .upsert, .one x => some ⟨.unit, a.upsertUnit e x⟩
  | upsertion a, .upsertAll, .many xs => some ⟨.unit, a.upsertAllUnit e xs⟩
  | upsertion a, .upsertReturningId, .one x => some ⟨.rowId, a.upsert e x⟩
  | upsertion a, .upsertReturningIds, .many xs => some ⟨.rowIds, a.upsertAll e xs⟩
  | _, _, _ => none

/-- An adapter in a field. The types of entities have names. -/
structure Held (Ent : String → Type) where
  entity : String
  writer : Writer (Ent entity)

def Held.type {Ent : String → Type} (h : Held Ent) : HelperType :=
  match h.writer with
  | .insertion _ => .insertAdapter h.entity
  | .change _ => .changeAdapter h.entity
  | .upsertion _ => .upsertAdapter h.entity

inductive Argument (Ent : String → Type) where
  | entities (entity : String) (passed : Passed (Ent entity))
  | other

def Argument.isMany {Ent : String → Type} : Argument Ent → Bool
  | entities _ passed => passed.isMany
  | other => false

def Argument.passed? {Ent : String → Type} (entity : String) : Argument Ent → Option (Passed (Ent entity))
  | entities own passed => if h : own = entity then some (h ▸ passed) else none
  | other => none

inductive Variable (Ent : String → Type) (V : Type) where
  | implementation
  | signal
  | argument (a : Argument Ent)
  | value (type : ValueType) (read : V → type.Val)

def Variable.argument? {Ent : String → Type} {V : Type} : Variable Ent V → Option (Argument Ent)
  | argument a => some a
  | _ => none

abbrev Scope (Ent : String → Type) (V : Type) :=
  String → Option (Variable Ent V)

namespace Scope

variable {Ent : String → Type} {V : Type}

def behind (scope : Scope Ent V) (T : Type) : Scope Ent (V × T) :=
  fun x => (scope x).map fun
    | .implementation => .implementation
    | .signal => .signal
    | .argument a => .argument a
    | .value type read => .value type fun values => read values.1

def declare (scope : Scope Ent V) (x : String) (v : Variable Ent V) : Scope Ent V :=
  Function.update scope x (some v)

def get? (scope : Scope Ent V) (x : String) : Option (Argument Ent) :=
  (scope x).bind Variable.argument?

def isImplementation (scope : Scope Ent V) (x : String) : Bool :=
  match scope x with
  | some .implementation => true
  | _ => false

def count? (scope : Scope Ent V) (x : String) : Option (V → Nat) :=
  match scope x with
  | some (.value .count read) => some read
  | _ => none

/-- Adds to a variable. The sum is taken to fit a machine word, like the counts that it is made of. -/
def add (scope : Scope Ent V) (x : String) (read : V → Nat) : Scope Ent (V × Nat) :=
  (scope.behind Nat).declare x (.value .count fun values => read values.1 + values.2)

/-- The argument that an expression passes on: a reference to an entity, or references to entities. -/
def passed? (scope : Scope Ent V) : Expr → Option (Argument Ent)
  | .borrow (.var x) => (scope.get? x).filter fun a => !a.isMany
  | .method (.var x) .iter [] => (scope.get? x).filter Argument.isMany
  | _ => none

end Scope

/-- What code does, and the type of what it comes to, by the values of its variables. -/
structure Course (σ V : Type) where
  type : ValueType
  run : V → Operation σ type.Val

variable {Ent : String → Type} {V : Type}

def Scope.result (scope : Scope Ent V) : Expr → Option (Course σ V)
  | .ok .unit => some ⟨.unit, fun _ => pure ()⟩
  | .ok (.var x) => do
    let .value type read ← scope x | none
    return ⟨type, fun values => pure (read values)⟩
  | .call (.rowCount type) [.var x] => do
    let target ← type.intType?
    let read ← scope.count? x
    return ⟨.integer target, fun values => .ofExcept (rowCount target (read values))⟩
  | _ => none

def Course.after {T : Type} (first : Operation σ T) (rest : Course σ (V × T)) : Course σ V :=
  ⟨rest.type, fun values => do
    let value ← first
    rest.run (values, value)⟩

structure Surroundings (σ : Type) (Ent : String → Type) where
  engine : Engine σ Statement
  adapter : String → Option (Held Ent)
  argument : String → Option (Argument Ent)

structure Handover (σ : Type) where
  delivery : Delivery
  inTransaction : Bool
  work : Deed σ

namespace Surroundings

variable (w : Surroundings σ Ent)

def scope : Scope Ent Unit :=
  fun x => (w.argument x).map .argument

def adapter? (scope : Scope Ent V) : Expr → Option (Held Ent)
  | .field (.var x) field => if x = "self" || scope.isImplementation x then w.adapter field else none
  | _ => none

def eval (scope : Scope Ent V) : Expr → Option (Deed σ)
  | .number n _ => some ⟨.count, pure n⟩
  | .attempt (.method receiver method [e]) => do
    let held ← w.adapter? scope receiver
    let argument ← scope.passed? e
    held.writer.call w.engine method (← argument.passed? held.entity)
  | _ => none

def exec {V : Type} (scope : Scope Ent V) : List Stmt → Expr → Option (Course σ V)
  | [], e => scope.result e
  | .run code :: rest, e => do
    let first ← w.eval scope code
    return .after first.run (← exec (scope.behind _) rest e)
  | .bind _ x _ code :: rest, e => do
    let first ← w.eval scope code
    let later := (scope.behind _).declare x (.value first.type Prod.snd)
    return .after first.run (← exec later rest e)
  | .addTo x code :: rest, e => do
    let read ← scope.count? x
    let more ← (← w.eval scope code).count?
    return .after more (← exec (scope.add x read) rest e)
  | _, _ => none

def block (scope : Scope Ent Unit) : Block → Option (Deed σ)
  | .mk statements (some e) => do
    let course ← w.exec scope statements e
    return ⟨course.type, course.run ()⟩
  | .mk _ none => none

def capture (scope : Scope Ent Unit) : Stmt → Option (Scope Ent Unit)
  | .bind _ x _ (.call .clone [.var "self"]) => some (scope.declare x .implementation)
  | _ => none

def moved : Expr → Option (Deed σ)
  | .block (.mk captures (some (.closure true [(x, .signal)] _ body))) => do
    let scope ← captures.foldlM capture w.scope
    w.block (scope.declare x .signal) body
  | _ => none

def isHandle : Expr → Bool
  | .borrow e => isHandle e
  | .field (.var "self") "__db" => true
  | _ => false

/-- What the body of a method hands over. What it reports to is a parameter of its own. -/
def deliver : Block → Option (Handover σ)
  | .mk [] (some (.method handle .runInTransaction [.closure false [] _ body])) =>
    if isHandle handle then (w.block w.scope body).map (⟨.direct, true, ·⟩) else none
  | .mk [] (some (.call .createFuture [handle, .bool inTransaction, closure])) =>
    if isHandle handle then (w.moved closure).map (⟨.future, inTransaction, ·⟩) else none
  | .mk [.run (.call .launch [handle, .bool inTransaction, .var callback, closure])] none =>
    if isHandle handle && (w.argument callback).isNone then
      (w.moved closure).map (⟨.suspend, inTransaction, ·⟩)
    else none
  | _ => none

end Surroundings

namespace Handover

variable (e : Engine σ Statement)

def perform (h : Handover σ) : Operation σ h.work.type.Val :=
  Database.runIn e h.inTransaction h.work.run

/-- What the body comes to arrives with its caller, if nothing else goes on in the background. -/
def Arrives (h : Handover σ) (b : Background σ h.work.type.Val) : Prop :=
  match h.delivery with
  | .direct | .stream => True
  | .future =>
    let (number, b) := b.createFuture e h.inTransaction fun _ => h.work.run
    ((b.runFuture number).pollFuture number).1 = .ready (h.perform e b.database).1.result
  | .suspend => ∀ name : String,
    let (number, b) := b.launch e name h.inTransaction fun _ => h.work.run
    ((((b.startCall number).runCall number).deliver number).takeEvents number).1 =
      [.cancellable false, Background.report (h.perform e b.database).1.result]

end Handover

end Shortcut

end DataAccess
