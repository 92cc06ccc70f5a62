import DataAccess.Compile.Binding
import DataAccess.Statement.Lease

/-!
This module contains the meaning of the code that declares a statement and binds its arguments. Code runs on a
frame, where the parameters of the method and the variables that the code declares are in one scope: a variable
hides what had its name before. Code that makes no sense has no meaning. Among what is noted are the statement
as it is declared and every binding, in order.
-/

namespace DataAccess.Code

/-- What a call supplies. Arguments are of a type `α`, and a converter takes them to that type. -/
structure Call (α : Type) where
  argument : String → α
  items : String → List α
  convert : Path → α → α
  convertCount : Path → Nat → Option α
  toValue : α → Value
  field : String → Option SharedStatement

inductive Datum where
  | text (s : String)
  | count (n : Nat)
  | statement (s : Statement)

/-- What a variable stands for: something that was passed, or something that code has declared for itself. The
code here makes no use of others. -/
inductive Variable (α β : Type) where
  | argument (a : α)
  | items (l : List α)
  | held (mutable : Bool) (d : Datum)
  | other (b : β)

inductive Happening where
  | declared (s : Statement)
  | bound (slot : Nat) (v : Value)

structure Frame (α β : Type) where
  vars : List (String × Variable α β)
  noted : List Happening

def replace (x : String) (v : Variable α β) : List (String × Variable α β) → List (String × Variable α β)
  | [] => []
  | (y, old) :: rest => if y = x then (y, v) :: rest else (y, old) :: replace x v rest

namespace Frame

def get? (f : Frame α β) (x : String) : Option (Variable α β) :=
  f.vars.lookup x

def argument? (f : Frame α β) (x : String) : Option α :=
  match f.get? x with
  | some (.argument a) => some a
  | _ => none

def items? (f : Frame α β) (x : String) : Option (List α) :=
  match f.get? x with
  | some (.items l) => some l
  | _ => none

def datum? (f : Frame α β) (x : String) : Option Datum :=
  match f.get? x with
  | some (.held _ d) => some d
  | _ => none

def count? (f : Frame α β) : Expr → Option Nat
  | .borrow e => count? f e
  | .var x =>
    match f.datum? x with
    | some (.count n) => some n
    | _ => none
  | _ => none

def push (f : Frame α β) (x : String) (v : Variable α β) : Frame α β :=
  { f with vars := (x, v) :: f.vars }

def put (f : Frame α β) (x : String) (v : Variable α β) : Frame α β :=
  { f with vars := replace x v f.vars }

def note (f : Frame α β) (h : Happening) : Frame α β :=
  { f with noted := f.noted ++ [h] }

def declare (f : Frame α β) (mutable : Bool) (x : String) : Datum → Frame α β
  | .statement s => (f.push x (.held mutable (.statement s))).note (.declared s)
  | d => f.push x (.held mutable d)

def change (f : Frame α β) (x : String) (g : Datum → Option Datum) : Option (Frame α β) := do
  let .held true d ← f.get? x | none
  return f.put x (.held true (← g d))

end Frame

namespace Call

variable (c : Call α)

def bound? (f : Frame α β) : Expr → Option α
  | .var x => f.argument? x
  | .borrow e => bound? f e
  | .call (.toColumn path) [e] =>
    match f.count? e with
    | some n => c.convertCount path n
    | none => (bound? f e).map (c.convert path)
  | _ => none

def eval (f : Frame α β) : Expr → Option Datum
  | .text s => some (.text s)
  | .number n _ => some (.count n)
  | .var x => f.datum? x
  | .add a b => do
    let .count m ← eval f a | none
    let .count n ← eval f b | none
    return .count (m + n)
  | .call .newText [] => some (.text "")
  | .call .acquire [sql, slots] => do
    let .text sql ← eval f sql | none
    let .count slots ← eval f slots | none
    return .statement (.acquire sql slots)
  | .method (.var x) .len [] => (f.items? x).map fun l => .count l.length
  | .method (.field (.var "self") x) .acquire [] => do
    return .statement (← c.field x).acquire.1.statement
  | .method (.field (.var "self") x) .newQuery [] => do
    return .statement (← c.field x).newQuery
  | _ => none

def appendText (s : String) : Datum → Option Datum
  | .text t => some (.text (t ++ s))
  | _ => none

def appendMarks (n : Nat) : Datum → Option Datum
  | .text t => some (.text (appendPlaceholders t n))
  | _ => none

def addCount (n : Nat) : Datum → Option Datum
  | .count m => some (.count (m + n))
  | _ => none

def bindSlot (slot : Nat) (v : Value) : Datum → Option Datum
  | .statement s => some (.statement (s.bind slot v))
  | _ => none

def effect (f : Frame α β) : Expr → Option (Frame α β)
  | .method (.var x) .pushText [e] => do
    let .text s ← c.eval f e | none
    f.change x (appendText s)
  | .call .appendPlaceholders [.borrowMut (.var x), e] => do
    let .count n ← c.eval f e | none
    f.change x (appendMarks n)
  | .method (.var x) .bind [slot, e] => do
    let .count i ← c.eval f slot | none
    let a ← c.bound? f e
    return (← f.change x (bindSlot i (c.toValue a))).note (.bound i (c.toValue a))
  | _ => none

def step (f : Frame α β) : Stmt → Option (Frame α β)
  | .run e => c.effect f e
  | .addTo x e => do
    let .count n ← c.eval f e | none
    f.change x (addCount n)
  | _ => none

def goThrough (f : Frame α β) (x : String) (body : List Stmt) (a : α) : Option (Frame α β) := do
  let g ← body.foldlM c.step (f.push x (.argument a))
  return { g with vars := g.vars.tail }

end Call

def Stmt.exec (c : Call α) (f : Frame α β) : Stmt → Option (Frame α β)
  | .bind mutable x _ e => do return f.declare mutable x (← c.eval f e)
  | .forIn x (.method (.var items) .iter []) body => do
    (← f.items? items).foldlM (fun f a => c.goThrough f x body a) f
  | s => c.step f s

def execAll (c : Call α) (f : Frame α β) : List Stmt → Option (Frame α β)
  | [] => some f
  | s :: rest => do execAll c (← s.exec c f) rest

def prepared? : Expr → Option SharedStatement
  | .call .newSharedStatement [.text sql, .number slots _] => some (.new sql slots)
  | _ => none

theorem exec_bind {c : Call α} {f : Frame α β} {e : Expr} {d : Datum} (h : c.eval f e = some d)
    (mutable : Bool) (x : String) (type : Option CodeType)
    : (Stmt.bind mutable x type e).exec c f = some (f.declare mutable x d) := by
  simp only [Stmt.exec, h, Option.bind_eq_bind, Option.bind_some]
  rfl

theorem execAll_append (c : Call α) (f : Frame α β) (front back : List Stmt)
    : execAll c f (front ++ back) = (execAll c f front).bind (execAll c · back) := by
  induction front generalizing f with
  | nil => simp [execAll]
  | cons s rest ih =>
    simp only [List.cons_append, execAll, Option.bind_eq_bind, Option.bind_assoc]
    simp only [ih]

end DataAccess.Code
