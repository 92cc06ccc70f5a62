import DataAccess.Compile.Reading
import DataAccess.Database.Transaction
import DataAccess.Proofs.Binding.Meaning
import DataAccess.Proofs.Rows.Meaning

/-!
This module contains the meaning of the bodies of reading methods. A body declares its statement and has it
run, which gives an error or a cursor over rows, and reads these. It is left by a failure or a return at any
point, and closes its cursor on the way out. Whether a signal is set is looked at when the statement is run
and at each step to a row, and may be different each time.

The parameters of the method and all variables that the body declares are in one scope: a variable hides what
had its name before. Code that makes no sense has no meaning.
-/

namespace DataAccess

open Code (Block Call CodeType Datum Expr Frame Stmt TypeExpr)

inductive ReadValue {τ : Type} (Val : τ → Type) where
  | record (r : Record Val)
  | scalar (t : τ) (a : Val t)
  | nothing
  | just (v : ReadValue Val)
  | list (l : List (ReadValue Val))

abbrev Returned {τ : Type} (Val : τ → Type) :=
  Except Fault (ReadValue Val)

inductive Local {τ : Type} (Val : τ → Type) where
  | handle
  | signal (n : Nat)
  | cursor
  | value (v : ReadValue Val)

abbrev Scope (α : Type) {τ : Type} (Val : τ → Type) :=
  Frame α (Local Val)

namespace Scope

variable {τ : Type} {Val : τ → Type}

def declare (scope : Scope α Val) (x : String) (l : Local Val) : Scope α Val :=
  Frame.push scope x (.other l)

def local? (scope : Scope α Val) (x : String) : Option (Local Val) :=
  match Frame.get? scope x with
  | some (.other l) => some l
  | _ => none

def isHandle (scope : Scope α Val) : Expr → Bool
  | .borrow e => isHandle scope e
  | .field (.var "self") "__db" => true
  | .var x =>
    match scope.local? x with
    | some .handle => true
    | _ => false
  | _ => false

def isCursor (scope : Scope α Val) (x : String) : Bool :=
  match scope.local? x with
  | some .cursor => true
  | _ => false

def statement? (scope : Scope α Val) : Expr → Option Statement
  | .borrow e => statement? scope e
  | .var x => do
    let .statement s ← Frame.datum? scope x | none
    return s
  | _ => none

def signal? (scope : Scope α Val) : Expr → Option (Option Nat)
  | .none => some none
  | .some (.var x) => do
    let .signal n ← scope.local? x | none
    return some n
  | _ => none

end Scope

inductive CursorMoment where
  | read (row : RowValues)
  | closed

structure Performance (σ α : Type) {τ : Type} (Val : τ → Type) where
  scope : Scope α Val
  db : Database σ
  looks : Nat
  cursor : Option Cursor
  log : List CursorMoment

def Performance.close (p : Performance σ α Val) : Performance σ α Val :=
  match p.cursor with
  | none => p
  | some c =>
    { p with cursor := some c.close, log := if c.closed then p.log else p.log ++ [.closed] }

def Performance.queried (p : Performance σ α Val) (x : String)
    : Outcome Cursor × Database σ → Option (Except (Returned Val) Unit × Performance σ α Val)
  | (.ok c, db) =>
    some (.ok (), { p with
      scope := p.scope.declare x .cursor, db, looks := p.looks + 1, cursor := some c })
  | (.fault f, db) => some (.error (.error f), { p with db, looks := p.looks + 1 })
  | (.crash, _) => none

def Performance.stepped (p : Performance σ α Val)
    : Except Fault Bool × Cursor → Except (Returned Val) Bool × Performance σ α Val
  | (.ok found, c) =>
    (.ok found, { p with
      looks := p.looks + 1, cursor := some c, log := p.log ++ c.current.toList.map .read })
  | (.error f, c) => (.error (.error f), { p with looks := p.looks + 1, cursor := some c })

def Perform (σ α : Type) {τ : Type} (Val : τ → Type) (β : Type) :=
  Performance σ α Val → Option (Except (Returned Val) β × Performance σ α Val)

namespace Perform

variable {τ : Type} {Val : τ → Type} {β γ : Type}

def follow (f : β → Perform σ α Val γ)
    : Except (Returned Val) β × Performance σ α Val →
        Option (Except (Returned Val) γ × Performance σ α Val)
  | (.ok b, p) => f b p
  | (.error r, p) => some (.error r, p)

instance : Monad (Perform σ α Val) where
  pure b := fun p => some (.ok b, p)
  bind x f := fun p => (x p).bind (follow f)

def senseless : Perform σ α Val β :=
  fun _ => none

def leave (r : Returned Val) : Perform σ α Val β :=
  fun p => some (.error r, p)

def ofOption (o : Option β) : Perform σ α Val β :=
  fun p => o.map fun b => (.ok b, p)

def ofAttempt (a : Attempt β) : Perform σ α Val β :=
  fun p => a.run.map fun
    | .ok b => (.ok b, p)
    | .error f => (.error (.error f), p)

def scope : Perform σ α Val (Scope α Val) :=
  fun p => some (.ok p.scope, p)

def setScope (scope : Scope α Val) : Perform σ α Val Unit :=
  fun p => some (.ok (), { p with scope })

def declare (x : String) (value : Perform σ α Val (ReadValue Val)) : Perform σ α Val Unit := do
  let v ← value
  let scope ← scope
  setScope (scope.declare x (.value v))

def push (x : String) (value : Perform σ α Val (ReadValue Val)) : Perform σ α Val Unit := do
  let v ← value
  let scope ← scope
  match scope.local? x with
  | some (.value (.list l)) => setScope (Frame.put scope x (.other (.value (.list (l ++ [v])))))
  | _ => senseless

def onCursor (x : String) (f : Cursor → Attempt β) : Perform σ α Val β :=
  fun p => if p.scope.isCursor x then p.cursor.bind fun c => ofAttempt (f c) p else none

def inBlock (x : Perform σ α Val β) : Perform σ α Val β :=
  fun p => (x p).map fun (r, q) =>
    (r, { q with scope.vars := q.scope.vars.drop (q.scope.vars.length - p.scope.vars.length) })

/-- Goes on as long as a condition holds, for a number of times at most. -/
def loop (condition : Perform σ α Val Bool) (body : Perform σ α Val Unit) : Nat → Perform σ α Val Unit
  | 0 => senseless
  | n + 1 => do
    if ← condition then
      body
      loop condition body n
    else pure ()

end Perform

structure Surroundings (σ α : Type) {τ : Type} (Val : τ → Type) where
  engine : Engine σ Statement
  call : Call α
  types : UserTypes Val
  scalar : TypeExpr → τ
  function : String → Option RowAdapter
  struct : String → Option Entity
  /-- The cancellations as they are when the signal is looked at, each time. -/
  looked : Nat → Cancellation
  left : Cancellation

namespace Surroundings

variable {τ : Type} {Val : τ → Type} [DecidableEq τ] (w : Surroundings σ α Val)

def declare (scope : Scope α Val) : Stmt → Option (Scope α Val)
  | .bind _ x _ (.call .clone [e]) => do
    return Frame.declare scope false x (.statement (← scope.statement? e))
  | .bind _ x _ (.call .share [e]) => if scope.isHandle e then some (scope.declare x .handle) else none
  | s => s.exec w.call scope

def callRow (name : String) (c : Cursor) : Attempt (ReadValue Val) := do
  let some adapter := w.function name | .senseless
  let some e := w.struct adapter.entity | .senseless
  return .record (← w.types.callRow (w.types.declared e) c adapter.body)

/-- Reads a column of the current row. An option takes an absent value. -/
def column (index : Nat) (c : Cursor) : CodeType → Attempt (ReadValue Val)
  | .declared type => do
    let t := w.scalar type
    return .scalar t (← liftM (c.getWith (w.types.fromValue t) index))
  | .option (.declared type) => do
    let t := w.scalar type
    liftM (c.getWith (fun v =>
      if v.isNull then .ok .nothing else (w.types.fromValue t v).map fun a => .just (.scalar t a)) index)
  | _ => .senseless

def query (x : String) (handle statement signal : Expr) : Perform σ α Val Unit :=
  fun p =>
    if p.scope.isHandle handle then do
      let s ← p.scope.statement? statement
      let n ← p.scope.signal? signal
      p.queried x (Database.query w.engine s n { p.db with cancellation := w.looked p.looks })
    else none

def next (x : String) : Perform σ α Val Bool :=
  fun p =>
    if p.scope.isCursor x then p.cursor.map fun c => p.stepped (c.next (w.looked p.looks)) else none

def condition : Expr → Perform σ α Val Bool
  | .attempt (.method (.var x) .moveToNext []) => w.next x
  | _ => .senseless

mutual

def read : Expr → Perform σ α Val (ReadValue Val)
  | .var x => do
    let scope ← Perform.scope
    match scope.local? x with
    | some (.value v) => pure v
    | _ => .senseless
  | .none => pure .nothing
  | .some e => do return .just (← read e)
  | .attempt (.call (.rowAdapter name) [.borrow (.var x)]) => .onCursor x (w.callRow name)
  | .attempt (.method (.var x) (.get (some type)) [.number index _]) =>
    .onCursor x fun c => w.column index c type
  | .call .listWithCapacity [.method (.var x) .count []] => .onCursor x fun _ => pure (.list [])
  | .ifElse c yes no => do if ← w.condition c then readBlock yes else readBlock no
  | _ => .senseless

def readBlock : Block → Perform σ α Val (ReadValue Val)
  | .mk statements result => .inBlock do
    performAll statements
    match result with
    | some e => read e
    | none => .senseless

def result : Expr → Perform σ α Val (Returned Val)
  | .ok e => do return .ok (← read e)
  | .err (.missingResult e) => do
    let scope ← Perform.scope
    let s ← .ofOption (scope.statement? e)
    return .error (.missingResult s.sql)
  | _ => .senseless

def perform (s : Stmt) : Perform σ α Val Unit :=
  fun p =>
    match w.declare p.scope s with
    | some scope => some (.ok (), { p with scope })
    | none =>
      match s with
      | .bind _ x _ (.attempt (.method handle .query [statement, signal])) =>
        w.query x handle statement signal p
      | .bind _ x _ e => Perform.declare x (read e) p
      | .run (.method (.var x) .close []) =>
        if p.scope.isCursor x then some (.ok (), p.close) else none
      | .run (.method (.var x) .push [e]) => Perform.push x (read e) p
      -- Each time around a row is taken from the cursor.
      | .whileLoop c body =>
        Perform.loop (w.condition c) (.inBlock (performAll body))
          ((p.cursor.map (·.rest.length)).getD 0 + 1) p
      | .ret e => (do .leave (← result e) : Perform σ α Val Unit) p
      | _ => none

def performAll : List Stmt → Perform σ α Val Unit
  | [] => pure ()
  | s :: rest => do
    perform s
    performAll rest

end

/-- Runs a body in a scope. The cursor is closed when the body is left, whatever the reason. -/
def run (scope : Scope α Val) (body : Block) (db : Database σ)
    : Option (Returned Val × Performance σ α Val) := do
  let some e := body.result | none
  let (r, p) ← (do w.performAll body.statements; w.result e : Perform σ α Val (Returned Val))
    ⟨scope, db, 0, none, []⟩
  let p := p.close
  let p := { p with db.cancellation := w.left }
  match r with
  | .ok r | .error r => return (r, p)

structure Handover (σ α : Type) {τ : Type} (Val : τ → Type) where
  delivery : Delivery
  inTransaction : Bool
  tables : List String
  run : Nat → Database σ → Option (Returned Val × Performance σ α Val)

def texts? (items : List Expr) : Option (List String) :=
  items.mapM fun
    | .text s => some s
    | _ => none

def handOver (delivery : Delivery) (inTransaction : Bool) (tables : List String) (scope : Scope α Val)
    : Expr → Option (Handover σ α Val)
  | .block (.mk capture (some (.closure _ params _ body))) => do
    let scope ← capture.foldlM w.declare scope
    match params with
    | [] => return ⟨delivery, inTransaction, tables, fun _ => w.run scope body⟩
    | [(x, .signal)] =>
      return ⟨delivery, inTransaction, tables, fun n => w.run (scope.declare x (.signal n)) body⟩
    | _ => none
  | _ => none

/-- What the body of a method hands over, in the scope of its parameters. A callback has the name to itself that
it is reported to by. -/
def deliver (scope : Scope α Val) (body : Block) : Option (Handover σ α Val) :=
  let setup (statements : List Stmt) := statements.foldlM w.declare scope
  match body.result with
  | some (.method handle .runInTransaction [.closure _ [] _ inner]) => do
    let scope ← setup body.statements
    if scope.isHandle handle then return ⟨.direct, true, [], fun _ => w.run scope inner⟩ else none
  | some (.call .createFuture [handle, .bool inTransaction, closure]) => do
    let scope ← setup body.statements
    if scope.isHandle handle then w.handOver .future inTransaction [] scope closure else none
  | some (.call .createStream [handle, .bool inTransaction, .borrow (.array tables), closure]) => do
    let scope ← setup body.statements
    if scope.isHandle handle then
      w.handOver .stream inTransaction (← texts? tables) scope closure
    else none
  | none => do
    let some (.run (.call .launch [handle, .bool inTransaction, .var callback, closure])) :=
      body.statements.getLast? | none
    let scope ← setup body.statements.dropLast
    if scope.isHandle handle && (Frame.get? scope callback).isNone then
      w.handOver .suspend inTransaction [] scope closure
    else none
  | _ => some ⟨.direct, false, [], fun _ => w.run scope body⟩

end Surroundings

end DataAccess
