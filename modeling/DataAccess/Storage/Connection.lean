import DataAccess.Fault

/-!
This module contains connections to a store of data. A connection has at most one transaction, with
savepoints inside of it, and can go back to the data as they were at each of them. A statement outside
of a transaction is a transaction of its own.
-/

namespace DataAccess.Storage

structure Link (κ stmt : Type) where
  write : stmt → κ → Except Fault Nat × List String × κ
  read : stmt → κ → Except Fault (List String × List (List Value))
  lastId : κ → Int64
  openTransaction : κ → Except Fault Unit × κ
  commit : κ → Except Fault Unit × κ
  rollback : κ → Except Fault Unit × κ
  savepoint : String → κ → Except Fault Unit × κ
  release : String → κ → Except Fault Unit × κ
  /-- Goes back to the data at a savepoint, which stays. -/
  rollbackTo : String → κ → Except Fault Unit × κ

structure Effect (δ : Type) where
  result : Except Fault Nat
  /-- The data afterwards, also when the statement fails. -/
  data : δ
  /-- The tables whose rows were reported as written. -/
  touched : List String
  newId : Option Int64
  /-- Whether the failure of the statement undoes the whole transaction. -/
  undoesTransaction : Bool

structure Meaning (δ stmt : Type) where
  write : stmt → δ → Effect δ
  read : stmt → δ → Except Fault (List String × List (List Value))
  /-- What is checked when a transaction is committed. -/
  check : δ → Except Fault Unit

structure Savepoint (δ : Type) where
  name : String
  data : δ

structure Transaction (δ : Type) where
  before : δ
  bySavepoint : Bool
  savepoints : List (Savepoint δ)

structure Connection (δ : Type) where
  data : δ
  transaction : Option (Transaction δ)
  lastId : Int64

namespace Connection

variable (s : Meaning δ stmt)

def new (data : δ) : Connection δ :=
  ⟨data, none, 0⟩

def openTransaction (c : Connection δ) : Except Fault Unit × Connection δ :=
  match c.transaction with
  | some _ => (.error (.engine "cannot start a transaction within a transaction"), c)
  | none => (.ok (), { c with transaction := some ⟨c.data, false, []⟩ })

/-- Keeps the data and closes the transaction, which stays open if the data do not stand the check. -/
def close (c : Connection δ) : Except Fault Unit × Connection δ :=
  match s.check c.data with
  | .error f => (.error f, c)
  | .ok () => (.ok (), { c with transaction := none })

def commit (c : Connection δ) : Except Fault Unit × Connection δ :=
  match c.transaction with
  | none => (.error (.engine "cannot commit - no transaction is active"), c)
  | some _ => c.close s

def undo (c : Connection δ) : Connection δ :=
  match c.transaction with
  | none => c
  | some t => { c with data := t.before, transaction := none }

def rollback (c : Connection δ) : Except Fault Unit × Connection δ :=
  match c.transaction with
  | none => (.error (.engine "cannot rollback - no transaction is active"), c)
  | some _ => (.ok (), c.undo)

def savepoint (name : String) (c : Connection δ) : Except Fault Unit × Connection δ :=
  let point : Savepoint δ := ⟨name, c.data⟩
  let t := match c.transaction with
    | none => ⟨c.data, true, [point]⟩
    | some t => { t with savepoints := point :: t.savepoints }
  (.ok (), { c with transaction := some t })

def find? (name : String) (c : Connection δ) : Option (Transaction δ × Savepoint δ) := do
  let t ← c.transaction
  let point :: rest := t.savepoints.dropWhile (·.name != name) | none
  return ({ t with savepoints := point :: rest }, point)

def noSavepoint (name : String) : Fault :=
  .engine ("no such savepoint: " ++ name)

/-- Gives a savepoint and those inside of it up and keeps the data. Without the savepoint that opened
it, a transaction is closed. -/
def release (name : String) (c : Connection δ) : Except Fault Unit × Connection δ :=
  match c.find? name with
  | none => (.error (noSavepoint name), c)
  | some (t, _) =>
    let rest := t.savepoints.tail
    if t.bySavepoint && rest.isEmpty then c.close s
    else (.ok (), { c with transaction := some { t with savepoints := rest } })

def rollbackTo (name : String) (c : Connection δ) : Except Fault Unit × Connection δ :=
  match c.find? name with
  | none => (.error (noSavepoint name), c)
  | some (t, point) => (.ok (), { c with data := point.data, transaction := some t })

def write (q : stmt) (c : Connection δ) : Except Fault Nat × List String × Connection δ :=
  let e := s.write q c.data
  let written := { c with data := e.data, lastId := e.newId.getD c.lastId }
  match e.result, c.transaction with
  | .error f, some _ => (.error f, e.touched, if e.undoesTransaction then c.undo else written)
  | .ok n, some _ => (.ok n, e.touched, written)
  | r, none =>
    match s.check e.data with
    | .error f => (.error f, e.touched, { written with data := c.data })
    | .ok () => (r, e.touched, written)

def link : Link (Connection δ) stmt where
  write := write s
  read q c := s.read q c.data
  lastId := lastId
  openTransaction := openTransaction
  commit := commit s
  rollback := rollback
  savepoint := savepoint
  release := release s
  rollbackTo := rollbackTo

end Connection

end DataAccess.Storage
