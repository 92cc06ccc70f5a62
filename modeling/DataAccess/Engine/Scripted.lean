import DataAccess.Engine.Basic
import DataAccess.Statement.Basic
import DataAccess.Text.NameSet

/-!
This module contains an engine that answers its calls from a script and keeps a log of them. It counts
how deep its transactions are nested and collects the tables that were written, and drops them when the
outermost transaction is rolled back.
-/

namespace DataAccess

inductive EngineCall where
  | execute (s : Statement)
  | insert (s : Statement)
  | query (s : Statement) (signalled : Bool)
  | openTransaction
  | closeTransaction (success : Bool)
  | record (tables : List String)
  | take (tables : NameSet)

structure ScriptedAnswer where
  fault : Option Fault
  modified : List String
  changedRows : Nat
  newId : Int64
  columns : List String
  rows : List RowValues

def ScriptedAnswer.silent : ScriptedAnswer :=
  ⟨none, [], 0, -1, [], []⟩

structure Script where
  execute : List ScriptedAnswer
  insert : List ScriptedAnswer
  query : List ScriptedAnswer
  opening : List ScriptedAnswer
  closing : List ScriptedAnswer

structure ScriptedEngine where
  script : Script
  tracking : Bool
  depth : Nat
  pending : NameSet
  log : List EngineCall

namespace ScriptedEngine

def new (script : Script) (tracking : Bool) : ScriptedEngine :=
  ⟨script, tracking, 0, [], []⟩

def noting (call : EngineCall) (e : ScriptedEngine) : ScriptedEngine :=
  { e with log := call :: e.log }

def joining (a : ScriptedAnswer) (e : ScriptedEngine) : ScriptedEngine :=
  { e with pending := e.pending.insertAll a.modified }

/-- Gives an answer: its fault, or else what is made of it. -/
def give (a : ScriptedAnswer) (result : α) (e : ScriptedEngine) : Except Fault α × ScriptedEngine :=
  match a.fault with
  | some f => (.error f, e)
  | none => (.ok result, e.joining a)

def execute (s : Statement) (e : ScriptedEngine) : Except Fault Nat × ScriptedEngine :=
  let a := e.script.execute.headD .silent
  let e := { e.noting (.execute s) with script.execute := e.script.execute.tail }
  e.give a a.changedRows

def insert (s : Statement) (e : ScriptedEngine) : Except Fault Int64 × ScriptedEngine :=
  let a := e.script.insert.headD .silent
  let e := { e.noting (.insert s) with script.insert := e.script.insert.tail }
  e.give a a.newId

def query (s : Statement) (signal : Option Nat) (_ : Cancellation) (e : ScriptedEngine) :
    Except Fault Cursor × ScriptedEngine :=
  let a := e.script.query.headD .silent
  let e := { e.noting (.query s signal.isSome) with script.query := e.script.query.tail }
  e.give a (.new a.columns a.rows signal)

def openTransaction (e : ScriptedEngine) : Except Fault Unit × ScriptedEngine :=
  let a := e.script.opening.headD .silent
  let e := { e.noting .openTransaction with script.opening := e.script.opening.tail }
  match a.fault with
  | some f => (.error f, e)
  | none => (.ok (), { e.joining a with depth := e.depth + 1 })

/-- Closes the innermost transaction. It counts as closed even if the answer is a fault. -/
def closeTransaction (success : Bool) (e : ScriptedEngine) : Except Fault Unit × ScriptedEngine :=
  let a := e.script.closing.headD .silent
  let e := { e.noting (.closeTransaction success) with script.closing := e.script.closing.tail }
  match e.depth with
  | 0 => (.error (.engine "no transaction is open"), e)
  | depth + 1 =>
    let dropped := depth = 0 ∧ (!success || a.fault.isSome)
    let (answer, e) := e.give a ()
    (answer, { e with depth, pending := if dropped then [] else e.pending })

def recordModified (tables : List String) (e : ScriptedEngine) : ScriptedEngine :=
  if e.tracking then { e.noting (.record tables) with pending := e.pending.insertAll tables } else e

def takeModified (e : ScriptedEngine) : List String × ScriptedEngine :=
  if e.tracking then (e.pending, { e.noting (.take e.pending) with pending := [] }) else ([], e)

def drainLog (e : ScriptedEngine) : List EngineCall × ScriptedEngine :=
  (e.log.reverse, { e with log := [] })

def engine : Engine ScriptedEngine Statement where
  execute := execute
  insert := insert
  query := query
  openTransaction := openTransaction
  closeTransaction := closeTransaction
  inTransaction := fun e => e.depth != 0
  recordModified := recordModified
  takeModified := takeModified

end ScriptedEngine

end DataAccess
