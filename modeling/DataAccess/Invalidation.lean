import DataAccess.Text.NameSet

/-!
This module contains the tracking of invalidated tables. Observers are told of the tables they watch,
in lower case. What an observer has not looked at yet is put together when it looks.
-/

namespace DataAccess

inductive ObserverId where
  | named (name : String)
  | stream (number : Nat)
deriving DecidableEq, Repr

structure Observer where
  id : ObserverId
  tables : NameSet
  inbox : List NameSet

inductive Change where
  | tables (names : NameSet)
  | pending
  | closed
deriving DecidableEq, Repr

structure Tracker where
  /-- The number of handles on the tracker; without any it is gone. -/
  handles : Nat
  observers : List Observer

namespace Tracker

def new : Tracker :=
  ⟨1, []⟩

def lowerNames (names : List String) : NameSet :=
  NameSet.ofNames (names.map fun n => n.map Char.toLower)

def observerCount (t : Tracker) : Option Nat :=
  if t.handles = 0 then none else some t.observers.length

def clone (t : Tracker) : Tracker :=
  if t.handles = 0 then t else { t with handles := t.handles + 1 }

def dropHandle (t : Tracker) : Tracker :=
  { t with handles := t.handles - 1 }

def unobserve (t : Tracker) (id : ObserverId) : Tracker :=
  { t with observers := t.observers.filter (·.id != id) }

/-- Registers an observer of tables. It takes the place of an earlier one that is told the same. -/
def observe (t : Tracker) (id : ObserverId) (tables : List String) : Tracker :=
  if t.handles = 0 then t
  else
    let others := (t.unobserve id).observers
    { t with observers := others ++ [⟨id, lowerNames tables, []⟩] }

def Observer.tell (changed : NameSet) (o : Observer) : Observer :=
  let hit := o.tables.inter changed
  if hit.isEmpty then o else { o with inbox := o.inbox ++ [hit] }

def notify (t : Tracker) (tables : List String) : Tracker :=
  if t.handles = 0 then t
  else { t with observers := t.observers.map (Observer.tell (lowerNames tables)) }

def observer? (t : Tracker) (id : ObserverId) : Option Observer :=
  t.observers.find? (·.id == id)

def consume (t : Tracker) (id : ObserverId) : Tracker :=
  { t with observers := t.observers.map fun o => if o.id = id then { o with inbox := [] } else o }

def changed (t : Tracker) (id : ObserverId) : Change × Tracker :=
  match t.observer? id with
  | none => (.closed, t)
  | some o =>
    if o.inbox.isEmpty then (if t.handles = 0 then .closed else .pending, t)
    else (.tables (NameSet.ofNames o.inbox.flatten), t.consume id)

/-- Whether there is anything an observer has not looked at, which it has seen then. -/
def drain (t : Tracker) (id : ObserverId) : Bool × Tracker :=
  match t.observer? id with
  | none => (false, t)
  | some o => (!o.inbox.isEmpty, t.consume id)

end Tracker

end DataAccess
