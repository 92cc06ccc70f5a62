import DataAccess.Fault
import DataAccess.Sql.Conflict
import DataAccess.Storage.Connection
import DataAccess.Storage.Numeral

/-!
This module contains a store of four tables, each with an integer key and one more column, and the
statements on it. Each statement tells which rows collide with what it writes, and deals with them as
its conflict policy says.
-/

namespace DataAccess.Storage

inductive Table where
  | users
  | tags
  | teams
  | links
deriving DecidableEq, Repr

def Table.name : Table → String
  | users => "users"
  | tags => "tags"
  | teams => "teams"
  | links => "links"

structure Row where
  id : Int64
  v : Value

structure Tables where
  users : List Row
  tags : List Row
  teams : List Row
  links : List Row

inductive Command where
  | put (table : Table) (id v : Value) (policy : ConflictPolicy)
  | set (table : Table) (id v : Value) (policy : ConflictPolicy)
  | delete (table : Table) (slots : Nat) (ids : List Value)
  | clear (table : Table)
  | rows (table : Table)
  | text (v : Value)
  | missing (table : String)

namespace Tables

def empty : Tables :=
  ⟨[], [], [], []⟩

def get (d : Tables) : Table → List Row
  | .users => d.users
  | .tags => d.tags
  | .teams => d.teams
  | .links => d.links

def set (d : Tables) (rows : List Row) : Table → Tables
  | .users => { d with users := rows }
  | .tags => { d with tags := rows }
  | .teams => { d with teams := rows }
  | .links => { d with links := rows }

def insertRow (row : Row) : List Row → List Row
  | [] => [row]
  | r :: rest => if row.id < r.id then row :: r :: rest else r :: insertRow row rest

def nextId (rows : List Row) : Int64 :=
  match rows.getLast? with
  | some r => r.id + 1
  | none => 1

def failed (d : Tables) (f : Fault) : Effect Tables :=
  ⟨.error f, d, [], none, false⟩

def unchanged (d : Tables) : Effect Tables :=
  ⟨.ok 0, d, [], none, false⟩

def collision (table : Table) (column : String) : Fault :=
  .uniqueConstraint ("UNIQUE constraint failed: " ++ table.name ++ "." ++ column)

/-- Deals with collisions, the first of which has a fault: what is written if there are none, or if
the colliding rows are removed, or else what the policy says. -/
def settle (d : Tables) (policy : ConflictPolicy) (found : Option Fault) (written : Effect Tables) :
    Effect Tables :=
  match found, policy with
  | none, _ | some _, .replace => written
  | some _, .ignore => d.unchanged
  | some f, .rollback => { d.failed f with undoesTransaction := true }
  | some f, .abort | some f, .fail => d.failed f

def collidesIn (table : Table) (v : Value) (row : Row) : Bool :=
  table = .tags && collide v row.v

def collision? (table : Table) (sameId sameValue : Bool) : Option Fault :=
  if sameId then some (collision table "id")
  else if sameValue then some (collision table "v")
  else none

def putAt (d : Tables) (table : Table) (id : Int64) (v : Value) (policy : ConflictPolicy) :
    Effect Tables :=
  let rows := d.get table
  let v := storable v
  let others := rows.filter fun r => !(r.id == id || collidesIn table v r)
  d.settle policy (collision? table (rows.any (·.id == id)) (rows.any (collidesIn table v)))
    ⟨.ok 1, d.set (insertRow ⟨id, v⟩ others) table, [table.name], some id, false⟩

def put (d : Tables) (table : Table) (id v : Value) (policy : ConflictPolicy) : Effect Tables :=
  match storable id with
  | .null => d.putAt table (nextId (d.get table)) v policy
  | id =>
    match whole? id with
    | none => d.failed (.engine "datatype mismatch")
    | some id => d.putAt table id v policy

def update (d : Tables) (table : Table) (id v : Value) (policy : ConflictPolicy) : Effect Tables :=
  let rows := d.get table
  let v := storable v
  match rows.find? fun r => whole? id == some r.id with
  | none => d.unchanged
  | some row =>
    let taken (r : Row) : Bool := r.id != row.id && collidesIn table v r
    let changed := (rows.filter (!taken ·)).map fun r => if r.id = row.id then ⟨r.id, v⟩ else r
    d.settle policy (collision? table false (rows.any taken))
      ⟨.ok 1, d.set changed table, [table.name], none, false⟩

def delete (d : Tables) (table : Table) (ids : List Value) : Effect Tables :=
  let rows := d.get table
  let rest := rows.filter fun r => !ids.any fun id => whole? id == some r.id
  let count := rows.length - rest.length
  ⟨.ok count, d.set rest table, if count = 0 then [] else [table.name], none, false⟩

/-- Deletes all rows. Only in tables with references they are deleted one by one, and reported. -/
def clear (d : Tables) (table : Table) : Effect Tables :=
  let count := (d.get table).length
  let reported := (table = .teams || table = .links) && count != 0
  ⟨.ok count, d.set [] table, if reported then [table.name] else [], none, false⟩

def check (d : Tables) : Except Fault Unit :=
  let isTeam (v : Value) : Bool := d.teams.any fun t => whole? v == some t.id
  if d.links.all fun r => r.v.isNull || isTeam r.v then .ok ()
  else .error (.engine "FOREIGN KEY constraint failed")

def noTable (name : String) : Fault :=
  .engine ("no such table: " ++ name ++ " in SELECT * FROM " ++ name ++ " at offset 14")

/-- Runs a statement that writes; one that does not changes nothing. -/
def write (d : Tables) : Command → Effect Tables
  | .put table id v policy => d.put table id v policy
  | .set table id v policy => d.update table id v policy
  | .delete table slots ids =>
    if slots = ids.length then d.delete table ids
    else d.failed (.argumentCount slots ids.length)
  | .clear table => d.clear table
  | .rows _ | .text _ => d.unchanged
  | .missing name => d.failed (noTable name)

def read (d : Tables) : Command → Except Fault (List String × List (List Value))
  | .rows table => .ok (["id", "v"], (d.get table).map fun r => [.integer r.id, r.v])
  | .text v => .ok (["CAST(? AS TEXT)"], [[asText v]])
  | .missing name => .error (noTable name)
  | .delete _ slots ids =>
    if slots = ids.length then .ok ([], []) else .error (.argumentCount slots ids.length)
  | _ => .ok ([], [])

def meaning : Meaning Tables Command where
  write q d := d.write q
  read q d := d.read q
  check := check

end Tables

end DataAccess.Storage
