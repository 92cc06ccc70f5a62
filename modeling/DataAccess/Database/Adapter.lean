import DataAccess.Database.Basic

/-!
This module contains adapters, which write entities by prepared statements. An adapter's binder puts
the columns of an entity into the slots of its statement. Every write names the adapter's table.
-/

namespace DataAccess

structure Adapter (α : Type) where
  table : String
  statement : Nat
  bind : α → Statement → Statement

structure UpsertAdapter (α : Type) where
  insertion : Adapter α
  update : Adapter α

namespace Database

def prepare (sql : String) (argCount : Nat) : Operation σ Nat :=
  .modifyGet fun db =>
    (db.statements.length, { db with statements := db.statements ++ [.new sql argCount] })

/-- Leases a prepared statement, binds it and uses it. However that ends, the lease is taken back. -/
def leasing (number : Nat) (bind : Statement → Statement) (use : Statement → Operation σ α) :
    Operation σ α :=
  fun db =>
    match db.statements[number]? with
    | none => (.crash, db)
    | some prepared =>
      let (lease, out) := prepared.acquire
      let lease := { lease with statement := bind lease.statement }
      let (r, db) := use lease.statement { db with statements := db.statements.set number out }
      (r, { db with statements := db.statements.modify number (·.release lease) })

end Database

namespace Adapter

variable (e : Engine σ Statement)

def prepare (table sql : String) (argCount : Nat) (bind : α → Statement → Statement) :
    Operation σ (Adapter α) := do
  return ⟨table, ← Database.prepare sql argCount, bind⟩

def insert (a : Adapter α) (entity : α) : Operation σ Int64 :=
  Database.leasing a.statement (a.bind entity) (Database.insert e · [a.table])

def insertAll (a : Adapter α) (entities : List α) : Operation σ (List Int64) :=
  entities.mapM (a.insert e)

def insertUnit (a : Adapter α) (entity : α) : Operation σ Unit := do
  let _ ← a.insert e entity

def insertAllUnit (a : Adapter α) (entities : List α) : Operation σ Unit :=
  entities.forM (a.insertUnit e)

def handle (a : Adapter α) (entity : α) : Operation σ Nat :=
  Database.leasing a.statement (a.bind entity) (Database.execute e · [a.table])

/-- Deletes or updates the rows of entities in order. The sum of their counts is taken to fit a machine word. -/
def handleAll (a : Adapter α) (entities : List α) : Operation σ Nat :=
  entities.foldlM (fun total entity => do return total + (← a.handle e entity)) 0

end Adapter

namespace UpsertAdapter

variable (e : Engine σ Statement)

/-- Inserts an entity, or updates its row if a unique column keeps it from being inserted. Tells the
identifier of the new row, or `-1` after an update. -/
def upsert (a : UpsertAdapter α) (entity : α) : Operation σ Int64 := do
  match ← (a.insertion.insert e entity).attempt with
  | .ok id => return id
  | .error (.uniqueConstraint _) =>
    let _ ← a.update.handle e entity
    return -1
  | .error f => .fail f

def upsertAll (a : UpsertAdapter α) (entities : List α) : Operation σ (List Int64) :=
  entities.mapM (a.upsert e)

def upsertUnit (a : UpsertAdapter α) (entity : α) : Operation σ Unit := do
  let _ ← a.upsert e entity

def upsertAllUnit (a : UpsertAdapter α) (entities : List α) : Operation σ Unit :=
  entities.forM (a.upsertUnit e)

end UpsertAdapter

end DataAccess
