import DataAccess.Statement.Basic

/-!
This module contains prepared statements that are leased for each call. One lease at a time holds the
shared instance, which is handed back on release; further leases get instances of their own.
-/

namespace DataAccess

structure SharedStatement where
  sql : String
  argCount : Nat
  leased : Bool
  cached : Option Statement

structure Lease where
  /-- Whether it is the shared instance. -/
  shared : Bool
  statement : Statement

namespace SharedStatement

def new (sql : String) (argCount : Nat) : SharedStatement :=
  ⟨sql, argCount, false, none⟩

def newQuery (s : SharedStatement) : Statement :=
  .acquire s.sql s.argCount

def acquire (s : SharedStatement) : Lease × SharedStatement :=
  if s.leased then (⟨false, s.newQuery⟩, s)
  else
    let statement := match s.cached with
      | some cached => cached.clear
      | none => s.newQuery
    (⟨true, statement⟩, { s with leased := true, cached := none })

def release (s : SharedStatement) (l : Lease) : SharedStatement :=
  if l.shared then { s with leased := false, cached := some l.statement } else s

end SharedStatement

structure LeaseBook where
  statement : SharedStatement
  leases : List (String × Lease)

namespace LeaseBook

def new (sql : String) (argCount : Nat) : LeaseBook :=
  ⟨.new sql argCount, []⟩

def lease? (b : LeaseBook) (name : String) : Option Lease :=
  b.leases.lookup name

def release (b : LeaseBook) (name : String) : LeaseBook :=
  match b.lease? name with
  | some l => ⟨b.statement.release l, b.leases.filter (·.1 != name)⟩
  | none => b

/-- Leases the statement under a name. An earlier lease of that name is taken back afterwards. -/
def acquire (b : LeaseBook) (name : String) : Lease × LeaseBook :=
  let (l, statement) := b.statement.acquire
  let b := release ⟨statement, b.leases⟩ name
  (l, { b with leases := (name, l) :: b.leases })

def bind (b : LeaseBook) (name : String) (index : Nat) (v : Value) : LeaseBook :=
  { b with leases := b.leases.map fun (n, l) =>
      (n, if n = name then { l with statement := l.statement.bind index v } else l) }

end LeaseBook

end DataAccess
