import DataAccess.Database.Transaction

/-!
This module contains the background of a database: the futures, streams and suspended calls that do
operations on it, and the thread that does their work one after another.
-/

namespace DataAccess

inductive Reply (α : Type) where
  | awaited
  | arrived (r : Except Fault α)
  /-- The result has been given to the one who waited for it. -/
  | taken

inductive Poll (α : Type) where
  | pending
  | ready (a : α)
  | crash

structure QueryFuture (σ α : Type) where
  signal : Nat
  /-- The operation; nothing if there is no executor for it. -/
  work : Option (Operation σ α)
  aborted : Bool
  reply : Reply α

inductive StreamStage (α : Type) where
  /-- Nobody has asked for an item yet. -/
  | fresh
  /-- Only a change of a table makes the operation run again. -/
  | waiting
  | running
  | ran (r : Except Fault (Option α))
  | finished
  | over

/-- An operation that is done in the background again whenever one of its tables has changed. -/
structure QueryStream (σ α : Type) where
  work : Nat → Operation σ (Option α)
  runs : Nat
  stage : StreamStage α

inductive CallEvent (α : Type) where
  | cancellable (cancelled : Bool)
  | success (a : α)
  | failure (code : Nat) (message : String)

inductive CallStage (α : Type) where
  | scheduled
  | working
  | done (r : Except Fault α)
  | over

structure SuspendedCall (σ α : Type) where
  signal : Nat
  handle : Nat
  work : Operation σ α
  stage : CallStage α
  events : List (CallEvent α)

inductive QueuedWork where
  | future (number : Nat)
  | stream (number : Nat)
  | call (number : Nat)
deriving DecidableEq, Repr

structure Background (σ α : Type) where
  database : Database σ
  executor : Bool
  ownDispatcher : Bool
  futures : List (QueryFuture σ α)
  streams : List (QueryStream σ α)
  calls : List (SuspendedCall σ α)
  queue : List QueuedWork

/-- The result of background work. A crash is a fault like others to those who wait for it. -/
def Outcome.result : Outcome α → Except Fault α
  | .ok a => .ok a
  | .fault f => .error f
  | .crash => .error .taskCrashed

namespace Background

def new (database : Database σ) (executor ownDispatcher : Bool) : Background σ α :=
  ⟨database, executor, ownDispatcher, [], [], [], []⟩

/-- Whether reports have a dispatcher: their own or else the executor. -/
def dispatcher (b : Background σ α) : Bool :=
  b.ownDispatcher || b.executor

def perform (op : Operation σ β) (b : Background σ α) : Outcome β × Background σ α :=
  let (r, database) := op b.database
  (r, { b with database })

def enqueue (w : QueuedWork) (b : Background σ α) : Background σ α :=
  { b with queue := b.queue ++ [w] }

/-- The work of a body that has a signal: nothing is done if the signal is set by then. -/
def signalledWork (e : Engine σ stmt) (inTransaction : Bool) (signal : Nat)
    (body : Nat → Operation σ α) : Operation σ α := do
  Database.checkSignal signal
  Database.runIn e inTransaction (body signal)

theorem signalledWork_eq (e : Engine σ stmt) (inTransaction : Bool) (signal : Nat)
    (body : Nat → Operation σ α) (db : Database σ) :
    signalledWork e inTransaction signal body db =
      if db.cancellation.isSet signal then (.fault .cancelled, db)
      else Database.runIn e inTransaction (body signal) db := by
  change Operation.follow _ (Database.checkSignal signal db) = _
  unfold Database.checkSignal Cancellation.check
  split
  . rfl
  . rfl

end Background

end DataAccess
