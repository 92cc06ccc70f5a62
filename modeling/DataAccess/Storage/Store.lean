import DataAccess.Engine.Basic
import DataAccess.Storage.Connection
import DataAccess.Text.NameSet

/-!
This module contains an engine over a connection that several threads share. A transaction is owned by
the thread that opened it, and statements of other threads wait until it closes. Inside of it further
transactions are savepoints. Tables that are written outside of the open transaction are kept apart
from its own, which are dropped when it is rolled back.
-/

namespace DataAccess.Storage

structure Store (κ : Type) where
  connection : κ
  depth : Nat
  owner : Option Nat
  /-- The tables that were written outside of the open transaction. -/
  outside : NameSet
  modified : NameSet

namespace Store

variable (l : Link κ stmt)

def new (connection : κ) : Store κ :=
  ⟨connection, 0, none, [], []⟩

def waits (thread : Nat) (st : Store κ) : Bool :=
  st.owner.any (· != thread)

def execute (q : stmt) (st : Store κ) : Except Fault Nat × Store κ :=
  let (r, touched, connection) := l.write q st.connection
  (r, { st with connection, modified := st.modified.insertAll touched })

def insert (q : stmt) (st : Store κ) : Except Fault Int64 × Store κ :=
  let (r, st) := st.execute l q
  (r.map fun changed => if changed = 0 then -1 else l.lastId st.connection, st)

/-- Runs a statement with rows, which are all fetched at once. The signal is looked at after each. -/
def query (q : stmt) (signal : Option Nat) (signals : Cancellation) (st : Store κ) :
    Except Fault Cursor × Store κ :=
  match l.read q st.connection with
  | .error f => (.error f, st)
  | .ok (columns, rows) =>
    if !rows.isEmpty && signal.any signals.isSet then (.error .cancelled, st)
    else (.ok (.new columns rows signal), st)

def savepointName (depth : Nat) : String :=
  "daogen_sp_" ++ toString depth

def openTransaction (thread : Nat) (st : Store κ) : Except Fault Unit × Store κ :=
  match st.depth with
  | 0 =>
    match l.openTransaction st.connection with
    | (.error f, connection) => (.error f, { st with connection })
    | (.ok (), connection) =>
      (.ok (), ⟨connection, 1, some thread, st.modified, []⟩)
  | depth =>
    match l.savepoint (savepointName depth) st.connection with
    | (.error f, connection) => (.error f, { st with connection })
    | (.ok (), connection) => (.ok (), { st with connection, depth := depth + 1 })

/-- Closes the outermost transaction. If it cannot be committed it is rolled back. -/
def closeOutermost (success : Bool) (st : Store κ) : Except Fault Unit × Store κ :=
  let (r, connection) := if success then l.commit st.connection else (.ok (), st.connection)
  if success && r.isOk then
    (r, ⟨connection, 0, none, [], st.modified.insertAll st.outside⟩)
  else
    let (undone, connection) := l.rollback connection
    (if success then r else undone, ⟨connection, 0, none, [], st.outside⟩)

def closeInner (success : Bool) (name : String) (c : κ) : Except Fault Unit × κ :=
  if success then l.release name c
  else
    match l.rollbackTo name c with
    | (.ok (), c) => l.release name c
    | failed => failed

/-- Closes the innermost transaction. It counts as closed whatever the connection answers. -/
def closeTransaction (success : Bool) (st : Store κ) : Except Fault Unit × Store κ :=
  match st.depth with
  | 0 => (.error (.engine "no transaction is open"), st)
  | 1 => st.closeOutermost l success
  | depth + 1 =>
    let (r, connection) := closeInner l success (savepointName depth) st.connection
    (r, { st with connection, depth })

def inTransaction (thread : Nat) (st : Store κ) : Bool :=
  st.owner == some thread

def recordModified (thread : Nat) (tables : List String) (st : Store κ) : Store κ :=
  if st.waits thread then { st with outside := st.outside.insertAll tables }
  else { st with modified := st.modified.insertAll tables }

def takeModified (thread : Nat) (st : Store κ) : List String × Store κ :=
  if st.waits thread then (st.outside, { st with outside := [] })
  else (st.modified, { st with modified := [] })

section

variable (thread : Nat) (tables : List String) (st : Store κ)

@[simp]
theorem connection_recordModified : (st.recordModified thread tables).connection = st.connection := by
  unfold recordModified
  split
  . rfl
  . rfl

@[simp]
theorem depth_recordModified : (st.recordModified thread tables).depth = st.depth := by
  unfold recordModified
  split
  . rfl
  . rfl

@[simp]
theorem connection_takeModified : (st.takeModified thread).2.connection = st.connection := by
  unfold takeModified
  split
  . rfl
  . rfl

@[simp]
theorem depth_takeModified : (st.takeModified thread).2.depth = st.depth := by
  unfold takeModified
  split
  . rfl
  . rfl

end

def engine (thread : Nat) : Engine (Store κ) stmt where
  execute := execute l
  insert := insert l
  query := query l
  openTransaction := openTransaction l thread
  closeTransaction := closeTransaction l
  inTransaction := inTransaction thread
  recordModified := recordModified thread
  takeModified := takeModified thread

end Store

end DataAccess.Storage
