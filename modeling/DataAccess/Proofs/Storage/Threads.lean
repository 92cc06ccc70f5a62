import DataAccess.Invalidation
import DataAccess.Storage.Store
import Mathlib.Logic.Function.Basic

/-!
This module contains several threads that use one database. Each of them does what an operation of the
database consists of piece by piece, and between any two pieces other threads may do theirs. Pieces that
need the connection have to wait while another thread has a transaction open.
-/

namespace DataAccess.Storage

inductive Phase where
  | idle
  | noting (tables : List String)
  | looking
  | taking
  | handing (tables : List String)

inductive Request (stmt : Type) where
  | execute (q : stmt) (tables : List String)
  | insert (q : stmt) (tables : List String)
  | begin
  | finish (success : Bool)

inductive Occurrence where
  /-- The connection reported tables that a thread wrote, or the thread noted tables, inside of its
  transaction or outside of any. -/
  | wrote (thread : Nat) (tables : List String) (inside : Bool)
  | ran (thread : Nat) (tables : List String) (inside : Bool)
  | closed (thread : Nat) (committed : Bool)
  | handed (thread : Nat) (tables : List String)

structure Threads (κ : Type) where
  store : Store κ
  tracker : Tracker
  phase : Nat → Phase
  past : List Occurrence

namespace Threads

def fresh (connection : κ) (tracker : Tracker) : Threads κ :=
  ⟨.new connection, tracker, fun _ => .idle, []⟩

def enter (s : Threads κ) (thread : Nat) (phase : Phase) : Threads κ :=
  { s with phase := Function.update s.phase thread phase }

def remember (s : Threads κ) (o : Occurrence) : Threads κ :=
  { s with past := o :: s.past }

def afterStatement (r : Except Fault α) (tables : List String) : Phase :=
  match r with
  | .ok _ => if tables.isEmpty then .looking else .noting tables
  | .error _ => .idle

def afterwards (s : Threads κ) (thread : Nat) (touched tables : List String) (r : Except Fault α)
    (store : Store κ) : Threads κ :=
  let inside := s.store.inTransaction thread
  let s := ({ s with store }.enter thread (afterStatement r tables)).remember
    (.wrote thread touched inside)
  if r.isOk then s.remember (.ran thread tables inside) else s

variable (l : Link κ stmt)

def start (s : Threads κ) (thread : Nat) : Request stmt → Threads κ
  | .execute q tables =>
    let (r, store) := s.store.execute l q
    s.afterwards thread (l.write q s.store.connection).2.1 tables r store
  | .insert q tables =>
    let (r, store) := s.store.insert l q
    s.afterwards thread (l.write q s.store.connection).2.1 tables r store
  | .begin => { s with store := (s.store.openTransaction l thread).2 }
  | .finish success =>
    let (r, store) := s.store.closeTransaction l success
    let closed := { s with store }.enter thread (if r.isOk then .looking else .idle)
    if s.store.depth = 1 then closed.remember (.closed thread (success && r.isOk)) else closed

def advance (s : Threads κ) (thread : Nat) : Threads κ :=
  match s.phase thread with
  | .idle => s
  | .noting tables =>
    let o := .wrote thread tables (s.store.inTransaction thread)
    ({ s with store := s.store.recordModified thread tables }.enter thread .looking).remember o
  | .looking => s.enter thread (if s.store.inTransaction thread then .idle else .taking)
  | .taking =>
    let (tables, store) := s.store.takeModified thread
    { s with store }.enter thread (if tables.isEmpty then .idle else .handing tables)
  | .handing tables =>
    ({ s with tracker := s.tracker.notify tables }.enter thread .idle).remember
      (.handed thread tables)

/-- One piece of work of one thread, or something that observers do. -/
inductive Step : Threads κ → Threads κ → Prop where
  | start (thread : Nat) (hidle : s.phase thread = .idle) (hfree : s.store.waits thread = false)
      (r : Request stmt) : Step s (s.start l thread r)
  | advance (thread : Nat) : Step s (s.advance thread)
  | observe (tracker : Tracker) : Step s { s with tracker }

/-- What threads come to, whatever the order of their steps. -/
inductive Reachable : Threads κ → Prop where
  | fresh (connection : κ) (tracker : Tracker) : Reachable (fresh connection tracker)
  | step (h : Reachable s) (hs : Step l s s') : Reachable s'

variable {l} {s : Threads κ}

theorem Reachable.start (h : Reachable l s) (thread : Nat) (hidle : s.phase thread = .idle)
    (hfree : s.store.waits thread = false) (r : Request stmt)
    : Reachable l (s.start l thread r) :=
  h.step (.start thread hidle hfree r)

theorem Reachable.advance (h : Reachable l s) (thread : Nat) : Reachable l (s.advance thread) :=
  h.step (.advance thread)

end Threads

end DataAccess.Storage
