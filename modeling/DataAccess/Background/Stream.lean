import DataAccess.Background.Basic

/-!
This module contains query streams. A stream runs its operation when it is first asked for an item, and
again whenever one of its tables has changed since the last run was set off. Changes that come
together make for one run. A run may give no item; the first fault ends the stream.
-/

namespace DataAccess

inductive StreamPoll (α : Type) where
  | pending
  | item (r : Except Fault α)
  | ended
  | crash

namespace Background

/-- Creates a stream over tables and tells its number. The tables are observed from now on. -/
def createStream (e : Engine σ stmt) (inTransaction : Bool) (tables : List String)
    (work : Nat → Operation σ (Option α)) (b : Background σ α) : Nat × Background σ α :=
  let number := b.streams.length
  let s : QueryStream σ α := ⟨fun run => Database.runIn e inTransaction (work run), 0, .fresh⟩
  (number, { b with
    streams := b.streams ++ [s]
    database.tracker := b.database.tracker.observe (.stream number) tables })

def setStage (number : Nat) (stage : StreamStage α) (b : Background σ α) : Background σ α :=
  { b with streams := b.streams.modify number ({ · with stage }) }

/-- Drops a stream. A run that was set off is still done, but nobody sees its result. -/
def dropStream (number : Nat) (b : Background σ α) : Background σ α :=
  { b.setStage number .over with
    database.tracker := b.database.tracker.unobserve (.stream number) }

def startRun (number : Nat) (b : Background σ α) : StreamPoll α × Background σ α :=
  if b.executor then (.pending, (b.setStage number .running).enqueue (.stream number))
  else (.item (.error .noExecutor), b.setStage number .finished)

def rerun (number : Nat) (b : Background σ α) : StreamPoll α × Background σ α :=
  let (change, tracker) := b.database.tracker.changed (.stream number)
  let b := { b with database.tracker := tracker }
  match change with
  | .tables _ => b.startRun number
  | .pending => (.pending, b.setStage number .waiting)
  | .closed => (.ended, b.dropStream number)

def pollStream (number : Nat) (b : Background σ α) : StreamPoll α × Background σ α :=
  match b.streams[number]? with
  | none => (.ended, b)
  | some s =>
    match s.stage with
    | .fresh => b.startRun number
    | .waiting => b.rerun number
    | .running => (.pending, b)
    | .ran (.ok (some a)) => (.item (.ok a), b.setStage number .waiting)
    | .ran (.ok none) => b.rerun number
    | .ran (.error f) => (.item (.error f), b.setStage number .finished)
    | .finished => (.ended, b.dropStream number)
    | .over => (.crash, b)

def runStream (number : Nat) (b : Background σ α) : Background σ α :=
  match b.streams[number]? with
  | none => b
  | some s =>
    let (r, b) := b.perform (s.work s.runs)
    let stage := match s.stage with
      | .running => .ran r.result
      | other => other
    { b with streams := b.streams.set number { s with runs := s.runs + 1, stage } }

end Background

end DataAccess
