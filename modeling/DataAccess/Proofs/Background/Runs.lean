import DataAccess.Background.Stream
import DataAccess.Proofs.Background.Inbox
import Mathlib.Data.List.Count

/-!
This module contains one stream among everything else that happens. Tables are published, the stream is
asked for items, and its runs start and end, in any order. What is observed of that is remembered.
-/

namespace DataAccess

inductive StreamEvent (α : Type) where
  | published (tables : List String)
  | answered (p : StreamPoll α)
  | refused (f : Fault)
  | started
  | ended (r : Except Fault (Option α))

namespace StreamEvent

def isStart : StreamEvent α → Bool
  | started => true
  | _ => false

def isEnd : StreamEvent α → Bool
  | ended _ => true
  | _ => false

def hits (watched : List String) : StreamEvent α → Bool
  | published tables => Hits watched tables
  | _ => false

/-- What a run came to. One that was refused came to its fault. -/
def outcome? : StreamEvent α → Option (Except Fault (Option α))
  | ended r => some r
  | refused f => some (.error f)
  | _ => none

def item? : StreamEvent α → Option (Except Fault α)
  | answered (.item r) => some r
  | _ => none

def starts (past : List (StreamEvent α)) : Nat :=
  past.countP isStart

def ends (past : List (StreamEvent α)) : Nat :=
  past.countP isEnd

def outcomes (past : List (StreamEvent α)) : List (Except Fault (Option α)) :=
  past.reverse.filterMap outcome?

def emitted (past : List (StreamEvent α)) : List (Except Fault α) :=
  past.reverse.filterMap item?

end StreamEvent

/-- The items of outcomes: each value that there is, up to the first fault and with it. -/
def items : List (Except Fault (Option α)) → List (Except Fault α)
  | [] => []
  | .ok none :: rest => items rest
  | .ok (some a) :: rest => .ok a :: items rest
  | .error f :: _ => [.error f]

namespace StreamStage

def after (r : Except Fault (Option α)) : StreamStage α → StreamStage α
  | running => ran r
  | other => other

def held : StreamStage α → List (Except Fault α)
  | ran r => items [r]
  | _ => []

end StreamStage

structure Watch (σ α : Type) where
  background : Background σ α
  clones : Nat
  past : List (StreamEvent α)

namespace Background

/-- The last part of a run: its outcome is there. -/
def finishRun (number : Nat) (r : Except Fault (Option α)) (b : Background σ α) : Background σ α :=
  { b with
    streams := b.streams.modify number fun s =>
      { s with runs := s.runs + 1, stage := s.stage.after r } }

/-- Nothing has changed for a stream, its waiting work and its observer. -/
structure Alike (number : Nat) (b b' : Background σ α) : Prop where
  stream : b'.streams[number]? = b.streams[number]?
  queued : b'.queue.count (.stream number) = b.queue.count (.stream number)
  observer : b'.database.tracker.observer? (.stream number)
    = b.database.tracker.observer? (.stream number)
  handles : b'.database.tracker.handles = b.database.tracker.handles

def held (number : Nat) (b : Background σ α) : List (Except Fault α) :=
  (b.streams[number]?.map fun s => s.stage.held).getD []

end Background

namespace Watch

def remember (w : Watch σ α) (h : StreamEvent α) : Watch σ α :=
  { w with past := h :: w.past }

def setTracker (w : Watch σ α) (t : Tracker) : Watch σ α :=
  { w with background.database.tracker := t }

def publish (w : Watch σ α) (tables : List String) : Watch σ α :=
  (w.setTracker (w.background.database.tracker.notify tables)).remember (.published tables)

/-- Asks the stream for an item. A fault that is not the outcome of a run was told instead of one. -/
def poll (number : Nat) (w : Watch σ α) : Watch σ α :=
  let (p, background) := w.background.pollStream number
  let asked := ({ w with background }).remember (.answered p)
  match p with
  | .item (.error f) =>
    if (w.background.held number).isEmpty then
      { asked with past := .answered p :: .refused f :: w.past }
    else asked
  | _ => asked

def start (number : Nat) (w : Watch σ α) : Watch σ α :=
  ({ w with background.queue := w.background.queue.erase (.stream number) }).remember .started

def finish (number : Nat) (w : Watch σ α) (r : Except Fault (Option α)) : Watch σ α :=
  ({ w with background := w.background.finishRun number r }).remember (.ended r)

/-- Something happens that one stream may observe. -/
inductive Step (number : Nat) : Watch σ α → Watch σ α → Prop where
  | publish (w : Watch σ α) (tables : List String) : Step number w (w.publish tables)
  | poll (w : Watch σ α) : Step number w (w.poll number)
  | start (h : .stream number ∈ w.background.queue) : Step number w (w.start number)
  | finish (h : StreamEvent.ends w.past < StreamEvent.starts w.past)
    (r : Except Fault (Option α)) : Step number w (w.finish number r)
  | clone (w : Watch σ α) :
    Step number w { w.setTracker w.background.database.tracker.clone with clones := w.clones + 1 }
  | drop (h : 0 < w.clones) :
    Step number w { w.setTracker w.background.database.tracker.dropHandle with clones := w.clones - 1 }
  /-- Whatever else is done with the database and by other streams, futures and calls. -/
  | elsewhere (h : w.background.Alike number b) :
    Step number w { w with background := b }

/-- What becomes of a stream over tables that was created at some time. -/
inductive Reachable (number : Nat) (watched : List String) : Watch σ α → Prop where
  | created (e : Engine σ stmt) (inTransaction : Bool) (work : Nat → Operation σ (Option α))
    (b : Background σ α) (clones : Nat) (hnumber : b.streams.length = number)
    (hqueue : .stream number ∉ b.queue) (hhandles : b.database.tracker.handles = clones + 1) :
    Reachable number watched ⟨(b.createStream e inTransaction watched work).2, clones, []⟩
  | step (h : Reachable number watched w) (hs : Step number w w') : Reachable number watched w'

end Watch

end DataAccess
