import DataAccess.Background.Call
import DataAccess.Background.Future
import DataAccess.Background.Stream

/-!
This module contains the driving of the background. Calls are started, then all work that waits is done
first in first out, then the calls report.
-/

namespace DataAccess.Background

def runWork (b : Background σ α) : QueuedWork → Background σ α
  | .future number => b.runFuture number
  | .stream number => b.runStream number
  | .call number => b.runCall number

def forCalls (f : Nat → Background σ α → Background σ α) (b : Background σ α) : Background σ α :=
  (List.range b.calls.length).foldl (fun b number => f number b) b

def startCalls (b : Background σ α) : Background σ α :=
  b.forCalls startCall

def runQueue (b : Background σ α) : Background σ α :=
  b.queue.foldl runWork { b with queue := [] }

def deliverAll (b : Background σ α) : Background σ α :=
  b.forCalls deliver

/-- Drives the background until nothing is left to do. -/
def drive (b : Background σ α) : Background σ α :=
  b.startCalls.runQueue.deliverAll

def busy (b : Background σ α) : Bool :=
  !b.queue.isEmpty || b.calls.any fun c =>
    match c.stage with
    | .scheduled => true
    | _ => false

end DataAccess.Background
