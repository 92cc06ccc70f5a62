import DataAccess.Background.Basic

/-!
This module contains futures. Cancelling a future sets its signal and has its work passed over, unless
it was begun.
-/

namespace DataAccess.Background

/-- Has an operation done in the background and tells the number of its future. The operation is
given its signal. -/
def createFuture (e : Engine σ stmt) (inTransaction : Bool) (body : Nat → Operation σ α)
    (b : Background σ α) : Nat × Background σ α :=
  let number := b.futures.length
  let (signal, cancellation) := b.database.cancellation.newSignal
  let b := { b with database.cancellation := cancellation }
  let f : QueryFuture σ α :=
    if b.executor then ⟨signal, some (signalledWork e inTransaction signal body), false, .awaited⟩
    else ⟨signal, none, false, .arrived (.error .noExecutor)⟩
  let b := { b with futures := b.futures ++ [f] }
  (number, if b.executor then b.enqueue (.future number) else b)

def cancelFuture (number : Nat) (b : Background σ α) : Background σ α :=
  match b.futures[number]? with
  | none => b
  | some f =>
    { b with
      database.cancellation := b.database.cancellation.setSignal f.signal
      futures := b.futures.set number { f with aborted := true } }

def isCancelledFuture (number : Nat) (b : Background σ α) : Bool :=
  (b.futures[number]?.map fun f => b.database.cancellation.isSet f.signal).getD false

def pollFuture (number : Nat) (b : Background σ α) : Poll (Except Fault α) × Background σ α :=
  match b.futures[number]? with
  | none => (.pending, b)
  | some f =>
    match f.reply with
    | .awaited => (.pending, b)
    | .arrived r => (.ready r, { b with futures := b.futures.set number { f with reply := .taken } })
    | .taken =>
      if f.work.isSome then (.crash, b)
      else (.ready (.error (.task "future polled after completion")), b)

def runFuture (number : Nat) (b : Background σ α) : Background σ α :=
  match b.futures[number]? with
  | none => b
  | some f =>
    let (r, b) :=
      if f.aborted then (.error .cancelled, b)
      else
        match f.work with
        | none => (.error .noExecutor, b)
        | some work => let (r, b) := b.perform work; (r.result, b)
    { b with futures := b.futures.set number { f with reply := .arrived r } }

end DataAccess.Background
