import DataAccess.Background.Basic

/-!
This module contains suspended calls. A call reports that it can be cancelled before anything else, and
later once how it ended. A call that is cancelled before it is started reports no end. Once its work is
done the call's handle is disarmed.
-/

namespace DataAccess.Background

def failureCode : Nat :=
  404

def report : Except Fault α → CallEvent α
  | .ok a => .success a
  | .error f => .failure failureCode f.message

def disarm (handle : Nat) (b : Background σ α) : Background σ α :=
  { b with database.cancellation := b.database.cancellation.disarm handle }

/-- Launches a call whose handle has a name, and tells its number. The operation is given its
signal. -/
def launch (e : Engine σ stmt) (name : String) (inTransaction : Bool)
    (body : Nat → Operation σ α) (b : Background σ α) : Nat × Background σ α :=
  let number := b.calls.length
  let (signal, cancellation) := b.database.cancellation.newSignal
  let (handle, cancellation) := cancellation.newHandle [.signal (.number signal)]
  let b := { b with database.cancellation := cancellation.nameHandle name handle }
  let work := signalledWork e inTransaction signal body
  let cancellable : CallEvent α := .cancellable (cancellation.isCancelled handle)
  let c : SuspendedCall σ α :=
    if b.dispatcher then ⟨signal, handle, work, .scheduled, [cancellable]⟩
    else ⟨signal, handle, work, .over, [cancellable, report (.error .noExecutor)]⟩
  let b := { b with calls := b.calls ++ [c] }
  (number, if b.dispatcher then b else b.disarm handle)

/-- Starts a call that is scheduled: its work waits for the background thread, unless the call was
cancelled. -/
def startCall (number : Nat) (b : Background σ α) : Background σ α :=
  match b.calls[number]? with
  | none => b
  | some c =>
    match c.stage with
    | .scheduled =>
      if b.database.cancellation.isSet c.signal then
        { b with calls := b.calls.set number { c with stage := .over } }.disarm c.handle
      else
        { b with calls := b.calls.set number { c with stage := .working } }.enqueue (.call number)
    | _ => b

def runCall (number : Nat) (b : Background σ α) : Background σ α :=
  match b.calls[number]? with
  | none => b
  | some c =>
    let (r, b) := b.perform c.work
    { b with calls := b.calls.set number { c with stage := .done r.result } }

def deliver (number : Nat) (b : Background σ α) : Background σ α :=
  match b.calls[number]? with
  | none => b
  | some c =>
    match c.stage with
    | .done r =>
      let c := { c with stage := .over, events := c.events ++ [report r] }
      { b with calls := b.calls.set number c }.disarm c.handle
    | _ => b

def takeEvents (number : Nat) (b : Background σ α) : List (CallEvent α) × Background σ α :=
  match b.calls[number]? with
  | none => ([], b)
  | some c => (c.events, { b with calls := b.calls.set number { c with events := [] } })

end DataAccess.Background
