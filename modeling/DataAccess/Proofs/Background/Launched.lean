import DataAccess.Background.Call
import DataAccess.Proofs.Cancellation.Handles
import DataAccess.Proofs.Database.Bracketing

/-!
This module contains one suspended call among everything else that happens. The call is offered to its
caller and scheduled, the dispatcher and the background thread take it up, its body ends, its handle is
disarmed and it reports. Between any two of these it may be cancelled any number of times, by several threads
at once: the first of them marks the handle, then takes the handle's action, and then does what it has taken;
the others find the handle marked and come back at once. What happens is remembered. Main statement: launching,
running, delivering and cancelling are made of these moments.
-/

namespace DataAccess

inductive CallMoment (σ α : Type) where
  | told (event : CallEvent α)
  | scheduled
  | requested
  /-- The call is to be cancelled once more. That comes back at once and changes nothing. -/
  | repeated
  | took
  | missed
  /-- The action is done. It is only now that the signal is set. -/
  | cancelled
  | started
  | refused
  | entered
  | ended (ran : Operation σ α) (db : Database σ)
  | disarmed

inductive CallPhase where
  | offered
  | scheduled
  | waiting
  | running
  | ended
  | disarmed
  | over

inductive CancelPhase where
  | idle
  | marked
  | holding (action : List CancelStep)

structure LaunchedCall (σ stmt α : Type) where
  engine : Engine σ stmt
  inTransaction : Bool
  body : Nat → Operation σ α
  number : Nat
  signal : Nat
  handle : Nat

namespace LaunchedCall

def work (l : LaunchedCall σ stmt α) : Operation σ α :=
  Background.signalledWork l.engine l.inTransaction l.signal l.body

def call (l : LaunchedCall σ stmt α) (stage : CallStage α) (events : List (CallEvent α)) :
    SuspendedCall σ α :=
  ⟨l.signal, l.handle, l.work, stage, events⟩

def result (l : LaunchedCall σ stmt α) (ran : Operation σ α) (db : Database σ) : Except Fault α :=
  (Database.runIn l.engine l.inTransaction ran db).1.result

theorem work_eq (l : LaunchedCall σ stmt α) (db : Database σ)
    : l.work db =
        if db.cancellation.isSet l.signal then (.fault .cancelled, db)
        else Database.runIn l.engine l.inTransaction (l.body l.signal) db :=
  Background.signalledWork_eq ..

end LaunchedCall

namespace Background

def offer (name : String) (b : Background σ α) : Background σ α :=
  let (signal, cancellation) := b.database.cancellation.newSignal
  let (handle, cancellation) := cancellation.newHandle [.signal (.number signal)]
  { b with database.cancellation := cancellation.nameHandle name handle }

def schedule (l : LaunchedCall σ stmt α) (b : Background σ α) : Background σ α :=
  { b with calls := b.calls ++ [l.call .scheduled [.cancellable false]] }

def setCall (number : Nat) (c : SuspendedCall σ α) (b : Background σ α) : Background σ α :=
  { b with calls := b.calls.set number c }

def endCall (l : LaunchedCall σ stmt α) (r : Except Fault α) (b : Background σ α) : Background σ α :=
  b.setCall l.number (l.call (.done r) [.cancellable false])

def runBody (l : LaunchedCall σ stmt α) (ran : Operation σ α) (b : Background σ α) : Background σ α :=
  let (r, database) := Database.runIn l.engine l.inTransaction ran b.database
  endCall l r.result { b with database }

def reportEnd (l : LaunchedCall σ stmt α) (r : Except Fault α) (b : Background σ α) : Background σ α :=
  b.setCall l.number (l.call .over [.cancellable false, report r])

def cancelCall (l : LaunchedCall σ stmt α) (b : Background σ α) : Background σ α :=
  { b with database.cancellation := b.database.cancellation.cancel l.handle }

def markCall (l : LaunchedCall σ stmt α) (b : Background σ α) : Background σ α :=
  { b with database.cancellation := b.database.cancellation.mark l.handle }

def actionOf (l : LaunchedCall σ stmt α) (b : Background σ α) : List CancelStep :=
  (b.database.cancellation.handles[l.handle]?.map (·.action)).getD []

def doAction (action : List CancelStep) (b : Background σ α) : Background σ α :=
  { b with database.cancellation := b.database.cancellation.run action }

def takeUp (l : LaunchedCall σ stmt α) (b : Background σ α) : Background σ α :=
  { b with queue := b.queue.erase (.call l.number) }

variable {b : Background σ α} {l : LaunchedCall σ stmt α}

/-- A launch offers the call to its caller and then schedules it. -/
theorem launch_eq (e : Engine σ stmt) (name : String) (inTransaction : Bool)
    (body : Nat → Operation σ α) (h : b.dispatcher = true)
    : b.launch e name inTransaction body =
        (b.calls.length,
          (b.offer name).schedule ⟨e, inTransaction, body, b.calls.length,
            b.database.cancellation.signals.length, b.database.cancellation.handles.length⟩) := by
  unfold dispatcher at h
  unfold launch offer schedule
  simp [dispatcher, h, Cancellation.newSignal, Cancellation.newHandle, Cancellation.nameHandle,
    Cancellation.isCancelled, LaunchedCall.call, LaunchedCall.work]

theorem getElem?_setCall {number : Nat} {c d : SuspendedCall σ α} (h : b.calls[number]? = some c)
    : (b.setCall number d).calls[number]? = some d := by
  obtain ⟨hlt, _⟩ := List.getElem?_eq_some_iff.1 h
  exact List.getElem?_set_self hlt

/-- The dispatcher has the work of a call wait, unless it finds the call cancelled. -/
theorem startCall_eq (h : b.calls[l.number]? = some (l.call .scheduled [.cancellable false]))
    : b.startCall l.number =
        if b.database.cancellation.isSet l.signal then
          (b.setCall l.number (l.call .over [.cancellable false])).disarm l.handle
        else (b.setCall l.number (l.call .working [.cancellable false])).enqueue (.call l.number) := by
  unfold startCall
  rw [h]
  rfl

/-- The background thread runs the body of a call, unless it finds the call cancelled. -/
theorem runCall_of_working (h : b.calls[l.number]? = some (l.call .working [.cancellable false]))
    : b.runCall l.number =
        if b.database.cancellation.isSet l.signal then b.endCall l (.error .cancelled)
        else b.runBody l (l.body l.signal) := by
  unfold runCall
  rw [h]
  dsimp only [perform, LaunchedCall.call]
  rw [LaunchedCall.work_eq]
  split
  . rfl
  . rfl

/-- A call whose work is done has its handle disarmed and then reports. -/
theorem deliver_eq {r : Except Fault α}
    (h : b.calls[l.number]? = some (l.call (.done r) [.cancellable false]))
    : b.deliver l.number = (b.disarm l.handle).reportEnd l r := by
  unfold deliver
  rw [h]
  rfl

end Background

structure CallWatch (σ α : Type) where
  background : Background σ α
  phase : CallPhase
  cancelling : CancelPhase
  past : List (CallMoment σ α)

structure Background.SameCall (l : LaunchedCall σ stmt α) (b b' : Background σ α) : Prop where
  call : b'.calls[l.number]? = b.calls[l.number]?
  queued : b'.queue.count (.call l.number) = b.queue.count (.call l.number)
  signal : b'.database.cancellation.signals[l.signal]? = b.database.cancellation.signals[l.signal]?
  handle : b'.database.cancellation.handles[l.handle]? = b.database.cancellation.handles[l.handle]?

namespace CallWatch

variable (l : LaunchedCall σ stmt α)

def isSet (w : CallWatch σ α) : Bool :=
  w.background.database.cancellation.isSet l.signal

def request (w : CallWatch σ α) : CallWatch σ α :=
  { w with background := w.background.markCall l, cancelling := .marked, past := .requested :: w.past }

def take (w : CallWatch σ α) : CallWatch σ α :=
  let background := w.background.disarm l.handle
  match w.background.actionOf l with
  | [] => { w with background, cancelling := .idle, past := .missed :: w.past }
  | first :: rest =>
    { w with background, cancelling := .holding (first :: rest), past := .took :: w.past }

def act (w : CallWatch σ α) (action : List CancelStep) : CallWatch σ α :=
  { w with background := w.background.doAction action, cancelling := .idle, past := .cancelled :: w.past }

def start (w : CallWatch σ α) : CallWatch σ α :=
  let background := w.background.startCall l.number
  if w.isSet l then { w with background, phase := .over, past := .disarmed :: .started :: w.past }
  else { w with background, phase := .waiting, past := .started :: w.past }

def enter (w : CallWatch σ α) : CallWatch σ α :=
  let background := w.background.takeUp l
  if w.isSet l then
    { w with
      background := background.endCall l (.error .cancelled), phase := .ended, past := .refused :: w.past }
  else { w with background, phase := .running, past := .entered :: w.past }

/-- Something happens to a call, or elsewhere. -/
inductive Step : CallWatch σ α → CallWatch σ α → Prop where
  | request (hfresh : w.background.database.cancellation.isCancelled l.handle = false) :
    Step w (w.request l)
  | again (hcancelled : w.background.database.cancellation.isCancelled l.handle = true) :
    Step w { w with past := .repeated :: w.past }
  | take (h : w.cancelling = .marked) : Step w (w.take l)
  | act (h : w.cancelling = .holding action) : Step w (w.act action)
  | schedule (h : w.phase = .offered) (hdispatcher : w.background.dispatcher = true)
    (hnumber : w.background.calls.length = l.number) :
    Step w { w with
      background := w.background.schedule l, phase := .scheduled, past := .scheduled :: w.past }
  | start (h : w.phase = .scheduled) : Step w (w.start l)
  | enter (h : w.phase = .waiting) (hqueue : .call l.number ∈ w.background.queue) : Step w (w.enter l)
  | finish (h : w.phase = .running) (ran : Operation σ α)
    (hhandle : ((w.background.runBody l ran).database.cancellation.handles[l.handle]?).isSome)
    (hmark : w.background.database.cancellation.isCancelled l.handle = true →
      (w.background.runBody l ran).database.cancellation.isCancelled l.handle = true) :
    Step w { w with
      background := w.background.runBody l ran, phase := .ended,
      past := .ended ran w.background.database :: w.past }
  | disarm (h : w.phase = .ended) :
    Step w { w with
      background := w.background.disarm l.handle, phase := .disarmed, past := .disarmed :: w.past }
  | report (h : w.phase = .disarmed)
    (hdone : w.background.calls[l.number]? = some (l.call (.done r) [.cancellable false])) :
    Step w { w with
      background := w.background.reportEnd l r, phase := .over,
      past := .told (Background.report r) :: w.past }
  /-- Whatever else is done with the database and by other calls, futures and streams. -/
  | elsewhere (h : w.background.SameCall l b) : Step w { w with background := b }

/-- What becomes of a call that is launched at some time. -/
inductive Reachable : CallWatch σ α → Prop where
  | offered (name : String) (b : Background σ α)
    (hsignal : b.database.cancellation.signals.length = l.signal)
    (hhandle : b.database.cancellation.handles.length = l.handle) :
    Reachable ⟨b.offer name, .offered, .idle, [.told (.cancellable false)]⟩
  | step (h : Reachable w) (hs : Step l w w') : Reachable w'

end CallWatch

end DataAccess
