import Mathlib.Data.List.Basic
import Mathlib.Logic.Relation
import DataAccess.Background.Future
import DataAccess.Proofs.Background.Checkpoints

/-!
This module contains one future among everything else that happens. The background thread takes its work up,
looks at the signal, opens the transaction, runs the callable and closes the transaction, and between any two
of these and any two checkpoints of the callable the future may be cancelled and polled any number of times.
A cancellation sets the signal and then aborts the work, which keeps it from being taken up or comes to
nothing. Main statement: creating, cancelling and running a future are made of these moments.
-/

namespace DataAccess

def Operation.cameTo (o : Outcome α) (db : Database σ) : Operation σ α :=
  fun _ => (o, db)

inductive FutureMoment (σ stmt α : Type) where
  | cancelled
  | takenUp
  | passedOver
  | refused
  | entered
  | began (db : Database σ)
  | did (m : Checkpoint σ stmt)
  | ended (o : Outcome α)
  | left (db after : Database σ)
  | polled (p : Poll (Except Fault α))

inductive FuturePhase (σ stmt α : Type) where
  | waiting
  | taken
  | entered
  | running (begun : Database σ) (c : Callable σ stmt α)
  | ended (begun : Database σ) (o : Outcome α)
  | arrived (r : Except Fault α)
  | resolved (r : Except Fault α)

structure CreatedFuture (σ stmt α : Type) where
  engine : Engine σ stmt
  inTransaction : Bool
  callable : Nat → Callable σ stmt α
  executor : Bool
  number : Nat
  signal : Nat

namespace CreatedFuture

variable (f : CreatedFuture σ stmt α)

def body (signal : Nat) : Operation σ α :=
  (f.callable signal).run f.engine

def work : Operation σ α :=
  Background.signalledWork f.engine f.inTransaction f.signal f.body

def entry (aborted : Bool) (reply : Reply α) : QueryFuture σ α :=
  ⟨f.signal, if f.executor then some f.work else none, aborted, reply⟩

def begin : Operation σ Unit :=
  if f.inTransaction then Database.beginTransaction f.engine else .ending (.ok ())

def leave (o : Outcome α) : Operation σ α :=
  if f.inTransaction then Database.within f.engine .commit (.ending o) else .ending o

def finish (o : Outcome α) (db : Database σ) : Operation σ α :=
  Database.runIn f.engine f.inTransaction (.cameTo o db)

theorem deaf_begin : f.begin.Deaf := by
  unfold begin
  split
  . exact Database.deaf_beginTransaction f.engine
  . exact .ending _

theorem deaf_leave (o : Outcome α) : (f.leave o).Deaf := by
  unfold leave
  split
  . exact Database.deaf_within f.engine .commit (.ending o)
  . exact .ending o

/-- What runs in a transaction is left after it was begun. -/
theorem runIn_eq (op : Operation σ α) (db : Database σ)
    : (Database.runIn f.engine f.inTransaction op).run db =
        Operation.follow (fun _ opened => (f.leave (op.run opened).1).run (op.run opened).2)
          (f.begin.run db) := by
  unfold Database.runIn begin leave
  split
  . rfl
  . rfl

theorem finish_of_begin (hbegin : (f.begin.run begun).1.result = .ok ()) (o : Outcome α)
    (db : Database σ) : (f.finish o db).run begun = (f.leave o).run db := by
  unfold finish
  rw [runIn_eq]
  rcases hopened : f.begin.run begun with ⟨_ | g | _, opened⟩
  . rfl
  . rw [hopened] at hbegin
    cases hbegin
  . rw [hopened] at hbegin
    cases hbegin

theorem work_eq (db : Database σ)
    : f.work.run db =
        if db.cancellation.isSet f.signal then (.fault .cancelled, db)
        else (Database.runIn f.engine f.inTransaction (f.body f.signal)).run db :=
  Background.signalledWork_eq ..

end CreatedFuture

namespace Background

variable (f : CreatedFuture σ stmt α)

def addFuture (entry : QueryFuture σ α) (b : Background σ α) : Background σ α :=
  { b with
    database.cancellation := b.database.cancellation.newSignal.2
    futures := b.futures ++ [entry] }

def signalFuture (b : Background σ α) : Background σ α :=
  { b with database.cancellation := b.database.cancellation.setSignal f.signal }

def abortFuture (b : Background σ α) : Background σ α :=
  { b with futures := b.futures.modify f.number ({ · with aborted := true }) }

def isAborted (b : Background σ α) : Bool :=
  (b.futures[f.number]?.map (·.aborted)).getD false

def takeFuture (b : Background σ α) : Background σ α :=
  { b with queue := b.queue.erase (.future f.number) }

def answerFuture (r : Except Fault α) (b : Background σ α) : Background σ α :=
  { b with futures := b.futures.modify f.number ({ · with reply := .arrived r }) }

variable {f} {b : Background σ α}

theorem createFuture_eq (hexecutor : b.executor = f.executor) (hnumber : b.futures.length = f.number)
    (hsignal : b.database.cancellation.signals.length = f.signal)
    : b.createFuture f.engine f.inTransaction f.body =
        (f.number,
          if f.executor then (b.addFuture (f.entry false .awaited)).enqueue (.future f.number)
          else b.addFuture (f.entry false (.arrived (.error .noExecutor)))) := by
  obtain ⟨engine, inTransaction, callable, executor, number, signal⟩ := f
  obtain ⟨database, _, ownDispatcher, futures, streams, calls, queue⟩ := b
  cases hexecutor
  cases hnumber
  cases hsignal
  cases executor with
  | true => rfl
  | false => rfl

theorem modify_futures {number : Nat} {g : QueryFuture σ α} (h : b.futures[number]? = some g)
    (change : QueryFuture σ α → QueryFuture σ α)
    : b.futures.modify number change = b.futures.set number (change g) := by
  rw [List.modify_eq_set_getElem?, h]
  rfl

theorem cancelFuture_eq {aborted : Bool} {reply : Reply α}
    (h : b.futures[f.number]? = some (f.entry aborted reply))
    : b.cancelFuture f.number = (b.signalFuture f).abortFuture f := by
  have hmodify := (b.signalFuture f).modify_futures h ({ · with aborted := true })
  unfold cancelFuture abortFuture
  rw [h, hmodify]
  rfl

/-- The background thread does the work of a future in one go, unless it was aborted. -/
theorem runFuture_entry {aborted : Bool} {reply : Reply α} (hexecutor : f.executor = true)
    (h : b.futures[f.number]? = some (f.entry aborted reply))
    : b.runFuture f.number =
        if aborted then b.answerFuture f (.error .cancelled)
        else
          answerFuture f (f.work.run b.database).1.result
            { b with database := (f.work.run b.database).2 } := by
  have hmodify (r : Except Fault α) := b.modify_futures h ({ · with reply := .arrived r })
  unfold runFuture answerFuture
  dsimp only
  rw [h, hmodify, hmodify]
  unfold CreatedFuture.entry
  rw [hexecutor]
  cases aborted with
  | true => rfl
  | false => rfl

structure SameFuture (f : CreatedFuture σ stmt α) (b b' : Background σ α) : Prop where
  entry : b'.futures[f.number]? = b.futures[f.number]?
  queued : b'.queue.count (.future f.number) = b.queue.count (.future f.number)
  signal : b'.database.cancellation.signals[f.signal]? = b.database.cancellation.signals[f.signal]?

end Background

structure FutureWatch (σ stmt α : Type) where
  background : Background σ α
  phase : FuturePhase σ stmt α
  past : List (FutureMoment σ stmt α)

namespace FutureWatch

variable (f : CreatedFuture σ stmt α)

def cancel (w : FutureWatch σ stmt α) : FutureWatch σ stmt α :=
  { w with background := w.background.signalFuture f, past := .cancelled :: w.past }

def abort (w : FutureWatch σ stmt α) : FutureWatch σ stmt α :=
  { w with background := w.background.abortFuture f }

def isSet (w : FutureWatch σ stmt α) : Bool :=
  w.background.database.cancellation.isSet f.signal

def takeUp (w : FutureWatch σ stmt α) : FutureWatch σ stmt α :=
  let background := w.background.takeFuture f
  if w.background.isAborted f then
    ⟨background.answerFuture f (.error .cancelled), .arrived (.error .cancelled), .passedOver :: w.past⟩
  else ⟨background, .taken, .takenUp :: w.past⟩

def enter (w : FutureWatch σ stmt α) : FutureWatch σ stmt α :=
  if w.isSet f then
    ⟨w.background.answerFuture f (.error .cancelled), .arrived (.error .cancelled), .refused :: w.past⟩
  else ⟨w.background, .entered, .entered :: w.past⟩

/-- The transaction is opened. The callable does not run if that fails. -/
def begin (w : FutureWatch σ stmt α) : FutureWatch σ stmt α :=
  let (opened, database) := f.begin.run w.background.database
  let background := { w.background with database }
  let past := .began w.background.database :: w.past
  match opened.result with
  | .ok () => ⟨background, .running w.background.database (f.callable f.signal), past⟩
  | .error g => ⟨background.answerFuture f (.error g), .arrived (.error g), past⟩

def leave (w : FutureWatch σ stmt α) (o : Outcome α) : FutureWatch σ stmt α :=
  let (r, database) := (f.leave o).run w.background.database
  ⟨{ w.background with database }.answerFuture f r.result, .arrived r.result,
    .left w.background.database database :: w.past⟩

def poll (w : FutureWatch σ stmt α) : FutureWatch σ stmt α :=
  let (p, background) := w.background.pollFuture f.number
  let phase := match p with
    | .ready r => .resolved r
    | .pending | .crash => w.phase
  ⟨background, phase, .polled p :: w.past⟩

/-- Something happens to a future, or elsewhere. -/
inductive Step : FutureWatch σ stmt α → FutureWatch σ stmt α → Prop where
  | cancel (w : FutureWatch σ stmt α) : Step w (w.cancel f)
  | abort (h : .cancelled ∈ w.past) : Step w (w.abort f)
  | takeUp (h : w.phase = .waiting) (hqueue : .future f.number ∈ w.background.queue) :
    Step w (w.takeUp f)
  | enter (h : w.phase = .taken) : Step w (w.enter f)
  | begin (h : w.phase = .entered) : Step w (w.begin f)
  | goOn (h : w.phase = .running begun c)
    (hdoes : c.Does f.engine w.background.database m c' database) :
    Step w ⟨{ w.background with database }, .running begun c', .did m :: w.past⟩
  | finish (h : w.phase = .running begun (.ends o)) :
    Step w { w with phase := .ended begun o, past := .ended o :: w.past }
  | leave (h : w.phase = .ended begun o) : Step w (w.leave f o)
  | poll (h : ∀ r, w.phase ≠ .resolved r) : Step w (w.poll f)
  /-- Whatever else is done with the database and by other futures, streams and calls. -/
  | elsewhere (h : w.background.SameFuture f b) : Step w { w with background := b }

def create (b : Background σ α) : FutureWatch σ stmt α :=
  ⟨(b.createFuture f.engine f.inTransaction f.body).2,
    if f.executor then .waiting else .arrived (.error .noExecutor), []⟩

/-- What becomes of a future that is created at some time. -/
inductive Reachable : FutureWatch σ stmt α → Prop where
  | created (b : Background σ α) (hexecutor : b.executor = f.executor)
    (hnumber : b.futures.length = f.number)
    (hsignal : b.database.cancellation.signals.length = f.signal) : Reachable (create f b)
  | step (h : Reachable w) (hs : Step f w w') : Reachable w'

end FutureWatch

end DataAccess
