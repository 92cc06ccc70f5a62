import DataAccess.Database.Transaction
import DataAccess.Proofs.Cancellation.Handles

/-!
This module contains what operations have to do with signals. A statement and a cursor look at the signal
that they listen to, and nothing else does. Main statement: opening and closing a transaction comes to the
same whichever signals are set.
-/

namespace DataAccess

namespace Cancellation

structure Keeps (c c' : Cancellation) : Prop where
  known : c.signals.length ≤ c'.signals.length
  set : ∀ n, c.isSet n = true → c'.isSet n = true

theorem Keeps.of_eq {c c' : Cancellation} (h : c' = c) : c.Keeps c' :=
  h ▸ ⟨Nat.le_refl _, fun _ => id⟩

theorem isSet_newSignal (c : Cancellation) : c.newSignal.2.isSet c.signals.length = false := by
  simp [newSignal, isSet]

end Cancellation

theorem Cursor.next_of_cancelled {c : Cursor} {signals : Cancellation} (hopen : c.closed = false)
    (hset : c.signal.any signals.isSet = true) : c.next signals = (.error .cancelled, c) := by
  simp [next, hopen, hset]

namespace Database

variable {db : Database σ} {signal : Nat}

def KeepsSignals (act : Database σ → Database σ) : Prop :=
  ∀ db : Database σ, db.cancellation.Keeps (act db).cancellation

theorem query_of_set (e : Engine σ stmt) (s : stmt) (hset : db.cancellation.isSet signal = true)
    : (query e s (some signal)).run db = (.fault .cancelled, db) := by
  change Operation.follow _ (checkSignal signal db) = _
  unfold checkSignal Cancellation.check
  rw [hset]
  rfl

theorem cancellation_query (e : Engine σ stmt) (s : stmt) (signal : Option Nat) (db : Database σ)
    : ((query e s signal).run db).2.cancellation = db.cancellation := by
  cases signal with
  | none => rfl
  | some signal =>
    change (Operation.follow _ (checkSignal signal db)).2.cancellation = _
    unfold checkSignal Cancellation.check
    split
    . rfl
    . rfl

def withCancellation (c : Cancellation) (db : Database σ) : Database σ :=
  { db with cancellation := c }

end Database

namespace Operation

def Deaf (op : Operation σ α) : Prop :=
  ∀ c db, op.run (db.withCancellation c) = (op.run db).map id (Database.withCancellation c)

def ending (o : Outcome α) : Operation σ α :=
  fun db => (o, db)

namespace Deaf

variable {op : Operation σ α}

theorem cancellation_eq (h : op.Deaf) (db : Database σ)
    : (op.run db).2.cancellation = db.cancellation :=
  congrArg (·.2.cancellation) (h db.cancellation db)

theorem ending (o : Outcome α) : (Operation.ending o : Operation σ α).Deaf :=
  fun _ _ => rfl

theorem bind {next : α → Operation σ β} (h : op.Deaf) (hnext : ∀ a, (next a).Deaf)
    : (op >>= next).Deaf := by
  intro c db
  change follow next (op.run (db.withCancellation c)) = (follow next (op.run db)).map id _
  rw [h c db]
  rcases op.run db with ⟨_ | _ | _, db'⟩
  . exact hnext _ c db'
  . rfl
  . rfl

theorem onStore (step : σ → Except Fault α × σ) : (Operation.onStore step).Deaf :=
  fun _ _ => rfl

end Deaf

end Operation

namespace Database

open Operation (Deaf)

variable (e : Engine σ stmt)

theorem deaf_publish : (publish e).Deaf := by
  intro c db
  change (Outcome.ok (), if e.inTransaction db.store then db.withCancellation c else
      notify (e.takeModified db.store).1
        { db.withCancellation c with store := (e.takeModified db.store).2 }) =
    (Outcome.ok (), (if e.inTransaction db.store then db else
      notify (e.takeModified db.store).1
        { db with store := (e.takeModified db.store).2 }).withCancellation c)
  split
  . rfl
  . unfold notify
    split
    . rfl
    . rfl

theorem deaf_beginTransaction : (beginTransaction e).Deaf :=
  .onStore _

theorem deaf_endTransaction (success : Bool) : (endTransaction e success).Deaf :=
  (Deaf.onStore _).bind fun _ => deaf_publish e

theorem deaf_abandon : (abandon e).Deaf := by
  intro c db
  change (Outcome.ok (), ((endTransaction e false).run (db.withCancellation c)).2) = _
  rw [deaf_endTransaction e false c db]
  rfl

theorem deaf_leave (closing : Closing) : (leave e closing).Deaf := by
  cases closing with
  | commit => exact deaf_endTransaction e true
  | rollback => exact deaf_endTransaction e false
  | abandon => exact deaf_abandon e

theorem run_within (closing : Closing) (body : Operation σ α) (db : Database σ)
    : (within e closing body).run db =
        match body.run db with
        | (.ok a, db) => (do leave e closing; return a : Operation σ α).run db
        | (failed, db) => (failed, ((abandon e).run db).2) :=
  rfl

theorem deaf_within (closing : Closing) {body : Operation σ α} (hbody : body.Deaf)
    : (within e closing body).Deaf := by
  intro c db
  have hleave (a : α) : (do leave e closing; return a : Operation σ α).Deaf :=
    (deaf_leave e closing).bind fun _ => .ending (.ok a)
  rw [run_within, run_within, hbody c db]
  rcases body.run db with ⟨a | f | _, db'⟩
  . exact hleave a c db'
  . exact congrArg (Prod.mk _) (congrArg Prod.snd (deaf_abandon e c db'))
  . exact congrArg (Prod.mk _) (congrArg Prod.snd (deaf_abandon e c db'))

end Database

end DataAccess
