import DataAccess.Proofs.Database.Routines

/-!
This module contains guards over transactions. A guard remembers whether it was used up, and when it is dropped
before that, because what holds it fails or crashes, it rolls its transaction back. Main statement: operations
inside of transactions do what the guards in their code make them do.
-/

namespace DataAccess

structure Guard where
  finished : Bool

namespace Guard

open Operation (follow attempt_eq)

section

variable (e : Engine σ stmt)

def create : Operation σ Guard := do
  Database.beginTransaction e
  return ⟨false⟩

def drop (g : Guard) : Operation σ Unit := do
  if !g.finished then
    -- Nobody hears whether rolling back failed.
    let _ ← (Database.endTransaction e false).attempt

/-- Does an operation that a guard is handed over to. The guard is dropped at its end, however it ends. -/
def takenBy (g : Guard) (op : Operation σ α) : Operation σ α :=
  fun db => ((op db).1, (g.drop e (op db).2).2)

/-- Does an operation while a guard is held, which outlasts it unless it fails or crashes. -/
def heldDuring (g : Guard) (op : Operation σ α) : Operation σ α :=
  fun db =>
    match op db with
    | (.ok a, db) => (.ok a, db)
    | (failed, db) => (failed, (g.drop e db).2)

/-- Commits or rolls back. The flag is set before the transaction is closed. -/
def finish (g : Guard) (success : Bool) : Operation σ Unit :=
  takenBy e { g with finished := true } (Database.endTransaction e success)

def leave (g : Guard) : Closing → Operation σ Unit
  | .commit => g.finish e true
  | .rollback => g.finish e false
  | .abandon => g.drop e

def around (closing : α → Closing) (body : Operation σ α) : Operation σ (α × Except Fault Unit) := do
  let guard ← create e
  let a ← guard.heldDuring e body
  let answer ← (guard.leave e (closing a)).attempt
  return (a, answer)

/-- Does an operation under a guard. If it fails, nobody hears whether rolling back failed as well. -/
def transaction (body : Operation σ α) : Operation σ α := do
  let guard ← create e
  match ← guard.heldDuring e body.attempt with
  | .ok a =>
    guard.finish e true
    return a
  | .error f =>
    let _ ← (guard.finish e false).attempt
    .fail f

end

variable {e : Engine σ stmt}

theorem attempt_endTransaction (success : Bool) (db : Database σ)
    : ∃ r, (Database.endTransaction e success).attempt db = (.ok r, (Database.endTransaction e success db).2) := by
  rw [attempt_eq, Database.endTransaction_eq]
  rcases e.closeTransaction success db.store with ⟨r, store⟩
  cases r with
  | ok | error => exact ⟨_, rfl⟩

theorem finish_eq (g : Guard) (success : Bool) : g.finish e success = Database.endTransaction e success :=
  rfl

theorem drop_eq_abandon {g : Guard} (hopen : g.finished = false) : g.drop e = Database.abandon e := by
  funext db
  unfold drop
  rw [hopen]
  obtain ⟨r, hended⟩ := attempt_endTransaction (e := e) false db
  change follow _ (Operation.attempt _ db) = _
  rw [hended]
  rfl

theorem leave_eq {g : Guard} (hopen : g.finished = false) (closing : Closing)
    : g.leave e closing = Database.leave e closing := by
  cases closing with
  | commit => exact g.finish_eq true
  | rollback => exact g.finish_eq false
  | abandon => exact drop_eq_abandon hopen

/-- An operation under a guard that is left in one way is one in the transaction of that guard. -/
theorem within_eq {g : Guard} (hopen : g.finished = false) (closing : Closing) (body : Operation σ α)
    : (do
          let a ← g.heldDuring e body
          g.leave e closing
          return a)
        =
      Database.within e closing body := by
  funext db
  change follow _ (heldDuring e g body db) = _
  unfold heldDuring Database.within
  rw [leave_eq hopen, drop_eq_abandon hopen]
  rcases body db with ⟨_ | _ | _, _⟩
  . rfl
  . rfl
  . rfl

theorem around_eq_guardedBy (closing : α → Closing) (body : Operation σ α)
    : around e closing body = Database.guardedBy e closing body := by
  funext db
  change follow _ (follow _ (Database.beginTransaction e db)) = follow _ (Database.beginTransaction e db)
  rcases Database.beginTransaction e db with ⟨_ | _ | _, opened⟩
  . change follow _ (heldDuring e ⟨false⟩ body opened) = _
    unfold heldDuring
    rw [drop_eq_abandon rfl]
    dsimp only [follow]
    rcases body opened with ⟨a | _ | _, ended⟩
    . exact congrArg (fun leaving => (do return (a, ← leaving.attempt) : Operation σ _) ended)
        (leave_eq rfl (closing a))
    . rfl
    . rfl
  . rfl
  . rfl

theorem transaction_eq_runInTransaction (body : Operation σ α)
    : transaction e body = Database.runInTransaction e body := by
  funext db
  change follow _ (follow _ (Database.beginTransaction e db)) = follow _ (Database.beginTransaction e db)
  rcases Database.beginTransaction e db with ⟨_ | _ | _, opened⟩
  . change follow _ (heldDuring e ⟨false⟩ body.attempt opened) = Database.within e .commit body opened
    unfold heldDuring Database.within
    rw [attempt_eq, drop_eq_abandon rfl]
    rcases body opened with ⟨a | f | _, ended⟩
    . rfl
    . obtain ⟨r, hended⟩ := attempt_endTransaction (e := e) false ended
      change follow _ (Operation.attempt _ ended) = _
      rw [finish_eq, hended]
      rfl
    . rfl
  . rfl
  . rfl

end Guard

end DataAccess
