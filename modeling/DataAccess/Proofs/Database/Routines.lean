import DataAccess.Database.Transaction

/-!
This module contains routines, which are what code does with a database: statements, transactions and
guards one inside the other, failures that are passed on or not, and crashes. Main statement: a routine
does the same on two engines if one of them simulates the other.
-/

namespace DataAccess

inductive Action (stmt : Type) : Type → Type where
  | execute (q : stmt) (tables : List String) : Action stmt Nat
  | insert (q : stmt) (tables : List String) : Action stmt Int64
  | query (q : stmt) (signal : Option Nat) : Action stmt Cursor
  | inTransaction : Action stmt Bool
  | setSignal (signal : Nat) : Action stmt Unit
  | checkSignal (signal : Nat) : Action stmt Unit
  | cancelHandle (name : String) : Action stmt Unit

def Action.run (e : Engine σ stmt) : Action stmt α → Operation σ α
  | execute q tables => Database.execute e q tables
  | insert q tables => Database.insert e q tables
  | query q signal => Database.query e q signal
  | inTransaction => Database.inTransaction e
  | setSignal signal => Database.setSignal signal
  | checkSignal signal => Database.checkSignal signal
  | cancelHandle name => Database.cancelHandle name

def Outcome.held : Outcome α → Outcome (Except Fault α)
  | ok a => ok (.ok a)
  | fault f => ok (.error f)
  | crash => crash

theorem Operation.attempt_eq (op : Operation σ α) (db : Database σ)
    : op.attempt db = ((op db).1.held, (op db).2) := by
  unfold attempt
  rcases op db with ⟨_ | _ | _, db⟩
  . rfl
  . rfl
  . rfl

theorem Operation.snd_map (f : α → β) (op : Operation σ α) (db : Database σ)
    : ((f <$> op) db).2 = (op db).2 := by
  change (follow (pure ∘ f) (op db)).2 = (op db).2
  rcases op db with ⟨_ | _ | _, _⟩
  . rfl
  . rfl
  . rfl

namespace Database

open Operation (follow attempt_eq)

theorem snd_leave (e : Engine σ stmt) (closing : Closing) (db : Database σ)
    : ∃ success, ((leave e closing).attempt db).2 = (endTransaction e success db).2 := by
  rw [attempt_eq]
  cases closing with
  | commit => exact ⟨true, rfl⟩
  | rollback | abandon => exact ⟨false, rfl⟩

/-- Does an operation under a guard, which is left in a way that may depend on what the operation
answers, and tells what leaving it answered. A guard that is not left is dropped when the operation fails
or crashes. -/
def guardedBy (e : Engine σ stmt) (closing : α → Closing) (body : Operation σ α) :
    Operation σ (α × Except Fault Unit) := do
  beginTransaction e
  fun db =>
    match body db with
    | (.ok a, db) =>
      (do
        let answer ← (leave e (closing a)).attempt
        return (a, answer) : Operation σ (α × Except Fault Unit)) db
    | (.fault f, db) => (.fault f, (abandon e db).2)
    | (.crash, db) => (.crash, (abandon e db).2)

def heard (r : Except Fault (α × Except Fault Unit)) : Except Fault α :=
  r.bind fun (a, answer) => answer.map fun _ => a

/-- An operation in a transaction is one under a guard that is left in the same way in any case. -/
theorem attempt_guarded (e : Engine σ stmt) (closing : Closing) (body : Operation σ α)
    : (guarded e closing body).attempt
        =
      heard <$> (guardedBy e (fun _ => closing) body).attempt := by
  funext db
  change _ = follow (pure ∘ heard) (Operation.attempt _ db)
  rw [attempt_eq, attempt_eq]
  change ((follow _ (beginTransaction e db)).1.held, (follow _ (beginTransaction e db)).2)
    = follow _ ((follow _ (beginTransaction e db)).1.held, (follow _ (beginTransaction e db)).2)
  rcases beginTransaction e db with ⟨_ | f | _, db⟩
  . dsimp only [follow]
    unfold within
    rcases body db with ⟨a | f | _, db⟩
    . change ((follow _ (leave e closing db)).1.held, (follow _ (leave e closing db)).2)
        = follow _ ((follow _ (Operation.attempt _ db)).1.held, (follow _ (Operation.attempt _ db)).2)
      rw [attempt_eq]
      rcases leave e closing db with ⟨_ | f | _, db⟩
      . rfl
      . rfl
      . rfl
    . rfl
    . rfl
  . rfl
  . rfl

end Database

/-- What code does with a database. It hears how each action, transaction and guard ended and goes on as
it likes, but a crash ends it. -/
inductive Routine (stmt : Type) : Type → Type 1 where
  | done (a : α) : Routine stmt α
  | fail (f : Fault) : Routine stmt α
  | panic : Routine stmt α
  | act {β : Type} (a : Action stmt β) (next : Except Fault β → Routine stmt α) : Routine stmt α
  | call {β : Type} (body : Routine stmt β) (next : Except Fault β → Routine stmt α) :
    Routine stmt α
  | guarded {β : Type} (closing : β → Closing) (body : Routine stmt β)
    (next : Except Fault (β × Except Fault Unit) → Routine stmt α) : Routine stmt α

def Routine.run (e : Engine σ stmt) : Routine stmt α → Operation σ α
  | done a => pure a
  | fail f => Operation.fail f
  | panic => Operation.crash
  | act a next => do
    let r ← (a.run e).attempt
    run e (next r)
  | call body next => do
    let r ← (Database.runInTransaction e (run e body)).attempt
    run e (next r)
  | guarded closing body next => do
    let r ← (Database.guardedBy e closing (run e body)).attempt
    run e (next r)

structure Engine.Simulates (e' : Engine σ' stmt) (e : Engine σ stmt) (f : σ' → σ) : Prop where
  execute : ∀ q s, (e'.execute q s).map id f = e.execute q (f s)
  insert : ∀ q s, (e'.insert q s).map id f = e.insert q (f s)
  query : ∀ q signal signals s,
    (e'.query q signal signals s).map id f = e.query q signal signals (f s)
  openTransaction : ∀ s, (e'.openTransaction s).map id f = e.openTransaction (f s)
  closeTransaction : ∀ success s,
    (e'.closeTransaction success s).map id f = e.closeTransaction success (f s)
  inTransaction : ∀ s, e'.inTransaction s = e.inTransaction (f s)
  recordModified : ∀ tables s, f (e'.recordModified tables s) = e.recordModified tables (f s)
  takeModified : ∀ s, (e'.takeModified s).map id f = e.takeModified (f s)

def Database.mapStore (f : σ' → σ) (db : Database σ') : Database σ :=
  { db with store := f db.store }

/-- An operation does what another one does in other states. -/
def Operation.Mirrors (f : σ' → σ) (op' : Operation σ' α) (op : Operation σ α) : Prop :=
  ∀ db, (op' db).map id (Database.mapStore f) = op (db.mapStore f)

namespace Operation.Mirrors

variable {f : σ' → σ}

theorem bind {op' : Operation σ' α} {op : Operation σ α} {next' : α → Operation σ' β}
    {next : α → Operation σ β} (h : Mirrors f op' op) (hnext : ∀ a, Mirrors f (next' a) (next a))
    : Mirrors f (op' >>= next') (op >>= next) := by
  intro db
  change (follow next' (op' db)).map id _ = follow next (op (db.mapStore f))
  rw [← h db]
  rcases op' db with ⟨_ | _ | _, db'⟩
  . exact hnext _ db'
  . rfl
  . rfl

theorem ofExcept (r : Except Fault α) : Mirrors f (.ofExcept r) (.ofExcept r) :=
  fun _ => rfl

theorem pure (a : α) : Mirrors f (Pure.pure a) (Pure.pure a) :=
  ofExcept (.ok a)

theorem foldlM {step' : β → α → Operation σ' β} {step : β → α → Operation σ β}
    (h : ∀ b a, Mirrors f (step' b a) (step b a)) (as : List α) (b : β)
    : Mirrors f (as.foldlM step' b) (as.foldlM step b) := by
  induction as generalizing b with
  | nil => exact pure b
  | cons a as ih =>
    rw [List.foldlM_cons, List.foldlM_cons]
    exact (h b a).bind ih

theorem mapM {step' : α → Operation σ' β} {step : α → Operation σ β} (h : ∀ a, Mirrors f (step' a) (step a))
    (as : List α) : Mirrors f (as.mapM step') (as.mapM step) := by
  induction as with
  | nil => exact pure []
  | cons a as ih =>
    rw [List.mapM_cons, List.mapM_cons]
    exact (h a).bind fun b => ih.bind fun bs => pure (b :: bs)

theorem attempt {op' : Operation σ' α} {op : Operation σ α} (h : Mirrors f op' op)
    : Mirrors f op'.attempt op.attempt := by
  intro db
  unfold Operation.attempt
  rw [← h db]
  rcases op' db with ⟨_ | _ | _, db'⟩
  . rfl
  . rfl
  . rfl

theorem onStore {step' : σ' → Except Fault α × σ'} {step : σ → Except Fault α × σ}
    (h : ∀ s, (step' s).map id f = step (f s))
    : Mirrors f (Operation.onStore step') (Operation.onStore step) := by
  intro db
  unfold Operation.onStore
  dsimp only [Database.mapStore]
  rw [← h]
  rfl

theorem modify {change' : Database σ' → Database σ'} {change : Database σ → Database σ}
    (h : ∀ db, (change' db).mapStore f = change (db.mapStore f))
    : Mirrors f (Operation.modify change') (Operation.modify change) := by
  intro db
  exact congrArg (Prod.mk _) (h db)

end Operation.Mirrors

namespace Engine.Simulates

open Operation (Mirrors)

variable {e' : Engine σ' stmt} {e : Engine σ stmt} {f : σ' → σ}

theorem mirrors_publish (h : e'.Simulates e f)
    : Mirrors f (Database.publish e') (Database.publish e) := by
  apply Mirrors.modify
  intro db
  have hnotify (tables : List String) (db : Database σ')
      : (db.notify tables).mapStore f = (db.mapStore f).notify tables := by
    unfold Database.notify
    split
    . rfl
    . rfl
  change Database.mapStore f (if e'.inTransaction db.store then db
      else Database.notify (e'.takeModified db.store).1
        { db with store := (e'.takeModified db.store).2 })
    = if e.inTransaction (f db.store) then db.mapStore f
      else Database.notify (e.takeModified (f db.store)).1
        { db.mapStore f with store := (e.takeModified (f db.store)).2 }
  rw [← h.inTransaction, ← h.takeModified]
  split
  . rfl
  . exact hnotify _ _

theorem mirrors_wrote (h : e'.Simulates e f) (tables : List String)
    : Mirrors f (Database.wrote e' tables) (Database.wrote e tables) := by
  intro db
  rw [Database.wrote_eq_publish, Database.wrote_eq_publish]
  split
  . exact h.mirrors_publish db
  . dsimp only [Database.mapStore]
    rw [← h.recordModified tables db.store]
    exact h.mirrors_publish { db with store := e'.recordModified tables db.store }

theorem mirrors_statement (h : e'.Simulates e f) {op' : Operation σ' α} {op : Operation σ α}
    (hop : Mirrors f op' op) (tables : List String)
    : Mirrors f (do let a ← op'; Database.wrote e' tables; return a)
        (do let a ← op; Database.wrote e tables; return a) := by
  apply hop.bind
  intro a
  apply (h.mirrors_wrote tables).bind
  intro _ db
  rfl

theorem mirrors_query (h : e'.Simulates e f) (q : stmt) (signal : Option Nat)
    : Mirrors f (Database.query e' q signal) (Database.query e q signal) := by
  have hrun : Mirrors f
      (fun db => (Operation.onStore (e'.query q signal db.cancellation)).run db)
      (fun db => (Operation.onStore (e.query q signal db.cancellation)).run db) := by
    intro db
    exact Mirrors.onStore (h.query q signal db.cancellation) db
  unfold Database.query
  cases signal with
  | none => exact hrun
  | some signal =>
    have hcheck : Mirrors f (Database.checkSignal signal) (Database.checkSignal signal) := by
      intro db
      rfl
    exact hcheck.bind fun _ => hrun

theorem mirrors_action (h : e'.Simulates e f) (a : Action stmt α) : Mirrors f (a.run e') (a.run e) := by
  cases a with
  | execute q tables => exact h.mirrors_statement (Mirrors.onStore (h.execute q)) tables
  | insert q tables => exact h.mirrors_statement (Mirrors.onStore (h.insert q)) tables
  | query q signal => exact h.mirrors_query q signal
  | inTransaction =>
    intro db
    exact congrArg (fun b => (Outcome.ok b, db.mapStore f)) (h.inTransaction db.store)
  | setSignal signal | checkSignal signal | cancelHandle name =>
    intro db
    rfl

theorem mirrors_endTransaction (h : e'.Simulates e f) (success : Bool)
    : Mirrors f (Database.endTransaction e' success) (Database.endTransaction e success) := by
  apply (Mirrors.onStore (h.closeTransaction success)).bind
  intro _
  exact h.mirrors_publish

theorem mirrors_abandon (h : e'.Simulates e f) : Mirrors f (Database.abandon e') (Database.abandon e) := by
  intro db
  exact congrArg (fun r => (Outcome.ok (), r.2)) (h.mirrors_endTransaction false db)

theorem mirrors_leave (h : e'.Simulates e f) (closing : Closing)
    : Mirrors f (Database.leave e' closing) (Database.leave e closing) := by
  cases closing with
  | commit => exact h.mirrors_endTransaction true
  | rollback => exact h.mirrors_endTransaction false
  | abandon => exact h.mirrors_abandon

theorem mirrors_guardedBy (h : e'.Simulates e f) (closing : α → Closing) {body' : Operation σ' α}
    {body : Operation σ α} (hbody : Mirrors f body' body)
    : Mirrors f (Database.guardedBy e' closing body') (Database.guardedBy e closing body) := by
  apply (Mirrors.onStore h.openTransaction).bind
  intro _ db
  dsimp only
  rw [← hbody db]
  rcases body' db with ⟨a | _ | _, db'⟩
  . apply (h.mirrors_leave (closing a)).attempt.bind _ db'
    intro _ _
    rfl
  . exact congrArg (fun r => (_, r.2)) (h.mirrors_abandon db')
  . exact congrArg (fun r => (_, r.2)) (h.mirrors_abandon db')

theorem mirrors_runInTransaction (h : e'.Simulates e f) {body' : Operation σ' α}
    {body : Operation σ α} (hbody : Mirrors f body' body)
    : Mirrors f (Database.runInTransaction e' body').attempt
        (Database.runInTransaction e body).attempt := by
  unfold Database.runInTransaction
  rw [Database.attempt_guarded, Database.attempt_guarded]
  apply (h.mirrors_guardedBy (fun _ => .commit) hbody).attempt.bind
  intro _ _
  rfl

/-- A routine does the same on an engine that simulates another one. -/
theorem mirrors_run (h : e'.Simulates e f) (p : Routine stmt α) : Mirrors f (p.run e') (p.run e) := by
  induction p with
  | done a | fail _ | panic =>
    intro db
    rfl
  | act a next ih => exact (h.mirrors_action a).attempt.bind ih
  | call body next ihbody ihnext =>
    exact (h.mirrors_runInTransaction ihbody).bind ihnext
  | guarded closing body next ihbody ihnext =>
    exact (h.mirrors_guardedBy closing ihbody).attempt.bind ihnext

end Engine.Simulates

end DataAccess
