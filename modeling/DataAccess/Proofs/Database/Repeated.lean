import DataAccess.Engine.Scripted
import DataAccess.Proofs.Lists
import DataAccess.Proofs.Rows.Calls
import DataAccess.Proofs.Storage.Leasing

/-!
This module contains adapters whose statements are leased again and again. Main statement: what an adapter does
for many entities it does for one after the other, up to the first that fails, and the statement that is run for
an entity is that of the entity alone, whatever was bound before.
-/

namespace DataAccess

open Operation (Mirrors attempt_eq follow)

def EngineCall.runs : EngineCall → Bool
  | execute _ | insert _ | query _ _ => true
  | openTransaction | closeTransaction _ | record _ | take _ => false

/-- A state of an engine with the calls that have reached it, the earliest first. -/
structure Logged (σ : Type) where
  state : σ
  calls : List EngineCall

def Logged.noting (s : Logged σ) (call : EngineCall) (r : α × σ) : α × Logged σ :=
  (r.1, ⟨r.2, s.calls ++ [call]⟩)

namespace Engine

def logged (e : Engine σ Statement) : Engine (Logged σ) Statement where
  execute q s := s.noting (.execute q) (e.execute q s.state)
  insert q s := s.noting (.insert q) (e.insert q s.state)
  query q signal signals s := s.noting (.query q signal.isSome) (e.query q signal signals s.state)
  openTransaction s := s.noting .openTransaction (e.openTransaction s.state)
  closeTransaction success s := s.noting (.closeTransaction success) (e.closeTransaction success s.state)
  inTransaction s := e.inTransaction s.state
  recordModified tables s := ⟨e.recordModified tables s.state, s.calls ++ [.record tables]⟩
  takeModified s := s.noting (.take (e.takeModified s.state).1) (e.takeModified s.state)

theorem logged_simulates (e : Engine σ Statement) : e.logged.Simulates e Logged.state where
  execute _ _ := rfl
  insert _ _ := rfl
  query _ _ _ _ := rfl
  openTransaction _ := rfl
  closeTransaction _ _ := rfl
  inTransaction _ := rfl
  recordModified _ _ := rfl
  takeModified _ := rfl

end Engine

namespace Engine.Simulates

variable {e' : Engine σ' Statement} {e : Engine σ Statement} {f : σ' → σ}

theorem mirrors_leasing (number : Nat) (bind : Statement → Statement) {use' : Statement → Operation σ' α}
    {use : Statement → Operation σ α} (huse : ∀ s, Mirrors f (use' s) (use s))
    : Mirrors f (Database.leasing number bind use') (Database.leasing number bind use) := by
  intro db
  unfold Database.leasing
  dsimp only [Database.mapStore]
  cases db.statements[number]? with
  | none => rfl
  | some prepared =>
    let lease := prepared.acquire.1
    have hused := huse (bind lease.statement)
      { db with statements := db.statements.set number prepared.acquire.2 }
    exact congrArg (fun ran => (ran.1, { ran.2 with
      statements := ran.2.statements.modify number (·.release { lease with statement := bind lease.statement }) }))
      hused

theorem mirrors_insert (h : e'.Simulates e f) (a : Adapter α) (entity : α)
    : Mirrors f (a.insert e' entity) (a.insert e entity) :=
  mirrors_leasing _ _ fun s => h.mirrors_action (.insert s [a.table])

theorem mirrors_handle (h : e'.Simulates e f) (a : Adapter α) (entity : α)
    : Mirrors f (a.handle e' entity) (a.handle e entity) :=
  mirrors_leasing _ _ fun s => h.mirrors_action (.execute s [a.table])

theorem mirrors_handleAll (h : e'.Simulates e f) (a : Adapter α) (entities : List α)
    : Mirrors f (a.handleAll e' entities) (a.handleAll e entities) :=
  .foldlM (fun _ entity => (h.mirrors_handle a entity).bind fun _ => .pure _) entities 0

theorem mirrors_upsert (h : e'.Simulates e f) (a : UpsertAdapter α) (entity : α)
    : Mirrors f (a.upsert e' entity) (a.upsert e entity) := by
  apply (h.mirrors_insert a.insertion entity).attempt.bind
  intro r
  cases r with
  | ok id => exact .pure id
  | error fault =>
    cases fault with
    | uniqueConstraint => exact (h.mirrors_handle a.update entity).bind fun _ => .pure (-1)
    | _ => exact .ofExcept (.error _)

end Engine.Simulates

namespace Operation

/-- An operation neither reads nor changes the prepared statements. -/
def Apart (op : Operation σ α) : Prop :=
  ∀ db statements, op { db with statements } = ((op db).1, { (op db).2 with statements })

namespace Apart

theorem bind {op : Operation σ α} {next : α → Operation σ β} (h : op.Apart) (hnext : ∀ a, (next a).Apart)
    : (op >>= next).Apart := by
  intro db statements
  change follow next (op _) = ((follow next (op db)).1, { (follow next (op db)).2 with statements })
  rw [h]
  rcases op db with ⟨a | f | _, after⟩
  . exact hnext a after statements
  . rfl
  . rfl

theorem attempt {op : Operation σ α} (h : op.Apart) : op.attempt.Apart := by
  intro db statements
  rw [attempt_eq, attempt_eq, h]

theorem wrote (e : Engine σ stmt) (tables : List String) : (Database.wrote e tables).Apart := by
  have hpublish : (Database.publish e).Apart := by
    intro db statements
    rw [Database.publish_eq, Database.publish_eq]
    dsimp only
    split
    . rfl
    . unfold Database.notify
      split
      . rfl
      . rfl
  intro db statements
  rw [Database.wrote_eq_publish, Database.wrote_eq_publish]
  split
  . exact hpublish db statements
  . exact hpublish { db with store := e.recordModified tables db.store } statements

theorem execute (e : Engine σ stmt) (s : stmt) (tables : List String) : (Database.execute e s tables).Apart :=
  .bind (fun _ _ => rfl) fun _ => .bind (wrote e tables) fun _ _ _ => rfl

theorem insert (e : Engine σ stmt) (s : stmt) (tables : List String) : (Database.insert e s tables).Apart :=
  .bind (fun _ _ => rfl) fun _ => .bind (wrote e tables) fun _ _ _ => rfl

end Apart

/-- While the prepared statements are in order, an operation does what another one does that uses none of them,
and leaves them in order. -/
structure DoesAs (kept : List SharedStatement → Prop) (op op' : Operation σ α) : Prop where
  apart : op'.Apart
  eq : ∀ db, kept db.statements →
    ∃ statements, kept statements ∧ op db = ((op' db).1, { (op' db).2 with statements })

namespace DoesAs

variable {kept : List SharedStatement → Prop}

theorem same {op : Operation σ α} (h : op.Apart) : DoesAs kept op op where
  apart := h
  eq db hkept := ⟨db.statements, hkept, h db db.statements⟩

theorem bind {op op' : Operation σ α} {next next' : α → Operation σ β} (h : DoesAs kept op op')
    (hnext : ∀ a, DoesAs kept (next a) (next' a)) : DoesAs kept (op >>= next) (op' >>= next') where
  apart := h.apart.bind fun a => (hnext a).apart
  eq db hkept := by
    obtain ⟨statements, hstatements, heq⟩ := h.eq db hkept
    change ∃ later, kept later ∧
      follow next (op db) = ((follow next' (op' db)).1, { (follow next' (op' db)).2 with statements := later })
    rw [heq]
    rcases op' db with ⟨a | f | _, after⟩
    . obtain ⟨later, hlater, hran⟩ := (hnext a).eq { after with statements } hstatements
      rw [(hnext a).apart after statements] at hran
      exact ⟨later, hlater, hran⟩
    . exact ⟨statements, hstatements, rfl⟩
    . exact ⟨statements, hstatements, rfl⟩

theorem attempt {op op' : Operation σ α} (h : DoesAs kept op op') : DoesAs kept op.attempt op'.attempt where
  apart := h.apart.attempt
  eq db hkept := by
    obtain ⟨statements, hstatements, heq⟩ := h.eq db hkept
    refine ⟨statements, hstatements, ?_⟩
    rw [attempt_eq, attempt_eq, heq]

theorem mapM {single single' : α → Operation σ β} (h : ∀ entity, DoesAs kept (single entity) (single' entity))
    (entities : List α) : DoesAs kept (entities.mapM single) (entities.mapM single') := by
  induction entities with
  | nil => exact .same fun _ _ => rfl
  | cons entity rest ih =>
    rw [List.mapM_cons, List.mapM_cons]
    exact (h entity).bind fun _ => ih.bind fun _ => .same fun _ _ => rfl

theorem map {op op' : Operation σ α} (h : DoesAs kept op op') (f : α → β)
    : DoesAs kept (f <$> op) (f <$> op') := by
  rw [map_eq_pure_bind, map_eq_pure_bind]
  exact h.bind fun _ => .same fun _ _ => rfl

end DoesAs

end Operation

namespace Statement

theorem Fits.bindAll {s : Statement} {sql : String} {slots : Nat} (h : s.Fits sql slots)
    {calls : List (Nat × Value)} (hcalls : ∀ call ∈ calls, call.1 ≤ slots) : (s.bindAll calls).Fits sql slots := by
  induction calls generalizing s with
  | nil => exact h
  | cons call rest ih =>
    obtain ⟨hcall, hrest⟩ := List.forall_mem_cons.1 hcalls
    exact ih (h.bind hcall call.2) hrest

theorem fits_acquire (sql : String) (slots : Nat) : (acquire sql slots).Fits sql slots :=
  ⟨rfl, argCount_acquire sql slots⟩

end Statement

def Outlasts (statements later : List SharedStatement) : Prop :=
  ∀ number sql slots, Holds statements number sql slots → Holds later number sql slots

/-- A lease that is bound in slots of its statement does what a statement of its own does, and leaves all that is
prepared. -/
theorem Database.leasing_doesAs {kept : List SharedStatement → Prop} {use : Statement → Operation σ α}
    {number : Nat} {bind : Statement → Statement} {sql : String} {slots : Nat} (huse : ∀ s, (use s).Apart)
    (hbind : ∀ s, s.Fits sql slots → (bind s).Fits sql slots)
    (hprepared : ∀ statements, kept statements → Holds statements number sql slots)
    (hkept : ∀ statements later, kept statements → Outlasts statements later → kept later)
    : Operation.DoesAs kept (leasing number bind use) (use (bind (.acquire sql slots))) where
  apart := huse _
  eq db h := by
    obtain ⟨prepared, hnumber, hfits⟩ := hprepared db.statements h
    unfold leasing
    rw [hnumber]
    dsimp only
    rw [hfits.statement_acquire, huse]
    refine ⟨_, hkept db.statements _ h fun other sql' slots' hother => ?_, rfl⟩
    obtain ⟨found, hfound, hfits'⟩ := hother
    by_cases heq : other = number
    . subst heq
      cases hnumber.symm.trans hfound
      obtain ⟨hlt, _⟩ := List.getElem?_eq_some_iff.1 hnumber
      refine ⟨prepared.acquire.2.release ⟨prepared.acquire.1.shared, bind (.acquire sql slots)⟩, ?_, ?_⟩
      . simp [hlt]
      . have hbound := hbind _ (Statement.fits_acquire sql slots)
        rw [hfits.sql_eq.symm.trans hfits'.sql_eq, hfits.argCount_eq.symm.trans hfits'.argCount_eq] at hbound ⊢
        exact hfits'.acquire.release hbound
    . refine ⟨found, ?_, hfits'⟩
      simpa [Ne.symm heq] using hfound

namespace Adapter

/-- Whatever statement it is given, the binder only puts values into slots up to a number. -/
def Within (a : Adapter α) (slots : Nat) : Prop :=
  ∀ entity s, ∃ calls : List (Nat × Value),
    (∀ call ∈ calls, 1 ≤ call.1 ∧ call.1 ≤ slots) ∧ a.bind entity s = s.bindAll calls

/-- The statement for an entity if nothing has been bound before. -/
def fresh (a : Adapter α) (sql : String) (slots : Nat) (entity : α) : Statement :=
  a.bind entity (.acquire sql slots)

variable (e : Engine σ Statement) (a : Adapter α) (sql : String) (slots : Nat) (entity : α)

def insertFresh : Operation σ Int64 :=
  Database.insert e (a.fresh sql slots entity) [a.table]

def handleFresh : Operation σ Nat :=
  Database.execute e (a.fresh sql slots entity) [a.table]

end Adapter

def UpsertAdapter.upsertFresh (e : Engine σ Statement) (a : UpsertAdapter α) (sql : String) (slots : Nat)
    (sql' : String) (slots' : Nat) (entity : α) : Operation σ Int64 := do
  match ← (a.insertion.insertFresh e sql slots entity).attempt with
  | .ok id => return id
  | .error (.uniqueConstraint _) =>
    let _ ← a.update.handleFresh e sql' slots' entity
    return -1
  | .error f => .fail f

namespace Adapter

variable {e : Engine σ Statement} {a : Adapter α} {sql : String} {slots : Nat}
  {kept : List SharedStatement → Prop}

theorem Within.fits (h : a.Within slots) (entity : α) (s : Statement) (hs : s.Fits sql slots)
    : (a.bind entity s).Fits sql slots := by
  obtain ⟨calls, hcalls, heq⟩ := h entity s
  rw [heq]
  exact hs.bindAll fun call hcall => (hcalls call hcall).2

section

variable (ha : a.Within slots) (hprepared : ∀ statements, kept statements → Holds statements a.statement sql slots)
  (hkept : ∀ statements later, kept statements → Outlasts statements later → kept later) (entity : α)

include ha hprepared hkept

theorem insert_doesAs : Operation.DoesAs kept (a.insert e entity) (a.insertFresh e sql slots entity) :=
  Database.leasing_doesAs (fun s => .insert e s [a.table]) (ha.fits entity) hprepared hkept

theorem handle_doesAs : Operation.DoesAs kept (a.handle e entity) (a.handleFresh e sql slots entity) :=
  Database.leasing_doesAs (fun s => .execute e s [a.table]) (ha.fits entity) hprepared hkept

end

end Adapter

theorem UpsertAdapter.upsert_doesAs {e : Engine σ Statement} {a : UpsertAdapter α} {sql sql' : String}
    {slots slots' : Nat} {kept : List SharedStatement → Prop} {entity : α}
    (hinsertion : Operation.DoesAs kept (a.insertion.insert e entity) (a.insertion.insertFresh e sql slots entity))
    (hupdate : Operation.DoesAs kept (a.update.handle e entity) (a.update.handleFresh e sql' slots' entity))
    : Operation.DoesAs kept (a.upsert e entity) (a.upsertFresh e sql slots sql' slots' entity) := by
  refine hinsertion.attempt.bind fun r => ?_
  cases r with
  | ok id => exact .same fun _ _ => rfl
  | error f =>
    cases f with
    | uniqueConstraint => exact hupdate.bind fun _ => .same fun _ _ => rfl
    | _ => exact .same fun _ _ => rfl

structure Issues (op : Operation (Logged σ) α) (db : Database (Logged σ)) (calls : List EngineCall)
    (r : Except Fault α) (after : Database (Logged σ)) : Prop where
  eq : op db = (.ofExcept r, after)
  calls : after.store.calls = db.store.calls ++ calls

/-- An operation always answers, and what statements it has the engine run is told. -/
def Operation.Runs (op : Operation (Logged σ) α) (told : List EngineCall → Prop) : Prop :=
  ∀ db, ∃ calls r after, Issues op db calls r after ∧ told (calls.filter EngineCall.runs)

/-- Something is done for entities in order, up to the first for which it fails. The calls are listed for each
entity that it was done for. -/
inductive InOrder (single : α → Operation (Logged σ) β)
    : List α → Database (Logged σ) → List (List EngineCall) → Except Fault (List β) → Database (Logged σ) →
      Prop where
  | nil : InOrder single [] db [] (.ok []) db
  | next (hfirst : Issues (single entity) db calls (.ok b) between)
    (hrest : InOrder single entities between more r after) :
    InOrder single (entity :: entities) db (calls :: more) (r.map (b :: ·)) after
  | fails (hfirst : Issues (single entity) db calls (.error f) after) :
    InOrder single (entity :: entities) db [calls] (.error f) after

namespace InOrder

variable {single : α → Operation (Logged σ) β} {entities : List α} {db after : Database (Logged σ)}
  {calls : List (List EngineCall)} {r : Except Fault (List β)}

theorem mapM_eq (h : InOrder single entities db calls r after)
    : entities.mapM single db = (.ofExcept r, after) := by
  induction h with
  | nil => rfl
  | @next _ _ _ b between entities _ r after hfirst _ ih =>
    rw [List.mapM_cons]
    change follow _ (single _ _) = _
    rw [hfirst.eq]
    change follow _ (entities.mapM single between) = _
    rw [ih]
    cases r with
    | ok | error => rfl
  | fails hfirst =>
    rw [List.mapM_cons]
    change follow _ (single _ _) = _
    rw [hfirst.eq]
    rfl

theorem calls_eq (h : InOrder single entities db calls r after)
    : after.store.calls = db.store.calls ++ calls.flatten := by
  induction h with
  | nil => rw [List.flatten_nil, List.append_nil]
  | next hfirst _ ih => rw [ih, hfirst.calls, List.flatten_cons, List.append_assoc]
  | fails hfirst => rw [hfirst.calls, List.flatten_singleton]

theorem of_runs {told : α → List EngineCall → Prop} (h : ∀ entity, (single entity).Runs (told entity))
    (entities : List α) (db : Database (Logged σ))
    : ∃ calls r after, InOrder single entities db calls r after ∧
        List.Forall₂ (fun entity own => told entity (own.filter EngineCall.runs)) (entities.take calls.length)
          calls := by
  induction entities generalizing db with
  | nil => exact ⟨[], .ok [], db, .nil, .nil⟩
  | cons entity rest ih =>
    obtain ⟨calls, r, between, hfirst, htold⟩ := h entity db
    cases r with
    | ok b =>
      obtain ⟨more, r, after, hrest, hmore⟩ := ih between
      exact ⟨calls :: more, r.map (b :: ·), after, .next hfirst hrest, .cons htold hmore⟩
    | error f => exact ⟨[calls], .error f, between, .fails hfirst, .cons htold .nil⟩

end InOrder

namespace Database

variable (e : Engine σ Statement) (tables : List String)

def Silent (db after : Database (Logged σ)) : Prop :=
  ∃ calls, after.store.calls = db.store.calls ++ calls ∧ calls.filter EngineCall.runs = []

theorem Silent.call {db after after' : Database (Logged σ)} {call : EngineCall} (h : Silent db after)
    (hcalls : after'.store.calls = after.store.calls ++ [call]) (hcall : call.runs = false)
    : Silent db after' := by
  obtain ⟨calls, hbefore, hnone⟩ := h
  refine ⟨calls ++ [call], ?_, ?_⟩
  . rw [hcalls, hbefore, List.append_assoc]
  . rw [List.filter_append, hnone, List.filter_cons_of_neg (by simp [hcall])]
    rfl

theorem wrote_issues (db : Database (Logged σ))
    : ∃ calls after, Issues (wrote e.logged tables) db calls (.ok ()) after ∧
        calls.filter EngineCall.runs = [] := by
  have hsilent : Silent db (wrote e.logged tables db).2 := by
    refine wrote_induction (P := Silent db) ?_ ?_ ?_ ⟨[], (List.append_nil _).symm, rfl⟩
    . exact fun _ h => h.call rfl rfl
    . intro tables after h
      unfold Silent
      rw [store_notify]
      exact h
    . exact fun _ h => h.call rfl rfl
  obtain ⟨calls, hcalls, hnone⟩ := hsilent
  exact ⟨calls, _, ⟨Prod.ext (fst_wrote ..) rfl, hcalls⟩, hnone⟩

theorem runs_noted {step : Logged σ → Except Fault α × Logged σ} {call : EngineCall} (hcall : call.runs = true)
    (hstep : ∀ s, (step s).2.calls = s.calls ++ [call])
    : Operation.Runs (do
        let a ← .onStore step
        wrote e.logged tables
        return a) (· = [call]) := by
  intro db
  have hcalls := hstep db.store
  have hran := statement_eq e.logged step tables db
  rcases hstored : step db.store with ⟨r, store⟩
  rw [hstored] at hcalls hran
  cases r with
  | error f =>
    exact ⟨[call], .error f, { db with store }, ⟨hran, hcalls⟩, List.filter_cons_of_pos hcall⟩
  | ok a =>
    obtain ⟨calls, after, hwrote, hnone⟩ := wrote_issues e tables { db with store }
    refine ⟨call :: calls, .ok a, after, ⟨?_, ?_⟩, ?_⟩
    . rw [hran]
      exact congrArg (fun ran => (Outcome.ok a, ran.2)) hwrote.eq
    . rw [hwrote.calls]
      change store.calls ++ calls = _
      rw [hcalls, List.append_assoc]
      rfl
    . rw [List.filter_cons_of_pos hcall, hnone]

end Database

section

variable (e : Engine σ Statement) (sql sql' : String) (slots slots' : Nat) (entity : α)

theorem Adapter.insertFresh_runs (a : Adapter α)
    : (a.insertFresh e.logged sql slots entity).Runs (· = [.insert (a.fresh sql slots entity)]) :=
  Database.runs_noted e [a.table] rfl fun _ => rfl

theorem Adapter.handleFresh_runs (a : Adapter α)
    : (a.handleFresh e.logged sql slots entity).Runs (· = [.execute (a.fresh sql slots entity)]) :=
  Database.runs_noted e [a.table] rfl fun _ => rfl

theorem UpsertAdapter.upsertFresh_runs (a : UpsertAdapter α)
    : let insertion := EngineCall.insert (a.insertion.fresh sql slots entity)
      (a.upsertFresh e.logged sql slots sql' slots' entity).Runs fun own =>
        own = [insertion] ∨ own = [insertion, .execute (a.update.fresh sql' slots' entity)] := by
  intro insertion db
  change ∃ calls r after, Issues (Operation.attempt _ >>= _) _ _ _ _ ∧ _
  obtain ⟨calls, r, tried, hinsert, hown⟩ := a.insertion.insertFresh_runs e sql slots entity db
  have hattempt : (a.insertion.insertFresh e.logged sql slots entity).attempt db = (.ok r, tried) := by
    rw [attempt_eq, hinsert.eq]
    cases r with
    | ok | error => rfl
  have hnext {next : Except Fault Int64 → Operation (Logged σ) Int64} (r' : Except Fault Int64)
      (hr : next r = .ofExcept r')
      : Issues ((a.insertion.insertFresh e.logged sql slots entity).attempt >>= next) db calls r' tried := by
    refine ⟨?_, hinsert.calls⟩
    change follow next (Operation.attempt _ db) = _
    rw [hattempt]
    change next r tried = _
    rw [hr]
    rfl
  cases r with
  | ok id => exact ⟨calls, .ok id, tried, hnext (.ok id) rfl, .inl hown⟩
  | error f =>
    cases f with
    | uniqueConstraint conflict =>
      obtain ⟨more, r, after, hhandle, hmore⟩ := a.update.handleFresh_runs e sql' slots' entity tried
      refine ⟨calls ++ more, r.map fun _ => -1, after, ⟨?_, ?_⟩, .inr ?_⟩
      . change follow _ (Operation.attempt _ db) = _
        rw [hattempt]
        change follow _ (a.update.handleFresh e.logged sql' slots' entity tried) = _
        rw [hhandle.eq]
        cases r with
        | ok | error => rfl
      . rw [hhandle.calls, hinsert.calls, List.append_assoc]
      . rw [List.filter_append, hown, hmore]
        rfl
    | _ => exact ⟨calls, .error _, tried, hnext (.error _) rfl, .inl hown⟩

end

theorem foldlM_add {m : Type → Type} [Monad m] [LawfulMonad m] (f : α → m Nat) (l : List α) (total : Nat)
    : l.foldlM (fun total a => do return total + (← f a)) total
        =
      (fun counts => total + counts.sum) <$> l.mapM f := by
  induction l generalizing total with
  | nil => simp
  | cons a rest ih =>
    rw [List.foldlM_cons, List.mapM_cons]
    simp only [bind_assoc, pure_bind, ih, map_bind, map_pure, List.sum_cons, Nat.add_assoc]
    simp

/-- A single operation does, for each entity, what is done by statements of its own. An operation on many entities
does this for one after the other, up to the first for which it fails, and tells what is told of them, or the
failure. -/
structure Repeats (kept : List SharedStatement → Prop) (single fresh : α → Operation (Logged σ) β)
    (told : α → List EngineCall → Prop) (bulk : List α → Operation (Logged σ) γ) (summary : List β → γ) : Prop where
  single : ∀ entity db, kept db.statements →
    ∃ statements, kept statements ∧
      single entity db = ((fresh entity db).1, { (fresh entity db).2 with statements })
  bulk : ∀ entities db, kept db.statements →
    ∃ calls r after statements,
      InOrder fresh entities db calls r after ∧
        after.store.calls = db.store.calls ++ calls.flatten ∧
        List.Forall₂ (fun entity own => told entity (own.filter EngineCall.runs))
          (entities.take calls.length) calls ∧
        kept statements ∧ bulk entities db = (.ofExcept (r.map summary), { after with statements })

theorem Repeats.of_doesAs {kept : List SharedStatement → Prop} {single fresh : α → Operation (Logged σ) β}
    {told : α → List EngineCall → Prop} {bulk : List α → Operation (Logged σ) γ} {summary : List β → γ}
    (hsingle : ∀ entity, Operation.DoesAs kept (single entity) (fresh entity))
    (htold : ∀ entity, (fresh entity).Runs (told entity))
    (hbulk : ∀ entities, bulk entities = summary <$> entities.mapM single)
    : Repeats kept single fresh told bulk summary where
  single entity := (hsingle entity).eq
  bulk entities db hdb := by
    obtain ⟨calls, r, after, hinorder, hown⟩ := InOrder.of_runs htold entities db
    obtain ⟨statements, hkept, heq⟩ := ((Operation.DoesAs.mapM hsingle entities).map summary).eq db hdb
    refine ⟨calls, r, after, statements, hinorder, hinorder.calls_eq, hown, hkept, ?_⟩
    have hall : (summary <$> entities.mapM fresh) db = (.ofExcept (r.map summary), after) := by
      rw [map_eq_pure_bind]
      change follow _ (entities.mapM fresh db) = _
      rw [hinorder.mapM_eq]
      cases r with
      | ok | error => rfl
    rw [hbulk, heq, hall]

/-- For entities in order, an adapter whose binder stays within the slots of its statement runs the statement of
each entity alone, up to the first that fails. Whether identifiers are told or not, the same is done, and so it is
whether calls are logged or not. -/
theorem bulk_repeats (e : Engine σ Statement) {a c : Adapter α} {slots slots' : Nat} (ha : a.Within slots)
    (hc : c.Within slots') (sql sql' : String)
    : let u : UpsertAdapter α := ⟨a, c⟩
      let insertion entity := EngineCall.insert (a.fresh sql slots entity)
      let change entity := EngineCall.execute (c.fresh sql' slots' entity)
      Repeats (Holds · a.statement sql slots) (a.insert e.logged) (a.insertFresh e.logged sql slots)
          (fun entity own => own = [insertion entity]) (a.insertAll e.logged) id ∧
        Repeats (Holds · c.statement sql' slots') (c.handle e.logged) (c.handleFresh e.logged sql' slots')
          (fun entity own => own = [change entity]) (c.handleAll e.logged) List.sum ∧
        Repeats (fun ss => Holds ss a.statement sql slots ∧ Holds ss c.statement sql' slots') (u.upsert e.logged)
          (u.upsertFresh e.logged sql slots sql' slots')
          (fun entity own => own = [insertion entity] ∨ own = [insertion entity, change entity])
          (u.upsertAll e.logged) id ∧
        (∀ entity, a.insertUnit e entity = (fun _ => ()) <$> a.insert e entity) ∧
        (∀ entities, a.insertAllUnit e entities = (fun _ => ()) <$> a.insertAll e entities) ∧
        (∀ entity, u.upsertUnit e entity = (fun _ => ()) <$> u.upsert e entity) ∧
        (∀ entities, u.upsertAllUnit e entities = (fun _ => ()) <$> u.upsertAll e entities) ∧
        (∀ entity, Mirrors Logged.state (a.insert e.logged entity) (a.insert e entity) ∧
          Mirrors Logged.state (c.handle e.logged entity) (c.handle e entity) ∧
          Mirrors Logged.state (u.upsert e.logged entity) (u.upsert e entity)) ∧
        ∀ entities, Mirrors Logged.state (a.insertAll e.logged entities) (a.insertAll e entities) ∧
          Mirrors Logged.state (c.handleAll e.logged entities) (c.handleAll e entities) ∧
          Mirrors Logged.state (u.upsertAll e.logged entities) (u.upsertAll e entities) := by
  intro u insertion change
  have hunit : (∀ entity, a.insertUnit e entity = (fun _ => ()) <$> a.insert e entity) ∧
      ∀ entity, u.upsertUnit e entity = (fun _ => ()) <$> u.upsert e entity :=
    ⟨fun entity => (map_eq_pure_bind _ _).symm, fun entity => (map_eq_pure_bind _ _).symm⟩
  have hlog := e.logged_simulates
  refine ⟨?_, ?_, ?_, hunit.1, fun entities => ?_, hunit.2, fun entities => ?_, fun entity => ?_,
    fun entities => ?_⟩
  . exact .of_doesAs (Adapter.insert_doesAs ha (fun _ h => h) fun _ _ h houtlasts => houtlasts _ _ _ h)
      (fun entity => a.insertFresh_runs e sql slots entity) fun entities => (id_map _).symm
  . refine .of_doesAs (Adapter.handle_doesAs hc (fun _ h => h) fun _ _ h houtlasts => houtlasts _ _ _ h)
      (fun entity => c.handleFresh_runs e sql' slots' entity) fun entities => ?_
    refine (foldlM_add (c.handle e.logged) entities 0).trans ?_
    simp only [Nat.zero_add]
  . have hkept (ss later : List SharedStatement)
        (h : Holds ss a.statement sql slots ∧ Holds ss c.statement sql' slots') (houtlasts : Outlasts ss later)
        : Holds later a.statement sql slots ∧ Holds later c.statement sql' slots' :=
      ⟨houtlasts _ _ _ h.1, houtlasts _ _ _ h.2⟩
    have hsingle (entity : α) := UpsertAdapter.upsert_doesAs (a := u)
      (Adapter.insert_doesAs (e := e.logged) ha (fun _ h => h.1) hkept entity)
      (Adapter.handle_doesAs hc (fun _ h => h.2) hkept entity)
    exact .of_doesAs hsingle (fun entity => u.upsertFresh_runs e sql sql' slots slots' entity)
      fun entities => (id_map _).symm
  . unfold Adapter.insertAllUnit
    rw [funext hunit.1]
    exact forM_map_unit _ _
  . unfold UpsertAdapter.upsertAllUnit
    rw [funext hunit.2]
    exact forM_map_unit _ _
  . exact ⟨hlog.mirrors_insert a entity, hlog.mirrors_handle c entity, hlog.mirrors_upsert u entity⟩
  . exact ⟨.mapM (hlog.mirrors_insert a) entities, hlog.mirrors_handleAll c entities,
      .mapM (hlog.mirrors_upsert u) entities⟩

/-- The second of two entities is there already. -/
theorem bulk_repeats_conflict
    : let bind (n : Int64) (s : Statement) := s.bind 1 (.integer n)
      let u : UpsertAdapter Int64 := ⟨⟨"t", 0, bind⟩, ⟨"t", 1, bind⟩⟩
      let e := ScriptedEngine.engine
      let conflict : ScriptedAnswer := { ScriptedAnswer.silent with fault := some (.uniqueConstraint "t.k") }
      let script : Script := ⟨[.silent], [{ ScriptedAnswer.silent with newId := 5 }, conflict], [], [], []⟩
      let db : Database (Logged ScriptedEngine) :=
        { Database.new ⟨.new script false, []⟩ with statements := [.new "INSERT" 1, .new "UPDATE" 1] }
      let done := u.upsertAll e.logged [8, 9] db
      let insertion (n : Int64) := EngineCall.insert ⟨"INSERT", [.integer n]⟩
      let change (n : Int64) := EngineCall.execute ⟨"UPDATE", [.integer n]⟩
      (u.insertion.Within 1 ∧ u.update.Within 1) ∧
        done.1 = .ok [5, -1] ∧
        ∃ calls r after statements,
          InOrder (u.upsertFresh e.logged "INSERT" 1 "UPDATE" 1) [8, 9] db calls r after ∧
            List.Forall₂ (fun n own => own.filter EngineCall.runs = [insertion n] ∨
              own.filter EngineCall.runs = [insertion n, change n]) ([8, 9].take calls.length) calls ∧
            done = (.ofExcept (r.map id), { after with statements }) := by
  intro bind u e conflict script db done insertion change
  have hwithin (number : Nat) : Adapter.Within ⟨"t", number, bind⟩ 1 :=
    fun n s => ⟨[(1, .integer n)], by simp, rfl⟩
  have hholds : Holds db.statements 0 "INSERT" 1 ∧ Holds db.statements 1 "UPDATE" 1 :=
    ⟨⟨.new "INSERT" 1, rfl, rfl, rfl, nofun⟩, ⟨.new "UPDATE" 1, rfl, rfl, rfl, nofun⟩⟩
  obtain ⟨_, _, hupserts, _⟩ := bulk_repeats e (hwithin 0) (hwithin 1) "INSERT" "UPDATE"
  obtain ⟨calls, r, after, statements, hinorder, _, hown, _, hdone⟩ := hupserts.bulk [8, 9] db hholds
  exact ⟨⟨hwithin 0, hwithin 1⟩, rfl, calls, r, after, statements, hinorder, hown, hdone⟩

end DataAccess
