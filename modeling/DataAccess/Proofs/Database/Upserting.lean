import DataAccess.Database.Adapter
import DataAccess.Proofs.Database.Routines

/-!
This module contains how entities fare when they are upserted, told from what the engine answers to the
statements that are run for them. Main statement: an upsert that succeeds has inserted each of its entities,
or has run the update of its row after a unique column kept it from being inserted.
-/

namespace DataAccess

open Operation (attempt_eq follow)

theorem Outcome.ofExcept_injective : Function.Injective (ofExcept (α := α)) := by
  intro r r' h
  cases r with
  | ok => cases r' <;> cases h <;> rfl
  | error => cases r' <;> cases h <;> rfl

namespace Operation

theorem bind_eq_ok_iff {op : Operation σ α} {next : α → Operation σ β} {db after : Database σ} {b : β}
    : (op >>= next) db = (.ok b, after)
        ↔
      ∃ a between, op db = (.ok a, between) ∧ next a between = (.ok b, after) := by
  change follow next (op db) = _ ↔ _
  rcases op db with ⟨a | f | _, between⟩
  . constructor
    . intro h
      exact ⟨a, between, rfl, h⟩
    . rintro ⟨_, _, hop, h⟩
      cases hop
      exact h
  . simp [follow]
  . simp [follow]

theorem map_eq_ok_iff {op : Operation σ α} {f : α → β} {db after : Database σ} {b : β}
    : (f <$> op) db = (.ok b, after) ↔ ∃ a, op db = (.ok a, after) ∧ f a = b := by
  rw [map_eq_pure_bind, bind_eq_ok_iff]
  constructor
  . rintro ⟨a, between, hop, h⟩
    cases h
    exact ⟨a, hop, rfl⟩
  . rintro ⟨a, hop, rfl⟩
    exact ⟨a, after, hop, rfl⟩

end Operation

namespace Database

variable (e : Engine σ Statement)

theorem fst_execute (s : Statement) (tables : List String) (db : Database σ)
    : (execute e s tables db).1 = .ofExcept (e.execute s db.store).1 :=
  congrArg Prod.fst (statement_eq e (e.execute s) tables db)

theorem fst_insert (s : Statement) (tables : List String) (db : Database σ)
    : (insert e s tables db).1 = .ofExcept (e.insert s db.store).1 :=
  congrArg Prod.fst (statement_eq e (e.insert s) tables db)

end Database

namespace Adapter

variable (e : Engine σ Statement) (a : Adapter α)

def bound? (entity : α) (db : Database σ) : Option Statement :=
  db.statements[a.statement]?.map fun prepared => a.bind entity prepared.acquire.1.statement

theorem leasing_eq_iff {use : Statement → Operation σ β} {run : Statement → σ → Except Fault β × σ}
    (huse : ∀ s db, (use s db).1 = .ofExcept (run s db.store).1) {entity : α} {db after : Database σ}
    {r : Except Fault β}
    : let leased := Database.leasing a.statement (a.bind entity) use db
      leased = (.ofExcept r, after)
        ↔
      ∃ s, a.bound? entity db = some s ∧ (run s db.store).1 = r ∧ leased.2 = after := by
  intro leased
  have hanswer : leased.1 = .ofExcept r
      ↔ ∃ s, a.bound? entity db = some s ∧ (run s db.store).1 = r := by
    unfold leased Database.leasing bound?
    cases db.statements[a.statement]? with
    | none =>
      cases r with
      | _ => simp [Outcome.ofExcept]
    | some prepared =>
      dsimp only
      rw [huse, Outcome.ofExcept_injective.eq_iff]
      simp
  rw [Prod.ext_iff, hanswer]
  simp only [← exists_and_right, and_assoc]

theorem insert_eq_iff {entity : α} {db after : Database σ} {r : Except Fault Int64}
    : a.insert e entity db = (.ofExcept r, after)
        ↔
      ∃ s, a.bound? entity db = some s ∧ (e.insert s db.store).1 = r ∧
        (a.insert e entity db).2 = after :=
  a.leasing_eq_iff fun s db => Database.fst_insert e s [a.table] db

theorem handle_eq_iff {entity : α} {db after : Database σ} {r : Except Fault Nat}
    : a.handle e entity db = (.ofExcept r, after)
        ↔
      ∃ s, a.bound? entity db = some s ∧ (e.execute s db.store).1 = r ∧
        (a.handle e entity db).2 = after :=
  a.leasing_eq_iff fun s db => Database.fst_execute e s [a.table] db

end Adapter

/-- Things are done one after the other. Each step leaves a result, and a state to go on with. -/
inductive InTurn (step : α → σ → β → σ → Prop) : List α → σ → List β → σ → Prop where
  | nil : InTurn step [] x [] x
  | cons (hfirst : step a x b y) (hrest : InTurn step as y bs z) : InTurn step (a :: as) x (b :: bs) z

theorem InTurn.of_kept {step step' : α → σ → β → σ → Prop} (kept : σ → Prop)
    (hstep : ∀ {a x b y}, kept x → step a x b y → step' a x b y ∧ kept y)
    (h : InTurn step as x bs y) (hkept : kept x) : InTurn step' as x bs y ∧ kept y := by
  induction h with
  | nil => exact ⟨.nil, hkept⟩
  | cons hfirst _ ih =>
    obtain ⟨hfirst', hnext⟩ := hstep hkept hfirst
    obtain ⟨hrest', hend⟩ := ih hnext
    exact ⟨.cons hfirst' hrest', hend⟩

namespace UpsertAdapter

inductive Fate where
  | inserted (id : Int64)
  /-- A unique column keeps the entity from being inserted, and the update of its row changes a number of
  rows. -/
  | updated (conflict : String) (rows : Nat)
deriving DecidableEq

namespace Fate

def answer : Fate → Int64
  | inserted id => id
  | updated _ _ => -1

def Stored : Fate → Prop
  | inserted _ => True
  | updated _ rows => 0 < rows

end Fate

variable (e : Engine σ Statement) (a : UpsertAdapter α)

/-- How an entity fares by what the engine answers, and the database afterwards. -/
def Fares (entity : α) (db : Database σ) : Fate → Database σ → Prop
  | .inserted id, after =>
    ∃ s, a.insertion.bound? entity db = some s ∧ (e.insert s db.store).1 = .ok id ∧
      (a.insertion.insert e entity db).2 = after
  | .updated conflict rows, after =>
    ∃ s, a.insertion.bound? entity db = some s ∧
      (e.insert s db.store).1 = .error (.uniqueConstraint conflict) ∧
      let tried := (a.insertion.insert e entity db).2
      ∃ t, a.update.bound? entity tried = some t ∧ (e.execute t tried.store).1 = .ok rows ∧
        (a.update.handle e entity tried).2 = after

variable {e a} {entity : α} {db after : Database σ}

theorem upsert_eq (entity : α) (db : Database σ)
    : a.upsert e entity db
        =
      match a.insertion.insert e entity db with
      | (.ok id, after) => (.ok id, after)
      | (.fault (.uniqueConstraint _), tried) =>
        follow (fun _ => pure (-1)) (a.update.handle e entity tried)
      | (.fault f, after) => (.fault f, after)
      | (.crash, after) => (.crash, after) := by
  change follow _ (Operation.attempt (a.insertion.insert e entity) db) = _
  rw [attempt_eq]
  rcases a.insertion.insert e entity db with ⟨id | f | _, after⟩
  . rfl
  . cases f with
    | _ => rfl
  . rfl

/-- An upsert succeeds if the entity was inserted, or if it was kept from that and the update succeeded. -/
theorem upsert_eq_ok_iff {answer : Int64}
    : a.upsert e entity db = (.ok answer, after)
        ↔
      ∃ fate, a.Fares e entity db fate after ∧ fate.answer = answer := by
  rw [upsert_eq]
  constructor
  . intro h
    rcases hinsert : a.insertion.insert e entity db with ⟨id | f | _, tried⟩
    . rw [hinsert] at h
      cases h
      exact ⟨.inserted answer, (a.insertion.insert_eq_iff e (r := .ok answer)).1 hinsert, rfl⟩
    . rw [hinsert] at h
      cases f with
      | uniqueConstraint conflict =>
        obtain ⟨s, hs, hr, htried⟩ :=
          (a.insertion.insert_eq_iff e (r := .error (.uniqueConstraint conflict))).1 hinsert
        obtain ⟨rows, next, hhandle, hnext⟩ := Operation.bind_eq_ok_iff.1 h
        cases hnext
        refine ⟨.updated conflict rows, ⟨s, hs, hr, ?_⟩, rfl⟩
        rw [htried]
        exact (a.update.handle_eq_iff e (r := .ok rows)).1 hhandle
      | _ => cases h
    . rw [hinsert] at h
      cases h
  . rintro ⟨fate, hfares, rfl⟩
    cases fate with
    | inserted id =>
      have hinsert : a.insertion.insert e entity db = (.ok id, after) :=
        (a.insertion.insert_eq_iff e).2 hfares
      rw [hinsert]
      rfl
    | updated conflict rows =>
      obtain ⟨s, hs, hr, hupdate⟩ := hfares
      have hinsert : a.insertion.insert e entity db = (.fault (.uniqueConstraint conflict), _) :=
        (a.insertion.insert_eq_iff e).2 ⟨s, hs, hr, rfl⟩
      have hhandle : a.update.handle e entity (a.insertion.insert e entity db).2 = (.ok rows, after) :=
        (a.update.handle_eq_iff e).2 hupdate
      rw [hinsert]
      exact Operation.bind_eq_ok_iff.2 ⟨rows, after, hhandle, rfl⟩

theorem upsertAll_eq_ok_iff {entities : List α} {answers : List Int64}
    : a.upsertAll e entities db = (.ok answers, after)
        ↔
      ∃ fates, InTurn (a.Fares e) entities db fates after ∧ fates.map Fate.answer = answers := by
  unfold upsertAll
  induction entities generalizing db answers with
  | nil =>
    constructor
    . intro h
      cases h
      exact ⟨[], .nil, rfl⟩
    . rintro ⟨fates, hfare, rfl⟩
      cases hfare
      rfl
  | cons entity rest ih =>
    rw [List.mapM_cons, Operation.bind_eq_ok_iff]
    constructor
    . rintro ⟨answer, next, hfirst, hrest⟩
      obtain ⟨fate, hfares, rfl⟩ := upsert_eq_ok_iff.1 hfirst
      obtain ⟨others, _, hothers, hpure⟩ := Operation.bind_eq_ok_iff.1 hrest
      cases hpure
      obtain ⟨fates, hfare, rfl⟩ := ih.1 hothers
      exact ⟨fate :: fates, .cons hfares hfare, rfl⟩
    . rintro ⟨fates, hfare, rfl⟩
      cases hfare with
      | @cons _ _ fate next _ fates _ hfirst hrest =>
        refine ⟨fate.answer, next, upsert_eq_ok_iff.2 ⟨fate, hfirst, rfl⟩, ?_⟩
        exact Operation.bind_eq_ok_iff.2 ⟨_, after, ih.2 ⟨fates, hrest, rfl⟩, rfl⟩

end UpsertAdapter

end DataAccess
