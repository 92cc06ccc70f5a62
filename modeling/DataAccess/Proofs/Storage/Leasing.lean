import DataAccess.Database.Adapter
import DataAccess.Proofs.Binding.Prepared
import DataAccess.Proofs.Storage.Survival

/-!
This module contains what the lease of a prepared statement does to a store. Main statement: a lease that is
bound in the slots of its statement writes what a new statement with these values writes, and leaves the
prepared statements as they were.
-/

namespace DataAccess

namespace Storage

namespace Connection

variable {s : Meaning δ stmt} {q : stmt} {c : Connection δ}

theorem effect_of_write_eq_ok {n : Nat} (h : (c.write s q).1 = .ok n)
    : (s.write q c.data).result = .ok n ∧ (c.write s q).2.2.data = (s.write q c.data).data := by
  unfold write at h ⊢
  dsimp only at h ⊢
  split at h
  . cases h
  . next hresult _ =>
    cases h
    exact ⟨hresult, rfl⟩
  . split at h
    . cases h
    . exact ⟨h, rfl⟩

/-- The fault of a statement is that of its effect, or it is that of the check. -/
theorem effect_of_write_eq_error {f : Fault} (h : (c.write s q).1 = .error f)
    : (s.write q c.data).result = .error f ∨ s.check (s.write q c.data).data = .error f := by
  unfold write at h
  dsimp only at h
  split at h
  . next hresult _ =>
    cases h
    exact Or.inl hresult
  . cases h
  . split at h
    . next hcheck =>
      cases h
      exact Or.inr hcheck
    . exact Or.inl h

theorem data_write_of_unchanged (hdata : (s.write q c.data).data = c.data)
    (hundoes : (s.write q c.data).undoesTransaction = false) : (c.write s q).2.2.data = c.data := by
  unfold write
  dsimp only
  split
  . rw [hundoes]
    exact hdata
  . exact hdata
  . split
    . rfl
    . exact hdata

end Connection

theorem Store.insert_eq (l : Link κ stmt) (q : stmt) (st : Store κ)
    : ((∃ id, (st.insert l q).1 = .ok id) ↔ ∃ n, (l.write q st.connection).1 = .ok n) ∧
        ∀ f, (st.insert l q).1 = .error f ↔ (l.write q st.connection).1 = .error f := by
  have hresult : (st.insert l q).1
      = (l.write q st.connection).1.map fun changed =>
          if changed = 0 then -1 else l.lastId (l.write q st.connection).2.2 := rfl
  rw [hresult]
  cases (l.write q st.connection).1 with
  | _ => simp [Except.map]

end Storage

/-- A statement of a text and a number of slots is prepared under a number. -/
def Holds (statements : List SharedStatement) (number : Nat) (sql : String) (slots : Nat) : Prop :=
  ∃ prepared, statements[number]? = some prepared ∧ prepared.Fits sql slots

namespace Database

open Operation (follow)
open Storage (Connection Meaning Store)

variable (m : Meaning δ Statement) (thread : Nat)

theorem wrote_keeps (tables : List String) (db : Database (Store (Connection δ)))
    : let published := (wrote (Store.engine (Connection.link m) thread) tables db).2
      published.store.connection = db.store.connection ∧ published.statements = db.statements := by
  refine ⟨(same_wrote thread tables db).connection, ?_⟩
  refine wrote_induction (P := (·.statements = db.statements)) ?_ ?_ ?_ rfl
  . exact fun _ h => h
  . intro tables after h
    rw [statements_notify]
    exact h
  . exact fun _ h => h

def Writes (use : Statement → Operation (Store (Connection δ)) α) : Prop :=
  ∀ s db, (use s db).2.store.connection = (db.store.connection.write m s).2.2 ∧
    (use s db).2.statements = db.statements

theorem Writes.noted (use : Statement → Operation (Store (Connection δ)) α) (h : Writes m use)
    (tables : List String)
    : Writes m fun s => do
        let a ← use s
        wrote (Store.engine (Connection.link m) thread) tables
        return a := by
  intro s db
  obtain ⟨hconnection, hstatements⟩ := h s db
  change (follow _ (use s db)).2.store.connection = _ ∧ (follow _ (use s db)).2.statements = _
  rcases hran : use s db with ⟨a | f | _, ran⟩
  all_goals rw [hran] at hconnection hstatements
  . obtain ⟨hconnection', hstatements'⟩ := wrote_keeps m thread tables ran
    change (follow _ (wrote (Store.engine (Connection.link m) thread) tables ran)).2.store.connection = _ ∧
      (follow _ (wrote (Store.engine (Connection.link m) thread) tables ran)).2.statements = _
    rw [← hconnection, ← hstatements, ← hconnection', ← hstatements']
    rcases wrote (Store.engine (Connection.link m) thread) tables ran with ⟨_ | _ | _, _⟩
    all_goals exact ⟨rfl, rfl⟩
  . exact ⟨hconnection, hstatements⟩
  . exact ⟨hconnection, hstatements⟩

theorem writes_execute (tables : List String)
    : Writes m fun s => execute (Store.engine (Connection.link m) thread) s tables :=
  Writes.noted m thread (fun s => .onStore (Store.execute (Connection.link m) s))
    (fun _ _ => ⟨rfl, rfl⟩) tables

theorem writes_insert (tables : List String)
    : Writes m fun s => insert (Store.engine (Connection.link m) thread) s tables :=
  Writes.noted m thread (fun s => .onStore (Store.insert (Connection.link m) s))
    (fun _ _ => ⟨rfl, rfl⟩) tables

/-- A lease that is bound in slots of its statement has the effect of that statement, and leaves it
prepared as it was. -/
theorem leasing_writes {use : Statement → Operation (Store (Connection δ)) α} (huse : Writes m use)
    {number : Nat} {bind : Statement → Statement} {sql : String} {slots : Nat}
    (hbind : ∀ s, s.Fits sql slots → (bind s).Fits sql slots) {db : Database (Store (Connection δ))}
    (hprepared : Holds db.statements number sql slots)
    : let leased := (leasing number bind use db).2
      leased.store.connection = (db.store.connection.write m (bind (.acquire sql slots))).2.2 ∧
        Holds leased.statements number sql slots ∧
        ∀ other sql slots, other ≠ number → Holds db.statements other sql slots →
          Holds leased.statements other sql slots := by
  obtain ⟨prepared, hnumber, hfits⟩ := hprepared
  unfold leasing
  rw [hnumber]
  dsimp only
  obtain ⟨hconnection, hstatements⟩ := huse (bind prepared.acquire.1.statement)
    { db with statements := db.statements.set number prepared.acquire.2 }
  rw [hconnection, hstatements, hfits.statement_acquire]
  refine ⟨rfl, ⟨prepared.acquire.2.release ⟨prepared.acquire.1.shared, bind (.acquire sql slots)⟩, ?_, ?_⟩,
    fun _ _ _ hother => ?_⟩
  . obtain ⟨hlt, _⟩ := List.getElem?_eq_some_iff.1 hnumber
    simp [hlt]
  . apply hfits.acquire.release
    exact hbind _ ⟨rfl, by simp [Statement.acquire, Statement.argCount]⟩
  . simp [Holds, hother.symm]

end Database

end DataAccess
