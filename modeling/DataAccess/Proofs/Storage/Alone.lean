import DataAccess.Proofs.Storage.Bookkeeping
import DataAccess.Proofs.Storage.Programs
import DataAccess.Proofs.Storage.Threads
import Mathlib.Logic.Relation

/-!
This module contains threads that are left alone: piece by piece they do exactly what the operations of
the database do at once. Main statement: every program of a thread is a sequence of steps.
-/

namespace DataAccess.Storage.Threads

variable {l : Link κ stmt} {thread : Nat} {s s' : Threads κ} {db : Database (Store κ)}

structure At (s : Threads κ) (thread : Nat) (phase : Phase) (db : Database (Store κ)) : Prop where
  phase : s.phase thread = phase
  free : s.store.waits thread = false
  store : s.store = db.store
  tracker : s.tracker = db.tracker

def Ends (l : Link κ stmt) (s : Threads κ) (thread : Nat) (db : Database (Store κ)) : Prop :=
  ∃ s', Relation.ReflTransGen (Step l) s s' ∧ s'.At thread .idle db

theorem At.ends (h : s.At thread .idle db) : Ends l s thread db :=
  ⟨s, .refl, h⟩

theorem Ends.of_step (hs : Step l s s') (h : Ends l s' thread db) : Ends l s thread db := by
  obtain ⟨last, hsteps, hlast⟩ := h
  exact ⟨last, hsteps.head hs, hlast⟩

theorem Ends.trans {db' : Database (Store κ)} (h : Ends l s thread db)
    (hnext : ∀ s', s'.At thread .idle db → Ends l s' thread db') : Ends l s thread db' := by
  obtain ⟨between, hsteps, hbetween⟩ := h
  obtain ⟨last, hmore, hlast⟩ := hnext between hbetween
  exact ⟨last, hsteps.trans hmore, hlast⟩

theorem waits_congr {st st' : Store κ} (howner : st'.owner = st.owner)
    : st'.waits thread = st.waits thread := by
  rw [Store.waits, Store.waits, howner]

theorem notify_ends {tables : List String}
    (h : s.At thread (if tables.isEmpty then .idle else .handing tables) db)
    : Ends l s thread (db.notify tables) := by
  unfold Database.notify
  split
  . next hempty =>
    rw [if_pos hempty] at h
    exact h.ends
  . next hne =>
    rw [if_neg hne] at h
    have hadvance : s.advance thread
        = ({ s with tracker := s.tracker.notify tables }.enter thread .idle).remember
            (.handed thread tables) := by
      rw [advance, h.phase]
    have hdone : (s.advance thread).At thread .idle
        { db with tracker := db.tracker.notify tables } := by
      rw [hadvance, ← h.tracker]
      exact ⟨Function.update_self .., h.free, h.store, rfl⟩
    exact hdone.ends.of_step (.advance thread)

theorem publish_ends (h : s.At thread .looking db)
    : Ends l s thread (Database.publish (Store.engine l thread) db).2 := by
  have hlook : s.advance thread
      = s.enter thread (if s.store.inTransaction thread then .idle else .taking) := by
    rw [advance, h.phase]
  have hlooked : (s.advance thread).At thread
      (if db.store.inTransaction thread then .idle else .taking) db := by
    rw [hlook, h.store]
    exact ⟨Function.update_self .., h.free, h.store, h.tracker⟩
  apply Ends.of_step (.advance thread)
  change Ends l _ thread (if db.store.inTransaction thread then db else
    { db with store := (db.store.takeModified thread).2 }.notify (db.store.takeModified thread).1)
  split
  . next hinside =>
    rw [if_pos hinside] at hlooked
    exact hlooked.ends
  . next hout =>
    rw [if_neg hout] at hlooked
    apply Ends.of_step (.advance thread)
    apply notify_ends
    generalize s.advance thread = looked at hlooked
    rw [advance, hlooked.phase, ← hlooked.store]
    refine ⟨Function.update_self .., ?_, rfl, hlooked.tracker⟩
    exact (waits_congr looked.store.owner_takeModified).trans hlooked.free

theorem wrote_ends {tables : List String}
    (h : s.At thread (if tables.isEmpty then .looking else .noting tables) db)
    : Ends l s thread (Database.wrote (Store.engine l thread) tables db).2 := by
  rw [Database.wrote_eq_publish]
  split at h
  . next hempty =>
    rw [if_pos hempty]
    exact publish_ends h
  . next hsome =>
    rw [if_neg hsome]
    have hnote : s.advance thread
        = ({ s with store := s.store.recordModified thread tables }.enter thread .looking).remember
            (.wrote thread tables (s.store.inTransaction thread)) := by
      rw [advance, h.phase]
    have hnoted : (s.advance thread).At thread .looking
        { db with store := db.store.recordModified thread tables } := by
      rw [hnote, ← h.store]
      refine ⟨Function.update_self .., ?_, rfl, h.tracker⟩
      exact (waits_congr (s.store.owner_recordModified tables)).trans h.free
    exact (publish_ends hnoted).of_step (.advance thread)

variable (l thread) in
def Piecewise (op : Operation (Store κ) α) : Prop :=
  ∀ s db, s.At thread .idle db → Ends l s thread (op db).2

namespace Piecewise

variable {op : Operation (Store κ) α}

theorem pure (a : α) : Piecewise l thread (Pure.pure a : Operation (Store κ) α) :=
  fun _ _ h => h.ends

theorem fail (f : Fault) : Piecewise l thread (Operation.fail f : Operation (Store κ) α) :=
  fun _ _ h => h.ends

theorem crash : Piecewise l thread (Operation.crash : Operation (Store κ) α) :=
  fun _ _ h => h.ends

theorem bind (h : Piecewise l thread op) {f : α → Operation (Store κ) β}
    (hf : ∀ a, Piecewise l thread (f a)) : Piecewise l thread (op >>= f) := by
  intro s db hat
  have hends := h s db hat
  change Ends l s thread (Operation.follow f (op db)).2
  rcases hop : op db with ⟨outcome, db'⟩
  rw [hop] at hends
  cases outcome with
  | ok a => exact hends.trans fun s' hat' => hf a s' db' hat'
  | fault f => exact hends
  | crash => exact hends

theorem attempt (h : Piecewise l thread op) : Piecewise l thread op.attempt := by
  intro s db hat
  have hends := h s db hat
  unfold Operation.attempt
  rcases hop : op db with ⟨outcome, db'⟩
  rw [hop] at hends
  cases outcome with
  | ok a => exact hends
  | fault f => exact hends
  | crash => exact hends

theorem statement (r : Request stmt) (tables : List String) (f : Store κ → Except Fault α × Store κ)
    (touched : Store κ → List String)
    (hstart : ∀ s : Threads κ, s.start l thread r
      = s.afterwards thread (touched s.store) tables (f s.store).1 (f s.store).2)
    (howner : ∀ st, (f st).2.owner = st.owner)
    : Piecewise l thread (do
        let a ← Operation.onStore f
        Database.wrote (Store.engine l thread) tables
        return a) := by
  intro s db hat
  have hran : (s.start l thread r).At thread (afterStatement (f db.store).1 tables)
      { db with store := (f db.store).2 } := by
    rw [hstart, ← hat.store]
    unfold Threads.afterwards
    have hfree := (waits_congr (howner s.store)).trans hat.free
    dsimp only
    split
    . exact ⟨Function.update_self .., hfree, rfl, hat.tracker⟩
    . exact ⟨Function.update_self .., hfree, rfl, hat.tracker⟩
  apply Ends.of_step (.start thread hat.phase hat.free r)
  generalize s.start l thread r = ran at hran
  rw [Database.statement_eq]
  dsimp only
  cases hf : (f db.store).1 with
  | ok a =>
    rw [hf] at hran
    exact wrote_ends (l := l) hran
  | error fault =>
    rw [hf] at hran
    exact hran.ends

theorem execute (q : stmt) (tables : List String)
    : Piecewise l thread (Database.execute (Store.engine l thread) q tables) :=
  statement (.execute q tables) tables (Store.execute l q)
    (fun st => (l.write q st.connection).2.1) (fun _ => rfl) fun _ => rfl

theorem insert (q : stmt) (tables : List String)
    : Piecewise l thread (Database.insert (Store.engine l thread) q tables) :=
  statement (.insert q tables) tables (Store.insert l q)
    (fun st => (l.write q st.connection).2.1) (fun _ => rfl) fun _ => rfl

theorem beginTransaction : Piecewise l thread (Database.beginTransaction (Store.engine l thread)) := by
  intro s db hat
  apply Ends.of_step (.start thread hat.phase hat.free .begin)
  apply At.ends
  change At { s with store := (s.store.openTransaction l thread).2 } thread .idle
    { db with store := (db.store.openTransaction l thread).2 }
  rw [← hat.store]
  refine ⟨hat.phase, ?_, rfl, hat.tracker⟩
  rcases s.store.owner_openTransaction l thread with howner | howner
  . exact (waits_congr howner).trans hat.free
  . simp [Store.waits, howner]

theorem endTransaction (success : Bool)
    : Piecewise l thread (Database.endTransaction (Store.engine l thread) success) := by
  intro s db hat
  have hclosed : (s.start l thread (.finish success)).At thread
      (if (db.store.closeTransaction l success).1.isOk then .looking else .idle)
      { db with store := (db.store.closeTransaction l success).2 } := by
    rw [← hat.store, start]
    have hfree : (s.store.closeTransaction l success).2.waits thread = false := by
      rcases s.store.owner_closeTransaction l success with howner | howner
      . exact (waits_congr howner).trans hat.free
      . simp [Store.waits, howner]
    dsimp only
    split
    . exact ⟨Function.update_self .., hfree, rfl, hat.tracker⟩
    . exact ⟨Function.update_self .., hfree, rfl, hat.tracker⟩
  apply Ends.of_step (.start thread hat.phase hat.free (.finish success))
  generalize s.start l thread (.finish success) = closed at hclosed
  have hdb : Operation.onStore (Store.closeTransaction l success) db
      = (.ofExcept (db.store.closeTransaction l success).1,
        { db with store := (db.store.closeTransaction l success).2 }) := rfl
  change Ends l closed thread
    (Operation.follow _ (Operation.onStore (Store.closeTransaction l success) db)).2
  rw [hdb]
  cases hr : (db.store.closeTransaction l success).1 with
  | ok =>
    rw [hr] at hclosed
    exact publish_ends hclosed
  | error fault =>
    rw [hr] at hclosed
    exact hclosed.ends

theorem runInTransaction (h : Piecewise l thread op)
    : Piecewise l thread (Database.runInTransaction (Store.engine l thread) op) := by
  refine beginTransaction.bind fun _ s db hat => ?_
  have hbody := h s db hat
  unfold Database.within
  rcases hop : op db with ⟨outcome, db'⟩
  rw [hop] at hbody
  cases outcome with
  | ok a =>
    have hleave : Piecewise l thread (do
        Database.endTransaction (Store.engine l thread) true
        return a) := (endTransaction true).bind fun _ => pure a
    exact hbody.trans fun s' hat' => hleave s' db' hat'
  | fault f => exact hbody.trans fun s' hat' => endTransaction false s' db' hat'
  | crash => exact hbody.trans fun s' hat' => endTransaction false s' db' hat'

theorem program (p : Program stmt α) : Piecewise l thread (p.run (Store.engine l thread)) := by
  induction p with
  | done a => exact pure a
  | fail f => exact fail f
  | panic => exact crash
  | write q tables next ih => exact (execute q tables).attempt.bind ih
  | insert q tables next ih => exact (insert q tables).attempt.bind ih
  | call body next hbody hnext => exact hbody.runInTransaction.attempt.bind hnext

end Piecewise

end DataAccess.Storage.Threads
