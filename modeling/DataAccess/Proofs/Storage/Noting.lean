import DataAccess.Proofs.Storage.Bookkeeping
import DataAccess.Proofs.Storage.Occurrences

/-!
This module contains what becomes of the tables that a statement is said to write. The thread that ran it
notes them later, but still inside of the same transaction, or still outside of any.
-/

namespace DataAccess.Storage

namespace Threads

open Occurrence

variable {s s' : Threads κ} {thread : Nat} {tables : List String} {inside : Bool}
variable {since : List Occurrence} {o : Occurrence}

structure Going (s : Threads κ) (thread : Nat) (tables : List String) (inside : Bool)
    (since : List Occurrence) : Prop where
  phase : s.phase thread = .noting tables
  inTransaction : s.store.inTransaction thread = inside
  closing : inside = true → closing since = none

def Noted (thread : Nat) (tables : List String) (inside : Bool) (since : List Occurrence) : Prop :=
  ∃ later between, since = later ++ .wrote thread tables inside :: between ∧
    (inside = true → closing between = none)

def Announced (s : Threads κ) : Prop :=
  ∀ newer thread tables inside older, s.past = newer ++ .ran thread tables inside :: older →
    tables ≠ [] → s.Going thread tables inside newer ∨ Noted thread tables inside newer

theorem Noted.cons (h : Noted thread tables inside since) (o : Occurrence)
    : Noted thread tables inside (o :: since) := by
  obtain ⟨later, between, rfl, hclosing⟩ := h
  exact ⟨o :: later, between, rfl, hclosing⟩

namespace Announced

theorem same (h : s.Announced) (hpast : s'.past = s.past)
    (hgoing : ∀ thread tables inside since, s.Going thread tables inside since →
      s'.Going thread tables inside since) : s'.Announced := by
  intro newer thread tables inside older heq hne
  rw [hpast] at heq
  exact (h newer thread tables inside older heq hne).imp_left (hgoing thread tables inside newer)

theorem cons (h : s.Announced) (hpast : s'.past = o :: s.past)
    (ho : ∀ thread tables inside, o ≠ .ran thread tables inside)
    (hgoing : ∀ thread tables inside since, s.Going thread tables inside since →
      s'.Going thread tables inside (o :: since) ∨ Noted thread tables inside (o :: since))
    : s'.Announced := by
  intro newer thread tables inside older heq hne
  rw [hpast] at heq
  cases newer with
  | nil =>
    cases heq
    exact absurd rfl (ho thread tables inside)
  | cons first newer =>
    obtain ⟨rfl, htail⟩ := List.cons.inj heq
    rcases h newer thread tables inside older htail hne with hgo | hnoted
    . exact hgoing thread tables inside newer hgo
    . exact Or.inr (hnoted.cons o)

theorem ran (h : s.Announced)
    (hphase : tables ≠ [] → s.phase thread = .noting tables)
    (hinside : s.store.inTransaction thread = inside)
    : (s.remember (.ran thread tables inside)).Announced := by
  intro newer thread' tables' inside' older heq hne
  cases newer with
  | nil =>
    cases heq
    exact Or.inl ⟨hphase hne, hinside, fun _ => rfl⟩
  | cons first newer =>
    obtain ⟨rfl, htail⟩ := List.cons.inj heq
    rcases h newer thread' tables' inside' older htail hne with hgo | hnoted
    . exact Or.inl ⟨hgo.phase, hgo.inTransaction, hgo.closing⟩
    . exact Or.inr (hnoted.cons _)

end Announced

theorem Going.other {starter : Nat} (h : s.Going thread tables inside since)
    (hidle : s.phase starter = .idle) (hfree : s.store.waits starter = false)
    (hphase : ∀ thread, thread ≠ starter → s'.phase thread = s.phase thread)
    (howner : s'.store.owner = s.store.owner ∨ s'.store.owner = some starter ∨
      s'.store.owner = none) (since' : List Occurrence)
    : s'.Going thread tables inside since' := by
  have hne : thread ≠ starter := by
    rintro rfl
    cases hidle.symm.trans h.phase
  -- The starter need not wait, so the thread that is still to note has no transaction open.
  have hout := Store.inTransaction_eq_false hfree hne
  have hinside : inside = false := h.inTransaction.symm.trans hout
  refine ⟨(hphase thread hne).trans h.phase, ?_, ?_⟩
  . rw [hinside]
    rcases howner with howner | howner | howner
    . simpa [Store.inTransaction, howner] using hout
    . simpa [Store.inTransaction, howner] using hne.symm
    . simp [Store.inTransaction, howner]
  . simp [hinside]

theorem Announced.afterwards (h : s.Announced) (hidle : s.phase thread = .idle)
    (hfree : s.store.waits thread = false) (touched : List String) (r : Except Fault α)
    {store : Store κ} (howner : store.owner = s.store.owner)
    : (s.afterwards thread touched tables r store).Announced := by
  unfold Threads.afterwards
  dsimp only
  have hwrote : ((({ s with store } : Threads κ).enter thread (afterStatement r tables)).remember
      (.wrote thread touched (s.store.inTransaction thread))).Announced := by
    apply h.cons rfl
    . simp
    . intro other tables' inside since hgo
      left
      apply hgo.other hidle hfree
      . intro other hne
        exact Function.update_of_ne hne _ _
      . exact Or.inl howner
  split
  . next hok =>
    apply hwrote.ran
    . intro hne
      cases r with
      | error => cases hok
      | ok => simp [enter, remember, afterStatement, hne]
    . simp [Store.inTransaction, enter, remember, howner]
  . exact hwrote

theorem announced_start {l : Link κ stmt} (h : s.Announced) (hidle : s.phase thread = .idle)
    (hfree : s.store.waits thread = false) (r : Request stmt) : (s.start l thread r).Announced := by
  cases r with
  | execute q tables => exact h.afterwards hidle hfree _ _ rfl
  | insert q tables => exact h.afterwards hidle hfree _ _ rfl
  | begin =>
    apply h.same
    . rfl
    . intro other tables inside since hgo
      apply hgo.other hidle hfree
      . intro _ _
        rfl
      . exact (s.store.owner_openTransaction l thread).imp_right Or.inl
  | finish success =>
    let next : Phase := if (s.store.closeTransaction l success).1.isOk then .looking else .idle
    let closed := ({ s with store := (s.store.closeTransaction l success).2 } : Threads κ).enter
      thread next
    have hgoing {other : Nat} {tables : List String} {inside : Bool} {since : List Occurrence}
        (hgo : s.Going other tables inside since) (since' : List Occurrence)
        : closed.Going other tables inside since' := by
      apply hgo.other hidle hfree
      . intro other hne
        exact Function.update_of_ne hne _ _
      . exact (s.store.owner_closeTransaction l success).imp_right Or.inr
    let o : Occurrence := .closed thread (success && (s.store.closeTransaction l success).1.isOk)
    change (if s.store.depth = 1 then closed.remember o else closed).Announced
    split
    . apply h.cons rfl
      . simp [o]
      . intro other tables inside since hgo
        have hclosed := hgoing hgo (o :: since)
        exact Or.inl ⟨hclosed.phase, hclosed.inTransaction, hclosed.closing⟩
    . exact h.same rfl fun _ _ _ _ hgo => hgoing hgo _

theorem Going.later {other : Nat} (h : s.Going thread tables inside since)
    (hother : ∀ tables, s.phase other ≠ .noting tables)
    (hphase : ∀ thread, thread ≠ other → s'.phase thread = s.phase thread)
    (howner : s'.store.owner = s.store.owner) {since' : List Occurrence}
    (hclosing : Occurrence.closing since' = Occurrence.closing since)
    : s'.Going thread tables inside since' := by
  have hne : thread ≠ other := by
    rintro rfl
    exact hother tables h.phase
  refine ⟨(hphase thread hne).trans h.phase, ?_, ?_⟩
  . rw [← h.inTransaction, Store.inTransaction, howner, Store.inTransaction]
  . rw [hclosing]
    exact h.closing

theorem announced_advance (h : s.Announced) (thread : Nat) : (s.advance thread).Announced := by
  have hupdate (phase : Phase) (other : Nat) (hne : other ≠ thread)
      : Function.update s.phase thread phase other = s.phase other := Function.update_of_ne hne _ _
  unfold advance
  split
  . exact h
  . next noted hphase =>
    apply h.cons rfl
    . simp
    . intro other tables inside since hgo
      by_cases hother : other = thread
      . subst hother
        cases hphase.symm.trans hgo.phase
        rw [hgo.inTransaction]
        -- This is the note that was announced, and its transaction is still the same.
        exact Or.inr ⟨[], since, rfl, hgo.closing⟩
      . left
        refine ⟨(hupdate _ other hother).trans hgo.phase, ?_, hgo.closing⟩
        rw [← hgo.inTransaction]
        exact congrArg (· == some other) (s.store.owner_recordModified noted)
  . next hphase =>
    apply h.same
    . rfl
    . intro other tables inside since hgo
      apply hgo.later (by simp [hphase]) (hupdate _)
      . rfl
      . rfl
  . next hphase =>
    apply h.same
    . rfl
    . intro other tables inside since hgo
      apply hgo.later (by simp [hphase]) (hupdate _)
      . exact s.store.owner_takeModified
      . rfl
  . next handed hphase =>
    apply h.cons rfl
    . simp
    . intro other tables inside since hgo
      left
      apply hgo.later (by simp [hphase]) (hupdate _)
      . rfl
      . rfl

theorem announced_fresh (connection : κ) (tracker : Tracker)
    : (fresh connection tracker).Announced := by
  intro newer thread tables inside older heq
  cases newer with
  | nil => cases heq
  | cons => cases heq

theorem announced_step {l : Link κ stmt} (h : s.Announced) (hs : Step l s s') : s'.Announced := by
  cases hs with
  | start thread hidle hfree r => exact announced_start h hidle hfree r
  | advance thread => exact announced_advance h thread
  | observe tracker => exact h.same rfl fun _ _ _ _ hgo => ⟨hgo.phase, hgo.inTransaction, hgo.closing⟩

theorem announced_of_reachable {l : Link κ stmt} (h : Reachable l s) : s.Announced := by
  induction h with
  | fresh connection tracker => exact announced_fresh connection tracker
  | step _ hs ih => exact announced_step ih hs

end Threads

end DataAccess.Storage
