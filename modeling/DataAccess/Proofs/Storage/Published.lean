import DataAccess.Proofs.Storage.Publishing
import DataAccess.Storage.Table

/-!
This module contains what becomes of written tables. Whatever the order in which threads do their work,
a table that was written outside of any transaction or in one that was committed is noted somewhere until
it is handed to the tracker, and no other table is ever handed to it.
-/

namespace DataAccess.Storage

namespace Threads

open Occurrence

variable {s : Threads κ} {thread : Nat}

/-- A table is noted, or put aside, or carried by some thread, or has been handed to the tracker since. -/
def Traced (s : Threads κ) (since : List Occurrence) (x : String) : Prop :=
  x ∈ s.store.modified ∨ x ∈ s.store.outside ∨ s.Carried x ∨
    ∃ thread tables, .handed thread tables ∈ since ∧ x ∈ tables

theorem Inv.traced (h : s.Inv) {newer older : List Occurrence} {tables : List String} {inside : Bool}
    {x : String} (hpast : s.past = newer ++ .wrote thread tables inside :: older) (hx : x ∈ tables)
    (hkept : inside = false ∨ closing newer = some true) : s.Traced newer x := by
  rcases owed_of_wrote hx hkept with howed | hhanded
  . rw [← hpast] at howed
    rcases h.owed x howed with hsafe | hcarried
    . unfold Store.safe at hsafe
      split at hsafe
      . exact Or.inl hsafe
      . exact Or.inr (Or.inl hsafe)
    . exact Or.inr (Or.inr (Or.inl hcarried))
  . exact Or.inr (Or.inr (Or.inr hhanded))

theorem Inv.modified_of_open (h : s.Inv) {newer older : List Occurrence} {tables : List String}
    {x : String} (hpast : s.past = newer ++ .wrote thread tables true :: older) (hx : x ∈ tables)
    (hclosing : closing newer = none) : x ∈ s.store.modified := by
  have hpending : Pending x s.past := by
    rw [hpast]
    exact pending_of_wrote hx hclosing
  have hopen : s.store.depth ≠ 0 := fun hdepth => h.settled hdepth x hpending
  exact (h.pending (Nat.pos_of_ne_zero hopen) x).2 hpending

theorem Traced.imp {since since' : List Occurrence} {x : String} (h : s.Traced since x)
    (hsub : since ⊆ since') : s.Traced since' x := by
  refine h.imp_right (Or.imp_right (Or.imp_right ?_))
  rintro ⟨thread, tables, hmem, hx⟩
  exact ⟨thread, tables, hsub hmem, hx⟩

/-- Whatever the order of steps, the connection has an owner if and only if a transaction is open, and
without one no tables are put aside. A table that was written outside of any transaction, or in one that
was committed, can be traced until it is handed to the tracker; so can a table that a statement is said
to write, once its thread has noted it. A table that was written in the transaction that is open stays
noted. No table is handed to the tracker that was not written before, outside of any transaction or in
one that was committed by then. -/
theorem nothing_lost_or_leaked {l : Link κ stmt} (h : Reachable l s)
    : (s.store.owner.isSome = true ↔ 0 < s.store.depth) ∧
      (s.store.depth = 0 → s.store.outside = []) ∧
      (∀ newer thread tables inside older x,
        s.past = newer ++ .wrote thread tables inside :: older → x ∈ tables →
          (inside = false ∨ closing newer = some true → s.Traced newer x) ∧
          (inside = true → closing newer = none → x ∈ s.store.modified)) ∧
      (∀ newer thread tables inside older x,
        s.past = newer ++ .ran thread tables inside :: older → x ∈ tables →
          inside = false ∨ closing newer = some true →
            s.phase thread = .noting tables ∨ s.Traced newer x) ∧
      ∀ newer thread tables older x,
        s.past = newer ++ .handed thread tables :: older → x ∈ tables →
          ∃ between writer written inside oldest,
            older = between ++ .wrote writer written inside :: oldest ∧ x ∈ written ∧
              (inside = false ∨ closing between = some true) := by
  have hinv := inv_of_reachable h
  refine ⟨hinv.owner, hinv.outside, ?_, ?_, ?_⟩
  . intro newer thread tables inside older x hpast hx
    constructor
    . exact hinv.traced hpast hx
    . rintro rfl
      exact hinv.modified_of_open hpast hx
  . intro newer thread tables inside older x hpast hx hkept
    rcases announced_of_reachable h newer thread tables inside older hpast (List.ne_nil_of_mem hx)
      with hgo | ⟨later, between, rfl, hclosing⟩
    . exact Or.inl hgo.phase
    . right
      -- Its transaction was not closed between the statement and the note.
      have hkept' : inside = false ∨ closing later = some true := by
        cases inside with
        | false => exact Or.inl rfl
        | true =>
          rw [closing_append] at hkept
          simpa [closing, hclosing] using hkept
      rw [List.append_assoc, List.cons_append] at hpast
      exact (hinv.traced hpast hx hkept').imp (List.subset_append_left _ _)
  . intro newer thread tables older x hpast hx
    exact hinv.handed newer thread tables older hpast x hx

/-- One thread writes tags and publishes them. Another one opens a transaction before the tags are noted,
writes users in it and rolls it back before the tags are handed to the tracker. -/
def writtenMeanwhile : Threads (Connection Tables) :=
  let l := Connection.link Tables.meaning
  let put (table : Table) : Command := .put table (.integer 1) .null .abort
  let ran := (fresh (.new Tables.empty) .new).start l 1 (.execute (put .tags) ["tags"])
  let opened := (ran.start l 0 .begin).start l 0 (.execute (put .users) [])
  let taken := (((opened.advance 0).advance 1).advance 1).advance 1
  (taken.start l 0 (.finish false)).advance 1

theorem nothing_lost_or_leaked_writtenMeanwhile
    : let s := writtenMeanwhile
      let later := [.closed 0 false, .wrote 1 ["tags"] false, .ran 0 [] true, .wrote 0 ["users"] true,
        .ran 1 ["tags"] false]
      let past := later ++ [.wrote 1 ["tags"] false]
      Reachable (Connection.link Tables.meaning) s ∧ s.past = .handed 1 ["tags"] :: past ∧
      (s.store.owner.isSome = true ↔ 0 < s.store.depth) ∧ s.store.outside = [] ∧
      s.Traced (.handed 1 ["tags"] :: later) "tags" ∧
      ∃ between writer written inside oldest,
        past = between ++ .wrote writer written inside :: oldest ∧ "tags" ∈ written ∧
          (inside = false ∨ closing between = some true) := by
  intro s later past
  have hreach : Reachable (Connection.link Tables.meaning) s := by
    have hran := (Reachable.fresh (l := Connection.link Tables.meaning)
      (.new Tables.empty) .new).start 1 rfl rfl
      (.execute (.put .tags (.integer 1) .null .abort) ["tags"])
    have hopened := (hran.start 0 rfl rfl .begin).start 0 rfl rfl
      (.execute (.put .users (.integer 1) .null .abort) [])
    have htaken := (((hopened.advance 0).advance 1).advance 1).advance 1
    exact (htaken.start 0 rfl rfl (.finish false)).advance 1
  have hpast : s.past = .handed 1 ["tags"] :: past := by rfl
  obtain ⟨howner, houtside, hwrote, _, hhanded⟩ := nothing_lost_or_leaked hreach
  refine ⟨hreach, hpast, howner, houtside rfl, ?_, ?_⟩
  . apply (hwrote _ _ _ _ _ _ hpast List.mem_cons_self).1
    exact Or.inl rfl
  . exact hhanded [] _ _ _ _ hpast List.mem_cons_self

end Threads

end DataAccess.Storage
