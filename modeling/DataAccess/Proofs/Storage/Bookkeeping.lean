import DataAccess.Storage.Store

/-!
This module contains what the operations of a store do to its books: who has a transaction open, how many
of them, and which tables were written. The connection decides on the outcome, but not on the books.
-/

namespace DataAccess.Storage

namespace Store

variable (l : Link κ stmt) (st : Store κ) {thread other : Nat}

/-- Opening the outermost transaction puts the tables aside that were written before it. -/
theorem openTransaction_cases (thread : Nat)
    : ∃ c,
        (st.openTransaction l thread).2 = { st with connection := c } ∨
        (st.depth = 0 ∧ (st.openTransaction l thread).2 = ⟨c, 1, some thread, st.modified, []⟩) ∨
        (0 < st.depth ∧
          (st.openTransaction l thread).2 = { st with connection := c, depth := st.depth + 1 }) := by
  unfold openTransaction
  split
  . next hdepth =>
    split
    . next c _ => exact ⟨c, Or.inl rfl⟩
    . next c _ => exact ⟨c, Or.inr (Or.inl ⟨hdepth, rfl⟩)⟩
  . next depth hdepth =>
    split
    . next c _ => exact ⟨c, Or.inl rfl⟩
    . next c _ => exact ⟨c, Or.inr (Or.inr ⟨Nat.pos_of_ne_zero hdepth, rfl⟩)⟩

theorem closeOutermost_cases (success : Bool)
    : ∃ c,
        ((success && (st.closeOutermost l success).1.isOk) = true ∧
          (st.closeOutermost l success).2 = ⟨c, 0, none, [], st.modified.insertAll st.outside⟩) ∨
        ((success && (st.closeOutermost l success).1.isOk) = false ∧
          (st.closeOutermost l success).2 = ⟨c, 0, none, [], st.outside⟩) := by
  unfold closeOutermost
  cases success with
  | false => exact ⟨_, Or.inr ⟨rfl, rfl⟩⟩
  | true =>
    rcases hcommit : l.commit st.connection with ⟨r, c⟩
    cases r with
    | ok => exact ⟨c, Or.inl ⟨rfl, rfl⟩⟩
    | error => exact ⟨_, Or.inr ⟨rfl, rfl⟩⟩

/-- Closing the outermost transaction keeps its tables only if it is committed, but in any case those
that were put aside. -/
theorem closeTransaction_cases (success : Bool)
    : ∃ c,
        (st.depth ≠ 1 ∧ (st.closeTransaction l success).2
          = { st with connection := c, depth := st.depth - 1 }) ∨
        (st.depth = 1 ∧ (success && (st.closeTransaction l success).1.isOk) = true ∧
          (st.closeTransaction l success).2
            = ⟨c, 0, none, [], st.modified.insertAll st.outside⟩) ∨
        (st.depth = 1 ∧ (success && (st.closeTransaction l success).1.isOk) = false ∧
          (st.closeTransaction l success).2 = ⟨c, 0, none, [], st.outside⟩) := by
  obtain ⟨connection, depth, owner, outside, modified⟩ := st
  match depth with
  | 0 => exact ⟨connection, Or.inl ⟨by simp, rfl⟩⟩
  | 1 =>
    obtain ⟨c, hkept | hdropped⟩ :=
      closeOutermost_cases l ⟨connection, 1, owner, outside, modified⟩ success
    . exact ⟨c, Or.inr (Or.inl ⟨rfl, hkept⟩)⟩
    . exact ⟨c, Or.inr (Or.inr ⟨rfl, hdropped⟩)⟩
  | depth + 2 => exact ⟨_, Or.inl ⟨by simp, rfl⟩⟩

theorem owner_openTransaction (thread : Nat)
    : (st.openTransaction l thread).2.owner = st.owner ∨
        (st.openTransaction l thread).2.owner = some thread := by
  obtain ⟨c, h | ⟨_, h⟩ | ⟨_, h⟩⟩ := st.openTransaction_cases l thread
  . left
    rw [h]
  . right
    rw [h]
  . left
    rw [h]

theorem owner_closeTransaction (success : Bool)
    : (st.closeTransaction l success).2.owner = st.owner ∨
        (st.closeTransaction l success).2.owner = none := by
  obtain ⟨c, ⟨_, h⟩ | ⟨_, _, h⟩ | ⟨_, _, h⟩⟩ := st.closeTransaction_cases l success
  . left
    rw [h]
  . right
    rw [h]
  . right
    rw [h]

theorem owner_recordModified (tables : List String)
    : (st.recordModified thread tables).owner = st.owner := by
  unfold recordModified
  split
  . rfl
  . rfl

theorem owner_takeModified : (st.takeModified thread).2.owner = st.owner := by
  unfold takeModified
  split
  . rfl
  . rfl

variable {st}

theorem waits_eq_false_iff
    : st.waits thread = false ↔ st.owner = none ∨ st.inTransaction thread = true := by
  unfold waits inTransaction
  cases st.owner with
  | none => simp
  | some owner => simp

theorem inTransaction_eq_false (hfree : st.waits thread = false) (hne : other ≠ thread)
    : st.inTransaction other = false := by
  unfold waits at hfree
  unfold inTransaction
  cases howner : st.owner with
  | none => rfl
  | some owner =>
    have howner : owner = thread := by simpa [howner] using hfree
    simpa [howner] using hne.symm

end Store

end DataAccess.Storage
