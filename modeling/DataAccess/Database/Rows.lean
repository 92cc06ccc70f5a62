import DataAccess.Database.Basic

/-!
This module contains the reading of a cursor's rows. Other operations may be done between two rows.
-/

namespace DataAccess

theorem Cursor.length_rest_of_next {c d : Cursor} {signals : Cancellation}
    (h : c.next signals = (.ok true, d)) : d.rest.length < c.rest.length := by
  unfold Cursor.next at h
  split at h
  . simp at h
  . split at h
    . simp at h
    . simp only [Prod.mk.injEq, Except.ok.injEq] at h
      obtain ⟨some, rfl⟩ := h
      cases hr : c.rest with
      | nil => simp [hr] at some
      | cons _ _ => simp

namespace Database

/-- Goes through the rows of a cursor that are still to come. A row is visited with the number of rows
before it, and the visit tells whether to go on. -/
def visitRows (visit : Nat → Cursor → Operation σ (α × Bool)) (seen : Nat) (c : Cursor) :
    Operation σ (List α) :=
  fun db =>
    match _h : c.next db.cancellation with
    | (.error f, _) => (.fault f, db)
    | (.ok false, _) => (.ok [], db)
    | (.ok true, d) =>
      (do
        let (a, goOn) ← visit seen d
        if goOn then return a :: (← visitRows visit (seen + 1) d) else return [a] :
          Operation σ (List α)) db
termination_by c.rest.length
decreasing_by exact Cursor.length_rest_of_next _h

def readRows (read : Cursor → Except Fault α) (c : Cursor) : Operation σ (List α) :=
  visitRows (fun _ d => do return (← .ofExcept (read d), true)) 0 c

end Database

end DataAccess
