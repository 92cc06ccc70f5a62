import Mathlib.Data.List.TakeWhile

/-!
This module contains histories, which are lists of moments, the latest first. A history has a course, which
is made of its moments of one kind. Main statement: what happened before the first moment of some kind is
settled as soon as there is such a moment.
-/

namespace DataAccess.History

variable {μ : Type} {past : List μ} {m : μ} {kind mark what : μ → Bool}

def course (kind : μ → Bool) (past : List μ) : List μ :=
  past.reverse.filter kind

def happenedBefore (mark what : μ → Bool) (past : List μ) : Bool :=
  (past.reverse.takeWhile (!mark ·)).any what

theorem course_cons_of_kind (past : List μ) (hm : kind m = true)
    : course kind (m :: past) = course kind past ++ [m] := by
  simp [course, hm]

theorem course_cons_of_other (past : List μ) (hm : kind m = false)
    : course kind (m :: past) = course kind past := by
  simp [course, hm]

theorem mem_course : m ∈ course kind past ↔ m ∈ past ∧ kind m = true := by
  simp [course]

/-- What comes after the first moment of a kind does not matter. -/
theorem happenedBefore_of_marked (hm : m ∈ past) (hmark : mark m = true) (x : μ)
    : happenedBefore mark what (x :: past) = happenedBefore mark what past := by
  unfold happenedBefore
  rw [List.reverse_cons, List.takeWhile_append, if_neg]
  intro hlength
  have hall := (List.takeWhile_sublist (!mark ·)).eq_of_length hlength
  rw [List.takeWhile_eq_self_iff] at hall
  simpa [hmark] using hall m (List.mem_reverse.2 hm)

theorem happenedBefore_first (hpast : ∀ m ∈ past, mark m = false) (hm : mark m = true)
    : happenedBefore mark what (m :: past) = past.any what := by
  unfold happenedBefore
  rw [List.reverse_cons, List.takeWhile_append_of_pos]
  . simp [hm]
  . intro m hmem
    simpa using hpast m (List.mem_reverse.1 hmem)

end DataAccess.History
