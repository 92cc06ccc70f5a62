import DataAccess.Proofs.Storage.Threads

/-!
This module contains what can be told of the tables that were written, from what happened so far: which
of them are still to be handed to the tracker, and which were written in vain.
-/

namespace DataAccess.Storage

namespace Occurrence

def closing : List Occurrence → Option Bool
  | [] => none
  | .closed _ committed :: older => closing older <|> some committed
  | .wrote _ _ _ :: older | .ran _ _ _ :: older | .handed _ _ :: older => closing older

theorem closing_append (newer older : List Occurrence)
    : closing (newer ++ older) = (closing older <|> closing newer) := by
  induction newer with
  | nil => simp [closing]
  | cons o newer ih =>
    cases o with
    | wrote | ran | handed => exact ih
    | closed thread committed =>
      rw [List.cons_append, closing, ih, closing]
      cases closing older with
      | none => rfl
      | some => rfl

def Pending (x : String) : List Occurrence → Prop
  | [] => False
  | .wrote _ tables inside :: older => (inside = true ∧ x ∈ tables) ∨ Pending x older
  | .closed _ _ :: _ => False
  | .ran _ _ _ :: older | .handed _ _ :: older => Pending x older

/-- A table was written outside of any transaction or in one that was committed, and not handed to the
tracker since. -/
def Owed (x : String) : List Occurrence → Prop
  | [] => False
  | .wrote _ tables inside :: older => (inside = false ∧ x ∈ tables) ∨ Owed x older
  | .closed _ committed :: older => (committed = true ∧ Pending x older) ∨ Owed x older
  | .ran _ _ _ :: older => Owed x older
  | .handed _ tables :: older => x ∉ tables ∧ Owed x older

def Kept (x : String) (past : List Occurrence) : Prop :=
  ∃ newer thread tables inside older,
    past = newer ++ .wrote thread tables inside :: older ∧ x ∈ tables ∧
      (inside = false ∨ closing newer = some true)

variable {x : String} {newer older : List Occurrence} {thread : Nat} {tables : List String}

theorem pending_iff {past : List Occurrence}
    : Pending x past ↔
        ∃ newer thread tables older,
          past = newer ++ .wrote thread tables true :: older ∧ x ∈ tables ∧ closing newer = none := by
  constructor
  . intro h
    induction past with
    | nil => cases h
    | cons o past ih =>
      cases o with
      | wrote thread tables inside =>
        rcases h with ⟨rfl, hx⟩ | h
        . exact ⟨[], thread, tables, past, rfl, hx, rfl⟩
        . obtain ⟨newer, writer, written, older, rfl, hx, hclosing⟩ := ih h
          exact ⟨.wrote thread tables inside :: newer, writer, written, older, rfl, hx, hclosing⟩
      | closed => cases h
      | ran thread tables inside =>
        obtain ⟨newer, writer, written, older, rfl, hx, hclosing⟩ := ih h
        exact ⟨.ran thread tables inside :: newer, writer, written, older, rfl, hx, hclosing⟩
      | handed thread tables =>
        obtain ⟨newer, writer, written, older, rfl, hx, hclosing⟩ := ih h
        exact ⟨.handed thread tables :: newer, writer, written, older, rfl, hx, hclosing⟩
  . rintro ⟨newer, thread, tables, older, rfl, hx, hclosing⟩
    induction newer with
    | nil => exact Or.inl ⟨rfl, hx⟩
    | cons o newer ih =>
      cases o with
      | wrote => exact Or.inr (ih hclosing)
      | closed => simp [closing] at hclosing
      | ran | handed => exact ih hclosing

theorem Kept.cons {past : List Occurrence} (h : Kept x past) (o : Occurrence) : Kept x (o :: past) := by
  obtain ⟨newer, thread, tables, inside, older, rfl, hx, hkept⟩ := h
  refine ⟨o :: newer, thread, tables, inside, older, rfl, hx, ?_⟩
  apply hkept.imp_right
  intro hclosing
  cases o with
  | wrote | ran | handed => exact hclosing
  | closed => simp [closing, hclosing]

theorem Kept.wrote (hx : x ∈ tables) (past : List Occurrence)
    : Kept x (.wrote thread tables false :: past) :=
  ⟨[], thread, tables, false, past, rfl, hx, Or.inl rfl⟩

theorem Pending.kept {past : List Occurrence} (h : Pending x past)
    : Kept x (.closed thread true :: past) := by
  obtain ⟨newer, writer, tables, older, rfl, hx, hclosing⟩ := pending_iff.1 h
  refine ⟨.closed thread true :: newer, writer, tables, true, older, rfl, hx, Or.inr ?_⟩
  simp [closing, hclosing]

theorem pending_of_wrote (hx : x ∈ tables) (h : closing newer = none)
    : Pending x (newer ++ .wrote thread tables true :: older) :=
  pending_iff.2 ⟨newer, thread, tables, older, rfl, hx, h⟩

theorem owed_of_wrote {inside : Bool} (hx : x ∈ tables)
    (h : inside = false ∨ closing newer = some true)
    : Owed x (newer ++ .wrote thread tables inside :: older) ∨
        ∃ thread' tables', .handed thread' tables' ∈ newer ∧ x ∈ tables' := by
  have later (o : Occurrence) {newer : List Occurrence}
      (h : ∃ thread' tables', .handed thread' tables' ∈ newer ∧ x ∈ tables')
      : ∃ thread' tables', .handed thread' tables' ∈ o :: newer ∧ x ∈ tables' := by
    obtain ⟨thread', tables', hmem, hx⟩ := h
    exact ⟨thread', tables', List.mem_cons_of_mem _ hmem, hx⟩
  induction newer with
  | nil =>
    rcases h with hinside | hclosing
    . exact Or.inl (Or.inl ⟨hinside, hx⟩)
    . cases hclosing
  | cons o newer ih =>
    cases o with
    | wrote => exact (ih h).imp Or.inr (later _)
    | ran => exact (ih h).imp id (later _)
    | handed thread' tables' =>
      by_cases hx' : x ∈ tables'
      . exact Or.inr ⟨thread', tables', List.mem_cons_self, hx'⟩
      . exact (ih h).imp (fun howed => ⟨hx', howed⟩) (later _)
    | closed _ committed =>
      -- Only for the first transaction that was closed since it matters whether it was committed.
      cases hclosing : closing newer with
      | some first =>
        have hfirst : inside = false ∨ closing newer = some true := by
          simpa [closing, hclosing] using h
        exact (ih hfirst).imp Or.inr (later _)
      | none =>
        cases inside with
        | false => exact (ih (Or.inl rfl)).imp Or.inr (later _)
        | true =>
          have hcommitted : committed = true := by simpa [closing, hclosing] using h
          exact Or.inl (Or.inl ⟨hcommitted, pending_of_wrote hx hclosing⟩)

end Occurrence

end DataAccess.Storage
