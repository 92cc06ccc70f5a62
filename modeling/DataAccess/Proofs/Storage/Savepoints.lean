import DataAccess.Storage.Store

/-!
This module contains what a connection is relied on for: that its transaction and its savepoints can be
kept and gone back to, that only a commit may fail, and that a statement that fails undoes nothing but
itself. Every meaning of statements of that kind makes a connection of that kind.
-/

namespace DataAccess.Storage

/-- What statements and commits do with the data, and with what a connection keeps besides, which no
rollback brings back. -/
structure Behaviour (δ η stmt : Type) where
  /-- Runs a statement, inside of a transaction or as a transaction of its own. -/
  write : Bool → stmt → δ → η → Except Fault Nat × δ × η
  commit : δ → η → Except Fault Unit × η
  lastId : δ → η → Int64
  data_of_error : (write inside q d k).1 = .error f → (write inside q d k).2.1 = d

structure Opened (δ : Type) where
  before : δ
  savepoints : List (Savepoint δ)

structure Holding (δ η : Type) where
  data : δ
  kept : η
  opened : Option (Opened δ)

/-- A connection answers and holds something afterwards. -/
def Answers (holds : κ → Holding δ η → Prop) (r : Except Fault α × κ) (a : Except Fault α)
    (w : Holding δ η) : Prop :=
  r.1 = a ∧ holds r.2 w

/-- A connection with transactions and savepoints. They can be kept and gone back to as long as they are
there, except that a commit may fail, which leaves the transaction open. -/
structure Transactional (l : Link κ stmt) (b : Behaviour δ η stmt) (holds : κ → Holding δ η → Prop) :
    Prop where
  write : holds c ⟨d, k, o⟩ →
    (l.write q c).1 = (b.write o.isSome q d k).1 ∧
      holds (l.write q c).2.2 ⟨(b.write o.isSome q d k).2.1, (b.write o.isSome q d k).2.2, o⟩
  lastId : holds c ⟨d, k, o⟩ → l.lastId c = b.lastId d k
  openTransaction : holds c ⟨d, k, none⟩ →
    Answers holds (l.openTransaction c) (.ok ()) ⟨d, k, some ⟨d, []⟩⟩
  commit : holds c ⟨d, k, some t⟩ →
    Answers holds (l.commit c) (b.commit d k).1
      ⟨d, (b.commit d k).2, if (b.commit d k).1.isOk then none else some t⟩
  rollback : holds c ⟨d, k, some t⟩ →
    Answers holds (l.rollback c) (.ok ()) ⟨t.before, k, none⟩
  savepoint : holds c ⟨d, k, some t⟩ →
    Answers holds (l.savepoint name c) (.ok ()) ⟨d, k, some ⟨t.before, ⟨name, d⟩ :: t.savepoints⟩⟩
  release : holds c ⟨d, k, some ⟨first, ⟨name, point⟩ :: rest⟩⟩ →
    Answers holds (l.release name c) (.ok ()) ⟨d, k, some ⟨first, rest⟩⟩
  rollbackTo : holds c ⟨d, k, some ⟨first, ⟨name, point⟩ :: rest⟩⟩ →
    Answers holds (l.rollbackTo name c) (.ok ())
      ⟨point, k, some ⟨first, ⟨name, point⟩ :: rest⟩⟩

def Effect.UndoesOnlyItself (e : Effect δ) (d : δ) : Prop :=
  ∀ f, e.result = .error f → e.data = d ∧ e.undoesTransaction = false

def Meaning.UndoesOnlyItself (s : Meaning δ stmt) : Prop :=
  ∀ q d, (s.write q d).UndoesOnlyItself d

namespace Connection

variable {s : Meaning δ stmt}

/-- What a statement does on a connection. Outside of a transaction the data have to stand the check. -/
def written (s : Meaning δ stmt) (inside : Bool) (q : stmt) (d : δ) (last : Int64) :
    Except Fault Nat × δ × Int64 :=
  let e := s.write q d
  let last := e.newId.getD last
  if inside then (e.result, e.data, last)
  else
    match s.check e.data with
    | .ok () => (e.result, e.data, last)
    | .error f => (.error f, d, last)

def behaviour (s : Meaning δ stmt) (hs : s.UndoesOnlyItself) : Behaviour δ Int64 stmt where
  write := written s
  commit d last := (s.check d, last)
  lastId _ last := last
  data_of_error := by
    intro inside q d last f h
    unfold written at h ⊢
    dsimp only at h ⊢
    split
    . next hinside =>
      rw [if_pos hinside] at h
      exact (hs q d f h).1
    . next hinside =>
      rw [if_neg hinside] at h
      split
      . next hcheck =>
        rw [hcheck] at h
        exact (hs q d f h).1
      . rfl

/-- What is kept besides the data is the identifier of the row that was inserted last. -/
structure Holds (c : Connection δ) (w : Holding δ Int64) : Prop where
  holding : w = ⟨c.data, c.lastId, c.transaction.map fun t => ⟨t.before, t.savepoints⟩⟩
  opened : ∀ t, c.transaction = some t → t.bySavepoint = false

namespace Holds

variable {c : Connection δ}

theorem none (h : c.Holds ⟨d, last, none⟩) : c = ⟨d, .none, last⟩ := by
  obtain ⟨hholding, _⟩ := h
  obtain ⟨data, _ | t, lastId⟩ := c
  . cases hholding
    rfl
  . cases hholding

theorem some (h : c.Holds ⟨d, last, some t⟩)
    : c = ⟨d, .some ⟨t.before, false, t.savepoints⟩, last⟩ := by
  obtain ⟨hholding, hopened⟩ := h
  obtain ⟨data, _ | ⟨before, bySavepoint, savepoints⟩, lastId⟩ := c
  . cases hholding
  . cases hholding
    cases hopened _ rfl
    rfl

theorem of_none (d : δ) (last : Int64) : Holds ⟨d, .none, last⟩ ⟨d, last, .none⟩ :=
  ⟨rfl, by simp⟩

theorem of_some (d : δ) (last : Int64) (t : Opened δ)
    : Holds ⟨d, .some ⟨t.before, false, t.savepoints⟩, last⟩ ⟨d, last, .some t⟩ :=
  ⟨rfl, by simp⟩

end Holds

theorem find?_head (name : String) (d point first : δ) (last : Int64) (rest : List (Savepoint δ))
    : find? name ⟨d, some ⟨first, false, ⟨name, point⟩ :: rest⟩, last⟩
        =
      some (⟨first, false, ⟨name, point⟩ :: rest⟩, ⟨name, point⟩) := by
  simp [find?]

theorem write_eq_written (hs : s.UndoesOnlyItself) {c : Connection δ} {o : Option (Opened δ)}
    (h : c.Holds ⟨d, last, o⟩) (q : stmt)
    : (c.write s q).1 = (written s o.isSome q d last).1 ∧
        (c.write s q).2.2.Holds
          ⟨(written s o.isSome q d last).2.1, (written s o.isSome q d last).2.2, o⟩ := by
  cases o with
  | none =>
    rw [h.none]
    unfold write written
    dsimp only
    cases s.check (s.write q d).data with
    | ok =>
      cases (s.write q d).result with
      | ok => exact ⟨rfl, Holds.of_none _ _⟩
      | error => exact ⟨rfl, Holds.of_none _ _⟩
    | error =>
      cases (s.write q d).result with
      | ok => exact ⟨rfl, Holds.of_none _ _⟩
      | error => exact ⟨rfl, Holds.of_none _ _⟩
  | some t =>
    rw [h.some]
    unfold write written
    dsimp only
    cases hr : (s.write q d).result with
    | ok => exact ⟨rfl, Holds.of_some _ _ t⟩
    | error f =>
      rw [(hs q d f hr).2]
      exact ⟨rfl, Holds.of_some _ _ t⟩

theorem transactional (hs : s.UndoesOnlyItself)
    : Transactional (link s) (behaviour s hs) Holds where
  write h := write_eq_written hs h _
  lastId := by
    intro c d last o h
    cases h.holding
    rfl
  openTransaction h := by
    rw [h.none]
    exact ⟨rfl, .of_some _ _ ⟨_, []⟩⟩
  commit {c d last t} h := by
    rw [h.some]
    change Answers Holds (close s _) (s.check d) ⟨d, last, if (s.check d).isOk then none else some t⟩
    unfold close
    cases s.check d with
    | ok => exact ⟨rfl, .of_none _ _⟩
    | error => exact ⟨rfl, .of_some _ _ t⟩
  rollback h := by
    rw [h.some]
    exact ⟨rfl, .of_none _ _⟩
  savepoint {c d last t name} h := by
    rw [h.some]
    exact ⟨rfl, .of_some _ _ ⟨t.before, ⟨name, d⟩ :: t.savepoints⟩⟩
  release {c d last first name point rest} h := by
    rw [h.some]
    change Answers Holds (release s name _) _ _
    unfold release
    rw [find?_head]
    exact ⟨rfl, .of_some _ _ ⟨first, rest⟩⟩
  rollbackTo {c d last first name point rest} h := by
    rw [h.some]
    change Answers Holds (rollbackTo name _) _ _
    unfold rollbackTo
    rw [find?_head]
    exact ⟨rfl, .of_some _ _ ⟨first, ⟨name, point⟩ :: rest⟩⟩

end Connection

end DataAccess.Storage
