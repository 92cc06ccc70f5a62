import DataAccess.Proofs.Database.Ledger
import DataAccess.Proofs.Storage.Confined
import DataAccess.Storage.Table

/-!
This module contains the ledger of a store that only one thread uses. Main statement: the store takes note
of what statements write exactly as a ledger does, whatever the connection answers.
-/

namespace DataAccess.Storage

namespace Store

variable (l : Link κ stmt) (st : Store κ) {thread : Nat}

def ledger : Ledger where
  depth := st.depth
  noted := { t | t ∈ st.modified }
  aside := { t | t ∈ st.outside }

theorem settled_new (connection : κ) : (Store.new connection).ledger.Settled := by
  constructor
  . intro _
    exact Set.eq_empty_of_forall_notMem fun _ => List.not_mem_nil
  . intro hpos
    exact absurd hpos (Nat.lt_irrefl 0)

theorem setOf_insertAll (names : List String) (set : NameSet)
    : { t | t ∈ set.insertAll names } = { t | t ∈ set } ∪ { t | t ∈ names } := by
  ext t
  exact (NameSet.mem_insertAll names set).trans or_comm

theorem ledger_insertAll (connection : κ) (tables : List String)
    : ledger { st with connection, modified := st.modified.insertAll tables }
        = st.ledger.note { t | t ∈ tables } := by
  unfold ledger Ledger.note
  dsimp only
  rw [setOf_insertAll]

variable {st}

theorem ledger_openTransaction (h : st.Tidy thread)
    : (st.openTransaction l thread).2.Tidy thread ∧
        (st.openTransaction l thread).2.ledger
          = if (st.openTransaction l thread).1.isOk then st.ledger.opened else st.ledger := by
  rcases Nat.eq_zero_or_pos st.depth with hdepth | hdepth
  . obtain ⟨r, c, hopened⟩ := st.openTransaction_free l hdepth thread
    rw [hopened]
    cases r with
    | error => exact ⟨h.congr rfl rfl rfl, rfl⟩
    | ok =>
      refine ⟨⟨fun hzero => absurd hzero Nat.one_ne_zero, fun _ => rfl⟩, ?_⟩
      have houtermost : st.ledger.opened = ⟨1, ∅, { t | t ∈ st.modified }⟩ := if_pos hdepth
      change ledger ⟨c, 1, some thread, st.modified, []⟩ = st.ledger.opened
      rw [houtermost]
      simp [ledger]
  . obtain ⟨r, c, hopened⟩ := st.openTransaction_busy l hdepth thread
    rw [hopened]
    cases r with
    | error => exact ⟨h.congr rfl rfl rfl, rfl⟩
    | ok =>
      refine ⟨⟨fun hzero => absurd hzero (Nat.succ_ne_zero _), fun _ => h.busy hdepth⟩, ?_⟩
      have hinner := Ledger.opened_inner (l := st.ledger) hdepth
      change _ = st.ledger.opened
      rw [hinner]
      rfl

theorem ledger_closeTransaction (h : st.Tidy thread) (success : Bool)
    : (st.closeTransaction l success).2.Tidy thread ∧
        (st.closeTransaction l success).2.ledger
          = st.ledger.closed (success && (st.closeTransaction l success).1.isOk) := by
  obtain ⟨c, ⟨hdepth, hclosed⟩ | ⟨hdepth, hkept, hclosed⟩ | ⟨hdepth, hdropped, hclosed⟩⟩ :=
    st.closeTransaction_cases l success
  . rw [hclosed, Ledger.closed_inner (l := st.ledger) hdepth]
    refine ⟨⟨fun hzero => h.free ?_, fun hpos => h.busy ?_⟩, rfl⟩
    . dsimp only at hzero
      omega
    . dsimp only at hpos
      omega
  . rw [hclosed, hkept, Ledger.closed_outermost (l := st.ledger) hdepth]
    refine ⟨⟨fun _ => ⟨rfl, rfl⟩, fun hpos => absurd hpos (Nat.lt_irrefl 0)⟩, ?_⟩
    simp [ledger, setOf_insertAll]
  . rw [hclosed, hdropped, Ledger.closed_outermost (l := st.ledger) hdepth]
    refine ⟨⟨fun _ => ⟨rfl, rfl⟩, fun hpos => absurd hpos (Nat.lt_irrefl 0)⟩, ?_⟩
    simp [ledger]

def bookkeeping (thread : Nat) : (Store.engine l thread).Bookkeeping where
  valid := Tidy thread
  ledger := ledger
  touched q st := { t | t ∈ (l.write q st.connection).2.1 }
  inTransaction {st} h := by
    change st.inTransaction thread = true ↔ 0 < st.depth
    rw [h.inTransaction_eq, decide_eq_true_iff]
  execute q {st} h := ⟨h.congr rfl rfl rfl, st.ledger_insertAll _ _⟩
  insert q {st} h := ⟨h.congr rfl rfl rfl, st.ledger_insertAll _ _⟩
  openTransaction := ledger_openTransaction l
  closeTransaction success {st} h :=
    have hclosed := ledger_closeTransaction l h success
    ⟨hclosed.1, Or.inl hclosed.2⟩
  recordModified tables {st} h := by
    change (st.recordModified thread tables).Tidy thread ∧ (st.recordModified thread tables).ledger = _
    unfold recordModified
    rw [h.waits_eq_false]
    exact ⟨h.congr rfl rfl rfl, st.ledger_insertAll st.connection tables⟩
  takeModified {st} h hdepth := by
    change (st.takeModified thread).2.Tidy thread ∧ (st.takeModified thread).2.ledger = _ ∧
      { t | t ∈ (st.takeModified thread).1 } = _
    unfold takeModified
    rw [h.waits_eq_false]
    refine ⟨h.congr rfl rfl rfl, ?_, rfl⟩
    simp [ledger]

theorem quiet_bookkeeping (thread : Nat)
    (h : ∀ q c, (l.write q c).1.isOk = false → (l.write q c).2.1 = [])
    : (bookkeeping l thread).Quiet := by
  have htouched (q : stmt) (st : Store κ) (hfailed : (l.write q st.connection).1.isOk = false)
      : (bookkeeping l thread).touched q st = ∅ := by
    change { t | t ∈ (l.write q st.connection).2.1 } = ∅
    rw [h q st.connection hfailed]
    simp
  refine ⟨fun q st _ hfailed => htouched q st hfailed, fun q st _ hfailed => htouched q st ?_⟩
  change ((l.write q st.connection).1.map _).isOk = false at hfailed
  cases hwrite : (l.write q st.connection).1 with
  | error => rfl
  | ok =>
    rw [hwrite] at hfailed
    cases hfailed

end Store

namespace Tables

def unchecked : Meaning Tables Command :=
  { meaning with check := fun _ => .ok () }

variable {d : Tables} {f : Fault}

theorem touched_settle {policy : ConflictPolicy} {found : Option Fault} {written : Effect Tables}
    (hwritten : written.result = .ok 1) (h : (d.settle policy found written).result = .error f)
    : (d.settle policy found written).touched = [] := by
  unfold settle at h ⊢
  split at h
  . rw [hwritten] at h
    cases h
  . rw [hwritten] at h
    cases h
  . rfl
  . rfl
  . rfl
  . rfl

theorem touched_write {q : Command} (h : (d.write q).result = .error f) : (d.write q).touched = [] := by
  cases q with
  | put table id v policy =>
    change (d.put table id v policy).result = _ at h
    change (d.put table id v policy).touched = _
    unfold put at h ⊢
    split at h
    . exact touched_settle rfl h
    . split at h
      . rfl
      . exact touched_settle rfl h
  | set table id v policy =>
    change (d.update table id v policy).result = _ at h
    change (d.update table id v policy).touched = _
    unfold update at h ⊢
    dsimp only at h ⊢
    split at h
    . rfl
    . exact touched_settle rfl h
  | delete table slots ids =>
    unfold write at h ⊢
    dsimp only at h ⊢
    split
    . rw [if_pos ‹_›] at h
      cases h
    . rfl
  | clear | rows | text => cases h
  | missing => rfl

theorem quiet_unchecked (thread : Nat)
    : (Store.bookkeeping (Connection.link unchecked) thread).Quiet := by
  apply Store.quiet_bookkeeping
  intro q c hfailed
  change (Connection.write unchecked q c).1.isOk = false at hfailed
  change (Connection.write unchecked q c).2.1 = []
  unfold Connection.write at hfailed ⊢
  dsimp only [unchecked, meaning] at hfailed ⊢
  cases hresult : (c.data.write q).result with
  | error =>
    have hnone := touched_write hresult
    cases c.transaction with
    | none => exact hnone
    | some => exact hnone
  | ok =>
    rw [hresult] at hfailed
    cases htransaction : c.transaction with
    | none =>
      rw [htransaction] at hfailed
      cases hfailed
    | some =>
      rw [htransaction] at hfailed
      cases hfailed

end Tables

end DataAccess.Storage
