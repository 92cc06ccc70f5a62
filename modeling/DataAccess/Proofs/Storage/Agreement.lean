import DataAccess.Storage.Store

/-!
This module contains when a store and its connection agree on whether a transaction is open. The store
counts what is opened and closed, but a statement that fails may undo the whole transaction of the
connection. Main statement: they agree all the time if and only if no statement does so.
-/

namespace DataAccess.Storage

namespace Connection

variable (s : Meaning δ stmt)

def origin (c : Connection δ) : Option δ :=
  c.transaction.bind fun t => if t.bySavepoint then none else some t.before

def Undoes (q : stmt) (c : Connection δ) : Prop :=
  c.transaction.isSome ∧
    (∃ f, (s.write q c.data).result = .error f) ∧ (s.write q c.data).undoesTransaction

variable {s} {c : Connection δ}

theorem origin_congr {c' : Connection δ} (h : c'.transaction = c.transaction)
    : c'.origin = c.origin := by
  unfold origin
  rw [h]

theorem isSome_of_origin (h : c.origin.isSome) : c.transaction.isSome := by
  unfold origin at h
  cases hc : c.transaction with
  | none => simp [hc] at h
  | some => rfl

theorem undo_of_none (h : c.transaction = none) : c.undo = c := by
  unfold undo
  rw [h]

@[simp]
theorem transaction_undo : c.undo.transaction = none := by
  unfold undo
  split
  . next h => exact h
  . rfl

theorem data_undo (h : c.origin = some d) : c.undo.data = d := by
  unfold origin at h
  unfold undo
  cases hc : c.transaction with
  | none => simp [hc] at h
  | some t =>
    simp only [hc, Option.bind_some, Option.ite_none_left_eq_some, Option.some.injEq] at h
    exact h.2

theorem origin_find? (h : c.find? name = some (t, point))
    : (if t.bySavepoint then none else some t.before) = c.origin := by
  unfold find? at h
  unfold origin
  cases hc : c.transaction with
  | none => simp [hc] at h
  | some opened =>
    simp only [hc, Option.bind_eq_bind, Option.bind_some] at h
    split at h
    . simp only [Option.pure_def, Option.some.injEq, Prod.mk.injEq] at h
      obtain ⟨rfl, _⟩ := h
      rfl
    . simp at h

@[simp]
theorem origin_savepoint (name : String) : (c.savepoint name).2.origin = c.origin := by
  unfold savepoint origin
  cases c.transaction with
  | none => rfl
  | some => rfl

@[simp]
theorem origin_release (name : String) : (c.release s name).2.origin = c.origin := by
  unfold release
  split
  . rfl
  . next t point hfound =>
    rw [← origin_find? hfound]
    dsimp only
    split
    . next hlast =>
      have hby : t.bySavepoint = true := by
        rw [Bool.and_eq_true] at hlast
        exact hlast.1
      -- The transaction is closed or stays as it is, and in both cases it has no origin.
      unfold close
      split
      . rw [origin_find? hfound]
      . rw [if_pos hby]
        rfl
    . rfl

@[simp]
theorem origin_rollbackTo (name : String) : (c.rollbackTo name).2.origin = c.origin := by
  unfold rollbackTo
  split
  . rfl
  . next hfound => exact origin_find? hfound

theorem transaction_write (q : stmt)
    : (¬c.Undoes s q → (c.write s q).2.2.transaction = c.transaction) ∧
        (c.Undoes s q → (c.write s q).2.2.transaction = none) := by
  obtain ⟨data, transaction, lastId⟩ := c
  unfold write Undoes
  dsimp only
  cases transaction with
  | none =>
    refine ⟨fun _ => ?_, by simp⟩
    cases s.check (s.write q data).data with
    | ok => cases (s.write q data).result <;> rfl
    | error => cases (s.write q data).result <;> rfl
  | some t =>
    cases hr : (s.write q data).result with
    | ok n => exact ⟨fun _ => rfl, by simp⟩
    | error f =>
      dsimp only
      split
      . next hundoes => exact ⟨fun h => absurd ⟨rfl, ⟨f, rfl⟩, hundoes⟩ h, fun _ => rfl⟩
      . next hundoes => exact ⟨fun _ => rfl, fun h => absurd h.2.2 hundoes⟩

theorem commit_cases (s : Meaning δ stmt) (c : Connection δ)
    : ((c.commit s).1 = .ok () ∧ (c.commit s).2.transaction = none) ∨
        ((c.commit s).1.isOk = false ∧ (c.commit s).2 = c) := by
  unfold commit
  split
  . exact Or.inr ⟨rfl, rfl⟩
  . unfold close
    split
    . exact Or.inr ⟨rfl, rfl⟩
    . exact Or.inl ⟨rfl, rfl⟩

theorem snd_rollback (c : Connection δ) : c.rollback.2 = c.undo := by
  unfold rollback
  split
  . next hnone => exact (undo_of_none hnone).symm
  . rfl

end Connection

namespace Store

variable (s : Meaning δ stmt) (thread : Nat) {st : Store (Connection δ)}

/-- Outside of transactions, the connection has none open. -/
def Settled (st : Store (Connection δ)) : Prop :=
  st.depth = 0 → st.connection.transaction = none

def Stands (st : Store (Connection δ)) : Prop :=
  0 < st.depth → st.connection.origin.isSome

def Agrees (st : Store (Connection δ)) : Prop :=
  0 < st.depth ↔ st.connection.transaction.isSome

theorem agrees_of_stands (hsettled : st.Settled) (hstands : st.Stands) : st.Agrees := by
  constructor
  . intro hdepth
    exact Connection.isSome_of_origin (hstands hdepth)
  . intro hopen
    apply Nat.pos_of_ne_zero
    intro hdepth
    simp [hsettled hdepth] at hopen

theorem openTransaction_outermost (hdepth : st.depth = 0) (hnone : st.connection.transaction = none)
    : st.openTransaction (Connection.link s) thread
        =
      (.ok (), ⟨{ st.connection with transaction := some ⟨st.connection.data, false, []⟩ }, 1,
        some thread, st.modified, []⟩) := by
  have hopened : (Connection.link s).openTransaction st.connection
      = (.ok (), { st.connection with transaction := some ⟨st.connection.data, false, []⟩ }) := by
    change Connection.openTransaction st.connection = _
    unfold Connection.openTransaction
    rw [hnone]
  unfold openTransaction
  rw [hdepth]
  dsimp only
  rw [hopened]
  rfl

theorem openTransaction_inside (hdepth : 0 < st.depth)
    : st.openTransaction (Connection.link s) thread
        =
      (.ok (), { st with
        connection := (st.connection.savepoint (savepointName st.depth)).2, depth := st.depth + 1 }) := by
  unfold openTransaction
  split
  . next hzero => omega
  . rfl

theorem closeOutermost_link (st : Store (Connection δ)) (success : Bool)
    : (st.closeOutermost (Connection.link s) success).2.depth = 0 ∧
        (st.closeOutermost (Connection.link s) success).2.connection.transaction = none ∧
        ((success && (st.closeOutermost (Connection.link s) success).1.isOk) = false →
          (st.closeOutermost (Connection.link s) success).2.connection = st.connection.undo) := by
  have hundone : st.connection.rollback.2.transaction = none := by
    rw [Connection.snd_rollback]
    exact Connection.transaction_undo
  unfold closeOutermost
  dsimp only [Connection.link]
  cases success with
  | false => exact ⟨rfl, hundone, fun _ => Connection.snd_rollback _⟩
  | true =>
    rcases hcommit : st.connection.commit s with ⟨r, c⟩
    have hcases := Connection.commit_cases s st.connection
    rw [hcommit] at hcases
    rcases hcases with ⟨hok, hnone⟩ | ⟨hfailed, hsame⟩
    . cases hok
      refine ⟨rfl, hnone, fun h => ?_⟩
      cases h
    . cases r with
      | ok => cases hfailed
      | error f =>
        cases hsame
        exact ⟨rfl, hundone, fun _ => Connection.snd_rollback _⟩

theorem closeTransaction_outermost (hdepth : st.depth = 1) (success : Bool)
    : st.closeTransaction (Connection.link s) success
        =
      st.closeOutermost (Connection.link s) success := by
  obtain ⟨connection, depth, owner, outside, modified⟩ := st
  cases hdepth
  rfl

theorem closeTransaction_inside (hdepth : 1 < st.depth) (success : Bool)
    : (st.closeTransaction (Connection.link s) success).2.depth + 1 = st.depth ∧
        (st.closeTransaction (Connection.link s) success).2.connection.origin
          = st.connection.origin := by
  have hinner (name : String) (c : Connection δ)
      : (closeInner (Connection.link s) success name c).2.origin = c.origin := by
    unfold closeInner
    dsimp only [Connection.link]
    cases success with
    | true => exact Connection.origin_release name
    | false =>
      have hback := Connection.origin_rollbackTo (c := c) name
      rcases hundone : c.rollbackTo name with ⟨_ | _, c'⟩
      all_goals rw [hundone] at hback
      . exact hback
      . exact (Connection.origin_release name).trans hback
  obtain ⟨connection, depth, owner, outside, modified⟩ := st
  match depth, hdepth with
  | depth + 2, _ => exact ⟨rfl, hinner _ connection⟩

end Store

inductive Call (stmt : Type) where
  | openTransaction
  | closeTransaction (success : Bool)
  | execute (q : stmt)

namespace Call

variable (s : Meaning δ stmt) (thread : Nat)

def run (st : Store (Connection δ)) : Call stmt → Store (Connection δ)
  | openTransaction => (st.openTransaction (Connection.link s) thread).2
  | closeTransaction success => (st.closeTransaction (Connection.link s) success).2
  | execute q => (st.execute (Connection.link s) q).2

def runAll (calls : List (Call stmt)) (st : Store (Connection δ)) : Store (Connection δ) :=
  calls.foldl (run s thread) st

def Undoes (st : Store (Connection δ)) : Call stmt → Prop
  | openTransaction | closeTransaction _ => False
  | execute q => st.connection.Undoes s q

/-- No call fails and undoes the open transaction. -/
def Contained : List (Call stmt) → Store (Connection δ) → Prop
  | [], _ => True
  | call :: rest, st => ¬call.Undoes s st ∧ Contained rest (call.run s thread st)

variable {st : Store (Connection δ)} {s thread}

theorem settled_run (h : st.Settled) (call : Call stmt) : (call.run s thread st).Settled := by
  cases call with
  | openTransaction =>
    change Store.Settled (st.openTransaction (Connection.link s) thread).2
    by_cases hdepth : st.depth = 0
    . rw [Store.openTransaction_outermost s thread hdepth (h hdepth)]
      intro hzero
      cases hzero
    . rw [Store.openTransaction_inside s thread (Nat.pos_of_ne_zero hdepth)]
      intro hzero
      cases hzero
  | closeTransaction success =>
    change Store.Settled (st.closeTransaction (Connection.link s) success).2
    intro hzero
    rcases Nat.lt_trichotomy st.depth 1 with hdepth | hdepth | hdepth
    . have hdepth : st.depth = 0 := Nat.lt_one_iff.1 hdepth
      unfold Store.closeTransaction
      simp only [hdepth]
      exact h hdepth
    . rw [Store.closeTransaction_outermost s hdepth]
      exact (Store.closeOutermost_link s st success).2.1
    . have hinner := (Store.closeTransaction_inside s hdepth success).1
      omega
  | execute q =>
    intro hzero
    have hnone : st.connection.transaction = none := h hzero
    have hkept : ¬st.connection.Undoes s q := by
      intro ⟨hopen, _⟩
      simp [hnone] at hopen
    exact ((Connection.transaction_write q).1 hkept).trans hnone

theorem stands_run (hsettled : st.Settled) (h : st.Stands) {call : Call stmt}
    (hcontained : ¬call.Undoes s st) : (call.run s thread st).Stands := by
  cases call with
  | openTransaction =>
    change Store.Stands (st.openTransaction (Connection.link s) thread).2
    by_cases hdepth : st.depth = 0
    . rw [Store.openTransaction_outermost s thread hdepth (hsettled hdepth)]
      exact fun _ => rfl
    . have hdepth : 0 < st.depth := Nat.pos_of_ne_zero hdepth
      rw [Store.openTransaction_inside s thread hdepth]
      intro _
      rw [Connection.origin_savepoint]
      exact h hdepth
  | closeTransaction success =>
    change Store.Stands (st.closeTransaction (Connection.link s) success).2
    intro hpos
    rcases Nat.lt_trichotomy st.depth 1 with hdepth | hdepth | hdepth
    . have hdepth : st.depth = 0 := Nat.lt_one_iff.1 hdepth
      unfold Store.closeTransaction at hpos
      simp [hdepth] at hpos
    . rw [Store.closeTransaction_outermost s hdepth, (Store.closeOutermost_link s st success).1] at hpos
      cases hpos
    . rw [(Store.closeTransaction_inside s hdepth success).2]
      exact h (by omega)
  | execute q =>
    intro hpos
    have hsame := (Connection.transaction_write (c := st.connection) q).1 hcontained
    exact (Connection.origin_congr hsame) ▸ h hpos

theorem not_agrees_run (hsettled : st.Settled) {call : Call stmt} (h : call.Undoes s st)
    : ¬(call.run s thread st).Agrees := by
  cases call with
  | openTransaction | closeTransaction _ => exact h.elim
  | execute q =>
    intro hagrees
    have hdepth : 0 < st.depth := by
      apply Nat.pos_of_ne_zero
      intro hzero
      have hopen := h.1
      simp [hsettled hzero] at hopen
    have hopen : (st.connection.write s q).2.2.transaction.isSome := hagrees.1 hdepth
    simp [(Connection.transaction_write q).2 h] at hopen

theorem settled_runAll (h : st.Settled) (calls : List (Call stmt))
    : (runAll s thread calls st).Settled := by
  induction calls generalizing st with
  | nil => exact h
  | cons call rest ih => exact ih (settled_run h call)

/-- A store and its connection agree all the time if and only if no statement undoes the transaction. -/
theorem agrees_iff_contained (hsettled : st.Settled) (hstands : st.Stands) (calls : List (Call stmt))
    : (∀ before, before <+: calls → (runAll s thread before st).Agrees)
        ↔
      Contained s thread calls st := by
  induction calls generalizing st with
  | nil =>
    have hagrees : st.Agrees := Store.agrees_of_stands hsettled hstands
    simp [Contained, runAll, hagrees]
  | cons call rest ih =>
    constructor
    . intro hagrees
      have hcontained : ¬call.Undoes s st := fun hundoes =>
        not_agrees_run hsettled hundoes (hagrees [call] (by simp))
      refine ⟨hcontained, ?_⟩
      apply (ih (settled_run hsettled call) (stands_run hsettled hstands hcontained)).1
      intro before hbefore
      exact hagrees (call :: before) (List.cons_prefix_cons.2 ⟨rfl, hbefore⟩)
    . rintro ⟨hcontained, hrest⟩ before hbefore
      cases before with
      | nil => exact Store.agrees_of_stands hsettled hstands
      | cons first before =>
        obtain ⟨rfl, hprefix⟩ := List.cons_prefix_cons.1 hbefore
        have hnext : (first.run s thread st).Stands := stands_run hsettled hstands hcontained
        exact (ih (settled_run hsettled first) hnext).2 hrest before hprefix

end Call

end DataAccess.Storage
