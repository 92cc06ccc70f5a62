import DataAccess.Proofs.Storage.Noting

/-!
This module contains what holds between any two steps of threads: the books of the store agree with what
happened so far.
-/

namespace DataAccess.Storage

def Phase.carried : Phase → List String
  | .handing tables => tables
  | _ => []

def Store.safe (st : Store κ) : NameSet :=
  if st.depth = 0 then st.modified else st.outside

theorem Store.mem_safe_settled {st : Store κ} (h : st.depth = 0) {x : String}
    : x ∈ st.safe ↔ x ∈ st.modified := by
  rw [safe, if_pos h]

theorem Store.mem_safe_open {st : Store κ} (h : st.depth ≠ 0) {x : String}
    : x ∈ st.safe ↔ x ∈ st.outside := by
  rw [safe, if_neg h]

namespace Threads

open Occurrence

def Carried (s : Threads κ) (x : String) : Prop :=
  ∃ thread, x ∈ (s.phase thread).carried

structure Inv (s : Threads κ) : Prop where
  owner : s.store.owner.isSome = true ↔ 0 < s.store.depth
  outside : s.store.depth = 0 → s.store.outside = []
  taking : ∀ thread, s.phase thread = .taking → s.store.inTransaction thread = false
  settled : s.store.depth = 0 → ∀ x, ¬Pending x s.past
  pending : 0 < s.store.depth → ∀ x, x ∈ s.store.modified ↔ Pending x s.past
  owed : ∀ x, Owed x s.past → x ∈ s.store.safe ∨ s.Carried x
  safe : ∀ x ∈ s.store.safe, Kept x s.past
  carried : ∀ x, s.Carried x → Kept x s.past
  handed : ∀ newer thread tables older, s.past = newer ++ .handed thread tables :: older →
    ∀ x ∈ tables, Kept x older

variable {s : Threads κ} {thread : Nat}

theorem carried_enter {phase : Phase} {x : String}
    : (s.enter thread phase).Carried x ↔
        x ∈ phase.carried ∨ ∃ other, other ≠ thread ∧ x ∈ (s.phase other).carried := by
  unfold Carried enter
  constructor
  . rintro ⟨other, hx⟩
    by_cases hother : other = thread
    . subst hother
      simp at hx
      exact Or.inl hx
    . simp [hother] at hx
      exact Or.inr ⟨other, hother, hx⟩
  . rintro (hx | ⟨other, hother, hx⟩)
    . exact ⟨thread, by simpa using hx⟩
    . exact ⟨other, by simpa [hother] using hx⟩

theorem handed_cons {o : Occurrence} {past : List Occurrence}
    (h : ∀ newer thread tables older, past = newer ++ .handed thread tables :: older →
      ∀ x ∈ tables, Kept x older)
    (ho : ∀ thread tables, o = .handed thread tables → ∀ x ∈ tables, Kept x past)
    : ∀ newer thread tables older, o :: past = newer ++ .handed thread tables :: older →
        ∀ x ∈ tables, Kept x older := by
  intro newer thread tables older hpast
  cases newer with
  | nil =>
    cases hpast
    exact ho thread tables rfl
  | cons first newer =>
    cases hpast
    exact h newer thread tables older rfl

namespace Inv

theorem fresh (connection : κ) (tracker : Tracker) : Inv (fresh connection tracker) where
  owner := by simp [Threads.fresh, Store.new]
  outside _ := rfl
  taking := by
    intro thread h
    cases h
  settled _ _ := id
  pending := by simp [Threads.fresh, Store.new]
  owed _ h := h.elim
  safe := by simp [Threads.fresh, Store.new, Store.safe]
  carried := by simp [Carried, Threads.fresh, Phase.carried]
  handed := by simp [Threads.fresh]

theorem congr (h : s.Inv) (connection : κ) (tracker : Tracker)
    : Inv { s with store := { s.store with connection }, tracker } :=
  ⟨h.owner, h.outside, h.taking, h.settled, h.pending, h.owed, h.safe, h.carried, h.handed⟩

/-- A thread may go on if it drops no table that is owed and carries none that is not kept. -/
theorem enter (h : s.Inv) {phase : Phase}
    (hbefore : ∀ x ∈ (s.phase thread).carried, ¬Owed x s.past)
    (hafter : ∀ x ∈ phase.carried, Kept x s.past)
    (htaking : phase = .taking → s.store.inTransaction thread = false)
    : (s.enter thread phase).Inv where
  owner := h.owner
  outside := h.outside
  taking := by
    intro other hother
    unfold Threads.enter at hother
    by_cases heq : other = thread
    . subst heq
      exact htaking (by simpa using hother)
    . exact h.taking other (by simpa [heq] using hother)
  settled := h.settled
  pending := h.pending
  owed := by
    intro x hx
    rw [carried_enter]
    rcases h.owed x hx with hsafe | ⟨other, hcarried⟩
    . exact Or.inl hsafe
    . refine Or.inr (Or.inr ⟨other, ?_, hcarried⟩)
      rintro rfl
      exact hbefore x hcarried hx
  safe := h.safe
  carried := by
    intro x hx
    rcases carried_enter.1 hx with hx | ⟨other, _, hx⟩
    . exact hafter x hx
    . exact h.carried x ⟨other, hx⟩
  handed := h.handed

theorem inTransaction_eq (h : s.Inv) (hfree : s.store.waits thread = false)
    : s.store.inTransaction thread = decide (0 < s.store.depth) := by
  rcases Store.waits_eq_false_iff.1 hfree with hnone | hown
  . have hdepth : ¬0 < s.store.depth := by
      rw [← h.owner, hnone]
      simp
    simp [Store.inTransaction, hnone, hdepth]
  . have howner : s.store.owner = some thread := by simpa [Store.inTransaction] using hown
    have hdepth : 0 < s.store.depth := by
      rw [← h.owner, howner]
      rfl
    simp [hown, hdepth]

theorem depth_of_waits (h : s.Inv) (hwaits : s.store.waits thread = true) : 0 < s.store.depth := by
  rw [← h.owner]
  unfold Store.waits at hwaits
  cases howner : s.store.owner with
  | none => simp [howner] at hwaits
  | some => rfl

theorem notedOutside (h : s.Inv) (hopen : s.store.depth ≠ 0) (thread : Nat) (tables : List String)
    : Inv ({ s with store := { s.store with outside := s.store.outside.insertAll tables }
        }.remember (.wrote thread tables false)) where
  owner := h.owner
  outside hdepth := absurd hdepth hopen
  taking := h.taking
  settled hdepth := absurd hdepth hopen
  pending := by
    intro hdepth x
    have hpending := h.pending hdepth x
    simpa [remember, Pending] using hpending
  owed := by
    intro x hx
    rw [Store.mem_safe_open (by exact hopen)]
    simp only [remember, NameSet.mem_insertAll]
    rcases hx with ⟨_, hx⟩ | hx
    . exact Or.inl (Or.inl hx)
    . have howed := h.owed x hx
      rw [Store.mem_safe_open hopen] at howed
      exact howed.imp_left Or.inr
  safe := by
    intro x hx
    rw [Store.mem_safe_open (by exact hopen)] at hx
    simp only [remember, NameSet.mem_insertAll] at hx
    rcases hx with hx | hx
    . exact Kept.wrote hx s.past
    . apply Kept.cons
      apply h.safe
      rwa [Store.mem_safe_open hopen]
  carried x hx := (h.carried x hx).cons _
  handed := handed_cons h.handed (by simp)

theorem notedModified (h : s.Inv) (thread : Nat) (tables : List String)
    : Inv ({ s with store := { s.store with modified := s.store.modified.insertAll tables }
        }.remember (.wrote thread tables (decide (0 < s.store.depth)))) where
  owner := h.owner
  outside := h.outside
  taking := h.taking
  settled := by
    intro hdepth x hx
    have hdepth : s.store.depth = 0 := hdepth
    rcases hx with ⟨hopen, _⟩ | hx
    . simp [hdepth] at hopen
    . exact h.settled hdepth x hx
  pending := by
    intro hdepth x
    have hdepth : 0 < s.store.depth := hdepth
    simp [remember, Pending, NameSet.mem_insertAll, hdepth, h.pending hdepth]
  owed := by
    intro x hx
    by_cases hdepth : s.store.depth = 0
    . rw [Store.mem_safe_settled (by exact hdepth)]
      simp only [remember, NameSet.mem_insertAll]
      rcases hx with ⟨_, hx⟩ | hx
      . exact Or.inl (Or.inl hx)
      . have howed := h.owed x hx
        rw [Store.mem_safe_settled hdepth] at howed
        exact howed.imp_left Or.inr
    . rcases hx with ⟨hsettled, _⟩ | hx
      . simp only [decide_eq_false_iff_not] at hsettled
        omega
      . rw [Store.mem_safe_open (by exact hdepth)]
        have howed := h.owed x hx
        rwa [Store.mem_safe_open hdepth] at howed
  safe := by
    intro x hx
    by_cases hdepth : s.store.depth = 0
    . rw [Store.mem_safe_settled (by exact hdepth)] at hx
      simp only [remember, NameSet.mem_insertAll] at hx
      rcases hx with hx | hx
      . simpa [remember, hdepth] using Kept.wrote hx s.past
      . apply Kept.cons
        apply h.safe
        rwa [Store.mem_safe_settled hdepth]
    . rw [Store.mem_safe_open (by exact hdepth)] at hx
      exact (h.safe x ((Store.mem_safe_open hdepth).2 hx)).cons _
  carried x hx := (h.carried x hx).cons _
  handed := handed_cons h.handed (by simp)

theorem noted (h : s.Inv) (thread : Nat) (tables : List String)
    : Inv ({ s with store := s.store.recordModified thread tables }.remember
        (.wrote thread tables (s.store.inTransaction thread))) := by
  cases hwaits : s.store.waits thread with
  | true =>
    have hdepth := h.depth_of_waits hwaits
    have hinside : s.store.inTransaction thread = false := by
      cases howner : s.store.owner with
      | none => simp [Store.waits, howner] at hwaits
      | some => simpa [Store.waits, Store.inTransaction, howner] using hwaits
    have hnoted : s.store.recordModified thread tables
        = { s.store with outside := s.store.outside.insertAll tables } := by
      unfold Store.recordModified
      rw [if_pos hwaits]
    rw [hinside, hnoted]
    have hopen : s.store.depth ≠ 0 := by omega
    exact h.notedOutside hopen thread tables
  | false =>
    have hnoted : s.store.recordModified thread tables
        = { s.store with modified := s.store.modified.insertAll tables } := by
      unfold Store.recordModified
      rw [if_neg (by simp [hwaits])]
    rw [h.inTransaction_eq hwaits, hnoted]
    exact h.notedModified thread tables

theorem opened (h : s.Inv) (hidle : s.phase thread = .idle) (hdepth : s.store.depth = 0)
    : Inv { s with store := ⟨s.store.connection, 1, some thread, s.store.modified, []⟩ } where
  owner := by simp
  outside := by simp
  taking := by
    intro other hother
    have hne : other ≠ thread := by
      rintro rfl
      rw [hidle] at hother
      cases hother
    simpa [Store.inTransaction] using hne.symm
  settled := by simp
  pending := by
    intro _ x
    -- What was noted before is put aside, and the transaction has written nothing yet.
    simpa using h.settled hdepth x
  owed := by
    intro x hx
    have howed := h.owed x hx
    rwa [Store.mem_safe_settled hdepth] at howed
  safe := by
    intro x hx
    apply h.safe
    rwa [Store.mem_safe_settled hdepth]
  carried := h.carried
  handed := h.handed

theorem nested (h : s.Inv) (depth : Nat) (hdepth : depth = 0 ↔ s.store.depth = 0)
    : Inv { s with store := { s.store with depth } } where
  owner := by
    rw [h.owner]
    dsimp only
    omega
  outside hd := h.outside (hdepth.1 hd)
  taking := h.taking
  settled hd := h.settled (hdepth.1 hd)
  pending := by
    intro hd
    apply h.pending
    dsimp only at hd
    omega
  owed := by
    intro x hx
    have hsafe : ({ s.store with depth } : Store κ).safe = s.store.safe := by simp [Store.safe, hdepth]
    rw [hsafe]
    exact h.owed x hx
  safe := by
    intro x hx
    apply h.safe
    simpa [Store.safe, hdepth] using hx
  carried := h.carried
  handed := h.handed

theorem closed (h : s.Inv) (hdepth : s.store.depth = 1) (thread : Nat) (committed : Bool)
    : Inv ({ s with store := ⟨s.store.connection, 0, none, [],
          if committed then s.store.modified.insertAll s.store.outside else s.store.outside⟩
        }.remember (.closed thread committed)) where
  owner := by simp [remember]
  outside _ := rfl
  taking _ _ := rfl
  settled _ _ := id
  pending hopen := absurd hopen (Nat.lt_irrefl 0)
  owed := by
    intro x hx
    have hopen : s.store.depth ≠ 0 := by omega
    rw [Store.mem_safe_settled (by rfl)]
    -- What was put aside survives in either case, what the transaction wrote only if it is committed.
    have hsafe (hx : Owed x s.past) : x ∈ s.store.outside ∨ s.Carried x := by
      rw [← Store.mem_safe_open hopen]
      exact h.owed x hx
    cases committed with
    | false =>
      rcases hx with ⟨hfalse, _⟩ | hx
      . cases hfalse
      . exact hsafe hx
    | true =>
      simp only [remember, if_true, NameSet.mem_insertAll]
      rcases hx with ⟨_, hx⟩ | hx
      . exact Or.inl (Or.inr ((h.pending (by omega) x).2 hx))
      . exact (hsafe hx).imp_left Or.inl
  safe := by
    intro x hx
    have hopen : s.store.depth ≠ 0 := by omega
    rw [Store.mem_safe_settled (by rfl)] at hx
    have hkept (hx : x ∈ s.store.outside) : Kept x (.closed thread committed :: s.past) :=
      (h.safe x ((Store.mem_safe_open hopen).2 hx)).cons _
    cases committed with
    | false => exact hkept hx
    | true =>
      simp only [remember, if_true, NameSet.mem_insertAll] at hx
      rcases hx with hx | hx
      . exact hkept hx
      . exact ((h.pending (by omega) x).1 hx).kept
  carried x hx := (h.carried x hx).cons _
  handed := handed_cons h.handed (by simp)

theorem emptied (h : s.Inv) (hcarried : ∀ x ∈ s.store.safe, s.Carried x)
    : Inv { s with store :=
        if s.store.depth = 0 then { s.store with modified := [] }
        else { s.store with outside := [] } } := by
  have howed (x : String) (hx : Owed x s.past) : s.Carried x :=
    (h.owed x hx).elim (hcarried x) id
  split
  . next hdepth =>
    exact {
      owner := h.owner
      outside := h.outside
      taking := h.taking
      settled := h.settled
      pending := fun hopen => absurd hdepth (Nat.ne_of_gt hopen)
      owed := fun x hx => Or.inr (howed x hx)
      safe := by simp [Store.safe, hdepth]
      carried := h.carried
      handed := h.handed }
  . next hdepth =>
    exact {
      owner := h.owner
      outside := fun _ => rfl
      taking := h.taking
      settled := h.settled
      pending := h.pending
      owed := fun x hx => Or.inr (howed x hx)
      safe := by simp [Store.safe, hdepth]
      carried := h.carried
      handed := h.handed }

theorem takeModified_eq (h : s.Inv) (htaking : s.phase thread = .taking)
    : s.store.takeModified thread
        =
      (s.store.safe,
        if s.store.depth = 0 then { s.store with modified := [] }
        else { s.store with outside := [] }) := by
  unfold Store.takeModified Store.safe
  cases hwaits : s.store.waits thread with
  | true =>
    have hopen : s.store.depth ≠ 0 := by
      have := h.depth_of_waits hwaits
      omega
    simp [hopen]
  | false =>
    have hsettled : s.store.depth = 0 := by
      have := h.inTransaction_eq hwaits
      rw [h.taking thread htaking] at this
      simpa using this.symm
    simp [hsettled]

theorem carried_handing (tables : List String)
    : (if tables.isEmpty then Phase.idle else .handing tables).carried = tables := by
  cases tables with
  | nil => rfl
  | cons => rfl

theorem took (h : s.Inv) (htaking : s.phase thread = .taking)
    : Inv ({ s with store := (s.store.takeModified thread).2 }.enter thread
        (if (s.store.takeModified thread).1.isEmpty then .idle
          else .handing (s.store.takeModified thread).1)) := by
  rw [h.takeModified_eq htaking]
  have hentered : (s.enter thread
      (if s.store.safe.isEmpty then .idle else .handing s.store.safe)).Inv := by
    apply h.enter
    . rw [htaking]
      simp [Phase.carried]
    . rw [carried_handing]
      exact h.safe
    . split
      . simp
      . simp
  apply hentered.emptied
  intro x hx
  rw [carried_enter, carried_handing]
  exact Or.inl hx

theorem handedOver (h : s.Inv) {tables : List String} (hphase : s.phase thread = .handing tables)
    : Inv ((s.enter thread .idle).remember (.handed thread tables)) := by
  have hremembered : (s.remember (.handed thread tables)).Inv := {
    owner := h.owner
    outside := h.outside
    taking := h.taking
    settled := h.settled
    pending := h.pending
    owed := fun x hx => h.owed x hx.2
    safe := fun x hx => (h.safe x hx).cons _
    carried := fun x hx => (h.carried x hx).cons _
    handed := by
      apply handed_cons h.handed
      intro _ _ heq x hx
      cases heq
      refine h.carried x ⟨thread, ?_⟩
      rwa [hphase] }
  apply hremembered.enter
  . intro x hx howed
    change x ∈ (s.phase thread).carried at hx
    rw [hphase] at hx
    exact howed.1 hx
  . simp [Phase.carried]
  . simp

theorem rememberRan (h : s.Inv) (thread : Nat) (tables : List String) (inside : Bool)
    : (s.remember (.ran thread tables inside)).Inv where
  owner := h.owner
  outside := h.outside
  taking := h.taking
  settled := h.settled
  pending := h.pending
  owed := h.owed
  safe := fun x hx => (h.safe x hx).cons _
  carried := fun x hx => (h.carried x hx).cons _
  handed := handed_cons h.handed (by simp)

theorem carried_afterStatement (r : Except Fault α) (tables : List String)
    : (afterStatement r tables).carried = [] := by
  unfold afterStatement
  split
  . split
    . rfl
    . rfl
  . rfl

theorem afterwards (h : s.Inv) (hidle : s.phase thread = .idle)
    (hfree : s.store.waits thread = false) (connection : κ) (touched tables : List String)
    (r : Except Fault α)
    : Inv (s.afterwards thread touched tables r
        { s.store with connection, modified := s.store.modified.insertAll touched }) := by
  unfold Threads.afterwards
  rw [h.inTransaction_eq hfree]
  let store : Store κ :=
    { s.store with connection, modified := s.store.modified.insertAll touched }
  let noted := { s with store }.remember (.wrote thread touched (decide (0 < s.store.depth)))
  have hnoted : noted.Inv := (h.notedModified thread touched).congr connection s.tracker
  have hentered : (noted.enter thread (afterStatement r tables)).Inv := by
    apply hnoted.enter
    . intro x hx
      change x ∈ (s.phase thread).carried at hx
      rw [hidle] at hx
      cases hx
    . simp [carried_afterStatement]
    . intro htaking
      unfold afterStatement at htaking
      split at htaking
      . split at htaking
        . cases htaking
        . cases htaking
      . cases htaking
  split
  . exact hentered.rememberRan _ tables _
  . exact hentered

theorem start (h : s.Inv) (l : Link κ stmt) (hidle : s.phase thread = .idle)
    (hfree : s.store.waits thread = false) (r : Request stmt) : (s.start l thread r).Inv := by
  cases r with
  | execute q tables => exact h.afterwards hidle hfree _ _ tables (s.store.execute l q).1
  | insert q tables => exact h.afterwards hidle hfree _ _ tables (s.store.insert l q).1
  | begin =>
    change Inv { s with store := (s.store.openTransaction l thread).2 }
    obtain ⟨c, hsame | ⟨hdepth, hopened⟩ | ⟨hdepth, hnested⟩⟩ := s.store.openTransaction_cases l thread
    . rw [hsame]
      exact h.congr c s.tracker
    . rw [hopened]
      exact (h.opened hidle hdepth).congr c s.tracker
    . rw [hnested]
      exact (h.nested (s.store.depth + 1) (by omega)).congr c s.tracker
  | finish success =>
    let r := (s.store.closeTransaction l success).1
    let after (s : Threads κ) : Threads κ := s.enter thread (if r.isOk then .looking else .idle)
    have hafter {s' : Threads κ} (h : s'.Inv) (hphase : s'.phase thread = .idle) : (after s').Inv := by
      apply h.enter
      . simp [hphase, Phase.carried]
      . split
        . simp [Phase.carried]
        . simp [Phase.carried]
      . split
        . simp
        . simp
    change (if s.store.depth = 1 then
      (after { s with store := (s.store.closeTransaction l success).2 }).remember
        (.closed thread (success && r.isOk))
      else after { s with store := (s.store.closeTransaction l success).2 }).Inv
    obtain ⟨c, ⟨hdepth, hclosed⟩ | ⟨hdepth, hr, hclosed⟩ | ⟨hdepth, hr, hclosed⟩⟩ :=
      s.store.closeTransaction_cases l success
    . rw [if_neg hdepth, hclosed]
      exact hafter ((h.nested (s.store.depth - 1) (by omega)).congr c s.tracker) hidle
    . rw [if_pos hdepth, hr, hclosed]
      exact hafter ((h.closed hdepth thread true).congr c s.tracker) hidle
    . rw [if_pos hdepth, hr, hclosed]
      exact hafter ((h.closed hdepth thread false).congr c s.tracker) hidle

theorem advance (h : s.Inv) (thread : Nat) : (s.advance thread).Inv := by
  unfold Threads.advance
  split
  . exact h
  . next tables hphase =>
    apply (h.noted thread tables).enter
    . intro x hx
      change x ∈ (s.phase thread).carried at hx
      rw [hphase] at hx
      cases hx
    . simp [Phase.carried]
    . simp
  . next hphase =>
    apply h.enter
    . simp [hphase, Phase.carried]
    . split
      . simp [Phase.carried]
      . simp [Phase.carried]
    . split
      . simp
      . next hout => simpa using hout
  . next hphase => exact h.took hphase
  . next tables hphase => exact (h.handedOver hphase).congr s.store.connection _

end Inv

theorem inv_step {l : Link κ stmt} {s s' : Threads κ} (h : s.Inv) (hs : Step l s s') : s'.Inv := by
  cases hs with
  | start thread hidle hfree r => exact h.start l hidle hfree r
  | advance thread => exact h.advance thread
  | observe tracker => exact h.congr s.store.connection tracker

theorem inv_of_reachable {l : Link κ stmt} (h : Reachable l s) : s.Inv := by
  induction h with
  | fresh connection tracker => exact Inv.fresh connection tracker
  | step _ hs ih => exact inv_step ih hs

end Threads

end DataAccess.Storage
