import DataAccess.Proofs.Cancellation.Handles
import Mathlib.Data.List.Basic
import Mathlib.Tactic.Tauto

/-!
This module contains what a cancellation does among handles whose actions cancel signals and further handles,
themselves included. Main statement: the steps of an action come to an end in one way, the handles that they spread
to are cancelled, and the actions of the armed ones among these are run once each.
-/

namespace DataAccess

namespace Cancellation

def Fresh (c : Cancellation) (n : Nat) : Prop :=
  ∃ action, c.handles[n]? = some ⟨false, action⟩

def action (c : Cancellation) (n : Nat) : List CancelStep :=
  (c.handles[n]?.map (·.action)).getD []

/-- A handle is not cancelled yet and has an action to run then. -/
def Armed (c : Cancellation) (n : Nat) : Prop :=
  c.Fresh n ∧ c.action n ≠ []

def Cancels (c : Cancellation) (steps : List CancelStep) (n : Nat) : Prop :=
  ∃ r, .handle r ∈ steps ∧ resolve c.handleNames r = some n

def Sets (c : Cancellation) (steps : List CancelStep) (n : Nat) : Prop :=
  ∃ r, .signal r ∈ steps ∧ resolve c.signalNames r = some n

/-- The smallest set of handles that contains the ones that some steps cancel and the ones that the actions of
its members cancel, unless they are cancelled already. -/
inductive Spread (c : Cancellation) (steps : List CancelStep) : Nat → Prop where
  | start (hcancels : c.Cancels steps m) (hfresh : c.Fresh m) : Spread c steps m
  | further (h : Spread c steps m) (hcancels : c.Cancels (c.action m) k) (hfresh : c.Fresh k) : Spread c steps k

/-- Steps are done one after the other, and each action that is run is done before the steps behind it. What is
found is the handles whose actions are run, in order, and the state at the end. -/
inductive Execution : Cancellation → List CancelStep → List Nat → Cancellation → Prop where
  | done : Execution c [] [] c
  | signal (h : Execution (c.setSignalRef r) rest ran c') : Execution c (.signal r :: rest) ran c'
  | count (h : Execution { c with runs := label :: c.runs } rest ran c') : Execution c (.count label :: rest) ran c'
  /-- There is no such handle, or it was cancelled before. -/
  | skip (hskip : ∀ n, resolve c.handleNames r = some n → ¬c.Fresh n) (h : Execution c rest ran c') :
    Execution c (.handle r :: rest) ran c'
  /-- The handle has been disarmed, or there is nothing in its action. -/
  | mark (hr : resolve c.handleNames r = some n) (hn : c.handles[n]? = some ⟨false, []⟩)
    (h : Execution (c.take n) rest ran c') : Execution c (.handle r :: rest) ran c'
  | run (hr : resolve c.handleNames r = some n) (hn : c.handles[n]? = some ⟨false, step :: steps⟩)
    (h : Execution (c.take n) (step :: steps ++ rest) ran c') : Execution c (.handle r :: rest) (n :: ran) c'

/-- What some steps come to: the handles that they spread to are cancelled, and the actions of the armed ones among
them have been done once each. -/
structure Spreading (c : Cancellation) (steps : List CancelStep) (ran : List Nat) (c' : Cancellation) : Prop where
  mem_iff : ∀ m, m ∈ ran ↔ c.Spread steps m ∧ c.Armed m
  nodup : ran.Nodup
  reached : ∀ m, c.Spread steps m → c'.handles[m]? = some ⟨true, []⟩
  unreached : ∀ m, ¬c.Spread steps m → c'.handles[m]? = c.handles[m]?
  isSet_iff : ∀ k, c'.isSet k = true ↔
    c.isSet k = true ∨ k < c.signals.length ∧ c.Sets (steps ++ ran.flatMap c.action) k
  count_runs : ∀ label, c'.runs.count label =
    (steps ++ ran.flatMap c.action).count (.count label) + c.runs.count label

variable {c c' : Cancellation} {r : CancelRef} {rest steps : List CancelStep} {ran : List Nat} {m n : Nat}

theorem handle?_eq_some_iff {h : CancelHandle}
    : c.handle? r = some (n, h) ↔ resolve c.handleNames r = some n ∧ c.handles[n]? = some h := by
  unfold handle?
  cases hr : resolve c.handleNames r with
  | none => simp
  | some k =>
    cases hk : c.handles[k]? with
    | none =>
      simp only [Option.bind_eq_bind, Option.bind_some, hk, Option.bind_none, reduceCtorEq, false_iff, not_and,
        Option.some.injEq]
      rintro rfl
      simp [hk]
    | some g =>
      simp only [Option.bind_eq_bind, Option.bind_some, hk, Option.pure_def, Option.some.injEq, Prod.mk.injEq]
      constructor
      . rintro ⟨rfl, rfl⟩
        exact ⟨rfl, hk⟩
      . rintro ⟨rfl, hg⟩
        exact ⟨rfl, Option.some.inj (hk.symm.trans hg)⟩

theorem Fresh.eq (h : c.Fresh n) : c.handles[n]? = some ⟨false, c.action n⟩ := by
  obtain ⟨action, hn⟩ := h
  rw [hn, Cancellation.action, hn]
  rfl

theorem Fresh.not_cancelled (h : c.Fresh n) : c.isCancelled n = false := by
  rw [isCancelled, h.eq]
  rfl

theorem action_of_eq {h : CancelHandle} (hn : c.handles[n]? = some h) : c.action n = h.action := by
  rw [action, hn]
  rfl

theorem getElem?_take_of_ne (hne : m ≠ n) : (c.take n).handles[m]? = c.handles[m]? :=
  List.getElem?_set_ne hne.symm

theorem action_take_of_ne (hne : m ≠ n) : (c.take n).action m = c.action m := by
  unfold action
  rw [getElem?_take_of_ne hne]

theorem fresh_take (hn : c.Fresh n) : (c.take n).Fresh m ↔ m ≠ n ∧ c.Fresh m := by
  by_cases hne : m = n
  . subst hne
    simp [Fresh, getElem?_take hn.eq]
  . simp [Fresh, getElem?_take_of_ne hne, hne]

theorem armed_take_of_ne (hn : c.Fresh n) (hne : m ≠ n) : (c.take n).Armed m ↔ c.Armed m := by
  unfold Armed
  rw [fresh_take hn, action_take_of_ne hne, and_iff_right hne]

theorem cancels_cons : c.Cancels (.handle r :: rest) m ↔ resolve c.handleNames r = some m ∨ c.Cancels rest m := by
  simp [Cancels, or_and_right, exists_or]

theorem cancels_append : c.Cancels (steps ++ rest) m ↔ c.Cancels steps m ∨ c.Cancels rest m := by
  simp [Cancels, or_and_right, exists_or]

namespace Spread

theorem fresh (h : c.Spread steps m) : c.Fresh m := by
  cases h with
  | start _ hfresh => exact hfresh
  | further _ _ hfresh => exact hfresh

theorem mono (h : c.Spread steps m) (hhandles : c'.handles = c.handles) (hnames : c'.handleNames = c.handleNames)
    (hsteps : ∀ k, c.Fresh k → c.Cancels steps k → c.Cancels rest k) : c'.Spread rest m := by
  have hfresh (k : Nat) : c'.Fresh k ↔ c.Fresh k := by unfold Fresh; rw [hhandles]
  have hcancels (steps : List CancelStep) (k : Nat) : c'.Cancels steps k ↔ c.Cancels steps k := by
    unfold Cancels; rw [hnames]
  have haction (k : Nat) : c'.action k = c.action k := by unfold action; rw [hhandles]
  induction h with
  | start hk hkfresh => exact .start ((hcancels ..).2 (hsteps _ hkfresh hk)) ((hfresh _).2 hkfresh)
  | further _ hk hkfresh ih => exact .further ih (by rwa [haction, hcancels]) ((hfresh _).2 hkfresh)

/-- What a handle's first cancellation spreads to is the handle itself and what its action and the steps behind it
spread to then. -/
theorem handle_iff (hr : resolve c.handleNames r = some n) (hn : c.Fresh n)
    : c.Spread (.handle r :: rest) m ↔ m = n ∨ (c.take n).Spread (c.action n ++ rest) m := by
  -- a handle other than the one taken is as before
  have hrest {k : Nat} (hk : c.Cancels (c.action n ++ rest) k) (hfresh : c.Fresh k)
      : k = n ∨ (c.take n).Spread (c.action n ++ rest) k := by
    by_cases hne : k = n
    . exact .inl hne
    . exact .inr (.start hk ((fresh_take hn).2 ⟨hne, hfresh⟩))
  constructor
  . intro h
    induction h with
    | start hcancels hfresh =>
      rw [cancels_cons, hr, Option.some.injEq] at hcancels
      obtain hk | hk := hcancels
      . exact .inl hk.symm
      . exact hrest (cancels_append.2 (.inr hk)) hfresh
    | @further m k _ hcancels hfresh ih =>
      obtain rfl | ih := ih
      . exact hrest (cancels_append.2 (.inl hcancels)) hfresh
      . by_cases hne : k = n
        . exact .inl hne
        . rw [← action_take_of_ne ((fresh_take hn).1 ih.fresh).1] at hcancels
          exact .inr (.further ih hcancels ((fresh_take hn).2 ⟨hne, hfresh⟩))
  . have hself : c.Spread (.handle r :: rest) n := .start (cancels_cons.2 (.inl hr)) hn
    rintro (rfl | h)
    . exact hself
    . induction h with
      | start hcancels hfresh =>
        obtain hk | hk := cancels_append.1 hcancels
        . exact .further hself hk ((fresh_take hn).1 hfresh).2
        . exact .start (cancels_cons.2 (.inr hk)) ((fresh_take hn).1 hfresh).2
      | further h hcancels hfresh ih =>
        rw [action_take_of_ne ((fresh_take hn).1 h.fresh).1] at hcancels
        exact .further ih hcancels ((fresh_take hn).1 hfresh).2

theorem cons_iff_of_ne {step : CancelStep} (hstep : ∀ r, step ≠ .handle r) (hhandles : c'.handles = c.handles)
    (hnames : c'.handleNames = c.handleNames) : c.Spread (step :: rest) m ↔ c'.Spread rest m := by
  constructor
  . intro h
    refine h.mono hhandles hnames fun k _ hk => ?_
    obtain ⟨r, hr, hk⟩ := hk
    exact ⟨r, (List.mem_cons.1 hr).resolve_left fun h => hstep r h.symm, hk⟩
  . intro h
    refine h.mono hhandles.symm hnames.symm fun k _ hk => ?_
    obtain ⟨r, hr, hk⟩ := hk
    exact ⟨r, List.mem_cons_of_mem _ hr, hk⟩

theorem skip_iff (hskip : ∀ n, resolve c.handleNames r = some n → ¬c.Fresh n)
    : c.Spread (.handle r :: rest) m ↔ c.Spread rest m := by
  constructor
  . intro h
    refine h.mono rfl rfl fun k hfresh hk => ?_
    exact (cancels_cons.1 hk).resolve_left fun hr => hskip k hr hfresh
  . intro h
    exact h.mono rfl rfl fun k _ hk => cancels_cons.2 (.inr hk)

theorem not_nil : ¬c.Spread [] m := by
  intro h
  induction h with
  | start hcancels => simp [Cancels] at hcancels
  | further _ _ _ ih => exact ih

end Spread

namespace Execution

theorem skip_iff (hskip : ∀ n, resolve c.handleNames r = some n → ¬c.Fresh n)
    : Execution c (.handle r :: rest) ran c' ↔ Execution c rest ran c' := by
  constructor
  . intro h
    cases h with
    | skip _ h => exact h
    | mark hr hn => exact absurd ⟨_, hn⟩ (hskip _ hr)
    | run hr hn => exact absurd ⟨_, hn⟩ (hskip _ hr)
  . exact skip hskip

theorem mark_iff (hr : resolve c.handleNames r = some n) (hn : c.handles[n]? = some ⟨false, []⟩)
    : Execution c (.handle r :: rest) ran c' ↔ Execution (c.take n) rest ran c' := by
  constructor
  . intro h
    cases h with
    | skip hskip => exact absurd ⟨_, hn⟩ (hskip n hr)
    | mark hr' _ h =>
      cases hr.symm.trans hr'
      exact h
    | run hr' hn' =>
      cases hr.symm.trans hr'
      cases hn.symm.trans hn'
  . exact mark hr hn

theorem run_iff {step : CancelStep} (hr : resolve c.handleNames r = some n)
    (hn : c.handles[n]? = some ⟨false, step :: steps⟩)
    : Execution c (.handle r :: rest) ran c' ↔
        ∃ more, ran = n :: more ∧ Execution (c.take n) (step :: steps ++ rest) more c' := by
  constructor
  . intro h
    cases h with
    | skip hskip => exact absurd ⟨_, hn⟩ (hskip n hr)
    | mark hr' hn' =>
      cases hr.symm.trans hr'
      cases hn.symm.trans hn'
    | run hr' hn' h =>
      cases hr.symm.trans hr'
      cases hn.symm.trans hn'
      exact ⟨_, rfl, h⟩
  . rintro ⟨more, rfl, h⟩
    exact run hr hn h

/-- Steps are done in one way, which comes to an end. -/
theorem exists_iff (c : Cancellation) (steps : List CancelStep)
    : ∃ ran, ∀ ran' c', Execution c steps ran' c' ↔ ran' = ran ∧ c' = c.run steps := by
  fun_induction Cancellation.run c steps with
  | case1 c =>
    refine ⟨[], fun ran' c' => ⟨fun h => ?_, ?_⟩⟩
    . cases h with
      | done => exact ⟨rfl, rfl⟩
    . rintro ⟨rfl, rfl⟩
      exact .done
  | case2 c r rest ih =>
    obtain ⟨ran, ih⟩ := ih
    refine ⟨ran, fun ran' c' => .trans ⟨fun h => ?_, .signal⟩ (ih ran' c')⟩
    cases h with
    | signal h => exact h
  | case3 c label rest ih =>
    obtain ⟨ran, ih⟩ := ih
    refine ⟨ran, fun ran' c' => .trans ⟨fun h => ?_, .count⟩ (ih ran' c')⟩
    cases h with
    | count h => exact h
  | case4 c r rest hmissing ih =>
    obtain ⟨ran, ih⟩ := ih
    refine ⟨ran, fun ran' c' => (skip_iff fun n hr hn => ?_).trans (ih ran' c')⟩
    have hfound := handle?_eq_some_iff.2 ⟨hr, hn.eq⟩
    cases hmissing.symm.trans hfound
  | case5 c r rest n h hfound hcancelled ih =>
    obtain ⟨ran, ih⟩ := ih
    refine ⟨ran, fun ran' c' => (skip_iff fun m hr hm => ?_).trans (ih ran' c')⟩
    have hfound' := handle?_eq_some_iff.2 ⟨hr, hm.eq⟩
    cases hfound.symm.trans hfound'
    cases hcancelled
  | case6 c r rest n h hfound hfresh ih =>
    obtain ⟨ran, ih⟩ := ih
    obtain ⟨hr, hn⟩ := handle?_eq_some_iff.1 hfound
    obtain ⟨cancelled, action⟩ := h
    cases Bool.eq_false_iff.2 hfresh
    cases action with
    | nil => exact ⟨ran, fun ran' c' => (mark_iff hr hn).trans (ih ran' c')⟩
    | cons step steps =>
      refine ⟨n :: ran, fun ran' c' => (run_iff hr hn).trans ?_⟩
      simp only [List.cons_append] at ih ⊢
      simp [ih]

end Execution

theorem exists_setSignalRef_eq (c : Cancellation) (r : CancelRef)
    : ∃ signals, c.setSignalRef r = { c with signals } ∧ signals.length = c.signals.length := by
  unfold setSignalRef
  split
  . exact ⟨_, rfl, List.length_set ..⟩
  . exact ⟨_, rfl, rfl⟩

theorem isSet_setSignalRef_iff (c : Cancellation) (r : CancelRef) (k : Nat)
    : (c.setSignalRef r).isSet k = true ↔
        c.isSet k = true ∨ k < c.signals.length ∧ resolve c.signalNames r = some k := by
  unfold setSignalRef
  cases hr : resolve c.signalNames r with
  | none => simp
  | some m =>
    simp only [isSet_setSignal_iff, Option.some.injEq]
    tauto

theorem sets_cons_iff {k : Nat}
    : c.Sets (.signal r :: rest) k ↔ resolve c.signalNames r = some k ∨ c.Sets rest k := by
  simp [Sets, or_and_right, exists_or]

theorem sets_cons_of_ne (step : CancelStep) (hstep : ∀ r, step ≠ .signal r) {k : Nat}
    : c.Sets (step :: rest) k ↔ c.Sets rest k := by
  simp [Sets, fun r => (hstep r).symm]

theorem count_cons_of_ne (step : CancelStep) (hstep : ∀ label, step ≠ .count label) (label : String)
    : (step :: rest).count (.count label) = rest.count (.count label) :=
  List.count_cons_of_ne (hstep label)

namespace Spreading

theorem done : c.Spreading [] [] c where
  mem_iff m := by simp [Spread.not_nil]
  nodup := .nil
  reached m h := absurd h Spread.not_nil
  unreached m _ := rfl
  isSet_iff k := by simp [Sets]
  count_runs label := by simp

theorem signal (h : (c.setSignalRef r).Spreading rest ran c') : c.Spreading (.signal r :: rest) ran c' := by
  obtain ⟨signals, hsame, hlength⟩ := c.exists_setSignalRef_eq r
  have hset := c.isSet_setSignalRef_iff r
  rw [hsame] at h hset
  have hspread (m : Nat) : c.Spread (.signal r :: rest) m ↔ Spread { c with signals } rest m :=
    Spread.cons_iff_of_ne nofun rfl rfl
  exact {
    mem_iff := fun m => by rw [h.mem_iff, hspread]; rfl
    nodup := h.nodup
    reached := fun m hm => h.reached m ((hspread m).1 hm)
    unreached := fun m hm => h.unreached m fun hm' => hm ((hspread m).2 hm')
    isSet_iff := fun k => by
      rw [h.isSet_iff, hset, hlength, List.cons_append, sets_cons_iff, and_or_left, or_assoc]
      rfl
    count_runs := fun label => by
      rw [h.count_runs, List.cons_append, count_cons_of_ne (.signal r) nofun]
      rfl }

theorem count {label : String} (h : Spreading { c with runs := label :: c.runs } rest ran c')
    : c.Spreading (.count label :: rest) ran c' := by
  have hspread (m : Nat) : c.Spread (.count label :: rest) m ↔ Spread { c with runs := label :: c.runs } rest m :=
    Spread.cons_iff_of_ne nofun rfl rfl
  exact {
    mem_iff := fun m => by rw [h.mem_iff, hspread]; rfl
    nodup := h.nodup
    reached := fun m hm => h.reached m ((hspread m).1 hm)
    unreached := fun m hm => h.unreached m fun hm' => hm ((hspread m).2 hm')
    isSet_iff := fun k => by
      rw [h.isSet_iff, List.cons_append, sets_cons_of_ne (.count label) nofun]
      rfl
    count_runs := fun other => by
      have hlabel : (CancelStep.count label == .count other) = (label == other) := by
        rw [Bool.eq_iff_iff]
        simp
      rw [h.count_runs, List.cons_append, List.count_cons, List.count_cons, hlabel, Nat.add_assoc,
        Nat.add_comm (ite ..)]
      rfl }

theorem skip (hskip : ∀ n, resolve c.handleNames r = some n → ¬c.Fresh n) (h : c.Spreading rest ran c')
    : c.Spreading (.handle r :: rest) ran c' where
  mem_iff m := by rw [h.mem_iff, Spread.skip_iff hskip]
  nodup := h.nodup
  reached m hm := h.reached m ((Spread.skip_iff hskip).1 hm)
  unreached m hm := h.unreached m fun hm' => hm ((Spread.skip_iff hskip).2 hm')
  isSet_iff k := by rw [h.isSet_iff, List.cons_append, sets_cons_of_ne (.handle r) nofun]
  count_runs label := by rw [h.count_runs, List.cons_append, count_cons_of_ne (.handle r) nofun]

theorem first {action : List CancelStep} (hr : resolve c.handleNames r = some n)
    (hfound : c.handles[n]? = some ⟨false, action⟩) (h : (c.take n).Spreading (action ++ rest) ran c')
    : c.Spreading (.handle r :: rest) (if action = [] then ran else n :: ran) c' := by
  have hn : c.Fresh n := ⟨action, hfound⟩
  obtain rfl : c.action n = action := action_of_eq hfound
  have hspread (m : Nat) : c.Spread (.handle r :: rest) m ↔ m = n ∨ (c.take n).Spread (c.action n ++ rest) m :=
    Spread.handle_iff hr hn
  have hself : ¬(c.take n).Spread (c.action n ++ rest) n := fun hn' => ((fresh_take hn).1 hn'.fresh).1 rfl
  have hne {m : Nat} (hm : (c.take n).Spread (c.action n ++ rest) m) : m ≠ n := ((fresh_take hn).1 hm.fresh).1
  have hran {m : Nat} (hm : m ∈ ran) : m ≠ n := hne ((h.mem_iff m).1 hm).1
  have hactions : (if c.action n = [] then ran else n :: ran).flatMap c.action =
      c.action n ++ ran.flatMap (c.take n).action := by
    have hkept : ran.flatMap (c.take n).action = ran.flatMap c.action :=
      List.flatMap_congr fun m hm => action_take_of_ne (hran hm)
    rw [hkept]
    split
    . next haction => rw [haction, List.nil_append]
    . rw [List.flatMap_cons]
  have hperm : (rest ++ (c.action n ++ ran.flatMap (c.take n).action)).Perm
      (c.action n ++ rest ++ ran.flatMap (c.take n).action) := by
    rw [← List.append_assoc]
    exact List.perm_append_comm.append_right _
  exact {
    mem_iff := fun m => by
      have hmem : m ∈ (if c.action n = [] then ran else n :: ran) ↔ m ∈ ran ∨ m = n ∧ c.Armed n := by
        split
        . next haction => simp [Armed, haction]
        . next haction => simp [Armed, haction, hn, or_comm]
      rw [hmem, hspread, h.mem_iff]
      by_cases hmn : m = n
      . subst hmn
        simp [hself]
      . simp [hmn, armed_take_of_ne hn hmn]
    nodup := by
      split
      . exact h.nodup
      . exact List.nodup_cons.2 ⟨fun hn' => hran hn' rfl, h.nodup⟩
    reached := fun m hm => by
      obtain rfl | hm := (hspread m).1 hm
      . exact (h.unreached m hself).trans (getElem?_take hn.eq)
      . exact h.reached m hm
    unreached := fun m hm => by
      rw [hspread, not_or] at hm
      exact (h.unreached m hm.2).trans (getElem?_take_of_ne hm.1)
    isSet_iff := fun k => by
      rw [h.isSet_iff, List.cons_append, sets_cons_of_ne (.handle r) nofun, hactions]
      unfold Sets
      simp only [hperm.mem_iff]
      rfl
    count_runs := fun label => by
      rw [h.count_runs, List.cons_append, count_cons_of_ne (.handle r) nofun, hactions, hperm.count_eq]
      rfl }

end Spreading

theorem Execution.spreading (h : Execution c steps ran c') : c.Spreading steps ran c' := by
  induction h with
  | done => exact .done
  | signal _ ih => exact ih.signal
  | count _ ih => exact ih.count
  | skip hskip _ ih => exact ih.skip hskip
  | mark hr hn _ ih => exact ih.first hr hn
  | run hr hn _ ih => exact ih.first hr hn

end Cancellation

end DataAccess
