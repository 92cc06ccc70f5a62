import DataAccess.Cancellation.Basic

/-!
This module contains what single handles and signals are after a cancellation. Main statement: to cancel a
handle once more changes nothing.
-/

namespace DataAccess

namespace Cancellation

variable {c : Cancellation} {n : Nat} {h : CancelHandle}

theorem isSet_setSignal_iff (c : Cancellation) (m n : Nat)
    : (c.setSignal m).isSet n = true ↔ (m = n ∧ n < c.signals.length) ∨ c.isSet n = true := by
  unfold setSignal isSet
  rw [List.getElem?_set]
  by_cases hmn : m = n
  . subst hmn
    by_cases hm : m < c.signals.length
    . simp [hm]
    . simp [hm]
  . simp [hmn]

theorem handle?_number (c : Cancellation) (n : Nat)
    : c.handle? (.number n) = (c.handles[n]?).map fun h => (n, h) := by
  unfold handle? resolve
  cases hn : c.handles[n]? with
  | none => simp [hn]
  | some h => simp [hn]

theorem cancel_of_none (hn : c.handles[n]? = none) : c.cancel n = c := by
  unfold cancel
  rw [run]
  split
  . rw [run]
  . next m g hfound =>
    rw [handle?_number, hn] at hfound
    cases hfound

theorem cancel_of_cancelled (hn : c.handles[n]? = some h) (hcancelled : h.cancelled = true)
    : c.cancel n = c := by
  unfold cancel
  rw [run]
  split
  . rw [run]
  . next m g hfound =>
    rw [handle?_number, hn] at hfound
    cases hfound
    rw [dif_pos hcancelled, run]

theorem cancel_of_fresh (hn : c.handles[n]? = some h) (hfresh : h.cancelled = false)
    : c.cancel n = (c.take n).run h.action := by
  unfold cancel
  rw [run]
  split
  . next hfound =>
    rw [handle?_number, hn] at hfound
    cases hfound
  . next m g hfound =>
    rw [handle?_number, hn] at hfound
    cases hfound
    rw [dif_neg (by simp [hfresh]), List.append_nil]

def mark (c : Cancellation) (handle : Nat) : Cancellation :=
  match c.handles[handle]? with
  | some h => { c with handles := c.handles.set handle { h with cancelled := true } }
  | none => c

theorem getElem?_mark (hn : c.handles[n]? = some h)
    : (c.mark n).handles[n]? = some ⟨true, h.action⟩ := by
  obtain ⟨hlt, _⟩ := List.getElem?_eq_some_iff.1 hn
  unfold mark
  rw [hn]
  exact List.getElem?_set_self hlt

theorem signals_mark (c : Cancellation) (n : Nat) : (c.mark n).signals = c.signals := by
  unfold mark
  split
  . rfl
  . rfl

theorem signals_disarm (c : Cancellation) (n : Nat) : (c.disarm n).signals = c.signals := by
  unfold disarm
  split
  . rfl
  . rfl

theorem isCancelled_eq (hn : c.handles[n]? = some h) : c.isCancelled n = h.cancelled := by
  unfold isCancelled
  rw [hn]
  rfl

theorem getElem?_take (hn : c.handles[n]? = some h) : (c.take n).handles[n]? = some ⟨true, []⟩ := by
  obtain ⟨hlt, _⟩ := List.getElem?_eq_some_iff.1 hn
  exact List.getElem?_set_self hlt

theorem getElem?_run (hn : c.handles[n]? = some h) (hcancelled : h.cancelled = true)
    (steps : List CancelStep) : (c.run steps).handles[n]? = some h := by
  fun_induction run c steps with
  | case1 => exact hn
  | case2 c r rest ih =>
    apply ih
    unfold setSignalRef
    split
    . exact hn
    . exact hn
  | case3 c label rest ih => exact ih hn
  | case4 c r rest _ ih => exact ih hn
  | case5 c r rest m g _ _ ih => exact ih hn
  | case6 c r rest m g hfound hfresh ih =>
    apply ih
    have hg := getElem_of_handle? hfound
    have hne : m ≠ n := by
      rintro rfl
      rw [hn] at hg
      cases hg
      exact hfresh hcancelled
    exact (List.getElem?_set_ne hne).trans hn

theorem cancel_cancel (c : Cancellation) (n : Nat) : (c.cancel n).cancel n = c.cancel n := by
  cases hn : c.handles[n]? with
  | none => rw [cancel_of_none hn, cancel_of_none hn]
  | some h =>
    cases hcancelled : h.cancelled with
    | true => rw [cancel_of_cancelled hn hcancelled, cancel_of_cancelled hn hcancelled]
    | false =>
      rw [cancel_of_fresh hn hcancelled]
      exact cancel_of_cancelled (getElem?_run (getElem?_take hn) rfl h.action) rfl

theorem signals_cancel (hn : c.handles[n]? = some h) (haction : h.action = [])
    : (c.cancel n).signals = c.signals := by
  cases hcancelled : h.cancelled with
  | true => rw [cancel_of_cancelled hn hcancelled]
  | false =>
    rw [cancel_of_fresh hn hcancelled, haction, run]
    rfl

theorem getElem?_cancel (hn : c.handles[n]? = some h) : ∃ action, (c.cancel n).handles[n]? =
    some ⟨true, action⟩ ∧ (h.action = [] → action = []) := by
  cases hcancelled : h.cancelled with
  | true =>
    rw [cancel_of_cancelled hn hcancelled, hn, ← hcancelled]
    exact ⟨h.action, rfl, id⟩
  | false =>
    rw [cancel_of_fresh hn hcancelled]
    exact ⟨[], getElem?_run (getElem?_take hn) rfl h.action, fun _ => rfl⟩

theorem isSome_cancel (h : (c.handles[n]?).isSome) : ((c.cancel n).handles[n]?).isSome := by
  obtain ⟨g, hg⟩ := Option.isSome_iff_exists.1 h
  obtain ⟨action, hcancelled, _⟩ := getElem?_cancel hg
  exact Option.isSome_iff_exists.2 ⟨_, hcancelled⟩

theorem cancel_armed {signal : Nat}
    (hn : c.handles[n]? = some ⟨false, [.signal (.number signal)]⟩)
    : c.cancel n = (c.take n).setSignal signal := by
  rw [cancel_of_fresh hn rfl, run, run]
  rfl

theorem getElem?_disarm (hn : c.handles[n]? = some h)
    : (c.disarm n).handles[n]? = some ⟨h.cancelled, []⟩ := by
  obtain ⟨hlt, _⟩ := List.getElem?_eq_some_iff.1 hn
  unfold disarm
  rw [hn]
  exact List.getElem?_set_self hlt

/-- To cancel for the first time is to mark the handle, to take its action and then to do it. -/
theorem cancel_eq_parts (hn : c.handles[n]? = some h) (hfresh : h.cancelled = false)
    : c.cancel n = ((c.mark n).disarm n).run h.action := by
  have htake : (c.mark n).disarm n = c.take n := by
    have hmarked := getElem?_mark hn
    unfold disarm
    rw [hmarked]
    unfold mark take
    rw [hn]
    simp
  rw [htake, cancel_of_fresh hn hfresh]

theorem exists_run (hn : c.handles[n]? = some h) (steps : List CancelStep)
    : ∃ g, (c.run steps).handles[n]? = some g ∧ (h.action = [] → g.action = []) := by
  fun_induction run c steps generalizing h with
  | case1 => exact ⟨h, hn, id⟩
  | case2 c r rest ih =>
    apply ih
    unfold setSignalRef
    split
    . exact hn
    . exact hn
  | case3 c label rest ih => exact ih hn
  | case4 c r rest _ ih => exact ih hn
  | case5 c r rest m g _ _ ih => exact ih hn
  | case6 c r rest m g hfound hfresh ih =>
    have hg := getElem_of_handle? hfound
    by_cases hmn : m = n
    . subst hmn
      obtain ⟨g', hg', haction⟩ := ih (getElem?_take hg)
      exact ⟨g', hg', fun _ => haction rfl⟩
    . exact ih ((List.getElem?_set_ne hmn).trans hn)

end Cancellation

end DataAccess
