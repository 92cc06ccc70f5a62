import DataAccess.Proofs.Cancellation.Spreading

/-!
This module contains what becomes of handles that are cancelled and disarmed any number of times, the latest act
first. Main statement: every cancellation comes to an end, and an action is run during the first cancellation of
its handle, if the handle was not disarmed before, and never again.
-/

namespace DataAccess

namespace Cancellation

inductive Act where
  | cancel (n : Nat)
  | disarm (n : Nat)
deriving DecidableEq

def Act.apply : Act → Cancellation → Cancellation
  | cancel n, c => c.cancel n
  | disarm n, c => c.disarm n

def after (c : Cancellation) (past : List Act) : Cancellation :=
  past.foldr Act.apply c

/-- Acts are done one after the other. What is found is the handles whose actions are run in all, and the state at
the end. -/
inductive Course (c₀ : Cancellation) : List Act → List Nat → Cancellation → Prop where
  | start : Course c₀ [] [] c₀
  | cancel (h : Course c₀ past log c) (hexecution : Execution c [.handle (.number n)] ran c') :
    Course c₀ (.cancel n :: past) (ran ++ log) c'
  | disarm (h : Course c₀ past log c) : Course c₀ (.disarm n :: past) log (c.disarm n)

variable {c c₀ c' : Cancellation} {past : List Act} {m n : Nat}

section

variable (h : c'.handles[m]? = c.handles[m]?)
include h

theorem fresh_congr : c'.Fresh m ↔ c.Fresh m := by
  unfold Fresh
  rw [h]

theorem action_congr : c'.action m = c.action m := by
  unfold action
  rw [h]

theorem armed_congr : c'.Armed m ↔ c.Armed m := by
  unfold Armed
  rw [fresh_congr h, action_congr h]

theorem isCancelled_congr : c'.isCancelled m = c.isCancelled m := by
  unfold isCancelled
  rw [h]

end

theorem isCancelled_of_eq {h : CancelHandle} (hm : c.handles[m]? = some h) : c.isCancelled m = h.cancelled := by
  rw [isCancelled, hm]
  rfl

theorem not_fresh_of_isCancelled (h : c.isCancelled m = true) : ¬c.Fresh m :=
  fun hfresh => Bool.eq_false_iff.1 hfresh.not_cancelled h

theorem spreading_cancel (c : Cancellation) (n : Nat)
    : ∃ ran, (∀ ran' c', Execution c [.handle (.number n)] ran' c' ↔ ran' = ran ∧ c' = c.cancel n) ∧
        c.Spreading [.handle (.number n)] ran (c.cancel n) := by
  obtain ⟨ran, hran⟩ := Execution.exists_iff c [.handle (.number n)]
  exact ⟨ran, hran, ((hran ran _).2 ⟨rfl, rfl⟩).spreading⟩

theorem getElem?_disarm_self (c : Cancellation) (n : Nat)
    : (c.disarm n).handles[n]? = c.handles[n]?.map fun h => { h with action := [] } := by
  cases hn : c.handles[n]? with
  | none =>
    unfold disarm
    rw [hn]
    exact hn
  | some h => exact getElem?_disarm hn

theorem getElem?_disarm_of_ne (hne : m ≠ n) : (c.disarm n).handles[m]? = c.handles[m]? := by
  unfold disarm
  split
  . exact List.getElem?_set_ne hne.symm
  . rfl

theorem isCancelled_disarm_self (c : Cancellation) (n : Nat) : (c.disarm n).isCancelled n = c.isCancelled n := by
  unfold isCancelled
  rw [getElem?_disarm_self, Option.map_map]
  rfl

theorem action_disarm_self (c : Cancellation) (n : Nat) : (c.disarm n).action n = [] := by
  unfold action
  rw [getElem?_disarm_self]
  cases c.handles[n]? with
  | none => rfl
  | some h => rfl

theorem getElem?_apply (a : Act) (c : Cancellation) (m : Nat)
    : a ≠ .disarm m ∧ (a.apply c).handles[m]? = c.handles[m]? ∨
        c.Fresh m ∧ (a.apply c).handles[m]? = some ⟨true, []⟩ ∨ a = .disarm m := by
  cases a with
  | cancel n =>
    obtain ⟨ran, _, h⟩ := c.spreading_cancel n
    by_cases hm : c.Spread [.handle (.number n)] m
    . exact .inr (.inl ⟨hm.fresh, h.reached m hm⟩)
    . exact .inl ⟨nofun, h.unreached m hm⟩
  | disarm n =>
    by_cases hne : m = n
    . exact .inr (.inr (hne ▸ rfl))
    . exact .inl ⟨fun h => hne (Act.disarm.inj h).symm, getElem?_disarm_of_ne hne⟩

theorem isCancelled_apply (a : Act) (h : c.isCancelled m = true) : (a.apply c).isCancelled m = true := by
  obtain ⟨_, hm⟩ | ⟨_, hm⟩ | rfl := getElem?_apply a c m
  . rwa [isCancelled_congr hm]
  . exact isCancelled_of_eq hm
  . exact (c.isCancelled_disarm_self m).trans h

theorem action_apply (a : Act) (h : c.action m = []) : (a.apply c).action m = [] := by
  obtain ⟨_, hm⟩ | ⟨_, hm⟩ | rfl := getElem?_apply a c m
  . rwa [action_congr hm]
  . exact action_of_eq hm
  . exact c.action_disarm_self m

theorem armed_apply_iff (a : Act) (c : Cancellation) (m : Nat)
    : (a.apply c).Armed m ↔ c.Armed m ∧ (a.apply c).isCancelled m = false ∧ a ≠ .disarm m := by
  obtain ⟨ha, hm⟩ | ⟨_, hm⟩ | rfl := getElem?_apply a c m
  . rw [armed_congr hm, isCancelled_congr hm]
    exact ⟨fun h => ⟨h, h.1.not_cancelled, ha⟩, And.left⟩
  . have hcancelled : (a.apply c).isCancelled m = true := isCancelled_of_eq hm
    constructor
    . intro h
      exact absurd h.1 (not_fresh_of_isCancelled hcancelled)
    . rintro ⟨_, hopen, _⟩
      exact absurd hcancelled (Bool.eq_false_iff.1 hopen)
  . constructor
    . intro h
      exact absurd (c.action_disarm_self m) h.2
    . rintro ⟨_, _, hne⟩
      exact absurd rfl hne

theorem action_apply_of_armed {a : Act} (h : (a.apply c).Armed m) : (a.apply c).action m = c.action m := by
  obtain ⟨_, hm⟩ | ⟨_, hm⟩ | rfl := getElem?_apply a c m
  . exact action_congr hm
  . exact absurd (action_of_eq hm) h.2
  . exact absurd (c.action_disarm_self m) h.2

theorem fresh_of_apply {a : Act} (h : (a.apply c).Fresh m) : c.Fresh m := by
  obtain ⟨_, hm⟩ | ⟨hfresh, _⟩ | rfl := getElem?_apply a c m
  . rwa [← fresh_congr hm]
  . exact hfresh
  . obtain ⟨⟨cancelled, action⟩, hm, hsame⟩ := Option.map_eq_some_iff.1 ((c.getElem?_disarm_self m).symm.trans h.eq)
    obtain rfl : cancelled = false := congrArg CancelHandle.cancelled hsame
    exact ⟨action, hm⟩

theorem isCancelled_after (newer : List Act) (h : (c₀.after past).isCancelled m = true)
    : (c₀.after (newer ++ past)).isCancelled m = true := by
  induction newer with
  | nil => exact h
  | cons a newer ih => exact isCancelled_apply a ih

theorem armed_after_iff (c₀ : Cancellation) (past : List Act) (m : Nat)
    : (c₀.after past).Armed m ↔
        c₀.Armed m ∧ (c₀.after past).isCancelled m = false ∧ .disarm m ∉ past := by
  induction past with
  | nil => exact ⟨fun h => ⟨h, h.1.not_cancelled, List.not_mem_nil⟩, And.left⟩
  | cons a past ih =>
    have hopen (h : (c₀.after (a :: past)).isCancelled m = false) : (c₀.after past).isCancelled m = false :=
      Bool.eq_false_iff.2 fun hcancelled => Bool.eq_false_iff.1 h (isCancelled_apply a hcancelled)
    refine (armed_apply_iff a (c₀.after past) m).trans ?_
    rw [ih, List.mem_cons, not_or]
    constructor
    . rintro ⟨⟨harmed, _, hpast⟩, hlast, ha⟩
      exact ⟨harmed, hlast, ha.symm, hpast⟩
    . rintro ⟨harmed, hlast, ha, hpast⟩
      exact ⟨⟨harmed, hopen hlast, hpast⟩, hlast, Ne.symm ha⟩

theorem action_after_of_armed (h : (c₀.after past).Armed m) : (c₀.after past).action m = c₀.action m := by
  induction past with
  | nil => rfl
  | cons a past ih => exact (action_apply_of_armed h).trans (ih ((armed_apply_iff a _ m).1 h).1)

theorem action_after_of_disarmed (h : .disarm m ∈ past) : (c₀.after past).action m = [] := by
  induction past with
  | nil => cases h
  | cons a past ih =>
    obtain rfl | h := List.mem_cons.1 h
    . exact action_disarm_self _ m
    . exact action_apply a (ih h)

theorem not_fresh_cancel (c : Cancellation) (n : Nat) : ¬(c.cancel n).Fresh n := by
  intro hfresh
  obtain ⟨ran, _, h⟩ := c.spreading_cancel n
  obtain ⟨_, hn⟩ | ⟨_, hn⟩ | hn := getElem?_apply (.cancel n) c n
  . have hspread : c.Spread [.handle (.number n)] n := .start (cancels_cons.2 (.inl rfl)) ((fresh_congr hn).1 hfresh)
    exact not_fresh_of_isCancelled (isCancelled_of_eq (h.reached n hspread)) hfresh
  . exact not_fresh_of_isCancelled (isCancelled_of_eq hn) hfresh
  . cases hn

theorem not_fresh_after (h : .cancel m ∈ past) : ¬(c₀.after past).Fresh m := by
  induction past with
  | nil => cases h
  | cons a past ih =>
    obtain rfl | h := List.mem_cons.1 h
    . exact not_fresh_cancel _ m
    . exact fun hfresh => ih h (fresh_of_apply hfresh)

theorem take_of_not_fresh (hfresh : ¬c.Fresh n) (haction : c.action n = []) : c.take n = c := by
  unfold take
  cases hn : c.handles[n]? with
  | none => rw [List.set_eq_of_length_le (List.getElem?_eq_none_iff.1 hn)]
  | some h =>
    obtain ⟨cancelled, action⟩ := h
    obtain rfl : action = [] := (action_of_eq hn).symm.trans haction
    cases cancelled with
    | false => exact absurd ⟨[], hn⟩ hfresh
    | true =>
      obtain ⟨hlt, hn⟩ := List.getElem?_eq_some_iff.1 hn
      rw [← hn, List.set_getElem_self]

theorem execution_of_action_eq_nil (h : c.action n = []) : Execution c [.handle (.number n)] [] (c.take n) := by
  by_cases hfresh : c.Fresh n
  . exact .mark rfl (h ▸ hfresh.eq) .done
  . rw [take_of_not_fresh hfresh h]
    refine .skip (fun m hm => ?_) .done
    cases hm
    exact hfresh

/-- Acts are done in one way, in which no action is run twice. -/
theorem exists_course (c₀ : Cancellation) (past : List Act)
    : ∃ log, (∀ log' c', Course c₀ past log' c' ↔ log' = log ∧ c' = c₀.after past) ∧ log.Nodup ∧
        ∀ m ∈ log, c₀.Armed m ∧ (c₀.after past).isCancelled m = true := by
  induction past with
  | nil =>
    refine ⟨[], fun log' c' => ⟨fun h => ?_, ?_⟩, .nil, nofun⟩
    . cases h with
      | start => exact ⟨rfl, rfl⟩
    . rintro ⟨rfl, rfl⟩
      exact .start
  | cons a past ih =>
    obtain ⟨log, hcourse, hnodup, hlog⟩ := ih
    have hbefore := (hcourse _ _).2 ⟨rfl, rfl⟩
    cases a with
    | disarm n =>
      refine ⟨log, fun log' c' => ⟨fun h => ?_, ?_⟩, hnodup,
        fun m hm => ⟨(hlog m hm).1, isCancelled_apply (.disarm n) (hlog m hm).2⟩⟩
      . cases h with
        | disarm h =>
          obtain ⟨rfl, rfl⟩ := (hcourse _ _).1 h
          exact ⟨rfl, rfl⟩
      . rintro ⟨rfl, rfl⟩
        exact .disarm hbefore
    | cancel n =>
      obtain ⟨ran, hran, hspreading⟩ := (c₀.after past).spreading_cancel n
      have hlast : Execution (c₀.after past) [.handle (.number n)] ran ((c₀.after past).cancel n) :=
        (hran _ _).2 ⟨rfl, rfl⟩
      refine ⟨ran ++ log, fun log' c' => ⟨fun h => ?_, ?_⟩, List.nodup_append.2 ⟨hspreading.nodup, hnodup, ?_⟩,
        fun m hm => ?_⟩
      . cases h with
        | cancel h hexecution =>
          obtain ⟨rfl, rfl⟩ := (hcourse _ _).1 h
          obtain ⟨rfl, rfl⟩ := (hran _ _).1 hexecution
          exact ⟨rfl, rfl⟩
      . rintro ⟨rfl, rfl⟩
        exact .cancel hbefore hlast
      . rintro m hm _ hm' rfl
        exact not_fresh_of_isCancelled (hlog m hm').2 ((hspreading.mem_iff m).1 hm).1.fresh
      . obtain hm | hm := List.mem_append.1 hm
        . obtain ⟨hspread, harmed⟩ := (hspreading.mem_iff m).1 hm
          exact ⟨((armed_after_iff c₀ past m).1 harmed).1, isCancelled_of_eq (hspreading.reached m hspread)⟩
        . exact ⟨(hlog m hm).1, isCancelled_apply (.cancel n) (hlog m hm).2⟩

/-- Every cancellation comes to an end in one way. It runs the actions of the armed handles that it spreads to, of
each once, and no action that was run before, is disarmed or belongs to a handle cancelled before. Over all no
action is run twice. A handle stays cancelled, and cancelling a disarmed one marks it and does nothing else. -/
theorem runs_each_action_once (c₀ : Cancellation) (past : List Act)
    : let c := c₀.after past
      (∃ log, (∀ log' c', Course c₀ past log' c' ↔ log' = log ∧ c' = c) ∧ log.Nodup ∧
          ∀ m ∈ log, c₀.Armed m ∧ c.isCancelled m = true) ∧
        (∀ n, ∃ ran, (∀ ran' c', Execution c [.handle (.number n)] ran' c' ↔ ran' = ran ∧ c' = c.cancel n) ∧
          c.Spreading [.handle (.number n)] ran (c.cancel n) ∧
          (∀ m ∈ ran, .cancel m ∉ past ∧ .disarm m ∉ past ∧ c.action m = c₀.action m) ∧
          (.disarm n ∈ past → ran = [] ∧ c.cancel n = c.take n)) ∧
        (∀ m, c.Armed m ↔ c₀.Armed m ∧ c.isCancelled m = false ∧ .disarm m ∉ past) ∧
        (∀ newer m, c.isCancelled m = true → (c₀.after (newer ++ past)).isCancelled m = true) := by
  intro c
  refine ⟨exists_course c₀ past, fun n => ?_, armed_after_iff c₀ past, fun newer m => isCancelled_after newer⟩
  obtain ⟨ran, hran, hspreading⟩ := c.spreading_cancel n
  refine ⟨ran, hran, hspreading, fun m hm => ?_, fun hdisarmed => ?_⟩
  . have harmed : c.Armed m := ((hspreading.mem_iff m).1 hm).2
    exact ⟨fun hpast => not_fresh_after hpast harmed.1, ((armed_after_iff c₀ past m).1 harmed).2.2,
      action_after_of_armed harmed⟩
  . obtain ⟨hnone, hmarked⟩ := (hran _ _).1 (execution_of_action_eq_nil (action_after_of_disarmed hdisarmed))
    exact ⟨hnone.symm, hmarked.symm⟩

def entangled : Cancellation :=
  ⟨[false],
    [⟨false, [.handle (.number 1), .handle (.name "first"), .count "first"]⟩,
      ⟨false, [.handle (.name "first"), .signal (.number 0), .handle (.number 2)]⟩,
      ⟨false, [.count "third", .handle (.number 0)]⟩],
    [], [("first", 0)], []⟩

/-- What becomes of them when the third one has been disarmed and the first one is cancelled. -/
def entangledEnd : Cancellation :=
  ⟨[true], [⟨true, []⟩, ⟨true, []⟩, ⟨true, []⟩], [], [("first", 0)], ["first"]⟩

theorem execution_entangled : Execution (entangled.after [.disarm 2]) [.handle (.number 0)] [0, 1] entangledEnd := by
  apply Execution.run (n := 0) rfl rfl
  apply Execution.run (n := 1) rfl rfl
  apply Execution.skip
  . rintro n hn ⟨action, hfresh⟩
    cases hn
    cases hfresh
  apply Execution.signal
  apply Execution.mark (n := 2) rfl rfl
  apply Execution.skip
  . rintro n hn ⟨action, hfresh⟩
    cases hn
    cases hfresh
  apply Execution.count
  exact .done

theorem runs_each_action_once_entangled
    : (entangled.after [.disarm 2]).cancel 0 = entangledEnd ∧
        (∀ m, m ∈ [0, 1] ↔ (entangled.after [.disarm 2]).Spread [.handle (.number 0)] m ∧
          (entangled.after [.disarm 2]).Armed m) ∧
        .disarm 2 ∈ [Act.disarm 2] ∧
        (entangled.after [.disarm 2]).cancel 2 = (entangled.after [.disarm 2]).take 2 := by
  have hdisarmed : .disarm 2 ∈ [Act.disarm 2] := by decide
  obtain ⟨_, hcancels, _⟩ := runs_each_action_once entangled [.disarm 2]
  obtain ⟨ran, hran, hspreading, _⟩ := hcancels 0
  obtain ⟨rfl, hend⟩ := (hran _ _).1 execution_entangled
  obtain ⟨_, _, _, _, hmarked⟩ := hcancels 2
  exact ⟨hend.symm, hspreading.mem_iff, hdisarmed, (hmarked hdisarmed).2⟩

end Cancellation

end DataAccess
