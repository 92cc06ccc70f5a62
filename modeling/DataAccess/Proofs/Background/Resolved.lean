import DataAccess.Engine.Scripted
import DataAccess.Proofs.Background.Resolving

/-!
This module contains what a future resolves to, whatever happens in between and however often it is cancelled.
Main statement: a future that is cancelled in time resolves to being cancelled and its callable does not run;
any other resolves to what its callable came to, which is refused all that looks at the signal from the first
cancellation on.
-/

namespace DataAccess

open Relation (ReflTransGen)

namespace FutureMoment

def isRun : FutureMoment σ stmt α → Bool
  | .entered | .began _ | .did _ | .ended _ | .left .. => true
  | _ => false

def RefusedBy (signal : Nat) : FutureMoment σ stmt α → Prop
  | .did m => m.Minds signal → m.Refused
  | _ => True

end FutureMoment

namespace FutureWatch

open FutureMoment

variable (f : CreatedFuture σ stmt α)

def standing? (w : FutureWatch σ stmt α) : Option (Except Fault α × σ) :=
  match w.phase with
  | .ended _ o =>
    let (r, db) := (f.leave o).run w.background.database
    some (r.result, db.store)
  | .arrived r | .resolved r => some (r, w.background.database.store)
  | .waiting | .taken | .entered | .running .. => none

structure Faithful (w : FutureWatch σ stmt α) : Prop where
  /-- A cancellation in time keeps the callable from running. -/
  withdrawn : f.executor = true → cancelledInTime w.past = true →
    w.past.any isRun = false ∧ ∀ r, w.phase = .resolved r → r = .error .cancelled
  /-- Any other future resolves to the result of its callable, in its transaction if it has one. -/
  own : f.executor = true → cancelledInTime w.past = false → ∀ r, w.phase = .resolved r →
    ∃ since, course w.past = .takenUp :: .entered :: since ∧ OwnResult f since r
  unchanged : f.inTransaction = false → ∀ o, .ended o ∈ w.past → ∀ r, w.phase = .resolved r →
    r = o.result
  crashed : .ended .crash ∈ w.past → ∀ r, w.phase = .resolved r → r = .error .taskCrashed
  /-- Nothing that looks at the signal is done after a cancellation. -/
  refuses : w.past.Pairwise fun later earlier => earlier.isCancel = true → later.RefusedBy f.signal
  /-- Once the callable has ended cancellations change nothing any more. -/
  settled : ∀ o, .ended o ∈ w.past → (w.standing? f).isSome = true ∧
    (w.cancel f).standing? f = w.standing? f ∧ (w.abort f).standing? f = w.standing? f
  unexecuted : f.executor = false →
    w.past.any isRun = false ∧ ∀ r, w.phase = .resolved r → r = .error .noExecutor
  /-- The result is given by the first poll that finds it, and by no other one. -/
  given : ∀ r, w.phase = .arrived r → (w.poll f).phase = .resolved r
  polled : ∀ p, .polled p ∈ w.past → p = .pending ∨ ∃ r, p = .ready r ∧ w.phase = .resolved r
  resolves : ∃ w' r, ReflTransGen (Step f) w w' ∧ w'.phase = .resolved r

variable {f} {past since : List (FutureMoment σ stmt α)} {w w' : FutureWatch σ stmt α}
  {phase : FuturePhase σ stmt α}

structure Allowed (f : CreatedFuture σ stmt α) (w w' : FutureWatch σ stmt α)
    (m : FutureMoment σ stmt α) : Prop where
  run : m.isRun = true → m = .entered ∨ .entered ∈ w.past
  refused : w.past.any isCancel = true → m.RefusedBy f.signal
  polled : ∀ p, m = .polled p → p = .pending ∨ ∃ r, p = .ready r ∧ w'.phase = .resolved r

theorem Allowed.of_stage {m : FutureMoment σ stmt α} (hstage : m.isStage = true)
    (hrun : m.isRun = true → m = .entered ∨ .entered ∈ w.past) : Allowed f w w' m := by
  cases m with
  | cancelled | did | polled => cases hstage
  | takenUp | passedOver | refused | entered | began | ended | left =>
    exact ⟨hrun, fun _ => trivial, nofun⟩

/-- At each step at most one thing happens to a future, and it is one that may happen. -/
theorem Stands.past_cases (h : Stands f w) (hs : Step f w w')
    : w'.past = w.past ∨ ∃ m, w'.past = m :: w.past ∧ Allowed f w w' m := by
  -- From `entered` on every phase has that moment behind it, which is what a run needs.
  have hentered (hphase : w.phase.isThrough = true) (m : FutureMoment σ stmt α)
      : m.isRun = true → m = .entered ∨ .entered ∈ w.past :=
    fun _ => Or.inr (h.went.entered_mem hphase)
  cases hs with
  | abort | elsewhere => exact Or.inl rfl
  | cancel => exact Or.inr ⟨_, rfl, nofun, fun _ => trivial, nofun⟩
  | takeUp =>
    right
    unfold FutureWatch.takeUp
    split
    . exact ⟨_, rfl, .of_stage rfl nofun⟩
    . exact ⟨_, rfl, .of_stage rfl nofun⟩
  | enter =>
    right
    unfold FutureWatch.enter
    split
    . exact ⟨_, rfl, .of_stage rfl nofun⟩
    . exact ⟨_, rfl, .of_stage rfl fun _ => Or.inl rfl⟩
  | begin hphase =>
    have hrun := hentered (by rw [hphase]; rfl) (.began w.background.database)
    right
    unfold FutureWatch.begin
    dsimp only
    split
    . exact ⟨_, rfl, .of_stage rfl hrun⟩
    . exact ⟨_, rfl, .of_stage rfl hrun⟩
  | goOn hphase hdoes =>
    have hrun := hentered (by rw [hphase]; rfl)
    exact Or.inr ⟨_, rfl, hrun _, fun hany => hdoes.refused (h.heard.set hany), nofun⟩
  | finish hphase | leave hphase =>
    have hrun := hentered (by rw [hphase]; rfl)
    exact Or.inr ⟨_, rfl, .of_stage rfl (hrun _)⟩
  | poll hphase =>
    by_cases harrived : ∃ r, w.phase = .arrived r
    . obtain ⟨r, hr⟩ := harrived
      obtain ⟨b, hpoll, _⟩ := h.poll_of_arrived hr
      refine Or.inr ⟨.polled (.ready r), by rw [hpoll], nofun, fun _ => trivial, ?_⟩
      rintro _ ⟨⟩
      exact Or.inr ⟨r, rfl, by rw [hpoll]⟩
    . have hreply : w.phase.reply = .awaited := by
        cases hw : w.phase with
        | arrived r => exact absurd ⟨r, hw⟩ harrived
        | resolved r => exact absurd hw (hphase r)
        | waiting | taken | entered | running | ended => rfl
      refine Or.inr ⟨.polled .pending, by rw [h.poll_of_awaited hreply], nofun, fun _ => trivial, ?_⟩
      rintro _ ⟨⟩
      exact Or.inl rfl

theorem Step.resolved (hs : Step f w w') (hphase : w.phase = .resolved r) : w'.phase = .resolved r := by
  cases hs with
  | cancel | abort | elsewhere => exact hphase
  | poll h => exact absurd hphase (h r)
  | takeUp h | enter h | begin h | goOn h | finish h | leave h =>
    rw [hphase] at h
    cases h

theorem entered_of_isRun (h : Reachable f w) (hrun : w.past.any isRun = true) : .entered ∈ w.past := by
  induction h with
  | created => cases hrun
  | step hw hs ih =>
    rcases (stands_of_reachable hw).past_cases hs with hsame | ⟨m, hmore, hallowed⟩
    . rw [hsame] at hrun ⊢
      exact ih hrun
    . rw [hmore, List.any_cons, Bool.or_eq_true] at hrun
      rw [hmore, List.mem_cons]
      rcases hrun with hm | hbefore
      . exact (hallowed.run hm).imp_left Eq.symm
      . exact Or.inr (ih hbefore)

theorem refuses_of_reachable (h : Reachable f w)
    : w.past.Pairwise fun later earlier => earlier.isCancel = true → later.RefusedBy f.signal := by
  induction h with
  | created => exact .nil
  | step hw hs ih =>
    rcases (stands_of_reachable hw).past_cases hs with hsame | ⟨m, hmore, hallowed⟩
    . rwa [hsame]
    . rw [hmore]
      refine .cons ?_ ih
      intro earlier hmem hcancel
      exact hallowed.refused (List.any_eq_true.2 ⟨earlier, hmem, hcancel⟩)

theorem polled_of_reachable (h : Reachable f w) {p : Poll (Except Fault α)} (hp : .polled p ∈ w.past)
    : p = .pending ∨ ∃ r, p = .ready r ∧ w.phase = .resolved r := by
  induction h with
  | created => cases hp
  | @step w w' hw hs ih =>
    have hbefore (hp : .polled p ∈ w.past) : p = .pending ∨ ∃ r, p = .ready r ∧ w'.phase = .resolved r :=
      (ih hp).imp_right fun ⟨r, hr, hphase⟩ => ⟨r, hr, hs.resolved hphase⟩
    rcases (stands_of_reachable hw).past_cases hs with hsame | ⟨m, hmore, hallowed⟩
    . exact hbefore (hsame ▸ hp)
    . rw [hmore, List.mem_cons] at hp
      rcases hp with hp | hp
      . exact hallowed.polled p hp.symm
      . exact hbefore hp

theorem answered_of_reachable (h : Reachable f w) (hphase : w.phase = .resolved r)
    : Answered f w.past r := by
  have hwent := (stands_of_reachable h).went
  rw [hphase] at hwent
  cases hwent with
  | resolved hanswered => exact hanswered

theorem Withdrawn.isRun_of_course (h : Withdrawn f past) : ∀ m ∈ course past, m.isRun = false := by
  rcases h.stages with hcourse | hcourse
  . simp [hcourse, isRun]
  . simp [hcourse, isRun]

theorem Answered.of_ended {o : Outcome α} (h : Answered f past r) (ho : .ended o ∈ past)
    : ∃ db, r = ((f.leave o).run db).1.result := by
  have hmem : .ended o ∈ course past := History.mem_course.2 ⟨ho, rfl⟩
  cases h with
  | withdrawn h => cases h.isRun_of_course _ hmem
  | unexecuted _ hcourse => simp [hcourse] at hmem
  | own hthrough hown =>
    rw [hthrough.stages] at hmem
    cases hown with
    | unopened => simp at hmem
    | @ended _ _ db hbegin =>
      simp only [List.mem_cons, reduceCtorEq, FutureMoment.ended.injEq, List.not_mem_nil, or_false,
        false_or] at hmem
      rw [hmem]
      exact ⟨db, congrArg (·.1.result) (f.finish_of_begin hbegin _ db)⟩

theorem Went.of_ended {o : Outcome α} (h : Went f past phase) (ho : .ended o ∈ past)
    : (∃ begun, phase = .ended begun o) ∨ ∃ r, phase = .arrived r ∨ phase = .resolved r := by
  have hmem : .ended o ∈ course past := History.mem_course.2 ⟨ho, rfl⟩
  cases h with
  | waiting _ hcourse | taken _ hcourse => simp [hcourse] at hmem
  | entered h | running h => simp [h.stages] at hmem
  | @ended begun _ h =>
    simp only [h.stages, List.mem_cons, reduceCtorEq, FutureMoment.ended.injEq, List.not_mem_nil,
      or_false, false_or] at hmem
    exact Or.inl ⟨begun, by rw [hmem]⟩
  | arrived => exact Or.inr ⟨_, Or.inl rfl⟩
  | resolved => exact Or.inr ⟨_, Or.inr rfl⟩

theorem standing?_cancel (f : CreatedFuture σ stmt α) (w : FutureWatch σ stmt α)
    : (w.cancel f).standing? f = w.standing? f := by
  obtain ⟨b, phase, past⟩ := w
  cases phase with
  | ended begun o =>
    have hdeaf := f.deaf_leave o (b.database.cancellation.setSignal f.signal) b.database
    have hsame := congrArg (fun left => some (left.1.result, left.2.store)) hdeaf
    exact hsame
  | waiting | taken | entered | running | arrived | resolved => rfl

theorem standing?_abort (f : CreatedFuture σ stmt α) (w : FutureWatch σ stmt α)
    : (w.abort f).standing? f = w.standing? f :=
  rfl

theorem Went.of_entered (h : Went f past phase) (hentered : .entered ∈ past)
    : f.executor = true ∧ cancelledInTime past = false := by
  have hmem : .entered ∈ course past := History.mem_course.2 ⟨hentered, rfl⟩
  cases h with
  | waiting _ hcourse | taken _ hcourse => simp [hcourse] at hmem
  | entered h | running h | ended h => exact ⟨h.executor, h.inTime⟩
  | arrived h | resolved h =>
    cases h with
    | withdrawn h => cases h.isRun_of_course _ hmem
    | own hthrough => exact ⟨hthrough.executor, hthrough.inTime⟩
    | unexecuted _ hcourse => simp [hcourse] at hmem

theorem isRun_eq_false (h : Reachable f w)
    (hnot : ¬(f.executor = true ∧ cancelledInTime w.past = false)) : w.past.any isRun = false := by
  apply Bool.eq_false_iff.2
  intro hrun
  exact hnot ((stands_of_reachable h).went.of_entered (entered_of_isRun h hrun))

theorem faithful_of_reachable (h : Reachable f w) : Faithful f w where
  withdrawn hexecutor hinTime := by
    refine ⟨isRun_eq_false h (by simp [hinTime]), ?_⟩
    intro r hphase
    cases answered_of_reachable h hphase with
    | withdrawn => rfl
    | own hthrough => simp [hthrough.inTime] at hinTime
    | unexecuted hnone => simp [hnone] at hexecutor
  own hexecutor hinTime r hphase := by
    cases answered_of_reachable h hphase with
    | withdrawn hwithdrawn => simp [hwithdrawn.inTime] at hinTime
    | own hthrough hown => exact ⟨_, hthrough.stages, hown⟩
    | unexecuted hnone => simp [hnone] at hexecutor
  unchanged hplain o ho r hphase := by
    obtain ⟨db, hr⟩ := (answered_of_reachable h hphase).of_ended ho
    unfold CreatedFuture.leave at hr
    rw [hplain] at hr
    exact hr
  crashed ho r hphase := by
    obtain ⟨db, hr⟩ := (answered_of_reachable h hphase).of_ended ho
    unfold CreatedFuture.leave at hr
    split at hr
    . exact hr
    . exact hr
  refuses := refuses_of_reachable h
  settled o ho := by
    refine ⟨?_, standing?_cancel f w, standing?_abort f w⟩
    unfold standing?
    rcases (stands_of_reachable h).went.of_ended ho with ⟨_, hphase⟩ | ⟨_, hphase | hphase⟩
    . rw [hphase]
      rfl
    . rw [hphase]
      rfl
    . rw [hphase]
      rfl
  unexecuted hexecutor := by
    refine ⟨isRun_eq_false h (by simp [hexecutor]), ?_⟩
    intro r hphase
    cases answered_of_reachable h hphase with
    | withdrawn hwithdrawn => simp [hwithdrawn.executor] at hexecutor
    | own hthrough => simp [hthrough.executor] at hexecutor
    | unexecuted => rfl
  given r hphase := by
    obtain ⟨b, hpoll, _⟩ := (stands_of_reachable h).poll_of_arrived hphase
    rw [hpoll]
  polled p hp := polled_of_reachable h hp
  resolves := exists_resolved h

def readsNumber : CreatedFuture ScriptedEngine Statement Nat where
  engine := ScriptedEngine.engine
  inTransaction := true
  callable signal := .query (.acquire "SELECT 42" 0) (some signal) fun
    | .error g => .ends (.fault g)
    | .ok c => .next c fun
      | .error g, _ => .ends (.fault g)
      | .ok _, _ => .ends (.ok 42)
  executor := true
  number := 0
  signal := 0

/-- The future is cancelled between its statement and the first row, and again once its callable has ended. -/
theorem faithful_cancelledInBetween
    : ∃ w, Reachable readsNumber w ∧ Faithful readsNumber w ∧ cancelledInTime w.past = false ∧
        .ended (.fault .cancelled) ∈ w.past ∧ w.phase = .resolved (.error .cancelled) ∧
        w.background.database.store.depth = 0 := by
  let answer : ScriptedAnswer := ⟨none, [], 0, -1, ["42"], [[.integer 42]]⟩
  let database : Database ScriptedEngine := .new (.new ⟨[], [], [answer], [], []⟩ true)
  have hcreated := Reachable.created (f := readsNumber) (.new database true false) rfl rfl rfl
  have hpolled := hcreated.step (.poll nofun)
  have htaken := hpolled.step (.takeUp rfl List.mem_cons_self)
  have hentered := (htaken.step (.enter rfl)).step (.begin rfl)
  have hqueried := hentered.step (.goOn rfl (.query rfl))
  have hcancelled := (hqueried.step (.cancel _)).step (.abort List.mem_cons_self)
  have hrefused := hcancelled.step (.goOn rfl (.next rfl))
  have hended := (hrefused.step (.finish rfl)).step (.cancel _)
  have hresolved := (hended.step (.leave rfl)).step (.poll nofun)
  exact ⟨_, hresolved, faithful_of_reachable hresolved, rfl, .tail _ (.tail _ (.tail _ (.head _))), rfl, rfl⟩

end FutureWatch

end DataAccess
