import DataAccess.Proofs.Background.Standing

/-!
This module contains what becomes of a future if nothing else happens from some time on: what remains of its
work is done in one go. Main statement: a future can be resolved from wherever it is.
-/

namespace DataAccess

open Relation (ReflTransGen)

namespace FutureWatch

variable (f : CreatedFuture σ stmt α)

/-- If nothing else happens the future comes to an outcome on some database. -/
def Leads (w : FutureWatch σ stmt α) (o : Outcome α) (db : Database σ) : Prop :=
  ∃ past, ReflTransGen (Step f) w
    ⟨{ w.background with database := db }.answerFuture f o.result, .arrived o.result, past⟩

variable {f} {w w' : FutureWatch σ stmt α}

theorem Reachable.steps (h : Reachable f w) (hsteps : ReflTransGen (Step f) w w') : Reachable f w' := by
  induction hsteps with
  | refl => exact h
  | tail _ hs ih => exact ih.step hs

theorem leads_of_ended (hphase : w.phase = .ended begun o)
    : Leads f w ((f.leave o).run w.background.database).1 ((f.leave o).run w.background.database).2 :=
  ⟨_, .single (.leave hphase)⟩

theorem leads_of_running (hphase : w.phase = .running begun c)
    : let (o, db) := c.run f.engine w.background.database
      Leads f w ((f.leave o).run db).1 ((f.leave o).run db).2 := by
  -- By induction on what the callable has left to do: each thing is one step, and what follows its answer is
  -- smaller.
  induction c generalizing w with
  | ends o =>
    obtain ⟨past, hsteps⟩ := leads_of_ended (f := f)
      (w := { w with phase := .ended begun o, past := .ended o :: w.past }) rfl
    exact ⟨past, hsteps.head (.finish hphase)⟩
  | query s signal goOn ih =>
    obtain ⟨past, hsteps⟩ := ih _ (w := ⟨_, _, _⟩) rfl
    exact ⟨past, hsteps.head (.goOn hphase (.query rfl))⟩
  | next c goOn ih =>
    obtain ⟨past, hsteps⟩ := ih _ _ (w := ⟨_, _, _⟩) rfl
    exact ⟨past, hsteps.head (.goOn hphase (.next rfl))⟩
  | does act hkeeps goOn ih =>
    obtain ⟨past, hsteps⟩ := ih _ (w := ⟨_, _, _⟩) rfl
    exact ⟨past, hsteps.head (.goOn hphase .act)⟩

/-- Work that has come to the callable does what remains in the transaction of the future, if it has one. -/
theorem leads_of_entered (hphase : w.phase = .entered)
    : let (o, db) := (Database.runIn f.engine f.inTransaction (f.body f.signal)).run w.background.database
      Leads f w o db := by
  have hbegin := Step.begin (f := f) hphase
  unfold begin at hbegin
  rw [f.runIn_eq]
  rcases hopened : f.begin.run w.background.database with ⟨_ | g | _, opened⟩
  . rw [hopened] at hbegin
    obtain ⟨past, hsteps⟩ := leads_of_running (f := f) (c := f.callable f.signal) (w := ⟨_, _, _⟩) rfl
    exact ⟨past, hsteps.head hbegin⟩
  . rw [hopened] at hbegin
    exact ⟨_, .single hbegin⟩
  . rw [hopened] at hbegin
    exact ⟨_, .single hbegin⟩

theorem leads_of_taken (hphase : w.phase = .taken)
    : let (o, db) := f.work.run w.background.database
      Leads f w o db := by
  have henter := Step.enter (f := f) hphase
  unfold enter at henter
  rw [f.work_eq]
  cases hset : w.background.database.cancellation.isSet f.signal with
  | true =>
    rw [if_pos (by exact hset)] at henter
    exact ⟨_, .single henter⟩
  | false =>
    rw [if_neg (by rw [isSet, hset]; exact Bool.false_ne_true)] at henter
    obtain ⟨past, hsteps⟩ := leads_of_entered (f := f) (w := ⟨w.background, .entered, .entered :: w.past⟩) rfl
    exact ⟨past, hsteps.head henter⟩

/-- The background thread leads to a future whose result is there, in one go or with others in between. -/
theorem exists_runFuture (h : Reachable f w) (hphase : w.phase = .waiting)
    : ∃ r past, ReflTransGen (Step f) w
        ⟨(w.background.takeFuture f).runFuture f.number, .arrived r, past⟩ := by
  obtain ⟨hwent, _, _, ⟨aborted, hentry, _⟩, hqueued⟩ := stands_of_reachable h
  rw [hphase] at hwent hentry
  have htakeUp := Step.takeUp (f := f) hphase (hqueued hphase)
  unfold takeUp at htakeUp
  rw [Background.isAborted_eq hentry] at htakeUp
  cases hwent with
  | waiting hexecutor =>
    rw [Background.runFuture_entry hexecutor (by exact hentry)]
    cases aborted with
    | true => exact ⟨_, _, .single htakeUp⟩
    | false =>
      obtain ⟨past, hsteps⟩ := leads_of_taken (f := f)
        (w := ⟨w.background.takeFuture f, .taken, .takenUp :: w.past⟩) rfl
      exact ⟨_, past, hsteps.head htakeUp⟩

/-- To cancel a future is to set its signal and to abort its work, maybe with others in between. -/
theorem exists_cancelFuture (h : Reachable f w)
    : ReflTransGen (Step f) w
        ⟨w.background.cancelFuture f.number, w.phase, .cancelled :: w.past⟩ := by
  obtain ⟨aborted, hentry, _⟩ := (stands_of_reachable h).entry
  rw [Background.cancelFuture_eq hentry]
  exact (ReflTransGen.single (.cancel w)).tail (.abort List.mem_cons_self)

theorem exists_arrived (h : Reachable f w) (hphase : ∀ r, w.phase ≠ .resolved r)
    : ∃ w' r, ReflTransGen (Step f) w w' ∧ w'.phase = .arrived r := by
  cases hw : w.phase with
  | waiting =>
    obtain ⟨r, past, hsteps⟩ := exists_runFuture h hw
    exact ⟨_, r, hsteps, rfl⟩
  | taken =>
    obtain ⟨past, hsteps⟩ := leads_of_taken (f := f) hw
    exact ⟨_, _, hsteps, rfl⟩
  | entered =>
    obtain ⟨past, hsteps⟩ := leads_of_entered (f := f) hw
    exact ⟨_, _, hsteps, rfl⟩
  | running begun c =>
    obtain ⟨past, hsteps⟩ := leads_of_running (f := f) hw
    exact ⟨_, _, hsteps, rfl⟩
  | ended begun o =>
    obtain ⟨past, hsteps⟩ := leads_of_ended (f := f) hw
    exact ⟨_, _, hsteps, rfl⟩
  | arrived r => exact ⟨w, r, .refl, hw⟩
  | resolved r => exact absurd hw (hphase r)

theorem exists_resolved (h : Reachable f w)
    : ∃ w' r, ReflTransGen (Step f) w w' ∧ w'.phase = .resolved r := by
  by_cases hphase : ∃ r, w.phase = .resolved r
  . obtain ⟨r, hr⟩ := hphase
    exact ⟨w, r, .refl, hr⟩
  . obtain ⟨w', r, hsteps, harrived⟩ := exists_arrived h fun r hr => hphase ⟨r, hr⟩
    obtain ⟨b, hpoll, _⟩ := (stands_of_reachable (h.steps hsteps)).poll_of_arrived harrived
    refine ⟨_, r, hsteps.tail (.poll ?_), by rw [hpoll]⟩
    intro r hresolved
    rw [harrived] at hresolved
    cases hresolved

end FutureWatch

end DataAccess
