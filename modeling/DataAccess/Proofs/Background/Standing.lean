import DataAccess.Proofs.Background.History
import DataAccess.Proofs.Background.Watched

/-!
This module contains how a future stands at each phase: what its background knows of it, what its signal
says, and the course that it has taken, which is all that happened but for cancellations, polls and
checkpoints. Main statement: every step of a future leads from one such standing to the next.
-/

namespace DataAccess

namespace FutureMoment

def isCancel : FutureMoment σ stmt α → Bool
  | .cancelled => true
  | _ => false

def isStart : FutureMoment σ stmt α → Bool
  | .passedOver | .refused | .entered => true
  | _ => false

def isStage : FutureMoment σ stmt α → Bool
  | .cancelled | .did _ | .polled _ => false
  | _ => true

end FutureMoment

def FuturePhase.reply : FuturePhase σ stmt α → Reply α
  | .arrived r => .arrived r
  | .resolved _ => .taken
  | _ => .awaited

def FuturePhase.isFresh : FuturePhase σ stmt α → Bool
  | .waiting | .taken => true
  | _ => false

namespace Background

variable {f : CreatedFuture σ stmt α} {b : Background σ α} {aborted : Bool} {reply : Reply α}

theorem getElem?_abortFuture (h : b.futures[f.number]? = some (f.entry aborted reply))
    : (b.abortFuture f).futures[f.number]? = some (f.entry true reply) := by
  unfold abortFuture
  rw [List.getElem?_modify_eq, h]
  rfl

theorem getElem?_answerFuture (h : b.futures[f.number]? = some (f.entry aborted reply))
    (r : Except Fault α) : (b.answerFuture f r).futures[f.number]? = some (f.entry aborted (.arrived r)) := by
  unfold answerFuture
  rw [List.getElem?_modify_eq, h]
  rfl

theorem isAborted_eq (h : b.futures[f.number]? = some (f.entry aborted reply))
    : b.isAborted f = aborted := by
  unfold isAborted
  rw [h]
  rfl

theorem pollFuture_awaited (h : b.futures[f.number]? = some (f.entry aborted .awaited))
    : b.pollFuture f.number = (.pending, b) := by
  unfold pollFuture
  rw [h]
  rfl

theorem pollFuture_arrived (h : b.futures[f.number]? = some (f.entry aborted (.arrived r)))
    : b.pollFuture f.number =
        (.ready r, { b with futures := b.futures.set f.number (f.entry aborted .taken) }) := by
  unfold pollFuture
  rw [h]
  rfl

end Background

def FuturePhase.isThrough : FuturePhase σ stmt α → Bool
  | .entered | .running .. | .ended .. => true
  | _ => false

namespace FutureWatch

open FutureMoment

def course (past : List (FutureMoment σ stmt α)) : List (FutureMoment σ stmt α) :=
  History.course isStage past

def cancelledInTime (past : List (FutureMoment σ stmt α)) : Bool :=
  History.happenedBefore isStart isCancel past

variable (f : CreatedFuture σ stmt α)

structure Through (past since : List (FutureMoment σ stmt α)) : Prop where
  executor : f.executor = true
  stages : course past = .takenUp :: .entered :: since
  inTime : cancelledInTime past = false

structure Withdrawn (past : List (FutureMoment σ stmt α)) : Prop where
  executor : f.executor = true
  stages : course past = [.passedOver] ∨ course past = [.takenUp, .refused]
  inTime : cancelledInTime past = true

/-- What a future comes to by itself: how its transaction could not be opened, or how its callable ended, and
then how its transaction was closed. -/
inductive OwnResult : List (FutureMoment σ stmt α) → Except Fault α → Prop where
  | unopened (hbegin : (f.begin.run begun).1.result = .error g) : OwnResult [.began begun] (.error g)
  | ended (hbegin : (f.begin.run begun).1.result = .ok ()) :
    OwnResult [.began begun, .ended o, .left db ((f.finish o db).run begun).2]
      ((f.finish o db).run begun).1.result

inductive Answered (past : List (FutureMoment σ stmt α)) : Except Fault α → Prop where
  | withdrawn (h : Withdrawn f past) : Answered past (.error .cancelled)
  | own (h : Through f past since) (hown : OwnResult f since r) : Answered past r
  | unexecuted (hexecutor : f.executor = false) (hcourse : course past = []) :
    Answered past (.error .noExecutor)

inductive Went (past : List (FutureMoment σ stmt α)) : FuturePhase σ stmt α → Prop where
  | waiting (hexecutor : f.executor = true) (hcourse : course past = []) : Went past .waiting
  | taken (hexecutor : f.executor = true) (hcourse : course past = [.takenUp]) : Went past .taken
  | entered (h : Through f past []) : Went past .entered
  | running (h : Through f past [.began begun]) (hbegin : (f.begin.run begun).1.result = .ok ()) :
    Went past (.running begun c)
  | ended (h : Through f past [.began begun, .ended o])
    (hbegin : (f.begin.run begun).1.result = .ok ()) : Went past (.ended begun o)
  | arrived (h : Answered f past r) : Went past (.arrived r)
  | resolved (h : Answered f past r) : Went past (.resolved r)

structure Heard (past : List (FutureMoment σ stmt α)) (c : Cancellation) : Prop where
  known : f.signal < c.signals.length
  set : past.any isCancel = true → c.isSet f.signal = true

structure Stands (w : FutureWatch σ stmt α) : Prop where
  went : Went f w.past w.phase
  heard : Heard f w.past w.background.database.cancellation
  unset : w.phase.isFresh = true → w.isSet f = true → w.past.any isCancel = true
  entry : ∃ aborted, w.background.futures[f.number]? = some (f.entry aborted w.phase.reply) ∧
    (aborted = true → w.past.any isCancel = true)
  queued : w.phase = .waiting → .future f.number ∈ w.background.queue

variable {f} {past since : List (FutureMoment σ stmt α)} {m : FutureMoment σ stmt α}
  {b b' : Background σ α} {w w' : FutureWatch σ stmt α} {phase : FuturePhase σ stmt α}

section Course

theorem course_stage (past : List (FutureMoment σ stmt α)) (hm : m.isStage = true)
    : course (m :: past) = course past ++ [m] :=
  History.course_cons_of_kind past hm

theorem course_other (past : List (FutureMoment σ stmt α)) (hm : m.isStage = false)
    : course (m :: past) = course past :=
  History.course_cons_of_other past hm

theorem mem_of_course (hm : m ∈ course past) : m ∈ past :=
  (History.mem_course.1 hm).1

theorem cancelledInTime_cons (hm : m ∈ course past) (hstart : m.isStart = true)
    (x : FutureMoment σ stmt α) : cancelledInTime (x :: past) = cancelledInTime past :=
  History.happenedBefore_of_marked (mem_of_course hm) hstart x

theorem isStart_of_course (hcourse : ∀ m ∈ course past, m.isStart = false)
    : ∀ m ∈ past, m.isStart = false := by
  intro m hm
  cases hstage : m.isStage with
  | true => exact hcourse m (History.mem_course.2 ⟨hm, hstage⟩)
  | false =>
    cases m with
    | cancelled | did | polled => rfl
    | takenUp | passedOver | refused | entered | began | ended | left => cases hstage

theorem cancelledInTime_first (hcourse : ∀ m ∈ course past, m.isStart = false)
    (hm : m.isStart = true) : cancelledInTime (m :: past) = past.any isCancel :=
  History.happenedBefore_first (isStart_of_course hcourse) hm

namespace Through

theorem entered_mem (h : Through f past since) : .entered ∈ course past := by
  simp [h.stages]

theorem stage (h : Through f past since) (hm : m.isStage = true)
    : Through f (m :: past) (since ++ [m]) where
  executor := h.executor
  stages := by rw [course_stage past hm, h.stages, List.cons_append, List.cons_append]
  inTime := (cancelledInTime_cons h.entered_mem rfl m).trans h.inTime

theorem other (h : Through f past since) (hm : m.isStage = false) : Through f (m :: past) since where
  executor := h.executor
  stages := (course_other past hm).trans h.stages
  inTime := (cancelledInTime_cons h.entered_mem rfl m).trans h.inTime

end Through

theorem Withdrawn.other (h : Withdrawn f past) (hm : m.isStage = false) : Withdrawn f (m :: past) where
  executor := h.executor
  stages := by rw [course_other past hm]; exact h.stages
  inTime := by
    rcases h.stages with hcourse | hcourse
    . have hpassed : .passedOver ∈ course past := by simp [hcourse]
      exact (cancelledInTime_cons hpassed rfl m).trans h.inTime
    . have hrefused : .refused ∈ course past := by simp [hcourse]
      exact (cancelledInTime_cons hrefused rfl m).trans h.inTime

theorem Answered.other (h : Answered f past r) (hm : m.isStage = false) : Answered f (m :: past) r := by
  cases h with
  | withdrawn h => exact .withdrawn (h.other hm)
  | own h hown => exact .own (h.other hm) hown
  | unexecuted hexecutor hcourse =>
    exact .unexecuted hexecutor ((course_other past hm).trans hcourse)

theorem Went.entered_mem (h : Went f past phase) (hphase : phase.isThrough = true)
    : .entered ∈ past := by
  cases h with
  | entered h | running h | ended h => exact mem_of_course h.entered_mem
  | waiting | taken | arrived | resolved => cases hphase

theorem Went.other (h : Went f past phase) (hm : m.isStage = false) : Went f (m :: past) phase := by
  cases h with
  | waiting hexecutor hcourse => exact .waiting hexecutor ((course_other past hm).trans hcourse)
  | taken hexecutor hcourse => exact .taken hexecutor ((course_other past hm).trans hcourse)
  | entered h => exact .entered (h.other hm)
  | running h hbegin => exact .running (h.other hm) hbegin
  | ended h hbegin => exact .ended (h.other hm) hbegin
  | arrived h => exact .arrived (h.other hm)
  | resolved h => exact .resolved (h.other hm)

end Course

namespace Heard

variable {c c' : Cancellation}

theorem cons (h : Heard f past c) (hm : m.isCancel = false) : Heard f (m :: past) c where
  known := h.known
  set hany := h.set (by simpa [hm] using hany)

theorem keeps (h : Heard f past c) (hkeeps : c.Keeps c') : Heard f past c' where
  known := Nat.lt_of_lt_of_le h.known hkeeps.known
  set hany := hkeeps.set _ (h.set hany)

end Heard

namespace Stands

theorem later {aborted : Bool} (hwent : Went f past phase) (hfresh : phase.isFresh = false)
    (hheard : Heard f past b.database.cancellation)
    (hentry : b.futures[f.number]? = some (f.entry aborted phase.reply))
    (haborted : aborted = true → past.any isCancel = true) : Stands f ⟨b, phase, past⟩ where
  went := hwent
  heard := hheard
  unset h := absurd h (Bool.eq_false_iff.1 hfresh)
  entry := ⟨aborted, hentry, haborted⟩
  queued hwaiting := by
    cases hwaiting
    cases hfresh

theorem cancel (h : Stands f w) : Stands f (w.cancel f) where
  went := h.went.other rfl
  heard :=
    { known := by
        simpa [FutureWatch.cancel, Background.signalFuture, Cancellation.setSignal] using h.heard.known
      set := fun _ => (Cancellation.isSet_setSignal_iff ..).2 (.inl ⟨rfl, h.heard.known⟩) }
  unset _ _ := rfl
  entry := by
    obtain ⟨aborted, hentry, _⟩ := h.entry
    exact ⟨aborted, hentry, fun _ => rfl⟩
  queued := h.queued

theorem abort (h : Stands f w) (hcancelled : .cancelled ∈ w.past) : Stands f (w.abort f) where
  went := h.went
  heard := h.heard
  unset := h.unset
  entry := by
    obtain ⟨aborted, hentry, _⟩ := h.entry
    exact ⟨true, Background.getElem?_abortFuture hentry, fun _ => List.any_eq_true.2 ⟨_, hcancelled, rfl⟩⟩
  queued := h.queued

theorem elsewhere (h : Stands f w) (hsame : w.background.SameFuture f b)
    : Stands f { w with background := b } := by
  have hset : b.database.cancellation.isSet f.signal = w.isSet f :=
    congrArg (·.getD false) hsame.signal
  constructor
  case went => exact h.went
  case heard =>
    have hsignal := hsame.signal.trans (List.getElem?_eq_getElem h.heard.known)
    exact ⟨(List.getElem?_eq_some_iff.1 hsignal).1, fun hany => hset.trans (h.heard.set hany)⟩
  case unset => exact fun hfresh hb => h.unset hfresh (hset.symm.trans hb)
  case entry =>
    obtain ⟨aborted, hentry, haborted⟩ := h.entry
    exact ⟨aborted, hsame.entry.trans hentry, haborted⟩
  case queued =>
    intro hphase
    rw [← List.count_pos_iff, hsame.queued, List.count_pos_iff]
    exact h.queued hphase

theorem takeUp (h : Stands f w) (hphase : w.phase = .waiting) : Stands f (w.takeUp f) := by
  obtain ⟨hwent, hheard, hunset, ⟨aborted, hentry, haborted⟩, _⟩ := h
  rw [hphase] at hwent hentry
  cases hwent with
  | waiting hexecutor hcourse =>
    unfold FutureWatch.takeUp
    rw [Background.isAborted_eq hentry]
    -- The work is passed over only if it was aborted, and only a cancellation aborts it.
    cases aborted with
    | true =>
      have hstages : course (.passedOver :: w.past) = [.passedOver] := by
        rw [course_stage _ rfl, hcourse]
        rfl
      have hinTime : cancelledInTime (.passedOver :: w.past) = true := by
        rw [cancelledInTime_first (by simp [hcourse]) rfl]
        exact haborted rfl
      exact .later (.arrived (.withdrawn ⟨hexecutor, Or.inl hstages, hinTime⟩)) rfl (hheard.cons rfl)
        (Background.getElem?_answerFuture hentry _) haborted
    | false =>
      have hstages : course (.takenUp :: w.past) = [.takenUp] := by
        rw [course_stage _ rfl, hcourse]
        rfl
      exact
        { went := .taken hexecutor hstages
          heard := hheard.cons rfl
          unset := fun _ => hunset (by rw [hphase]; rfl)
          entry := ⟨false, hentry, nofun⟩
          queued := nofun }

theorem enter (h : Stands f w) (hphase : w.phase = .taken) : Stands f (w.enter f) := by
  obtain ⟨hwent, hheard, hunset, ⟨aborted, hentry, haborted⟩, _⟩ := h
  rw [hphase] at hwent hentry
  cases hwent with
  | taken hexecutor hcourse =>
    have hstages {m : FutureMoment σ stmt α} (hm : m.isStage = true)
        : course (m :: w.past) = [.takenUp, m] := by
      rw [course_stage _ hm, hcourse]
      rfl
    have hfirst {m : FutureMoment σ stmt α} (hm : m.isStart = true)
        : cancelledInTime (m :: w.past) = w.past.any isCancel :=
      cancelledInTime_first (by simp [hcourse, isStart]) hm
    unfold FutureWatch.enter
    -- So far nobody else has the signal, so it is set just if the future was cancelled.
    split
    . next hset =>
      have hcancelled := hunset (by rw [hphase]; rfl) hset
      have hwithdrawn := Withdrawn.mk hexecutor (Or.inr (hstages rfl)) ((hfirst rfl).trans hcancelled)
      exact .later (.arrived (.withdrawn hwithdrawn)) rfl (hheard.cons rfl)
        (Background.getElem?_answerFuture hentry _) haborted
    . next hset =>
      have hcancelled : w.past.any isCancel = false :=
        Bool.eq_false_iff.2 fun hany => hset (hheard.set hany)
      have hthrough := Through.mk hexecutor (hstages rfl) ((hfirst rfl).trans hcancelled)
      exact .later (.entered hthrough) rfl (hheard.cons rfl) hentry haborted

theorem begin (h : Stands f w) (hphase : w.phase = .entered) : Stands f (w.begin f) := by
  obtain ⟨hwent, hheard, _, ⟨aborted, hentry, haborted⟩, _⟩ := h
  rw [hphase] at hwent hentry
  cases hwent with
  | entered hthrough =>
    have hbegan := hthrough.stage (m := .began w.background.database) rfl
    have hsame := f.deaf_begin.cancellation_eq w.background.database
    unfold FutureWatch.begin
    rcases hbegin : f.begin.run w.background.database with ⟨opened, database⟩
    rw [hbegin] at hsame
    have hheard := (hheard.cons (m := .began w.background.database) rfl).keeps (.of_eq hsame)
    -- Whether the callable runs depends on nothing but the answer of the opening.
    dsimp only
    split
    . next hopened =>
      exact .later (.running hbegan (by rw [hbegin]; exact hopened)) rfl hheard hentry haborted
    . next g hopened =>
      exact .later (.arrived (.own hbegan (.unopened (by rw [hbegin]; exact hopened)))) rfl hheard
        (Background.getElem?_answerFuture hentry _) haborted

theorem goOn {m : Checkpoint σ stmt} (h : Stands f w) (hphase : w.phase = .running begun c)
    (hdoes : c.Does f.engine w.background.database m c' database)
    : Stands f ⟨{ w.background with database }, .running begun c', .did m :: w.past⟩ := by
  obtain ⟨hwent, hheard, _, ⟨aborted, hentry, haborted⟩, _⟩ := h
  rw [hphase] at hwent hentry
  cases hwent with
  | running hthrough hbegin =>
    exact .later (.running (hthrough.other rfl) hbegin) rfl ((hheard.cons rfl).keeps hdoes.keeps) hentry
      haborted

theorem finish (h : Stands f w) (hphase : w.phase = .running begun (.ends o))
    : Stands f { w with phase := .ended begun o, past := .ended o :: w.past } := by
  obtain ⟨hwent, hheard, _, ⟨aborted, hentry, haborted⟩, _⟩ := h
  rw [hphase] at hwent hentry
  cases hwent with
  | running hthrough hbegin =>
    exact .later (.ended (hthrough.stage rfl) hbegin) rfl (hheard.cons rfl) hentry haborted

theorem leave (h : Stands f w) (hphase : w.phase = .ended begun o) : Stands f (w.leave f o) := by
  obtain ⟨hwent, hheard, _, ⟨aborted, hentry, haborted⟩, _⟩ := h
  rw [hphase] at hwent hentry
  cases hwent with
  | ended hthrough hbegin =>
    have hsame := (f.deaf_leave o).cancellation_eq w.background.database
    have hfinish := f.finish_of_begin hbegin o w.background.database
    have hown : OwnResult f [.began begun, .ended o, .left w.background.database _] _ := .ended hbegin
    rw [hfinish] at hown
    exact .later (.arrived (.own (hthrough.stage rfl) hown)) rfl ((hheard.cons rfl).keeps (.of_eq hsame))
      (Background.getElem?_answerFuture hentry _) haborted

theorem poll_of_awaited (h : Stands f w) (hreply : w.phase.reply = .awaited)
    : w.poll f = { w with past := .polled .pending :: w.past } := by
  obtain ⟨aborted, hentry, _⟩ := h.entry
  rw [hreply] at hentry
  unfold FutureWatch.poll
  rw [Background.pollFuture_awaited hentry]

theorem poll_of_arrived (h : Stands f w) (hphase : w.phase = .arrived r)
    : ∃ b, w.poll f = ⟨b, .resolved r, .polled (.ready r) :: w.past⟩ ∧ Stands f (w.poll f) := by
  obtain ⟨hwent, hheard, _, ⟨aborted, hentry, haborted⟩, _⟩ := h
  rw [hphase] at hwent hentry
  obtain ⟨hlt, _⟩ := List.getElem?_eq_some_iff.1 hentry
  unfold FutureWatch.poll
  rw [Background.pollFuture_arrived hentry]
  cases hwent with
  | arrived hanswered =>
    exact ⟨_, rfl, .later (.resolved (hanswered.other rfl)) rfl (hheard.cons rfl)
      (List.getElem?_set_self hlt) haborted⟩

theorem poll (h : Stands f w) (hphase : ∀ r, w.phase ≠ .resolved r) : Stands f (w.poll f) := by
  -- As long as there is no result a poll adds to what happened and does nothing else.
  have hpending (hreply : w.phase.reply = .awaited) : Stands f (w.poll f) := by
    rw [h.poll_of_awaited hreply]
    exact
      { went := h.went.other rfl
        heard := h.heard.cons rfl
        unset := h.unset
        entry := h.entry
        queued := h.queued }
  cases hw : w.phase with
  | arrived r =>
    obtain ⟨_, _, hstands⟩ := h.poll_of_arrived hw
    exact hstands
  | resolved r => exact absurd hw (hphase r)
  | waiting | taken | entered | running | ended => exact hpending (by rw [hw]; rfl)

theorem step (h : Stands f w) (hs : Step f w w') : Stands f w' := by
  cases hs with
  | cancel => exact h.cancel
  | abort hcancelled => exact h.abort hcancelled
  | takeUp hphase => exact h.takeUp hphase
  | enter hphase => exact h.enter hphase
  | begin hphase => exact h.begin hphase
  | goOn hphase hdoes => exact h.goOn hphase hdoes
  | finish hphase => exact h.finish hphase
  | leave hphase => exact h.leave hphase
  | poll hphase => exact h.poll hphase
  | elsewhere hsame => exact h.elsewhere hsame

theorem create (b : Background σ α) (hexecutor : b.executor = f.executor)
    (hnumber : b.futures.length = f.number)
    (hsignal : b.database.cancellation.signals.length = f.signal) : Stands f (create f b) := by
  have hheard : Heard f [] b.database.cancellation.newSignal.2 := by
    refine ⟨?_, (absurd · Bool.false_ne_true)⟩
    simp [Cancellation.newSignal, hsignal]
  have hunset : b.database.cancellation.newSignal.2.isSet f.signal = false := by
    rw [← hsignal]
    exact b.database.cancellation.isSet_newSignal
  have hentry (reply : Reply α)
      : (b.addFuture (f.entry false reply)).futures[f.number]? = some (f.entry false reply) := by
    rw [← hnumber]
    exact List.getElem?_concat_length
  unfold FutureWatch.create
  rw [Background.createFuture_eq hexecutor hnumber hsignal]
  cases hf : f.executor with
  | true =>
    exact
      { went := .waiting hf rfl
        heard := hheard
        unset := fun _ hset => absurd hset (Bool.eq_false_iff.1 hunset)
        entry := ⟨false, hentry .awaited, (absurd · Bool.false_ne_true)⟩
        queued := fun _ => List.mem_concat_self }
  | false =>
    exact .later (.arrived (.unexecuted hf rfl)) rfl hheard (hentry (.arrived (.error .noExecutor)))
      (absurd · Bool.false_ne_true)

end Stands

theorem stands_of_reachable (h : Reachable f w) : Stands f w := by
  induction h with
  | created b hexecutor hnumber hsignal => exact .create b hexecutor hnumber hsignal
  | step _ hs ih => exact ih.step hs

end FutureWatch

end DataAccess
