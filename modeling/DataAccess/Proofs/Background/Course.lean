import DataAccess.Proofs.Background.History
import DataAccess.Proofs.Background.Launched

/-!
This module contains how a suspended call stands at each phase: what it went through, what its background
knows of it, and what its handle still does. Cancellations fall anywhere in between. Main statement: every
step of a call leads from one such standing to the next.
-/

namespace DataAccess

namespace CallMoment

def isCancel : CallMoment σ α → Bool
  | .cancelled => true
  | _ => false

def isStart : CallMoment σ α → Bool
  | .started => true
  | _ => false

def isTakeUp : CallMoment σ α → Bool
  | .refused => true
  | .entered => true
  | _ => false

def isStage : CallMoment σ α → Bool
  | .requested | .repeated | .took | .missed | .cancelled => false
  | _ => true

def event? : CallMoment σ α → Option (CallEvent α)
  | .told event => some event
  | _ => none

end CallMoment

namespace CallWatch

open CallMoment

section History

variable {past : List (CallMoment σ α)} {m : CallMoment σ α} {mark : CallMoment σ α → Bool}

def tells (past : List (CallMoment σ α)) : List (CallEvent α) :=
  past.reverse.filterMap event?

def course (past : List (CallMoment σ α)) : List (CallMoment σ α) :=
  History.course isStage past

def cancelledBefore (mark : CallMoment σ α → Bool) (past : List (CallMoment σ α)) : Bool :=
  History.happenedBefore mark isCancel past

theorem course_cons (past : List (CallMoment σ α)) (hm : m.isStage = true)
    : course (m :: past) = course past ++ [m] :=
  History.course_cons_of_kind past hm

theorem course_other (past : List (CallMoment σ α)) (hm : m.isStage = false)
    : course (m :: past) = course past :=
  History.course_cons_of_other past hm

theorem tells_eq (past : List (CallMoment σ α)) : tells past = (course past).filterMap event? := by
  unfold tells course History.course
  rw [List.filterMap_filter]
  congr 1
  funext m
  cases m with
  | told | scheduled | requested | repeated | took | missed | cancelled | started | refused | entered
  | ended | disarmed => rfl

theorem forall_of_course {moments : List (CallMoment σ α)} (h : course past = moments)
    (hstage : ∀ m, mark m = true → m.isStage = true) (hmoments : ∀ m ∈ moments, mark m = false)
    : ∀ m ∈ past, mark m = false := by
  intro m hmem
  cases hm : mark m with
  | false => rfl
  | true => rw [← hm, hmoments m (h ▸ History.mem_course.2 ⟨hmem, hstage m hm⟩)]

theorem isStage_of_isStart : ∀ m : CallMoment σ α, m.isStart = true → m.isStage = true
  | .started, _ => rfl

theorem isStage_of_isTakeUp : ∀ m : CallMoment σ α, m.isTakeUp = true → m.isStage = true
  | .refused, _ => rfl
  | .entered, _ => rfl

end History

def opening : List (CallMoment σ α) :=
  [.told (.cancellable false), .scheduled, .started]

variable (l : LaunchedCall σ stmt α)

inductive Worked (past : List (CallMoment σ α)) : List (CallMoment σ α) → Except Fault α → Prop where
  | refused (h : cancelledBefore isTakeUp past = true) : Worked past [.refused] (.error .cancelled)
  | ended (h : cancelledBefore isTakeUp past = false) (ran : Operation σ α) (db : Database σ) :
    Worked past [.entered, .ended ran db] (l.result ran db)

/-- The handle sets the signal, as far as the cancellation of the call has not done so yet. -/
inductive Armed (past : List (CallMoment σ α)) (b : Background σ α) : CancelPhase → Prop where
  | fresh (hhandle : b.database.cancellation.handles[l.handle]? =
      some ⟨false, [.signal (.number l.signal)]⟩)
    (hsignal : b.database.cancellation.signals[l.signal]? = some false)
    (hcancel : past.any isCancel = false) (hnone : .requested ∉ past) : Armed past b .idle
  | marked (hhandle : b.database.cancellation.handles[l.handle]? =
      some ⟨true, [.signal (.number l.signal)]⟩)
    (hsignal : b.database.cancellation.signals[l.signal]? = some false)
    (hcancel : past.any isCancel = false) : Armed past b .marked
  | holding (hhandle : b.database.cancellation.handles[l.handle]? = some ⟨true, []⟩)
    (hsignal : b.database.cancellation.signals[l.signal]? = some false)
    (hcancel : past.any isCancel = false) : Armed past b (.holding [.signal (.number l.signal)])
  | acted (hhandle : b.database.cancellation.handles[l.handle]? = some ⟨true, []⟩)
    (hsignal : b.database.cancellation.signals[l.signal]? = some true)
    (hcancel : past.any isCancel = true) : Armed past b .idle

def Inert (b : Background σ α) : Prop :=
  ∃ h, b.database.cancellation.handles[l.handle]? = some h ∧ h.action = []

inductive Stands (past : List (CallMoment σ α)) (b : Background σ α) (c : CancelPhase) :
    CallPhase → Prop where
  | offered (hcourse : course past = [.told (.cancellable false)]) (harmed : Armed l past b c) :
    Stands past b c .offered
  | scheduled (hcourse : course past = [.told (.cancellable false), .scheduled])
    (hcall : b.calls[l.number]? = some (l.call .scheduled [.cancellable false]))
    (harmed : Armed l past b c) : Stands past b c .scheduled
  | withdrawn (hcourse : course past = opening ++ [.disarmed])
    (hstart : cancelledBefore isStart past = true)
    (hcall : b.calls[l.number]? = some (l.call .over [.cancellable false]))
    (hinert : Inert l b) : Stands past b c .over
  | waiting (hcourse : course past = opening) (hstart : cancelledBefore isStart past = false)
    (hcall : b.calls[l.number]? = some (l.call .working [.cancellable false]))
    (hqueue : .call l.number ∈ b.queue) (harmed : Armed l past b c) : Stands past b c .waiting
  | running (hcourse : course past = opening ++ [.entered])
    (hstart : cancelledBefore isStart past = false)
    (htakeUp : cancelledBefore isTakeUp past = false)
    (hcall : b.calls[l.number]? = some (l.call .working [.cancellable false]))
    (harmed : Armed l past b c) : Stands past b c .running
  | ended (hcourse : course past = opening ++ worked) (hstart : cancelledBefore isStart past = false)
    (hworked : Worked l past worked r)
    (hcall : b.calls[l.number]? = some (l.call (.done r) [.cancellable false]))
    (hhandle : (b.database.cancellation.handles[l.handle]?).isSome) : Stands past b c .ended
  | disarmed (hcourse : course past = opening ++ worked ++ [.disarmed])
    (hstart : cancelledBefore isStart past = false) (hworked : Worked l past worked r)
    (hcall : b.calls[l.number]? = some (l.call (.done r) [.cancellable false]))
    (hinert : Inert l b) : Stands past b c .disarmed
  | over (hcourse : course past = opening ++ worked ++ [.disarmed, .told (Background.report r)])
    (hstart : cancelledBefore isStart past = false) (hworked : Worked l past worked r)
    (hcall : b.calls[l.number]? =
      some (l.call .over [.cancellable false, Background.report r]))
    (hinert : Inert l b) : Stands past b c .over

variable {l} {past : List (CallMoment σ α)} {b b' : Background σ α} {w w' : CallWatch σ α}
  {c : CancelPhase} {phase : CallPhase} {m : CallMoment σ α}

theorem Armed.cons (h : Armed l past b c) (hm : m.isCancel = false) (hrequest : m ≠ .requested)
    : Armed l (m :: past) b c := by
  have hsame (set : Bool) (hcancel : past.any isCancel = set) : (m :: past).any isCancel = set := by
    rw [List.any_cons, hm, Bool.false_or, hcancel]
  cases h with
  | fresh hhandle hsignal hcancel hnone =>
    refine .fresh hhandle hsignal (hsame _ hcancel) ?_
    simpa [Ne.symm hrequest] using hnone
  | marked hhandle hsignal hcancel => exact .marked hhandle hsignal (hsame _ hcancel)
  | holding hhandle hsignal hcancel => exact .holding hhandle hsignal (hsame _ hcancel)
  | acted hhandle hsignal hcancel => exact .acted hhandle hsignal (hsame _ hcancel)

theorem Armed.later (h : Armed l past b c) (hm : m.isStage = true) : Armed l (m :: past) b c := by
  cases m with
  | told | scheduled | started | refused | entered | ended | disarmed => exact h.cons rfl nofun
  | requested | repeated | took | missed | cancelled => cases hm

theorem Armed.of_eq (h : Armed l past b c)
    (hhandle : b'.database.cancellation.handles[l.handle]? = b.database.cancellation.handles[l.handle]?)
    (hsignal : b'.database.cancellation.signals[l.signal]? = b.database.cancellation.signals[l.signal]?)
    : Armed l past b' c := by
  cases h with
  | fresh hh hs hcancel hnone => exact .fresh (hhandle.trans hh) (hsignal.trans hs) hcancel hnone
  | marked hh hs hcancel => exact .marked (hhandle.trans hh) (hsignal.trans hs) hcancel
  | holding hh hs hcancel => exact .holding (hhandle.trans hh) (hsignal.trans hs) hcancel
  | acted hh hs hcancel => exact .acted (hhandle.trans hh) (hsignal.trans hs) hcancel

theorem Armed.isSet (h : Armed l past b c)
    : b.database.cancellation.isSet l.signal = past.any isCancel := by
  unfold Cancellation.isSet
  cases h with
  | fresh _ hsignal hcancel | marked _ hsignal hcancel | holding _ hsignal hcancel
  | acted _ hsignal hcancel =>
    rw [hsignal, hcancel]
    rfl

theorem Armed.exists_handle (h : Armed l past b c)
    : ∃ g, b.database.cancellation.handles[l.handle]? = some g := by
  cases h with
  | fresh hhandle | marked hhandle | holding hhandle | acted hhandle => exact ⟨_, hhandle⟩

theorem actionOf_eq {g : CancelHandle} (hg : b.database.cancellation.handles[l.handle]? = some g)
    : b.actionOf l = g.action := by
  unfold Background.actionOf
  rw [hg]
  rfl

theorem mem_of_course {moments : List (CallMoment σ α)} (h : course past = moments) (hm : m ∈ moments)
    : m ∈ past :=
  (History.mem_course.1 (h ▸ hm)).1

theorem Worked.cons (hworked : Worked l past worked r) (hm : m ∈ past)
    (hmark : m.isTakeUp = true) (x : CallMoment σ α) : Worked l (x :: past) worked r := by
  cases hworked with
  | refused h => exact .refused ((History.happenedBefore_of_marked hm hmark x).trans h)
  | ended h ran db => exact .ended ((History.happenedBefore_of_marked hm hmark x).trans h) ran db

theorem Worked.exists_takeUp (hworked : Worked l past worked r)
    : ∃ m ∈ worked, m.isTakeUp = true := by
  cases hworked with
  | refused => exact ⟨.refused, List.mem_cons_self, rfl⟩
  | ended => exact ⟨.entered, List.mem_cons_self, rfl⟩

namespace Stands

theorem exists_handle (h : Stands l past b c phase)
    : ∃ g, b.database.cancellation.handles[l.handle]? = some g := by
  cases h with
  | offered _ harmed | scheduled _ _ harmed | waiting _ _ _ _ harmed | running _ _ _ _ harmed =>
    exact harmed.exists_handle
  | withdrawn _ _ _ hinert | disarmed _ _ _ _ hinert | «over» _ _ _ _ hinert =>
    obtain ⟨g, hg, _⟩ := hinert
    exact ⟨g, hg⟩
  | ended _ _ _ _ hhandle => exact Option.isSome_iff_exists.1 hhandle

theorem start_cons {moments : List (CallMoment σ α)} {c : Bool}
    (hcourse : course past = opening ++ moments) (hstart : cancelledBefore isStart past = c)
    (x : CallMoment σ α) : cancelledBefore isStart (x :: past) = c :=
  have hstarted : .started ∈ past := mem_of_course hcourse (by simp [opening])
  (History.happenedBefore_of_marked hstarted rfl x).trans hstart

theorem worked_cons {moments : List (CallMoment σ α)}
    (hcourse : course past = opening ++ worked ++ moments) (hworked : Worked l past worked r)
    (x : CallMoment σ α) : Worked l (x :: past) worked r := by
  obtain ⟨m, hm, hmark⟩ := hworked.exists_takeUp
  exact hworked.cons (mem_of_course hcourse (by simp [hm])) hmark x

theorem inert_alike (h : Inert l b) (halike : b.SameCall l b') : Inert l b' := by
  obtain ⟨h, hget, haction⟩ := h
  exact ⟨h, halike.handle.trans hget, haction⟩

theorem alike (h : Stands l past b c phase) (halike : b.SameCall l b') : Stands l past b' c phase := by
  have harmed (h : Armed l past b c) : Armed l past b' c := h.of_eq halike.handle halike.signal
  cases h with
  | offered hcourse h => exact .offered hcourse (harmed h)
  | scheduled hcourse hcall h => exact .scheduled hcourse (halike.call.trans hcall) (harmed h)
  | withdrawn hcourse hstart hcall hinert =>
    exact .withdrawn hcourse hstart (halike.call.trans hcall) (inert_alike hinert halike)
  | waiting hcourse hstart hcall hqueue h =>
    have hqueue : .call l.number ∈ b'.queue := by
      rw [← List.count_pos_iff, halike.queued, List.count_pos_iff]
      exact hqueue
    exact .waiting hcourse hstart (halike.call.trans hcall) hqueue (harmed h)
  | running hcourse hstart htakeUp hcall h =>
    exact .running hcourse hstart htakeUp (halike.call.trans hcall) (harmed h)
  | ended hcourse hstart hworked hcall hhandle =>
    exact .ended hcourse hstart hworked (halike.call.trans hcall) (halike.handle ▸ hhandle)
  | disarmed hcourse hstart hworked hcall hinert =>
    exact .disarmed hcourse hstart hworked (halike.call.trans hcall) (inert_alike hinert halike)
  | «over» hcourse hstart hworked hcall hinert =>
    exact .over hcourse hstart hworked (halike.call.trans hcall) (inert_alike hinert halike)

section Cancel

/-- What a part of a cancellation leaves as it is. The handle may be marked and lose its action. -/
structure Spares (l : LaunchedCall σ stmt α) (b b' : Background σ α) : Prop where
  calls : b'.calls = b.calls
  queue : b'.queue = b.queue
  handle : ∀ g, b.database.cancellation.handles[l.handle]? = some g →
    ∃ g', b'.database.cancellation.handles[l.handle]? = some g' ∧ (g.action = [] → g'.action = [])

theorem spares_refl (b : Background σ α) : Spares l b b :=
  ⟨rfl, rfl, fun g hg => ⟨g, hg, id⟩⟩

theorem spares_mark (b : Background σ α) : Spares l b (b.markCall l) :=
  ⟨rfl, rfl, fun _ hg => ⟨_, Cancellation.getElem?_mark hg, id⟩⟩

theorem spares_disarm (b : Background σ α) : Spares l b (b.disarm l.handle) :=
  ⟨rfl, rfl, fun _ hg => ⟨_, Cancellation.getElem?_disarm hg, fun _ => rfl⟩⟩

theorem spares_doAction (action : List CancelStep) (b : Background σ α)
    : Spares l b (b.doAction action) :=
  ⟨rfl, rfl, fun _ hg => Cancellation.exists_run hg action⟩

theorem spared (h : Stands l past b c phase) {c' : CancelPhase} (hspares : Spares l b b')
    (hm : m.isStage = false) (harmed : Armed l past b c → Armed l (m :: past) b' c')
    : Stands l (m :: past) b' c' phase := by
  have hsame := course_other past hm
  have hinert (h : Inert l b) : Inert l b' := by
    obtain ⟨g, hg, haction⟩ := h
    obtain ⟨g', hg', hnone⟩ := hspares.handle g hg
    exact ⟨g', hg', hnone haction⟩
  have hcalls {call : Option (SuspendedCall σ α)} (hcall : b.calls[l.number]? = call)
      : b'.calls[l.number]? = call := hspares.calls ▸ hcall
  cases h with
  | offered hcourse h => exact .offered (hsame.trans hcourse) (harmed h)
  | scheduled hcourse hcall h => exact .scheduled (hsame.trans hcourse) (hcalls hcall) (harmed h)
  | withdrawn hcourse hstart hcall h =>
    exact .withdrawn (hsame.trans hcourse) (start_cons hcourse hstart _) (hcalls hcall) (hinert h)
  | waiting hcourse hstart hcall hqueue h =>
    exact .waiting (hsame.trans hcourse)
      (start_cons (hcourse.trans (List.append_nil _).symm) hstart _) (hcalls hcall)
      (hspares.queue ▸ hqueue) (harmed h)
  | running hcourse hstart htakeUp hcall h =>
    have hentered : .entered ∈ past := mem_of_course hcourse (by simp)
    exact .running (hsame.trans hcourse) (start_cons hcourse hstart _)
      ((History.happenedBefore_of_marked hentered rfl _).trans htakeUp) (hcalls hcall) (harmed h)
  | ended hcourse hstart hworked hcall hhandle =>
    obtain ⟨g, hg⟩ := Option.isSome_iff_exists.1 hhandle
    obtain ⟨g', hg', _⟩ := hspares.handle g hg
    exact .ended (hsame.trans hcourse) (start_cons hcourse hstart _)
      (worked_cons (hcourse.trans (List.append_nil _).symm) hworked _) (hcalls hcall)
      (Option.isSome_iff_exists.2 ⟨g', hg'⟩)
  | disarmed hcourse hstart hworked hcall h =>
    exact .disarmed (hsame.trans hcourse)
      (start_cons (hcourse.trans (List.append_assoc ..)) hstart _) (worked_cons hcourse hworked _)
      (hcalls hcall) (hinert h)
  | «over» hcourse hstart hworked hcall h =>
    exact .over (hsame.trans hcourse)
      (start_cons (hcourse.trans (List.append_assoc ..)) hstart _) (worked_cons hcourse hworked _)
      (hcalls hcall) (hinert h)

theorem request (h : Stands l past b c phase)
    (hfresh : b.database.cancellation.isCancelled l.handle = false)
    : Stands l (.requested :: past) (b.markCall l) .marked phase := by
  apply h.spared (spares_mark b) rfl
  intro harmed
  have hsignals : (b.markCall l).database.cancellation.signals = b.database.cancellation.signals :=
    Cancellation.signals_mark ..
  cases harmed with
  | fresh hhandle hsignal hcancel _ =>
    exact .marked (Cancellation.getElem?_mark hhandle) (hsignals ▸ hsignal) hcancel
  | marked hhandle | holding hhandle | acted hhandle =>
    rw [Cancellation.isCancelled_eq hhandle] at hfresh
    cases hfresh

theorem again (h : Stands l past b c phase) : Stands l (.repeated :: past) b c phase :=
  h.spared (spares_refl b) rfl fun harmed => harmed.cons rfl nofun

theorem take (h : Stands l w.past w.background .marked w.phase)
    : Stands l (w.take l).past (w.take l).background (w.take l).cancelling (w.take l).phase := by
  have hsignals : (w.background.disarm l.handle).database.cancellation.signals =
      w.background.database.cancellation.signals := Cancellation.signals_disarm ..
  unfold CallWatch.take
  dsimp only
  split
  . next hnone =>
    apply h.spared (spares_disarm w.background) rfl
    rintro ⟨⟩
    next hhandle _ _ =>
      rw [actionOf_eq hhandle] at hnone
      cases hnone
  . next hsome =>
    apply h.spared (spares_disarm w.background) rfl
    rintro ⟨⟩
    next hhandle hsignal hcancel =>
      rw [actionOf_eq hhandle] at hsome
      cases hsome
      exact .holding (Cancellation.getElem?_disarm hhandle) (hsignals ▸ hsignal) hcancel

theorem act (h : Stands l past b (.holding action) phase)
    : Stands l (.cancelled :: past) (b.doAction action) .idle phase := by
  apply h.spared (spares_doAction action b) rfl
  rintro ⟨⟩
  next hhandle hsignal _ =>
    obtain ⟨hlt, _⟩ := List.getElem?_eq_some_iff.1 hsignal
    have hrun : b.database.cancellation.run [.signal (.number l.signal)] =
        b.database.cancellation.setSignal l.signal := by
      rw [Cancellation.run, Cancellation.run]
      rfl
    refine .acted ?_ ?_ rfl
    . exact (congrArg (·.handles[l.handle]?) hrun).trans hhandle
    . exact (congrArg (·.signals[l.signal]?) hrun).trans (List.getElem?_set_self hlt)

end Cancel

theorem inert_disarm {g : CancelHandle} (hg : b.database.cancellation.handles[l.handle]? = some g)
    : Inert l (b.disarm l.handle) :=
  ⟨_, Cancellation.getElem?_disarm hg, rfl⟩

theorem schedule (h : Stands l past b c .offered) (hnumber : b.calls.length = l.number)
    : Stands l (.scheduled :: past) (b.schedule l) c .scheduled := by
  cases h with
  | offered hcourse harmed =>
    refine .scheduled ?_ ?_ ((harmed.later rfl).of_eq rfl rfl)
    . rw [course_cons past rfl, hcourse]
      rfl
    . unfold Background.schedule
      rw [← hnumber]
      exact List.getElem?_concat_length

theorem start (h : Stands l w.past w.background w.cancelling .scheduled)
    : Stands l (w.start l).past (w.start l).background (w.start l).cancelling
        (w.start l).phase := by
  cases h with
  | scheduled hcourse hcall harmed =>
    have hfirst : cancelledBefore isStart (.started :: w.past) = w.past.any isCancel :=
      History.happenedBefore_first (forall_of_course hcourse isStage_of_isStart (by simp [isStart])) rfl
    have hstarted : course (.started :: w.past) = opening := by
      rw [course_cons w.past rfl, hcourse]
      rfl
    have hset : w.isSet l = w.past.any isCancel := harmed.isSet
    have hstart := Background.startCall_eq hcall
    unfold CallWatch.start
    rw [hset]
    rw [harmed.isSet] at hstart
    cases hcancelled : w.past.any isCancel with
    | true =>
      rw [hcancelled, if_pos rfl] at hstart
      rw [if_pos rfl, hstart]
      obtain ⟨g, hg⟩ := harmed.exists_handle
      refine .withdrawn ?_ ?_ (Background.getElem?_setCall hcall) (inert_disarm hg)
      . rw [course_cons _ rfl, hstarted]
      . exact start_cons (hstarted.trans (List.append_nil _).symm) (hfirst.trans hcancelled) _
    | false =>
      rw [hcancelled, if_neg Bool.false_ne_true] at hstart
      rw [if_neg Bool.false_ne_true, hstart]
      exact .waiting hstarted (hfirst.trans hcancelled) (Background.getElem?_setCall hcall)
        List.mem_concat_self ((harmed.later rfl).of_eq rfl rfl)

theorem enter (h : Stands l w.past w.background w.cancelling .waiting)
    : Stands l (w.enter l).past (w.enter l).background (w.enter l).cancelling
        (w.enter l).phase := by
  cases h with
  | waiting hcourse hstart hcall hqueue harmed =>
    have hnone : ∀ m ∈ w.past, m.isTakeUp = false :=
      forall_of_course hcourse isStage_of_isTakeUp (by simp [opening, isTakeUp])
    have hstart := start_cons (hcourse.trans (List.append_nil _).symm) hstart
    have hset : w.isSet l = w.past.any isCancel := harmed.isSet
    unfold CallWatch.enter
    rw [hset]
    cases hcancelled : w.past.any isCancel with
    | true =>
      rw [if_pos rfl]
      refine .ended (?_ : _ = opening ++ [.refused]) (hstart _) (.refused ?_)
        (Background.getElem?_setCall hcall) ?_
      . rw [course_cons _ rfl, hcourse]
      . exact (History.happenedBefore_first hnone rfl).trans hcancelled
      . exact Option.isSome_iff_exists.2 harmed.exists_handle
    | false =>
      rw [if_neg Bool.false_ne_true]
      refine .running ?_ (hstart _) ?_ hcall ((harmed.later rfl).of_eq rfl rfl)
      . rw [course_cons _ rfl, hcourse]
      . exact (History.happenedBefore_first hnone rfl).trans hcancelled

theorem finish (h : Stands l past b c .running) (ran : Operation σ α)
    (hhandle : ((b.runBody l ran).database.cancellation.handles[l.handle]?).isSome)
    : Stands l (.ended ran b.database :: past) (b.runBody l ran) c .ended := by
  cases h with
  | running hcourse hstart htakeUp hcall harmed =>
    have hentered : .entered ∈ past := mem_of_course hcourse (by simp)
    refine .ended (?_ : _ = opening ++ [.entered, .ended ran b.database]) (start_cons hcourse hstart _)
      (.ended ?_ ran b.database) (Background.getElem?_setCall hcall) hhandle
    . rw [course_cons _ rfl, hcourse]
      rfl
    . exact (History.happenedBefore_of_marked hentered rfl _).trans htakeUp

theorem disarm (h : Stands l past b c .ended)
    : Stands l (.disarmed :: past) (b.disarm l.handle) c .disarmed := by
  cases h with
  | ended hcourse hstart hworked hcall hhandle =>
    obtain ⟨g, hg⟩ := Option.isSome_iff_exists.1 hhandle
    refine .disarmed ?_ (start_cons hcourse hstart _)
      (worked_cons (hcourse.trans (List.append_nil _).symm) hworked _) hcall
      (inert_disarm hg)
    rw [course_cons _ rfl, hcourse]

theorem report (h : Stands l past b c .disarmed)
    (hdone : b.calls[l.number]? = some (l.call (.done r) [.cancellable false]))
    : Stands l (.told (Background.report r) :: past) (b.reportEnd l r) c .over := by
  cases h with
  | disarmed hcourse hstart hworked hcall hinert =>
    cases hcall.symm.trans hdone
    refine .over ?_ (start_cons (hcourse.trans (List.append_assoc ..)) hstart _)
      (worked_cons hcourse hworked _) (Background.getElem?_setCall hcall) hinert
    rw [course_cons _ rfl, hcourse]
    simp

theorem step (h : Stands l w.past w.background w.cancelling w.phase) (hs : Step l w w')
    : Stands l w'.past w'.background w'.cancelling w'.phase := by
  cases hs with
  | request hfresh => exact h.request hfresh
  | again => exact h.again
  | take hmarked => exact (hmarked ▸ h).take
  | act hholding => exact (hholding ▸ h).act
  | schedule hphase _ hnumber => exact (hphase ▸ h).schedule hnumber
  | start hphase => exact (hphase ▸ h).start
  | enter hphase _ => exact (hphase ▸ h).enter
  | finish hphase ran hhandle _ => exact (hphase ▸ h).finish ran hhandle
  | disarm hphase => exact (hphase ▸ h).disarm
  | report hphase hdone => exact (hphase ▸ h).report hdone
  | elsewhere halike => exact h.alike halike

end Stands

theorem stands_of_reachable (h : Reachable l w) : Stands l w.past w.background w.cancelling w.phase := by
  induction h with
  | offered name b hsignal hhandle =>
    refine .offered rfl (.fresh ?_ ?_ rfl (by simp))
    . rw [← hhandle, ← hsignal]
      exact List.getElem?_concat_length
    . rw [← hsignal]
      exact List.getElem?_concat_length
  | step _ hs ih => exact ih.step hs

theorem reachable_launch (name : String) (hdispatcher : b.dispatcher = true)
    (hnumber : b.calls.length = l.number)
    (hsignal : b.database.cancellation.signals.length = l.signal)
    (hhandle : b.database.cancellation.handles.length = l.handle)
    : Reachable l ⟨(b.launch l.engine name l.inTransaction l.body).2, .scheduled, .idle,
        [.scheduled, .told (.cancellable false)]⟩ := by
  have hlaunch := Background.launch_eq l.engine name l.inTransaction l.body hdispatcher
  rw [hnumber, hsignal, hhandle] at hlaunch
  rw [hlaunch]
  exact (Reachable.offered name b hsignal hhandle).step (.schedule rfl hdispatcher hnumber)

theorem reachable_runCall (h : Reachable l w) (hphase : w.phase = .waiting)
    {b' : Background σ α} (hbody : (w.background.takeUp l).runBody l (l.body l.signal) = b')
    (hkept : (b'.database.cancellation.handles[l.handle]?).isSome)
    (hmark : w.background.database.cancellation.isCancelled l.handle = true →
      b'.database.cancellation.isCancelled l.handle = true)
    : ∃ past, Reachable l
        { w with background := (w.background.takeUp l).runCall l.number, phase := .ended, past } := by
  subst hbody
  have hstands := stands_of_reachable h
  rw [hphase] at hstands
  cases hstands with
  | waiting _ _ hcall hqueue _ =>
    have hentered := h.step (.enter hphase hqueue)
    rw [Background.runCall_of_working (by exact hcall)]
    unfold CallWatch.enter at hentered
    split
    . next hset =>
      rw [if_pos (by exact hset)] at hentered
      exact ⟨_, hentered⟩
    . next hset =>
      rw [if_neg (by exact hset)] at hentered
      exact ⟨_, hentered.step (.finish rfl (l.body l.signal) hkept hmark)⟩

theorem reachable_deliver (h : Reachable l w) (hphase : w.phase = .ended)
    : ∃ r, Reachable l
        { w with
          background := w.background.deliver l.number, phase := .over,
          past := .told (Background.report r) :: .disarmed :: w.past } := by
  have hstands := stands_of_reachable h
  rw [hphase] at hstands
  cases hstands with
  | @ended _ r _ _ _ hcall _ =>
    rw [Background.deliver_eq hcall]
    exact ⟨r, (h.step (.disarm hphase)).step (.report rfl hcall)⟩

/-- A cancellation in one go is made of its parts, with nothing in between. -/
theorem reachable_cancelCall (h : Reachable l w) (hidle : w.cancelling = .idle)
    : ∃ past, Reachable l { w with background := w.background.cancelCall l, past } := by
  obtain ⟨g, hg⟩ := (stands_of_reachable h).exists_handle
  have hflag : w.background.database.cancellation.isCancelled l.handle = g.cancelled :=
    Cancellation.isCancelled_eq hg
  cases hcancelled : g.cancelled with
  | true =>
    have hsame : w.background.cancelCall l = w.background := by
      unfold Background.cancelCall
      rw [Cancellation.cancel_of_cancelled hg hcancelled]
    rw [hsame]
    exact ⟨_, h.step (.again (hflag.trans hcancelled))⟩
  | false =>
    have hmarked := h.step (.request (hflag.trans hcancelled))
    have hparts : w.background.cancelCall l =
        (((w.background.markCall l).disarm l.handle).doAction g.action) := by
      unfold Background.cancelCall
      rw [Cancellation.cancel_eq_parts hg hcancelled]
      rfl
    have haction : (w.background.markCall l).actionOf l = g.action :=
      actionOf_eq (g := ⟨true, g.action⟩) (Cancellation.getElem?_mark hg)
    have htaken := hmarked.step (.take rfl)
    unfold take request at htaken
    dsimp only at htaken
    rw [haction] at htaken
    rw [hparts]
    cases hsteps : g.action with
    | nil =>
      rw [hsteps] at htaken
      have hnothing : ((w.background.markCall l).disarm l.handle).doAction [] =
          (w.background.markCall l).disarm l.handle := by
        unfold Background.doAction
        rw [Cancellation.run]
      rw [hnothing, hidle]
      exact ⟨_, htaken⟩
    | cons first rest =>
      rw [hsteps] at htaken
      rw [hidle]
      exact ⟨_, htaken.step (.act rfl)⟩

end CallWatch

end DataAccess
