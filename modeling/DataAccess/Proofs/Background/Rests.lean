import DataAccess.Engine.Scripted
import DataAccess.Proofs.Background.Balance

/-!
This module contains that a stream rests on all published changes: whatever the order of what happens, it
only waits when its last run was begun after all changes of its tables. Main statement: its runs, its items
and its end are as they should be at any time.
-/

namespace DataAccess

open StreamEvent

def StreamStage.isOver : StreamStage α → Bool
  | .over => true
  | _ => false

structure Sight (α : Type) where
  stage : StreamStage α
  queued : Nat
  inbox : List NameSet
  handles : Nat

namespace Background

/-- The stream of a number is over tables and looks so. Once the end was told it has no observer. -/
structure Shows (number : Nat) (watched : List String) (v : Sight α) (b : Background σ α) : Prop where
  stream : ∃ s, b.streams[number]? = some s ∧ s.stage = v.stage
  queued : b.queue.count (.stream number) = v.queued
  observer : v.stage.isOver = false →
    b.database.tracker.observer? (.stream number)
      = some ⟨.stream number, Tracker.lowerNames watched, v.inbox⟩
  handles : b.database.tracker.handles = v.handles

namespace Shows

variable {number : Nat} {watched : List String} {v : Sight α} {b : Background σ α}

theorem alike (h : Shows number watched v b) {b' : Background σ α} (halike : b.Alike number b')
    : Shows number watched v b' where
  stream := halike.stream ▸ h.stream
  queued := halike.queued.trans h.queued
  observer hopen := halike.observer.trans (h.observer hopen)
  handles := halike.handles.trans h.handles

theorem setStage (h : Shows number watched v b) {stage : StreamStage α}
    (hopen : stage.isOver = false → v.stage.isOver = false)
    : Shows number watched { v with stage } (b.setStage number stage) where
  stream := by
    obtain ⟨s, hs, _⟩ := h.stream
    refine ⟨{ s with stage }, ?_, rfl⟩
    change (b.streams.modify number ({ · with stage }))[number]? = _
    rw [List.getElem?_modify, hs]
    simp
  queued := h.queued
  observer hstage := h.observer (hopen hstage)
  handles := h.handles

theorem held_eq (h : Shows number watched v b) : b.held number = v.stage.held := by
  obtain ⟨s, hs, hstage⟩ := h.stream
  unfold held
  rw [hs, ← hstage]
  rfl

theorem startRun (h : Shows number watched v b) (hopen : v.stage.isOver = false)
    : ((b.startRun number).1 = .pending ∧
          Shows number watched { v with stage := .running, queued := v.queued + 1 }
            (b.startRun number).2) ∨
        ((b.startRun number).1 = .item (.error .noExecutor) ∧
          Shows number watched { v with stage := .finished } (b.startRun number).2) := by
  unfold Background.startRun
  split
  . left
    have hrunning : Shows number watched { v with stage := .running } (b.setStage number .running) :=
      h.setStage fun _ => hopen
    refine ⟨rfl, hrunning.stream, ?_, hrunning.observer, hrunning.handles⟩
    change (b.queue ++ [QueuedWork.stream number]).count (.stream number) = v.queued + 1
    rw [List.count_append, h.queued]
    simp
  . right
    exact ⟨rfl, h.setStage fun _ => hopen⟩

theorem rerun (h : Shows number watched v b) (hopen : v.stage.isOver = false)
    (hhandles : 0 < v.handles)
    : (v.inbox = [] ∧ b.rerun number = (.pending, b.setStage number .waiting)) ∨
        (v.inbox ≠ [] ∧ ∃ b', Shows number watched { v with inbox := [] } b' ∧
          b'.executor = b.executor ∧ b.rerun number = b'.startRun number) := by
  have hobserver := h.observer hopen
  unfold Background.rerun
  rcases Tracker.changed_of_observer? (h.handles ▸ hhandles) hobserver
    with ⟨hempty, hchanged⟩ | ⟨hsome, names, hchanged⟩
  . left
    rw [hchanged]
    exact ⟨hempty, rfl⟩
  . right
    rw [hchanged]
    refine ⟨hsome, { b with database.tracker := b.database.tracker.consume (.stream number) },
      ?_, rfl, rfl⟩
    exact ⟨h.stream, h.queued, fun _ => Tracker.observer?_consume _ _ hobserver, h.handles⟩

end Shows

end Background

namespace Watch

structure Accords (number : Nat) (watched : List String) (v : Sight α) (w : Watch σ α) : Prop where
  shows : w.background.Shows number watched v
  handles : v.handles = w.clones + 1
  balanced : Balanced watched v.stage v.queued v.inbox.length w.past
  yields : Yields v.stage w.past

variable {number : Nat} {watched : List String} {v : Sight α} {w : Watch σ α}

theorem poll_eq {p : StreamPoll α} {b : Background σ α}
    (h : w.background.pollStream number = (p, b))
    (hknown : w.background.held number ≠ [] ∨ ∀ f, p ≠ .item (.error f))
    : w.poll number = ({ w with background := b }).remember (.answered p) := by
  unfold poll
  rw [h]
  dsimp only
  split
  . next f =>
    rcases hknown with hheld | hvalue
    . rw [if_neg (by simpa using hheld)]
    . exact absurd rfl (hvalue f)
  . rfl

theorem poll_refused {f : Fault} {b : Background σ α}
    (h : w.background.pollStream number = (.item (.error f), b))
    (hnone : w.background.held number = [])
    : w.poll number = ⟨b, w.clones, .answered (.item (.error f)) :: .refused f :: w.past⟩ := by
  unfold poll
  rw [h]
  dsimp only
  rw [if_pos (by simp [hnone])]
  rfl

namespace Accords

theorem held_eq (h : Accords number watched v w) : w.background.held number = v.stage.held :=
  h.shows.held_eq

theorem publish (h : Accords number watched v w) (tables : List String)
    : ∃ inbox, Accords number watched { v with inbox } (w.publish tables) := by
  obtain ⟨inbox, hlength, htell⟩ : ∃ inbox : List NameSet,
      inbox.length = v.inbox.length + (if Hits watched tables then 1 else 0) ∧
        Tracker.Observer.tell (Tracker.lowerNames tables)
            ⟨.stream number, Tracker.lowerNames watched, v.inbox⟩
          = ⟨.stream number, Tracker.lowerNames watched, inbox⟩ := by
    by_cases hhits : Hits watched tables
    . obtain ⟨message, htell⟩ := Tracker.tell_of_hits hhits (.stream number) v.inbox
      exact ⟨_, by simp [hhits], htell⟩
    . exact ⟨v.inbox, by simp [hhits], Tracker.tell_of_not_hits hhits _ _⟩
  have hhandles : 0 < w.background.database.tracker.handles := by
    rw [h.shows.handles, h.handles]
    exact Nat.succ_pos _
  refine ⟨inbox, ⟨h.shows.stream, h.shows.queued, fun hopen => ?_, ?_⟩, h.handles, ?_, ?_⟩
  . change (w.background.database.tracker.notify tables).observer? (.stream number) = _
    rw [Tracker.observer?_notify _ _ hhandles, h.shows.observer hopen, Option.map_some, htell]
  . exact (Tracker.handles_notify _ tables).trans h.shows.handles
  . rw [hlength]
    exact h.balanced.published tables
  . apply h.yields.unchanged
    . exact ⟨rfl, rfl, fun heq => by cases heq⟩
    . exact fun hstart => by cases hstart

theorem asked {p : StreamPoll α} {b : Background σ α} {stage : StreamStage α}
    (h : Accords number watched v w) (hpoll : w.background.pollStream number = (p, b))
    (hknown : w.background.held number ≠ [] ∨ ∀ f, p ≠ .item (.error f))
    (hshows : b.Shows number watched { v with stage })
    (hbalanced : Balanced watched stage v.queued v.inbox.length w.past)
    (hyields : Yields stage (.answered p :: w.past))
    : ∃ v', Accords number watched v' (w.poll number) := by
  refine ⟨{ v with stage }, ?_⟩
  rw [poll_eq hpoll hknown]
  exact ⟨hshows, h.handles, hbalanced.answered ⟨rfl, rfl, rfl⟩, hyields⟩

theorem wanted {inbox : List NameSet} {b : Background σ α} (h : Accords number watched v w)
    (hpoll : w.background.pollStream number = b.startRun number)
    (hshows : b.Shows number watched { v with inbox })
    (hstage : v.stage.held = [] ∧ v.stage.failed = false ∧ v.stage.underway = 0)
    (hleft : if v.stage.isFresh then inbox.length = v.inbox.length
      else inbox.length < v.inbox.length)
    : ∃ v', Accords number watched v' (w.poll number) := by
  obtain ⟨hheld, hsound, hnone⟩ := hstage
  have hopen := StreamStage.open_of_sound hsound
  have hover : v.stage.isOver = false := by
    cases hstage : v.stage with
    | «over» =>
      rw [hstage] at hopen
      cases hopen
    | fresh | waiting | running | ran | finished => rfl
  rcases hshows.startRun hover with ⟨hpending, hrunning⟩ | ⟨hrefused, hfinished⟩
  . refine ⟨⟨.running, v.queued + 1, inbox, v.handles⟩, ?_⟩
    rw [poll_eq (hpoll.trans (Prod.ext hpending rfl)) (Or.inr fun f heq => by cases heq)]
    refine ⟨hrunning, h.handles, (h.balanced.setOff hnone hleft).answered ⟨rfl, rfl, rfl⟩, ?_⟩
    exact h.yields.pending ⟨hheld, hsound, hopen⟩ ⟨rfl, rfl, rfl⟩
  . refine ⟨⟨.finished, v.queued, inbox, v.handles⟩, ?_⟩
    rw [poll_refused (hpoll.trans (Prod.ext hrefused rfl)) (h.held_eq.trans hheld)]
    have hle : inbox.length ≤ v.inbox.length := by
      split at hleft
      . exact Nat.le_of_eq hleft
      . exact Nat.le_of_lt hleft
    have hsettled : Balanced watched .finished v.queued inbox.length w.past :=
      h.balanced.settled hnone.symm rfl (fun hclosed => by cases hclosed) hle
    exact ⟨hfinished, h.handles, (hsettled.answered ⟨rfl, rfl, rfl⟩).answered ⟨rfl, rfl, rfl⟩,
      h.yields.refused hheld hsound .noExecutor⟩

theorem rerun (h : Accords number watched v w)
    (hpoll : w.background.pollStream number = w.background.rerun number)
    (hstage : v.stage = .waiting ∨ v.stage = .ran (.ok none))
    : ∃ v', Accords number watched v' (w.poll number) := by
  have hfacts : v.stage.held = [] ∧ v.stage.failed = false ∧ v.stage.underway = 0 ∧
      v.stage.isFresh = false ∧ v.stage.closed = false ∧ v.stage.isOver = false := by
    rcases hstage with hstage | hstage
    . rw [hstage]
      exact ⟨rfl, rfl, rfl, rfl, rfl, rfl⟩
    . rw [hstage]
      exact ⟨rfl, rfl, rfl, rfl, rfl, rfl⟩
  obtain ⟨hheld, hsound, hnone, hfresh, hopen, hover⟩ := hfacts
  rcases h.shows.rerun hover (h.handles ▸ Nat.succ_pos _)
    with ⟨_, hrerun⟩ | ⟨hsome, b, hshows, _, hrerun⟩
  . apply h.asked (hpoll.trans hrerun) (Or.inr fun f heq => by cases heq)
    . exact h.shows.setStage fun _ => hover
    . exact h.balanced.settled hnone.symm rfl (fun _ => ⟨hfresh, hopen, rfl⟩) (Nat.le_refl _)
    . exact h.yields.pending ⟨hheld, hsound, hopen⟩ ⟨rfl, rfl, rfl⟩
  . apply h.wanted (hpoll.trans hrerun) hshows ⟨hheld, hsound, hnone⟩
    rw [hfresh]
    exact List.length_pos_iff.2 hsome

theorem poll (h : Accords number watched v w) : ∃ v', Accords number watched v' (w.poll number) := by
  obtain ⟨stage, queued, inbox, handles⟩ := v
  obtain ⟨s, hs, hstage⟩ := h.shows.stream
  have hpoll := Eq.refl (w.background.pollStream number)
  -- The stage is known now, but the stream was looked up in the background.
  conv at hpoll =>
    rhs
    unfold Background.pollStream
    rw [hs]
    dsimp only
    rw [hstage]
  have hheld := h.held_eq
  have hidle {p : StreamPoll α} (hp : p ≠ .ended ∧ ∀ r, p ≠ .item r)
      : Yields stage (.answered p :: w.past) := by
    apply h.yields.unchanged
    . refine ⟨?_, rfl, fun heq => hp.1 (StreamEvent.answered.inj heq)⟩
      cases p with
      | item r => exact absurd rfl (hp.2 r)
      | pending | ended | crash => rfl
    . exact fun hstart => by cases hstart
  cases stage with
  | fresh => exact h.wanted hpoll h.shows ⟨rfl, rfl, rfl⟩ rfl
  | waiting => exact h.rerun hpoll (Or.inl rfl)
  | running =>
    apply h.asked hpoll (Or.inr fun f heq => by cases heq) h.shows h.balanced
    exact hidle ⟨fun heq => (by cases heq), fun r heq => by cases heq⟩
  | ran r =>
    have hbalanced {stage : StreamStage α} (hstage : stage.underway = 0 ∧ stage.isFresh = false)
        : Balanced watched stage queued inbox.length w.past :=
      h.balanced.settled hstage.1 hstage.2 (fun _ => ⟨rfl, rfl, rfl⟩) (Nat.le_refl _)
    match r with
    | .ok none => exact h.rerun hpoll (Or.inr rfl)
    | .ok (some a) =>
      apply h.asked hpoll (Or.inr fun f heq => by cases heq)
      . exact h.shows.setStage fun _ => rfl
      . exact hbalanced ⟨rfl, rfl⟩
      . exact h.yields.given rfl ⟨rfl, rfl, rfl⟩
    | .error f =>
      apply h.asked hpoll
      . left
        rw [hheld]
        exact List.cons_ne_nil _ _
      . exact h.shows.setStage fun _ => rfl
      . exact hbalanced ⟨rfl, rfl⟩
      . exact h.yields.given rfl ⟨rfl, rfl, rfl⟩
  | finished =>
    apply h.asked hpoll (Or.inr fun f heq => by cases heq)
    . have hover : (w.background.setStage number .over).Shows number watched
          ⟨.over, queued, inbox, handles⟩ := h.shows.setStage fun hover => by cases hover
      exact ⟨hover.stream, hover.queued, fun hopen => (by cases hopen), hover.handles⟩
    . exact h.balanced.settled rfl rfl (fun hclosed => by cases hclosed) (Nat.le_refl _)
    . exact h.yields.stopped
  | «over» =>
    apply h.asked hpoll (Or.inr fun f heq => by cases heq) h.shows h.balanced
    exact hidle ⟨fun heq => (by cases heq), fun r heq => by cases heq⟩

theorem start (h : Accords number watched v w) (hqueue : .stream number ∈ w.background.queue)
    : ∃ v', Accords number watched v' (w.start number) := by
  obtain ⟨stage, queued, inbox, handles⟩ := v
  have hqueued : w.background.queue.count (.stream number) = queued := h.shows.queued
  have hcount : 0 < queued := by
    rw [← hqueued]
    exact List.count_pos_iff.2 hqueue
  obtain ⟨rest, rfl⟩ := Nat.exists_eq_succ_of_ne_zero (Nat.ne_of_gt hcount)
  have hrunning := h.balanced.running_of_queued hcount
  refine ⟨⟨stage, rest, inbox, handles⟩, ⟨h.shows.stream, ?_, h.shows.observer, h.shows.handles⟩,
    h.handles, h.balanced.started, ?_⟩
  . change (w.background.queue.erase (.stream number)).count (.stream number) = rest
    rw [List.count_erase_self, hqueued]
    rfl
  . apply h.yields.unchanged
    . exact ⟨rfl, rfl, fun heq => by cases heq⟩
    . intro _
      rw [show stage = _ from hrunning]
      rfl

theorem finish (h : Accords number watched v w) (hrun : ends w.past < starts w.past)
    (r : Except Fault (Option α)) : ∃ v', Accords number watched v' (w.finish number r) := by
  obtain ⟨stage, queued, inbox, handles⟩ := v
  obtain ⟨hstage, hqueued, hbalanced⟩ := h.balanced.ended hrun r
  cases hstage
  cases hqueued
  refine ⟨⟨.ran r, 0, inbox, handles⟩, ⟨?_, h.shows.queued, fun _ => h.shows.observer rfl,
    h.shows.handles⟩, h.handles, hbalanced, h.yields.ended r⟩
  obtain ⟨s, hs, hrunning⟩ := h.shows.stream
  refine ⟨{ s with runs := s.runs + 1, stage := .ran r }, ?_, rfl⟩
  change (w.background.streams.modify number _)[number]? = _
  rw [List.getElem?_modify, hs]
  simp [hrunning, StreamStage.after]

theorem step (h : Accords number watched v w) {w' : Watch σ α} (hs : Step number w w')
    : ∃ v', Accords number watched v' w' := by
  cases hs with
  | publish _ tables =>
    obtain ⟨inbox, h'⟩ := h.publish tables
    exact ⟨_, h'⟩
  | poll _ => exact h.poll
  | start hqueue => exact h.start hqueue
  | finish hrun r => exact h.finish hrun r
  | clone _ =>
    have hclone : w.background.database.tracker.clone
        = { w.background.database.tracker with
            handles := w.background.database.tracker.handles + 1 } := by
      unfold Tracker.clone
      rw [if_neg (by rw [h.shows.handles, h.handles]; exact Nat.succ_ne_zero _)]
    refine ⟨{ v with handles := v.handles + 1 }, ⟨h.shows.stream, h.shows.queued, ?_, ?_⟩,
      congrArg (· + 1) h.handles, h.balanced, h.yields⟩
    . change v.stage.isOver = false → w.background.database.tracker.clone.observer? _ = _
      rw [hclone]
      exact h.shows.observer
    . change w.background.database.tracker.clone.handles = v.handles + 1
      rw [hclone]
      exact congrArg (· + 1) h.shows.handles
  | drop hclones =>
    refine ⟨{ v with handles := v.handles - 1 }, ⟨h.shows.stream, h.shows.queued, h.shows.observer,
      congrArg (· - 1) h.shows.handles⟩, ?_, h.balanced, h.yields⟩
    have hhandles := h.handles
    change v.handles - 1 = w.clones - 1 + 1
    omega
  | elsewhere halike => exact ⟨v, h.shows.alike halike, h.handles, h.balanced, h.yields⟩

end Accords

theorem accords_of_reachable (h : Reachable number watched w)
    : ∃ v, Accords number watched v w := by
  induction h with
  | created e inTransaction work b clones hnumber hqueue hhandles =>
    refine ⟨⟨.fresh, 0, [], clones + 1⟩, ⟨?_, ?_, ?_, ?_⟩, rfl, Balanced.created watched,
      Yields.created⟩
    . subst hnumber
      refine ⟨_, List.getElem?_concat_length, rfl⟩
    . exact List.count_eq_zero.2 hqueue
    . intro _
      subst hnumber
      exact Tracker.observer?_observe _ _ (hhandles ▸ Nat.succ_pos _) watched
    . exact (Tracker.handles_observe _ _ watched).trans hhandles
  | step _ hs ih =>
    obtain ⟨v, hv⟩ := ih
    exact hv.step hs

end Watch
end DataAccess
