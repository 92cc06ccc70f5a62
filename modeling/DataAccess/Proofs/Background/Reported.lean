import DataAccess.Engine.Scripted
import DataAccess.Proofs.Background.Course

/-!
This module contains what a suspended call tells its caller, whatever happens in between and however often
it is cancelled. Main statement: the caller is told of the handle first and once, and then told once how the
call ended, unless it was cancelled before the dispatcher took it up.
-/

namespace DataAccess

def CallPhase.rank : CallPhase → Nat
  | .offered => 0
  | .scheduled => 1
  | .waiting => 2
  | .running => 3
  | .ended => 4
  | .disarmed => 5
  | .over => 6

namespace CallWatch

open CallMoment

variable {l : LaunchedCall σ stmt α} {past : List (CallMoment σ α)} {b b' : Background σ α}
  {w w' : CallWatch σ α} {c : CancelPhase} {phase : CallPhase}

section Told

variable {moments : List (CallMoment σ α)}

theorem tells_of_course (h : course past = moments) : tells past = moments.filterMap event? := by
  rw [tells_eq, h]

namespace Worked

theorem tells_eq (hworked : Worked l past worked r)
    (hcourse : course past = opening ++ worked ++ moments)
    : tells past = .cancellable false :: moments.filterMap event? := by
  rw [tells_of_course hcourse]
  cases hworked with
  | refused | ended => rfl

end Worked

namespace Stands

theorem tells_eq_of_not_over (h : Stands l past b c phase) (hphase : phase ≠ .over)
    : tells past = [.cancellable false] := by
  cases h with
  | offered hcourse | scheduled hcourse | waiting hcourse | running hcourse =>
    exact tells_of_course hcourse
  | ended hcourse _ hworked => exact hworked.tells_eq (hcourse.trans (List.append_nil _).symm)
  | disarmed hcourse _ hworked => exact hworked.tells_eq hcourse
  | withdrawn => exact absurd rfl hphase
  | «over» => exact absurd rfl hphase

theorem exists_step (h : Stands l w.past w.background w.cancelling w.phase) (hoffered : w.phase ≠ .offered)
    (hrunning : w.phase ≠ .running) (hover : w.phase ≠ .over)
    : ∃ w', Step l w w' ∧ w.phase.rank < w'.phase.rank := by
  cases hphase : w.phase with
  | offered => exact absurd hphase hoffered
  | running => exact absurd hphase hrunning
  | «over» => exact absurd hphase hover
  | scheduled =>
    refine ⟨w.start l, .start hphase, ?_⟩
    unfold CallWatch.start
    split
    . simp [CallPhase.rank]
    . simp [CallPhase.rank]
  | waiting =>
    rw [hphase] at h
    cases h with
    | waiting _ _ _ hqueue =>
      refine ⟨w.enter l, .enter hphase hqueue, ?_⟩
      unfold CallWatch.enter
      split
      . simp [CallPhase.rank]
      . simp [CallPhase.rank]
  | ended => exact ⟨_, .disarm hphase, by simp [CallPhase.rank]⟩
  | disarmed =>
    rw [hphase] at h
    cases h with
    | disarmed _ _ _ hcall => exact ⟨_, .report hphase hcall, by simp [CallPhase.rank]⟩

theorem tells_cases (h : Stands l past b c phase)
    : tells past = [.cancellable false] ∨
        ∃ r, tells past = [.cancellable false, Background.report r] := by
  by_cases hphase : phase = .over
  . subst hphase
    cases h with
    | «over» hcourse _ hworked => exact .inr ⟨_, hworked.tells_eq hcourse⟩
    | withdrawn hcourse => exact .inl (tells_of_course hcourse)
  . exact .inl (h.tells_eq_of_not_over hphase)

end Stands

end Told

namespace Stands

end Stands

/-- What happens in a step is remembered. The handle is marked by nothing but a request, and an action is only
taken if there is one. -/
theorem Step.exists_since (hs : Step l w w')
    : ∃ since, w'.past = since ++ w.past ∧ (.requested ∈ since → w' = w.request l) ∧
        (.took ∈ since → since = [.took] ∧ w.background.actionOf l ≠ []) := by
  cases hs with
  | request => exact ⟨[.requested], rfl, fun _ => rfl, by simp⟩
  | again => exact ⟨[.repeated], rfl, by simp⟩
  | take =>
    unfold CallWatch.take
    dsimp only
    split
    . exact ⟨[.missed], rfl, by simp⟩
    . next hsome => exact ⟨[.took], rfl, by simp, fun _ => ⟨rfl, by rw [hsome]; nofun⟩⟩
  | act => exact ⟨[.cancelled], rfl, by simp⟩
  | schedule => exact ⟨[.scheduled], rfl, by simp⟩
  | start =>
    unfold CallWatch.start
    split
    . exact ⟨[.disarmed, .started], rfl, by simp⟩
    . exact ⟨[.started], rfl, by simp⟩
  | enter =>
    unfold CallWatch.enter
    split
    . exact ⟨[.refused], rfl, by simp⟩
    . exact ⟨[.entered], rfl, by simp⟩
  | finish _ ran => exact ⟨[.ended ran w.background.database], rfl, by simp⟩
  | disarm => exact ⟨[.disarmed], rfl, by simp⟩
  | @report r => exact ⟨[.told (Background.report r)], rfl, by simp⟩
  | elsewhere => exact ⟨[], rfl, by simp⟩

theorem exists_newer (h : Reachable l w) : ∃ newer, w.past = newer ++ [.told (.cancellable false)] := by
  induction h with
  | offered => exact ⟨[], rfl⟩
  | step _ hs ih =>
    obtain ⟨newer, hnewer⟩ := ih
    obtain ⟨since, hsince, _⟩ := hs.exists_since
    exact ⟨since ++ newer, by rw [hsince, hnewer, List.append_assoc]⟩

theorem announced_of_reachable (h : Reachable l w)
    : ∃ newer, w.past = newer ++ [.told (.cancellable false)] ∧
        ∀ c, .told (.cancellable c) ∉ newer := by
  obtain ⟨newer, hnewer⟩ := exists_newer h
  refine ⟨newer, hnewer, ?_⟩
  intro c hmem
  have htells : tells w.past = .cancellable false :: tells newer := by
    rw [hnewer]
    simp [tells, event?]
  have hagain : .cancellable c ∈ tells newer := by
    unfold tells
    exact List.mem_filterMap.2 ⟨_, List.mem_reverse.2 hmem, rfl⟩
  rcases (stands_of_reachable h).tells_cases with hnone | ⟨r, hreport⟩
  . rw [htells, List.cons.injEq] at hnone
    rw [hnone.2] at hagain
    cases hagain
  . rw [htells, List.cons.injEq] at hreport
    rw [hreport.2, List.mem_singleton] at hagain
    cases r with
    | ok | error => cases hagain

end CallWatch

end DataAccess
