import DataAccess.Proofs.Background.Runs

/-!
This module contains what the stage of a stream tells of its past: how many runs there were and how many
messages are unread, and what came out of the runs. Both are kept apart, as each event changes one of them.
-/

namespace DataAccess

namespace StreamStage

def isFresh : StreamStage α → Bool
  | fresh => true
  | _ => false

def failed : StreamStage α → Bool
  | .ran (.error _) | .finished | .over => true
  | _ => false

def closed : StreamStage α → Bool
  | .finished | .over => true
  | _ => false

def underway : StreamStage α → Nat
  | running => 1
  | _ => 0

theorem open_of_sound {stage : StreamStage α} (h : stage.failed = false) : stage.closed = false := by
  cases stage with
  | finished | «over» => cases h
  | fresh | waiting | running | ran => rfl

theorem eq_running {stage : StreamStage α} (h : stage.underway ≠ 0) : stage = running := by
  cases stage with
  | running => rfl
  | fresh | waiting | ran | finished | «over» => exact absurd rfl h

end StreamStage

namespace StreamEvent

variable {past : List (StreamEvent α)}

def hitCount (watched : List String) (past : List (StreamEvent α)) : Nat :=
  past.countP (hits watched)

/-- Watched tables were published since the last run was begun. -/
def Unseen (watched : List String) : List (StreamEvent α) → Prop
  | [] => False
  | h :: older => h.isStart = false ∧ (h.hits watched = true ∨ Unseen watched older)

def Failed (past : List (StreamEvent α)) : Prop :=
  ∃ f, .error f ∈ past.filterMap outcome?

def Told (past : List (StreamEvent α)) : Prop :=
  ∃ f, .error f ∈ past.filterMap item?

/-- After a run came to a fault, none is begun and none comes to anything. Only then a fault is given, after
which nothing is given. The end is told only after that. -/
def Orderly : List (StreamEvent α) → Prop
  | [] => True
  | h :: older =>
    Orderly older ∧ (Failed older → h.isStart = false ∧ h.outcome? = none) ∧
      (∀ f, h.item? = some (.error f) → Failed older) ∧ (Told older → h.item? = none) ∧
      (h = .answered .ended → Told older)

theorem outcomes_cons (h : StreamEvent α) (past : List (StreamEvent α))
    : outcomes (h :: past) = outcomes past ++ h.outcome?.toList := by
  unfold outcomes
  rw [List.reverse_cons, List.filterMap_append]
  cases hr : h.outcome? <;> simp [hr]

theorem emitted_cons (h : StreamEvent α) (past : List (StreamEvent α))
    : emitted (h :: past) = emitted past ++ h.item?.toList := by
  unfold emitted
  rw [List.reverse_cons, List.filterMap_append]
  cases hr : h.item? <;> simp [hr]

theorem exists_error_cons (g : StreamEvent α → Option (Except Fault β)) (h : StreamEvent α)
    : (∃ f, .error f ∈ (h :: past).filterMap g)
        ↔ (∃ f, g h = some (.error f)) ∨ ∃ f, .error f ∈ past.filterMap g := by
  simp only [List.mem_filterMap, List.mem_cons, or_and_right, exists_or, exists_eq_left]

theorem failed_cons (h : StreamEvent α)
    : Failed (h :: past) ↔ (∃ f, h.outcome? = some (.error f)) ∨ Failed past :=
  exists_error_cons outcome? h

theorem told_cons (h : StreamEvent α)
    : Told (h :: past) ↔ (∃ f, h.item? = some (.error f)) ∨ Told past :=
  exists_error_cons item? h

variable {newer older : List (StreamEvent α)}

theorem Failed.later (h : Failed older) (newer : List (StreamEvent α)) : Failed (newer ++ older) := by
  induction newer with
  | nil => exact h
  | cons x newer ih => exact (failed_cons x).2 (Or.inr ih)

theorem Told.later (h : Told older) (newer : List (StreamEvent α)) : Told (newer ++ older) := by
  induction newer with
  | nil => exact h
  | cons x newer ih => exact (told_cons x).2 (Or.inr ih)

theorem items_append_of_not_failed (h : ¬Failed past) (rest : List (Except Fault (Option α)))
    : items (outcomes past ++ rest) = items (outcomes past) ++ items rest := by
  have hvalues : ∀ r ∈ outcomes past, ∃ v, r = .ok v := by
    intro r hr
    cases r with
    | ok v => exact ⟨v, rfl⟩
    | error f =>
      refine absurd ⟨f, ?_⟩ h
      simpa [outcomes] using hr
  generalize outcomes past = l at hvalues
  induction l with
  | nil => rfl
  | cons r l ih =>
    obtain ⟨v, rfl⟩ := hvalues r (by simp)
    have hrest := ih fun r hr => hvalues r (by simp [hr])
    cases v with
    | none => exact hrest
    | some a => exact congrArg (.ok a :: ·) hrest

namespace Orderly

end Orderly

end StreamEvent

open StreamEvent

/-- The numbers of a stream over tables: its runs that wait and the messages that are unread. -/
structure Balanced (watched : List String) (stage : StreamStage α) (queued unread : Nat)
    (past : List (StreamEvent α)) : Prop where
  balance : queued + starts past = ends past + stage.underway
  order : ends past ≤ starts past
  begun : stage.isFresh = false → stage.closed = false → 0 < queued + starts past
  count : queued + starts past + unread
    ≤ hitCount watched past + if stage.isFresh then 0 else 1
  /-- What was not seen by the last run is unread, or the next run waits. -/
  unseen : stage.closed = false → Unseen watched past → 0 < unread ∨ 0 < queued

namespace Balanced

variable {watched : List String} {stage : StreamStage α} {queued unread : Nat}
  {past : List (StreamEvent α)}

theorem created (watched : List String) : Balanced watched (.fresh : StreamStage α) 0 0 [] where
  balance := rfl
  order := Nat.le_refl _
  begun h := by cases h
  count := Nat.le_refl _
  unseen _ h := h.elim

theorem published (h : Balanced watched stage queued unread past) (tables : List String)
    : Balanced watched stage queued (unread + if Hits watched tables then 1 else 0)
        (.published tables :: past) where
  balance := h.balance
  order := h.order
  begun := h.begun
  count := by
    have hcount := h.count
    by_cases hhits : Hits watched tables
    . have : hitCount watched (.published tables :: past) = hitCount watched past + 1 := by
        simp [hitCount, hits, hhits]
      have : starts (.published tables :: past) = starts past := rfl
      rw [if_pos hhits]
      omega
    . have : hitCount watched (.published tables :: past) = hitCount watched past := by
        simp [hitCount, hits, hhits]
      have : starts (.published tables :: past) = starts past := rfl
      rw [if_neg hhits]
      omega
  unseen hopen := by
    rintro ⟨_, hhits | hunseen⟩
    . left
      rw [if_pos (by simpa [hits] using hhits)]
      exact Nat.succ_pos _
    . exact (h.unseen hopen hunseen).imp_left fun hpos => Nat.lt_of_lt_of_le hpos (Nat.le_add_right _ _)

theorem answered (h : Balanced watched stage queued unread past) {x : StreamEvent α}
    (hx : x.isStart = false ∧ x.isEnd = false ∧ x.hits watched = false)
    : Balanced watched stage queued unread (x :: past) := by
  obtain ⟨hstart, hend, hhits⟩ := hx
  have hstarts : starts (x :: past) = starts past := by simp [starts, hstart]
  have hends : ends (x :: past) = ends past := by simp [ends, hend]
  have hcount : hitCount watched (x :: past) = hitCount watched past := by simp [hitCount, hhits]
  refine ⟨?_, ?_, ?_, ?_, ?_⟩
  . rw [hstarts, hends]
    exact h.balance
  . rw [hstarts, hends]
    exact h.order
  . rw [hstarts]
    exact h.begun
  . rw [hstarts, hcount]
    exact h.count
  . rintro hopen ⟨_, hnow | hunseen⟩
    . rw [hhits] at hnow
      cases hnow
    . exact h.unseen hopen hunseen

theorem setOff (h : Balanced watched stage queued unread past) (hnone : stage.underway = 0)
    {left : Nat} (hleft : if stage.isFresh then left = unread else left < unread)
    : Balanced watched (.running : StreamStage α) (queued + 1) left past where
  balance := by
    have hbalance := h.balance
    have : (.running : StreamStage α).underway = 1 := rfl
    omega
  order := h.order
  begun _ _ := by omega
  count := by
    have hcount := h.count
    change queued + 1 + starts past + left ≤ hitCount watched past + 1
    -- The first run takes no message, but it is the one that is allowed without any.
    cases hfresh : stage.isFresh
    all_goals simp [hfresh] at hleft hcount
    . omega
    . omega
  unseen _ _ := Or.inr (Nat.succ_pos _)

theorem settled (h : Balanced watched stage queued unread past) {stage' : StreamStage α} {left : Nat}
    (hsame : stage'.underway = stage.underway) (hnew : stage'.isFresh = false)
    (hopen : stage'.closed = false → stage.isFresh = false ∧ stage.closed = false ∧ left = unread)
    (hleft : left ≤ unread) : Balanced watched stage' queued left past where
  balance := by
    rw [hsame]
    exact h.balance
  order := h.order
  begun _ hclosed := h.begun (hopen hclosed).1 (hopen hclosed).2.1
  count := by
    have hcount := h.count
    rw [hnew]
    cases hfresh : stage.isFresh
    all_goals simp [hfresh] at hcount
    . simp
      omega
    . simp
      omega
  unseen hclosed hunseen := by
    obtain ⟨_, hold, rfl⟩ := hopen hclosed
    exact h.unseen hold hunseen

theorem running_of_queued (h : Balanced watched stage queued unread past) (hqueued : 0 < queued)
    : stage = .running := by
  have hbalance := h.balance
  have horder := h.order
  exact StreamStage.eq_running (by omega)

theorem started (h : Balanced watched stage (queued + 1) unread past)
    : Balanced watched stage queued unread (.started :: past) := by
  have hbalance := h.balance
  have hcount := h.count
  have hunderway : stage.underway = 1 := by
    rw [h.running_of_queued (Nat.succ_pos _)]
    rfl
  have hstarts : starts (.started :: past) = starts past + 1 := List.countP_cons_of_pos rfl
  have hends : ends (.started :: past) = ends past := by simp [ends, isEnd]
  have hhits : hitCount watched (.started :: past) = hitCount watched past := by
    simp [hitCount, hits]
  have horder := h.order
  refine ⟨?_, ?_, ?_, ?_, ?_⟩
  . omega
  . omega
  . intro _ _
    omega
  . rw [hstarts, hhits]
    omega
  . rintro _ ⟨hstart, _⟩
    cases hstart

theorem ended (h : Balanced watched stage queued unread past) (hrun : ends past < starts past)
    (r : Except Fault (Option α))
    : stage = .running ∧ queued = 0 ∧
        Balanced watched (stage.after r) 0 unread (.ended r :: past) := by
  have hbalance := h.balance
  obtain rfl : stage = .running := StreamStage.eq_running (by omega)
  obtain rfl : queued = 0 := by
    simp only [StreamStage.underway] at hbalance
    omega
  refine ⟨rfl, rfl, ?_⟩
  have hstarts : starts (.ended r :: past) = starts past := by simp [starts, isStart]
  have hends : ends (.ended r :: past) = ends past + 1 := List.countP_cons_of_pos rfl
  have hhits : hitCount watched (.ended r :: past) = hitCount watched past := by
    simp [hitCount, hits]
  refine ⟨?_, ?_, ?_, ?_, ?_⟩
  . simp only [StreamStage.after, StreamStage.underway] at hbalance ⊢
    omega
  . omega
  . intro _ _
    omega
  . rw [hstarts, hhits]
    exact h.count
  . rintro _ ⟨_, hnow | hunseen⟩
    . cases hnow
    . exact h.unseen rfl hunseen

end Balanced

structure Yields (stage : StreamStage α) (past : List (StreamEvent α)) : Prop where
  /-- What was given and what is held are the items of the runs. -/
  items : emitted past ++ stage.held = DataAccess.items (outcomes past)
  failed : Failed past ↔ stage.failed = true
  told : Told past ↔ stage.closed = true
  orderly : Orderly past
  asked : stage.isFresh = false → ∃ p, .answered p ∈ past

namespace Yields

variable {stage : StreamStage α} {past : List (StreamEvent α)}

theorem created : Yields (.fresh : StreamStage α) [] where
  items := rfl
  failed := by simp [Failed, StreamStage.failed]
  told := by simp [Told, StreamStage.closed]
  orderly := trivial
  asked h := by cases h

theorem not_failed (h : Yields stage past) (hopen : stage.failed = false) : ¬Failed past := by
  rw [h.failed, hopen]
  exact Bool.false_ne_true

theorem not_told (h : Yields stage past) (hopen : stage.closed = false) : ¬Told past := by
  rw [h.told, hopen]
  exact Bool.false_ne_true

theorem asked_cons (h : Yields stage past) (x : StreamEvent α) (hfresh : stage.isFresh = false)
    : ∃ p, .answered p ∈ x :: past :=
  (h.asked hfresh).imp fun _ => List.mem_cons_of_mem x

theorem quiet (h : Yields stage past) {x : StreamEvent α} {stage' : StreamStage α}
    (hx : x.item? = none ∧ x.outcome? = none ∧ x ≠ .answered .ended)
    (hstart : x.isStart = true → stage.failed = false)
    (hheld : stage'.held = stage.held) (hfailed : stage'.failed = stage.failed)
    (hclosed : stage'.closed = stage.closed)
    (hasked : stage'.isFresh = false → stage.isFresh = false ∨ ∃ p, x = .answered p)
    : Yields stage' (x :: past) where
  items := by
    rw [emitted_cons, outcomes_cons, hx.1, hx.2.1, hheld]
    simpa using h.items
  failed := by
    rw [failed_cons, hx.2.1, hfailed]
    simpa using h.failed
  told := by
    rw [told_cons, hx.1, hclosed]
    simpa using h.told
  orderly := by
    refine ⟨h.orderly, fun hbad => ⟨?_, hx.2.1⟩, fun f hf => ?_, fun _ => hx.1,
      fun hend => absurd hend hx.2.2⟩
    . cases hs : x.isStart with
      | false => rfl
      | true => exact absurd hbad (h.not_failed (hstart hs))
    . rw [hx.1] at hf
      cases hf
  asked hfresh := by
    rcases hasked hfresh with hold | ⟨p, rfl⟩
    . exact h.asked_cons x hold
    . exact ⟨p, List.mem_cons_self⟩

theorem unchanged (h : Yields stage past) {x : StreamEvent α}
    (hx : x.item? = none ∧ x.outcome? = none ∧ x ≠ .answered .ended)
    (hstart : x.isStart = true → stage.failed = false) : Yields stage (x :: past) :=
  h.quiet hx hstart rfl rfl rfl Or.inl

theorem pending (h : Yields stage past) {stage' : StreamStage α}
    (hbefore : stage.held = [] ∧ stage.failed = false ∧ stage.closed = false)
    (hafter : stage'.held = [] ∧ stage'.failed = false ∧ stage'.closed = false)
    : Yields stage' (.answered .pending :: past) := by
  apply h.quiet
  . exact ⟨rfl, rfl, fun heq => by cases heq⟩
  . exact fun hstart => by cases hstart
  . exact hafter.1.trans hbefore.1.symm
  . exact hafter.2.1.trans hbefore.2.1.symm
  . exact hafter.2.2.trans hbefore.2.2.symm
  . exact fun _ => Or.inr ⟨_, rfl⟩

theorem given (h : Yields (.ran r) past) {x : Except Fault α} {stage' : StreamStage α}
    (hx : (StreamStage.ran r).held = [x])
    (hstage : stage'.held = [] ∧ stage'.failed = (StreamStage.ran r).failed ∧
      stage'.closed = (StreamStage.ran r).failed)
    : Yields stage' (.answered (.item x) :: past) := by
  have hitem : (.answered (.item x) : StreamEvent α).item? = some x := rfl
  have houtcome : (.answered (.item x) : StreamEvent α).outcome? = none := rfl
  have herror : (∃ f, x = .error f) ↔ (StreamStage.ran r).failed = true := by
    cases r with
    | error f =>
      cases hx
      simp [StreamStage.failed]
    | ok v =>
      cases v with
      | none => cases hx
      | some a =>
        cases hx
        simp [StreamStage.failed]
  have hnot : ¬Told past := h.not_told rfl
  refine ⟨?_, ?_, ?_, ?_, fun _ => ⟨_, List.mem_cons_self⟩⟩
  . have hitems := h.items
    rw [hx] at hitems
    rw [emitted_cons, outcomes_cons, hitem, houtcome, hstage.1]
    simpa using hitems
  . rw [failed_cons, houtcome, hstage.2.1]
    simpa using h.failed
  . rw [told_cons, hitem, hstage.2.2, ← herror]
    simp [hnot]
  . refine ⟨h.orderly, fun _ => ⟨rfl, rfl⟩, fun f hf => ?_, fun ht => absurd ht hnot,
      fun hend => by cases hend⟩
    rw [h.failed, ← herror]
    exact ⟨f, Option.some.inj hf⟩

theorem refused (h : Yields stage past) (hheld : stage.held = []) (hopen : stage.failed = false)
    (f : Fault) : Yields .finished (.answered (.item (.error f)) :: .refused f :: past) := by
  have hnot := h.not_failed hopen
  have hquiet := h.not_told (StreamStage.open_of_sound hopen)
  have hitems := h.items
  rw [hheld, List.append_nil] at hitems
  have houtcomes : outcomes (.answered (.item (.error f)) :: .refused f :: past)
      = outcomes past ++ [.error f] := by
    rw [outcomes_cons, outcomes_cons]
    simp [outcome?]
  have hemitted : emitted (.answered (.item (.error f)) :: .refused f :: past)
      = emitted past ++ [.error f] := by
    rw [emitted_cons, emitted_cons]
    simp [item?]
  refine ⟨?_, ?_, ?_, ?_, fun _ => ⟨_, List.mem_cons_self⟩⟩
  . rw [houtcomes, hemitted, items_append_of_not_failed hnot, hitems]
    exact List.append_nil _
  . simp [failed_cons, outcome?, StreamStage.failed]
  . simp [told_cons, item?, StreamStage.closed]
  . refine ⟨⟨h.orderly, fun hbad => absurd hbad hnot, fun _ hf => (by cases hf), fun _ => rfl,
      fun hend => by cases hend⟩, fun _ => ⟨rfl, rfl⟩, fun _ _ => ?_, fun ht => ?_,
      fun hend => by cases hend⟩
    . exact (failed_cons _).2 (Or.inl ⟨f, rfl⟩)
    . rw [told_cons] at ht
      rcases ht with ⟨_, hitem⟩ | ht
      . cases hitem
      . exact absurd ht hquiet

theorem stopped (h : Yields (.finished : StreamStage α) past)
    : Yields (.over : StreamStage α) (.answered .ended :: past) := by
  have htold : Told past := h.told.2 rfl
  refine ⟨?_, ?_, ?_, ⟨h.orderly, fun _ => ⟨rfl, rfl⟩, fun _ hf => (by cases hf), fun _ => rfl,
    fun _ => htold⟩, fun _ => ⟨_, List.mem_cons_self⟩⟩
  . have hitems := h.items
    rw [emitted_cons, outcomes_cons]
    simpa [item?, outcome?, StreamStage.held] using hitems
  . rw [failed_cons]
    simpa [outcome?, StreamStage.failed] using h.failed
  . rw [told_cons]
    simpa [item?, StreamStage.closed] using h.told

theorem ended (h : Yields (.running : StreamStage α) past) (r : Except Fault (Option α))
    : Yields (.ran r) (.ended r :: past) := by
  have hnot := h.not_failed rfl
  have hquiet := h.not_told rfl
  have hitems := h.items
  simp only [StreamStage.held, List.append_nil] at hitems
  refine ⟨?_, ?_, ?_, ?_, fun _ => h.asked_cons _ rfl⟩
  . rw [emitted_cons, outcomes_cons]
    simp only [item?, outcome?, Option.toList_none, Option.toList_some, List.append_nil]
    rw [items_append_of_not_failed hnot, hitems]
    rfl
  . rw [failed_cons]
    cases r with
    | ok v => simp [outcome?, StreamStage.failed, hnot]
    | error f => simp [outcome?, StreamStage.failed]
  . rw [told_cons]
    simp [item?, StreamStage.closed, hquiet]
  . exact ⟨h.orderly, fun hbad => absurd hbad hnot, fun _ hf => (by cases hf), fun _ => rfl,
      fun hend => by cases hend⟩

end Yields

end DataAccess
