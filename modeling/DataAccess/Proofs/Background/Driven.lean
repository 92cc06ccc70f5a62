import DataAccess.Background.Drive
import DataAccess.Proofs.Background.Rests
import DataAccess.Proofs.Database.Publishes
import Mathlib.Logic.Relation

/-!
This module contains that a background goes no other ways than a stream is watched on. Main statement:
driving it is a sequence of watched steps if of the tracker its work only publishes tables.
-/

namespace DataAccess

open Relation StreamEvent

namespace Background

structure Publishing (b : Background σ α) : Prop where
  futures : ∀ f ∈ b.futures, ∀ work, f.work = some work → work.Publishes
  streams : ∀ s ∈ b.streams, ∀ run, (s.work run).Publishes
  calls : ∀ c ∈ b.calls, c.work.Publishes

variable {b : Background σ α} {number : Nat}

namespace Publishing

variable (e : Engine σ stmt) (inTransaction : Bool)

theorem new (database : Database σ) (executor ownDispatcher : Bool)
    : (Background.new database executor ownDispatcher : Background σ α).Publishing where
  futures _ h := by cases h
  streams _ h := by cases h
  calls _ h := by cases h

theorem createStream (h : b.Publishing) (tables : List String) {work : Nat → Operation σ (Option α)}
    (hwork : ∀ run, (work run).Publishes)
    : (b.createStream e inTransaction tables work).2.Publishing := by
  refine ⟨h.futures, ?_, h.calls⟩
  intro s hs
  rcases List.mem_append.1 hs with hs | hs
  . exact h.streams s hs
  . rw [List.mem_singleton.1 hs]
    exact fun run => .runIn e inTransaction (hwork run)

theorem signalledWork {body : Nat → Operation σ α} (hbody : ∀ signal, (body signal).Publishes)
    (signal : Nat) : (Background.signalledWork e inTransaction signal body).Publishes :=
  .bind (.of_tracker fun _ => rfl) fun _ => .runIn e inTransaction (hbody signal)

theorem createFuture (h : b.Publishing) {body : Nat → Operation σ α}
    (hbody : ∀ signal, (body signal).Publishes)
    : (b.createFuture e inTransaction body).2.Publishing := by
  have hwork := signalledWork e inTransaction hbody
  obtain ⟨f, hf, hfutures, hstreams, hcalls⟩ : ∃ f : QueryFuture σ α,
      (∀ work, f.work = some work → work.Publishes) ∧
      (b.createFuture e inTransaction body).2.futures = b.futures ++ [f] ∧
      (b.createFuture e inTransaction body).2.streams = b.streams ∧
      (b.createFuture e inTransaction body).2.calls = b.calls := by
    unfold Background.createFuture
    dsimp only
    cases b.executor with
    | true =>
      refine ⟨_, ?_, rfl, rfl, rfl⟩
      rintro work ⟨⟩
      exact hwork _
    | false =>
      refine ⟨_, ?_, rfl, rfl, rfl⟩
      rintro work ⟨⟩
  refine ⟨?_, hstreams ▸ h.streams, hcalls ▸ h.calls⟩
  intro g hg
  rw [hfutures] at hg
  rcases List.mem_append.1 hg with hg | hg
  . exact h.futures g hg
  . exact List.mem_singleton.1 hg ▸ hf

theorem launch (h : b.Publishing) (name : String) {body : Nat → Operation σ α}
    (hbody : ∀ signal, (body signal).Publishes)
    : (b.launch e name inTransaction body).2.Publishing := by
  have hwork := signalledWork e inTransaction hbody
  obtain ⟨c, hc, hfutures, hstreams, hcalls⟩ : ∃ c : SuspendedCall σ α, c.work.Publishes ∧
      (b.launch e name inTransaction body).2.futures = b.futures ∧
      (b.launch e name inTransaction body).2.streams = b.streams ∧
      (b.launch e name inTransaction body).2.calls = b.calls ++ [c] := by
    unfold Background.launch dispatcher
    dsimp only
    cases b.ownDispatcher || b.executor with
    | true => exact ⟨_, hwork _, rfl, rfl, rfl⟩
    | false => exact ⟨_, hwork _, rfl, rfl, rfl⟩
  refine ⟨hfutures ▸ h.futures, hstreams ▸ h.streams, ?_⟩
  intro d hd
  rw [hcalls] at hd
  rcases List.mem_append.1 hd with hd | hd
  . exact h.calls d hd
  . exact List.mem_singleton.1 hd ▸ hc

end Publishing

theorem runFuture_eq (h : b.Publishing) {f : QueryFuture σ α} (hf : b.futures[number]? = some f)
    : ∃ r database, database.tracker.Follows b.database.tracker ∧
        b.runFuture number
          = { b with
              database
              futures := b.futures.set number { f with reply := .arrived r } } := by
  unfold runFuture
  rw [hf]
  dsimp only
  split
  . exact ⟨_, b.database, .refl _, rfl⟩
  . split
    . exact ⟨_, b.database, .refl _, rfl⟩
    . next work hwork => exact ⟨_, _, h.futures f (List.mem_of_getElem? hf) work hwork b.database, rfl⟩

theorem runCall_eq (h : b.Publishing) {c : SuspendedCall σ α} (hc : b.calls[number]? = some c)
    : ∃ r database, database.tracker.Follows b.database.tracker ∧
        b.runCall number
          = { b with
              database
              calls := b.calls.set number { c with stage := .done r } } := by
  unfold runCall
  rw [hc]
  exact ⟨_, _, h.calls c (List.mem_of_getElem? hc) b.database, rfl⟩

/-- A run of a stream does the stream's work and finishes with its outcome. -/
theorem runStream_eq {s : QueryStream σ α} (hs : b.streams[number]? = some s)
    : b.runStream number
        = (b.perform (s.work s.runs)).2.finishRun number (b.perform (s.work s.runs)).1.result := by
  unfold runStream finishRun
  rw [hs]
  dsimp only
  congr 1
  change b.streams.set number _ = b.streams.modify number _
  rw [List.modify_eq_set_getElem?, hs]
  rfl

theorem Publishing.runWork (h : b.Publishing) (x : QueuedWork) : (b.runWork x).Publishing := by
  cases x with
  | future n =>
    change (b.runFuture n).Publishing
    cases hf : b.futures[n]? with
    | none =>
      unfold runFuture
      rw [hf]
      exact h
    | some f =>
      obtain ⟨r, database, _, heq⟩ := runFuture_eq h hf
      rw [heq]
      refine ⟨?_, h.streams, h.calls⟩
      intro g hg work hwork
      rcases List.mem_or_eq_of_mem_set hg with hg | rfl
      . exact h.futures g hg work hwork
      . exact h.futures f (List.mem_of_getElem? hf) work hwork
  | stream n =>
    change (b.runStream n).Publishing
    cases hs : b.streams[n]? with
    | none =>
      unfold runStream
      rw [hs]
      exact h
    | some s =>
      unfold runStream
      rw [hs]
      refine ⟨h.futures, ?_, h.calls⟩
      intro t ht
      rcases List.mem_or_eq_of_mem_set ht with ht | rfl
      . exact h.streams t ht
      . exact h.streams s (List.mem_of_getElem? hs)
  | call n =>
    change (b.runCall n).Publishing
    cases hc : b.calls[n]? with
    | none =>
      unfold runCall
      rw [hc]
      exact h
    | some c =>
      obtain ⟨r, database, _, heq⟩ := runCall_eq h hc
      rw [heq]
      refine ⟨h.futures, h.streams, ?_⟩
      intro d hd
      rcases List.mem_or_eq_of_mem_set hd with hd | rfl
      . exact h.calls d hd
      . exact h.calls c (List.mem_of_getElem? hc)

theorem runWork_queue (b : Background σ α) (x : QueuedWork) (queue : List QueuedWork)
    : { b with queue }.runWork x = { b.runWork x with queue } := by
  cases x with
  | future n =>
    unfold runWork runFuture
    dsimp only
    cases b.futures[n]? with
    | none => rfl
    | some f =>
      dsimp only
      cases f.aborted with
      | true => rfl
      | false =>
        cases f.work with
        | none => rfl
        | some work => rfl
  | stream n =>
    unfold runWork runStream
    dsimp only
    cases b.streams[n]? with
    | none => rfl
    | some s => rfl
  | call n =>
    unfold runWork runCall
    dsimp only
    cases b.calls[n]? with
    | none => rfl
    | some c => rfl

theorem foldl_runWork_queue (b : Background σ α) (xs queue : List QueuedWork)
    : xs.foldl runWork { b with queue } = { xs.foldl runWork b with queue } := by
  induction xs generalizing b with
  | nil => rfl
  | cons x rest ih =>
    rw [List.foldl_cons, runWork_queue]
    exact ih (b.runWork x)

theorem runWork_others (h : b.Publishing) {x : QueuedWork} (hx : x ≠ .stream number)
    : (b.runWork x).streams[number]? = b.streams[number]? ∧
        (b.runWork x).database.tracker.Follows b.database.tracker := by
  cases x with
  | future n =>
    change (b.runFuture n).streams[number]? = _ ∧ (b.runFuture n).database.tracker.Follows _
    cases hf : b.futures[n]? with
    | none =>
      unfold runFuture
      rw [hf]
      exact ⟨rfl, .refl _⟩
    | some f =>
      obtain ⟨r, database, hfollows, heq⟩ := runFuture_eq h hf
      rw [heq]
      exact ⟨rfl, hfollows⟩
  | stream n =>
    have hn : n ≠ number := fun heq => hx (heq ▸ rfl)
    change (b.runStream n).streams[number]? = _ ∧ (b.runStream n).database.tracker.Follows _
    cases hs : b.streams[n]? with
    | none =>
      unfold runStream
      rw [hs]
      exact ⟨rfl, .refl _⟩
    | some s =>
      unfold runStream
      rw [hs]
      exact ⟨List.getElem?_set_ne hn, h.streams s (List.mem_of_getElem? hs) s.runs b.database⟩
  | call n =>
    change (b.runCall n).streams[number]? = _ ∧ (b.runCall n).database.tracker.Follows _
    cases hc : b.calls[n]? with
    | none =>
      unfold runCall
      rw [hc]
      exact ⟨rfl, .refl _⟩
    | some c =>
      obtain ⟨r, database, hfollows, heq⟩ := runCall_eq h hc
      rw [heq]
      exact ⟨rfl, hfollows⟩

namespace Alike

theorem refl (b : Background σ α) : b.Alike number b :=
  ⟨rfl, rfl, rfl, rfl⟩

theorem trans {b' b'' : Background σ α} (h : b.Alike number b') (h' : b'.Alike number b'')
    : b.Alike number b'' where
  stream := h'.stream.trans h.stream
  queued := h'.queued.trans h.queued
  observer := h'.observer.trans h.observer
  handles := h'.handles.trans h.handles

theorem forCalls {f : Nat → Background σ α → Background σ α}
    (hf : ∀ n (b : Background σ α), b.Alike number (f n b)) (b : Background σ α)
    : b.Alike number (b.forCalls f) := by
  unfold Background.forCalls
  generalize List.range b.calls.length = numbers
  induction numbers generalizing b with
  | nil => exact refl b
  | cons n rest ih => exact (hf n b).trans (ih (f n b))

theorem startCall (n : Nat) (b : Background σ α) : b.Alike number (b.startCall n) := by
  unfold Background.startCall
  split
  . exact refl b
  . split
    . split
      . exact ⟨rfl, rfl, rfl, rfl⟩
      . refine ⟨rfl, ?_, rfl, rfl⟩
        change (b.queue ++ [QueuedWork.call n]).count (.stream number) = _
        simp
    . exact refl b

theorem deliver (n : Nat) (b : Background σ α) : b.Alike number (b.deliver n) := by
  unfold Background.deliver
  split
  . exact refl b
  . split
    . exact ⟨rfl, rfl, rfl, rfl⟩
    . exact refl b

end Alike

theorem Publishing.startCall (h : b.Publishing) (n : Nat) : (b.startCall n).Publishing := by
  unfold Background.startCall
  split
  . exact h
  . next c hc =>
    have hset (stage : CallStage α) : ∀ d ∈ b.calls.set n { c with stage }, d.work.Publishes := by
      intro d hd
      rcases List.mem_or_eq_of_mem_set hd with hd | rfl
      . exact h.calls d hd
      . exact h.calls c (List.mem_of_getElem? hc)
    split
    . split
      . exact ⟨h.futures, h.streams, hset .over⟩
      . exact ⟨h.futures, h.streams, hset .working⟩
    . exact h

theorem Publishing.startCalls (h : b.Publishing) : b.startCalls.Publishing := by
  unfold Background.startCalls forCalls
  generalize List.range b.calls.length = numbers
  induction numbers generalizing b with
  | nil => exact h
  | cons n rest ih => exact ih (h.startCall n)

end Background

namespace Watch

variable {number : Nat} {watched : List String} {w : Watch σ α}

theorem exists_published (number : Nat) (w : Watch σ α) {b : Background σ α}
    (hstream : b.streams[number]? = w.background.streams[number]?)
    (hqueue : b.queue.count (.stream number) = w.background.queue.count (.stream number))
    (htracker : b.database.tracker.Follows w.background.database.tracker)
    : ∃ w', ReflTransGen (Step number) w w' ∧ w'.background = b ∧
        ends w'.past = ends w.past ∧ starts w'.past = starts w.past := by
  obtain ⟨named, htracker⟩ := htracker
  induction named generalizing w with
  | nil =>
    have halike : w.background.Alike number b :=
      ⟨hstream, hqueue, by rw [htracker]; rfl, by rw [htracker]; rfl⟩
    exact ⟨_, .single (.elsewhere halike), rfl, rfl, rfl⟩
  | cons tables rest ih =>
    -- These tables are published first, and the rest starts from the tracker after that.
    obtain ⟨w', hsteps, hw'⟩ := ih (w.publish tables) hstream hqueue htracker
    exact ⟨w', .head (.publish w tables) hsteps, hw'⟩

theorem exists_runStream (h : w.background.Publishing) (horder : ends w.past ≤ starts w.past)
    {rest : List QueuedWork} (hqueue : w.background.queue = .stream number :: rest)
    : ∃ w', ReflTransGen (Step number) w w' ∧
        w'.background = { w.background.runStream number with queue := rest } ∧
        ends w'.past ≤ starts w'.past := by
  have hstart : Step number w (w.start number) := .start (hqueue ▸ List.mem_cons_self)
  have hbackground : (w.start number).background = { w.background with queue := rest } := by
    change { w.background with queue := w.background.queue.erase (.stream number) } = _
    rw [hqueue, List.erase_cons_head]
  have hstarts : starts (w.start number).past = starts w.past + 1 := List.countP_cons_of_pos rfl
  have hends : ends (w.start number).past = ends w.past := List.countP_cons_of_neg (by simp [isEnd])
  have hbegun : ends (w.start number).past < starts (w.start number).past := by omega
  have hrun := Background.runWork_queue w.background (.stream number) rest
  change Background.runStream number { w.background with queue := rest } = _ at hrun
  cases hs : w.background.streams[number]? with
  | none =>
    refine ⟨w.start number, .single hstart, hbackground.trans ?_, Nat.le_of_lt hbegun⟩
    unfold Background.runStream
    rw [hs]
  | some s =>
    have hs' : (w.start number).background.streams[number]? = some s := hs
    have hdone := Background.runStream_eq hs'
    generalize hworked : (w.start number).background.perform (s.work s.runs) = worked at hdone
    have htracker : worked.2.database.tracker.Follows w.background.database.tracker := by
      rw [← hworked]
      exact h.streams s (List.mem_of_getElem? hs) s.runs _
    obtain ⟨w', hsteps, hw', hends', hstarts'⟩ := exists_published number (w.start number)
      (by rw [← hworked]; rfl) (by rw [← hworked]; rfl) htracker
    have hrunning : ends w'.past < starts w'.past := by omega
    refine ⟨w'.finish number worked.1.result, ?_, ?_, ?_⟩
    . exact (ReflTransGen.head hstart hsteps).tail (.finish hrunning _)
    . change w'.background.finishRun number worked.1.result = _
      rw [hw', ← hdone, hbackground, hrun]
      rfl
    . have hended : ends (w'.finish number worked.1.result).past = ends w'.past + 1 :=
        List.countP_cons_of_pos rfl
      have hsame : starts (w'.finish number worked.1.result).past = starts w'.past :=
        List.countP_cons_of_neg (by simp [isStart])
      omega

theorem exists_runWork (number : Nat) (h : w.background.Publishing)
    (horder : ends w.past ≤ starts w.past) {x : QueuedWork} {rest : List QueuedWork}
    (hqueue : w.background.queue = x :: rest)
    : ∃ w', ReflTransGen (Step number) w w' ∧
        w'.background = { w.background.runWork x with queue := rest } ∧
        ends w'.past ≤ starts w'.past := by
  by_cases hx : x = .stream number
  . subst hx
    exact exists_runStream h horder hqueue
  . obtain ⟨hstream, htracker⟩ := Background.runWork_others h hx
    have hcount : rest.count (.stream number) = w.background.queue.count (.stream number) := by
      rw [hqueue, List.count_cons_of_ne hx]
    obtain ⟨w', hsteps, hw', hends, hstarts⟩ := exists_published number w
      (b := { w.background.runWork x with queue := rest }) hstream hcount htracker
    exact ⟨w', hsteps, hw', by omega⟩

theorem exists_runQueue (number : Nat) (h : w.background.Publishing)
    (horder : ends w.past ≤ starts w.past)
    : ∃ w', ReflTransGen (Step number) w w' ∧ w'.background = w.background.runQueue := by
  unfold Background.runQueue
  rw [Background.foldl_runWork_queue]
  generalize hqueue : w.background.queue = xs
  induction xs generalizing w with
  | nil =>
    refine ⟨w, .refl, ?_⟩
    change w.background = { w.background with queue := [] }
    rw [← hqueue]
  | cons x rest ih =>
    obtain ⟨w', hsteps, hw', horder'⟩ := exists_runWork number h horder hqueue
    have h' : w'.background.Publishing := by
      rw [hw']
      obtain ⟨hfutures, hstreams, hcalls⟩ := h.runWork x
      exact ⟨hfutures, hstreams, hcalls⟩
    obtain ⟨w'', hrest, hw''⟩ := ih h' horder' (by rw [hw'])
    refine ⟨w'', hsteps.trans hrest, ?_⟩
    rw [hw'', hw', Background.foldl_runWork_queue]
    rfl

/-- Whatever waits in the background, driving it is nothing but watched steps. -/
theorem exists_drive (hreachable : Reachable number watched w) (h : w.background.Publishing)
    : ∃ w', ReflTransGen (Step number) w w' ∧ w'.background = w.background.drive := by
  obtain ⟨v, hv⟩ := accords_of_reachable hreachable
  have hstarted : Step number w { w with background := w.background.startCalls } :=
    .elsewhere (Background.Alike.forCalls Background.Alike.startCall _)
  obtain ⟨w', hsteps, hw'⟩ := exists_runQueue number
    (w := { w with background := w.background.startCalls }) h.startCalls hv.balanced.order
  have hdelivered : Step number w' { w' with background := w'.background.deliverAll } :=
    .elsewhere (Background.Alike.forCalls Background.Alike.deliver _)
  refine ⟨_, (ReflTransGen.head hstarted hsteps).tail hdelivered, ?_⟩
  change w'.background.deliverAll = _
  rw [hw']
  rfl

end Watch

end DataAccess
