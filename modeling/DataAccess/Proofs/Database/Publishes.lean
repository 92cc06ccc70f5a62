import DataAccess.Proofs.Database.Routines

/-!
This module contains what becomes of a database's tracker. Main statement: whatever routines do, of the
tracker they only publish tables.
-/

namespace DataAccess

def Tracker.Follows (t' t : Tracker) : Prop :=
  ∃ named : List (List String), t' = named.foldl notify t

theorem Tracker.Follows.refl (t : Tracker) : t.Follows t :=
  ⟨[], rfl⟩

theorem Tracker.Follows.trans {t t' t'' : Tracker} (h : t'.Follows t) (h' : t''.Follows t')
    : t''.Follows t := by
  obtain ⟨named, rfl⟩ := h
  obtain ⟨further, rfl⟩ := h'
  exact ⟨named ++ further, List.foldl_append.symm⟩

theorem Tracker.Follows.notify (tables : List String) (db : Database σ)
    : (db.notify tables).tracker.Follows db.tracker := by
  unfold Database.notify
  split
  . exact .refl _
  . exact ⟨[tables], rfl⟩

def Operation.Publishes (op : Operation σ α) : Prop :=
  ∀ db, (op db).2.tracker.Follows db.tracker

namespace Operation.Publishes

theorem of_tracker {op : Operation σ α} (h : ∀ db, (op db).2.tracker = db.tracker)
    : op.Publishes := by
  intro db
  rw [h db]
  exact .refl db.tracker

theorem bind {op : Operation σ α} {f : α → Operation σ β} (h : op.Publishes)
    (hf : ∀ a, (f a).Publishes) : (op >>= f).Publishes := by
  intro db
  have hop := h db
  change (follow f (op db)).2.tracker.Follows db.tracker
  generalize op db = left at hop
  rcases left with ⟨a | e | _, db'⟩
  . exact hop.trans (hf a db')
  . exact hop
  . exact hop

theorem attempt {op : Operation σ α} (h : op.Publishes) : op.attempt.Publishes := by
  intro db
  rw [attempt_eq]
  exact h db

variable (e : Engine σ stmt)

theorem onStore (f : σ → Except Fault α × σ) : (onStore f).Publishes :=
  of_tracker fun _ => rfl

theorem publish : (Database.publish e).Publishes := by
  intro db
  apply Database.publish_induction (P := fun after => after.tracker.Follows db.tracker)
  . exact fun _ h => h
  . intro tables after h
    exact h.trans (.notify tables after)
  . exact .refl db.tracker

theorem wrote (tables : List String) : (Database.wrote e tables).Publishes := by
  intro db
  rw [Database.wrote_eq_publish]
  split
  . exact publish e db
  . exact publish e { db with store := e.recordModified tables db.store }

theorem execute (s : stmt) (tables : List String) : (Database.execute e s tables).Publishes :=
  bind (onStore _) fun _ => bind (wrote e tables) fun _ => of_tracker fun _ => rfl

theorem insert (s : stmt) (tables : List String) : (Database.insert e s tables).Publishes :=
  bind (onStore _) fun _ => bind (wrote e tables) fun _ => of_tracker fun _ => rfl

theorem query (s : stmt) (signal : Option Nat) : (Database.query e s signal).Publishes := by
  apply bind
  . cases signal with
    | none => exact of_tracker fun _ => rfl
    | some signal => exact of_tracker fun _ => rfl
  . intro _ db
    exact onStore (e.query s signal db.cancellation) db

theorem endTransaction (success : Bool) : (Database.endTransaction e success).Publishes :=
  bind (onStore _) fun _ => publish e

theorem leave (closing : Closing) : (Database.leave e closing).attempt.Publishes := by
  intro db
  obtain ⟨success, hleave⟩ := Database.snd_leave e closing db
  rw [hleave]
  exact endTransaction e success db

theorem guardedBy (closing : α → Closing) {body : Operation σ α} (h : body.Publishes)
    : (Database.guardedBy e closing body).Publishes := by
  apply bind (onStore _)
  intro _ db
  have hbody := h db
  dsimp only
  generalize body db = left at hbody
  rcases left with ⟨a | f | _, db'⟩
  . exact hbody.trans (bind (leave e (closing a)) (fun _ => of_tracker fun _ => rfl) db')
  . exact hbody.trans (endTransaction e false db')
  . exact hbody.trans (endTransaction e false db')

theorem guarded (closing : Closing) {body : Operation σ α} (h : body.Publishes)
    : (Database.guarded e closing body).Publishes := by
  intro db
  have hsame : (Database.guarded e closing body db).2
      = (Database.guardedBy e (fun _ => closing) body db).2 := by
    have hattempt := congrFun (Database.attempt_guarded e closing body) db
    have hsnd := congrArg Prod.snd hattempt
    rw [snd_map, attempt_eq, attempt_eq] at hsnd
    exact hsnd
  rw [hsame]
  exact guardedBy e (fun _ => closing) h db

theorem runIn (inTransaction : Bool) {body : Operation σ α} (h : body.Publishes)
    : (Database.runIn e inTransaction body).Publishes := by
  unfold Database.runIn
  split
  . exact guarded e .commit h
  . exact h

theorem action (a : Action stmt α) : (a.run e).Publishes := by
  cases a with
  | execute q tables => exact execute e q tables
  | insert q tables => exact insert e q tables
  | query q signal => exact query e q signal
  | inTransaction | setSignal | checkSignal | cancelHandle => exact of_tracker fun _ => rfl

theorem routine (r : Routine stmt α) : (r.run e).Publishes := by
  induction r with
  | done a => exact of_tracker fun _ => rfl
  | fail f => exact of_tracker fun _ => rfl
  | panic => exact of_tracker fun _ => rfl
  | act a next ih => exact bind (attempt (action e a)) ih
  | call body next ihBody ih => exact bind (attempt (guarded e .commit ihBody)) ih
  | guarded closing body next ihBody ih => exact bind (attempt (guardedBy e closing ihBody)) ih

end Operation.Publishes

end DataAccess
