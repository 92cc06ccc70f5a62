import DataAccess.Invalidation

/-!
This module contains what the inbox of one observer goes through, whatever other observers there are.
-/

namespace DataAccess

/-- Some of the named tables are watched, whatever the case of their letters. -/
def Hits (watched named : List String) : Prop :=
  ∃ x ∈ named, ∃ y ∈ watched, x.map Char.toLower = y.map Char.toLower

instance (watched named : List String) : Decidable (Hits watched named) :=
  inferInstanceAs (Decidable (∃ x ∈ named, ∃ y ∈ watched, x.map Char.toLower = y.map Char.toLower))

namespace Tracker

theorem mem_lowerNames {x : String} (names : List String)
    : x ∈ lowerNames names ↔ ∃ name ∈ names, name.map Char.toLower = x := by
  unfold lowerNames
  rw [NameSet.mem_ofNames, List.mem_map]

theorem inter_isEmpty_iff (watched named : List String)
    : ((lowerNames watched).inter (lowerNames named)).isEmpty = true ↔ ¬Hits watched named := by
  unfold NameSet.inter
  rw [List.isEmpty_iff, List.filter_eq_nil_iff]
  constructor
  . rintro h ⟨x, hx, y, hy, hxy⟩
    apply h (y.map Char.toLower) ((mem_lowerNames watched).2 ⟨y, hy, rfl⟩)
    rw [List.contains_iff_mem, mem_lowerNames]
    exact ⟨x, hx, hxy⟩
  . intro h z hz hcontains
    obtain ⟨y, hy, rfl⟩ := (mem_lowerNames watched).1 hz
    rw [List.contains_iff_mem, mem_lowerNames] at hcontains
    obtain ⟨x, hx, hxy⟩ := hcontains
    exact h ⟨x, hx, y, hy, hxy⟩

theorem tell_of_hits {watched named : List String} (h : Hits watched named) (id : ObserverId)
    (inbox : List NameSet)
    : ∃ message, Observer.tell (lowerNames named) ⟨id, lowerNames watched, inbox⟩
        = ⟨id, lowerNames watched, inbox ++ [message]⟩ := by
  unfold Observer.tell
  dsimp only
  rw [if_neg (fun hempty => (inter_isEmpty_iff watched named).1 hempty h)]
  exact ⟨_, rfl⟩

theorem tell_of_not_hits {watched named : List String} (h : ¬Hits watched named) (id : ObserverId)
    (inbox : List NameSet)
    : Observer.tell (lowerNames named) ⟨id, lowerNames watched, inbox⟩
        = ⟨id, lowerNames watched, inbox⟩ := by
  unfold Observer.tell
  dsimp only
  rw [if_pos ((inter_isEmpty_iff watched named).2 h)]

theorem find?_map_of_id {f : Observer → Observer} (hf : ∀ o, (f o).id = o.id) (id : ObserverId)
    (observers : List Observer)
    : (observers.map f).find? (·.id == id) = (observers.find? (·.id == id)).map f := by
  rw [List.find?_map]
  congr 2
  funext o
  exact congrArg (· == id) (hf o)

variable (t : Tracker) (id : ObserverId)

theorem observer?_notify (hhandles : 0 < t.handles) (named : List String)
    : (t.notify named).observer? id
        = (t.observer? id).map (Observer.tell (lowerNames named)) := by
  unfold notify
  rw [if_neg (Nat.ne_of_gt hhandles)]
  apply find?_map_of_id
  intro o
  unfold Observer.tell
  dsimp only
  split
  . rfl
  . rfl

@[simp]
theorem handles_notify (named : List String) : (t.notify named).handles = t.handles := by
  unfold notify
  split
  . rfl
  . rfl

theorem observer?_consume {o : Observer} (h : t.observer? id = some o)
    : (t.consume id).observer? id = some { o with inbox := [] } := by
  have hid : o.id = id := by simpa using List.find?_some h
  unfold consume observer?
  rw [find?_map_of_id]
  . change (t.observer? id).map _ = _
    rw [h, Option.map_some, if_pos hid]
  . intro o
    split
    . rfl
    . rfl

theorem observer?_unobserve_self : (t.unobserve id).observer? id = none := by
  unfold unobserve observer?
  simp

theorem observer?_observe (hhandles : 0 < t.handles) (watched : List String)
    : (t.observe id watched).observer? id = some ⟨id, lowerNames watched, []⟩ := by
  have hothers : (t.unobserve id).observers.find? (·.id == id) = none :=
    t.observer?_unobserve_self id
  unfold observe observer?
  rw [if_neg (Nat.ne_of_gt hhandles)]
  dsimp only
  rw [List.find?_append, hothers]
  simp

@[simp]
theorem handles_observe (watched : List String) : (t.observe id watched).handles = t.handles := by
  unfold observe
  split
  . rfl
  . rfl

variable {t id}

theorem changed_of_observer? {o : Observer} (hhandles : 0 < t.handles) (h : t.observer? id = some o)
    : (o.inbox = [] ∧ t.changed id = (.pending, t)) ∨
        (o.inbox ≠ [] ∧ ∃ names, t.changed id = (.tables names, t.consume id)) := by
  unfold changed
  rw [h]
  dsimp only
  rw [if_neg (Nat.ne_of_gt hhandles)]
  by_cases hempty : o.inbox = []
  . left
    rw [if_pos (List.isEmpty_iff.2 hempty)]
    exact ⟨hempty, rfl⟩
  . right
    rw [if_neg (fun hnil => hempty (List.isEmpty_iff.1 hnil))]
    exact ⟨hempty, _, rfl⟩

end Tracker

end DataAccess
