import DataAccess.Proofs.Background.Inbox
import Mathlib

/-!
This module contains histories of a tracker and its observers, the latest act first. Main statement: what an
observer finds are the names of its tables that were published since it was registered or last looked, whatever
becomes of other observers.
-/

namespace DataAccess.Tracker

/-- Something that is done with a tracker or one of its observers. -/
inductive Act where
  | clone
  | dropHandle
  | observe (id : ObserverId) (tables : List String)
  | notify (tables : List String)
  | unobserve (id : ObserverId)
  | changed (id : ObserverId)
  | drain (id : ObserverId)
deriving DecidableEq

namespace Act

def apply : Act → Tracker → Tracker
  | clone, t => t.clone
  | dropHandle, t => t.dropHandle
  | observe id tables, t => t.observe id tables
  | notify tables, t => t.notify tables
  | unobserve id, t => t.unobserve id
  | changed id, t => (t.changed id).2
  | drain id, t => (t.drain id).2

/-- Whether an act is done by a handle on the tracker. Observers outlive it. -/
def byHandle : Act → Bool
  | clone | dropHandle | observe _ _ | notify _ => true
  | unobserve _ | changed _ | drain _ => false

def ends (id : ObserverId) : Act → Bool
  | observe other _ | unobserve other => other = id
  | clone | dropHandle | notify _ | changed _ | drain _ => false

/-- Whether an observer has nothing to look at afterwards. -/
def empties (id : ObserverId) : Act → Bool
  | observe other _ | unobserve other | changed other | drain other => other = id
  | clone | dropHandle | notify _ => false

/-- Whether an act is not one with another observer. -/
def concerns (id : ObserverId) : Act → Bool
  | observe other _ | unobserve other | changed other | drain other => other = id
  | clone | dropHandle | notify _ => true

end Act

def after (past : List Act) : Tracker :=
  past.foldr Act.apply .new

/-- There are handles on the tracker that are not dropped. -/
def Alive (past : List Act) : Prop :=
  past.count .dropHandle ≤ past.count .clone

instance (past : List Act) : Decidable (Alive past) :=
  inferInstanceAs (Decidable (_ ≤ _))

/-- What is done by a handle is done while there is one. -/
inductive Possible : List Act → Prop where
  | nil : Possible []
  | byHandle (h : Possible past) (halive : Alive past) : Possible (a :: past)
  | byObserver (h : Possible past) (ha : a.byHandle = false) : Possible (a :: past)

def Registered (past : List Act) (id : ObserverId) (tables : List String) : Prop :=
  ∃ newer older, past = newer ++ .observe id tables :: older ∧ ∀ a ∈ newer, a.ends id = false

def Named (tables : List String) (name : String) : Prop :=
  ∃ table ∈ tables, table.map Char.toLower = name

/-- A table of an observer was published, and since then the observer has neither looked nor been dropped. -/
def Unseen (past : List Act) (id : ObserverId) (name : String) : Prop :=
  ∃ newer published older tables,
    past = newer ++ .notify published :: older ∧ (∀ a ∈ newer, a.empties id = false) ∧
      Registered older id tables ∧ Named tables name ∧ Named published name

section

variable {past : List Act} {a : Act} {id : ObserverId} {tables : List String} {name : String}

theorem empties_of_ends (h : a.ends id = true) : a.empties id = true := by
  cases a with
  | observe | unobserve => exact h
  | _ => cases h

theorem registered_cons
    : Registered (a :: past) id tables
        ↔
      a = .observe id tables ∨ (a.ends id = false ∧ Registered past id tables) := by
  constructor
  . rintro ⟨newer, older, hpast, hnewer⟩
    cases newer with
    | nil => exact .inl (List.cons.inj hpast).1
    | cons first newer =>
      obtain ⟨rfl, rfl⟩ := List.cons.inj hpast
      obtain ⟨hfirst, hnewer⟩ := List.forall_mem_cons.1 hnewer
      exact .inr ⟨hfirst, newer, older, rfl, hnewer⟩
  . rintro (rfl | ⟨ha, newer, older, rfl, hnewer⟩)
    . exact ⟨[], past, rfl, nofun⟩
    . exact ⟨a :: newer, older, rfl, List.forall_mem_cons.2 ⟨ha, hnewer⟩⟩

theorem Registered.unique {tables' : List String} (h : Registered past id tables) (h' : Registered past id tables')
    : tables = tables' := by
  induction past with
  | nil =>
    obtain ⟨newer, older, hpast, _⟩ := h
    simp at hpast
  | cons a past ih =>
    rcases registered_cons.1 h with rfl | ⟨hends, h⟩
    . rcases registered_cons.1 h' with h' | ⟨hends, _⟩
      . cases h'
        rfl
      . simp [Act.ends] at hends
    . rcases registered_cons.1 h' with rfl | ⟨_, h'⟩
      . simp [Act.ends] at hends
      . exact ih h h'

theorem unseen_cons
    : Unseen (a :: past) id name
        ↔
      (∃ published tables, a = .notify published ∧ Registered past id tables ∧ Named tables name ∧
        Named published name) ∨
      (a.empties id = false ∧ Unseen past id name) := by
  constructor
  . rintro ⟨newer, published, older, tables, hpast, hnewer, hregistered⟩
    cases newer with
    | nil =>
      obtain ⟨rfl, rfl⟩ := List.cons.inj hpast
      exact .inl ⟨published, tables, rfl, hregistered⟩
    | cons first newer =>
      obtain ⟨rfl, rfl⟩ := List.cons.inj hpast
      obtain ⟨hfirst, hnewer⟩ := List.forall_mem_cons.1 hnewer
      exact .inr ⟨hfirst, newer, published, older, tables, rfl, hnewer, hregistered⟩
  . rintro (⟨published, tables, rfl, hregistered⟩ |
      ⟨ha, newer, published, older, tables, rfl, hnewer, hregistered⟩)
    . exact ⟨[], published, past, tables, rfl, nofun, hregistered⟩
    . exact ⟨a :: newer, published, older, tables, rfl, List.forall_mem_cons.2 ⟨ha, hnewer⟩, hregistered⟩

theorem Unseen.registered (h : Unseen past id name) : ∃ tables, Registered past id tables := by
  obtain ⟨newer, published, older, tables, rfl, hnewer, hregistered, _⟩ := h
  refine ⟨tables, ?_⟩
  induction newer with
  | nil => exact registered_cons.2 (.inr ⟨rfl, hregistered⟩)
  | cons a newer ih =>
    obtain ⟨ha, hnewer⟩ := List.forall_mem_cons.1 hnewer
    refine registered_cons.2 (.inr ⟨?_, ih hnewer⟩)
    rw [Bool.eq_false_iff] at ha ⊢
    exact fun hends => ha (empties_of_ends hends)

end

section

variable (t : Tracker) {id other : ObserverId} (hother : other ≠ id)

include hother

theorem observer?_unobserve_of_ne : (t.unobserve other).observer? id = t.observer? id := by
  unfold unobserve observer?
  rw [List.find?_filter]
  congr
  funext o
  by_cases ho : o.id = id
  . simp [ho, hother.symm]
  . simp [ho]

theorem observer?_observe_of_ne (tables : List String)
    : (t.observe other tables).observer? id = t.observer? id := by
  have hothers : (t.unobserve other).observers.find? (·.id == id) = t.observer? id :=
    t.observer?_unobserve_of_ne hother
  unfold observe
  split
  . rfl
  . unfold observer?
    dsimp only
    rw [List.find?_append, hothers]
    have hnew : [Observer.mk other (lowerNames tables) []].find? (·.id == id) = none := by
      simp [hother]
    rw [hnew, Option.or_none]
    rfl

theorem observer?_consume_of_ne : (t.consume other).observer? id = t.observer? id := by
  unfold consume observer?
  rw [find?_map_of_id]
  . cases hfound : t.observers.find? (·.id == id) with
    | none => rfl
    | some o =>
      have hid : o.id = id := by simpa using List.find?_some hfound
      rw [Option.map_some, if_neg (fun h => hother (h.symm.trans hid))]
  . intro o
    split
    . rfl
    . rfl

end

def Act.see (id : ObserverId) (alive : Bool) (o : Option Observer) : Act → Option Observer
  | observe other tables => if other = id ∧ alive then some ⟨id, lowerNames tables, []⟩ else o
  | notify tables => if alive then o.map (Observer.tell (lowerNames tables)) else o
  | unobserve other => if other = id then none else o
  | changed other | drain other => if other = id then o.map ({ · with inbox := [] }) else o
  | clone | dropHandle => o

section

variable (t : Tracker) (id : ObserverId)

theorem observer?_changed (other : ObserverId)
    : (t.changed other).2.observer? id
        = if other = id then (t.observer? id).map ({ · with inbox := [] }) else t.observer? id := by
  unfold changed
  by_cases hother : other = id
  . subst hother
    cases hfound : t.observer? other with
    | none => simp [hfound]
    | some o =>
      dsimp only
      rw [if_pos rfl]
      split
      . next hempty =>
        rw [hfound, Option.map_some, ← List.isEmpty_iff.1 hempty]
      . exact t.observer?_consume other hfound
  . rw [if_neg hother]
    split
    . rfl
    . split
      . rfl
      . exact t.observer?_consume_of_ne hother

theorem observer?_drain (other : ObserverId)
    : (t.drain other).2.observer? id
        = if other = id then (t.observer? id).map ({ · with inbox := [] }) else t.observer? id := by
  unfold drain
  by_cases hother : other = id
  . subst hother
    cases hfound : t.observer? other with
    | none => simp [hfound]
    | some o =>
      rw [if_pos rfl]
      exact t.observer?_consume other hfound
  . rw [if_neg hother]
    split
    . rfl
    . exact t.observer?_consume_of_ne hother

theorem observer?_apply (a : Act)
    : (a.apply t).observer? id = a.see id (decide (0 < t.handles)) (t.observer? id) := by
  cases a with
  | clone =>
    change (t.clone).observer? id = t.observer? id
    unfold clone
    split
    . rfl
    . rfl
  | dropHandle => rfl
  | observe other tables =>
    change (t.observe other tables).observer? id = if other = id ∧ _ then _ else _
    by_cases hhandles : 0 < t.handles
    . by_cases hother : other = id
      . rw [if_pos ⟨hother, decide_eq_true hhandles⟩, hother]
        exact t.observer?_observe id hhandles tables
      . rw [if_neg (fun h => hother h.1)]
        exact t.observer?_observe_of_ne hother tables
    . rw [if_neg (fun h => hhandles (of_decide_eq_true h.2))]
      unfold observe
      rw [if_pos (Nat.eq_zero_of_not_pos hhandles)]
  | notify tables =>
    change (t.notify tables).observer? id = if decide _ = true then _ else _
    by_cases hhandles : 0 < t.handles
    . rw [if_pos (decide_eq_true hhandles)]
      exact t.observer?_notify id hhandles tables
    . rw [if_neg (fun h => hhandles (of_decide_eq_true h))]
      unfold notify
      rw [if_pos (Nat.eq_zero_of_not_pos hhandles)]
  | unobserve other =>
    change (t.unobserve other).observer? id = if other = id then none else _
    by_cases hother : other = id
    . rw [if_pos hother, hother]
      exact t.observer?_unobserve_self id
    . rw [if_neg hother]
      exact t.observer?_unobserve_of_ne hother
  | changed other => exact t.observer?_changed id other
  | drain other => exact t.observer?_drain id other

theorem handles_apply {a : Act} (hclone : .clone ≠ a) (hdrop : .dropHandle ≠ a)
    : (a.apply t).handles = t.handles := by
  cases a with
  | clone => exact absurd rfl hclone
  | dropHandle => exact absurd rfl hdrop
  | observe id tables => exact t.handles_observe id tables
  | notify tables => exact t.handles_notify tables
  | unobserve => rfl
  | changed id =>
    change (t.changed id).2.handles = t.handles
    unfold changed
    split
    . rfl
    . split
      . rfl
      . rfl
  | drain id =>
    change (t.drain id).2.handles = t.handles
    unfold drain
    split
    . rfl
    . rfl

end

section

variable {past : List Act}

theorem handles_after (h : Possible past)
    : (after past).handles + past.count .dropHandle = past.count .clone + 1 := by
  have hother {past : List Act} {a : Act} (hclone : .clone ≠ a) (hdrop : .dropHandle ≠ a)
      (ih : (after past).handles + past.count .dropHandle = past.count .clone + 1)
      : (after (a :: past)).handles + (a :: past).count .dropHandle = (a :: past).count .clone + 1 := by
    rw [List.count_cons_of_ne hdrop.symm, List.count_cons_of_ne hclone.symm, ← ih]
    exact congrArg (· + _) (handles_apply (after past) hclone hdrop)
  induction h with
  | nil => rfl
  | @byHandle past a _ halive ih =>
    unfold Alive at halive
    cases a with
    | clone =>
      have hclone : (after (.clone :: past)).handles = (after past).handles + 1 := by
        change (after past).clone.handles = _
        unfold clone
        rw [if_neg (by omega)]
      rw [hclone, List.count_cons_self, List.count_cons_of_ne (by decide)]
      omega
    | dropHandle =>
      change (after past).handles - 1 + _ = _
      rw [List.count_cons_self, List.count_cons_of_ne (by decide)]
      omega
    | _ => exact hother nofun nofun ih
  | @byObserver past a _ ha ih =>
    refine hother ?_ ?_ ih
    . rintro rfl
      cases ha
    . rintro rfl
      cases ha

theorem handles_pos_iff (h : Possible past) : 0 < (after past).handles ↔ Alive past := by
  have hhandles := handles_after h
  unfold Alive
  omega

end

/-- An observer in the tracker has the tables that it is registered for, and in its messages is what it has not
seen. -/
inductive Faithful (past : List Act) (id : ObserverId) : Option Observer → Prop where
  | absent (h : ∀ tables, ¬Registered past id tables) : Faithful past id none
  | present (hregistered : Registered past id tables) (hmessages : ∀ message ∈ inbox, message ≠ [])
    (hunseen : ∀ x, x ∈ inbox.flatten ↔ Unseen past id x) : Faithful past id (some ⟨id, lowerNames tables, inbox⟩)

namespace Faithful

variable {past : List Act} {a : Act} {id : ObserverId} {o : Option Observer}

/-- Acts that neither publish tables nor have to do with an observer leave it as it is. -/
theorem same (h : Faithful past id o) (hnotify : ∀ tables, a ≠ .notify tables) (ha : a.empties id = false)
    : Faithful (a :: past) id o := by
  have hends : a.ends id = false := by
    rw [Bool.eq_false_iff] at ha ⊢
    exact fun hends => ha (empties_of_ends hends)
  have hobserve (tables : List String) : a ≠ .observe id tables := by
    rintro rfl
    simp [Act.ends] at hends
  have hregistered (tables : List String) : Registered (a :: past) id tables ↔ Registered past id tables := by
    rw [registered_cons, hends]
    simp [hobserve]
  have hunseen (x : String) : Unseen (a :: past) id x ↔ Unseen past id x := by
    rw [unseen_cons, ha]
    simp [hnotify]
  cases h with
  | absent h => exact .absent fun tables htables => h tables ((hregistered tables).1 htables)
  | present h hmessages hx => exact .present ((hregistered _).2 h) hmessages fun x => (hx x).trans (hunseen x).symm

theorem looked (h : Faithful past id o) (hnotify : ∀ tables, a ≠ .notify tables) (hends : a.ends id = false)
    (ha : a.empties id = true) : Faithful (a :: past) id (o.map ({ · with inbox := [] })) := by
  cases h with
  | absent h =>
    refine .absent fun tables htables => ?_
    rcases registered_cons.1 htables with rfl | ⟨_, htables⟩
    . simp [Act.ends] at hends
    . exact h tables htables
  | present h hmessages hx =>
    refine .present (registered_cons.2 (.inr ⟨hends, h⟩)) nofun fun x => ?_
    rw [unseen_cons, ha]
    simp [hnotify]

theorem notified (h : Faithful past id o) (published : List String)
    : Faithful (.notify published :: past) id (o.map (Observer.tell (lowerNames published))) := by
  cases h with
  | absent h =>
    refine .absent fun tables htables => ?_
    rcases registered_cons.1 htables with hobserve | ⟨_, htables⟩
    . cases hobserve
    . exact h tables htables
  | @present tables inbox hregistered hmessages hx =>
    have hstill : Registered (.notify published :: past) id tables := registered_cons.2 (.inr ⟨rfl, hregistered⟩)
    have hhit (x : String)
        : x ∈ (lowerNames tables).inter (lowerNames published) ↔ Named tables x ∧ Named published x := by
      unfold NameSet.inter
      rw [List.mem_filter, List.contains_iff_mem, mem_lowerNames, mem_lowerNames]
      rfl
    have hunseen (x : String)
        : Unseen (.notify published :: past) id x
            ↔ Unseen past id x ∨ x ∈ (lowerNames tables).inter (lowerNames published) := by
      rw [unseen_cons, hhit, or_comm]
      constructor
      . rintro (⟨_, h⟩ | ⟨named, watched, hact, hwatched, hnames⟩)
        . exact .inl h
        . cases hact
          cases hwatched.unique hregistered
          exact .inr hnames
      . rintro (h | hnames)
        . exact .inl ⟨rfl, h⟩
        . exact .inr ⟨published, tables, rfl, hregistered, hnames⟩
    unfold Observer.tell
    rw [Option.map_some]
    dsimp only
    split
    . next hempty =>
      rw [List.isEmpty_iff] at hempty
      refine .present hstill hmessages fun x => ?_
      rw [hunseen, hempty, hx]
      simp
    . next hne =>
      refine .present hstill ?_ fun x => ?_
      . intro message hmessage
        rcases List.mem_append.1 hmessage with hmessage | hmessage
        . exact hmessages message hmessage
        . rw [List.mem_singleton.1 hmessage]
          exact fun hnil => hne (List.isEmpty_iff.2 hnil)
      . rw [hunseen, List.flatten_append, List.mem_append, hx, List.flatten_singleton]

theorem step (h : Faithful past id o) {alive : Bool} (halive : a.byHandle = true → alive = true)
    : Faithful (a :: past) id (a.see id alive o) := by
  cases a with
  | clone => exact h.same nofun rfl
  | dropHandle => exact h.same nofun rfl
  | observe other tables =>
    rw [Act.see]
    by_cases hother : other = id
    . subst hother
      rw [if_pos ⟨rfl, halive rfl⟩]
      refine .present (registered_cons.2 (.inl rfl)) nofun fun x => ?_
      rw [unseen_cons]
      simp [Act.empties]
    . rw [if_neg (fun hboth => hother hboth.1)]
      exact h.same nofun (decide_eq_false hother)
  | notify published =>
    rw [Act.see]
    rw [if_pos (halive rfl)]
    exact h.notified published
  | unobserve other =>
    rw [Act.see]
    by_cases hother : other = id
    . subst hother
      rw [if_pos rfl]
      refine .absent fun tables htables => ?_
      rw [registered_cons] at htables
      simp [Act.ends] at htables
    . rw [if_neg hother]
      exact h.same nofun (decide_eq_false hother)
  | changed other | drain other =>
    rw [Act.see]
    by_cases hother : other = id
    . rw [if_pos hother]
      exact h.looked nofun rfl (decide_eq_true hother)
    . rw [if_neg hother]
      exact h.same nofun (decide_eq_false hother)

end Faithful

theorem faithful_after {past : List Act} (h : Possible past) (id : ObserverId)
    : Faithful past id ((after past).observer? id) := by
  have hstep {past : List Act} {a : Act} (ih : Faithful past id ((after past).observer? id))
      (halive : a.byHandle = true → 0 < (after past).handles)
      : Faithful (a :: past) id ((after (a :: past)).observer? id) := by
    change Faithful (a :: past) id ((a.apply (after past)).observer? id)
    rw [observer?_apply]
    exact ih.step fun ha => decide_eq_true (halive ha)
  induction h with
  | nil =>
    refine .absent fun tables htables => ?_
    obtain ⟨newer, older, hpast, _⟩ := htables
    simp at hpast
  | byHandle h halive ih => exact hstep ih fun _ => (handles_pos_iff h).2 halive
  | byObserver _ ha ih => exact hstep ih fun hby => absurd hby (Bool.eq_false_iff.1 ha)

theorem tables_ofNames_iff {l : List String} {P : String → Prop} (hl : ∀ x, x ∈ l ↔ P x) {x : String} (hx : P x)
    (names : NameSet)
    : Change.tables (.ofNames l) = .tables names
        ↔ names ≠ [] ∧ names.Pairwise (· < ·) ∧ ∀ x, x ∈ names ↔ P x := by
  have hnames (x : String) : x ∈ NameSet.ofNames l ↔ P x := (NameSet.mem_ofNames l).trans (hl x)
  constructor
  . rintro ⟨⟩
    exact ⟨List.ne_nil_of_mem ((hnames x).2 hx), NameSet.pairwise_ofNames l, hnames⟩
  . rintro ⟨_, hsorted, hmem⟩
    rw [hsorted.eq_of_mem_iff (NameSet.pairwise_ofNames l) fun x => (hmem x).trans (hnames x).symm]

/-- An observer is registered for some tables. -/
def Live (past : List Act) (id : ObserverId) : Prop :=
  ∃ tables, Registered past id tables

section

variable {past : List Act} (h : Possible past) (id : ObserverId)

include h

theorem live_iff : Live past id ↔ id ∈ (after past).observers.map (·.id) := by
  have hfound : (∃ o, (after past).observer? id = some o) ↔ id ∈ (after past).observers.map (·.id) := by
    unfold observer?
    rw [← Option.isSome_iff_exists, List.find?_isSome, List.mem_map]
    simp
  rw [← hfound]
  have hfaithful := faithful_after h id
  generalize (after past).observer? id = o at hfaithful
  cases hfaithful with
  | absent h => simpa [Live] using h
  | @present tables inbox hregistered => exact ⟨fun _ => ⟨_, rfl⟩, fun _ => ⟨tables, hregistered⟩⟩

/-- What an observer finds, by what it has not seen. -/
theorem changed_iff
    : (∀ names, ((after past).changed id).1 = .tables names
          ↔ names ≠ [] ∧ names.Pairwise (· < ·) ∧ ∀ x, x ∈ names ↔ Unseen past id x) ∧
        (((after past).changed id).1 = .pending ↔ Live past id ∧ (∀ x, ¬Unseen past id x) ∧ Alive past) ∧
        (((after past).changed id).1 = .closed
          ↔ (∀ x, ¬Unseen past id x) ∧ ¬(Live past id ∧ Alive past)) ∧
        (((after past).drain id).1 = true ↔ ∃ x, Unseen past id x) := by
  have hnone {names : NameSet} (hunseen : ∀ x, ¬Unseen past id x)
      : ¬(names ≠ [] ∧ names.Pairwise (· < ·) ∧ ∀ x, x ∈ names ↔ Unseen past id x) := by
    rintro ⟨hne, _, hnames⟩
    obtain ⟨x, hx⟩ := List.exists_mem_of_ne_nil names hne
    exact hunseen x ((hnames x).1 hx)
  have hfaithful := faithful_after h id
  unfold changed drain
  generalize (after past).observer? id = o at hfaithful
  cases hfaithful with
  | absent habsent =>
    have hlive : ¬Live past id := fun ⟨tables, htables⟩ => habsent tables htables
    have hunseen (x : String) : ¬Unseen past id x := fun hx => hlive hx.registered
    refine ⟨fun names => iff_of_false nofun (hnone hunseen), ?_⟩
    simp [hlive, hunseen]
  | @present tables inbox hregistered hmessages hx =>
    have hlive : Live past id := ⟨tables, hregistered⟩
    dsimp only
    rcases List.eq_nil_or_concat inbox with rfl | ⟨front, message, hinbox⟩
    . have hunseen (x : String) : ¬Unseen past id x := by
        rw [← hx]
        exact List.not_mem_nil
      have halive := handles_pos_iff h
      rw [if_pos List.isEmpty_nil]
      by_cases hhandles : (after past).handles = 0
      . have hdead : ¬Alive past := fun hpast => Nat.ne_of_gt (halive.2 hpast) hhandles
        rw [if_pos hhandles]
        refine ⟨fun names => iff_of_false nofun (hnone hunseen), ?_⟩
        simp [hdead, hunseen]
      . have hpast : Alive past := halive.1 (Nat.pos_of_ne_zero hhandles)
        rw [if_neg hhandles]
        refine ⟨fun names => iff_of_false nofun (hnone hunseen), ?_⟩
        simp [hpast, hlive, hunseen]
    . have hne : inbox ≠ [] := by simp [hinbox]
      obtain ⟨x, hmem⟩ := List.exists_mem_of_ne_nil message (hmessages message (by simp [hinbox]))
      have hunseen : Unseen past id x := (hx x).1 (List.mem_flatten.2 ⟨message, by simp [hinbox], hmem⟩)
      rw [if_neg (fun hempty => hne (List.isEmpty_iff.1 hempty))]
      refine ⟨tables_ofNames_iff hx hunseen, ?_, ?_, ?_⟩
      . exact iff_of_false nofun fun hpending => hpending.2.1 x hunseen
      . exact iff_of_false nofun fun hclosed => hclosed.1 x hunseen
      . refine iff_of_true ?_ ⟨x, hunseen⟩
        simpa using hne

end

theorem nodup_apply {t : Tracker} (a : Act) (h : (t.observers.map (·.id)).Nodup)
    : ((a.apply t).observers.map (·.id)).Nodup := by
  have hmap {f : Observer → Observer} (hf : ∀ o, (f o).id = o.id) : ((t.observers.map f).map (·.id)).Nodup := by
    rw [List.map_map]
    exact (congrArg (List.Nodup <| List.map · t.observers) (funext hf)).mpr h
  have hconsume (id : ObserverId) : ((t.consume id).observers.map (·.id)).Nodup := by
    refine hmap fun o => ?_
    split
    . rfl
    . rfl
  have hunobserve (id : ObserverId) : ((t.unobserve id).observers.map (·.id)).Nodup :=
    h.sublist (List.filter_sublist.map _)
  cases a with
  | clone =>
    change ((t.clone).observers.map (·.id)).Nodup
    unfold clone
    split
    . exact h
    . exact h
  | dropHandle => exact h
  | observe id tables =>
    change ((t.observe id tables).observers.map (·.id)).Nodup
    unfold observe
    split
    . exact h
    . rw [List.map_append, List.nodup_append']
      refine ⟨hunobserve id, List.nodup_singleton _, ?_⟩
      simp [unobserve]
  | notify tables =>
    change ((t.notify tables).observers.map (·.id)).Nodup
    unfold notify
    split
    . exact h
    . refine hmap fun o => ?_
      unfold Observer.tell
      dsimp only
      split
      . rfl
      . rfl
  | unobserve id => exact hunobserve id
  | changed id =>
    change ((t.changed id).2.observers.map (·.id)).Nodup
    unfold changed
    split
    . exact h
    . split
      . exact h
      . exact hconsume id
  | drain id =>
    change ((t.drain id).2.observers.map (·.id)).Nodup
    unfold drain
    split
    . exact h
    . exact hconsume id

theorem nodup_after (past : List Act) : ((after past).observers.map (·.id)).Nodup := by
  induction past with
  | nil => exact List.nodup_nil
  | cons a past ih => exact nodup_apply a ih

theorem fst_changed (t : Tracker) (id : ObserverId)
    : (t.changed id).1
        =
      match t.observer? id with
      | none => .closed
      | some o =>
        if o.inbox.isEmpty then if t.handles = 0 then .closed else .pending
        else .tables (NameSet.ofNames o.inbox.flatten) := by
  unfold changed
  cases t.observer? id with
  | none => rfl
  | some o =>
    dsimp only
    split
    . rfl
    . rfl

theorem fst_drain (t : Tracker) (id : ObserverId)
    : (t.drain id).1 = (t.observer? id).any fun o => !o.inbox.isEmpty := by
  unfold drain
  cases t.observer? id with
  | none | some => rfl

theorem handles_apply_congr {t t' : Tracker} (h : t.handles = t'.handles) (a : Act)
    : (a.apply t).handles = (a.apply t').handles := by
  by_cases hclone : .clone = a
  . subst hclone
    change t.clone.handles = t'.clone.handles
    unfold clone
    rw [h]
    split
    . exact h
    . rfl
  . by_cases hdrop : .dropHandle = a
    . subst hdrop
      exact congrArg (· - 1) h
    . exact (t.handles_apply hclone hdrop).trans (h.trans (t'.handles_apply hclone hdrop).symm)

theorem see_of_not_concerns {a : Act} {id : ObserverId} (ha : ¬a.concerns id = true) (alive : Bool)
    (o : Option Observer) : a.see id alive o = o := by
  cases a with
  | clone | dropHandle | notify => exact absurd rfl ha
  | observe other tables =>
    rw [Act.see, if_neg]
    exact fun h => ha (decide_eq_true h.1)
  | unobserve other | changed other | drain other =>
    rw [Act.see, if_neg]
    exact fun h => ha (decide_eq_true h)

theorem observer?_filter (past : List Act) (id : ObserverId)
    : let own := past.filter (Act.concerns id)
      (after own).handles = (after past).handles ∧ (after own).observer? id = (after past).observer? id := by
  intro own
  unfold own
  induction past with
  | nil => exact ⟨rfl, rfl⟩
  | cons a past ih =>
    obtain ⟨hhandles, hobserver⟩ := ih
    rw [List.filter_cons]
    split
    . refine ⟨handles_apply_congr hhandles a, ?_⟩
      change (a.apply (after (past.filter _))).observer? id = (a.apply (after past)).observer? id
      rw [observer?_apply, observer?_apply, hhandles, hobserver]
    . next hother =>
      change _ = (a.apply (after past)).handles ∧ _ = (a.apply (after past)).observer? id
      rw [observer?_apply, see_of_not_concerns hother, handles_apply, hhandles, hobserver]
      . exact ⟨rfl, rfl⟩
      . rintro rfl
        exact hother rfl
      . rintro rfl
        exact hother rfl

/-- An observer finds exactly the names of its tables that it has not seen, in order. While it has seen all it
waits for the tracker, as long as that is there. Nothing that is done with other observers changes this, and the
tracker counts the observers that are registered. -/
theorem observers_receive {past : List Act} (h : Possible past) (id : ObserverId)
    : let t := after past
      let own := after (past.filter (Act.concerns id))
      (∀ names, (t.changed id).1 = .tables names
          ↔ names ≠ [] ∧ names.Pairwise (· < ·) ∧ ∀ x, x ∈ names ↔ Unseen past id x) ∧
        ((t.changed id).1 = .pending ↔ Live past id ∧ (∀ x, ¬Unseen past id x) ∧ Alive past) ∧
        ((t.changed id).1 = .closed ↔ (∀ x, ¬Unseen past id x) ∧ ¬(Live past id ∧ Alive past)) ∧
        ((t.drain id).1 = true ↔ ∃ x, Unseen past id x) ∧
        (∀ x, ¬Unseen (.changed id :: past) id x ∧ ¬Unseen (.drain id :: past) id x) ∧
        (∃ ids : List ObserverId, ids.Nodup ∧ (∀ other, other ∈ ids ↔ Live past other) ∧
          t.observerCount = if Alive past then some ids.length else none) ∧
        (own.changed id).1 = (t.changed id).1 ∧ (own.drain id).1 = (t.drain id).1 := by
  intro t own
  obtain ⟨htables, hpending, hclosed, hdrain⟩ := changed_iff h id
  obtain ⟨hhandles, hobserver⟩ := observer?_filter past id
  have hempties (a : Act) (x : String) (hnotify : ∀ tables, a ≠ .notify tables) (ha : a.empties id = true)
      : ¬Unseen (a :: past) id x := by
    rw [unseen_cons, ha]
    simp [hnotify]
  refine ⟨htables, hpending, hclosed, hdrain, fun x => ⟨?_, ?_⟩, ⟨t.observers.map (·.id), nodup_after past, ?_, ?_⟩,
    ?_, ?_⟩
  . exact hempties (.changed id) x nofun (decide_eq_true rfl)
  . exact hempties (.drain id) x nofun (decide_eq_true rfl)
  . exact fun other => (live_iff h other).symm
  . unfold observerCount
    rw [List.length_map]
    by_cases halive : Alive past
    . rw [if_neg (Nat.ne_of_gt ((handles_pos_iff h).2 halive)), if_pos halive]
    . rw [if_pos (Nat.eq_zero_of_not_pos fun hpos => halive ((handles_pos_iff h).1 hpos)), if_neg halive]
  . rw [fst_changed, fst_changed, hobserver, hhandles]
  . rw [fst_drain, fst_drain, hobserver]

def dropping : List Act :=
  [.dropHandle, .unobserve (.named "two"), .notify ["A"], .changed (.named "two"), .notify ["B", "x"],
    .observe (.named "two") ["b"], .observe (.named "one") ["b", "a"]]

theorem changed_dropping : ((after dropping).changed (.named "one")).1 = .tables ["a", "b"] := by cbv

theorem changed_changed_dropping
    : ((after (.changed (.named "one") :: dropping)).changed (.named "one")).1 = .closed := by cbv

theorem observers_receive_dropped
    : Possible dropping ∧ ¬Alive dropping ∧
        ((after dropping).changed (.named "one")).1 = .tables ["a", "b"] ∧
        (∀ x, x ∈ ["a", "b"] ↔ Unseen dropping (.named "one") x) ∧
        ((after (.changed (.named "one") :: dropping)).changed (.named "one")).1 = .closed := by
  have hpossible : Possible dropping := by
    refine .byHandle (.byObserver (.byHandle (.byObserver (.byHandle (.byHandle (.byHandle .nil ?_) ?_) ?_) rfl) ?_)
      rfl) ?_
    all_goals decide +kernel
  have hgone : ¬Alive dropping := by decide +kernel
  have hunseen := ((observers_receive hpossible (.named "one")).1 ["a", "b"]).1 changed_dropping
  exact ⟨hpossible, hgone, changed_dropping, hunseen.2.2, changed_changed_dropping⟩

end DataAccess.Tracker
