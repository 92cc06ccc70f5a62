import DataAccess.Compile.Plan
import Mathlib

/-!
This module contains what holds of the fields of every draft that methods are drafted into: their names
are distinct, and a field that is requested for a prepared statement prepares the statement that its
fingerprint tells.
-/

namespace DataAccess

open Code (Expr)

namespace Draft

theorem candidate_injective (base : String) : Function.Injective (candidate base) := by
  intro j k h
  have append_ne (n : Nat) : base ≠ base ++ "_" ++ toString n := by
    intro hn
    have := congrArg String.length hn
    simp only [String.length_append] at this
    have : "_".length = 1 := rfl
    omega
  cases j with
  | zero =>
    cases k with
    | zero => rfl
    | succ k => exact absurd h (append_ne (k + 1))
  | succ j =>
    cases k with
    | zero => exact absurd h.symm (append_ne (j + 1))
    | succ k =>
      -- No single module of the library reaches this lemma on how numbers are written.
      exact Nat.repr_injective ((String.append_right_inj _).1 h)

/-- There are more candidates than taken names, so one of them is free. -/
theorem freeName_not_mem (taken : List String) (base : String) : freeName taken base ∉ taken := by
  unfold freeName
  cases hk : (List.range (taken.length + 1)).find? fun k => !taken.contains (candidate base k) with
  | some k =>
    have := List.find?_some hk
    simpa using this
  | none =>
    rw [List.find?_eq_none] at hk
    have hsub : (List.range (taken.length + 1)).map (candidate base) ⊆ taken := by
      intro name hname
      obtain ⟨k, hmem, rfl⟩ := List.mem_map.1 hname
      simpa using hk k hmem
    have hnodup : ((List.range (taken.length + 1)).map (candidate base)).Nodup :=
      List.nodup_range.map (candidate_injective base)
    have := (hnodup.subperm hsub).length_le
    simp at this

end Draft

structure Prepares (fingerprint : String) (value : Expr) (sql : String) (slots : Nat) : Prop where
  fingerprint_eq : fingerprint = sql ++ "/" ++ toString slots
  value_eq : value = .call .newSharedStatement [.text sql, .number slots true]

theorem slash_not_mem_toString (n : Nat) : '/' ∉ (toString n).toList := by
  intro h
  change '/' ∈ (Nat.repr n).toList at h
  rw [Nat.repr_eq_ofList_toDigits, String.toList_ofList] at h
  have := Nat.isDigit_of_mem_toDigits (by decide) (by decide) h
  simp at this

/-- The last slash of a fingerprint is where the number of slots starts. -/
theorem Prepares.unique {fingerprint sql sql' : String} {value value' : Expr} {slots slots' : Nat}
    (h : Prepares fingerprint value sql slots) (h' : Prepares fingerprint value' sql' slots')
    : sql = sql' ∧ slots = slots' := by
  have heq := congrArg String.toList (h.fingerprint_eq.symm.trans h'.fingerprint_eq)
  simp only [String.toList_append, List.append_assoc] at heq
  change sql.toList ++ '/' :: _ = sql'.toList ++ '/' :: _ at heq
  have tail_eq {front d e : List Char} (hd : '/' ∉ d) (he : '/' :: d = front ++ '/' :: e)
      : front = [] ∧ d = e := by
    cases front with
    | nil => exact ⟨rfl, (List.cons.inj he).2⟩
    | cons c more =>
      have := (List.cons.inj he).2
      rw [this] at hd
      simp at hd
  -- One of the two texts starts with the other one. What it has more would hold another slash.
  rcases List.append_eq_append_iff.1 heq with ⟨front, hsql, hrest⟩ | ⟨front, hsql, hrest⟩
  . obtain ⟨rfl, hdigits⟩ := tail_eq (slash_not_mem_toString slots) hrest
    rw [List.append_nil] at hsql
    exact ⟨(String.ext hsql).symm, Nat.repr_injective (String.ext hdigits)⟩
  . obtain ⟨rfl, hdigits⟩ := tail_eq (slash_not_mem_toString slots') hrest
    rw [List.append_nil] at hsql
    exact ⟨String.ext hsql, (Nat.repr_injective (String.ext hdigits)).symm⟩

def KeyedRight (key fingerprint : String) (value : Expr) : Prop :=
  ∀ name, key = "prepared:" ++ name → ∃ sql slots, Prepares fingerprint value sql slots

structure Draft.Sound (d : Draft) : Prop where
  names : (d.fields.map HelperField.name).Nodup
  keyed : ∀ f ∈ d.fields, KeyedRight f.key f.fingerprint f.value

namespace Draft.Sound

theorem empty : Draft.empty.Sound where
  names := List.nodup_nil
  keyed := by simp [Draft.empty]

theorem of_fields {d e : Draft} (h : d.Sound) (he : e.fields = d.fields) : e.Sound where
  names := he ▸ h.names
  keyed := he ▸ h.keyed

theorem request {d e : Draft} {r : HelperRequest} {name : String} (h : d.Sound)
    (hr : KeyedRight r.key r.fingerprint r.value) (he : d.request r = .ok (name, e)) : e.Sound := by
  unfold Draft.request at he
  split at he
  . split at he
    . cases he
      exact h
    . cases he
  . cases he
    constructor
    . simp only [report, List.map_append, List.map_cons, List.map_nil]
      rw [← List.concat_eq_append]
      apply h.names.concat
      apply freeName_not_mem
    . intro f hf
      rcases List.mem_append.1 hf with hf | hf
      . exact h.keyed f hf
      . cases List.mem_singleton.1 hf
        exact hr

end Draft.Sound

theorem Draft.fields_request {d e : Draft} {r : HelperRequest} {name : String}
    (h : d.request r = .ok (name, e)) : d.fields <+: e.fields := by
  unfold Draft.request at h
  split at h
  . split at h
    . cases h
      exact List.prefix_rfl
    . cases h
  . cases h
    exact List.prefix_append _ _

theorem Draft.field_of_request {d e : Draft} {r : HelperRequest} {name : String}
    (h : d.request r = .ok (name, e))
    : ∃ f ∈ e.fields, f.key = r.key ∧ f.fingerprint = r.fingerprint ∧ f.name = name := by
  unfold Draft.request at h
  split at h
  . next existing hex =>
    split at h
    . next hfingerprint =>
      cases h
      refine ⟨existing, List.mem_of_find?_eq_some hex, ?_, hfingerprint, rfl⟩
      simpa using List.find?_some hex
    . cases h
  . cases h
    refine ⟨_, List.mem_append_right _ (List.mem_singleton_self _), rfl, rfl, rfl⟩

structure Draft.Extends (e d : Draft) : Prop where
  sound : e.Sound
  fields : d.fields <+: e.fields

theorem Draft.Sound.extends_self {d : Draft} (h : d.Sound) : d.Extends d :=
  ⟨h, List.prefix_rfl⟩

theorem Draft.Sound.extends_of_fields {d e : Draft} (h : d.Sound) (he : e.fields = d.fields)
    : e.Extends d where
  sound := h.of_fields he
  fields := he ▸ List.prefix_rfl

theorem Draft.Extends.trans {d e f : Draft} (h : f.Extends e) (h' : e.Extends d) : f.Extends d :=
  ⟨h.sound, h'.fields.trans h.fields⟩

/-- Work on a draft that keeps it sound and loses no field, whether it finds a problem or not. -/
def Drafting.Keeps (act : Drafting α) : Prop :=
  ∀ d : Draft, d.Sound → (act.run.run d).2.Extends d

namespace Drafting

theorem bind_eq_ok {act : Drafting α} {next : α → Drafting β} {d e : Draft} {b : β}
    (h : (act >>= next).run.run d = (.ok b, e))
    : ∃ a d', act.run.run d = (.ok a, d') ∧ (next a).run.run d' = (.ok b, e) := by
  change (ExceptT.bindCont next (act.run.run d).1).run (act.run.run d).2 = _ at h
  cases hr : (act.run.run d).1 with
  | error =>
    rw [hr] at h
    cases h
  | ok a =>
    rw [hr] at h
    exact ⟨a, (act.run.run d).2, Prod.ext hr rfl, h⟩

theorem ofExcept_eq_ok {r : Except Problem α} {d e : Draft} {a : α}
    (h : (MonadExcept.ofExcept r : Drafting α).run.run d = (.ok a, e)) : r = .ok a ∧ d = e := by
  cases r with
  | error => cases h
  | ok =>
    cases h
    exact ⟨rfl, rfl⟩

theorem state_bind (act : Drafting α) {next : α → Drafting β}
    (h : ∀ a d, ((next a).run.run d).2 = d) (d : Draft)
    : ((act >>= next).run.run d).2 = (act.run.run d).2 := by
  change Prod.snd ((ExceptT.bindCont next (act.run.run d).1).run (act.run.run d).2) = _
  cases (act.run.run d).1 with
  | error => rfl
  | ok a => exact h a _

theorem state_ofExcept (r : Except Problem α) (d : Draft)
    : ((MonadExcept.ofExcept r : Drafting α).run.run d).2 = d := by
  cases r with
  | error => rfl
  | ok => rfl

theorem run_get_bind (next : Draft → Drafting α) (d : Draft)
    : ((get : Drafting Draft) >>= next).run.run d = (next d).run.run d := rfl

theorem run_request {d e : Draft} {r : HelperRequest} {name : String}
    (h : d.request r = .ok (name, e)) : (request r).run.run d = (.ok name, e) := by
  unfold request
  rw [run_get_bind, h]
  rfl

theorem run_request_error {d : Draft} {r : HelperRequest} {p : Problem} (h : d.request r = .error p)
    : (request r).run.run d = (.error p, d) := by
  unfold request
  rw [run_get_bind, h]
  rfl

theorem request_eq_ok {d e : Draft} {r : HelperRequest} {name : String}
    (h : (request r).run.run d = (.ok name, e)) : d.request r = .ok (name, e) := by
  cases hr : d.request r with
  | error =>
    rw [run_request_error hr] at h
    cases h
  | ok found =>
    rw [run_request hr] at h
    cases h
    rfl

theorem keeps_pure (a : α) : Keeps (pure a) := by
  intro d hd
  exact hd.extends_self

theorem keeps_ofExcept (r : Except Problem α) : Keeps (MonadExcept.ofExcept r : Drafting α) := by
  intro d hd
  rw [state_ofExcept]
  exact hd.extends_self

theorem keeps_bind {act : Drafting α} {next : α → Drafting β} (h : Keeps act)
    (hnext : ∀ a, Keeps (next a)) : Keeps (act >>= next) := by
  intro d hd
  have hact := h d hd
  change Draft.Extends (ExceptT.bindCont next (act.run.run d).1 (act.run.run d).2).2 d
  cases hr : (act.run.run d).1 with
  | error => exact hact
  | ok a => exact (hnext a _ hact.sound).trans hact

theorem keeps_modify {f : Draft → Draft} (h : ∀ d, (f d).fields = d.fields)
    : Keeps (modify f : Drafting PUnit) := by
  intro d hd
  exact hd.extends_of_fields (h d)

theorem keeps_mapM {act : α → Drafting β} (h : ∀ a, Keeps (act a)) (l : List α)
    : Keeps (l.mapM act) := by
  induction l with
  | nil => exact keeps_pure []
  | cons a rest ih =>
    rw [List.mapM_cons]
    apply keeps_bind (h a)
    intro b
    apply keeps_bind ih
    intro more
    exact keeps_pure _

theorem fields_noteConverters (d : Draft) (converters : List Code.Path)
    : (d.noteConverters converters).fields = d.fields := by
  unfold Draft.noteConverters
  induction converters generalizing d with
  | nil => rfl
  | cons c rest ih => exact ih (d.noteConverter c)

theorem keeps_request {r : HelperRequest} (hr : KeyedRight r.key r.fingerprint r.value)
    : Keeps (request r) := by
  intro d hd
  cases hreq : d.request r with
  | error =>
    rw [run_request_error hreq]
    exact hd.extends_self
  | ok found =>
    rw [run_request hreq]
    exact ⟨hd.request hr hreq, Draft.fields_request hreq⟩

theorem fields_requestRow {d e : Draft} {adapter : RowAdapter} {converters : List Code.Path}
    {name : String} (h : d.requestRow adapter converters = .ok (name, e)) : e.fields = d.fields := by
  unfold Draft.requestRow at h
  split at h
  . split at h
    . cases h
      rfl
    . cases h
  . cases h
    exact fields_noteConverters d converters

theorem keeps_requestRow (adapter : RowAdapter) (converters : List Code.Path)
    : Keeps (requestRow adapter converters) := by
  intro d hd
  unfold requestRow
  rw [run_get_bind]
  cases hreq : d.requestRow adapter converters with
  | error => exact hd.extends_self
  | ok found => exact hd.extends_of_fields (fields_requestRow hreq)

theorem keyedRight_of_head {key fingerprint : String} {value : Expr}
    (h : key.toList.head? ≠ some 'p') : KeyedRight key fingerprint value := by
  intro name hname
  rw [hname] at h
  simp at h

theorem keeps_adapterField (op : ShortcutOp) (t : ResolvedTarget) : Keeps (adapterField op t) := by
  unfold adapterField
  apply keeps_bind
  . apply keeps_modify
    intro d
    apply fields_noteConverters
  . intro
    apply keeps_request
    apply keyedRight_of_head
    cases op with
    | insert | delete | update | upsert => simp [adapterRequest]

theorem keeps_preparedField (m : Method) (s : BoundStatement) : Keeps (preparedField m s) := by
  apply keeps_request
  intro name _
  exact ⟨s.positionalSql, s.argCount, rfl, rfl⟩

theorem keeps_readingBody (delivery : Delivery) (s : ReadStatement) (shape : Shape)
    (tables : List String) (inTransaction : Bool)
    : Keeps (Reading.body delivery s shape tables inTransaction) := by
  unfold Reading.body
  apply keeps_bind
  . unfold rowRead
    split
    . apply keeps_bind
      . apply keeps_requestRow
      . intro
        apply keeps_pure
    . apply keeps_pure
  . intro
    apply keeps_pure

theorem keeps_source (q : WriteQuery) (m : Method) : Keeps (q.source m) := by
  unfold WriteQuery.source
  split
  . apply keeps_pure
  . apply keeps_bind
    . apply keeps_preparedField
    . intro
      apply keeps_pure

theorem keeps_lower (interface : String) (c : Classified) : Keeps (c.lower interface) := by
  unfold Classified.lower
  split
  . apply keeps_readingBody
  . apply keeps_bind
    . apply keeps_source
    . intro
      apply keeps_ofExcept
  . apply keeps_bind
    . apply keeps_mapM
      apply keeps_adapterField
    . intro
      apply keeps_ofExcept
  . apply keeps_ofExcept
  . unfold RawQuery.lower
    split
    . apply keeps_bind
      . apply keeps_modify
        intro d
        rfl
      . intro
        apply keeps_readingBody
    . apply keeps_readingBody
  . apply keeps_pure

theorem keeps_draftMethod (i : Interface) (c : Classified) : Keeps (i.draftMethod c) := by
  unfold Interface.draftMethod
  apply keeps_bind
  . apply keeps_modify
    intro d
    apply fields_noteConverters
  . intro
    apply keeps_bind
    . apply keeps_lower
    . intro
      apply keeps_pure

end Drafting

namespace Draft.Sound

variable {d : Draft} {methods : List Classified}

theorem draftMethods (h : d.Sound) (i : Interface) (methods : List Classified)
    : ((i.draftMethods methods).run d).2.Extends d := by
  induction methods generalizing d with
  | nil => exact h.extends_self
  | cons c rest ih =>
    have hfirst := Drafting.keeps_draftMethod i c d h
    exact (ih hfirst.sound).trans hfirst

theorem drafted_of_planned (h : d.Sound) {i : Interface} {n : Nat} {c : Classified}
    {planned : MethodPlan} (hc : methods[n]? = some c)
    (hn : ((i.draftMethods methods).run d).1[n]? = some (.ok planned))
    : ∃ d' e : Draft, d'.Sound ∧ (i.draftMethod c).run.run d' = (.ok planned, e) ∧
        ((i.draftMethods methods).run d).2.Extends e := by
  induction methods generalizing d n with
  | nil => cases hc
  | cons first rest ih =>
    have hfirst := Drafting.keeps_draftMethod i first d h
    cases n with
    | zero =>
      cases hc
      refine ⟨d, _, h, Prod.ext (Option.some.inj hn) rfl, ?_⟩
      exact hfirst.sound.draftMethods i rest
    | succ n => exact ih hfirst.sound hc hn

end Draft.Sound

end DataAccess
