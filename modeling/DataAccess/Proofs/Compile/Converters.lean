import DataAccess.Proofs.Compile.Conversions
import DataAccess.Proofs.Compile.Leaves

/-!
This module contains the converters that a plan requires. They are noted for the parameters of every method
and for the entities that adapters are asked for, in one case only when the adapter is new. Main
statement: the list is sorted, has nothing in it but converters of parameters and of entities that an
adapter was written for, and has everything in it that the plan's code calls.
-/

namespace DataAccess

open Code (Path)

def HelperType.entity? : HelperType → Option String
  | insertAdapter e | changeAdapter e | upsertAdapter e => some e
  | sharedStatement => none

/-- An adapter has been written for the entity of a name: one that reads its rows, or one that does the
work of shortcuts on it. -/
def Plan.Adapts (p : Plan) (entity : String) : Prop :=
  (∃ r ∈ p.rowAdapters, r.entity = entity) ∨ ∃ f ∈ p.fields, f.type.entity? = some entity

/-- The converters that a plan requires are those of the parameters and those of the entities with an
adapter, and all that its code calls are among them. -/
structure Plan.RequiresConverters (p : Plan) (i : Interface) : Prop where
  sorted : p.converters.Pairwise (· < ·)
  declared : ∀ x ∈ p.converters, ∃ c ∈ i.converters, x = c.compact
  mem_iff : ∀ x, x ∈ p.converters ↔
    (∃ m ∈ i.methods, ∃ q ∈ m.params, ∃ c, q.converter = some c ∧ x = c.compact) ∨
      ∃ e, i.entity? e.name = some e ∧ p.Adapts e.name ∧
        ∃ f ∈ e.fields, ∃ c, f.converter = some c ∧ x = c.compact
  bodies : ∀ m ∈ p.methods, ∀ c ∈ m.body.converters, c.compact ∈ p.converters
  rowAdapters : ∀ r ∈ p.rowAdapters, ∀ c ∈ r.body.converters, c.compact ∈ p.converters
  fields : ∀ f ∈ p.fields, ∀ c ∈ f.value.converters, c.compact ∈ p.converters

namespace Declaration

def entity? : Declaration → Option String
  | field f => f.type.entity?
  | function r => some r.entity

def converters : Declaration → List Path
  | field f => f.value.converters
  | function r => r.body.converters

end Declaration

namespace Need

def entity? : Need → Option Entity
  | adapter _ e _ | row e => some e
  | prepared _ _ => none

theorem mem_converters {n : Need} {c : Path}
    : c ∈ n.converters ↔ ∃ e, n.entity? = some e ∧ c ∈ e.converters := by
  cases n with
  | adapter | prepared | row => simp [converters, entity?]

theorem entity?_declaration (n : Need) (name : String)
    : (n.declaration name).entity? = n.entity?.map Entity.name := by
  cases n with
  | adapter op e table =>
    cases op with
    | insert | delete | update | upsert => rfl
  | prepared | row => rfl

/-- What is declared for a need calls no converters but those that come with it. -/
theorem converters_declaration (n : Need) (name : String)
    : (n.declaration name).converters ⊆ n.converters := by
  cases n with
  | adapter op e table => exact converters_adapterRequest op e table
  | prepared m s => simp [declaration, HelperRequest.field, preparedRequest, Declaration.converters]
  | row e => exact RowCode.converters_body e

end Need

namespace Interface

variable {i : Interface} {options : Options} {classified : List Classified} {plan : Plan}
  {answers : List (Need × String)} {d : Draft}

theorem checked_of_needs {m : Method} {c : Category} (h : i.resolve m = .ok c) {n : Need}
    (hn : n ∈ c.needs m) {e : Entity} (he : n.entity? = some e) : i.Checked e := by
  have row {r : Row} (hr : r.Checked i) (hn : n ∈ r.needs) : i.Checked e := by
    cases r with
    | entity =>
      rw [List.mem_singleton.1 hn] at he
      cases he
      exact hr
    | scalar => cases hn
  cases resolved_of_resolve h with
  | read _ _ hshape => exact row (checked_of_resolveShape hshape) hn
  | write =>
    change n ∈ WriteQuery.needs _ m at hn
    unfold WriteQuery.needs at hn
    split at hn
    . cases hn
    . rw [List.mem_singleton.1 hn] at he
      cases he
  | shortcut _ htargets _ =>
    obtain ⟨r, hr, rfl⟩ := List.mem_map.1 hn
    cases he
    obtain ⟨t, _, ht⟩ := mem_of_mapM_resolveTarget htargets r hr
    exact (resolveTarget_eq_ok ht).2.1
  | raw _ hshape => exact row (checked_of_resolveShape hshape) hn
  | transaction | delegate => cases hn

theorem checked_of_classified (h : i.methods.map i.classify = classified.map .ok) {n : Need}
    (hn : n ∈ classified.flatMap Classified.needs) {e : Entity} (he : n.entity? = some e)
    : i.Checked e := by
  obtain ⟨c, hc, hn⟩ := List.mem_flatMap.1 hn
  obtain ⟨_, hresolve, _⟩ := classify_eq_ok ((methods_of_classified h).2 c hc)
  exact checked_of_needs hresolve hn he

namespace Leaves

theorem adapts_iff (h : i.Leaves classified plan answers d) {entity : String}
    : plan.Adapts entity ↔
        ∃ n ∈ classified.flatMap Classified.needs, n.entity?.map Entity.name = some entity := by
  constructor
  . intro hadapts
    obtain ⟨x, hx, hentity⟩ : ∃ x, d.Has x ∧ x.entity? = some entity := by
      rcases hadapts with ⟨r, hr, hentity⟩ | ⟨f, hf, hentity⟩
      . exact ⟨.function r, h.has_function.2 hr, congrArg some hentity⟩
      . exact ⟨.field f, h.has_field.2 hf, hentity⟩
    obtain ⟨n, hn, name, _, rfl⟩ := h.exists_need hx
    exact ⟨n, hn, (n.entity?_declaration name).symm.trans hentity⟩
  . rintro ⟨n, hn, hentity⟩
    obtain ⟨name, hgives⟩ := h.exists_name hn
    rw [← n.entity?_declaration name] at hentity
    have hhas := hgives.has
    generalize n.declaration name = x at hentity hhas
    cases x with
    | field f => exact Or.inr ⟨f, h.has_field.1 hhas, hentity⟩
    | function r => exact Or.inl ⟨r, h.has_function.1 hhas, Option.some.inj hentity⟩

theorem mem_converters (h : i.Leaves classified plan answers d) {x : String}
    : x ∈ plan.converters ↔
        (∃ k ∈ classified, ∃ c ∈ k.method.params.filterMap (·.converter), x = c.compact) ∨
          ∃ n ∈ classified.flatMap Classified.needs, ∃ c ∈ n.converters, x = c.compact := by
  rw [← h.converters, h.noted.mem_iff]
  simp only [List.mem_flatMap, Classified.converters, List.mem_append]
  constructor
  . rintro ⟨c, ⟨k, hk, hc | ⟨n, hn, hc⟩⟩, hx⟩
    . exact Or.inl ⟨k, hk, c, hc, hx⟩
    . exact Or.inr ⟨n, ⟨k, hk, hn⟩, c, hc, hx⟩
  . rintro (⟨k, hk, c, hc, hx⟩ | ⟨n, ⟨k, hk, hn⟩, c, hc, hx⟩)
    . exact ⟨c, ⟨k, hk, Or.inl hc⟩, hx⟩
    . exact ⟨c, ⟨k, hk, Or.inr ⟨n, hn, hc⟩⟩, hx⟩

theorem required_of_has (h : i.Leaves classified plan answers d) {x : Declaration} (hx : d.Has x)
    : ∀ c ∈ x.converters, c.compact ∈ plan.converters := by
  intro c hc
  obtain ⟨n, hn, name, _, rfl⟩ := h.exists_need hx
  exact h.mem_converters.2 (Or.inr ⟨n, hn, c, n.converters_declaration name hc, rfl⟩)

end Leaves

/-- The required converters of a plan are exactly those in use. Entities have identifiers for names. -/
theorem plan_requires_converters (i : Interface) (options : Options) (hnames : i.WellNamed)
    (h : i.plan options = .ok plan) : plan.RequiresConverters i := by
  obtain ⟨classified, hdrafts⟩ := drafts_of_plan h
  obtain ⟨answers, d, hleaves⟩ := leaves_of_drafts hnames hdrafts
  obtain ⟨hmethods, horigin⟩ := methods_of_classified hdrafts.categories
  have hchecked {n : Need} (hn : n ∈ classified.flatMap Classified.needs) {e : Entity}
      (he : n.entity? = some e) : i.Checked e := checked_of_classified hdrafts.categories hn he
  constructor
  case sorted => exact hleaves.converters ▸ hleaves.noted.sorted
  case declared =>
    intro x hx
    suffices hdeclares : ∃ c, i.declares c = true ∧ x = c.compact by
      obtain ⟨c, hc, rfl⟩ := hdeclares
      obtain ⟨c', hc', heq⟩ := List.mem_map.1 (List.contains_iff_mem.1 hc)
      exact ⟨c', hc', heq.symm⟩
    rcases hleaves.mem_converters.1 hx with ⟨k, hk, c, hc, hx⟩ | ⟨n, hn, c, hc, hx⟩
    . obtain ⟨_, _, hnil, _⟩ := problems_of_classify (horigin k hk)
      exact ⟨c, converterProblems_eq_nil_iff.1 hnil c hc, hx⟩
    . obtain ⟨e, he, hc⟩ := Need.mem_converters.1 hc
      exact ⟨c, (hchecked hn he).declared c hc, hx⟩
  case mem_iff =>
    intro x
    rw [hleaves.mem_converters, hmethods]
    simp only [List.mem_map, List.mem_filterMap, exists_exists_and_eq_and]
    refine or_congr ?_ ?_
    . constructor
      . rintro ⟨k, hk, c, ⟨q, hq, hc⟩, hx⟩
        exact ⟨k, hk, q, hq, c, hc, hx⟩
      . rintro ⟨k, hk, q, hq, c, hc, hx⟩
        exact ⟨k, hk, c, ⟨q, hq, hc⟩, hx⟩
    . constructor
      . rintro ⟨n, hn, c, hc, hx⟩
        obtain ⟨e, he, hc⟩ := Need.mem_converters.1 hc
        obtain ⟨f, hf, hc⟩ := List.mem_filterMap.1 hc
        have hadapts := hleaves.adapts_iff.2 ⟨n, hn, congrArg (·.map Entity.name) he⟩
        exact ⟨e, (hchecked hn he).entity, hadapts, f, hf, c, hc, hx⟩
      . rintro ⟨e, hentity, hadapts, f, hf, c, hc, hx⟩
        obtain ⟨n, hn, hname⟩ := hleaves.adapts_iff.1 hadapts
        obtain ⟨e', he', hname⟩ := Option.map_eq_some_iff.1 hname
        have hsame := (hchecked hn he').entity
        rw [hname, hentity] at hsame
        cases hsame
        exact ⟨n, hn, c, Need.mem_converters.2 ⟨e, he', List.mem_filterMap.2 ⟨f, hf, hc⟩⟩, hx⟩
  case bodies =>
    intro p hp c hc
    obtain ⟨k, hk, hwrites⟩ := exists_of_written hleaves.written hp
    obtain ⟨names, _, _, hcode⟩ := hwrites.code
    obtain ⟨_, hresolve, _⟩ := classify_eq_ok (horigin k hk)
    have hparams := List.filterMap_subset (·.converter) (arguments_subset hresolve)
    exact hleaves.mem_converters.2 (Or.inl ⟨k, hk, c, hparams (Classified.converters_code hcode hc), rfl⟩)
  case rowAdapters =>
    intro r hr
    exact hleaves.required_of_has (hleaves.has_function.2 hr)
  case fields =>
    intro f hf
    exact hleaves.required_of_has (hleaves.has_field.2 hf)

/-- An interface whose accounts are written and read, with a converter for an entity that nothing is done
with. -/
def datedAccounts : Interface :=
  let type (name : String) : Code.TypeExpr := .path false [.mk name .none]
  let converter (name : String) : Path := ⟨false, [.mk name .none]⟩
  let date : Parameter := ⟨"date", type "Date", false, some (converter "Dates")⟩
  { name := "Accounts"
    entities :=
      [⟨"Account", "account",
        [⟨"id", "id", false, none⟩, ⟨"balance", "balance", true, some (converter "Amounts")⟩], ["id"], none⟩,
       ⟨"Letter", "letter", [⟨"seal", "seal", false, some (converter "Seals")⟩], ["seal"], none⟩]
    converters := [converter "Seals", converter "Dates", converter "Amounts"]
    backing := none
    methods :=
      [⟨"open", [⟨"account", type "Account", false, none⟩], none, .direct,
        .insert [⟨"account", "Account", false⟩] .abort⟩,
       ⟨"since", [date], some (type "Account"), .future,
        .read "SELECT * FROM account WHERE opened >= :date" none [] false⟩,
       ⟨"close", [date], none, .direct, .write "DELETE FROM account WHERE opened < :date"⟩] }

theorem plan_requires_datedAccounts
    : datedAccounts.WellNamed ∧
      ∃ plan, datedAccounts.plan .standard = .ok plan ∧ plan.converters = ["Amounts", "Dates"] ∧
        plan.RequiresConverters datedAccounts := by
  have hnames : datedAccounts.WellNamed := by
    intro e he
    apply plainName_of_isIdent
    revert e
    decide
  have hconverters : (datedAccounts.plan .standard).toOption.map Plan.converters
      = some ["Amounts", "Dates"] := by
    decide +kernel
  cases hplan : datedAccounts.plan .standard with
  | error =>
    rw [hplan] at hconverters
    cases hconverters
  | ok plan =>
    rw [hplan] at hconverters
    exact ⟨hnames, plan, rfl, Option.some.inj hconverters,
      plan_requires_converters datedAccounts .standard hnames hplan⟩

end Interface

end DataAccess
