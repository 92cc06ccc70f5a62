import DataAccess.Proofs.Compile.Outcome
import DataAccess.Proofs.Compile.Planned
import DataAccess.Proofs.Compile.Wiring

/-!
This module contains what a plan is made from: the methods with their categories, and what is left behind when
they have been drafted, one after the other. Main statements: methods of distinct names that all have a
category have a plan, and everything that a plan declares is the one answer to a need of its methods.
-/

namespace DataAccess

namespace Interface

variable {i : Interface} {options : Options}

theorem not_preparedClash_of_nodup (h : (i.methods.map Method.name).Nodup) : ¬i.PreparedClash := by
  rintro ⟨m, hm, m', hm', s, s', hname, hs, hs', hdiffer⟩
  cases List.inj_on_of_nodup_map h hm hm' hname
  obtain ⟨⟨sql, hkind, hsql⟩, _⟩ := hs
  obtain ⟨⟨sql', hkind', hsql'⟩, _⟩ := hs'
  rw [hkind] at hkind'
  cases hkind'
  rw [hsql] at hsql'
  cases hsql'
  rcases hdiffer with h | h
  . contradiction
  . contradiction

/-- Methods of distinct names have a plan once they have their categories. -/
theorem exists_plan_of_nodup (options : Options) (hnames : i.WellNamed)
    (hnodup : (i.methods.map Method.name).Nodup)
    (hclassify : ∀ m ∈ i.methods, ∃ c, i.classify m = .ok c) : ∃ plan, i.plan options = .ok plan := by
  obtain ⟨classified, hall, hclassified⟩ := exists_classifyAll hclassify
  have horigin := exists_method_of_classified hclassified
  obtain ⟨_, hproblems⟩ := (Draft.Consistent.empty i).draftMethods hnames horigin
  cases hplan : i.plan options with
  | ok plan => exact ⟨plan, rfl⟩
  | error p =>
    obtain ⟨⟨r, hr⟩, _⟩ := collect_eq_error ((plan_eq_error_iff hall).1 hplan)
    exact absurd (hproblems r hr).1 (not_preparedClash_of_nodup hnodup)

end Interface

theorem Need.exists_field (n : Need) {name : String} {f : HelperField} (h : .field f = n.declaration name)
    (name' : String) : ∃ g, .field g = n.declaration name' := by
  cases n with
  | adapter | prepared => exact ⟨_, rfl⟩
  | row => cases h

theorem RowCode.name_adapter_ne_db (e : Entity) : (adapter e).name ≠ "__db" := by
  suffices h : ∀ s, "__entity_cursor_converter_" ++ s ≠ "__db" from h _
  intro s h
  have hchars := congrArg String.toList h
  rw [String.toList_append] at hchars
  simp at hchars

namespace Interface

structure Leaves (i : Interface) (classified : List Classified) (plan : Plan)
    (answers : List (Need × String)) (d : Draft) : Prop where
  fields : d.fields = plan.fields
  rowAdapters : d.rowAdapters = plan.rowAdapters
  converters : d.converters = plan.converters
  needs : answers.map Prod.fst = classified.flatMap Classified.needs
  answered : d.Answered i answers
  noted : d.Noted i (classified.flatMap Classified.converters)
  written : List.Forall₂ (i.Writes answers) classified plan.methods

variable {i : Interface} {options : Options} {classified : List Classified} {plan : Plan}
  {answers : List (Need × String)} {d : Draft}

theorem leaves_of_drafts (hnames : i.WellNamed) (h : i.Drafts options classified plan)
    : ∃ answers d, i.Leaves classified plan answers d := by
  have hknown := known_of_classified h.categories
  obtain ⟨answers, hneeds, hanswers, hnoted, hwritten⟩ :=
    written_of_draftMethods hknown (.empty i) h.methods
  refine ⟨answers, ((i.draftMethods classified).run .empty).2, h.fields.symm, h.rowAdapters.symm,
    h.converters.symm, hneeds, ?_, hnoted, hwritten⟩
  apply (Draft.Answered.empty i).answers hnames hanswers
  intro a ha
  have hneeded : a.1 ∈ classified.flatMap Classified.needs := hneeds ▸ List.mem_map_of_mem ha
  obtain ⟨c, hc, hn⟩ := List.mem_flatMap.1 hneeded
  exact hknown c hc a.1 hn

namespace Leaves

theorem exists_name (h : i.Leaves classified plan answers d) {n : Need}
    (hn : n ∈ classified.flatMap Classified.needs) : ∃ name, d.Gives n name := by
  rw [← h.needs] at hn
  obtain ⟨a, ha, rfl⟩ := List.mem_map.1 hn
  exact ⟨a.2, h.answered.gives a ha⟩

theorem exists_need (h : i.Leaves classified plan answers d) {x : Declaration} (hx : d.Has x)
    : ∃ n ∈ classified.flatMap Classified.needs, ∃ name, d.Gives n name ∧ x = n.declaration name := by
  obtain ⟨a, ha, hdeclared⟩ := h.answered.exists_answer hx
  refine ⟨a.1, ?_, a.2, h.answered.gives a ha, hdeclared⟩
  rw [← h.needs]
  exact List.mem_map_of_mem ha

theorem has_field (h : i.Leaves classified plan answers d) {f : HelperField}
    : d.Has (.field f) ↔ f ∈ plan.fields := by
  rw [← h.fields]
  exact Iff.rfl

theorem has_function (h : i.Leaves classified plan answers d) {r : RowAdapter}
    : d.Has (.function r) ↔ r ∈ plan.rowAdapters := by
  rw [← h.rowAdapters]
  exact Iff.rfl

theorem nodup_names (h : i.Leaves classified plan answers d) : (plan.fields.map (·.name)).Nodup := by
  rw [← h.fields, h.answered.names]
  exact nodup_eraseDups _

theorem nodup_keys (h : i.Leaves classified plan answers d) : (plan.fields.map (·.key)).Nodup := by
  rw [← h.fields, h.answered.keys]
  exact nodup_eraseDups _

theorem nodup_rowAdapters (h : i.Leaves classified plan answers d) : plan.rowAdapters.Nodup := by
  apply List.Nodup.of_map (·.entity)
  rw [← h.rowAdapters, h.answered.entities]
  exact nodup_eraseDups _

theorem ne_db (h : i.Leaves classified plan answers d) {n : Need} {name : String}
    (hgives : d.Gives n name) : name ≠ "__db" := by
  have hhas := hgives.has
  cases n with
  | adapter op e table => exact h.answered.handle _ hhas
  | prepared m s => exact h.answered.handle _ hhas
  | row e =>
    have hname : (RowCode.adapter e).name = name := hgives.name
    rw [← hname]
    exact RowCode.name_adapter_ne_db e

end Leaves

end Interface

end DataAccess
