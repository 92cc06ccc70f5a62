import DataAccess.Proofs.Compile.Answered

/-!
This module contains that the methods of a plan are drafted one after the other with answers to all that
they need. Main statement: a plan declares what its methods have been answered with.
-/

namespace DataAccess

theorem Draft.Answered.answers {i : Interface} {d e : Draft} {before answers : List (Need × String)}
    (h : d.Answered i before) (hnames : i.WellNamed) (hanswers : d.Answers answers e)
    (hknown : ∀ a ∈ answers, a.1.Known i) : e.Answered i (before ++ answers) := by
  induction hanswers generalizing before with
  | done =>
    rw [List.append_nil]
    exact h
  | ask hask _ ih =>
    have hfirst := h.ask hnames (hknown _ List.mem_cons_self) hask
    have hrest := ih hfirst fun a ha => hknown a (List.mem_cons_of_mem _ ha)
    rwa [List.append_assoc] at hrest
  | alike halike _ ih => exact ih (h.of_alike halike) hknown

structure Planned (methods : List Classified) (plans : List MethodPlan)
    (answers : List (Need × String)) : Prop where
  needs : answers.map Prod.fst = methods.flatMap Classified.needs
  references :
    plans.flatMap (·.body.references) = answers.flatMap fun (n, name) => n.references name
  each : List.Forall₂
    (fun c p => p.method = c.method ∧ ∃ own, own ⊆ answers ∧ p.body.Uses c.needs own) methods plans

namespace Interface

variable {i : Interface}

theorem known_of_needs {m : Method} {c : Category} (h : c.Known i m) : ∀ n ∈ c.needs m, n.Known i := by
  have row {r : Row} (h : r.Known i) : ∀ n ∈ r.needs, n.Known i := by
    intro n hn
    cases r with
    | entity e =>
      rw [List.mem_singleton.1 hn]
      exact h
    | scalar => cases hn
  intro n hn
  cases c with
  | read q => exact row h n hn
  | write q =>
    change n ∈ q.needs m at hn
    unfold WriteQuery.needs at hn
    split at hn
    . cases hn
    . rw [List.mem_singleton.1 hn]
      trivial
  | shortcut s =>
    obtain ⟨t, ht, rfl⟩ := List.mem_map.1 hn
    exact ⟨(h t ht).entity, (h t ht).table⟩
  | raw q => exact row h n hn
  | transaction | delegate => cases hn

theorem answers_draftMethod {c : Classified} {m : Method} (hc : i.classify m = .ok c) {d e : Draft}
    {p : MethodPlan} (h : (i.draftMethod c).run.run d = (.ok p, e))
    : p.method = c.method ∧ ∃ answers, d.Answers answers e ∧ p.body.Uses c.needs answers := by
  unfold draftMethod at h
  obtain ⟨_, d', hnote, hrest⟩ := Drafting.bind_eq_ok h
  obtain ⟨body, e', hlower, hplan⟩ := Drafting.bind_eq_ok hrest
  cases hnote
  cases hplan
  refine ⟨rfl, ?_⟩
  have hsingle : ∀ s, c.category = .shortcut s →
      s.result = .rowId ∨ s.result = .rowIds → s.targets.length = 1 := by
    intro s hs hresult
    obtain ⟨_, hresolve, _⟩ := classify_eq_ok hc
    rw [hs] at hresolve
    exact targets_of_rowIds hresolve hresult
  obtain ⟨answers, hanswers, huses⟩ := Drafting.answers_lower hsingle hlower
  exact ⟨answers, .alike (d.alike_noteConverters _) hanswers, huses⟩

theorem planned_of_draftMethods {methods : List Classified} {plans : List MethodPlan} {d : Draft}
    (hclassified : ∀ c ∈ methods, ∃ m ∈ i.methods, i.classify m = .ok c)
    (h : ((i.draftMethods methods).run d).1 = plans.map .ok)
    : ∃ answers, d.Answers answers ((i.draftMethods methods).run d).2 ∧
        Planned methods plans answers := by
  induction methods generalizing d plans with
  | nil =>
    cases plans with
    | nil => exact ⟨[], .done, rfl, rfl, .nil⟩
    | cons => cases h
  | cons c rest ih =>
    cases plans with
    | nil => cases h
    | cons p plans =>
      obtain ⟨hfirst, hrest⟩ := List.cons.inj h
      obtain ⟨m, _, hc⟩ := hclassified c (by simp)
      obtain ⟨hmethod, own, hown, huses⟩ := answers_draftMethod hc (Prod.ext hfirst rfl)
      obtain ⟨more, hmore, hplanned⟩ := ih (fun c hc => hclassified c (by simp [hc])) hrest
      refine ⟨own ++ more, hown.append hmore, ?_, ?_, .cons ?_ ?_⟩
      . rw [List.map_append, huses.needs, hplanned.needs]
        rfl
      . rw [List.flatMap_cons, List.flatMap_append, huses.references, hplanned.references]
      . exact ⟨hmethod, own, List.subset_append_left own more, huses⟩
      . apply hplanned.each.imp
        rintro c p ⟨hmethod, theirs, hsubset, htheirs⟩
        exact ⟨hmethod, theirs, List.Subset.trans hsubset (List.subset_append_right own more), htheirs⟩

theorem methods_of_classified {methods : List Method} {classified : List Classified}
    (h : methods.map i.classify = classified.map .ok)
    : methods = classified.map (·.method) ∧ ∀ c ∈ classified, i.classify c.method = .ok c := by
  induction methods generalizing classified with
  | nil =>
    cases classified with
    | nil => simp
    | cons => cases h
  | cons m rest ih =>
    cases classified with
    | nil => cases h
    | cons c classified =>
      obtain ⟨hfirst, hrest⟩ := List.cons.inj h
      obtain ⟨hmethods, horigin⟩ := ih hrest
      obtain ⟨rfl, _⟩ := classify_eq_ok hfirst
      refine ⟨congrArg (c.method :: ·) hmethods, ?_⟩
      intro c' hc'
      rcases List.mem_cons.1 hc' with rfl | hc'
      . exact hfirst
      . exact horigin c' hc'

theorem known_of_classified {methods : List Method} {classified : List Classified}
    (h : methods.map i.classify = classified.map .ok) : ∀ c ∈ classified, ∀ n ∈ c.needs, n.Known i := by
  intro c hc
  obtain ⟨_, horigin⟩ := methods_of_classified h
  obtain ⟨_, hresolve, _⟩ := classify_eq_ok (horigin c hc)
  exact known_of_needs (known_of_resolve hresolve)

structure Drafts (i : Interface) (options : Options) (classified : List Classified) (plan : Plan) :
    Prop where
  categories : i.methods.map i.classify = classified.map .ok
  methods : ((i.draftMethods classified).run .empty).1 = plan.methods.map .ok
  fields : plan.fields = ((i.draftMethods classified).run .empty).2.fields
  rowAdapters : plan.rowAdapters = ((i.draftMethods classified).run .empty).2.rowAdapters
  converters : plan.converters = ((i.draftMethods classified).run .empty).2.converters
  interface : plan.interface = i.name
  implementation : plan.implementation = i.implementationName options
  runtime : plan.runtime = options.runtime
  backing : plan.backing = i.backing

theorem drafts_of_plan {options : Options} {plan : Plan} (h : i.plan options = .ok plan)
    : ∃ classified, i.Drafts options classified plan := by
  unfold Interface.plan at h
  obtain ⟨classified, hall, h⟩ := exists_of_bind_eq_ok h
  unfold planClassified at h
  obtain ⟨plans, hplans, h⟩ := exists_of_bind_eq_ok h
  cases h
  exact ⟨classified, collect_eq_ok hall, collect_eq_ok hplans, rfl, rfl, rfl, rfl, rfl, rfl, rfl⟩

/-- What a plan declares is what its methods have been answered with. -/
theorem answered_of_plan (hnames : i.WellNamed) {options : Options} {plan : Plan}
    (h : i.plan options = .ok plan)
    : ∃ classified answers,
        i.methods.map i.classify = classified.map .ok ∧ Planned classified plan.methods answers ∧
        ∃ d : Draft, d.fields = plan.fields ∧ d.rowAdapters = plan.rowAdapters ∧
          d.Answered i answers := by
  obtain ⟨classified, hdrafts⟩ := drafts_of_plan h
  have horigin := exists_method_of_classified hdrafts.categories
  obtain ⟨answers, hanswers, hplanned⟩ := planned_of_draftMethods horigin hdrafts.methods
  refine ⟨classified, answers, hdrafts.categories, hplanned, _, hdrafts.fields.symm,
    hdrafts.rowAdapters.symm, ?_⟩
  apply (Draft.Answered.empty i).answers hnames hanswers
  intro a ha
  have hneeds : a.1 ∈ classified.flatMap Classified.needs := by
    rw [← hplanned.needs]
    exact List.mem_map_of_mem ha
  obtain ⟨c, hc, hn⟩ := List.mem_flatMap.1 hneeds
  exact known_of_classified hdrafts.categories c hc a.1 hn

end Interface

end DataAccess
