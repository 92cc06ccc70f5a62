import DataAccess.Proofs.Compile.Drafted

/-!
This module contains the functions by which the methods of a plan read rows. Main statement: there is one
function for each entity that is read, in the order of the first use, and a method calls the one for its
own entity by name; the names are distinct if and only if no two of the entities have the same name in
snake case.
-/

namespace DataAccess

open Code (Block Reference ownField)

def Row.entity? : Row → Option Entity
  | entity e => some e
  | scalar _ => none

def Category.rowEntity? : Category → Option Entity
  | read q => q.shape.row.entity?
  | raw q => q.shape.row.entity?
  | write _ | shortcut _ | transaction _ | delegate _ => none

def Interface.rowEntity? (i : Interface) (m : Method) : Option Entity :=
  match i.classify m with
  | .ok c => c.category.rowEntity?
  | .error _ => none

namespace Category

theorem read?_needs (m : Method) (c : Category)
    : (c.needs m).filterMap Need.read? = c.rowEntity?.toList := by
  have row (r : Row) : r.needs.filterMap Need.read? = r.entity?.toList := by
    cases r with
    | entity | scalar => rfl
  cases c with
  | read q => exact row q.shape.row
  | write q =>
    change (q.needs m).filterMap Need.read? = []
    unfold WriteQuery.needs
    split
    . rfl
    . rfl
  | shortcut s =>
    change (s.targets.map _).filterMap Need.read? = []
    rw [List.filterMap_map]
    exact List.filterMap_eq_nil_iff.2 fun _ _ => rfl
  | transaction => rfl
  | raw q => exact row q.shape.row
  | delegate => rfl

end Category

section Gives

variable {d : Draft} {answers : List (Need × String)}

theorem rowFunctions_of_gives (h : ∀ a ∈ answers, d.Gives a.1 a.2)
    : (answers.flatMap fun (n, name) => n.references name).filterMap Reference.rowFunction?
        = (readEntities answers).map fun e => (RowCode.adapter e).name := by
  have own (name : String) : (ownField (.var "self") name).filterMap Reference.rowFunction? = [] := by
    unfold ownField
    dsimp only
    split
    . rfl
    . rfl
  induction answers with
  | nil => rfl
  | cons a rest ih =>
    obtain ⟨n, name⟩ := a
    have hrest := ih fun a ha => h a (List.mem_cons_of_mem _ ha)
    have hgives := h (n, name) List.mem_cons_self
    unfold readEntities at hrest ⊢
    rw [List.flatMap_cons, List.filterMap_append, hrest, List.filterMap_cons]
    cases n with
    | adapter | prepared => simp [Need.references, Need.read?, own]
    | row e =>
      have hname : (RowCode.adapter e).name = name := hgives.name
      simp [Need.references, Need.read?, Reference.rowFunction?, hname]

theorem readEntities_eq (answers : List (Need × String))
    : readEntities answers = (answers.map Prod.fst).filterMap Need.read? := by
  rw [List.filterMap_map]
  rfl

theorem adapter_mem_of_gives (h : ∀ a ∈ answers, d.Gives a.1 a.2) {e : Entity}
    (he : e ∈ readEntities answers) : RowCode.adapter e ∈ d.rowAdapters := by
  obtain ⟨⟨n, name⟩, ha, hread⟩ := List.mem_filterMap.1 he
  have hgives := h (n, name) ha
  cases n with
  | adapter | prepared => cases hread
  | row =>
    cases hread
    exact hgives.has

end Gives

/-- The function under a name is the one that reads an entity, and there is no other of that name. -/
def Plan.Resolves (plan : Plan) (name : String) (e : Entity) : Prop :=
  plan.rowAdapters.filter (·.name = name) = [RowCode.adapter e]

/-- Names of functions that read rows differ as the names of their entities do in snake case. -/
theorem RowCode.name_adapter_eq_iff (e e' : Entity)
    : (adapter e).name = (adapter e').name ↔ Text.snakeCase e.name = Text.snakeCase e'.name :=
  String.append_right_inj _

namespace Interface

variable {i : Interface} {options : Options} {plan : Plan}

theorem rowEntity?_of_classify {m : Method} {c : Classified} (h : i.classify m = .ok c)
    : i.rowEntity? m = c.category.rowEntity? := by
  unfold rowEntity?
  rw [h]

theorem known_of_rowEntity? {m : Method} {e : Entity} (h : i.rowEntity? m = some e)
    : i.entity? e.name = some e := by
  have row {r : Row} (hknown : r.Known i) (h : r.entity? = some e) : i.entity? e.name = some e := by
    cases r with
    | entity =>
      cases h
      exact hknown
    | scalar => cases h
  unfold rowEntity? at h
  split at h
  . next c hc =>
    obtain ⟨_, hresolve, _⟩ := classify_eq_ok hc
    have hknown := known_of_resolve hresolve
    cases hcategory : c.category with
    | read =>
      rw [hcategory] at h hknown
      exact row hknown h
    | raw =>
      rw [hcategory] at h hknown
      exact row hknown h
    | write | shortcut | transaction | delegate =>
      rw [hcategory] at h
      cases h
  . cases h

theorem eq_of_rowEntity? {m m' : Method} {e e' : Entity} (he : i.rowEntity? m = some e)
    (he' : i.rowEntity? m' = some e') (hname : e.name = e'.name) : e = e' := by
  have hknown := known_of_rowEntity? he
  rw [hname] at hknown
  exact Option.some.inj (hknown.symm.trans (known_of_rowEntity? he'))

/-- The functions of a plan that read rows, and the methods that call them. -/
structure ReadsRows (i : Interface) (plan : Plan) : Prop where
  entities : plan.rowAdapters.map (·.entity)
    = ((i.methods.filterMap i.rowEntity?).map Entity.name).eraseDups
  adapters : ∀ r ∈ plan.rowAdapters, ∃ m ∈ i.methods, ∃ e, i.rowEntity? m = some e ∧
    i.entity? e.name = some e ∧ r = RowCode.adapter e
  calls : List.Forall₂ (fun m p => p.method = m ∧
    p.body.rowFunctions = (i.rowEntity? m).toList.map fun e => (RowCode.adapter e).name)
    i.methods plan.methods
  declared : ∀ m ∈ i.methods, ∀ e, i.rowEntity? m = some e → RowCode.adapter e ∈ plan.rowAdapters

theorem readEntities_of_planned {classified : List Classified} {plans : List MethodPlan}
    {answers : List (Need × String)} (hplanned : Planned classified plans answers)
    (horigin : ∀ c ∈ classified, i.classify c.method = .ok c)
    : readEntities answers = (classified.map (·.method)).filterMap i.rowEntity? := by
  rw [readEntities_eq, hplanned.needs]
  clear hplanned
  induction classified with
  | nil => rfl
  | cons c rest ih =>
    have hfirst := rowEntity?_of_classify (horigin c List.mem_cons_self)
    have hrest := ih fun c hc => horigin c (List.mem_cons_of_mem _ hc)
    have hneeds : c.needs.filterMap Need.read? = c.category.rowEntity?.toList :=
      c.category.read?_needs c.method
    rw [List.flatMap_cons, List.filterMap_append, hrest, hneeds, List.map_cons, List.filterMap_cons,
      hfirst]
    cases c.category.rowEntity? with
    | none | some => rfl

theorem readsRows_of_plan (hnames : i.WellNamed) (hplan : i.plan options = .ok plan)
    : i.ReadsRows plan := by
  obtain ⟨classified, answers, hclassified, hplanned, d, _, hrows, hanswered⟩ :=
    answered_of_plan hnames hplan
  obtain ⟨hmethods, horigin⟩ := methods_of_classified hclassified
  have hread : readEntities answers = i.methods.filterMap i.rowEntity? := by
    rw [hmethods]
    exact readEntities_of_planned hplanned horigin
  have hentities : plan.rowAdapters.map (·.entity)
      = ((i.methods.filterMap i.rowEntity?).map Entity.name).eraseDups := by
    rw [← hrows, hanswered.entities, hread]
  refine ⟨hentities, ?_, ?_, ?_⟩
  . intro r hr
    have hhas : d.Has (.function r) := by
      change r ∈ d.rowAdapters
      rwa [hrows]
    obtain ⟨n, hn, hdeclaration⟩ := hanswered.declares (.function r) hhas
    cases n with
    | adapter | prepared => cases hdeclaration
    | row e =>
      cases hdeclaration
      have hname : e.name ∈ plan.rowAdapters.map (·.entity) := List.mem_map_of_mem (f := (·.entity)) hr
      rw [hentities, List.mem_eraseDups] at hname
      obtain ⟨e', he', hsame⟩ := List.mem_map.1 hname
      obtain ⟨m, hm, hrow⟩ := List.mem_filterMap.1 he'
      -- Both are the entity of that name.
      have hknown := known_of_rowEntity? hrow
      rw [hsame] at hknown
      cases hknown.symm.trans hn
      exact ⟨m, hm, _, hrow, hn, rfl⟩
  . rw [hmethods, List.forall₂_map_left_iff, List.forall₂_iff_zip]
    refine ⟨hplanned.each.length_eq, ?_⟩
    intro c p hzip
    obtain ⟨hmethod, own, hown, huses⟩ := List.forall₂_zip hplanned.each hzip
    refine ⟨hmethod, ?_⟩
    have hneeds : c.needs.filterMap Need.read? = c.category.rowEntity?.toList :=
      c.category.read?_needs c.method
    unfold Block.rowFunctions
    rw [huses.references, rowFunctions_of_gives fun a ha => hanswered.gives a (hown ha), readEntities_eq,
      huses.needs, hneeds, rowEntity?_of_classify (horigin c (List.of_mem_zip hzip).1)]
  . intro m hm e he
    rw [← hrows]
    apply adapter_mem_of_gives hanswered.gives
    rw [hread]
    exact List.mem_filterMap.2 ⟨m, hm, he⟩

/-- The functions that read rows have distinct names if and only if the entities that are read are told
apart in snake case. -/
theorem row_functions_distinct_iff (i : Interface) (options : Options) (hnames : i.WellNamed)
    (hplan : i.plan options = .ok plan)
    : i.ReadsRows plan ∧
      (∀ m ∈ i.methods, ∀ e, i.rowEntity? m = some e →
        (plan.Resolves (RowCode.adapter e).name e ↔
          ∀ m' ∈ i.methods, ∀ e', i.rowEntity? m' = some e' →
            Text.snakeCase e'.name = Text.snakeCase e.name → e' = e)) ∧
      ((plan.rowAdapters.map (·.name)).Nodup ↔
        ∀ m ∈ i.methods, ∀ m' ∈ i.methods, ∀ e e', i.rowEntity? m = some e → i.rowEntity? m' = some e' →
          Text.snakeCase e.name = Text.snakeCase e'.name → e = e') := by
  have hreads := readsRows_of_plan hnames hplan
  have hnodup : plan.rowAdapters.Nodup := by
    apply List.Nodup.of_map (f := (·.entity))
    rw [hreads.entities]
    exact nodup_eraseDups _
  refine ⟨hreads, ?_, ?_⟩
  . intro m hm e he
    constructor
    . intro hresolves m' hm' e' he' hsnake
      have hmem : RowCode.adapter e' ∈ plan.rowAdapters.filter (·.name = (RowCode.adapter e).name) := by
        have hname := (RowCode.name_adapter_eq_iff e' e).2 hsnake
        exact List.mem_filter.2 ⟨hreads.declared m' hm' e' he', decide_eq_true hname⟩
      unfold Plan.Resolves at hresolves
      rw [hresolves] at hmem
      exact eq_of_rowEntity? he' he (congrArg RowAdapter.entity (List.mem_singleton.1 hmem))
    . intro hapart
      apply List.perm_singleton.1
      rw [List.perm_ext_iff_of_nodup (hnodup.filter _) (List.nodup_singleton _)]
      intro r
      rw [List.mem_filter, List.mem_singleton, decide_eq_true_iff]
      constructor
      . rintro ⟨hr, hname⟩
        obtain ⟨m', hm', e', he', _, rfl⟩ := hreads.adapters r hr
        rw [hapart m' hm' e' he' ((RowCode.name_adapter_eq_iff e' e).1 hname)]
      . rintro rfl
        exact ⟨hreads.declared m hm e he, rfl⟩
  . rw [List.nodup_map_iff_inj_on hnodup]
    constructor
    . intro hinjective m hm m' hm' e e' he he' hsnake
      have hsame := hinjective _ (hreads.declared m hm e he) _ (hreads.declared m' hm' e' he')
        ((RowCode.name_adapter_eq_iff e e').2 hsnake)
      exact eq_of_rowEntity? he he' (congrArg RowAdapter.entity hsame)
    . intro hapart r hr r' hr' hname
      obtain ⟨m, hm, e, he, _, rfl⟩ := hreads.adapters r hr
      obtain ⟨m', hm', e', he', _, rfl⟩ := hreads.adapters r' hr'
      rw [hapart m hm m' hm' e e' he he' ((RowCode.name_adapter_eq_iff e e').1 hname)]

def userNames : Interface :=
  let list (name : String) : Code.TypeExpr :=
    .path false [.mk "Vec" (.angled false [.type (.path false [.mk name .none])] false)]
  let entity (name table : String) : Entity := ⟨name, table, [⟨"name", "name", false, none⟩], ["name"], none⟩
  let read (name entity table : String) : Method :=
    ⟨name, [], some (list entity), .direct,
      .read ("SELECT name FROM " ++ table) (some (.list (.entity entity))) [] false⟩
  { name := "Users"
    entities := [entity "User" "user", entity "UserName" "user_name", entity "User_Name" "alias"]
    converters := []
    backing := none
    methods := [read "users" "User" "user", read "names" "UserName" "user_name",
      read "aliases" "User_Name" "alias"] }

theorem wellNamed_userNames : userNames.WellNamed := by
  intro e he
  apply plainName_of_isIdent
  revert e
  decide

/-- Only users are read by a function of their own name. -/
theorem row_functions_distinct_userNames
    : userNames.WellNamed ∧
      ∃ plan, userNames.plan .standard = .ok plan ∧ userNames.ReadsRows plan ∧
        (∃ m ∈ userNames.methods, ∃ e, userNames.rowEntity? m = some e ∧ e.name = "User" ∧
          plan.Resolves (RowCode.adapter e).name e) ∧
        ¬(plan.rowAdapters.map (·.name)).Nodup := by
  have hentities : userNames.methods.map (fun m => (userNames.rowEntity? m).map Entity.name)
      = [some "User", some "UserName", some "User_Name"] := by
    decide +kernel
  have read (name : String) (h : some name ∈ [some "User", some "UserName", some "User_Name"])
      : ∃ m ∈ userNames.methods, ∃ e, userNames.rowEntity? m = some e ∧ e.name = name := by
    rw [← hentities] at h
    obtain ⟨m, hm, h⟩ := List.mem_map.1 h
    obtain ⟨e, he, hname⟩ := Option.map_eq_some_iff.1 h
    exact ⟨m, hm, e, he, hname⟩
  obtain ⟨users, husers, user, huser, hname⟩ := read "User" (by simp)
  obtain ⟨names, hnames, name, hread, hname'⟩ := read "UserName" (by simp)
  obtain ⟨aliases, haliases, other, hother, hname''⟩ := read "User_Name" (by simp)
  have hok : (userNames.plan .standard).isOk = true := by decide +kernel
  cases hplan : userNames.plan .standard with
  | error =>
    rw [hplan] at hok
    cases hok
  | ok plan =>
    obtain ⟨hreads, hresolves, hdistinct⟩ :=
      row_functions_distinct_iff userNames .standard wellNamed_userNames hplan
    refine ⟨wellNamed_userNames, plan, rfl, hreads, ?_, ?_⟩
    . refine ⟨users, husers, user, huser, hname, (hresolves users husers user huser).2 ?_⟩
      intro m hm e he hsnake
      apply eq_of_rowEntity? he huser
      have hmem := List.mem_map_of_mem (f := fun m => (userNames.rowEntity? m).map Entity.name) hm
      rw [hentities, he, Option.map_some] at hmem
      rw [hname] at hsnake ⊢
      have hcases : e.name = "User" ∨ e.name = "UserName" ∨ e.name = "User_Name" := by simpa using hmem
      rcases hcases with h | h | h
      . exact h
      . rw [h] at hsnake
        exact absurd hsnake (by decide +kernel)
      . rw [h] at hsnake
        exact absurd hsnake (by decide +kernel)
    . intro hnodup
      have hsame := hdistinct.1 hnodup names hnames aliases haliases name other hread hother (by
        rw [hname', hname'']
        decide +kernel)
      rw [hsame, hname''] at hname'
      exact absurd hname' (by decide)

/-- Two methods call functions of one name, of which there are two. -/
theorem row_functions_clash_userNames
    : userNames.WellNamed ∧
      ∃ plan, userNames.plan .standard = .ok plan ∧
        plan.rowAdapters.map (·.entity) = ["User", "UserName", "User_Name"] ∧
        plan.methods.map (·.body.rowFunctions)
          = [["__entity_cursor_converter_user"], ["__entity_cursor_converter_user_name"],
            ["__entity_cursor_converter_user_name"]] ∧
        ¬(plan.rowAdapters.map (·.name)).Nodup := by
  have hclash : (userNames.plan .standard).toOption.any (fun plan =>
      plan.rowAdapters.map (·.entity) = ["User", "UserName", "User_Name"] ∧
      plan.methods.map (·.body.rowFunctions)
        = [["__entity_cursor_converter_user"], ["__entity_cursor_converter_user_name"],
          ["__entity_cursor_converter_user_name"]] ∧
      ¬(plan.rowAdapters.map (·.name)).Nodup) = true := by
    decide +kernel
  cases hplan : userNames.plan .standard with
  | error =>
    rw [hplan] at hclash
    cases hclash
  | ok plan =>
    rw [hplan] at hclash
    exact ⟨wellNamed_userNames, plan, rfl, of_decide_eq_true hclash⟩

end Interface

end DataAccess
