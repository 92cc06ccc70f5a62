import DataAccess.Proofs.Compile.Leaves
import DataAccess.Proofs.Compile.Problems

/-!
This module contains how a plan depends on the list of methods. Main statement: one more method at the end
leaves the plan of the others as it is and only adds to the helpers, the functions that read rows and the
converters; and methods in another order have the same plan up to the names of helpers.
-/

namespace DataAccess

open Code (Block)

namespace Interface

variable {i : Interface} {options : Options}

def withMethods (i : Interface) (methods : List Method) : Interface :=
  { i with methods := methods }

theorem classify_withMethods {methods : List Method} {m : Method}
    (h : ∀ target, m.kind = .delegate target →
      (i.withMethods methods).method? target = i.method? target)
    : (i.withMethods methods).classify m = i.classify m := by
  have hresolve : (i.withMethods methods).resolve m = i.resolve m := by
    unfold resolve
    cases hkind : m.kind with
    | delegate target =>
      change (i.withMethods methods).resolveDelegate m target = i.resolveDelegate m target
      unfold resolveDelegate
      rw [h target hkind]
    | _ => rfl
  unfold classify
  rw [hresolve]
  rfl

theorem draftMethods_withMethods (methods : List Method) (classified : List Classified) (d : Draft)
    : ((i.withMethods methods).draftMethods classified).run d = (i.draftMethods classified).run d := by
  induction classified generalizing d with
  | nil => rfl
  | cons c rest ih =>
    have hrest := ih ((i.draftMethod c).run.run d).2
    exact congrArg (fun r => (((i.draftMethod c).run.run d).1 :: r.1, r.2)) hrest

theorem draftMethods_append (first rest : List Classified) (d : Draft)
    : ((i.draftMethods (first ++ rest)).run d) =
        (((i.draftMethods first).run d).1 ++
            ((i.draftMethods rest).run ((i.draftMethods first).run d).2).1,
          ((i.draftMethods rest).run ((i.draftMethods first).run d).2).2) := by
  induction first generalizing d with
  | nil => rfl
  | cons c first ih =>
    have hrest := ih ((i.draftMethod c).run.run d).2
    exact congrArg (fun r => (((i.draftMethod c).run.run d).1 :: r.1, r.2)) hrest

theorem method?_of_classify {m : Method} {c : Classified} {target : String}
    (h : i.classify m = .ok c) (hkind : m.kind = .delegate target) : (i.method? target).isSome := by
  obtain ⟨_, hresolve, _⟩ := classify_eq_ok h
  unfold resolve at hresolve
  rw [hkind] at hresolve
  dsimp only at hresolve
  unfold resolveDelegate at hresolve
  split at hresolve
  . next found hfound =>
    rw [hfound]
    rfl
  . cases hresolve

end Interface

theorem Draft.Answers.grows {d e : Draft} {answers : List (Need × String)} (h : d.Answers answers e)
    : d.fields <+: e.fields ∧ d.rowAdapters <+: e.rowAdapters := by
  induction h with
  | done => exact ⟨List.prefix_rfl, List.prefix_rfl⟩
  | @ask d' _ e d n _ hask _ ih =>
    suffices hfirst : d.fields <+: d'.fields ∧ d.rowAdapters <+: d'.rowAdapters from
      ⟨hfirst.1.trans ih.1, hfirst.2.trans ih.2⟩
    have hcases := n.ask_cases d
    cases hfound : d.find? n.signature with
    | some found =>
      rw [hfound] at hcases
      obtain ⟨_, rfl⟩ := Prod.mk.inj (hask.symm.trans hcases)
      have halike := d.alike_noted n
      rw [halike.fields, halike.rowAdapters]
      exact ⟨List.prefix_rfl, List.prefix_rfl⟩
    | none =>
      rw [hfound] at hcases
      obtain ⟨e', hrun, hgains⟩ := hcases
      cases hask.symm.trans hrun
      generalize n.declaration (n.newName d) = x at hgains
      cases hgains with
      | field hfields hrows =>
        rw [hfields, hrows]
        exact ⟨List.prefix_append _ _, List.prefix_rfl⟩
      | function hfields hrows =>
        rw [hfields, hrows]
        exact ⟨List.prefix_rfl, List.prefix_append _ _⟩
  | alike halike _ ih =>
    rw [halike.fields, halike.rowAdapters] at ih
    exact ih

/-- A plan is the beginning of another one. -/
structure Plan.Begins (plan other : Plan) : Prop where
  interface : other.interface = plan.interface
  implementation : other.implementation = plan.implementation
  runtime : other.runtime = plan.runtime
  backing : other.backing = plan.backing
  methods : plan.methods <+: other.methods
  fields : plan.fields <+: other.fields
  rowAdapters : plan.rowAdapters <+: other.rowAdapters
  converters : plan.converters ⊆ other.converters

namespace Interface

variable {i : Interface} {options : Options} {plan other : Plan}

/-- Methods that come last change nothing for those before them. -/
theorem begins_of_append {more : List Method} (hplan : i.plan options = .ok plan)
    (hother : (i.withMethods (i.methods ++ more)).plan options = .ok other) : plan.Begins other := by
  let j := i.withMethods (i.methods ++ more)
  obtain ⟨classified, h⟩ := drafts_of_plan hplan
  obtain ⟨all, hall⟩ := drafts_of_plan hother
  have hsame : i.methods.map j.classify = i.methods.map i.classify := by
    apply List.map_congr_left
    intro m hm
    apply classify_withMethods
    intro target hkind
    have hc : i.classify m ∈ classified.map .ok := h.categories ▸ List.mem_map_of_mem hm
    obtain ⟨c, _, hc⟩ := List.mem_map.1 hc
    have hfound := method?_of_classify hc.symm hkind
    unfold method? at hfound ⊢
    exact (List.find?_append).trans (Option.or_of_isSome hfound)
  have hcategories := hall.categories
  change (i.methods ++ more).map j.classify = _ at hcategories
  rw [List.map_append, hsame, h.categories] at hcategories
  obtain ⟨last, rfl, hlast⟩ := eq_append_of_map_ok hcategories
  have hfirst := h.methods
  have hmethods := hall.methods
  have hfields := hall.fields
  have hrows := hall.rowAdapters
  have hconverters := hall.converters
  change ((j.draftMethods _).run .empty).1 = _ at hmethods
  change _ = ((j.draftMethods _).run .empty).2.fields at hfields
  change _ = ((j.draftMethods _).run .empty).2.rowAdapters at hrows
  change _ = ((j.draftMethods _).run .empty).2.converters at hconverters
  have hdraft : (j.draftMethods classified).run .empty = (i.draftMethods classified).run .empty :=
    draftMethods_withMethods _ classified .empty
  rw [draftMethods_append] at hmethods hfields hrows hconverters
  rw [hdraft] at hmethods hfields hrows hconverters
  rw [hfirst] at hmethods
  obtain ⟨plans, hplans, hrest⟩ := eq_append_of_map_ok hmethods
  rw [← hdraft] at hrest hfields hrows hconverters hfirst
  -- The draft goes on from what the first methods have left behind.
  obtain ⟨_, _, _, hnoted, _⟩ := written_of_draftMethods (i := j)
    (known_of_classified (hsame.trans h.categories)) (.empty j) hfirst
  obtain ⟨_, _, hanswers, hnoted', _⟩ := written_of_draftMethods (i := j)
    (known_of_classified hlast) hnoted hrest
  obtain ⟨hgrowsFields, hgrowsRows⟩ := hanswers.grows
  refine ⟨?_, ?_, ?_, ?_, ?_, ?_, ?_, ?_⟩
  . rw [hall.interface, h.interface]
    rfl
  . rw [hall.implementation, h.implementation]
    rfl
  . rw [hall.runtime, h.runtime]
  . rw [hall.backing, h.backing]
    rfl
  . rw [hplans]
    exact List.prefix_append _ _
  . rw [h.fields, hfields, ← hdraft]
    exact hgrowsFields
  . rw [h.rowAdapters, hrows, ← hdraft]
    exact hgrowsRows
  . rw [h.converters, hconverters, ← hdraft]
    intro x hx
    obtain ⟨c, hc, rfl⟩ := (hnoted.mem_iff x).1 hx
    exact (hnoted'.mem_iff _).2 ⟨c, List.mem_append_left _ hc, rfl⟩

end Interface

def Plan.renamed (plan other : Plan) (name : String) : String :=
  match plan.fields.find? (·.name == name) with
  | some f => ((other.field? f.key).map (·.name)).getD name
  | none => name

/-- Another plan is the same but for the order of what it lists and the names of its helpers. -/
structure Plan.SameUpToNames (plan other : Plan) : Prop where
  interface : other.interface = plan.interface
  implementation : other.implementation = plan.implementation
  runtime : other.runtime = plan.runtime
  backing : other.backing = plan.backing
  converters : other.converters = plan.converters
  rowAdapters : other.rowAdapters.Perm plan.rowAdapters
  fields : other.fields.Perm (plan.fields.map fun f => { f with name := plan.renamed other f.name })
  methods : other.methods.Perm
    (plan.methods.map fun p => { p with body := p.body.rename (plan.renamed other) })

namespace Interface

variable {i : Interface} {options : Options} {classified : List Classified} {plan : Plan}
  {answers : List (Need × String)} {d : Draft}

namespace Leaves

variable {i' : Interface} {classified' : List Classified} {other : Plan}
  {answers' : List (Need × String)} {d' : Draft}

theorem renamed_eq (h : i.Leaves classified plan answers d)
    (h' : i'.Leaves classified' other answers' d') {n : Need} {name name' : String}
    (hgives : d.Gives n name) (hgives' : d'.Gives n name')
    : name' = n.renamed (plan.renamed other) name := by
  have renamed (r : HelperRequest) (hfield : r.field name ∈ d.fields) (hfield' : r.field name' ∈ d'.fields)
      : name' = plan.renamed other name := by
    rw [h.fields] at hfield
    rw [h'.fields] at hfield'
    have hname : plan.fields.find? (·.name == name) = some (r.field name) :=
      find?_of_nodup HelperField.name h.nodup_names hfield
    have hkey : other.field? r.key = some (r.field name') :=
      find?_of_nodup HelperField.key h'.nodup_keys hfield'
    unfold Plan.renamed
    rw [hname]
    change _ = ((other.field? r.key).map (·.name)).getD name
    rw [hkey]
    rfl
  cases n with
  | adapter op e table => exact renamed (adapterRequest op e table) hgives.has hgives'.has
  | prepared m s => exact renamed (preparedRequest m s) hgives.has hgives'.has
  | row e => exact hgives'.name.symm.trans hgives.name

/-- A method has the same code in two plans but for the names of helpers. -/
theorem renamed_of_writes (h : i.Leaves classified plan answers d)
    (h' : i'.Leaves classified' other answers' d') (hname : i'.name = i.name) {c : Classified}
    {p p' : MethodPlan} (hp : i.Writes answers c p) (hp' : i'.Writes answers' c p')
    : p' = { p with body := p.body.rename (plan.renamed other) } := by
  obtain ⟨names, hlength, hsubset, hcode⟩ := hp.code
  obtain ⟨names', hlength', hsubset', hcode'⟩ := hp'.code
  have hgives : ∀ a ∈ c.needs.zip names, d.Gives a.1 a.2 :=
    fun a ha => h.answered.gives a (hsubset ha)
  have hnames : names' = List.zipWith (Need.renamed (plan.renamed other)) c.needs names := by
    apply eq_zipWith hlength hlength'
    intro n name name' hn hn'
    exact h.renamed_eq h' (hgives _ hn) (h'.answered.gives _ (hsubset' hn'))
  have hdb : ∀ name ∈ names, name ≠ "__db" := by
    intro name hname
    have hsnd : (c.needs.zip names).map Prod.snd = names := List.map_snd_zip (Nat.le_of_eq hlength)
    rw [← hsnd] at hname
    obtain ⟨a, ha, rfl⟩ := List.mem_map.1 hname
    exact h.ne_db (hgives a ha)
  have hbody : p'.body = p.body.rename (plan.renamed other) := by
    rw [hname, hnames, c.code_rename _ _ hlength hdb, hcode] at hcode'
    exact (Except.ok.inj hcode').symm
  obtain ⟨method, category, body⟩ := p
  obtain ⟨method', category', body'⟩ := p'
  cases hbody
  have hmethod : method' = method := hp'.method.trans hp.method.symm
  have hcategory : category' = category := hp'.category.trans hp.category.symm
  rw [hmethod, hcategory]

theorem renamed_field (h : i.Leaves classified plan answers d)
    (h' : i'.Leaves classified' other answers' d') {n : Need} {name name' : String}
    (hgives : d.Gives n name) (hgives' : d'.Gives n name') {f g : HelperField}
    (hf : .field f = n.declaration name) (hg : .field g = n.declaration name')
    : { f with name := plan.renamed other f.name } = g := by
  have hrenamed := h.renamed_eq h' hgives hgives'
  cases n with
  | adapter | prepared =>
    cases hf
    cases hg
    rw [hrenamed]
    rfl
  | row => cases hf

theorem mem_fields (h : i.Leaves classified plan answers d)
    (h' : i'.Leaves classified' other answers' d') (hperm : classified.Perm classified')
    (f : HelperField)
    : f ∈ other.fields ↔ f ∈ plan.fields.map fun f => { f with name := plan.renamed other f.name } := by
  have hneeds (n : Need) : n ∈ classified.flatMap Classified.needs ↔
      n ∈ classified'.flatMap Classified.needs :=
    (hperm.flatMap_right Classified.needs).mem_iff
  constructor
  . intro hf
    obtain ⟨n, hn, name', hgives', hf'⟩ := h'.exists_need (h'.has_field.2 hf)
    obtain ⟨name, hgives⟩ := h.exists_name ((hneeds n).2 hn)
    obtain ⟨g, hg⟩ := n.exists_field hf' name
    have hmem : g ∈ plan.fields := h.has_field.1 (hg ▸ hgives.has)
    exact List.mem_map.2 ⟨g, hmem, h.renamed_field h' hgives hgives' hg hf'⟩
  . intro hf
    obtain ⟨g, hmem, rfl⟩ := List.mem_map.1 hf
    obtain ⟨n, hn, name, hgives, hg⟩ := h.exists_need (h.has_field.2 hmem)
    obtain ⟨name', hgives'⟩ := h'.exists_name ((hneeds n).1 hn)
    obtain ⟨f', hf'⟩ := n.exists_field hg name'
    rw [h.renamed_field h' hgives hgives' hg hf']
    exact h'.has_field.1 (hf' ▸ hgives'.has)

theorem mem_rowAdapters (h : i.Leaves classified plan answers d)
    (h' : i'.Leaves classified' other answers' d') (hsubset : classified ⊆ classified')
    {r : RowAdapter} (hr : r ∈ plan.rowAdapters) : r ∈ other.rowAdapters := by
  obtain ⟨n, hn, name, _, hdeclared⟩ := h.exists_need (h.has_function.2 hr)
  obtain ⟨c, hc, hn⟩ := List.mem_flatMap.1 hn
  obtain ⟨name', hgives'⟩ := h'.exists_name (List.mem_flatMap.2 ⟨c, hsubset hc, hn⟩)
  cases n with
  | adapter | prepared => cases hdeclared
  | row e =>
    cases hdeclared
    exact h'.has_function.1 hgives'.has

theorem sameUpToNames (h : i.Leaves classified plan answers d)
    (h' : i'.Leaves classified' other answers' d') (hperm : classified.Perm classified')
    (hname : i'.name = i.name) (hinterface : other.interface = plan.interface)
    (himplementation : other.implementation = plan.implementation)
    (hruntime : other.runtime = plan.runtime) (hbacking : other.backing = plan.backing)
    : plan.SameUpToNames other := by
  refine ⟨hinterface, himplementation, hruntime, hbacking, ?_, ?_, ?_, ?_⟩
  . rw [← h.converters, ← h'.converters]
    apply h.noted.eq_of_mem_iff h'.noted
    intro c
    exact (hperm.flatMap_right Classified.converters).mem_iff
  . rw [List.perm_ext_iff_of_nodup h'.nodup_rowAdapters h.nodup_rowAdapters]
    intro r
    exact ⟨h'.mem_rowAdapters h hperm.symm.subset, h.mem_rowAdapters h' hperm.subset⟩
  . apply (List.perm_ext_iff_of_nodup (.of_map _ h'.nodup_keys) ?_).2 (h.mem_fields h' hperm)
    apply List.Nodup.of_map (·.key)
    rw [List.map_map]
    exact h.nodup_keys
  . obtain ⟨plans, hplans, hplan⟩ := List.perm_comp_forall₂ hperm.symm h.written
    rw [eq_map_of_forall₂ hplans h'.written fun _ _ _ => h.renamed_of_writes h' hname]
    exact hplan.map _

end Leaves

theorem sameUpToNames_of_perm (hnames : i.WellNamed) (hnodup : (i.methods.map Method.name).Nodup)
    (hplan : i.plan options = .ok plan) {methods : List Method} (hperm : i.methods.Perm methods)
    : ∃ other, (i.withMethods methods).plan options = .ok other ∧ plan.SameUpToNames other := by
  let j := i.withMethods methods
  obtain ⟨classified, h⟩ := drafts_of_plan hplan
  have hsame : methods.map j.classify = methods.map i.classify := by
    apply List.map_congr_left
    intro m _
    apply classify_withMethods
    intro target _
    exact find?_of_perm hnodup hperm target
  -- The methods have their categories, which are those from before in another order.
  have hclassify : ∀ m ∈ j.methods, ∃ c, j.classify m = .ok c := by
    intro m hm
    have hmem : j.classify m ∈ i.methods.map i.classify := by
      rw [(hperm.map _).mem_iff, ← hsame]
      exact List.mem_map_of_mem hm
    rw [h.categories] at hmem
    obtain ⟨c, _, hc⟩ := List.mem_map.1 hmem
    exact ⟨c, hc.symm⟩
  have hnodup' : (j.methods.map Method.name).Nodup := (hperm.map _).nodup_iff.1 hnodup
  obtain ⟨other, hother⟩ := exists_plan_of_nodup (i := j) options hnames hnodup' hclassify
  obtain ⟨classified', h'⟩ := drafts_of_plan hother
  have hcategories : classified.Perm classified' := by
    rw [← List.map_perm_map_iff fun _ _ => Except.ok.inj (ε := Problem), ← h.categories,
      ← h'.categories]
    change (i.methods.map i.classify).Perm (methods.map j.classify)
    rw [hsame]
    exact hperm.map _
  obtain ⟨_, _, hleaves⟩ := leaves_of_drafts hnames h
  obtain ⟨_, _, hleaves'⟩ := leaves_of_drafts (i := j) hnames h'
  refine ⟨other, hother, hleaves.sameUpToNames hleaves' hcategories rfl ?_ ?_ ?_ ?_⟩
  . rw [h.interface, h'.interface]
    rfl
  . rw [h.implementation, h'.implementation]
    rfl
  . rw [h.runtime, h'.runtime]
  . rw [h.backing, h'.backing]
    rfl

/-- Further methods at the end leave the plan of the methods before them as it is, and what they share
comes first in the longer plan. Methods of distinct names have a plan in every other order, too: it lists
the methods in that order, with the same code but for the names of helpers, and it declares the same
helpers under these names, the same functions that read rows and the same converters. -/
theorem plan_composes (i : Interface) (options : Options) {plan : Plan} (hnames : i.WellNamed)
    (hnodup : (i.methods.map Method.name).Nodup) (hplan : i.plan options = .ok plan)
    : (∀ more other, (i.withMethods (i.methods ++ more)).plan options = .ok other →
        plan.Begins other) ∧
      ∀ methods, i.methods.Perm methods →
        ∃ other, (i.withMethods methods).plan options = .ok other ∧
          other.methods.map (·.method) = methods ∧ plan.SameUpToNames other := by
  constructor
  . intro more other hother
    exact begins_of_append hplan hother
  . intro methods hperm
    obtain ⟨other, hother, hsame⟩ := sameUpToNames_of_perm hnames hnodup hplan hperm
    refine ⟨other, hother, ?_, hsame⟩
    have hmethods := congrArg (List.map Prod.fst) (methods_of_plan hother)
    rw [List.map_map, List.map_map] at hmethods
    exact hmethods.trans (List.map_id methods)

def insertsTwice.remove : Method :=
  ⟨"remove", [⟨"user", .path false [.mk "User" .none], false, none⟩], none, .direct,
    .delete [⟨"user", "User", false⟩]⟩

theorem plan_composes_insertsTwice
    : insertsTwice.WellNamed ∧ (insertsTwice.methods.map Method.name).Nodup ∧
      ∃ plan longer turned, insertsTwice.plan .standard = .ok plan ∧
        (insertsTwice.withMethods (insertsTwice.methods ++ [insertsTwice.remove])).plan .standard
          = .ok longer ∧
        (insertsTwice.withMethods (insertsTwice.methods.rotate 1)).plan .standard = .ok turned ∧
        plan.Begins longer ∧ plan.SameUpToNames turned ∧
        ["__insertion_adapter_of_user", "__insertion_adapter_of_user_1"].map (plan.renamed turned)
          = ["__insertion_adapter_of_user_1", "__insertion_adapter_of_user"] := by
  have hnames : insertsTwice.WellNamed := by
    intro e he
    apply plainName_of_isIdent
    revert e
    decide
  have hnodup : (insertsTwice.methods.map Method.name).Nodup := by decide
  have hrenamed :
      (match insertsTwice.plan .standard,
          (insertsTwice.withMethods (insertsTwice.methods.rotate 1)).plan .standard with
        | .ok plan, .ok turned =>
          ["__insertion_adapter_of_user", "__insertion_adapter_of_user_1"].map (plan.renamed turned)
        | _, _ => [])
        = ["__insertion_adapter_of_user_1", "__insertion_adapter_of_user"] := by
    decide +kernel
  have hlonger : ((insertsTwice.withMethods (insertsTwice.methods ++ [insertsTwice.remove])).plan
      .standard).isOk = true := by
    decide +kernel
  cases hplan : insertsTwice.plan .standard with
  | error =>
    rw [hplan] at hrenamed
    cases hrenamed
  | ok plan =>
    obtain ⟨hbegins, hperm⟩ := plan_composes insertsTwice .standard hnames hnodup hplan
    obtain ⟨turned, hturned, _, hsame⟩ := hperm _ (List.rotate_perm insertsTwice.methods 1).symm
    rw [hplan, hturned] at hrenamed
    cases hother : (insertsTwice.withMethods (insertsTwice.methods ++ [insertsTwice.remove])).plan
        .standard with
    | error =>
      rw [hother] at hlonger
      cases hlonger
    | ok longer =>
      exact ⟨hnames, hnodup, plan, longer, turned, rfl, rfl, hturned, hbegins _ longer hother, hsame,
        hrenamed⟩

end Interface

end DataAccess
