import DataAccess.Proofs.Compile.Drafted
import DataAccess.Proofs.Compile.Written

/-!
This module contains what is left behind when methods have been drafted: their code with the names that
they were answered with, and the converters in use. Main statements: the converters in use are those of the
methods' parameters and of the entities that the methods need; everything that a plan declares is the
answer to a need; and a plan's methods have their code with the names of these declarations.
-/

namespace DataAccess

open Code (Block Path)

theorem Draft.mem_noteConverters {d : Draft} {converters : List Path} {x : String}
    : x ∈ (d.noteConverters converters).converters ↔
        (∃ c ∈ converters, x = c.compact) ∨ x ∈ d.converters := by
  unfold noteConverters
  induction converters generalizing d with
  | nil => simp
  | cons c rest ih =>
    rw [List.foldl_cons, ih, noteConverter, NameSet.mem_insert]
    constructor
    . rintro (⟨c', hc', hx⟩ | hx | hx)
      . exact Or.inl ⟨c', List.mem_cons_of_mem _ hc', hx⟩
      . exact Or.inl ⟨c, List.mem_cons_self, hx⟩
      . exact Or.inr hx
    . rintro (⟨c', hc', hx⟩ | hx)
      . rcases List.mem_cons.1 hc' with rfl | hc'
        . exact Or.inr (Or.inl hx)
        . exact Or.inl ⟨c', hc', hx⟩
      . exact Or.inr (Or.inr hx)

theorem Draft.pairwise_noteConverters {d : Draft} (h : d.converters.Pairwise (· < ·))
    (converters : List Path) : (d.noteConverters converters).converters.Pairwise (· < ·) := by
  unfold noteConverters
  induction converters generalizing d with
  | nil => exact h
  | cons c rest ih => exact ih (NameSet.pairwise_insert c.compact h)

def Need.converters : Need → List Path
  | adapter _ e _ | row e => e.converters
  | prepared _ _ => []

def Classified.converters (c : Classified) : List Path :=
  c.method.params.filterMap (·.converter) ++ c.needs.flatMap Need.converters

/-- A draft has noted some converters and no others. An entity that is read has all of its own noted. -/
structure Draft.Noted (i : Interface) (d : Draft) (converters : List Path) : Prop where
  mem_iff : ∀ x, x ∈ d.converters ↔ ∃ c ∈ converters, x = c.compact
  sorted : d.converters.Pairwise (· < ·)
  rows : ∀ r ∈ d.rowAdapters, ∀ e, i.entity? r.entity = some e →
    ∀ c ∈ e.converters, c.compact ∈ d.converters

theorem Draft.requestRow_eq_ok {d e : Draft} {adapter : RowAdapter} {converters : List Path}
    {name : String} (h : d.requestRow adapter converters = .ok (name, e))
    : (∃ existing ∈ d.rowAdapters, existing.entity = adapter.entity ∧ e = d) ∨
        e.converters = (d.noteConverters converters).converters ∧
          e.rowAdapters = d.rowAdapters ++ [adapter] := by
  unfold Draft.requestRow at h
  split at h
  . next existing hfound =>
    split at h
    . cases h
      have hname : existing.entity = adapter.entity := by simpa using List.find?_some hfound
      exact Or.inl ⟨existing, List.mem_of_find?_eq_some hfound, hname, rfl⟩
    . cases h
  . cases h
    exact Or.inr ⟨rfl, congrArg (· ++ [adapter]) (d.rowAdapters_noteConverters converters)⟩

namespace Draft.Noted

variable {i : Interface} {d e : Draft} {before : List Path}

theorem empty (i : Interface) : Draft.empty.Noted i [] where
  mem_iff x := by simp [Draft.empty]
  sorted := List.Pairwise.nil
  rows r hr := by cases hr

theorem of_eq (h : d.Noted i before) (hconverters : e.converters = d.converters)
    (hrows : e.rowAdapters = d.rowAdapters) : e.Noted i before where
  mem_iff := hconverters ▸ h.mem_iff
  sorted := hconverters ▸ h.sorted
  rows := hconverters ▸ hrows ▸ h.rows

theorem noteConverters (h : d.Noted i before) (converters : List Path)
    : (d.noteConverters converters).Noted i (before ++ converters) where
  mem_iff x := by
    rw [mem_noteConverters, h.mem_iff]
    constructor
    . rintro (⟨c, hc, hx⟩ | ⟨c, hc, hx⟩)
      . exact ⟨c, List.mem_append_right _ hc, hx⟩
      . exact ⟨c, List.mem_append_left _ hc, hx⟩
    . rintro ⟨c, hc, hx⟩
      rcases List.mem_append.1 hc with hc | hc
      . exact Or.inr ⟨c, hc, hx⟩
      . exact Or.inl ⟨c, hc, hx⟩
  sorted := pairwise_noteConverters h.sorted converters
  rows r hr e he c hc := by
    rw [rowAdapters_noteConverters] at hr
    exact mem_noteConverters.2 (Or.inr (h.rows r hr e he c hc))

theorem append_of_mem (h : d.Noted i before) {converters : List Path}
    (hconverters : ∀ c ∈ converters, c.compact ∈ d.converters) : d.Noted i (before ++ converters) where
  mem_iff x := by
    rw [h.mem_iff]
    constructor
    . rintro ⟨c, hc, hx⟩
      exact ⟨c, List.mem_append_left _ hc, hx⟩
    . rintro ⟨c, hc, rfl⟩
      rcases List.mem_append.1 hc with hc | hc
      . exact ⟨c, hc, rfl⟩
      . exact (h.mem_iff _).1 (hconverters c hc)
  sorted := h.sorted
  rows := h.rows

theorem request {r : HelperRequest} {name : String} (h : d.Noted i before)
    (he : d.request r = .ok (name, e)) : e.Noted i before := by
  unfold Draft.request at he
  split at he
  . split at he
    . cases he
      exact h
    . cases he
  . cases he
    exact h.of_eq rfl rfl

/-- The function for an entity notes its converters when it is new. Otherwise they have been noted. -/
theorem requestRow {entity : Entity} {name : String} (h : d.Noted i before)
    (hentity : i.entity? entity.name = some entity)
    (he : d.requestRow (RowCode.adapter entity) entity.converters = .ok (name, e))
    : e.Noted i (before ++ entity.converters) := by
  rcases requestRow_eq_ok he with ⟨existing, hexisting, hname, rfl⟩ | ⟨hconverters, hrows⟩
  . apply h.append_of_mem
    exact h.rows existing hexisting entity (hname ▸ hentity)
  . have hnoted := h.noteConverters entity.converters
    constructor
    . rw [hconverters]
      exact hnoted.mem_iff
    . rw [hconverters]
      exact hnoted.sorted
    . intro r hr e' he' c hc
      rw [hconverters]
      rw [hrows] at hr
      rcases List.mem_append.1 hr with hr | hr
      . rw [← rowAdapters_noteConverters d entity.converters] at hr
        exact hnoted.rows r hr e' he' c hc
      . cases List.mem_singleton.1 hr
        cases hentity.symm.trans he'
        exact mem_noteConverters.2 (Or.inl ⟨c, hc, rfl⟩)

theorem ask {n : Need} {name : String} (h : d.Noted i before) (hn : n.Known i)
    (hask : n.ask.run.run d = (.ok name, e)) : e.Noted i (before ++ n.converters) := by
  cases n with
  | adapter op entity table =>
    obtain ⟨_, d', hnote, hrequest⟩ := Drafting.bind_eq_ok hask
    cases hnote
    exact (h.noteConverters entity.converters).request (Drafting.request_eq_ok hrequest)
  | prepared m s =>
    rw [Need.converters, List.append_nil]
    exact h.request (Drafting.request_eq_ok hask)
  | row entity =>
    refine h.requestRow hn (?_ : d.requestRow _ _ = .ok (name, e))
    change (Drafting.requestRow _ _).run.run d = _ at hask
    unfold Drafting.requestRow at hask
    rw [Drafting.run_get_bind] at hask
    cases hreq : d.requestRow (RowCode.adapter entity) entity.converters with
    | error =>
      rw [hreq] at hask
      cases hask
    | ok found =>
      rw [hreq] at hask
      cases hask
      rfl

theorem mapM_ask {needs : List Need} {names : List String} (h : d.Noted i before)
    (hneeds : ∀ n ∈ needs, n.Known i)
    (hask : (needs.mapM Need.ask : Drafting (List String)).run.run d = (.ok names, e))
    : e.Noted i (before ++ needs.flatMap Need.converters) := by
  induction needs generalizing d before names with
  | nil =>
    cases hask
    rw [List.flatMap_nil, List.append_nil]
    exact h
  | cons n rest ih =>
    rw [List.mapM_cons] at hask
    obtain ⟨name, d', hfirst, hask⟩ := Drafting.bind_eq_ok hask
    obtain ⟨more, d'', hrest, hask⟩ := Drafting.bind_eq_ok hask
    cases hask
    rw [List.flatMap_cons, ← List.append_assoc]
    exact ih (h.ask (hneeds n List.mem_cons_self) hfirst)
      (fun n hn => hneeds n (List.mem_cons_of_mem _ hn)) hrest

theorem eq_of_mem_iff {d' : Draft} {converters : List Path} (h : d.Noted i before)
    {i' : Interface} (h' : d'.Noted i' converters) (hmem : ∀ c, c ∈ before ↔ c ∈ converters)
    : d'.converters = d.converters := by
  apply h'.sorted.eq_of_mem_iff h.sorted
  intro x
  rw [h'.mem_iff, h.mem_iff]
  simp only [hmem]

end Draft.Noted

theorem Classified.of_announce {c : Classified} {d e : Draft} {u : PUnit}
    (h : c.announce.run.run d = (.ok u, e))
    : e.fields = d.fields ∧ e.rowAdapters = d.rowAdapters ∧ e.converters = d.converters := by
  unfold announce at h
  split at h
  . split at h
    . cases h
      exact ⟨rfl, rfl, rfl⟩
    . cases h
      exact ⟨rfl, rfl, rfl⟩
  . cases h
    exact ⟨rfl, rfl, rfl⟩

theorem Draft.Answered.exists_answer {i : Interface} {d : Draft} {answers : List (Need × String)}
    (h : d.Answered i answers) {x : Declaration} (hx : d.Has x)
    : ∃ a ∈ answers, x = a.1.declaration a.2 := by
  cases x with
  | field f =>
    have hkeys : (d.fields.map (·.key)).Nodup := h.keys ▸ nodup_eraseDups _
    have hkey : f.key ∈ helperKeys answers := by
      rw [← List.mem_eraseDups, ← h.keys]
      exact List.mem_map_of_mem (f := (·.key)) hx
    obtain ⟨⟨n, name⟩, ha, hrequest⟩ := List.mem_filterMap.1 hkey
    obtain ⟨r, hr, hrkey⟩ := Option.map_eq_some_iff.1 hrequest
    have hgives := (h.gives _ ha).has
    rcases n.helper_or_row with ⟨r', hr', _, _, hdeclaration⟩ | ⟨e, rfl⟩
    . cases hr.symm.trans hr'
      refine ⟨(n, name), ha, ?_⟩
      rw [hdeclaration] at hgives ⊢
      exact congrArg Declaration.field (List.inj_on_of_nodup_map hkeys hx hgives hrkey.symm)
    . cases hr
  | function r =>
    have hentities : (d.rowAdapters.map (·.entity)).Nodup := h.entities ▸ nodup_eraseDups _
    have hentity : r.entity ∈ (readEntities answers).map Entity.name := by
      rw [← List.mem_eraseDups, ← h.entities]
      exact List.mem_map_of_mem (f := (·.entity)) hx
    obtain ⟨e, he, hname⟩ := List.mem_map.1 hentity
    obtain ⟨⟨n, name⟩, ha, hread⟩ := List.mem_filterMap.1 he
    have hgives := (h.gives _ ha).has
    cases n with
    | adapter | prepared => cases hread
    | row =>
      cases hread
      refine ⟨(.row e, name), ha, ?_⟩
      exact congrArg Declaration.function (List.inj_on_of_nodup_map hentities hx hgives hname.symm)

namespace Interface

variable {i : Interface}

structure Writes (i : Interface) (answers : List (Need × String)) (c : Classified) (p : MethodPlan) :
    Prop where
  method : p.method = c.method
  category : p.category = c.category.tag
  code : ∃ names, names.length = c.needs.length ∧ c.needs.zip names ⊆ answers ∧
    c.code i.name names = .ok p.body

theorem Writes.mono {answers more : List (Need × String)} {c : Classified} {p : MethodPlan}
    (h : i.Writes answers c p) (hsubset : answers ⊆ more) : i.Writes more c p := by
  obtain ⟨names, hlength, hnames, hcode⟩ := h.code
  exact ⟨h.method, h.category, names, hlength, List.Subset.trans hnames hsubset, hcode⟩

theorem draftMethod_eq_ok {c : Classified} {d e : Draft} {p : MethodPlan}
    (h : (i.draftMethod c).run.run d = (.ok p, e))
    : p.method = c.method ∧ p.category = c.category.tag ∧
        ∃ d' names, d'.fields = d.fields ∧ d'.rowAdapters = d.rowAdapters ∧
          d'.converters = (d.noteConverters (c.method.params.filterMap (·.converter))).converters ∧
          (c.needs.mapM Need.ask : Drafting (List String)).run.run d' = (.ok names, e) ∧
          c.code i.name names = .ok p.body := by
  unfold draftMethod at h
  obtain ⟨_, d₁, hnote, h⟩ := Drafting.bind_eq_ok h
  obtain ⟨body, e', hlower, hplan⟩ := Drafting.bind_eq_ok h
  cases hnote
  cases hplan
  rw [Classified.lower_eq] at hlower
  obtain ⟨_, d', hannounce, hlower⟩ := Drafting.bind_eq_ok hlower
  obtain ⟨names, e'', hask, hcode⟩ := Drafting.bind_eq_ok hlower
  obtain ⟨hwritten, rfl⟩ := Drafting.ofExcept_eq_ok hcode
  obtain ⟨hfields, hrows, hconverters⟩ := Classified.of_announce hannounce
  exact ⟨rfl, rfl, d', names, hfields.trans (Drafting.fields_noteConverters _ _),
    hrows.trans (Draft.rowAdapters_noteConverters _ _), hconverters, hask, hwritten⟩

/-- Drafting methods answers what they need, notes the converters that they bring, and writes their code. -/
theorem written_of_draftMethods {methods : List Classified} {plans : List MethodPlan} {d : Draft}
    {before : List Path} (hknown : ∀ c ∈ methods, ∀ n ∈ c.needs, n.Known i) (hd : d.Noted i before)
    (h : ((i.draftMethods methods).run d).1 = plans.map .ok)
    : ∃ answers, answers.map Prod.fst = methods.flatMap Classified.needs ∧
        d.Answers answers ((i.draftMethods methods).run d).2 ∧
        ((i.draftMethods methods).run d).2.Noted i
          (before ++ methods.flatMap Classified.converters) ∧
        List.Forall₂ (i.Writes answers) methods plans := by
  induction methods generalizing d before plans with
  | nil =>
    cases plans with
    | nil =>
      refine ⟨[], rfl, .done, ?_, .nil⟩
      rw [List.flatMap_nil, List.append_nil]
      exact hd
    | cons => cases h
  | cons c rest ih =>
    cases plans with
    | nil => cases h
    | cons p plans =>
      obtain ⟨hfirst, hrest⟩ := List.cons.inj h
      obtain ⟨hmethod, hcategory, d', names, hfields, hrows, hconverters, hask, hcode⟩ :=
        draftMethod_eq_ok (Prod.ext hfirst rfl)
      obtain ⟨hlength, hown⟩ := Drafting.answers_mapM_ask hask
      have hnoted : d'.Noted i (before ++ c.method.params.filterMap (·.converter)) :=
        (hd.noteConverters _).of_eq hconverters
          (hrows.trans (d.rowAdapters_noteConverters _).symm)
      have hall := hnoted.mapM_ask (hknown c List.mem_cons_self) hask
      obtain ⟨more, hneeds, hmore, hfinal, hwritten⟩ :=
        ih (fun c hc => hknown c (List.mem_cons_of_mem _ hc)) hall hrest
      refine ⟨c.needs.zip names ++ more, ?_, ?_, ?_, .cons ⟨hmethod, hcategory, ?_⟩ ?_⟩
      . rw [List.map_append, hneeds, List.map_fst_zip (Nat.le_of_eq hlength.symm)]
        rfl
      . exact .append (.alike ⟨hfields, hrows⟩ hown) hmore
      . rw [List.append_assoc, List.append_assoc] at hfinal
        rw [List.flatMap_cons, Classified.converters, List.append_assoc]
        exact hfinal
      . exact ⟨names, hlength, List.subset_append_left _ _, hcode⟩
      . exact hwritten.imp fun _ _ hwrites => hwrites.mono (List.subset_append_right _ _)

theorem exists_of_written {answers : List (Need × String)} {methods : List Classified}
    {plans : List MethodPlan} (h : List.Forall₂ (i.Writes answers) methods plans) {p : MethodPlan}
    (hp : p ∈ plans) : ∃ c ∈ methods, i.Writes answers c p := by
  obtain ⟨k, hk, rfl⟩ := List.getElem_of_mem hp
  have hlength := h.length_eq
  exact ⟨methods[k], List.getElem_mem _, h.get (by omega) hk⟩

/-- Every method of a plan has a category, and its code with names for all that it needs. -/
theorem code_of_plan {options : Options} {plan : Plan} (h : i.plan options = .ok plan) {p : MethodPlan}
    (hp : p ∈ plan.methods)
    : ∃ c names, i.classify p.method = .ok c ∧ c.method = p.method ∧ names.length = c.needs.length ∧
        c.code i.name names = .ok p.body := by
  obtain ⟨classified, hdrafts⟩ := drafts_of_plan h
  have hknown := known_of_classified hdrafts.categories
  obtain ⟨answers, _, _, _, hwritten⟩ := written_of_draftMethods hknown (.empty i) hdrafts.methods
  obtain ⟨c, hc, hwrites⟩ := exists_of_written hwritten hp
  obtain ⟨names, hlength, _, hcode⟩ := hwrites.code
  have horigin := (methods_of_classified hdrafts.categories).2 c hc
  exact ⟨c, names, hwrites.method ▸ horigin, hwrites.method.symm, hlength, hcode⟩

end Interface

end DataAccess
