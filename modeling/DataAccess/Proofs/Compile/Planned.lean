import DataAccess.Proofs.Binding.Prepared
import DataAccess.Proofs.Compile.Collisions

/-!
This module contains that an interface whose methods all have a category has a plan, unless two write
queries of one name prepare statements that differ.
-/

namespace DataAccess

namespace Interface

variable {i : Interface}

theorem length_draftMethods (i : Interface) (methods : List Classified) (d : Draft)
    : ((i.draftMethods methods).run d).1.length = methods.length := by
  induction methods generalizing d with
  | nil => rfl
  | cons c rest ih => exact congrArg (· + 1) (ih ((i.draftMethod c).run.run d).2)

/-- If all methods are planned, then there is a field for each statement without collections. -/
theorem prepared_of_drafted {methods : List Classified} {plans : List MethodPlan} {c : Classified}
    {q : WriteQuery} (hplans : ((i.draftMethods methods).run .empty).1 = plans.map .ok)
    (hmem : c ∈ methods) (hq : c.category = .write q) (hscalar : q.statement.isExpandable = false)
    : ∃ f ∈ ((i.draftMethods methods).run .empty).2.fields,
        f.key = "prepared:" ++ c.method.name ∧
        Code.prepared? f.value = some (.new q.statement.positionalSql q.statement.argCount) := by
  obtain ⟨m, category, unused⟩ := c
  cases hq
  obtain ⟨n, hn⟩ := List.mem_iff_getElem?.1 hmem
  have hlength := i.length_draftMethods methods .empty
  rw [hplans, List.length_map] at hlength
  obtain ⟨hbound, _⟩ := List.getElem?_eq_some_iff.1 hn
  have hplanned : ((i.draftMethods methods).run .empty).1[n]? = some (.ok plans[n]) := by
    rw [hplans, List.getElem?_map, List.getElem?_eq_getElem]
    rfl
  obtain ⟨d, e, hd, hdraft, hextends⟩ := Draft.Sound.empty.drafted_of_planned hn hplanned
  obtain ⟨d', hfields, hlower⟩ := WriteQuery.draftMethod_eq_ok hdraft
  obtain ⟨source, hsource, _⟩ := WriteQuery.lower_eq_ok hlower
  obtain ⟨f, hf, hkey, hvalue, _⟩ :=
    WriteQuery.source_prepared (hd.of_fields hfields) hscalar hsource
  exact ⟨f, hextends.fields.subset hf, hkey, hvalue⟩

theorem exists_classifyAll (h : ∀ m ∈ i.methods, ∃ c, i.classify m = .ok c)
    : ∃ classified, i.classifyAll = .ok classified ∧
        i.methods.map i.classify = classified.map .ok := by
  cases hall : i.classifyAll with
  | ok classified => exact ⟨classified, rfl, collect_eq_ok hall⟩
  | error p =>
    obtain ⟨⟨r, hr⟩, _⟩ := collect_eq_error hall
    obtain ⟨m, hm, herror⟩ := List.mem_map.1 hr
    obtain ⟨c, hc⟩ := h m hm
    rw [hc] at herror
    cases herror

theorem plan_eq_error_iff {options : Options} {classified : List Classified} {p : Problem}
    (h : i.classifyAll = .ok classified)
    : i.plan options = .error p ↔
        collect ((i.draftMethods classified).run .empty).1 = .error p := by
  unfold plan planClassified
  rw [h]
  change (collect ((i.draftMethods classified).run .empty).1 >>= _) = .error p ↔ _
  cases collect ((i.draftMethods classified).run .empty).1 with
  | error q =>
    constructor
    . intro hplan
      cases hplan
      rfl
    . intro hcollect
      cases hcollect
      rfl
  | ok plans =>
    constructor
    . intro hplan
      cases hplan
    . intro hcollect
      cases hcollect

theorem compile_of_isIdent {options : Options}
    (h : Code.isIdent (i.implementationName options) = true)
    : i.compile options = (i.plan options).mapError .problem := by
  unfold compile plan
  cases i.classifyAll with
  | error => rfl
  | ok classified =>
    dsimp only
    rw [if_pos h]
    rfl

theorem PreparedClash.not_planned {classified : List Classified} {plans : List MethodPlan}
    (hclash : i.PreparedClash) (hnames : i.WellNamed)
    (hclassified : i.methods.map i.classify = classified.map .ok)
    : ((i.draftMethods classified).run .empty).1 ≠ plans.map .ok := by
  intro hplans
  have horigin := exists_method_of_classified hclassified
  have hkeys := ((Draft.Consistent.empty i).draftMethods hnames horigin).1.keys
  have prepared {m : Method} {s : BoundStatement} (hm : m ∈ i.methods) (hs : m.Prepares s)
      : ∃ f ∈ ((i.draftMethods classified).run .empty).2.fields,
          f.key = "prepared:" ++ m.name ∧
          Code.prepared? f.value = some (.new s.positionalSql s.argCount) := by
    have hc := List.mem_map_of_mem (f := i.classify) hm
    rw [hclassified] at hc
    obtain ⟨c, hmem, hc⟩ := List.mem_map.1 hc
    obtain ⟨rfl, hresolve, _⟩ := classify_eq_ok hc.symm
    obtain ⟨⟨sql, hkind, hsql⟩, hscalar⟩ := hs
    obtain ⟨q, hq, rfl⟩ := category_of_write hresolve hkind hsql
    apply prepared_of_drafted hplans hmem hq
    simpa [BoundStatement.isExpandable] using hscalar
  obtain ⟨m, hm, m', hm', s, s', hname, hs, hs', hdiffer⟩ := hclash
  obtain ⟨f, hf, hkey, hvalue⟩ := prepared hm hs
  obtain ⟨f', hf', hkey', hvalue'⟩ := prepared hm' hs'
  -- Both statements are in the one field of their key.
  have hfield : f = f' := by
    apply List.inj_on_of_nodup_map hkeys hf hf'
    rw [hkey, hkey', hname]
  subst hfield
  have hsame := Option.some.inj (hvalue.symm.trans hvalue')
  rcases hdiffer with hsql | hcount
  . exact hsql (congrArg SharedStatement.sql hsame)
  . exact hcount (congrArg SharedStatement.argCount hsame)

/-- An interface whose methods all have a category has no plan if and only if two write queries of one
name prepare statements that differ, and there are no other problems than such. An interface whose methods
have distinct names has a plan. -/
theorem plan_fails_iff_preparedClash (i : Interface) (options : Options) (hnames : i.WellNamed)
    (hclassify : ∀ m ∈ i.methods, ∃ c, i.classify m = .ok c)
    : ((∃ p, i.plan options = .error p) ↔ i.PreparedClash) ∧
      (∀ p, i.plan options = .error p → ∀ q ∈ p.flatten, q.IsPreparedCollision) ∧
      ((i.methods.map Method.name).Nodup → ∃ plan, i.plan options = .ok plan) ∧
      (Code.isIdent (i.implementationName options) = true →
        i.compile options = (i.plan options).mapError .problem) := by
  obtain ⟨classified, hall, hclassified⟩ := exists_classifyAll hclassify
  have horigin : ∀ c ∈ classified, ∃ m ∈ i.methods, i.classify m = .ok c := by
    intro c hc
    rw [← List.mem_map, hclassified]
    exact List.mem_map_of_mem hc
  obtain ⟨_, hproblems⟩ := (Draft.Consistent.empty i).draftMethods hnames horigin
  have hiff : (∃ p, i.plan options = .error p) ↔ i.PreparedClash := by
    constructor
    . rintro ⟨p, hp⟩
      obtain ⟨⟨r, hr⟩, _⟩ := collect_eq_error ((plan_eq_error_iff hall).1 hp)
      exact (hproblems r hr).1
    . intro hclash
      cases hcollect : collect ((i.draftMethods classified).run .empty).1 with
      | error p => exact ⟨p, (plan_eq_error_iff hall).2 hcollect⟩
      | ok plans => exact absurd (collect_eq_ok hcollect) (hclash.not_planned hnames hclassified)
  refine ⟨hiff, ?_, ?_, compile_of_isIdent⟩
  . intro p hp q hq
    obtain ⟨_, hsingle⟩ := collect_eq_error ((plan_eq_error_iff hall).1 hp)
    obtain ⟨r, hr, hq⟩ := hsingle q hq
    obtain ⟨name, first, second, rfl⟩ := (hproblems r hr).2
    cases List.mem_singleton.1 hq
    exact ⟨name, first, second, rfl⟩
  . intro hnodup
    cases hplan : i.plan options with
    | ok plan => exact ⟨plan, rfl⟩
    | error p =>
      obtain ⟨m, hm, m', hm', s, s', hname, hs, hs', hdiffer⟩ := hiff.1 ⟨p, hplan⟩
      cases List.inj_on_of_nodup_map hnodup hm hm' hname
      obtain ⟨⟨sql, hkind, hsql⟩, _⟩ := hs
      obtain ⟨⟨sql', hkind', hsql'⟩, _⟩ := hs'
      rw [hkind] at hkind'
      cases hkind'
      rw [hsql] at hsql'
      cases hsql'
      rcases hdiffer with h | h
      . contradiction
      . contradiction

def renamedTwice : Interface :=
  let text : Code.TypeExpr := .path false [.mk "String" .none]
  let user : Code.TypeExpr := .path false [.mk "User" .none]
  let name : Parameter := ⟨"name", text, false, none⟩
  { name := "Users"
    entities := [⟨"User", "user", [⟨"name", "name", false, none⟩], ["name"], none⟩]
    converters := []
    backing := none
    methods :=
      [⟨"rename", [name], none, .direct, .write "UPDATE user SET name = :name"⟩,
       ⟨"rename", [name], none, .future, .write "UPDATE user SET name = upper(:name)"⟩,
       ⟨"add", [⟨"user", user, false, none⟩], none, .direct, .insert [⟨"user", "User", false⟩] .abort⟩] }

theorem plan_fails_renamedTwice
    : renamedTwice.WellNamed ∧
      (∀ m ∈ renamedTwice.methods, ∃ c, renamedTwice.classify m = .ok c) ∧
      ∃ p, renamedTwice.plan .standard = .error p ∧ ∀ q ∈ p.flatten, q.IsPreparedCollision := by
  have hnames : renamedTwice.WellNamed := by
    intro e he
    apply plainName_of_isIdent
    revert e
    decide
  have hclassify : ∀ m ∈ renamedTwice.methods, ∃ c, renamedTwice.classify m = .ok c := by
    have hok : renamedTwice.methods.all (fun m => (renamedTwice.classify m).isOk) = true := by
      decide +kernel
    intro m hm
    have := List.all_eq_true.1 hok m hm
    cases hc : renamedTwice.classify m with
    | ok c => exact ⟨c, rfl⟩
    | error p =>
      rw [hc] at this
      cases this
  have hclash : renamedTwice.PreparedClash := by
    let m : Method := renamedTwice.methods[0]
    let m' : Method := renamedTwice.methods[1]
    have prepares (m : Method) (sql text : String) (hkind : m.kind = .write sql)
        (h : (match BoundStatement.resolve m sql with
          | .ok s => s.positionalSql == text && s.params.all fun p => !p.multiple
          | .error _ => false) = true) : ∃ s, m.Prepares s ∧ s.positionalSql = text := by
      split at h
      . next s hs =>
        simp only [Bool.and_eq_true, beq_iff_eq, List.all_eq_true, Bool.not_eq_true'] at h
        exact ⟨s, ⟨⟨sql, hkind, hs⟩, h.2⟩, h.1⟩
      . cases h
    obtain ⟨s, hs, htext⟩ := prepares m _ "UPDATE user SET name = ?" rfl (by decide +kernel)
    obtain ⟨s', hs', htext'⟩ := prepares m' _ "UPDATE user SET name = upper(?)" rfl (by decide +kernel)
    refine ⟨m, by simp [m], m', by simp [m'], s, s', rfl, hs, hs', Or.inl ?_⟩
    rw [htext, htext']
    decide
  obtain ⟨hfails, hcollides, _⟩ := plan_fails_iff_preparedClash renamedTwice .standard hnames hclassify
  obtain ⟨p, hp⟩ := hfails.2 hclash
  exact ⟨hnames, hclassify, p, hp, hcollides p hp⟩

end Interface

end DataAccess
