import DataAccess.Proofs.Compile.Drafted

/-!
This module contains how a plan wires its helpers up. Main statement: a plan has one field for each helper
that its methods need, in the order of the first use, and the bodies refer to these fields and to no
others.
-/

namespace DataAccess

open Code (Block Reference ownField)

def Classified.helpers (c : Classified) : List HelperRequest :=
  match c.category with
  | .write q => if q.statement.isExpandable then [] else [preparedRequest c.method q.statement]
  | .shortcut s => s.targets.map fun t => adapterRequest s.op t.entity t.table
  | _ => []

theorem Classified.helpers_eq (c : Classified) : c.helpers = c.needs.filterMap Need.request? := by
  have row (r : Row) : r.needs.filterMap Need.request? = [] := by
    cases r with
    | entity | scalar => rfl
  unfold helpers Classified.needs
  cases c.category with
  | read q => exact (row q.shape.row).symm
  | write q =>
    change _ = (q.needs c.method).filterMap Need.request?
    unfold WriteQuery.needs
    dsimp only
    split
    . rfl
    . rfl
  | shortcut s =>
    change _ = (s.targets.map _).filterMap Need.request?
    rw [List.filterMap_map]
    exact (congrFun List.filterMap_eq_map' s.targets).symm
  | transaction => rfl
  | raw q => exact (row q.shape.row).symm
  | delegate => rfl

section Gives

variable {d : Draft} {answers : List (Need × String)}

theorem helpers_of_gives (hhandle : ∀ f ∈ d.fields, f.name ≠ "__db")
    (h : ∀ a ∈ answers, d.Gives a.1 a.2)
    : (answers.flatMap fun (n, name) => n.references name).filterMap Reference.helper?
        = helperNames answers := by
  induction answers with
  | nil => rfl
  | cons a rest ih =>
    obtain ⟨n, name⟩ := a
    have hrest := ih fun a ha => h a (List.mem_cons_of_mem _ ha)
    have hgives := h (n, name) List.mem_cons_self
    unfold helperNames at hrest ⊢
    rw [List.flatMap_cons, List.filterMap_append, hrest, List.filterMap_cons]
    cases n with
    | adapter op e table =>
      have hname : name ≠ "__db" := hhandle _ hgives.has
      simp [Need.references, Need.request?, ownField, hname, Reference.helper?]
    | prepared m s =>
      have hname : name ≠ "__db" := hhandle _ hgives.has
      simp [Need.references, Need.request?, ownField, hname, Reference.helper?]
    | row => simp [Need.references, Need.request?, Reference.helper?]

theorem fields_of_gives (h : ∀ a ∈ answers, d.Gives a.1 a.2)
    : List.Forall₂ (fun r name => r.field name ∈ d.fields)
        ((answers.map Prod.fst).filterMap Need.request?) (helperNames answers) := by
  induction answers with
  | nil => exact .nil
  | cons a rest ih =>
    obtain ⟨n, name⟩ := a
    have hrest := ih fun a ha => h a (List.mem_cons_of_mem _ ha)
    have hgives := h (n, name) List.mem_cons_self
    unfold helperNames at hrest ⊢
    rw [List.map_cons, List.filterMap_cons, List.filterMap_cons]
    cases n with
    | adapter | prepared => exact .cons hgives.has hrest
    | row => exact hrest

end Gives

/-- A field of a plan is the helper that was wanted, as it would be on its own. -/
def Plan.Serves (plan : Plan) (name : String) (r : HelperRequest) : Prop :=
  r.field name ∈ plan.fields

/-- The body of a planned method uses the helpers that the method needs, each in its place. -/
structure Plan.Wires (plan : Plan) (c : Classified) (p : MethodPlan) : Prop where
  method : p.method = c.method
  serves : List.Forall₂ (fun r name => plan.Serves name r) c.helpers p.body.helpers
  /-- A write query without collections uses the prepared statement of its name. -/
  prepared : ∀ q, c.category = .write q → q.statement.isExpandable = false →
    ∃ f ∈ plan.fields, f.key = "prepared:" ++ c.method.name ∧ p.body.helpers = [f.name]
  expanded : ∀ q, c.category = .write q → q.statement.isExpandable = true → p.body.helpers = []

theorem Plan.wires_of_serves {plan : Plan} {c : Classified} {p : MethodPlan}
    (hmethod : p.method = c.method)
    (h : List.Forall₂ (fun r name => plan.Serves name r) c.helpers p.body.helpers)
    : plan.Wires c p := by
  refine ⟨hmethod, h, ?_, ?_⟩
  . intro q hq hscalar
    have hhelpers : c.helpers = [preparedRequest c.method q.statement] := by
      simp [Classified.helpers, hq, hscalar]
    rw [hhelpers] at h
    obtain ⟨name, rest, hserves, hrest, hnames⟩ := List.forall₂_cons_left_iff.1 h
    rw [List.forall₂_nil_left_iff.1 hrest] at hnames
    exact ⟨_, hserves, rfl, hnames⟩
  . intro q hq hexpandable
    have hhelpers : c.helpers = [] := by simp [Classified.helpers, hq, hexpandable]
    rw [hhelpers] at h
    exact List.forall₂_nil_left_iff.1 h

namespace Interface

variable {i : Interface} {options : Options} {plan : Plan}

theorem known_of_target {m : Method} {c : Classified} {s : Shortcut} {t : ResolvedTarget}
    (hc : i.classify m = .ok c) (hs : c.category = .shortcut s) (ht : t ∈ s.targets)
    : (Need.adapter s.op t.entity t.table).Known i := by
  obtain ⟨_, hresolve, _⟩ := classify_eq_ok hc
  have hknown := known_of_resolve hresolve
  rw [hs] at hknown
  exact ⟨(hknown t ht).entity, (hknown t ht).table⟩

theorem key_eq_iff (hnames : i.WellNamed) {op op' : ShortcutOp} {t t' : ResolvedTarget}
    (h : (Need.adapter op t.entity t.table).Known i)
    (h' : (Need.adapter op' t'.entity t'.table).Known i)
    : (adapterRequest op t.entity t.table).key = (adapterRequest op' t'.entity t'.table).key ↔
        op = op' ∧ t.entity.name = t'.entity.name := by
  constructor
  . intro hkey
    obtain ⟨hop, hentity, _⟩ := same_of_key hnames h h' hkey
    exact ⟨hop, congrArg Entity.name hentity⟩
  . rintro ⟨rfl, hname⟩
    have hentity : t.entity = t'.entity :=
      Option.some.inj (h.1.symm.trans ((congrArg _ hname).trans h'.1))
    have htable : t.table = t'.table := by
      rw [← Option.some_inj, ← h.2, ← h'.2, hentity]
    rw [hentity, htable]

theorem wires_of_uses {d : Draft} (hfields : d.fields = plan.fields)
    (hhandle : ∀ f ∈ d.fields, f.name ≠ "__db") {c : Classified} {p : MethodPlan}
    (hmethod : p.method = c.method) {own : List (Need × String)} (hgives : ∀ a ∈ own, d.Gives a.1 a.2)
    (huses : p.body.Uses c.needs own) : plan.Wires c p := by
  apply Plan.wires_of_serves hmethod
  have hnames : p.body.helpers = helperNames own := by
    unfold Block.helpers
    rw [huses.references]
    exact helpers_of_gives hhandle hgives
  rw [hnames, c.helpers_eq, ← huses.needs]
  unfold Plan.Serves
  rw [← hfields]
  exact fields_of_gives hgives

/-- A plan has one helper for each signature, and all of them are wired up. -/
theorem one_helper_per_signature (i : Interface) (options : Options) (hnames : i.WellNamed)
    (hplan : i.plan options = .ok plan)
    : (plan.fields.map (·.key)).Nodup ∧ (plan.fields.map (·.name)).Nodup ∧
      plan.fields.map (·.name) = (plan.methods.flatMap (·.body.helpers)).eraseDups ∧
      List.Forall₂ (fun m p => ∃ c, i.classify m = .ok c ∧ plan.Wires c p) i.methods plan.methods ∧
      (∀ m ∈ i.methods, ∀ m' ∈ i.methods, ∀ c c' s s' t t' name name',
        i.classify m = .ok c → c.category = .shortcut s → t ∈ s.targets →
        i.classify m' = .ok c' → c'.category = .shortcut s' → t' ∈ s'.targets →
        plan.Serves name (adapterRequest s.op t.entity t.table) →
        plan.Serves name' (adapterRequest s'.op t'.entity t'.table) →
        (name = name' ↔ s.op = s'.op ∧ t.entity.name = t'.entity.name)) := by
  obtain ⟨classified, answers, hclassified, hplanned, d, hfields, _, hanswered⟩ :=
    answered_of_plan hnames hplan
  have hkeys : (plan.fields.map (·.key)).Nodup := by
    rw [← hfields, hanswered.keys]
    exact nodup_eraseDups _
  have hnodup : (plan.fields.map (·.name)).Nodup := by
    rw [← hfields, hanswered.names]
    exact nodup_eraseDups _
  refine ⟨hkeys, hnodup, ?_, ?_, ?_⟩
  . rw [← hfields, hanswered.names, ← helpers_of_gives hanswered.handle hanswered.gives,
      ← hplanned.references, List.filterMap_flatMap]
    rfl
  . obtain ⟨hmethods, horigin⟩ := methods_of_classified hclassified
    rw [hmethods, List.forall₂_map_left_iff, List.forall₂_iff_zip]
    refine ⟨hplanned.each.length_eq, ?_⟩
    intro c p hzip
    obtain ⟨hmethod, own, hown, huses⟩ := List.forall₂_zip hplanned.each hzip
    have hgives : ∀ a ∈ own, d.Gives a.1 a.2 := fun a ha => hanswered.gives a (hown ha)
    exact ⟨c, horigin c (List.of_mem_zip hzip).1,
      wires_of_uses hfields hanswered.handle hmethod hgives huses⟩
  . intro m _ m' _ c c' s s' t t' name name' hc hs ht hc' hs' ht' hserves hserves'
    rw [← key_eq_iff hnames (known_of_target hc hs ht) (known_of_target hc' hs' ht')]
    constructor
    . rintro rfl
      have hsame := List.inj_on_of_nodup_map hnodup hserves hserves' rfl
      exact congrArg HelperField.key hsame
    . intro hkey
      have hsame := List.inj_on_of_nodup_map hkeys hserves hserves' hkey
      exact congrArg HelperField.name hsame

def insertsTwice : Interface :=
  let text : Code.TypeExpr := .path false [.mk "String" .none]
  let user : Code.TypeExpr := .path false [.mk "User" .none]
  let old : Parameter := ⟨"old", user, false, none⟩
  let new : Parameter := ⟨"new", user, false, none⟩
  { name := "Users"
    entities := [⟨"User", "user", [⟨"name", "name", false, none⟩], ["name"], none⟩]
    converters := []
    backing := none
    methods :=
      [⟨"add", [new], none, .direct, .insert [⟨"new", "User", false⟩] .abort⟩,
       ⟨"put", [new], none, .direct, .insert [⟨"new", "User", false⟩] .replace⟩,
       ⟨"add_both", [old, new], none, .direct,
        .insert [⟨"old", "User", false⟩, ⟨"new", "User", false⟩] .abort⟩,
       ⟨"rename", [⟨"name", text, false, none⟩], none, .direct, .write "UPDATE user SET name = :name"⟩,
       ⟨"forget", [⟨"names", .slice text, true, none⟩], none, .direct,
        .write "DELETE FROM user WHERE name IN (:names)"⟩] }

theorem one_helper_insertsTwice
    : insertsTwice.WellNamed ∧
      ∃ plan, insertsTwice.plan .standard = .ok plan ∧
        (plan.fields.map (·.name)).Nodup ∧
        plan.fields.map (·.name) = (plan.methods.flatMap (·.body.helpers)).eraseDups ∧
        plan.methods.map (·.body.helpers)
          = [["__insertion_adapter_of_user"], ["__insertion_adapter_of_user_1"],
             ["__insertion_adapter_of_user", "__insertion_adapter_of_user"],
             ["__prepared_stmt_of_rename"], []] := by
  have hnames : insertsTwice.WellNamed := by
    intro e he
    apply plainName_of_isIdent
    revert e
    decide
  have hhelpers : (insertsTwice.plan .standard).toOption.map
      (fun plan => plan.methods.map (·.body.helpers))
        = some [["__insertion_adapter_of_user"], ["__insertion_adapter_of_user_1"],
          ["__insertion_adapter_of_user", "__insertion_adapter_of_user"],
          ["__prepared_stmt_of_rename"], []] := by
    decide +kernel
  cases hplan : insertsTwice.plan .standard with
  | error =>
    rw [hplan] at hhelpers
    cases hhelpers
  | ok plan =>
    rw [hplan] at hhelpers
    obtain ⟨_, hdistinct, huse, _⟩ := one_helper_per_signature insertsTwice .standard hnames hplan
    exact ⟨hnames, plan, rfl, hdistinct, huse, Option.some.inj hhelpers⟩

end Interface

end DataAccess
