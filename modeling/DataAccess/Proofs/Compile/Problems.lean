import DataAccess.Proofs.Compile.Drafted
import DataAccess.Proofs.Compile.Planned

/-!
This module contains which problems an interface without a plan is given back. The problems of its methods
are all there, in the order of the methods, and none of them keeps another one from being found. Problems
that are found together are never fewer than two, however deep they lie. Main statement: an interface is
either told all problems of its methods, or has a plan with each of its methods.
-/

namespace DataAccess

namespace Problem

def Single : Problem → Prop
  | multiple _ => False
  | _ => True

theorem Single.flatten_eq {p : Problem} (h : p.Single) : p.flatten = [p] := by
  cases p with
  | multiple => exact h.elim
  | _ => rfl

mutual

/-- Wherever several problems are told as one, there are at least two of them. -/
def Branching : Problem → Prop
  | multiple problems => 2 ≤ problems.length ∧ AllBranching problems
  | _ => True

def AllBranching : List Problem → Prop
  | [] => True
  | p :: rest => p.Branching ∧ AllBranching rest

end

theorem Single.branching {p : Problem} (h : p.Single) : p.Branching := by
  cases p with
  | multiple => exact h.elim
  | _ => simp only [Branching]

theorem allBranching_of_forall {problems : List Problem} (h : ∀ p ∈ problems, p.Branching)
    : AllBranching problems := by
  induction problems with
  | nil => simp only [AllBranching]
  | cons p rest ih =>
    simp only [AllBranching]
    exact ⟨h p (by simp), ih fun q hq => h q (by simp [hq])⟩

theorem branching_of_combine {problems : List Problem} {p : Problem}
    (h : combine problems = some p) (hall : ∀ q ∈ problems, q.Branching) : p.Branching := by
  match problems with
  | [] => cases h
  | [_] =>
    cases h
    exact hall p (by simp)
  | q :: r :: rest =>
    cases h
    simp only [Branching]
    exact ⟨by simp, allBranching_of_forall hall⟩

theorem flattenAll_eq_flatMap (problems : List Problem)
    : flattenAll problems = problems.flatMap flatten := by
  induction problems with
  | nil => rfl
  | cons p rest ih => simp [flattenAll, ih]

theorem flatMap_flatten_of_single {problems : List Problem} (h : ∀ p ∈ problems, p.Single)
    : problems.flatMap flatten = problems := by
  induction problems with
  | nil => rfl
  | cons p rest ih =>
    rw [List.flatMap_cons, (h p (by simp)).flatten_eq, ih fun q hq => h q (by simp [hq])]
    rfl

end Problem

def problemsOf (results : List (Except Problem α)) : List Problem :=
  results.filterMap fun
    | .error p => some p
    | .ok _ => none

theorem mem_problemsOf {results : List (Except Problem α)} {p : Problem}
    : p ∈ problemsOf results ↔ .error p ∈ results :=
  mem_filterMap_error rfl (fun _ => rfl) (fun _ => rfl) p

theorem combine_of_collect {results : List (Except Problem α)} {p : Problem}
    (h : collect results = .error p) : Problem.combine (problemsOf results) = some p := by
  unfold collect at h
  dsimp only at h
  split at h
  . next q hq =>
    cases h
    exact hq
  . cases h

theorem collect_of_mem_error {results : List (Except Problem α)} {p : Problem}
    (h : .error p ∈ results) : ∃ q, collect results = .error q := by
  cases hcollect : collect results with
  | error q => exact ⟨q, rfl⟩
  | ok l =>
    rw [collect_eq_ok hcollect] at h
    simp at h

/-- A result that is no problem, or a single one. -/
def Plain (r : Except Problem α) : Prop :=
  ∀ p, r = .error p → p.Single

theorem plain_ok (a : α) : Plain (.ok a) :=
  fun _ h => by cases h

theorem plain_error {p : Problem} (h : p.Single) : Plain (.error p : Except Problem α) := by
  intro q hq
  cases hq
  exact h

theorem plain_bind {r : Except Problem α} {next : α → Except Problem β} (h : Plain r)
    (hnext : ∀ a, Plain (next a)) : Plain (r >>= next) := by
  cases r with
  | error p => exact plain_error (h p rfl)
  | ok a => exact hnext a

theorem plain_guard {p : Prop} [Decidable p] {q : Problem} {next : PUnit → Except Problem α}
    (hq : q.Single) (hnext : Plain (next ⟨⟩))
    : Plain (if p then throw q >>= next else next ⟨⟩) := by
  split
  . exact plain_error hq
  . exact hnext

theorem plain_mapM {l : List α} {f : α → Except Problem β} (h : ∀ a, Plain (f a))
    : Plain (l.mapM f) := by
  induction l with
  | nil => exact plain_ok []
  | cons a rest ih =>
    rw [List.mapM_cons]
    apply plain_bind (h a)
    intro b
    apply plain_bind ih
    intro more
    exact plain_ok _

namespace Interface

variable (i : Interface) (m : Method)

theorem plain_checkedEntity (e : Entity) : Plain (i.checkedEntity e) := by
  unfold checkedEntity
  split
  . exact plain_ok e
  . next p rest hp =>
    apply plain_error
    have hmem : p ∈ i.converterProblems e.name e.converters := by simp [hp]
    obtain ⟨c, _, rfl⟩ := List.mem_map.1 hmem
    trivial

theorem plain_requireEntity (name : String) : Plain (i.requireEntity m name) := by
  unfold requireEntity
  split
  . apply plain_checkedEntity
  . exact plain_error trivial

theorem plain_resolveRow (row : RowShape) : Plain (i.resolveRow m row) := by
  cases row with
  | entity name => exact plain_bind (i.plain_requireEntity m name) fun _ => plain_ok _
  | scalar type => exact plain_ok _

theorem plain_inferRow (type : Code.TypeExpr) : Plain (i.inferRow type) := by
  unfold inferRow
  split
  . exact plain_bind (i.plain_checkedEntity _) fun _ => plain_ok _
  . exact plain_ok _

theorem plain_resolveShape (declared : Option ResultShape) : Plain (i.resolveShape m declared) := by
  have rows (row : RowShape) (s : Row → Shape)
      : Plain (do return s (← i.resolveRow m row)) :=
    plain_bind (i.plain_resolveRow m row) fun _ => plain_ok _
  have inferred (type : Code.TypeExpr) (s : Row → Shape)
      : Plain (do return s (← i.inferRow type)) :=
    plain_bind (i.plain_inferRow type) fun _ => plain_ok _
  unfold resolveShape
  split
  . exact plain_error trivial
  . next value _ =>
    split
    . split
      . exact plain_error trivial
      . exact rows _ (⟨.list, ·, value⟩)
    . next row nullable =>
      split
      . exact plain_error trivial
      . exact rows _ (⟨if nullable then .optional else .single, ·, value⟩)
    . split
      . exact inferred _ (⟨.list, ·, value⟩)
      . exact inferred _ (⟨.optional, ·, value⟩)
      . exact inferred _ (⟨.single, ·, value⟩)

theorem plain_resolveStatement (sql : String) : Plain (BoundStatement.resolve m sql) := by
  unfold BoundStatement.resolve
  dsimp only
  split
  . exact plain_ok _
  . exact plain_error trivial

theorem plain_writeResult (kind : Sql.StatementKind) : Plain (writeResult m kind) := by
  unfold writeResult
  split
  . exact plain_ok _
  . split
    . exact plain_ok _
    . split
      . exact plain_ok _
      . exact plain_error trivial

theorem plain_resolveTarget (op : ShortcutOp) (t : Target) : Plain (i.resolveTarget m op t) := by
  unfold resolveTarget
  split
  . apply plain_bind (i.plain_requireEntity m t.entity)
    intro e
    refine plain_guard (by trivial) ?_
    dsimp only
    split
    . next full _ =>
      apply plain_bind (i.plain_requireEntity m full)
      intro whole
      apply plain_bind (plain_ok _)
      intro table
      exact plain_guard (by trivial) (plain_ok _)
    . apply plain_bind (plain_ok _)
      intro table
      exact plain_guard (by trivial) (plain_ok _)
  . exact plain_error trivial

theorem plain_shortcutResult (op : ShortcutOp) (targets : List ResolvedTarget)
    : Plain (shortcutResult m op targets) := by
  unfold shortcutResult
  split
  . exact plain_ok _
  . split
    all_goals
      split
      . first
        | exact plain_ok _
        | split
          . exact plain_ok _
          . split
            . exact plain_ok _
            . exact plain_error trivial
      . exact plain_error trivial

theorem plain_resolveShortcut (op : ShortcutOp) (targets : List Target)
    : Plain (i.resolveShortcut m op targets) := by
  unfold resolveShortcut
  refine plain_guard (by trivial) ?_
  apply plain_bind (plain_mapM (i.plain_resolveTarget m op))
  intro resolved
  exact plain_bind (plain_shortcutResult m op resolved) fun _ => plain_ok _

theorem plain_resolveDelegate (target : String) : Plain (i.resolveDelegate m target) := by
  unfold resolveDelegate
  split
  . refine plain_guard (by trivial) ?_
    refine plain_guard (by trivial) ?_
    dsimp only
    split
    . exact plain_error trivial
    . exact plain_guard (by trivial) (plain_ok _)
  . exact plain_error trivial

theorem plain_resolve : Plain (i.resolve m) := by
  unfold resolve
  split
  . next sql shape tables inTransaction _ =>
    apply plain_bind (plain_resolveStatement m sql)
    intro s
    refine plain_guard (by trivial) ?_
    exact plain_bind (i.plain_resolveShape m shape) fun _ => plain_ok _
  . next sql _ =>
    apply plain_bind (plain_resolveStatement m sql)
    intro s
    refine plain_guard (by trivial) ?_
    exact plain_bind (plain_writeResult m _) fun _ => plain_ok _
  . apply plain_resolveShortcut
  . apply plain_resolveShortcut
  . apply plain_resolveShortcut
  . apply plain_resolveShortcut
  . exact plain_ok _
  . next param shape tables _ =>
    unfold resolveRaw
    refine plain_guard (by trivial) ?_
    exact plain_bind (i.plain_resolveShape m shape) fun _ => plain_ok _
  . apply plain_resolveDelegate

end Interface

namespace Drafting

def FindsSingle (act : Drafting α) : Prop :=
  ∀ d : Draft, Plain (act.run.run d).1

theorem findsSingle_pure (a : α) : FindsSingle (pure a) :=
  fun _ => plain_ok a

theorem findsSingle_modify (f : Draft → Draft) : FindsSingle (modify f : Drafting PUnit) :=
  fun _ => plain_ok _

theorem findsSingle_bind {act : Drafting α} {next : α → Drafting β} (h : FindsSingle act)
    (hnext : ∀ a, FindsSingle (next a)) : FindsSingle (act >>= next) := by
  intro d
  change Plain (ExceptT.bindCont next (act.run.run d).1 (act.run.run d).2).1
  cases hr : (act.run.run d).1 with
  | error p => exact plain_error (h d p hr)
  | ok a => exact hnext a _

theorem findsSingle_mapM {act : α → Drafting β} (h : ∀ a, FindsSingle (act a)) (l : List α)
    : FindsSingle (l.mapM act) := by
  induction l with
  | nil => exact findsSingle_pure []
  | cons a rest ih =>
    rw [List.mapM_cons]
    apply findsSingle_bind (h a)
    intro b
    apply findsSingle_bind ih
    intro more
    exact findsSingle_pure _

theorem findsSingle_request (r : HelperRequest) : FindsSingle (request r) := by
  intro d
  cases hreq : d.request r with
  | error p =>
    rw [run_request_error hreq]
    obtain ⟨f, _, _, _, rfl⟩ := Draft.request_eq_error hreq
    exact plain_error trivial
  | ok found =>
    rw [run_request hreq]
    exact plain_ok _

theorem findsSingle_requestRow (adapter : RowAdapter) (converters : List Code.Path)
    : FindsSingle (requestRow adapter converters) := by
  intro d
  unfold requestRow
  rw [run_get_bind]
  cases hreq : d.requestRow adapter converters with
  | ok found => exact plain_ok _
  | error p =>
    apply plain_error
    unfold Draft.requestRow at hreq
    split at hreq
    . split at hreq
      . cases hreq
      . cases hreq
        trivial
    . cases hreq

theorem findsSingle_deliver (w : Work) (m : Method) (category : String)
    : FindsSingle (MonadExcept.ofExcept (w.deliver m category) : Drafting Code.Block) := by
  intro d
  unfold Work.deliver
  cases m.delivery with
  | stream => exact plain_error trivial
  | direct | future | suspend => exact plain_ok _

theorem findsSingle_readingBody (delivery : Delivery) (s : ReadStatement) (shape : Shape)
    (tables : List String) (inTransaction : Bool)
    : FindsSingle (Reading.body delivery s shape tables inTransaction) := by
  unfold Reading.body
  apply findsSingle_bind
  . unfold rowRead
    split
    . apply findsSingle_bind
      . apply findsSingle_requestRow
      . intro
        apply findsSingle_pure
    . apply findsSingle_pure
  . intro
    apply findsSingle_pure

theorem findsSingle_lower (interface : String) (c : Classified) : FindsSingle (c.lower interface) := by
  unfold Classified.lower
  split
  . apply findsSingle_readingBody
  . apply findsSingle_bind
    . unfold WriteQuery.source
      split
      . apply findsSingle_pure
      . apply findsSingle_bind
        . apply findsSingle_request
        . intro
          apply findsSingle_pure
    . intro
      apply findsSingle_deliver
  . apply findsSingle_bind
    . apply findsSingle_mapM
      intro t
      unfold adapterField
      apply findsSingle_bind
      . apply findsSingle_modify
      . intro
        apply findsSingle_request
    . intro
      apply findsSingle_deliver
  . apply findsSingle_deliver
  . unfold RawQuery.lower
    split
    . apply findsSingle_bind
      . apply findsSingle_modify
      . intro
        apply findsSingle_readingBody
    . apply findsSingle_readingBody
  . apply findsSingle_pure

theorem findsSingle_draftMethod (i : Interface) (c : Classified)
    : FindsSingle (i.draftMethod c) := by
  unfold Interface.draftMethod
  apply findsSingle_bind
  . apply findsSingle_modify
  . intro
    apply findsSingle_bind
    . apply findsSingle_lower
    . intro
      apply findsSingle_pure

end Drafting

def MethodKind.tag : MethodKind → String
  | read _ _ _ _ => "read query"
  | write _ => "write query"
  | insert _ _ => "insert"
  | delete _ => "delete"
  | update _ _ => "update"
  | upsert _ => "upsert"
  | transaction _ => "transaction"
  | raw _ _ _ => "raw query"
  | delegate _ => "delegate"

namespace Interface

variable {i : Interface} {m : Method}

def converterProblemsOf (i : Interface) (m : Method) : List Problem :=
  m.params.filterMap fun p =>
    match p.converter with
    | some c => if i.declares c then none else some (.unknownConverter m.name c.compact)
    | none => none

/-- What is wrong with a method of a category because of its delivery: that the category has no such
delivery, or else each borrowed parameter that would be moved off the caller's thread. -/
def problemsOfDelivery (m : Method) (c : Category) : List Problem :=
  if c.supports m.delivery then
    match c, m.delivery with
    | _, .direct => []
    | .shortcut _, _ | .transaction _, _ =>
      m.params.filterMap fun p =>
        if p.isBorrowed then some (.borrowedAsyncParameter m.name p.name) else none
    | _, _ => []
  else [.unsupportedDelivery m.name c.tag m.delivery]

def methodProblems (i : Interface) (m : Method) : List Problem :=
  i.converterProblemsOf m ++
    match i.resolve m with
    | .error p => [p]
    | .ok c => problemsOfDelivery m c

theorem converterProblems_eq (i : Interface) (m : Method)
    : i.converterProblems m.name (m.params.filterMap (·.converter)) = i.converterProblemsOf m := by
  unfold converterProblems converterProblemsOf
  induction m.params with
  | nil => rfl
  | cons p rest ih =>
    cases hc : p.converter with
    | none => simpa [hc] using ih
    | some c =>
      cases hdeclared : i.declares c with
      | true => simpa [hc, hdeclared] using ih
      | false => simpa [hc, hdeclared] using ih

theorem deliveryProblems_eq (m : Method) (c : Category)
    : deliveryProblems m c = problemsOfDelivery m c := by
  have borrowed : (m.params.filter Parameter.isBorrowed).map
        (fun p => Problem.borrowedAsyncParameter m.name p.name) =
      m.params.filterMap fun p =>
        if p.isBorrowed then some (Problem.borrowedAsyncParameter m.name p.name) else none := by
    induction m.params with
    | nil => rfl
    | cons p rest ih =>
      cases hp : p.isBorrowed with
      | true => simpa [hp] using ih
      | false => simpa [hp] using ih
  unfold deliveryProblems problemsOfDelivery
  cases c.supports m.delivery with
  | false => rfl
  | true =>
    rw [borrowed]
    cases m.delivery with
    | direct => rfl
    | suspend | future | stream =>
      cases c with
      | read | write | shortcut | transaction | raw | delegate => rfl

theorem single_of_mem_methodProblems {p : Problem} (h : p ∈ i.methodProblems m) : p.Single := by
  unfold methodProblems at h
  rcases List.mem_append.1 h with h | h
  . rw [← converterProblems_eq] at h
    obtain ⟨c, _, rfl⟩ := List.mem_map.1 h
    trivial
  . cases hresolve : i.resolve m with
    | error q =>
      rw [hresolve] at h
      cases List.mem_singleton.1 h
      exact i.plain_resolve m p hresolve
    | ok c =>
      rw [hresolve] at h
      dsimp only at h
      rw [← deliveryProblems_eq] at h
      unfold deliveryProblems at h
      split at h
      . cases List.mem_singleton.1 h
        trivial
      . split at h
        . obtain ⟨q, _, rfl⟩ := List.mem_map.1 h
          trivial
        . cases h

/-- A method is refused with all of its problems, and only if it has some. -/
theorem combine_methodProblems (i : Interface) (m : Method)
    : Problem.combine (i.methodProblems m) =
        match i.classify m with
        | .error p => some p
        | .ok _ => none := by
  unfold classify methodProblems
  rw [converterProblems_eq]
  cases i.resolve m with
  | error p =>
    dsimp only
    cases hcombine : Problem.combine (i.converterProblemsOf m ++ [p]) with
    | some q => rfl
    | none => simp [Problem.combine_eq_none_iff] at hcombine
  | ok c =>
    dsimp only
    rw [deliveryProblems_eq]
    cases Problem.combine (i.converterProblemsOf m ++ problemsOfDelivery m c) with
    | some q => rfl
    | none => rfl

theorem methodProblems_eq_nil {c : Classified} (h : i.classify m = .ok c)
    : i.methodProblems m = [] := by
  have hcombine := i.combine_methodProblems m
  rw [h] at hcombine
  exact (Problem.combine_eq_none_iff _).1 hcombine

theorem flatten_of_classify {p : Problem} (h : i.classify m = .error p)
    : p.flatten = i.methodProblems m := by
  have hcombine := i.combine_methodProblems m
  rw [h] at hcombine
  rw [Problem.flatten_of_combine hcombine, Problem.flattenAll_eq_flatMap]
  exact Problem.flatMap_flatten_of_single fun q hq => single_of_mem_methodProblems hq

theorem branching_of_classify {p : Problem} (h : i.classify m = .error p) : p.Branching := by
  have hcombine := i.combine_methodProblems m
  rw [h] at hcombine
  exact Problem.branching_of_combine hcombine fun q hq => (single_of_mem_methodProblems hq).branching

theorem flatMap_problemsOf_classify (i : Interface) (methods : List Method)
    : (problemsOf (methods.map i.classify)).flatMap Problem.flatten =
        methods.flatMap i.methodProblems := by
  induction methods with
  | nil => rfl
  | cons m rest ih =>
    rw [List.flatMap_cons, ← ih]
    cases hc : i.classify m with
    | error p =>
      rw [← flatten_of_classify hc]
      simp [problemsOf, hc]
    | ok c =>
      rw [methodProblems_eq_nil hc]
      simp [problemsOf, hc]

theorem classifyAll_of_error {p : Problem} (hm : m ∈ i.methods) (h : i.classify m = .error p)
    : ∃ q, i.classifyAll = .error q := by
  apply collect_of_mem_error (p := p)
  rw [← h]
  exact List.mem_map_of_mem hm

theorem flatten_of_classifyAll {p : Problem} (h : i.classifyAll = .error p)
    : p.flatten = i.methods.flatMap i.methodProblems := by
  rw [Problem.flatten_of_combine (combine_of_collect h), Problem.flattenAll_eq_flatMap]
  exact i.flatMap_problemsOf_classify i.methods

theorem branching_of_classifyAll {p : Problem} (h : i.classifyAll = .error p) : p.Branching := by
  apply Problem.branching_of_combine (combine_of_collect h)
  intro q hq
  obtain ⟨m, _, hm⟩ := List.mem_map.1 (mem_problemsOf.1 hq)
  exact branching_of_classify hm

theorem plain_of_mem_draftMethods {methods : List Classified} {d : Draft}
    {r : Except Problem MethodPlan} (h : r ∈ ((i.draftMethods methods).run d).1) : Plain r := by
  induction methods generalizing d with
  | nil => cases h
  | cons c rest ih =>
    rcases List.mem_cons.1 h with rfl | h
    . exact Drafting.findsSingle_draftMethod i c d
    . exact ih h

theorem tag_of_resolve {c : Category} (h : i.resolve m = .ok c) : c.tag = m.kind.tag := by
  have shortcut {op : ShortcutOp} {targets : List Target}
      (h : i.resolveShortcut m op targets = .ok c) : c.tag = op.tag := by
    unfold resolveShortcut at h
    obtain ⟨_, h⟩ := ok_of_guard h
    obtain ⟨resolved, _, h⟩ := exists_of_bind_eq_ok h
    obtain ⟨result, _, h⟩ := exists_of_bind_eq_ok h
    cases h
    rfl
  unfold resolve at h
  cases hkind : m.kind with
  | read sql shape tables inTransaction =>
    rw [hkind] at h
    obtain ⟨_, _, h⟩ := exists_of_bind_eq_ok h
    obtain ⟨_, h⟩ := ok_of_guard h
    obtain ⟨_, _, h⟩ := exists_of_bind_eq_ok h
    cases h
    rfl
  | write sql =>
    rw [hkind] at h
    obtain ⟨_, _, h⟩ := exists_of_bind_eq_ok h
    obtain ⟨_, h⟩ := ok_of_guard h
    obtain ⟨_, _, h⟩ := exists_of_bind_eq_ok h
    cases h
    rfl
  | insert | delete | update | upsert =>
    rw [hkind] at h
    exact shortcut h
  | transaction body =>
    rw [hkind] at h
    cases h
    rfl
  | raw param shape tables =>
    rw [hkind] at h
    dsimp only at h
    unfold resolveRaw at h
    obtain ⟨_, h⟩ := ok_of_guard h
    obtain ⟨_, _, h⟩ := exists_of_bind_eq_ok h
    cases h
    rfl
  | delegate target =>
    rw [hkind] at h
    dsimp only at h
    unfold resolveDelegate at h
    split at h
    . obtain ⟨_, h⟩ := ok_of_guard h
      obtain ⟨_, h⟩ := ok_of_guard h
      dsimp only at h
      split at h
      . cases h
      . obtain ⟨_, h⟩ := ok_of_guard h
        cases h
        rfl
    . cases h

theorem methods_of_draftMethods {methods : List Classified} {plans : List MethodPlan} {d : Draft}
    (h : ((i.draftMethods methods).run d).1 = plans.map .ok)
    : plans.map (fun p => (p.method, p.category)) =
        methods.map fun c => (c.method, c.category.tag) := by
  induction methods generalizing d plans with
  | nil =>
    cases plans with
    | nil => rfl
    | cons => cases h
  | cons c rest ih =>
    cases plans with
    | nil => cases h
    | cons p plans =>
      obtain ⟨hfirst, hrest⟩ := List.cons.inj h
      have hdraft : (i.draftMethod c).run.run d = (.ok p, ((i.draftMethod c).run.run d).2) :=
        Prod.ext hfirst rfl
      unfold draftMethod at hdraft
      obtain ⟨_, _, _, hdraft⟩ := Drafting.bind_eq_ok hdraft
      obtain ⟨body, _, _, hplan⟩ := Drafting.bind_eq_ok hdraft
      cases hplan
      exact congrArg ((c.method, c.category.tag) :: ·) (ih hrest)

theorem methods_of_plan {options : Options} {plan : Plan} (h : i.plan options = .ok plan)
    : plan.methods.map (fun p => (p.method, p.category)) = i.methods.map fun m => (m, m.kind.tag) := by
  obtain ⟨classified, hdrafts⟩ := drafts_of_plan h
  obtain ⟨hmethods, horigin⟩ := methods_of_classified hdrafts.categories
  rw [methods_of_draftMethods hdrafts.methods, hmethods, List.map_map]
  apply List.map_congr_left
  intro c hc
  obtain ⟨_, hresolve, _⟩ := classify_eq_ok (horigin c hc)
  rw [tag_of_resolve hresolve]
  rfl

/-- A method is refused for all of its problems. If methods are refused, then no method is drafted, and the
interface has all problems of its methods, in order. If no method is refused, then an interface without a
plan has the problem of each method that could not be drafted, and a plan has exactly the methods of the
interface, each under the category of its kind. -/
theorem plan_tells_all_problems (i : Interface) (options : Options)
    : (∀ m,
        match i.classify m with
        | .error p => p.flatten = i.methodProblems m ∧ p.Branching ∧ i.methodProblems m ≠ [] ∧
            ∀ q ∈ i.methodProblems m, q.Single
        | .ok _ => i.methodProblems m = []) ∧
      match i.classifyAll with
      | .error p =>
        (∃ m ∈ i.methods, i.methodProblems m ≠ []) ∧
          i.plan options = .error p ∧ i.compile options = .error (.problem p) ∧
          p.flatten = i.methods.flatMap i.methodProblems ∧ p.Branching
      | .ok classified =>
        (∀ m ∈ i.methods, i.methodProblems m = []) ∧
          match i.plan options with
          | .error p =>
            p.flatten = problemsOf ((i.draftMethods classified).run .empty).1 ∧ p.Branching
          | .ok plan =>
            plan.methods.map (fun p => (p.method, p.category)) =
              i.methods.map fun m => (m, m.kind.tag) := by
  have refused {m : Method} {p : Problem} (h : i.classify m = .error p) : i.methodProblems m ≠ [] := by
    have hcombine := i.combine_methodProblems m
    rw [h] at hcombine
    intro hnil
    rw [(Problem.combine_eq_none_iff _).2 hnil] at hcombine
    cases hcombine
  constructor
  . intro m
    cases hc : i.classify m with
    | error p =>
      exact ⟨flatten_of_classify hc, branching_of_classify hc, refused hc,
        fun q hq => single_of_mem_methodProblems hq⟩
    | ok c => exact methodProblems_eq_nil hc
  . cases hall : i.classifyAll with
    | error p =>
      obtain ⟨⟨r, hr⟩, _⟩ := collect_eq_error hall
      obtain ⟨m, hm, herror⟩ := List.mem_map.1 hr
      refine ⟨⟨m, hm, refused herror⟩, ?_, ?_, flatten_of_classifyAll hall,
        branching_of_classifyAll hall⟩
      . unfold plan
        rw [hall]
        rfl
      . unfold compile
        rw [hall]
    | ok classified =>
      constructor
      . intro m hm
        cases hc : i.classify m with
        | ok c => exact methodProblems_eq_nil hc
        | error p =>
          obtain ⟨q, hq⟩ := classifyAll_of_error hm hc
          rw [hall] at hq
          cases hq
      . cases hplan : i.plan options with
        | ok plan => exact methods_of_plan hplan
        | error p =>
          have hcombine := combine_of_collect ((plan_eq_error_iff hall).1 hplan)
          have hsingle : ∀ q ∈ problemsOf ((i.draftMethods classified).run .empty).1, q.Single := by
            intro q hq
            exact plain_of_mem_draftMethods (mem_problemsOf.1 hq) q rfl
          constructor
          . rw [Problem.flatten_of_combine hcombine, Problem.flattenAll_eq_flatMap]
            exact Problem.flatMap_flatten_of_single hsingle
          . exact Problem.branching_of_combine hcombine fun q hq => (hsingle q hq).branching

def misdeclared : Interface :=
  let text : Code.TypeExpr := .path false [.mk "String" .none]
  let user : Code.TypeExpr := .path false [.mk "User" .none]
  { name := "Users"
    entities := [⟨"User", "user", [⟨"name", "name", false, none⟩], ["name"], none⟩]
    converters := []
    backing := none
    methods :=
      [⟨"find", [⟨"name", text, false, some ⟨false, [.mk "Trimmed" .none]⟩⟩], some user, .direct,
        .read "SELECT * FROM user WHERE name = :who" none [] false⟩,
       ⟨"rename", [⟨"name", text, false, none⟩], none, .direct, .write "UPDATE user SET name = :name"⟩,
       ⟨"add", [⟨"user", .reference none false user, false, none⟩], none, .future,
        .insert [⟨"user", "User", false⟩] .abort⟩] }

example
    : (match misdeclared.plan .standard with
        | .error p => p.flatten.map Problem.message
        | .ok _ => []) =
      ["converter \x60Trimmed\x60 used by \x60find\x60 is not declared",
       "method \x60find\x60: placeholder \x60:who\x60 has no matching parameter",
       "method \x60add\x60: parameter \x60user\x60 must be owned to run asynchronously"] := by
  decide +kernel

end Interface

end DataAccess
