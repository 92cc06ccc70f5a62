import DataAccess.Proofs.Compile.Written
import DataAccess.Proofs.Shortcut.Steps

/-!
This module contains the bodies of shortcuts as they are delivered. Main statements: work does what its steps do
and gives it back, if none of the arguments is hidden by a variable of the code; otherwise it has no meaning; and
every delivery hands over the same work, in a transaction.
-/

namespace DataAccess

open Code (Block Expr Stmt TypeExpr)

namespace Shortcut

/-- What a shortcut gives back is what its method returns. Row ids are given back of a single target, by an
operation that inserts. -/
inductive Suits (m : Method) : Shortcut → Prop where
  | unit {op : ShortcutOp} {targets : List ResolvedTarget} (hreturns : m.returns = none) :
    Suits m ⟨op, targets, .unit⟩
  | count {op : ShortcutOp} {targets : List ResolvedTarget} {type : TypeExpr} (hop : op.changes = true)
      (hreturns : m.returns = some type) (htype : type.isInteger = true) :
    Suits m ⟨op, targets, .count type⟩
  | rowId {op : ShortcutOp} {t : ResolvedTarget} {type : TypeExpr} (hop : op.changes = false)
      (hreturns : m.returns = some type) (htype : type.isRowId = true) (hone : t.many = false) :
    Suits m ⟨op, [t], .rowId⟩
  | rowIds {op : ShortcutOp} {t : ResolvedTarget} {type item : TypeExpr} (hop : op.changes = false)
      (hreturns : m.returns = some type) (hlist : type.genericArg "Vec" = some item)
      (hitem : item.isRowId = true) (hmany : t.many = true) :
    Suits m ⟨op, [t], .rowIds⟩

def takenAlong (delivery : Delivery) : List String :=
  if delivery = .direct then [] else ["_signal", "__this"]

def hidden (s : Shortcut) (delivery : Delivery) : List String :=
  match s.result with
  | .count _ => "_total" :: takenAlong delivery
  | .unit | .rowId | .rowIds => takenAlong delivery

namespace Surroundings

variable {Ent : String → Type} {V : Type}

def workScope (w : Surroundings σ Ent) (delivery : Delivery) : Scope Ent Unit :=
  if delivery = .direct then w.scope
  else (w.scope.declare "__this" .implementation).declare "_signal" .signal

theorem get?_workScope (w : Surroundings σ Ent) (delivery : Delivery) (x : String)
    : (w.workScope delivery).get? x = if x ∈ takenAlong delivery then none else w.argument x := by
  have hown : w.scope.get? x = w.argument x := by
    unfold Scope.get? scope
    cases w.argument x with
    | none | some => rfl
  unfold workScope takenAlong
  split
  . rw [if_neg List.not_mem_nil, hown]
  . rw [Scope.get?_declare, Scope.get?_declare, hown]
    by_cases hsignal : x = "_signal"
    . simp [hsignal, Variable.argument?]
    . by_cases hthis : x = "__this"
      . simp [hthis, Variable.argument?]
      . simp [hsignal, hthis]

theorem sees_workScope (w : Surroundings σ Ent) (delivery : Delivery) : (w.workScope delivery).Sees delivery := by
  intro hasync
  unfold workScope
  rw [if_neg hasync, Scope.isImplementation_declare_of_ne _ (by decide)]
  rfl

variable {w : Surroundings σ Ent} {s : Shortcut} {m : Method} {delivery : Delivery} {fields : List String}
  {steps : List (Step Ent)}

theorem block_of_exec {scope : Scope Ent Unit} {statements : List Stmt} {e : Expr} {course : Course σ Unit}
    (h : w.exec scope statements e = some course)
    : w.block scope (.mk statements (some e)) = some ⟨course.type, course.run ()⟩ := by
  rw [block, h]
  rfl

def counting (scope : Scope Ent Unit) : Scope Ent (Unit × Nat) :=
  (scope.behind Nat).declare "_total" (.value .count Prod.snd)

theorem exec_counting {scope : Scope Ent Unit} {rest : List Stmt} {e : Expr} {course : Course σ (Unit × Nat)}
    (h : w.exec (counting scope) rest e = some course)
    : w.exec scope (.bind true "_total" (some .count) (.number 0 false) :: rest) e =
        some (course.after (pure 0 : Operation σ Nat)) := by
  have hzero : w.eval scope (.number 0 false) = some ⟨.count, (pure 0 : Operation σ Nat)⟩ := by
    rw [eval]
    rfl
  exact exec_bind hzero h

theorem get?_counting (w : Surroundings σ Ent) (delivery : Delivery) (x : String)
    : (counting (w.workScope delivery)).get? x =
        if x ∈ "_total" :: takenAlong delivery then none else w.argument x := by
  rw [counting, Scope.get?_declare, Scope.get?_behind, get?_workScope]
  by_cases hx : x = "_total"
  . simp [hx, Variable.argument?]
  . simp [hx]

theorem exists_counts {pairs : List (ResolvedTarget × String)} {op : ShortcutOp} (hop : op.changes = true)
    (h : Serve w op pairs steps)
    : ∃ counts, List.Forall₂ (fun s count => (s.write w.engine).count? = some count) steps counts := by
  induction h with
  | nil => exact ⟨[], .nil⟩
  | @cons p step rest steps hfirst _ ih =>
    obtain ⟨counts, hcounts⟩ := ih
    obtain ⟨count, hcount⟩ := hfirst.exists_count hop w.engine
    exact ⟨count :: counts, .cons hcount hcounts⟩

theorem reaches {scope : Scope Ent V} {hidden : List String} {targets : List ResolvedTarget}
    (hget : ∀ x, scope.get? x = if x ∈ hidden then none else w.argument x)
    (happarent : ∀ t ∈ targets, t.param.name ∉ hidden) (fields : List String)
    : scope.Reaches w (targets.zip fields) :=
  fun p hp => (hget _).trans (if_neg (happarent p.1 (List.of_mem_zip hp).1))

theorem block_returning (delivery : Delivery) {op : ShortcutOp} {t : ResolvedTarget} (hop : op.changes = false)
    (hlength : fields.length = 1) (hserve : Serve w op ([t].zip fields) steps)
    (happarent : t.param.name ∉ takenAlong delivery)
    : ∃ step identified, steps = [step] ∧ step.passed.isMany = t.many ∧
        step.identify w.engine = some identified ∧
        identified.type = (if t.many then .rowIds else .rowId) ∧
        w.block (w.workScope delivery)
          (.mk (([t].zip fields).take 1 |>.map fun (t, field) =>
              .bind false "_result" none (callOn (self delivery) t field (returning op t.many)))
            (some (.ok (.var "_result")))) = some identified := by
  obtain ⟨field, rfl⟩ := List.length_eq_one_iff.1 hlength
  obtain ⟨step, _, hserves, hnone, rfl⟩ := List.forall₂_cons_left_iff.1 hserve
  cases hnone
  obtain ⟨identified, hidentify, htype⟩ := hserves.exists_identify hop w.engine
  rw [hserves.many] at htype
  have hget := (w.get?_workScope delivery _).trans (if_neg happarent)
  exact ⟨step, identified, rfl, hserves.many, hidentify, htype,
    block_of_exec (exec_returning (w.sees_workScope delivery) hget hserves hidentify)⟩

/-- A body does its steps if none of the arguments is hidden. -/
theorem block_run (hsuits : Suits m s) (hlength : fields.length = s.targets.length)
    (hserve : Serve w s.op (s.targets.zip fields) steps)
    (happarent : ∀ t ∈ s.targets, t.param.name ∉ s.hidden delivery)
    : ∃ work, w.block (w.workScope delivery) (s.run (self delivery) fields) = some work ∧
        Does w.engine steps s.result work := by
  have hsees := w.sees_workScope delivery
  cases hsuits with
  | unit =>
    have hreaches := reaches (w.get?_workScope delivery) happarent fields
    exact ⟨_, block_of_exec (exec_runs hsees hreaches hserve), .unit⟩
  | count hop _ htype =>
    have hreaches := reaches (w.get?_counting delivery) happarent fields
    obtain ⟨target, htarget⟩ := Code.TypeExpr.exists_intType? htype
    obtain ⟨counts, hcounts⟩ := exists_counts hop hserve
    have hadds := exec_adds ((hsees.behind Nat).declare (by decide) _) hreaches hserve hcounts htarget
      (Scope.count?_declare ..)
    refine ⟨_, block_of_exec (exec_counting hadds), ?_⟩
    unfold Course.after
    simp only [pure_bind, Nat.zero_add]
    exact .count htarget hcounts
  | rowId hop _ _ hone =>
    obtain ⟨step, ⟨_, run⟩, hsteps, hmany, hidentify, htype, hblock⟩ :=
      block_returning delivery hop hlength hserve (happarent _ List.mem_cons_self)
    rw [hone] at hmany htype
    cases htype
    exact ⟨_, hblock, .rowId hsteps hmany hidentify⟩
  | rowIds hop _ _ _ hall =>
    obtain ⟨step, ⟨_, run⟩, hsteps, hmany, hidentify, htype, hblock⟩ :=
      block_returning delivery hop hlength hserve (happarent _ List.mem_cons_self)
    rw [hall] at hmany htype
    cases htype
    exact ⟨_, hblock, .rowIds hsteps hmany hidentify⟩

theorem not_mem_of_isSome {scope : Scope Ent V} {hidden : List String} {x : String}
    (hget : ∀ x, scope.get? x = if x ∈ hidden then none else w.argument x) (h : (scope.get? x).isSome)
    : x ∉ hidden := by
  intro hx
  rw [hget, if_pos hx] at h
  cases h

theorem exec_of_block {scope : Scope Ent Unit} {statements : List Stmt} {e : Expr} {work : Deed σ}
    (h : w.block scope (.mk statements (some e)) = some work)
    : ∃ course, w.exec scope statements e = some course := by
  obtain ⟨course, hcourse, _⟩ := Option.bind_eq_some_iff.1 h
  exact ⟨course, hcourse⟩

theorem exec_of_bind {scope : Scope Ent Unit} {mutable : Bool} {x : String} {type : Option Code.CodeType}
    {code e : Expr} {rest : List Stmt} {course : Course σ Unit}
    (h : w.exec scope (.bind mutable x type code :: rest) e = some course)
    : ∃ first, w.eval scope code = some first ∧ ∃ course',
        w.exec ((scope.behind _).declare x (.value first.type Prod.snd)) rest e = some course' := by
  rw [exec] at h
  obtain ⟨first, hfirst, h⟩ := Option.bind_eq_some_iff.1 h
  obtain ⟨course', hrest, _⟩ := Option.bind_eq_some_iff.1 h
  exact ⟨first, hfirst, course', hrest⟩

/-- A body has no meaning if one of the arguments is hidden. -/
theorem apparent_of_block (hsuits : Suits m s) (hlength : fields.length = s.targets.length) {work : Deed σ}
    (h : w.block (w.workScope delivery) (s.run (self delivery) fields) = some work)
    : ∀ t ∈ s.targets, t.param.name ∉ s.hidden delivery := by
  have hfield {t : ResolvedTarget} (ht : t ∈ s.targets) : ∃ field, (t, field) ∈ s.targets.zip fields := by
    rw [← List.map_fst_zip (Nat.le_of_eq hlength.symm)] at ht
    obtain ⟨⟨_, field⟩, hmem, rfl⟩ := List.mem_map.1 ht
    exact ⟨field, hmem⟩
  have single {op : ShortcutOp} {t : ResolvedTarget} {field : String} {rest : List Stmt} {e : Expr}
      (h : w.block (w.workScope delivery)
        (.mk (.bind false "_result" none (callOn (self delivery) t field (returning op t.many)) :: rest)
          (some e)) = some work) : t.param.name ∉ takenAlong delivery := by
    obtain ⟨_, hexec⟩ := exec_of_block h
    obtain ⟨_, hcall, _⟩ := exec_of_bind hexec
    exact not_mem_of_isSome (w.get?_workScope delivery) (isSome_get?_of_eval hcall)
  intro t ht
  obtain ⟨field, hpair⟩ := hfield ht
  cases hsuits with
  | unit =>
    obtain ⟨_, hexec⟩ := exec_of_block h
    exact not_mem_of_isSome (w.get?_workScope delivery) (isSome_get?_of_exec (needs_run w) hexec _ hpair)
  | count =>
    obtain ⟨_, hexec⟩ := exec_of_block h
    obtain ⟨first, hzero, _, hexec⟩ := exec_of_bind hexec
    rw [eval] at hzero
    cases hzero
    exact not_mem_of_isSome (w.get?_counting delivery)
      (isSome_get?_of_exec (needs_addTo w "_total") hexec _ hpair)
  | rowId | rowIds =>
    obtain ⟨field', rfl⟩ := List.length_eq_one_iff.1 hlength
    cases List.mem_singleton.1 ht
    exact single h

theorem deliver_code {category : String} {body : Block} (h : (s.work m fields).deliver m category = .ok body)
    : w.deliver body =
        if m.delivery = .suspend ∧ (w.argument callbackName).isSome then none
        else (w.block (w.workScope m.delivery) (s.run (self m.delivery) fields)).map (⟨m.delivery, true, ·⟩) := by
  unfold Work.deliver at h
  cases hdelivery : m.delivery with
  | direct | future =>
    rw [hdelivery] at h
    cases h
    rw [if_neg (by simp)]
    unfold Shortcut.work
    rw [hdelivery]
    rfl
  | suspend =>
    rw [hdelivery] at h
    cases h
    unfold Shortcut.work
    rw [hdelivery]
    change (if (w.argument callbackName).isNone then
      (w.block (w.workScope .suspend) (s.run (self .suspend) fields)).map _ else none) = _
    cases w.argument callbackName with
    | none => rfl
    | some => rfl
  | stream =>
    rw [hdelivery] at h
    cases h

end Surroundings

end Shortcut

end DataAccess
