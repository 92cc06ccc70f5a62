import DataAccess.Proofs.Shortcut.Meaning
import Mathlib.Algebra.GroupWithZero.Nat
import Mathlib.Data.List.Forall2

/-!
This module contains what the bodies of shortcuts come to. Main statements: a body does one step for each target,
in order, and gives back what its steps give back; and a body has no meaning if a variable of its own hides an
argument that it needs.
-/

namespace DataAccess

open Code (Expr Stmt)

def ShortcutOp.changes : ShortcutOp → Bool
  | delete | update _ => true
  | insert _ | upsert => false

namespace Shortcut

variable {Ent : String → Type} {V : Type}

/-- An adapter is of the kind that an operation takes. -/
inductive Writer.Suits {α : Type} : ShortcutOp → Writer α → Prop where
  | insertion : Suits (.insert policy) (.insertion a)
  | deletion : Suits .delete (.change a)
  | change : Suits (.update policy) (.change a)
  | upsertion : Suits .upsert (.upsertion a)

/-- What an adapter does with what is passed to it: its operation on an entity, or that on a collection. -/
def Writer.write (e : Engine σ Statement) : Writer α → Passed α → Deed σ
  | insertion a, .one x => ⟨.unit, a.insertUnit e x⟩
  | insertion a, .many xs => ⟨.unit, a.insertAllUnit e xs⟩
  | change a, .one x => ⟨.count, a.handle e x⟩
  | change a, .many xs => ⟨.count, a.handleAll e xs⟩
  | upsertion a, .one x => ⟨.unit, a.upsertUnit e x⟩
  | upsertion a, .many xs => ⟨.unit, a.upsertAllUnit e xs⟩

/-- The same with the identifiers of the rows, if the adapter has them. -/
def Writer.identify (e : Engine σ Statement) : Writer α → Passed α → Option (Deed σ)
  | insertion a, .one x => some ⟨.rowId, a.insert e x⟩
  | insertion a, .many xs => some ⟨.rowIds, a.insertAll e xs⟩
  | upsertion a, .one x => some ⟨.rowId, a.upsert e x⟩
  | upsertion a, .many xs => some ⟨.rowIds, a.upsertAll e xs⟩
  | change _, _ => none

structure Step (Ent : String → Type) where
  entity : String
  writer : Writer (Ent entity)
  passed : Passed (Ent entity)

namespace Step

def held (s : Step Ent) : Held Ent :=
  ⟨s.entity, s.writer⟩

def argument (s : Step Ent) : Argument Ent :=
  .entities s.entity s.passed

variable (e : Engine σ Statement)

def write (s : Step Ent) : Deed σ :=
  s.writer.write e s.passed

def identify (s : Step Ent) : Option (Deed σ) :=
  s.writer.identify e s.passed

def perform (s : Step Ent) : Operation σ Unit := do
  let _ ← (s.write e).run

theorem forM_perform (s : Step Ent) (steps : List (Step Ent))
    : (s :: steps).forM (perform e) = (do
        let _ ← (s.write e).run
        steps.forM (perform e)) := by
  change (perform e s >>= fun _ => steps.forM (perform e)) = _
  rw [perform, bind_assoc]
  rfl

/-- A step is the one of a target: it takes the adapter in a field, which is one for the operation and the entity,
and the argument of the target's parameter. -/
structure Serves (s : Step Ent) (w : Surroundings σ Ent) (op : ShortcutOp) (t : ResolvedTarget) (field : String)
    : Prop where
  adapter : w.adapter field = some s.held
  type : s.held.type = (adapterRequest op t.entity t.table).type
  argument : w.argument t.param.name = some s.argument
  many : s.passed.isMany = t.many

end Step

/-- What a body does with its steps, by what it is to give back: nothing, the sum of all counts as an integer type
that it fits, or what a single step gives back. -/
inductive Does (e : Engine σ Statement) (steps : List (Step Ent)) : ShortcutResult → Deed σ → Prop where
  | unit : Does e steps .unit ⟨.unit, steps.forM (Step.perform e)⟩
  | count {type : Code.TypeExpr} {target : IntType} {counts : List (Operation σ Nat)}
      (htype : type.intType? = some target)
      (hcounts : List.Forall₂ (fun s count => (s.write e).count? = some count) steps counts) :
      Does e steps (.count type) ⟨.integer target, do
        let numbers ← counts.mapM id
        .ofExcept (rowCount target numbers.sum)⟩
  | rowId {step : Step Ent} {id : Operation σ Int64} (hsteps : steps = [step])
      (hone : step.passed.isMany = false) (h : step.identify e = some ⟨.rowId, id⟩) :
      Does e steps .rowId ⟨.rowId, id⟩
  | rowIds {step : Step Ent} {ids : Operation σ (List Int64)} (hsteps : steps = [step])
      (hmany : step.passed.isMany = true) (h : step.identify e = some ⟨.rowIds, ids⟩) :
      Does e steps .rowIds ⟨.rowIds, ids⟩

namespace Scope

variable {scope : Scope Ent V}

@[simp]
theorem get?_behind (scope : Scope Ent V) (T : Type) (x : String) : (scope.behind T).get? x = scope.get? x := by
  unfold get? behind
  cases scope x with
  | none => rfl
  | some v =>
    cases v with
    | _ => rfl

@[simp]
theorem isImplementation_behind (scope : Scope Ent V) (T : Type) (x : String)
    : (scope.behind T).isImplementation x = scope.isImplementation x := by
  unfold isImplementation behind
  cases scope x with
  | none => rfl
  | some v =>
    cases v with
    | _ => rfl

theorem get?_declare (scope : Scope Ent V) (x y : String) (v : Variable Ent V)
    : (scope.declare x v).get? y = if y = x then v.argument? else scope.get? y := by
  unfold get? declare
  by_cases h : y = x
  . rw [if_pos h, h, Function.update_self]
    rfl
  . rw [if_neg h, Function.update_of_ne h]

theorem isImplementation_declare_of_ne (scope : Scope Ent V) {x y : String} (h : y ≠ x) (v : Variable Ent V)
    : (scope.declare x v).isImplementation y = scope.isImplementation y := by
  unfold isImplementation declare
  rw [Function.update_of_ne h]

@[simp]
theorem count?_declare (scope : Scope Ent V) (x : String) (read : V → Nat)
    : (scope.declare x (.value .count read)).count? x = some read := by
  unfold count? declare
  rw [Function.update_self]

theorem get?_of_count? {x : String} {read : V → Nat} (h : scope.count? x = some read) : scope.get? x = none := by
  unfold count? at h
  unfold get?
  split at h
  . next hx =>
    rw [hx]
    rfl
  . cases h

theorem get?_add {x : String} {read : V → Nat} (h : scope.count? x = some read) (y : String)
    : (scope.add x read).get? y = scope.get? y := by
  rw [add, get?_declare, get?_behind]
  split
  . next hy =>
    rw [hy, get?_of_count? h]
    rfl
  . rfl

def Sees (scope : Scope Ent V) (delivery : Delivery) : Prop :=
  delivery ≠ .direct → scope.isImplementation "__this" = true

variable {delivery : Delivery}

theorem Sees.behind (h : scope.Sees delivery) (T : Type) : (scope.behind T).Sees delivery :=
  fun hasync => (scope.isImplementation_behind T "__this").trans (h hasync)

theorem Sees.declare (h : scope.Sees delivery) {x : String} (hx : x ≠ "__this") (v : Variable Ent V)
    : (scope.declare x v).Sees delivery :=
  fun hasync => (scope.isImplementation_declare_of_ne hx.symm v).trans (h hasync)

end Scope

section Calls

variable {w : Surroundings σ Ent} {scope : Scope Ent V} {delivery : Delivery} {op : ShortcutOp}
  {t : ResolvedTarget} {field : String} {step : Step Ent}

theorem adapter?_self (h : scope.Sees delivery) (field : String)
    : w.adapter? scope (.field (self delivery) field) = w.adapter field := by
  cases delivery with
  | direct => rfl
  | suspend | future | stream => exact if_pos (Bool.or_eq_true_iff.2 (.inr (h nofun)))

theorem isSome_get?_of_eval {s : Deed σ} {method : Code.Method}
    (h : w.eval scope (callOn (self delivery) t field method) = some s)
    : (scope.get? t.param.name).isSome := by
  obtain ⟨held, _, h⟩ := Option.bind_eq_some_iff.1 h
  obtain ⟨argument, hargument, _⟩ := Option.bind_eq_some_iff.1 h
  split at hargument
  all_goals
    obtain ⟨hget, _⟩ := Option.filter_eq_some_iff.1 hargument
    rw [hget]
    rfl

theorem Argument.passed?_self (s : Step Ent) : s.argument.passed? s.entity = some s.passed := dif_pos rfl

namespace Step.Serves

variable (h : step.Serves w op t field)
include h

theorem passed?_argument (hget : scope.get? t.param.name = w.argument t.param.name)
    : scope.passed? (if t.many then .method (.var t.param.name) .iter [] else .borrow (.var t.param.name)) =
        some step.argument := by
  have hmany : step.argument.isMany = t.many := h.many
  have hargument := hget.trans h.argument
  cases ht : t.many with
  | false =>
    change (scope.get? t.param.name).filter (fun a => !a.isMany) = _
    rw [hargument, Option.filter_some, hmany, ht]
    rfl
  | true =>
    change (scope.get? t.param.name).filter Argument.isMany = _
    rw [hargument, Option.filter_some, hmany, ht]
    rfl

theorem eval_callOn (hsees : scope.Sees delivery) (hget : scope.get? t.param.name = w.argument t.param.name)
    (method : Code.Method)
    : w.eval scope (callOn (self delivery) t field method) = step.writer.call w.engine method step.passed := by
  unfold callOn
  dsimp only
  rw [Surroundings.eval, adapter?_self hsees, h.adapter, h.passed?_argument hget]
  exact congrArg (Option.bind · _) (Argument.passed?_self step)

theorem suits : step.writer.Suits op := by
  have htype := h.type
  obtain ⟨entity, writer, passed⟩ := step
  cases op with
  | insert | delete | update | upsert =>
    cases writer with
    | insertion | change | upsertion => first | constructor | cases htype

theorem call_operation (e : Engine σ Statement)
    : step.writer.call e (if t.many then bulk op else single op) step.passed = some (step.write e) := by
  rw [← h.many]
  unfold Step.write
  obtain ⟨entity, writer, passed⟩ := step
  have hsuits : writer.Suits op := h.suits
  cases hsuits with
  | insertion | deletion | change | upsertion =>
    cases passed with
    | one | many => rfl

theorem eval_operate (hsees : scope.Sees delivery) (hget : scope.get? t.param.name = w.argument t.param.name)
    : w.eval scope (operate op (self delivery) t field) = some (step.write w.engine) :=
  (h.eval_callOn hsees hget _).trans (h.call_operation w.engine)

theorem call_returning (e : Engine σ Statement)
    : step.writer.call e (returning op t.many) step.passed = step.identify e := by
  rw [← h.many]
  unfold Step.identify
  obtain ⟨entity, writer, passed⟩ := step
  have hsuits : writer.Suits op := h.suits
  cases hsuits with
  | insertion | deletion | change | upsertion =>
    cases passed with
    | one | many => rfl

theorem exists_count (hop : op.changes = true) (e : Engine σ Statement)
    : ∃ count, (step.write e).count? = some count := by
  unfold Step.write
  obtain ⟨entity, writer, passed⟩ := step
  have hsuits : writer.Suits op := h.suits
  cases hsuits with
  | deletion | change =>
    cases passed with
    | one | many => exact ⟨_, rfl⟩
  | insertion | upsertion => cases hop

theorem exists_identify (hop : op.changes = false) (e : Engine σ Statement)
    : ∃ identified, step.identify e = some identified ∧
        identified.type = if step.passed.isMany then .rowIds else .rowId := by
  unfold Step.identify
  obtain ⟨entity, writer, passed⟩ := step
  have hsuits : writer.Suits op := h.suits
  cases hsuits with
  | insertion | upsertion =>
    cases passed with
    | one | many => exact ⟨_, rfl, rfl⟩
  | deletion | change => cases hop

end Step.Serves

end Calls

section Exec

variable {w : Surroundings σ Ent} {op : ShortcutOp} {delivery : Delivery} {scope : Scope Ent V}
  {code e : Expr} {rest : List Stmt} {first : Deed σ}

theorem exec_run {course : Course σ (V × first.type.Val)} (hfirst : w.eval scope code = some first)
    (hrest : w.exec (scope.behind _) rest e = some course)
    : w.exec scope (.run code :: rest) e = some (course.after first.run) := by
  rw [Surroundings.exec, hfirst, Option.bind_eq_bind, Option.bind_some, hrest]
  rfl

theorem exec_bind {mutable : Bool} {x : String} {type : Option Code.CodeType}
    {course : Course σ (V × first.type.Val)} (hfirst : w.eval scope code = some first)
    (hrest : w.exec ((scope.behind _).declare x (.value first.type Prod.snd)) rest e = some course)
    : w.exec scope (.bind mutable x type code :: rest) e = some (course.after first.run) := by
  rw [Surroundings.exec, hfirst, Option.bind_eq_bind, Option.bind_some]
  exact congrArg (Option.bind · _) hrest

theorem exec_addTo {x : String} {read : V → Nat} {more : Operation σ Nat} {course : Course σ (V × Nat)}
    (hread : scope.count? x = some read) (hfirst : w.eval scope code = some first)
    (hmore : first.count? = some more) (hrest : w.exec (scope.add x read) rest e = some course)
    : w.exec scope (.addTo x code :: rest) e = some (course.after more) := by
  rw [Surroundings.exec, hread, hfirst, Option.bind_eq_bind, Option.bind_some, Option.bind_eq_bind,
    Option.bind_some, hmore, Option.bind_eq_bind, Option.bind_some, hrest]
  rfl

variable {pairs : List (ResolvedTarget × String)} {steps : List (Step Ent)}

def operations (op : ShortcutOp) (delivery : Delivery) (pairs : List (ResolvedTarget × String)) : List Expr :=
  pairs.map fun (t, field) => operate op (self delivery) t field

def Serve (w : Surroundings σ Ent) (op : ShortcutOp) (pairs : List (ResolvedTarget × String))
    (steps : List (Step Ent)) : Prop :=
  List.Forall₂ (fun p s => s.Serves w op p.1 p.2) pairs steps

/-- The arguments of all targets are in scope. -/
def Scope.Reaches (scope : Scope Ent V) (w : Surroundings σ Ent) (pairs : List (ResolvedTarget × String)) : Prop :=
  ∀ p ∈ pairs, scope.get? p.1.param.name = w.argument p.1.param.name

theorem exec_runs (hsees : scope.Sees delivery) (hreaches : scope.Reaches w pairs) (hserve : Serve w op pairs steps)
    : w.exec scope ((operations op delivery pairs).map .run) (.ok .unit) =
        some ⟨.unit, fun _ => steps.forM (Step.perform w.engine)⟩ := by
  induction hserve generalizing V with
  | nil => rfl
  | @cons p s rest steps hfirst _ ih =>
    have heval := hfirst.eval_operate hsees (hreaches p List.mem_cons_self)
    have hrest := ih (hsees.behind (s.write w.engine).type.Val) fun q hq =>
      (Scope.get?_behind ..).trans (hreaches q (List.mem_cons_of_mem _ hq))
    rw [operations, List.map_cons, List.map_cons]
    refine (exec_run heval hrest).trans ?_
    rw [Step.forM_perform]
    rfl

theorem exec_adds {type : Code.TypeExpr} {target : IntType} {counts : List (Operation σ Nat)} {read : V → Nat}
    (hsees : scope.Sees delivery) (hreaches : scope.Reaches w pairs) (hserve : Serve w op pairs steps)
    (hcounts : List.Forall₂ (fun s count => (s.write w.engine).count? = some count) steps counts)
    (htype : type.intType? = some target) (hread : scope.count? "_total" = some read)
    : w.exec scope ((operations op delivery pairs).map (.addTo "_total"))
          (.call (.rowCount type) [.var "_total"]) =
        some ⟨.integer target, fun values => do
          let numbers ← counts.mapM id
          .ofExcept (rowCount target (read values + numbers.sum))⟩ := by
  induction hserve generalizing V counts with
  | nil =>
    cases hcounts
    rw [operations, List.map_nil, List.map_nil, Surroundings.exec, Scope.result, htype, hread]
    rfl
  | @cons p s rest steps hfirst _ ih =>
    obtain ⟨more, left, hmore, hleft, rfl⟩ := List.forall₂_cons_left_iff.1 hcounts
    have heval := hfirst.eval_operate hsees (hreaches p List.mem_cons_self)
    have hrest := ih ((hsees.behind Nat).declare (by decide) _)
      (fun q hq => (Scope.get?_add hread _).trans (hreaches q (List.mem_cons_of_mem _ hq))) hleft
      (Scope.count?_declare ..)
    rw [operations, List.map_cons, List.map_cons]
    refine (exec_addTo hread heval hmore hrest).trans ?_
    unfold Course.after
    simp only [List.mapM_cons, bind_assoc, pure_bind, List.sum_cons, Nat.add_assoc, id]

theorem exec_returning {t : ResolvedTarget} {field : String} {step : Step Ent} {identified : Deed σ}
    (hsees : scope.Sees delivery) (hget : scope.get? t.param.name = w.argument t.param.name)
    (hserves : step.Serves w op t field) (hidentify : step.identify w.engine = some identified)
    : w.exec scope [.bind false "_result" none (callOn (self delivery) t field (returning op t.many))]
          (.ok (.var "_result")) =
        some ⟨identified.type, fun _ => identified.run⟩ := by
  have heval := (hserves.eval_callOn hsees hget (returning op t.many)).trans
    ((hserves.call_returning w.engine).trans hidentify)
  have hresult (later : Scope Ent (V × identified.type.Val))
      (hlater : later "_result" = some (.value identified.type Prod.snd))
      : w.exec later [] (.ok (.var "_result")) = some ⟨identified.type, fun values => pure values.2⟩ := by
    rw [Surroundings.exec, Scope.result, hlater]
    rfl
  refine (exec_bind heval (hresult _ (Function.update_self ..))).trans ?_
  unfold Course.after
  simp only [bind_pure]

/-- A kind of statement makes sense only if its expression does, and leaves the arguments in scope. -/
def Needs (w : Surroundings σ Ent) (make : Expr → Stmt) : Prop :=
  ∀ {V : Type} {scope : Scope Ent V} {code e : Expr} {rest : List Stmt} {course : Course σ V},
    w.exec scope (make code :: rest) e = some course →
      (w.eval scope code).isSome ∧ ∃ (V' : Type) (later : Scope Ent V') (course' : Course σ V'),
        (∀ x, later.get? x = scope.get? x) ∧ w.exec later rest e = some course'

theorem needs_run (w : Surroundings σ Ent) : Needs w .run := by
  intro V scope code e rest course h
  rw [Surroundings.exec] at h
  obtain ⟨first, hfirst, h⟩ := Option.bind_eq_some_iff.1 h
  obtain ⟨course', hrest, _⟩ := Option.bind_eq_some_iff.1 h
  exact ⟨Option.isSome_of_eq_some hfirst, _, _, course', fun x => Scope.get?_behind .., hrest⟩

theorem needs_addTo (w : Surroundings σ Ent) (x : String) : Needs w (.addTo x) := by
  intro V scope code e rest course h
  rw [Surroundings.exec] at h
  obtain ⟨read, hread, h⟩ := Option.bind_eq_some_iff.1 h
  obtain ⟨first, hfirst, h⟩ := Option.bind_eq_some_iff.1 h
  obtain ⟨more, _, h⟩ := Option.bind_eq_some_iff.1 h
  obtain ⟨course', hrest, _⟩ := Option.bind_eq_some_iff.1 h
  exact ⟨Option.isSome_of_eq_some hfirst, _, _, course', Scope.get?_add hread, hrest⟩

/-- Operations make sense only if the arguments of all their targets are in scope. -/
theorem isSome_get?_of_exec {make : Expr → Stmt} (hmake : Needs w make) {course : Course σ V}
    (h : w.exec scope ((operations op delivery pairs).map make) e = some course)
    : ∀ p ∈ pairs, (scope.get? p.1.param.name).isSome := by
  induction pairs generalizing V with
  | nil => simp
  | cons p rest ih =>
    obtain ⟨hfirst, V', later, course', hget, hrest⟩ := hmake h
    obtain ⟨first, hfirst⟩ := Option.isSome_iff_exists.1 hfirst
    intro q hq
    rcases List.mem_cons.1 hq with rfl | hq
    . exact isSome_get?_of_eval hfirst
    . rw [← hget]
      exact ih hrest q hq

end Exec

end Shortcut

end DataAccess
