import DataAccess.Engine.Scripted
import DataAccess.Proofs.Compile.Apart
import DataAccess.Proofs.Compile.Converters
import DataAccess.Proofs.Compile.Leaves
import DataAccess.Proofs.Reading.Arrived
import DataAccess.Proofs.Reading.Declared
import DataAccess.Proofs.Shortcut.Bodies

/-!
This module contains the shortcuts of a plan. Main statement: the body of such a method does in one transaction
what is declared for its targets, one after the other and each once, if and only if no argument is hidden by a
variable of the code.
-/

namespace DataAccess

open Code (Block Expr Stmt TypeExpr)

namespace Interface

variable {i : Interface} {m : Method}

structure Resolves (i : Interface) (m : Method) (t : Target) (r : ResolvedTarget) : Prop where
  param : m.param? t.param = some r.param
  entity : i.entity? t.entity = some r.entity
  table : i.writtenTable? r.entity = some r.table
  many : r.many = t.many

theorem resolves_of_resolveTarget {op : ShortcutOp} {t : Target} {r : ResolvedTarget}
    (h : i.resolveTarget m op t = .ok r) : i.Resolves m t r := by
  have htable := (resolveTarget_eq_ok h).1.table
  unfold resolveTarget at h
  split at h
  . next param hparam =>
    obtain ⟨e, he, h⟩ := exists_of_bind_eq_ok h
    have hentity := (requireEntity_eq_ok he).1
    obtain ⟨_, h⟩ := ok_of_guard h
    dsimp only at h
    split at h
    . obtain ⟨_, _, h⟩ := exists_of_bind_eq_ok h
      obtain ⟨_, _, h⟩ := exists_of_bind_eq_ok h
      obtain ⟨_, h⟩ := ok_of_guard h
      cases h
      exact ⟨hparam, hentity, htable, rfl⟩
    . obtain ⟨_, _, h⟩ := exists_of_bind_eq_ok h
      obtain ⟨_, h⟩ := ok_of_guard h
      cases h
      exact ⟨hparam, hentity, htable, rfl⟩
  . cases h

theorem exists_planned {options : Options} {plan : Plan} (h : i.plan options = .ok plan) (hm : m ∈ i.methods)
    : ∃ p ∈ plan.methods, p.method = m := by
  have hmethods := congrArg (List.map Prod.fst) (methods_of_plan h)
  rw [List.map_map, List.map_map] at hmethods
  have hmem : m ∈ plan.methods.map (·.method) := by
    rw [← List.map_id' i.methods] at hm
    exact hmethods ▸ hm
  exact List.mem_map.1 hmem

end Interface

namespace Shortcut

theorem suits_of_shortcutResult {m : Method} {op : ShortcutOp} {targets : List ResolvedTarget}
    {result : ShortcutResult} (h : Interface.shortcutResult m op targets = .ok result)
    : Suits m ⟨op, targets, result⟩ := by
  have count {type : TypeExpr} {why : Problem} (hop : op.changes = true) (hreturns : m.returns = some type)
      (h : (if type.isInteger then .ok (.count type) else .error why) = Except.ok result)
      : Suits m ⟨op, targets, result⟩ := by
    split at h
    . next htype =>
      cases h
      exact .count hop hreturns htype
    . cases h
  unfold Interface.shortcutResult at h
  split at h
  . next hreturns =>
    cases h
    exact .unit hreturns
  . next type hreturns =>
    have identify {only : ResolvedTarget} {why : Problem} (hop : op.changes = false)
        (h : (if !only.many && type.isRowId then .ok .rowId
          else if only.many && (type.genericArg "Vec").any TypeExpr.isRowId then .ok .rowIds
          else .error why) = Except.ok result) : Suits m ⟨op, [only], result⟩ := by
      split at h
      . next hone =>
        cases h
        obtain ⟨hone, htype⟩ := Bool.and_eq_true_iff.1 hone
        rw [Bool.not_eq_true'] at hone
        exact .rowId hop hreturns htype hone
      . split at h
        . next hmany =>
          cases h
          obtain ⟨hmany, hlist⟩ := Bool.and_eq_true_iff.1 hmany
          obtain ⟨item, hlist, hitem⟩ := (Option.any_eq_true ..).1 hlist
          exact .rowIds hop hreturns hlist hitem hmany
        . cases h
    split at h
    . split at h
      . exact identify rfl h
      . cases h
    . split at h
      . exact identify rfl h
      . cases h
    . exact count rfl hreturns h
    . exact count rfl hreturns h

/-- A step is that of a target in a plan: it takes the adapter in the field that serves the target. -/
def Step.IsFor {Ent : String → Type} (step : Step Ent) (w : Surroundings σ Ent) (plan : Plan) (op : ShortcutOp)
    (t : ResolvedTarget) : Prop :=
  ∃ field, plan.Serves field (adapterRequest op t.entity t.table) ∧ step.Serves w op t field

/-- The fields of a plan hold adapters of their types, each parameter has its argument, and arguments of targets
are what the targets are declared as. -/
structure Surroundings.Fits (w : Surroundings σ Ent) (plan : Plan) (m : Method) (s : Shortcut) : Prop where
  adapters : ∀ f ∈ plan.fields, f.type ≠ .sharedStatement →
    ∃ held, w.adapter f.name = some held ∧ held.type = f.type
  arguments : ∀ x, (w.argument x).isSome ↔ ∃ q ∈ m.params, q.name = x
  targets : ∀ t ∈ s.targets, ∃ passed : Passed (Ent t.entity.name),
    w.argument t.param.name = some (.entities t.entity.name passed) ∧ passed.isMany = t.many

variable {i : Interface} {options : Options} {plan : Plan} {p : MethodPlan} {c : Classified} {s : Shortcut}
  {Ent : String → Type} {w : Surroundings σ Ent} {fields : List String}

/-- The body of a planned shortcut uses for each target the field that serves it. -/
theorem exists_fields (hnames : i.WellNamed) (hplan : i.plan options = .ok plan) (hp : p ∈ plan.methods)
    (hc : i.classify p.method = .ok c) (hs : c.category = .shortcut s)
    : ∃ fields, List.Forall₂ (fun t name => plan.Serves name (adapterRequest s.op t.entity t.table))
          s.targets fields ∧
        (s.work p.method fields).deliver p.method s.op.tag = .ok p.body := by
  obtain ⟨classified, hdrafts⟩ := Interface.drafts_of_plan hplan
  obtain ⟨answers, d, hleaves⟩ := Interface.leaves_of_drafts hnames hdrafts
  obtain ⟨c', hc', hwrites⟩ := exists_of_forall₂ hleaves.written hp
  have horigin := (Interface.methods_of_classified hdrafts.categories).2 c' hc'
  rw [← hwrites.method, hc] at horigin
  cases horigin
  obtain ⟨names, hlength, hsubset, hcode⟩ := hwrites.code
  have hneeds : c.needs = s.targets.map fun t => Need.adapter s.op t.entity t.table := by
    unfold Classified.needs
    rw [hs]
    rfl
  rw [hneeds] at hlength hsubset
  refine ⟨names, ?_, ?_⟩
  . rw [List.length_map] at hlength
    rw [List.forall₂_iff_zip]
    refine ⟨hlength.symm, ?_⟩
    intro t name hmem
    have hanswer : (Need.adapter s.op t.entity t.table, name) ∈ answers := by
      apply hsubset
      rw [List.zip_map_left]
      exact List.mem_map_of_mem (f := Prod.map (fun t => Need.adapter s.op t.entity t.table) id) hmem
    exact hleaves.has_field.1 (hleaves.answered.gives _ hanswer).has
  . unfold Classified.code at hcode
    rw [hs, ← hwrites.method] at hcode
    exact hcode

theorem entity?_adapterRequest (op : ShortcutOp) (e : Entity) (table : String)
    : (adapterRequest op e table).type.entity? = some e.name := by
  cases op with
  | insert | delete | update | upsert => rfl

theorem Held.entity?_type (h : Held Ent) : h.type.entity? = some h.entity := by
  obtain ⟨entity, writer⟩ := h
  cases writer with
  | insertion | change | upsertion => rfl

theorem exists_step (hfits : w.Fits plan p.method s) {t : ResolvedTarget} (ht : t ∈ s.targets) {field : String}
    (hserves : plan.Serves field (adapterRequest s.op t.entity t.table))
    : ∃ step : Step Ent, step.Serves w s.op t field := by
  have htype : (adapterRequest s.op t.entity t.table).type ≠ .sharedStatement := by
    intro htype
    have hentity := entity?_adapterRequest s.op t.entity t.table
    rw [htype] at hentity
    cases hentity
  obtain ⟨⟨entity, writer⟩, hadapter, hheld⟩ := hfits.adapters _ hserves htype
  obtain ⟨passed, hargument, hmany⟩ := hfits.targets t ht
  have hentity : some entity = some t.entity.name :=
    (Held.entity?_type ⟨entity, writer⟩).symm.trans ((congrArg _ hheld).trans (entity?_adapterRequest ..))
  cases hentity
  exact ⟨⟨_, writer, passed⟩, hadapter, hheld, hargument, hmany⟩

theorem exists_steps (hfits : w.Fits plan p.method s)
    (hfields : List.Forall₂ (fun t field => plan.Serves field (adapterRequest s.op t.entity t.table)) s.targets
      fields)
    : ∃ steps, Serve w s.op (s.targets.zip fields) steps ∧
        List.Forall₂ (fun t step => Step.IsFor step w plan s.op t) s.targets steps := by
  have hstep : ∀ t ∈ s.targets, ∀ field, plan.Serves field (adapterRequest s.op t.entity t.table) →
      ∃ step : Step Ent, step.Serves w s.op t field := fun t ht field => exists_step hfits ht
  generalize s.targets = targets at hfields hstep
  induction hfields with
  | nil => exact ⟨[], .nil, .nil⟩
  | @cons t field targets fields hfirst _ ih =>
    obtain ⟨step, hserves⟩ := hstep t List.mem_cons_self field hfirst
    obtain ⟨steps, hserve, hfor⟩ := ih fun t ht => hstep t (List.mem_cons_of_mem _ ht)
    exact ⟨step :: steps, .cons hserves hserve, .cons ⟨field, hfirst, hserves⟩ hfor⟩

theorem Handover.arrives (h : Handover σ) (e : Engine σ Statement) {b : Background σ h.work.type.Val}
    (hexecutor : b.executor = true) : h.Arrives e b := by
  unfold Arrives
  cases h.delivery with
  | direct | stream => trivial
  | future => exact Background.pollFuture_of_createFuture e h.inTransaction (fun _ => h.work.run) hexecutor
  | suspend =>
    exact fun name => Background.takeEvents_of_launch e h.inTransaction name (fun _ => h.work.run) hexecutor

theorem lostParameters_eq_nil_iff (hc : i.classify p.method = .ok c) (hs : c.category = .shortcut s)
    : i.lostParameters p.method = [] ↔ ∀ t ∈ s.targets, t.param.name ∉ s.hidden p.method.delivery := by
  obtain ⟨hmethod, _⟩ := Interface.classify_eq_ok hc
  have hlocals : c.locals = s.hidden p.method.delivery := by
    obtain ⟨_, _, _⟩ := c
    cases hs
    cases hmethod
    rfl
  unfold Interface.lostParameters
  rw [hc]
  dsimp only
  rw [hs, hlocals, List.filter_eq_nil_iff]
  simp [Category.arguments]

theorem declared_of_classify (hc : i.classify p.method = .ok c) (hs : c.category = .shortcut s)
    : (∃ declared, p.method.kind.shortcut? = some (s.op, declared) ∧
          List.Forall₂ (i.Resolves p.method) declared s.targets) ∧
        Suits p.method s := by
  obtain ⟨_, hresolve, _⟩ := Interface.classify_eq_ok hc
  rw [hs] at hresolve
  cases Interface.resolved_of_resolve hresolve with
  | shortcut hkind htargets hresult =>
    refine ⟨⟨_, hkind, ?_⟩, suits_of_shortcutResult hresult⟩
    exact (forall₂_of_mapM_eq_ok htargets).imp fun _ _ h => Interface.resolves_of_resolveTarget h

/-- What is handed over does what is declared for the targets of a shortcut, in a transaction: a step for each
target, in order, and no other. It gives back what the shortcut is to give back. -/
structure Surroundings.Applies (w : Surroundings σ Ent) (plan : Plan) (m : Method) (s : Shortcut) (h : Handover σ)
    : Prop where
  delivery : h.delivery = m.delivery
  inTransaction : h.inTransaction = true
  steps : ∃ steps, List.Forall₂ (fun t step => Step.IsFor step w plan s.op t) s.targets steps ∧
    Does w.engine steps s.result h.work
  arrives : ∀ b, b.executor = true → h.Arrives w.engine b

/-- The body of a shortcut has a meaning if and only if no argument of a target is hidden by a variable of the
code, and none by the callback. It then does in one transaction the operation of each target, in order and up to
the first that fails, with the adapter and the argument of that target: the operation on a collection if the
target is one. It gives back nothing, or the sum of all counts as the declared integer type if it fits, or what
the only target's adapter tells of its rows; and with more targets no row ids are to be given back. -/
theorem applies_each_target (i : Interface) (options : Options) {plan : Plan} (hnames : i.WellNamed)
    (hplan : i.plan options = .ok plan) {p : MethodPlan} (hp : p ∈ plan.methods) {c : Classified}
    (hc : i.classify p.method = .ok c) {s : Shortcut} (hs : c.category = .shortcut s) {Ent : String → Type}
    (w : Surroundings σ Ent) (hfits : w.Fits plan p.method s)
    : (∃ declared, p.method.kind.shortcut? = some (s.op, declared) ∧
          List.Forall₂ (i.Resolves p.method) declared s.targets) ∧
        Suits p.method s ∧
        ((∃ h, w.deliver p.body = some h) ↔
          i.lostParameters p.method = [] ∧
            (p.method.delivery = .suspend → ∀ q ∈ p.method.params, q.name ≠ callbackName)) ∧
        ∀ h, w.deliver p.body = some h → w.Applies plan p.method s h := by
  obtain ⟨hdeclared, hsuits⟩ := declared_of_classify hc hs
  obtain ⟨fields, hfields, hbody⟩ := exists_fields hnames hplan hp hc hs
  obtain ⟨steps, hserve, hfor⟩ := exists_steps hfits hfields
  have hlength := hfields.length_eq.symm
  have hcallback : (p.method.delivery = .suspend ∧ (w.argument callbackName).isSome) ↔
      ¬(p.method.delivery = .suspend → ∀ q ∈ p.method.params, q.name ≠ callbackName) := by
    rw [hfits.arguments]
    simp
  have hdeliver := w.deliver_code hbody
  refine ⟨hdeclared, hsuits, ?_, ?_⟩
  . rw [hdeliver, lostParameters_eq_nil_iff hc hs]
    constructor
    . rintro ⟨h, hh⟩
      split at hh
      . cases hh
      . next hfree =>
        obtain ⟨work, hwork, _⟩ := Option.map_eq_some_iff.1 hh
        exact ⟨Surroundings.apparent_of_block hsuits hlength hwork, not_not.1 (mt hcallback.2 hfree)⟩
    . rintro ⟨happarent, hfree⟩
      obtain ⟨work, hwork, _⟩ := Surroundings.block_run hsuits hlength hserve happarent
      rw [if_neg fun hlost => hcallback.1 hlost hfree, hwork]
      exact ⟨_, rfl⟩
  . intro h hh
    rw [hdeliver] at hh
    split at hh
    . cases hh
    . obtain ⟨work, hwork, rfl⟩ := Option.map_eq_some_iff.1 hh
      have happarent := Surroundings.apparent_of_block hsuits hlength hwork
      obtain ⟨_, hdone, hdoes⟩ := Surroundings.block_run hsuits hlength hserve happarent
      cases hwork.symm.trans hdone
      exact ⟨rfl, rfl, ⟨steps, hfor, hdoes⟩, fun b hexecutor => Handover.arrives _ w.engine hexecutor⟩

def people : Entity :=
  ⟨"User", "users", [⟨"name", "name", false, none⟩], ["name"], none⟩

def labels : Entity :=
  ⟨"Tag", "tags", [⟨"label", "label", false, none⟩], ["label"], none⟩

def person (name : String) : Parameter :=
  ⟨name, .path false [.mk "User" .none], false, none⟩

def labelList : Parameter :=
  ⟨"tags", .path false [.mk "Vec" (.angled false [.type (.path false [.mk "Tag" .none])] false)], false, none⟩

def byte : TypeExpr :=
  .path false [.mk "u8" .none]

def retire : Method :=
  ⟨"retire", [person "user", labelList], some byte, .future,
    .delete [⟨"user", "User", false⟩, ⟨"tags", "Tag", true⟩]⟩

def retireTotal : Method :=
  ⟨"retire_total", [person "_total"], some byte, .direct, .delete [⟨"_total", "User", false⟩]⟩

def retirement : Interface where
  name := "Users"
  entities := [people, labels]
  converters := []
  backing := none
  methods := [retire, retireTotal]

def retireTargets : Shortcut :=
  ⟨.delete, [⟨person "user", people, "users", false⟩, ⟨labelList, labels, "tags", true⟩], .count byte⟩

def retireTotalTargets : Shortcut :=
  ⟨.delete, [⟨person "_total", people, "users", false⟩], .count byte⟩

/-- A user is retired with two tags. Entities are their names here. -/
def retiring : Surroundings ScriptedEngine fun _ => String where
  engine := ScriptedEngine.engine
  adapter
    | "__deletion_adapter_of_user" => some ⟨"User", .change ⟨"users", 0, fun name s => s.bind 1 (.text name)⟩⟩
    | "__deletion_adapter_of_tag" => some ⟨"Tag", .change ⟨"tags", 1, fun label s => s.bind 1 (.text label)⟩⟩
    | _ => none
  argument
    | "user" => some (.entities "User" (.one "ada"))
    | "tags" => some (.entities "Tag" (.many ["new", "old"]))
    | _ => none

theorem wellNamed_retirement : retirement.WellNamed := by
  intro e he
  apply plainName_of_isIdent
  revert e
  decide

theorem exists_plan_retirement
    : ∃ plan, retirement.plan .standard = .ok plan ∧
        plan.fields.map (fun f => (f.name, f.type)) =
          [("__deletion_adapter_of_user", .changeAdapter "User"),
           ("__deletion_adapter_of_tag", .changeAdapter "Tag")] := by
  have hfields : (retirement.plan .standard).toOption.map (fun plan => plan.fields.map fun f => (f.name, f.type)) =
      some [("__deletion_adapter_of_user", .changeAdapter "User"),
        ("__deletion_adapter_of_tag", .changeAdapter "Tag")] := by
    decide +kernel
  cases hplan : retirement.plan .standard with
  | error =>
    rw [hplan] at hfields
    cases hfields
  | ok plan =>
    rw [hplan] at hfields
    exact ⟨plan, rfl, Option.some.inj hfields⟩

theorem fits_retiring {plan : Plan}
    (hfields : plan.fields.map (fun f => (f.name, f.type)) =
      [("__deletion_adapter_of_user", .changeAdapter "User"), ("__deletion_adapter_of_tag", .changeAdapter "Tag")])
    : retiring.Fits plan retire retireTargets where
  adapters f hf _ := by
    have hmem := List.mem_map_of_mem (f := fun f : HelperField => (f.name, f.type)) hf
    rw [hfields] at hmem
    rcases List.mem_pair.1 hmem with h | h
    . obtain ⟨hname, htype⟩ := Prod.mk.inj h
      rw [hname, htype]
      exact ⟨_, rfl, rfl⟩
    . obtain ⟨hname, htype⟩ := Prod.mk.inj h
      rw [hname, htype]
      exact ⟨_, rfl, rfl⟩
  arguments x := by
    unfold retiring
    dsimp only
    split
    . simp [retire, person]
    . simp [retire, labelList]
    . next huser htags => simp [retire, person, labelList, Ne.symm huser, Ne.symm htags]
  targets t ht := by
    rcases List.mem_pair.1 ht with rfl | rfl
    . exact ⟨.one "ada", rfl, rfl⟩
    . exact ⟨.many ["new", "old"], rfl, rfl⟩

/-- A user and a list of tags are removed in two steps. -/
theorem applies_each_target_retire
    : retirement.WellNamed ∧ ∃ plan, ∃ p ∈ plan.methods, ∃ h,
        retirement.plan .standard = .ok plan ∧ p.method = retire ∧ retiring.Fits plan retire retireTargets ∧
          retiring.deliver p.body = some h ∧ h.inTransaction = true ∧
          ∃ steps : List (Step fun _ => String), steps.length = 2 ∧
            Does retiring.engine steps (.count byte) h.work := by
  obtain ⟨plan, hplan, hfields⟩ := exists_plan_retirement
  obtain ⟨p, hp, hmethod⟩ := Interface.exists_planned hplan (List.mem_cons_self : retire ∈ retirement.methods)
  have hfits := fits_retiring hfields
  have hc : retirement.classify p.method = .ok ⟨retire, .shortcut retireTargets, []⟩ := by
    rw [hmethod]
    rfl
  obtain ⟨_, _, hsense, happlies⟩ := applies_each_target retirement .standard wellNamed_retirement hplan hp hc rfl
    retiring (hmethod ▸ hfits)
  have happarent : retirement.lostParameters p.method = [] := by
    rw [lostParameters_eq_nil_iff hc rfl, hmethod]
    decide
  obtain ⟨h, hdeliver⟩ := hsense.2 ⟨happarent, by rw [hmethod]; nofun⟩
  obtain ⟨steps, hsteps, hdoes⟩ := (happlies h hdeliver).steps
  exact ⟨wellNamed_retirement, plan, p, hp, h, hplan, hmethod, hfits, hdeliver, (happlies h hdeliver).inTransaction,
    steps, hsteps.length_eq.symm, hdoes⟩

/-- A body that counts in a variable called like the target's parameter makes no sense, whatever it works with. -/
theorem hides_target_retireTotal
    : ∃ plan, ∃ p ∈ plan.methods, retirement.plan .standard = .ok plan ∧ p.method = retireTotal ∧
        retirement.classify p.method = .ok ⟨retireTotal, .shortcut retireTotalTargets, []⟩ ∧
        ∀ (σ : Type) (Ent : String → Type) (w : Surroundings σ Ent), w.deliver p.body = none := by
  obtain ⟨plan, hplan, _⟩ := exists_plan_retirement
  obtain ⟨p, hp, hmethod⟩ := Interface.exists_planned hplan
    (List.mem_cons_of_mem _ List.mem_cons_self : retireTotal ∈ retirement.methods)
  have hc : retirement.classify p.method = .ok ⟨retireTotal, .shortcut retireTotalTargets, []⟩ := by
    rw [hmethod]
    rfl
  refine ⟨plan, p, hp, hplan, hmethod, hc, ?_⟩
  intro σ Ent w
  obtain ⟨fields, hfields, hbody⟩ := exists_fields wellNamed_retirement hplan hp hc rfl
  obtain ⟨_, hsuits⟩ := declared_of_classify hc rfl
  rw [w.deliver_code hbody, hmethod, if_neg (by rintro ⟨h, _⟩; cases h)]
  cases hblock : w.block (w.workScope retireTotal.delivery)
      (retireTotalTargets.run (self retireTotal.delivery) fields) with
  | none => rfl
  | some work =>
    have happarent := Surroundings.apparent_of_block hsuits hfields.length_eq.symm hblock
    exact absurd List.mem_cons_self (happarent _ List.mem_cons_self)

def retired (rows : List Nat) : Option (Option (Except Fault Int)) := do
  let plan ← (retirement.plan .standard).toOption
  let p ← plan.methods.head?
  let h ← retiring.deliver p.body
  let answers : List ScriptedAnswer := rows.map fun n => ⟨none, [], n, -1, [], []⟩
  let db : Database ScriptedEngine :=
    { (Database.new (.new ⟨answers, [], [], [], []⟩ false)) with statements := [.new "" 1, .new "" 1] }
  return match h.work with
    | ⟨.integer _, run⟩ => some (Database.runIn retiring.engine h.inTransaction run db).1.result
    | _ => none

example : retired [1, 2, 3] = some (some (.ok 6)) := by decide +kernel

example : retired [200, 50, 9] = some (some (.error (.rowCountOverflow 259 .u8))) := by decide +kernel

end Shortcut

end DataAccess
