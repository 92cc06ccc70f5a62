import DataAccess.Proofs.Compile.Outcome
import DataAccess.Proofs.Compile.Variables

/-!
This module contains what becomes of parameters when work goes to another thread, where what the caller lent
may be gone. Queries bind their arguments before, and what goes to the other thread reads nothing but what
it takes along; shortcuts and transactions take their parameters along, none of which is borrowed. Main
statement: this holds of every method of a plan whose work is moved.
-/

namespace DataAccess

open Code (Block Expr Read Stmt scopeAfter mem_scopeAfter stmtReads)

/-- A body has a name for something of its own: for a variable that some of its code has in scope, for the
implementation or for the callback. -/
def Code.Block.Introduces (b : Block) (name : String) : Prop :=
  name = "self" ∨ name = callbackName ∨ ∃ r ∈ b.reads [], name ∈ r.scope

instance (b : Block) (name : String) : Decidable (b.Introduces name) :=
  inferInstanceAs (Decidable (name = "self" ∨ name = callbackName ∨ ∃ r ∈ b.reads [], name ∈ r.scope))

def MethodKind.MovesParameters : MethodKind → Prop
  | read _ _ _ _ | write _ | raw _ _ _ | delegate _ => False
  | insert _ _ | delete _ | update _ _ | upsert _ | transaction _ => True

/-- A planned method hands work over to another thread that reads nothing that the caller lent: all reads of
parameters are in the setup before, or else the parameters own what they hold. -/
def MethodPlan.ReadsNothingLent (p : MethodPlan) : Prop :=
  ∃ setup v, p.body.HandsOver setup v p.method.delivery ∧
    (¬p.method.kind.MovesParameters → ∀ q ∈ p.method.params,
      (∀ r ∈ p.body.reads [], r.name = q.name → r ∈ stmtReads [] setup) ∧
        ∀ r ∈ v.block.reads (scopeAfter [] setup), r.name ≠ q.name) ∧
    (p.method.kind.MovesParameters → ∀ q ∈ p.method.params, q.isBorrowed = false)

theorem BoundStatement.mem_scopeAfter_emit (s : BoundStatement) (source : StatementSource)
    : "_statement" ∈ scopeAfter [] (s.emit source) := by
  rw [mem_scopeAfter]
  left
  unfold emit
  split
  . refine ⟨.bind true "_statement" none (.call .acquire [.var "_sql", .var "_arg_count"]), ?_, ?_⟩
    . simp [emitExpanded]
    . simp
  . refine ⟨.bind (s.argCount != 0) "_statement" none (s.fixedStatement source), ?_, ?_⟩
    . simp [emitFixed]
    . simp

theorem RawQuery.mem_scopeAfter_statement (q : RawQuery)
    : "_statement" ∈ scopeAfter [] q.statement.moved.1 := by
  unfold RawQuery.statement
  cases q.source with
  | text | owned | borrowed | missing => simp [ReadStatement.moved]

namespace Reading

variable {scope : List String} {handle statement signal : Expr}

theorem isLocal_of_mem_consume (shape : Shape) (names : List String) (streaming : Bool)
    (hhandle : ∀ r ∈ handle.reads scope, r.IsLocal)
    (hstatement : ∀ more, ∀ r ∈ statement.reads (more ++ scope), r.IsLocal)
    (hsignal : ∀ r ∈ signal.reads scope, r.IsLocal)
    : ∀ r ∈ (consume handle statement signal shape (shape.row.readWith names) streaming).reads scope,
        r.IsLocal := by
  have hrow (s : List String) (hs : "_cursor" ∈ s)
      : (∀ r ∈ (shape.row.readWith names).value.reads s, r.IsLocal) ∧
        ∀ r ∈ (shape.row.readWith names).optional.reads s, r.IsLocal := by
    cases shape.row with
    | entity => simp [Row.readWith, RowRead.ofEntity, RowCode.cursorVar, hs]
    | scalar => simp [Row.readWith, RowRead.ofScalar, RowCode.cursorVar, hs]
  have hmissing : ∀ r ∈ (missing statement streaming).reads ("_cursor" :: scope), r.IsLocal := by
    cases streaming with
    | false => exact hstatement ["_cursor"]
    | true => simp [missing]
  have hrows : ∀ r ∈ stmtReads ("_cursor" :: scope)
      (readRows shape (shape.row.readWith names) (missing statement streaming)), r.IsLocal := by
    have hfirst := hrow ("_cursor" :: scope) (by simp)
    have hmore := hrow ("_result" :: "_cursor" :: scope) (by simp)
    unfold readRows
    cases shape.multiplicity with
    | single => simpa [nextRow, RowCode.cursorVar, or_imp, forall_and] using ⟨hfirst.1, hmissing⟩
    | optional => simpa [nextRow, RowCode.cursorVar, Block.reads_ofExpr, or_imp, forall_and] using hfirst.2
    | list => simpa [nextRow, RowCode.cursorVar, or_imp, forall_and] using hmore.1
  have hquery : ∀ r ∈ statement.reads scope, r.IsLocal := hstatement []
  unfold consume
  cases streaming with
  | false | true =>
    simpa [RowCode.cursorVar, or_imp, forall_and, scopeAfter_readRows]
      using ⟨hhandle, hquery, hsignal, hrows⟩

end Reading

namespace Work

variable {w : Work} {delivery : Delivery}

theorem mem_scope_of_setup (w : Work) {name : String} (h : name ∈ scopeAfter [] w.setup)
    : name ∈ w.scope delivery := by
  have hcapture : name ∈ scopeAfter (scopeAfter [] w.setup) w.capture := mem_scopeAfter.2 (Or.inr h)
  cases delivery with
  | direct => exact h
  | future | suspend => exact List.mem_cons_of_mem _ hcapture
  | stream => exact hcapture

theorem mem_scope_of_capture (w : Work) {name : String} (hasync : delivery ≠ .direct)
    (h : ∃ s ∈ w.capture, name ∈ s.declares) : name ∈ w.scope delivery := by
  have hcapture : name ∈ scopeAfter (scopeAfter [] w.setup) w.capture := mem_scopeAfter.2 (Or.inl h)
  cases delivery with
  | direct => exact absurd rfl hasync
  | future | suspend => exact List.mem_cons_of_mem _ hcapture
  | stream => exact hcapture

/-- Work that takes no variables from outside reads no parameter on the other thread. -/
theorem moves_no_read {body : Block} (h : w.Delivers delivery body) (hasync : delivery ≠ .direct)
    (hcapture : ∀ scope, ∀ r ∈ stmtReads scope w.capture, r.name = "self")
    (hlocal : ∀ r ∈ w.body.reads (w.scope delivery), r.IsLocal) {name : String}
    (hname : ¬body.Introduces name)
    : (∀ r ∈ body.reads [], r.name = name → r ∈ stmtReads [] w.setup) ∧
        ∀ r ∈ (w.onItsWay delivery).block.reads (scopeAfter [] w.setup), r.name ≠ name := by
  simp only [Code.Block.Introduces, not_or] at hname
  obtain ⟨hself, hcallback, hscope⟩ := hname
  have hwork : ∀ r ∈ w.body.reads (w.scope delivery), r.name ≠ name := by
    rintro r hr rfl
    have hmem := (h.mem_reads hcapture hself hcallback).2 (Or.inr hr)
    exact hscope ⟨r, hmem, hlocal r hr⟩
  constructor
  . rintro r hr rfl
    rcases (h.mem_reads hcapture hself hcallback).1 hr with hr | hr
    . exact hr
    . exact absurd rfl (hwork r hr)
  . rw [w.reads_onItsWay hasync]
    intro r hr
    rcases List.mem_append.1 hr with hr | hr
    . rw [hcapture _ r hr]
      exact Ne.symm hself
    . exact hwork r hr

end Work

theorem Reading.isLocal_of_work {delivery : Delivery} (hasync : delivery ≠ .direct) (s : ReadStatement)
    (hstatement : "_statement" ∈ scopeAfter [] s.moved.1) (shape : Shape) (names : List String)
    (inTransaction : Bool)
    : let w := work delivery s shape (shape.row.readWith names) inTransaction
      ∀ r ∈ w.body.reads (w.scope delivery), r.IsLocal := by
  intro w
  have hdelivered : s.forDelivery delivery = s.moved := by
    cases delivery with
    | direct => exact absurd rfl hasync
    | future | suspend | stream => rfl
  have hsetup : w.setup = s.moved.1 := congrArg Prod.fst hdelivered
  have hbody : w.body = consume (.var "__db") (.borrow BoundStatement.statementVar)
      (signalFor delivery) shape (shape.row.readWith names) (delivery == .stream) := by
    have hvariable : s.moved.2 = .borrow BoundStatement.statementVar := by
      cases s with
      | owned | borrowed => rfl
    have hhandle : handleFor delivery = .var "__db" := by
      cases delivery with
      | direct => exact absurd rfl hasync
      | future | suspend | stream => rfl
    change consume (handleFor delivery) (s.forDelivery delivery).2 _ _ _ _ = _
    rw [hdelivered, hvariable, hhandle]
  rw [hbody]
  have hdb : "__db" ∈ w.scope delivery := by
    apply w.mem_scope_of_capture hasync
    exact ⟨captureHandle, List.mem_singleton.2 rfl, List.mem_singleton.2 rfl⟩
  have hdeclared : "_statement" ∈ w.scope delivery := w.mem_scope_of_setup (hsetup ▸ hstatement)
  apply isLocal_of_mem_consume
  . simpa using hdb
  . intro more
    simp [BoundStatement.statementVar, hdeclared]
  . cases delivery with
    | direct => exact absurd rfl hasync
    | future | suspend => simp [signalFor, Work.scope]
    | stream => simp [signalFor]

theorem WriteQuery.isLocal_of_work (q : WriteQuery) {m : Method} (hasync : m.delivery ≠ .direct)
    (source : StatementSource)
    : ∀ r ∈ (q.work m source).body.reads ((q.work m source).scope m.delivery), r.IsLocal := by
  let w := q.work m source
  have hdb : "__db" ∈ w.scope m.delivery := by
    apply w.mem_scope_of_capture hasync
    exact ⟨captureHandle, List.mem_singleton.2 rfl, List.mem_singleton.2 rfl⟩
  have hstatement : "_statement" ∈ w.scope m.delivery :=
    w.mem_scope_of_setup (q.statement.mem_scopeAfter_emit source)
  have hhandle : handleFor m.delivery = .var "__db" := by
    cases hdelivery : m.delivery with
    | direct => exact absurd hdelivery hasync
    | future | suspend | stream => rfl
  change ∀ r ∈ (q.run m.delivery).reads (w.scope m.delivery), r.IsLocal
  generalize w.scope m.delivery = scope at hdb hstatement
  unfold run
  rw [hhandle]
  cases q.result with
  | unit | count | rowId =>
    simp [BoundStatement.statementVar, Code.exprReads_eq_flatMap, or_imp, forall_and, hdb, hstatement]

/-- A method off the caller's thread delivers work, which takes no variables from outside unless the
parameters go where it is done. -/
theorem Classified.delivers_code {c : Classified} {interface : String} {names : List String}
    {body : Block} (h : c.code interface names = .ok body) (hasync : c.method.delivery ≠ .direct)
    (hsupports : c.category.supports c.method.delivery = true)
    : ∃ w : Work, w.Delivers c.method.delivery body ∧
        (∀ scope, ∀ r ∈ stmtReads scope w.capture, r.name = "self") ∧
        (c.category.movesParameters = false →
          ∀ r ∈ w.body.reads (w.scope c.method.delivery), r.IsLocal) := by
  obtain ⟨m, category, unused⟩ := c
  unfold code at h
  cases category with
  | read q =>
    cases h
    refine ⟨_, Reading.delivers_code _ _ _ _ _ _, name_of_reads_captureHandle, fun _ => ?_⟩
    have hstatement := q.statement.mem_scopeAfter_emit .fresh
    exact Reading.isLocal_of_work hasync (.owned (q.statement.emit .fresh)) hstatement _ _ _
  | write q =>
    refine ⟨_, Work.delivers_of_deliver h, name_of_reads_captureHandle, fun _ => ?_⟩
    exact q.isLocal_of_work hasync _
  | shortcut s => exact ⟨_, Work.delivers_of_deliver h, name_of_reads_captureSelf, nofun⟩
  | transaction function => exact ⟨_, Work.delivers_of_deliver h, name_of_reads_captureSelf, nofun⟩
  | raw q =>
    cases h
    refine ⟨_, Reading.delivers_code _ _ _ _ _ _, name_of_reads_captureHandle, fun _ => ?_⟩
    exact Reading.isLocal_of_work hasync _ q.mem_scopeAfter_statement _ _ _
  | delegate target => exact absurd (beq_iff_eq.1 hsupports) hasync

namespace Interface

variable {i : Interface} {plan : Plan}

theorem movesParameters_iff {m : Method} {c : Category} (h : i.resolve m = .ok c)
    : c.movesParameters = true ↔ m.kind.MovesParameters := by
  cases resolved_of_resolve h with
  | shortcut hkind =>
    cases hmethod : m.kind with
    | insert | delete | update | upsert => simp [Category.movesParameters, MethodKind.MovesParameters]
    | read | write | transaction | raw | delegate =>
      rw [hmethod] at hkind
      cases hkind
  | read hkind | write hkind | transaction hkind | raw hkind | delegate hkind =>
    simp [hkind, Category.movesParameters, MethodKind.MovesParameters]

theorem isBorrowed_of_classify {m : Method} {c : Classified} (h : i.classify m = .ok c)
    (hasync : m.delivery ≠ .direct) (hmoves : c.category.movesParameters = true)
    : ∀ q ∈ m.params, q.isBorrowed = false := by
  obtain ⟨_, _, _, hproblems⟩ := problems_of_classify h
  have hisAsync : m.delivery.isAsync = true := by
    cases hdelivery : m.delivery with
    | direct => exact absurd hdelivery hasync
    | future | suspend | stream => rfl
  unfold deliveryProblems at hproblems
  split at hproblems
  . cases hproblems
  . rw [if_pos (by simp [hisAsync, hmoves]), List.map_eq_nil_iff, List.filter_eq_nil_iff] at hproblems
    intro q hq
    simpa using hproblems q hq

/-- Work that leaves the caller's thread reads nothing that the caller lent, as long as parameters do not
have names that the code uses for something of its own. -/
theorem moved_work_reads_nothing_lent (i : Interface) (options : Options)
    (h : i.plan options = .ok plan) {p : MethodPlan} (hp : p ∈ plan.methods)
    (hasync : p.method.delivery ≠ .direct) (hnames : ∀ q ∈ p.method.params, ¬p.body.Introduces q.name)
    : p.ReadsNothingLent := by
  obtain ⟨c, names, hclassify, hmethod, _, hcode⟩ := code_of_plan h hp
  obtain ⟨_, hresolve, hsupports⟩ := classify_eq_ok hclassify
  unfold MethodPlan.ReadsNothingLent
  rw [← movesParameters_iff hresolve]
  rw [← hmethod] at hasync hsupports
  obtain ⟨w, hdelivers, hcapture, hlocal⟩ := Classified.delivers_code hcode hasync hsupports
  rw [hmethod] at hasync hdelivers hlocal
  refine ⟨w.setup, w.onItsWay p.method.delivery, hdelivers.handsOver hasync, ?_, ?_⟩
  . intro hstays q hq
    have hwork := hlocal (Bool.not_eq_true _ ▸ hstays)
    exact Work.moves_no_read hdelivers hasync hcapture hwork (hnames q hq)
  . exact isBorrowed_of_classify hclassify hasync

/-- An interface whose methods all work off the caller's thread, on arguments that the caller lends as far as
that is possible. -/
def lentNames : Interface :=
  let text : Code.TypeExpr := .path false [.mk "str" .none]
  let user : Code.TypeExpr := .path false [.mk "User" .none]
  let query : Code.TypeExpr := .path false [.mk "SqlQuery" .none]
  let lent (name : String) (type : Code.TypeExpr) : Parameter := ⟨name, .reference none false type, false, none⟩
  let all : Parameter := ⟨"names", .reference none false (.slice text), true, none⟩
  { name := "Users"
    entities := [⟨"User", "user", [⟨"name", "name", false, none⟩], ["name"], none⟩]
    converters := []
    backing := none
    methods :=
      [⟨"named", [lent "name" text], some user, .stream,
        .read "SELECT * FROM user WHERE name = :name" none [] true⟩,
       ⟨"rename", [lent "name" text], none, .suspend, .write "UPDATE user SET name = :name"⟩,
       ⟨"forget", [all], none, .future, .write "DELETE FROM user WHERE name IN (:names)"⟩,
       ⟨"find", [lent "query" query], some user, .future, .raw (some "query") none []⟩,
       ⟨"add", [⟨"user", user, false, none⟩], none, .suspend, .insert [⟨"user", "User", false⟩] .abort⟩,
       ⟨"merge", [⟨"user", user, false, none⟩], none, .future,
        .transaction ⟨false, [.mk "merge" .none]⟩⟩] }

theorem lentNames_reads_nothing_lent
    : ∃ plan, lentNames.plan .standard = .ok plan ∧ plan.methods.length = 6 ∧
        ∀ p ∈ plan.methods, p.method.delivery ≠ .direct ∧
          (∀ q ∈ p.method.params, ¬p.body.Introduces q.name) ∧ p.ReadsNothingLent := by
  have hmethods : (lentNames.plan .standard).toOption.map (fun plan =>
      decide (plan.methods.length = 6 ∧ ∀ p ∈ plan.methods,
        p.method.delivery ≠ .direct ∧ ∀ q ∈ p.method.params, ¬p.body.Introduces q.name)) = some true := by
    decide +kernel
  cases hplan : lentNames.plan .standard with
  | error =>
    rw [hplan] at hmethods
    cases hmethods
  | ok plan =>
    rw [hplan] at hmethods
    obtain ⟨hlength, hall⟩ := of_decide_eq_true (Option.some.inj hmethods)
    refine ⟨plan, rfl, hlength, ?_⟩
    intro p hp
    obtain ⟨hasync, hnames⟩ := hall p hp
    exact ⟨hasync, hnames, moved_work_reads_nothing_lent lentNames .standard hplan hp hasync hnames⟩

end Interface

end DataAccess
