import DataAccess.Proofs.Compile.Written

/-!
This module contains the variables that code reads. A read is told with the variables that the code around
it has declared by then, since it is among these that its name is looked up first. Main statement: delivered
work reads what its setup reads, and then what the work itself reads in the scope that it is delivered in.
-/

namespace DataAccess

namespace Code

structure Read where
  name : String
  scope : List String
deriving DecidableEq

def Stmt.declares : Stmt → List String
  | .bind _ name _ _ => [name]
  | _ => []

def Read.IsLocal (r : Read) : Prop :=
  r.name ∈ r.scope

@[simp]
theorem Read.isLocal_mk (name : String) (scope : List String)
    : (Read.mk name scope).IsLocal ↔ name ∈ scope :=
  Iff.rfl

def scopeAfter (scope : List String) : List Stmt → List String
  | [] => scope
  | s :: rest => scopeAfter (s.declares ++ scope) rest

mutual

def Expr.reads (scope : List String) : Expr → List Read
  | .var name => [⟨name, scope⟩]
  | .text _ | .number _ _ | .bool _ | .unit | .none | .function _ => []
  | .field e _ => e.reads scope
  | .call _ args => exprReads scope args
  | .method receiver _ args => receiver.reads scope ++ exprReads scope args
  | .borrow e | .borrowMut e | .attempt e | .ok e | .err e | .some e | .missingResult e => e.reads scope
  | .add a b => a.reads scope ++ b.reads scope
  | .array items => exprReads scope items
  | .record _ fields => fieldReads scope fields
  | .block b => b.reads scope
  | .ifElse condition yes no => condition.reads scope ++ yes.reads scope ++ no.reads scope
  | .matchOption e binder present absent =>
    e.reads scope ++ present.reads (binder :: scope) ++ absent.reads scope
  | .closure _ params _ body => body.reads (params.map Prod.fst ++ scope)

def exprReads (scope : List String) : List Expr → List Read
  | [] => []
  | e :: rest => e.reads scope ++ exprReads scope rest

def FieldInit.reads (scope : List String) : FieldInit → List Read
  | .mk _ value => value.reads scope

def fieldReads (scope : List String) : List FieldInit → List Read
  | [] => []
  | f :: rest => f.reads scope ++ fieldReads scope rest

def Stmt.reads (scope : List String) : Stmt → List Read
  | .bind _ _ _ value => value.reads scope
  | .addTo name value => ⟨name, scope⟩ :: value.reads scope
  | .run e | .runBlock e | .ret e => e.reads scope
  | .forIn name items body => items.reads scope ++ stmtReads (name :: scope) body
  | .whileLoop condition body => condition.reads scope ++ stmtReads scope body

def stmtReads (scope : List String) : List Stmt → List Read
  | [] => []
  | s :: rest => s.reads scope ++ stmtReads (s.declares ++ scope) rest

def Block.reads (scope : List String) : Block → List Read
  | .mk statements none => stmtReads scope statements
  | .mk statements (some result) => stmtReads scope statements ++ result.reads (scopeAfter scope statements)

end

attribute [simp] Stmt.declares scopeAfter Expr.reads exprReads FieldInit.reads fieldReads Stmt.reads
  stmtReads Block.reads

@[simp]
theorem scopeAfter_append (scope : List String) (front rest : List Stmt)
    : scopeAfter scope (front ++ rest) = scopeAfter (scopeAfter scope front) rest := by
  induction front generalizing scope with
  | nil => rfl
  | cons s front ih => exact ih (s.declares ++ scope)

@[simp]
theorem stmtReads_append (scope : List String) (front rest : List Stmt)
    : stmtReads scope (front ++ rest) = stmtReads scope front ++ stmtReads (scopeAfter scope front) rest := by
  induction front generalizing scope with
  | nil => rfl
  | cons s front ih => simp [ih]

theorem mem_scopeAfter {scope : List String} {statements : List Stmt} {name : String}
    : name ∈ scopeAfter scope statements ↔ (∃ s ∈ statements, name ∈ s.declares) ∨ name ∈ scope := by
  induction statements generalizing scope with
  | nil => simp
  | cons s rest ih =>
    rw [scopeAfter, ih, List.mem_append]
    simp only [List.mem_cons, exists_eq_or_imp]
    rw [← or_assoc, or_comm (b := name ∈ s.declares)]

theorem exprReads_eq_flatMap (scope : List String) (items : List Expr)
    : exprReads scope items = items.flatMap (·.reads scope) := by
  induction items with
  | nil => rfl
  | cons e rest ih => rw [exprReads, ih, List.flatMap_cons]

theorem stmtReads_eq_flatMap {statements : List Stmt} (h : ∀ s ∈ statements, s.declares = [])
    (scope : List String)
    : stmtReads scope statements = statements.flatMap (·.reads scope) ∧
        scopeAfter scope statements = scope := by
  induction statements with
  | nil => exact ⟨rfl, rfl⟩
  | cons s rest ih =>
    obtain ⟨hreads, hscope⟩ := ih fun s hs => h s (List.mem_cons_of_mem _ hs)
    rw [stmtReads, scopeAfter, h s List.mem_cons_self, List.nil_append, hreads, hscope]
    exact ⟨rfl, rfl⟩

@[simp]
theorem exprReads_of_texts (scope : List String) (texts : List String)
    : exprReads scope (texts.map .text) = [] := by
  simp [exprReads_eq_flatMap]

@[simp]
theorem Block.reads_prepend (scope : List String) (front : List Stmt) (b : Block)
    : (b.prepend front).reads scope = stmtReads scope front ++ b.reads (scopeAfter scope front) := by
  obtain ⟨statements, _ | result⟩ := b
  . simp [Block.prepend, Block.statements, Block.result]
  . simp [Block.prepend, Block.statements, Block.result]

theorem Block.reads_ofExpr (scope : List String) (e : Expr) : (Block.ofExpr e).reads scope = e.reads scope :=
  rfl

/-- Work on its way to another thread: what is captured for it, and the closure that takes it along. -/
structure MovedWork where
  capture : List Stmt
  params : List (String × CodeType)
  result : Option CodeType
  work : Block

def MovedWork.block (v : MovedWork) : Block :=
  .mk v.capture (some (.closure true v.params v.result v.work))

/-- A body does a setup, and then hands work over to another thread. -/
inductive Block.HandsOver (setup : List Stmt) (v : MovedWork) : Delivery → Block → Prop where
  | future (inTransaction : Bool) :
    HandsOver setup v .future
      (.mk setup (some (.call .createFuture [.borrow ownHandle, .bool inTransaction, .block v.block])))
  | suspend (inTransaction : Bool) :
    HandsOver setup v .suspend
      (.mk (setup ++ [.run (.call .launch
        [.borrow ownHandle, .bool inTransaction, .var callbackName, .block v.block])]) none)
  | stream (inTransaction : Bool) (tables : List String) :
    HandsOver setup v .stream
      (.mk setup (some (.call .createStream
        [.borrow ownHandle, .bool inTransaction, .borrow (.array (tables.map .text)), .block v.block])))

theorem Block.HandsOver.mem_reads {setup : List Stmt} {v : MovedWork} {delivery : Delivery}
    {body : Block} (h : body.HandsOver setup v delivery) {r : Read} (hself : r.name ≠ "self")
    (hcallback : r.name ≠ callbackName)
    : r ∈ body.reads [] ↔ r ∈ stmtReads [] setup ∨ r ∈ v.block.reads (scopeAfter [] setup) := by
  have hown (scope : List String) : r ≠ ⟨"self", scope⟩ := fun heq => hself (congrArg Read.name heq)
  have hcalled (scope : List String) : r ≠ ⟨callbackName, scope⟩ :=
    fun heq => hcallback (congrArg Read.name heq)
  cases h with
  | future => simp [ownHandle, hown]
  | suspend => simp [ownHandle, hown, hcalled]
  | stream => simp [ownHandle, hown]

end Code

open Code (Block Expr MovedWork Read Stmt scopeAfter stmtReads)

namespace Work

variable {w : Work} {delivery : Delivery} {body : Block}

inductive Delivers (w : Work) : Delivery → Block → Prop where
  | direct : Delivers w .direct w.direct
  | future : Delivers w .future w.future
  | suspend : Delivers w .suspend w.suspend
  | stream (tables : List String) : Delivers w .stream (w.stream tables)

theorem delivers_of_deliver {m : Method} {category : String} (h : w.deliver m category = .ok body)
    : w.Delivers m.delivery body := by
  unfold deliver at h
  cases hdelivery : m.delivery with
  | direct =>
    rw [hdelivery] at h
    cases h
    exact .direct
  | future =>
    rw [hdelivery] at h
    cases h
    exact .future
  | suspend =>
    rw [hdelivery] at h
    cases h
    exact .suspend
  | stream =>
    rw [hdelivery] at h
    cases h

/-- Work on its way to another thread. It listens to a signal, except in a stream. -/
def onItsWay (w : Work) : Delivery → MovedWork
  | .stream => ⟨w.capture, [], some (.result (.option w.value)), w.body⟩
  | _ => ⟨w.capture, [signalParam], some (.result w.value), w.body⟩

theorem Delivers.handsOver (h : w.Delivers delivery body) (hasync : delivery ≠ .direct)
    : body.HandsOver w.setup (w.onItsWay delivery) delivery := by
  cases h with
  | direct => exact absurd rfl hasync
  | future => exact .future w.inTransaction
  | suspend => exact .suspend w.inTransaction
  | stream tables => exact .stream w.inTransaction tables

def scope (w : Work) : Delivery → List String
  | .direct => scopeAfter [] w.setup
  | .future | .suspend => "_signal" :: scopeAfter (scopeAfter [] w.setup) w.capture
  | .stream => scopeAfter (scopeAfter [] w.setup) w.capture

theorem reads_onItsWay (w : Work) (hasync : delivery ≠ .direct)
    : (w.onItsWay delivery).block.reads (scopeAfter [] w.setup)
        = stmtReads (scopeAfter [] w.setup) w.capture ++ w.body.reads (w.scope delivery) := by
  cases delivery with
  | direct => exact absurd rfl hasync
  | future | suspend | stream => simp [onItsWay, MovedWork.block, scope, signalParam]

theorem Delivers.mem_reads (h : w.Delivers delivery body)
    (hcapture : ∀ scope, ∀ r ∈ stmtReads scope w.capture, r.name = "self") {r : Read}
    (hself : r.name ≠ "self") (hcallback : r.name ≠ callbackName)
    : r ∈ body.reads [] ↔ r ∈ stmtReads [] w.setup ∨ r ∈ w.body.reads (w.scope delivery) := by
  by_cases hasync : delivery = .direct
  . subst hasync
    cases h
    unfold Work.direct scope
    split
    . have hown : r ≠ ⟨"self", scopeAfter [] w.setup⟩ := fun heq => hself (congrArg Read.name heq)
      simp [ownHandle, hown]
    . simp
  . have hnot : r ∉ stmtReads (scopeAfter [] w.setup) w.capture := fun hr => hself (hcapture _ r hr)
    rw [(h.handsOver hasync).mem_reads hself hcallback, w.reads_onItsWay hasync]
    simp [hnot]

end Work

theorem Reading.delivers_code (delivery : Delivery) (s : ReadStatement) (shape : Shape)
    (tables : List String) (inTransaction : Bool) (names : List String)
    : (work delivery s shape (shape.row.readWith names) inTransaction).Delivers delivery
        (code delivery s shape tables inTransaction names) := by
  cases delivery with
  | direct => exact .direct
  | future => exact .future
  | suspend => exact .suspend
  | stream => exact .stream tables

theorem Reading.scopeAfter_readRows (scope : List String) (shape : Shape) (row : RowRead) (missing : Stmt)
    : scopeAfter scope (readRows shape row missing) = "_result" :: scope := by
  unfold readRows
  cases shape.multiplicity with
  | single | optional | list => rfl

theorem name_of_reads_captureHandle (scope : List String) : ∀ r ∈ stmtReads scope [captureHandle],
    r.name = "self" := by
  simp [captureHandle, ownHandle]

theorem name_of_reads_captureSelf (scope : List String) : ∀ r ∈ stmtReads scope [captureSelf],
    r.name = "self" := by
  simp [captureSelf]

end DataAccess
