import DataAccess.Proofs.Compile.Written

/-!
This module contains methods under other names of their parameters, and among these the names with a mark,
which no name in the code of a method has. The code with marks tells where parameters are read from where
something of the same name is. Main statement: it is the code of the method once the marks are taken off.
-/

namespace DataAccess

namespace Code

mutual

def Expr.renameReads (f : String → String) : Expr → Expr
  | .var name => .var (f name)
  | .text value => .text value
  | .number n typed => .number n typed
  | .bool b => .bool b
  | .unit => .unit
  | .field e name => .field (e.renameReads f) name
  | .call function args => .call function (renameExprReads f args)
  | .function function => .function function
  | .method receiver m args => .method (receiver.renameReads f) m (renameExprReads f args)
  | .borrow e => .borrow (e.renameReads f)
  | .borrowMut e => .borrowMut (e.renameReads f)
  | .attempt e => .attempt (e.renameReads f)
  | .add a b => .add (a.renameReads f) (b.renameReads f)
  | .array items => .array (renameExprReads f items)
  | .ok e => .ok (e.renameReads f)
  | .err e => .err (e.renameReads f)
  | .some e => .some (e.renameReads f)
  | .none => .none
  | .missingResult statement => .missingResult (statement.renameReads f)
  | .record name fields => .record name (renameFieldReads f fields)
  | .block b => .block (b.renameReads f)
  | .ifElse condition yes no =>
    .ifElse (condition.renameReads f) (yes.renameReads f) (no.renameReads f)
  | .matchOption e binder present absent =>
    .matchOption (e.renameReads f) binder (present.renameReads f) (absent.renameReads f)
  | .closure moves params result body => .closure moves params result (body.renameReads f)

def renameExprReads (f : String → String) : List Expr → List Expr
  | [] => []
  | e :: rest => e.renameReads f :: renameExprReads f rest

def FieldInit.renameReads (f : String → String) : FieldInit → FieldInit
  | .mk name value => .mk name (value.renameReads f)

def renameFieldReads (f : String → String) : List FieldInit → List FieldInit
  | [] => []
  | init :: rest => init.renameReads f :: renameFieldReads f rest

def Stmt.renameReads (f : String → String) : Stmt → Stmt
  | .bind mutable name type value => .bind mutable name type (value.renameReads f)
  | .run e => .run (e.renameReads f)
  | .runBlock e => .runBlock (e.renameReads f)
  | .addTo name value => .addTo (f name) (value.renameReads f)
  | .forIn name items body => .forIn name (items.renameReads f) (renameStmtReads f body)
  | .whileLoop condition body => .whileLoop (condition.renameReads f) (renameStmtReads f body)
  | .ret e => .ret (e.renameReads f)

def renameStmtReads (f : String → String) : List Stmt → List Stmt
  | [] => []
  | s :: rest => s.renameReads f :: renameStmtReads f rest

def Block.renameReads (f : String → String) : Block → Block
  | .mk statements none => .mk (renameStmtReads f statements) none
  | .mk statements (some result) => .mk (renameStmtReads f statements) (some (result.renameReads f))

end

attribute [simp] Expr.renameReads renameExprReads FieldInit.renameReads renameFieldReads
  Stmt.renameReads renameStmtReads Block.renameReads

variable {f : String → String}

theorem renameStmtReads_eq_map (statements : List Stmt)
    : renameStmtReads f statements = statements.map (·.renameReads f) := by
  induction statements with
  | nil => rfl
  | cons s rest ih => rw [renameStmtReads, ih, List.map_cons]

theorem renameExprReads_eq_map (items : List Expr)
    : renameExprReads f items = items.map (·.renameReads f) := by
  induction items with
  | nil => rfl
  | cons e rest ih => rw [renameExprReads, ih, List.map_cons]

@[simp]
theorem renameStmtReads_append (front rest : List Stmt)
    : renameStmtReads f (front ++ rest) = renameStmtReads f front ++ renameStmtReads f rest := by
  simp [renameStmtReads_eq_map]

@[simp]
theorem renameExprReads_texts (texts : List String)
    : renameExprReads f (texts.map .text) = texts.map .text := by
  simp [renameExprReads_eq_map]

@[simp]
theorem Block.renameReads_prepend (front : List Stmt) (b : Block)
    : (b.prepend front).renameReads f = (b.renameReads f).prepend (renameStmtReads f front) := by
  obtain ⟨statements, _ | result⟩ := b
  . simp [Block.prepend, Block.statements, Block.result]
  . simp [Block.prepend, Block.statements, Block.result]

theorem Block.renameReads_ofExpr (e : Expr)
    : (Block.ofExpr e).renameReads f = Block.ofExpr (e.renameReads f) := rfl

end Code

open Code (Block Expr Stmt renameStmtReads renameStmtReads_eq_map renameExprReads_eq_map)

def mark (name : String) : String :=
  " " ++ name

def IsMarked (name : String) : Prop :=
  name.toList.head? = some ' '

instance (name : String) : Decidable (IsMarked name) :=
  inferInstanceAs (Decidable (_ = _))

def unmark (name : String) : String :=
  if IsMarked name then String.ofList name.toList.tail else name

theorem isMarked_mark (name : String) : IsMarked (mark name) := by
  simp [IsMarked, mark]

theorem unmark_mark (name : String) : unmark (mark name) = name := by
  unfold unmark
  rw [if_pos (isMarked_mark name)]
  simp [mark]

theorem unmark_eq_self {name : String} (h : ¬IsMarked name) : unmark name = name :=
  if_neg h

theorem mark_injective {name name' : String} (h : mark name = mark name') : name = name' := by
  rw [← unmark_mark name, h, unmark_mark]

section Renamed

variable (f : String → String)

def Parameter.renamed (p : Parameter) : Parameter :=
  { p with name := f p.name }

def Slot.renamed : Slot → Slot
  | text chars => text chars
  | param p => param (p.renamed f)

def BoundStatement.renamed (s : BoundStatement) : BoundStatement :=
  { s with slots := s.slots.map (Slot.renamed f) }

def ResolvedTarget.renamed (t : ResolvedTarget) : ResolvedTarget :=
  { t with param := t.param.renamed f }

def RawSource.renamed : RawSource → RawSource
  | text p => text (p.renamed f)
  | owned p => owned (p.renamed f)
  | borrowed p => borrowed (p.renamed f)
  | missing => missing

def Category.renamed : Category → Category
  | read q => read { q with statement := q.statement.renamed f }
  | write q => write { q with statement := q.statement.renamed f }
  | shortcut s => shortcut { s with targets := s.targets.map (ResolvedTarget.renamed f) }
  | transaction body => transaction body
  | raw q => raw { q with source := q.source.renamed f }
  | delegate target => delegate target

def Method.renamed (m : Method) : Method :=
  { m with params := m.params.map (Parameter.renamed f) }

@[simp]
theorem Method.delivery_renamed (m : Method) : (m.renamed f).delivery = m.delivery :=
  rfl

def Classified.renamed (c : Classified) : Classified :=
  { c with method := c.method.renamed f, category := c.category.renamed f }

def Classified.marked (c : Classified) : Classified :=
  c.renamed mark

end Renamed

theorem Parameter.renamed_renamed {f g : String → String} (h : ∀ name, g (f name) = name) (p : Parameter)
    : (p.renamed f).renamed g = p := by
  simp [renamed, h]

theorem Category.renamed_renamed {f g : String → String} (h : ∀ name, g (f name) = name) (c : Category)
    : (c.renamed f).renamed g = c := by
  have hparam := Parameter.renamed_renamed h
  have hstatement (s : BoundStatement) : (s.renamed f).renamed g = s := by
    have hslot (slot : Slot) : (slot.renamed f).renamed g = slot := by
      cases slot with
      | text => rfl
      | param p => exact congrArg Slot.param (hparam p)
    simp [BoundStatement.renamed, Function.comp_def, hslot]
  cases c with
  | read q | write q => simp [renamed, hstatement]
  | shortcut s => simp [renamed, Function.comp_def, ResolvedTarget.renamed, hparam]
  | transaction | delegate => rfl
  | raw q =>
    obtain ⟨source, shape, tables⟩ := q
    cases source with
    | text | owned | borrowed | missing => simp [renamed, RawSource.renamed, hparam]

theorem Classified.unmark_marked (c : Classified) : c.marked.renamed unmark = c := by
  have hcategory := c.category.renamed_renamed unmark_mark
  simp [marked, renamed, hcategory, Method.renamed, Function.comp_def,
    Parameter.renamed_renamed unmark_mark]

section Code

variable {f : String → String} (hf : ∀ name, ¬IsMarked name → f name = name)

include hf

namespace BoundStatement

variable (s : BoundStatement) (p : Parameter)

omit hf in
@[simp]
theorem params_renamed : (s.renamed f).params = s.params.map (Parameter.renamed f) := by
  unfold params renamed
  rw [List.filterMap_map, List.map_filterMap]
  congr 1
  funext slot
  cases slot with
  | text | param => rfl

omit hf in
theorem scalarValue_renamed : scalarValue (p.renamed f) = (scalarValue p).renameReads f := by
  unfold scalarValue converted
  cases hconverter : p.converter with
  | none | some => simp [Parameter.renamed, hconverter]

theorem itemValue_renamed : itemValue (p.renamed f) = (itemValue p).renameReads f := by
  unfold itemValue converted
  cases hconverter : p.converter with
  | none | some => simp [Parameter.renamed, hconverter, hf "_item" (by decide)]

theorem renameReads_bindTo (slot value : Expr)
    : (bindTo slot value).renameReads f = bindTo (slot.renameReads f) (value.renameReads f) := by
  simp [bindTo, statementVar, hf "_statement" (by decide)]

theorem emitFixed_renamed (source : StatementSource)
    : (s.renamed f).emitFixed source = renameStmtReads f (s.emitFixed source) := by
  have hcount : (s.renamed f).argCount = s.argCount := by simp [argCount]
  have hstatement : (s.renamed f).fixedStatement source = (s.fixedStatement source).renameReads f := by
    cases source with
    | fresh =>
      simp [fixedStatement, hcount]
      rfl
    | shared | copy => simp [fixedStatement, hf "self" (by decide)]
  unfold emitFixed
  rw [hstatement, hcount, renameStmtReads, Stmt.renameReads, params_renamed, List.zipIdx_map,
    List.map_map, renameStmtReads_eq_map, List.map_map]
  congr 1
  apply List.map_congr_left
  rintro ⟨p, k⟩ _
  rw [Function.comp_apply, Function.comp_apply, renameReads_bindTo hf, ← scalarValue_renamed]
  rfl

theorem emitText_renamed (pending : List Char) (k : Nat) (slots : List Slot)
    : emitText pending k (slots.map (Slot.renamed f)) = renameStmtReads f (emitText pending k slots) := by
  have happend (pending : List Char)
      : renameStmtReads f (appendText pending) = appendText pending := by
    unfold appendText
    split
    . simp
    . simp [hf "_string_builder" (by decide)]
  have hsize (k : Nat) : f (sizeName k) = sizeName k := by
    apply hf
    simp [IsMarked, sizeName]
  induction slots generalizing pending k with
  | nil => exact (happend pending).symm
  | cons slot rest ih =>
    cases slot with
    | text chars => exact ih (pending ++ chars) k
    | param p =>
      rw [List.map_cons, Slot.renamed, emitText, emitText]
      change (if p.multiple then _ else _) = _
      split
      . rw [ih]
        simp [happend, hsize, hf "_string_builder" (by decide), Parameter.renamed]
      . exact ih (pending ++ ['?']) k

theorem emitBinds_renamed (params : List Parameter)
    : emitBinds (params.map (Parameter.renamed f)) = renameStmtReads f (emitBinds params) := by
  have hindex : f "_arg_index" = "_arg_index" := hf "_arg_index" (by decide)
  have hadvance : advance.renameReads f = advance := by simp [advance, hindex]
  induction params with
  | nil => rfl
  | cons p rest ih =>
    rw [List.map_cons, emitBinds, emitBinds, ih, itemValue_renamed hf, scalarValue_renamed]
    change (if p.multiple then _ else _) = _
    split
    . simp [renameReads_bindTo hf, hindex, hadvance, Parameter.renamed]
    . rw [List.isEmpty_map]
      split
      . simp [renameReads_bindTo hf, hindex]
      . simp [renameReads_bindTo hf, hindex, hadvance]

omit hf in
theorem isExpandable_renamed : (s.renamed f).isExpandable = s.isExpandable := by
  unfold isExpandable
  rw [params_renamed, List.any_map]
  rfl

theorem argCountExpr_renamed : (s.renamed f).argCountExpr = s.argCountExpr.renameReads f := by
  have hsum (sizes : List Nat) (sum : Expr)
      : ((sizes.map fun k => Expr.var (sizeName (k + 1))).foldl .add sum).renameReads f
        = (sizes.map fun k => Expr.var (sizeName (k + 1))).foldl .add (sum.renameReads f) := by
    induction sizes generalizing sum with
    | nil => rfl
    | cons k rest ih =>
      have hsize : f (sizeName (k + 1)) = sizeName (k + 1) := by
        apply hf
        simp [IsMarked, sizeName]
      rw [List.map_cons, List.foldl_cons, List.foldl_cons, ih, Expr.renameReads, Expr.renameReads, hsize]
  unfold argCountExpr
  dsimp only
  rw [hsum, params_renamed, List.filter_map, List.filter_map, List.length_map, List.length_map]
  rfl

theorem emit_renamed (source : StatementSource)
    : (s.renamed f).emit source = renameStmtReads f (s.emit source) := by
  unfold emit
  rw [isExpandable_renamed]
  split
  . unfold emitExpanded
    rw [argCountExpr_renamed hf, params_renamed, emitBinds_renamed hf]
    simp [renamed, emitText_renamed hf, hf "_string_builder" (by decide), hf "_sql" (by decide),
      hf "_arg_count" (by decide)]
  . exact s.emitFixed_renamed hf source

end BoundStatement

namespace Work

omit hf in
def renameReads (f : String → String) (w : Work) : Work :=
  { w with
    setup := renameStmtReads f w.setup
    capture := renameStmtReads f w.capture
    body := w.body.renameReads f }

variable (w : Work)

theorem direct_renameReads : (w.renameReads f).direct = w.direct.renameReads f := by
  unfold direct
  by_cases h : w.inTransaction = true
  . rw [if_pos h, if_pos (show (w.renameReads f).inTransaction = true from h)]
    simp [renameReads, ownHandle, hf "self" (by decide)]
  . rw [if_neg h, if_neg (show ¬(w.renameReads f).inTransaction = true from h)]
    simp [renameReads]

theorem future_renameReads : (w.renameReads f).future = w.future.renameReads f := by
  simp [future, moved, renameReads, ownHandle, hf "self" (by decide)]

theorem suspend_renameReads : (w.renameReads f).suspend = w.suspend.renameReads f := by
  simp [suspend, moved, renameReads, ownHandle, hf "self" (by decide), hf callbackName (by decide)]

theorem stream_renameReads (tables : List String)
    : (w.renameReads f).stream tables = (w.stream tables).renameReads f := by
  simp [stream, moved, renameReads, ownHandle, hf "self" (by decide)]

theorem deliver_renameReads (m : Method) (category : String)
    : (w.renameReads f).deliver (m.renamed f) category
        = (w.deliver m category).map (Block.renameReads f) := by
  unfold deliver
  rw [Method.delivery_renamed]
  cases m.delivery with
  | direct => exact congrArg Except.ok (w.direct_renameReads hf)
  | future => exact congrArg Except.ok (w.future_renameReads hf)
  | suspend => exact congrArg Except.ok (w.suspend_renameReads hf)
  | stream => rfl

end Work

theorem renameReads_captureHandle : renameStmtReads f [captureHandle] = [captureHandle] := by
  simp [captureHandle, ownHandle, hf "self" (by decide)]

theorem renameReads_captureSelf : renameStmtReads f [captureSelf] = [captureSelf] := by
  simp [captureSelf, hf "self" (by decide)]

theorem renameReads_handleFor (delivery : Delivery)
    : (handleFor delivery).renameReads f = handleFor delivery := by
  cases delivery with
  | direct => simp [handleFor, ownHandle, hf "self" (by decide)]
  | suspend | future | stream => simp [handleFor, hf "__db" (by decide)]

theorem WriteQuery.work_renamed (q : WriteQuery) (m : Method) (source : StatementSource)
    : { q with statement := q.statement.renamed f }.work (m.renamed f) source
        = (q.work m source).renameReads f := by
  have hrun : { q with statement := q.statement.renamed f }.run m.delivery
      = (q.run m.delivery).renameReads f := by
    unfold run
    cases q.result with
    | unit | count | rowId =>
      simp [renameReads_handleFor hf, BoundStatement.statementVar, hf "_statement" (by decide),
        hf "_result" (by decide)]
  unfold work Work.renameReads
  rw [renameReads_captureHandle hf]
  change Work.mk _ _ (run _ m.delivery) _ _ = _
  rw [hrun, q.statement.emit_renamed hf]
  rfl

theorem Shortcut.work_renamed (s : Shortcut) (m : Method) (fields : List String)
    : { s with targets := s.targets.map (ResolvedTarget.renamed f) }.work (m.renamed f) fields
        = (s.work m fields).renameReads f := by
  have hcall (t : ResolvedTarget) (field : String) (method : Code.Method)
      : callOn (self m.delivery) (t.renamed f) field method
        = (callOn (self m.delivery) t field method).renameReads f := by
    have hself : (self m.delivery).renameReads f = self m.delivery := by
      cases m.delivery with
      | direct => simp [self, hf "self" (by decide)]
      | suspend | future | stream => simp [self, hf "__this" (by decide)]
    unfold callOn
    change Expr.attempt (.method _ _ [if t.many then _ else _]) = _
    split
    . simp [hself, ResolvedTarget.renamed, Parameter.renamed]
    . simp [hself, ResolvedTarget.renamed, Parameter.renamed]
  have hmap (targets : List (ResolvedTarget × String)) {make : ResolvedTarget × String → Stmt}
      (hmake : ∀ t field, make (t.renamed f, field) = (make (t, field)).renameReads f)
      : (targets.map (Prod.map (ResolvedTarget.renamed f) id)).map make
        = renameStmtReads f (targets.map make) := by
    rw [List.map_map, renameStmtReads_eq_map, List.map_map]
    apply List.map_congr_left
    rintro ⟨t, field⟩ _
    exact hmake t field
  have hrun : { s with targets := s.targets.map (ResolvedTarget.renamed f) }.run (self m.delivery) fields
      = (s.run (self m.delivery) fields).renameReads f := by
    unfold run
    dsimp only
    rw [List.zip_map_left]
    cases s.result with
    | unit =>
      dsimp only
      rw [List.map_map, hmap, List.map_map]
      . simp
      . intro t field
        exact congrArg Stmt.run (hcall t field _)
    | count type =>
      dsimp only
      rw [List.map_map, hmap, List.map_map]
      . simp [hf "_total" (by decide)]
      . intro t field
        change Stmt.addTo _ _ = Stmt.addTo (f "_total") _
        rw [hf "_total" (by decide)]
        exact congrArg (Stmt.addTo "_total") (hcall t field _)
    | rowId | rowIds =>
      dsimp only
      rw [← List.map_take, hmap]
      . simp [hf "_result" (by decide)]
      . intro t field
        exact congrArg (Stmt.bind false "_result" none) (hcall t field _)
  unfold work Work.renameReads
  rw [renameReads_captureSelf hf, Method.delivery_renamed, hrun]
  rfl

theorem transactionWork_renamed (m : Method) (function : Code.Path)
    : transactionWork (m.renamed f) function = (transactionWork m function).renameReads f := by
  have hparams : (m.renamed f).params.map (fun p => Expr.var p.name)
      = Code.renameExprReads f (m.params.map fun p => .var p.name) := by
    simp [renameExprReads_eq_map, Method.renamed, Parameter.renamed]
  unfold transactionWork Work.renameReads
  dsimp only
  rw [renameReads_captureSelf hf, Method.delivery_renamed, hparams]
  split
  . simp [Block.ofExpr, hf "self" (by decide)]
    rfl
  . simp [Block.ofExpr, hf "__this" (by decide)]
    rfl

theorem lowerDelegate_renamed (interface : String) (m target : Method)
    : lowerDelegate interface (m.renamed f) target
        = (lowerDelegate interface m target).renameReads f := by
  have hargs : (m.renamed f).params.map (fun p => Expr.call .convert [.var p.name])
      = Code.renameExprReads f (m.params.map fun p => .call .convert [.var p.name]) := by
    rw [renameExprReads_eq_map, Method.renamed, List.map_map, List.map_map]
    rfl
  unfold lowerDelegate
  dsimp only
  rw [hargs]
  simp [Block.renameReads_ofExpr, hf "self" (by decide)]

omit hf in
def ReadStatement.renameReads (f : String → String) : ReadStatement → ReadStatement
  | owned setup => owned (renameStmtReads f setup)
  | borrowed e => borrowed (e.renameReads f)

omit hf in
theorem RawQuery.statement_renamed (q : RawQuery)
    : { q with source := q.source.renamed f }.statement = q.statement.renameReads f := by
  unfold statement
  cases q.source with
  | text | owned | borrowed | missing =>
    simp [RawSource.renamed, ReadStatement.renameReads, Parameter.renamed]

theorem Reading.code_renamed (delivery : Delivery) (s : ReadStatement) (shape : Shape)
    (tables : List String) (inTransaction : Bool) (names : List String)
    : code delivery (s.renameReads f) shape tables inTransaction names
        = (code delivery s shape tables inTransaction names).renameReads f := by
  have hcursor : f "_cursor" = "_cursor" := hf "_cursor" (by decide)
  have hresult : f "_result" = "_result" := hf "_result" (by decide)
  have hitem : f "_item" = "_item" := hf "_item" (by decide)
  let row := shape.row.readWith names
  have hrow : row.value.renameReads f = row.value ∧ row.optional.renameReads f = row.optional := by
    unfold row
    cases shape.row with
    | entity => simp [Row.readWith, RowRead.ofEntity, RowCode.cursorVar, hcursor]
    | scalar => simp [Row.readWith, RowRead.ofScalar, RowCode.cursorVar, hcursor]
  have hconsume (handle statement signal : Expr) (streaming : Bool)
      : consume (handle.renameReads f) (statement.renameReads f) (signal.renameReads f) shape row streaming
        = (consume handle statement signal shape row streaming).renameReads f := by
    have hrows : readRows shape row (missing (statement.renameReads f) streaming)
        = renameStmtReads f (readRows shape row (missing statement streaming)) := by
      have hmissing : missing (statement.renameReads f) streaming
          = (missing statement streaming).renameReads f := by
        cases streaming with
        | false | true => simp [missing]
      unfold readRows
      cases shape.multiplicity with
      | single => simp [nextRow, RowCode.cursorVar, Block.renameReads_ofExpr, hcursor, hrow, hmissing]
      | optional => simp [nextRow, RowCode.cursorVar, Block.renameReads_ofExpr, hcursor, hrow]
      | list => simp [nextRow, RowCode.cursorVar, hcursor, hresult, hitem, hrow]
    unfold consume
    rw [hrows]
    cases streaming with
    | false | true => simp [RowCode.cursorVar, hcursor, hresult]
  have hstatement : (s.renameReads f).forDelivery delivery
      = ((s.forDelivery delivery).1.map (·.renameReads f), (s.forDelivery delivery).2.renameReads f) := by
    have hvariable : f "_statement" = "_statement" := hf "_statement" (by decide)
    cases s with
    | owned | borrowed =>
      cases delivery with
      | direct | future | suspend | stream =>
        simp [ReadStatement.forDelivery, ReadStatement.renameReads, ReadStatement.inPlace,
          ReadStatement.moved, BoundStatement.statementVar, renameStmtReads_eq_map, hvariable]
  have hsignal : (signalFor delivery).renameReads f = signalFor delivery := by
    cases delivery with
    | direct | future | suspend | stream => simp [signalFor, hf "_signal" (by decide)]
  have hwork : work delivery (s.renameReads f) shape row inTransaction
      = (work delivery s shape row inTransaction).renameReads f := by
    unfold work Work.renameReads
    rw [hstatement, renameReads_captureHandle hf, ← hconsume, renameReads_handleFor hf, hsignal,
      renameStmtReads_eq_map]
  unfold code
  rw [hwork]
  cases delivery with
  | direct => exact Work.direct_renameReads hf _
  | future => exact Work.future_renameReads hf _
  | suspend => exact Work.suspend_renameReads hf _
  | stream => exact Work.stream_renameReads hf _ tables

/-- The code of a method under other names of its parameters is its code with these names in place of the
old ones, wherever the parameters are read. -/
theorem Classified.code_renamed (interface : String) (c : Classified) (names : List String)
    : (c.renamed f).code interface names = (c.code interface names).map (Block.renameReads f) := by
  obtain ⟨m, category, unused⟩ := c
  unfold code renamed
  cases category with
  | read q =>
    change Except.ok _ = Except.ok _
    rw [← Reading.code_renamed hf]
    change Except.ok (Reading.code m.delivery (.owned ((q.statement.renamed f).emit .fresh)) _ _ _ _) = _
    rw [q.statement.emit_renamed hf]
    rfl
  | write q =>
    change Work.deliver _ _ _ = _
    rw [← Work.deliver_renameReads hf, ← q.work_renamed hf]
    rfl
  | shortcut s =>
    change Work.deliver _ _ _ = _
    rw [← Work.deliver_renameReads hf, ← s.work_renamed hf]
  | transaction function =>
    change Work.deliver _ _ _ = _
    rw [← Work.deliver_renameReads hf, ← transactionWork_renamed hf]
  | raw q =>
    change Except.ok _ = Except.ok _
    rw [← Reading.code_renamed hf, ← q.statement_renamed]
    rfl
  | delegate target => exact congrArg Except.ok (lowerDelegate_renamed hf interface m target)

end Code

/-- The code of a method is its code with marks once the marks are taken off. -/
theorem Classified.code_marked (interface : String) (c : Classified) (names : List String)
    : c.code interface names = (c.marked.code interface names).map (Block.renameReads unmark) := by
  rw [← c.marked.code_renamed (fun _ => unmark_eq_self), c.unmark_marked]

end DataAccess
