import DataAccess.Compile.Lowering

/-!
This module contains what the code of a body refers to in the implementation around it: the fields of its
helpers and the functions that read rows. Main statement: delivered work refers to what its setup refers
to and then to what the work itself refers to, whatever the delivery.
-/

namespace DataAccess

namespace Code

inductive Reference where
  | helper (name : String)
  | rowFunction (name : String)
deriving DecidableEq

namespace Reference

def helper? : Reference → Option String
  | helper name => some name
  | rowFunction _ => none

def rowFunction? : Reference → Option String
  | helper _ => none
  | rowFunction name => some name

end Reference

def Function.references : Function → List Reference
  | .rowAdapter name => [.rowFunction name]
  | _ => []

/-- The helper in a field of the implementation, which bodies know by two names. The database handle is
no helper. -/
def ownField : Expr → String → List Reference
  | .var owner, name =>
    if (owner = "self" ∨ owner = "__this") ∧ name ≠ "__db" then [.helper name] else []
  | _, _ => []

mutual

def Expr.references : Expr → List Reference
  | .var _ | .text _ | .number _ _ | .bool _ | .unit | .none => []
  | .field e name => ownField e name ++ e.references
  | .call f args => f.references ++ exprReferences args
  | .function f => f.references
  | .method receiver _ args => receiver.references ++ exprReferences args
  | .borrow e | .borrowMut e | .attempt e | .ok e | .err e | .some e | .missingResult e => e.references
  | .add a b => a.references ++ b.references
  | .array items => exprReferences items
  | .record _ fields => fieldReferences fields
  | .block b => b.references
  | .ifElse condition yes no => condition.references ++ yes.references ++ no.references
  | .matchOption e _ present absent => e.references ++ present.references ++ absent.references
  | .closure _ _ _ body => body.references

def exprReferences : List Expr → List Reference
  | [] => []
  | e :: rest => e.references ++ exprReferences rest

def FieldInit.references : FieldInit → List Reference
  | .mk _ value => value.references

def fieldReferences : List FieldInit → List Reference
  | [] => []
  | f :: rest => f.references ++ fieldReferences rest

def Stmt.references : Stmt → List Reference
  | .bind _ _ _ value | .addTo _ value => value.references
  | .run e | .runBlock e | .ret e => e.references
  | .forIn _ items body => items.references ++ stmtReferences body
  | .whileLoop condition body => condition.references ++ stmtReferences body

def stmtReferences : List Stmt → List Reference
  | [] => []
  | s :: rest => s.references ++ stmtReferences rest

def Block.references : Block → List Reference
  | .mk statements none => stmtReferences statements
  | .mk statements (some result) => stmtReferences statements ++ result.references

end

namespace Block

def helpers (b : Block) : List String :=
  b.references.filterMap Reference.helper?

def rowFunctions (b : Block) : List String :=
  b.references.filterMap Reference.rowFunction?

end Block

attribute [simp] Expr.references exprReferences Stmt.references stmtReferences Block.references
  Function.references

@[simp]
theorem stmtReferences_append (front rest : List Stmt)
    : stmtReferences (front ++ rest) = stmtReferences front ++ stmtReferences rest := by
  induction front with
  | nil => rfl
  | cons s front ih => simp [ih]

theorem stmtReferences_eq_nil {statements : List Stmt} (h : ∀ s ∈ statements, s.references = [])
    : stmtReferences statements = [] := by
  induction statements with
  | nil => rfl
  | cons s rest ih => simp [h s (by simp), ih fun s hs => h s (by simp [hs])]

theorem exprReferences_eq_nil {items : List Expr} (h : ∀ e ∈ items, e.references = [])
    : exprReferences items = [] := by
  induction items with
  | nil => rfl
  | cons e rest ih => simp [h e (by simp), ih fun e he => h e (by simp [he])]

@[simp]
theorem references_prepend (front : List Stmt) (b : Block)
    : (b.prepend front).references = stmtReferences front ++ b.references := by
  obtain ⟨statements, _ | result⟩ := b
  . simp [Block.prepend, Block.statements, Block.result]
  . simp [Block.prepend, Block.statements, Block.result]

end Code

open Code (Block Expr Reference Stmt ownField exprReferences_eq_nil stmtReferences stmtReferences_eq_nil)

@[simp]
theorem references_ownHandle : ownHandle.references = [] := by
  simp [ownHandle, ownField]

@[simp]
theorem references_handleFor (delivery : Delivery) : (handleFor delivery).references = [] := by
  cases delivery with
  | direct => exact references_ownHandle
  | suspend | future | stream => rfl

@[simp]
theorem references_captureHandle : captureHandle.references = [] := by
  simp [captureHandle]

@[simp]
theorem references_captureSelf : captureSelf.references = [] := by
  simp [captureSelf]

namespace Work

variable {w : Work}

theorem references_direct : w.direct.references = stmtReferences w.setup ++ w.body.references := by
  unfold direct
  split
  . simp
  . simp

@[simp]
theorem references_moved (hcapture : stmtReferences w.capture = []) (params : List (String × Code.CodeType))
    (value : Code.CodeType) : (w.moved params value).references = w.body.references := by
  simp [moved, hcapture]

theorem references_future (hcapture : stmtReferences w.capture = [])
    : w.future.references = stmtReferences w.setup ++ w.body.references := by
  simp [future, hcapture]

theorem references_suspend (hcapture : stmtReferences w.capture = [])
    : w.suspend.references = stmtReferences w.setup ++ w.body.references := by
  simp [suspend, hcapture]

theorem references_stream (hcapture : stmtReferences w.capture = []) (tables : List String)
    : (w.stream tables).references = stmtReferences w.setup ++ w.body.references := by
  have htables : Code.exprReferences (tables.map .text) = [] := by
    apply exprReferences_eq_nil
    simp
  simp [stream, hcapture, htables]

/-- Delivered work refers to the same as its setup and the work itself. -/
theorem references_deliver (hcapture : stmtReferences w.capture = []) {m : Method} {category : String}
    {body : Block} (h : w.deliver m category = .ok body)
    : body.references = stmtReferences w.setup ++ w.body.references := by
  unfold deliver at h
  split at h
  . cases h
    exact references_direct
  . cases h
    exact references_future hcapture
  . cases h
    exact references_suspend hcapture
  . cases h

end Work

def StatementSource.field? : StatementSource → Option String
  | fresh => none
  | shared field | copy field => some field

namespace BoundStatement

theorem references_scalarValue (p : Parameter) : (scalarValue p).references = [] := by
  unfold scalarValue converted
  split
  . simp
  . simp

theorem references_itemValue (p : Parameter) : (itemValue p).references = [] := by
  unfold itemValue converted
  split
  . simp
  . simp

theorem references_bindTo (slot : Expr) {value : Expr} (hslot : slot.references = [])
    (hvalue : value.references = []) : (bindTo slot value).references = [] := by
  simp [bindTo, statementVar, hslot, hvalue]

theorem references_emitFixed (s : BoundStatement) (source : StatementSource)
    : stmtReferences (s.emitFixed source) = source.field?.toList.flatMap (ownField (.var "self")) := by
  unfold emitFixed
  rw [stmtReferences, stmtReferences_eq_nil, List.append_nil]
  . cases source with
    | fresh => simp [fixedStatement, StatementSource.field?]
    | shared field => simp [fixedStatement, StatementSource.field?]
    | copy field => simp [fixedStatement, StatementSource.field?]
  . intro b hb
    obtain ⟨⟨p, i⟩, _, rfl⟩ := List.mem_map.1 hb
    exact references_bindTo _ (by simp) (references_scalarValue p)

theorem references_appendText (pending : List Char) : stmtReferences (appendText pending) = [] := by
  unfold appendText
  split
  . simp
  . simp

theorem references_emitText (pending : List Char) (k : Nat) (slots : List Slot)
    : stmtReferences (emitText pending k slots) = [] := by
  induction slots generalizing pending k with
  | nil => exact references_appendText pending
  | cons slot rest ih =>
    cases slot with
    | text chars => exact ih (pending ++ chars) k
    | param p =>
      unfold emitText
      split
      . simp [references_appendText, ih]
      . exact ih (pending ++ ['?']) k

theorem references_emitBinds (params : List Parameter) : stmtReferences (emitBinds params) = [] := by
  induction params with
  | nil => rfl
  | cons p rest ih =>
    have hadvance : advance.references = [] := by simp [advance]
    unfold emitBinds
    dsimp only
    split
    . have hitem := references_bindTo (.var "_arg_index") (by simp) (references_itemValue p)
      simp [hitem, hadvance, ih]
    . have hscalar := references_bindTo (.var "_arg_index") (by simp) (references_scalarValue p)
      split
      . simp [hscalar, ih]
      . simp [hscalar, hadvance, ih]

theorem references_argCountExpr (s : BoundStatement) : s.argCountExpr.references = [] := by
  have hsum (sizes : List Nat) (sum : Expr) (hsum : sum.references = [])
      : ((sizes.map fun k => Expr.var (sizeName (k + 1))).foldl .add sum).references = [] := by
    induction sizes generalizing sum with
    | nil => exact hsum
    | cons k rest ih => exact ih _ (by simp [hsum])
  exact hsum _ _ (by simp)

theorem references_emit (s : BoundStatement) (source : StatementSource)
    : stmtReferences (s.emit source)
        = if s.isExpandable then [] else source.field?.toList.flatMap (ownField (.var "self")) := by
  unfold emit
  split
  . simp [emitExpanded, references_emitText, references_emitBinds, references_argCountExpr]
  . exact references_emitFixed s source

end BoundStatement

theorem WriteQuery.references_run (q : WriteQuery) (delivery : Delivery)
    : (q.run delivery).references = [] := by
  have htables : Code.exprReferences (q.tables.map .text) = [] := by
    apply exprReferences_eq_nil
    simp
  unfold WriteQuery.run
  cases q.result with
  | unit | count | rowId => simp [BoundStatement.statementVar, htables]

namespace Shortcut

theorem references_self (delivery : Delivery) (field : String)
    : ownField (self delivery) field = ownField (.var "self") field := by
  cases delivery with
  | direct => rfl
  | suspend | future | stream => simp [self, ownField]

theorem references_callOn (delivery : Delivery) (t : ResolvedTarget) (field : String)
    (method : Code.Method)
    : (callOn (self delivery) t field method).references = ownField (.var "self") field := by
  have hself : (self delivery).references = [] := by
    cases delivery with
    | direct | suspend | future | stream => simp [self]
  unfold callOn
  split
  . simp [references_self, hself]
  . simp [references_self, hself]

theorem references_operations (op : ShortcutOp) (delivery : Delivery) (make : Expr → Stmt)
    (hmake : ∀ e, (make e).references = e.references) {targets : List ResolvedTarget}
    {fields : List String} (hlength : fields.length = targets.length)
    : stmtReferences (((targets.zip fields).map fun (t, field) =>
          operate op (self delivery) t field).map make)
        = fields.flatMap (ownField (.var "self")) := by
  induction targets generalizing fields with
  | nil =>
    rw [List.length_eq_zero_iff.1 hlength]
    rfl
  | cons t rest ih =>
    cases fields with
    | nil => cases hlength
    | cons field fields =>
      rw [List.zip_cons_cons, List.map_cons, List.map_cons, stmtReferences, hmake,
        ih (Nat.succ.inj hlength), List.flatMap_cons]
      dsimp only [operate]
      rw [references_callOn]

theorem references_run (s : Shortcut) (delivery : Delivery) {fields : List String}
    (hlength : fields.length = s.targets.length)
    (hsingle : s.result = .rowId ∨ s.result = .rowIds → s.targets.length = 1)
    : (s.run (self delivery) fields).references = fields.flatMap (ownField (.var "self")) := by
  have hrowIds (h : s.targets.length = 1)
      : stmtReferences (((s.targets.zip fields).take 1).map fun (t, field) =>
          .bind false "_result" none (callOn (self delivery) t field (returning s.op t.many)))
        = fields.flatMap (ownField (.var "self")) := by
    obtain ⟨t, ht⟩ := List.length_eq_one_iff.1 h
    obtain ⟨field, hfield⟩ := List.length_eq_one_iff.1 (hlength.trans h)
    simp [ht, hfield, references_callOn]
  unfold run
  split
  . rw [Block.references, references_operations s.op delivery .run (by simp) hlength]
    simp
  . rw [Block.references, stmtReferences,
      references_operations s.op delivery (.addTo "_total") (by simp) hlength]
    simp
  . next hresult =>
    rw [Block.references, hrowIds (hsingle (Or.inl hresult))]
    simp
  . next hresult =>
    rw [Block.references, hrowIds (hsingle (Or.inr hresult))]
    simp

end Shortcut

def ReadStatement.IsPlain : ReadStatement → Prop
  | owned setup => stmtReferences setup = []
  | borrowed e => e.references = []

namespace Reading

/-- A row is read by a function, or by none if it is no entity. -/
structure Reads (row : RowRead) (functions : List String) : Prop where
  value : row.value.references = functions.map .rowFunction
  optional : row.optional.references = functions.map .rowFunction

theorem reads_ofEntity (function : String) : Reads (.ofEntity function) [function] := by
  constructor
  . simp [RowRead.ofEntity, RowCode.cursorVar]
  . simp [RowRead.ofEntity, RowCode.cursorVar]

theorem reads_ofScalar (type : Code.TypeExpr) : Reads (.ofScalar type) [] := by
  constructor
  . simp [RowRead.ofScalar, RowCode.cursorVar]
  . simp [RowRead.ofScalar, RowCode.cursorVar]

variable {row : RowRead} {functions : List String}

theorem references_readRows (shape : Shape) (h : Reads row functions) {missing : Stmt}
    (hmissing : missing.references = [])
    : stmtReferences (readRows shape row missing) = functions.map .rowFunction := by
  unfold readRows
  cases shape.multiplicity with
  | single => simp [nextRow, RowCode.cursorVar, Block.ofExpr, h.value, hmissing]
  | optional => simp [nextRow, RowCode.cursorVar, Block.ofExpr, h.optional]
  | list => simp [nextRow, RowCode.cursorVar, h.value]

theorem references_consume {handle statement signal : Expr} (hhandle : handle.references = [])
    (hstatement : statement.references = []) (hsignal : signal.references = []) (shape : Shape)
    (h : Reads row functions) (streaming : Bool)
    : (consume handle statement signal shape row streaming).references
        = functions.map .rowFunction := by
  have hmissing : (missing statement streaming).references = [] := by
    unfold missing
    split
    . simp
    . simp [hstatement]
  have hrows := references_readRows shape h hmissing
  unfold consume
  split
  . simp [hrows, hhandle, hstatement, hsignal, RowCode.cursorVar]
  . simp [hrows, hhandle, hstatement, hsignal, RowCode.cursorVar]

theorem references_delivered (delivery : Delivery) {s : ReadStatement} (hs : s.IsPlain) (shape : Shape)
    (h : Reads row functions) (tables : List String) (inTransaction : Bool)
    : let w := work delivery s shape row inTransaction
      (match delivery with
        | .direct => w.direct
        | .future => w.future
        | .suspend => w.suspend
        | .stream => w.stream tables).references = functions.map .rowFunction := by
  intro w
  have hcapture : stmtReferences w.capture = [] := by simp [w, work]
  have hstatement : stmtReferences (s.forDelivery delivery).1 = [] ∧
      (s.forDelivery delivery).2.references = [] := by
    cases s with
    | owned setup =>
      cases delivery with
      | direct | future | suspend | stream => exact ⟨hs, rfl⟩
    | borrowed e =>
      have he : e.references = [] := hs
      cases delivery with
      | direct => exact ⟨rfl, he⟩
      | future | suspend | stream =>
        refine ⟨?_, rfl⟩
        simp [ReadStatement.forDelivery, ReadStatement.moved, he]
  have hsignal : (signalFor delivery).references = [] := by
    cases delivery with
    | direct | future | suspend | stream => rfl
  have hwork : stmtReferences w.setup ++ w.body.references = functions.map .rowFunction := by
    change stmtReferences (s.forDelivery delivery).1 ++ _ = _
    rw [hstatement.1]
    exact references_consume (references_handleFor delivery) hstatement.2 hsignal shape h _
  cases delivery with
  | direct => exact Work.references_direct.trans hwork
  | future => exact (Work.references_future hcapture).trans hwork
  | suspend => exact (Work.references_suspend hcapture).trans hwork
  | stream => exact (Work.references_stream hcapture tables).trans hwork

end Reading

theorem ReadStatement.isPlain_emit (s : BoundStatement) : (owned (s.emit .fresh)).IsPlain := by
  change stmtReferences (s.emit .fresh) = []
  rw [BoundStatement.references_emit]
  simp [StatementSource.field?]

theorem RawQuery.isPlain_statement (q : RawQuery) : q.statement.IsPlain := by
  unfold RawQuery.statement
  cases q.source with
  | text | owned | borrowed | missing => simp [ReadStatement.IsPlain]

theorem references_callFunction (function : Code.Path) {self : Expr} (hself : self.references = [])
    (params : List Parameter)
    : (Block.ofExpr (.call (.declared function) (self :: params.map fun p => .var p.name))).references
        = [] := by
  have hparams : Code.exprReferences (params.map fun p => .var p.name) = [] := by
    apply exprReferences_eq_nil
    simp
  simp [Block.ofExpr, hself, hparams]

theorem references_lowerDelegate (interface : String) (m target : Method)
    : (lowerDelegate interface m target).references = [] := by
  have hargs : Code.exprReferences (m.params.map fun p => .call .convert [.var p.name]) = [] := by
    apply exprReferences_eq_nil
    simp
  simp [lowerDelegate, Block.ofExpr, hargs]

end DataAccess
