import DataAccess.Proofs.Compile.Written

/-!
This module contains which converters code calls. Main statements: the code that reads or writes an
entity calls converters of its fields, and the body of a method calls converters of the parameters whose
arguments it makes use of.
-/

namespace DataAccess

open Code (Path)

namespace Code

def Function.converters : Function → List Path
  | .toColumn c | .fromColumn c => [c]
  | _ => []

mutual

def Expr.converters : Expr → List Path
  | .var _ | .text _ | .number _ _ | .bool _ | .unit | .none => []
  | .field e _ => e.converters
  | .call f args => f.converters ++ exprConverters args
  | .function f => f.converters
  | .method receiver _ args => receiver.converters ++ exprConverters args
  | .borrow e | .borrowMut e | .attempt e | .ok e | .err e | .some e | .missingResult e => e.converters
  | .add a b => a.converters ++ b.converters
  | .array items => exprConverters items
  | .record _ fields => fieldConverters fields
  | .block b => b.converters
  | .ifElse condition yes no => condition.converters ++ yes.converters ++ no.converters
  | .matchOption e _ present absent => e.converters ++ present.converters ++ absent.converters
  | .closure _ _ _ body => body.converters

def exprConverters : List Expr → List Path
  | [] => []
  | e :: rest => e.converters ++ exprConverters rest

def FieldInit.converters : FieldInit → List Path
  | .mk _ value => value.converters

def fieldConverters : List FieldInit → List Path
  | [] => []
  | f :: rest => f.converters ++ fieldConverters rest

def Stmt.converters : Stmt → List Path
  | .bind _ _ _ value | .addTo _ value => value.converters
  | .run e | .runBlock e | .ret e => e.converters
  | .forIn _ items body => items.converters ++ stmtConverters body
  | .whileLoop condition body => condition.converters ++ stmtConverters body

def stmtConverters : List Stmt → List Path
  | [] => []
  | s :: rest => s.converters ++ stmtConverters rest

def Block.converters : Block → List Path
  | .mk statements none => stmtConverters statements
  | .mk statements (some result) => stmtConverters statements ++ result.converters

end

attribute [simp] Function.converters Expr.converters exprConverters FieldInit.converters Stmt.converters
  stmtConverters Block.converters

theorem exprConverters_eq_flatMap (items : List Expr)
    : exprConverters items = items.flatMap Expr.converters := by
  induction items with
  | nil => rfl
  | cons e rest ih => simp [ih]

theorem fieldConverters_eq_flatMap (fields : List FieldInit)
    : fieldConverters fields = fields.flatMap FieldInit.converters := by
  induction fields with
  | nil => rfl
  | cons f rest ih => rw [fieldConverters, ih, List.flatMap_cons]

theorem stmtConverters_eq_flatMap (statements : List Stmt)
    : stmtConverters statements = statements.flatMap Stmt.converters := by
  induction statements with
  | nil => rfl
  | cons s rest ih => simp [ih]

@[simp]
theorem stmtConverters_append (front rest : List Stmt)
    : stmtConverters (front ++ rest) = stmtConverters front ++ stmtConverters rest := by
  simp [stmtConverters_eq_flatMap]

@[simp]
theorem exprConverters_of_texts (texts : List String) : exprConverters (texts.map .text) = [] := by
  simp [exprConverters_eq_flatMap]

@[simp]
theorem Block.converters_prepend (front : List Stmt) (b : Block)
    : (b.prepend front).converters = stmtConverters front ++ b.converters := by
  obtain ⟨statements, _ | result⟩ := b
  . simp [Block.prepend, Block.statements, Block.result]
  . simp [Block.prepend, Block.statements, Block.result]

end Code

open Code (Block Expr Stmt exprConverters_eq_flatMap fieldConverters_eq_flatMap stmtConverters
  stmtConverters_eq_flatMap)

section Entities

theorem RowCode.converters_body (e : Entity) : (body e).converters ⊆ e.converters := by
  have hread (f : Field) : (readField f).converters = f.converter.toList := by
    unfold readField cursorVar
    cases f.converter with
    | none => simp
    | some c =>
      cases f.nullable with
      | false => simp
      | true => simp [Block.ofExpr]
  intro c hc
  simp only [body, Block.converters, stmtConverters_eq_flatMap, Expr.converters,
    fieldConverters_eq_flatMap, List.mem_append, List.mem_flatMap, List.mem_map] at hc
  rcases hc with ⟨_, ⟨f, _, rfl⟩, hc⟩ | ⟨_, ⟨f, hf, rfl⟩, hc⟩
  . simp [lookUp, cursorVar] at hc
  . rw [Code.FieldInit.converters, hread, Option.mem_toList] at hc
    exact List.mem_filterMap.2 ⟨f, hf, hc⟩

theorem AdapterCode.converters_binder (e : Entity) (fields : List Field)
    : (binder e fields).converters ⊆ fields.filterMap (·.converter) := by
  have hbind (slot : Nat) (f : Field) : (bindField slot f).converters = f.converter.toList := by
    unfold bindField fieldOf BoundStatement.statementVar
    cases f.converter with
    | none => simp
    | some c =>
      cases f.nullable with
      | false => simp
      | true => simp [Block.ofExpr]
  intro c hc
  simp only [binder, bindFields, Expr.converters, Block.converters, stmtConverters_eq_flatMap,
    List.mem_flatMap, List.mem_map] at hc
  obtain ⟨_, ⟨⟨f, k⟩, hf, rfl⟩, hc⟩ := hc
  rw [hbind, Option.mem_toList] at hc
  exact List.mem_filterMap.2 ⟨f, (List.mem_zipIdx' hf).2 ▸ List.getElem_mem _, hc⟩

theorem Entity.keyFields_subset (e : Entity) : e.keyFields ⊆ e.fields := by
  intro f hf
  obtain ⟨key, _, hfound⟩ := List.mem_filterMap.1 hf
  exact List.mem_of_find?_eq_some hfound

theorem converters_adapterRequest (op : ShortcutOp) (e : Entity) (table : String)
    : (adapterRequest op e table).value.converters ⊆ e.converters := by
  have hbuild (new : Code.Function) (hnew : new.converters = []) (sql : String) {fields : List Field}
      (hfields : fields ⊆ e.fields)
      : (AdapterCode.build new e table sql fields).converters ⊆ e.converters := by
    have hbinder := AdapterCode.converters_binder e fields
    have hmono : (AdapterCode.binder e fields).converters ⊆ e.converters :=
      List.Subset.trans hbinder (List.filterMap_subset (·.converter) hfields)
    unfold AdapterCode.build
    rw [Expr.converters, hnew]
    simpa using hmono
  have hkey := e.keyFields_subset
  have hboth : e.fields ++ e.keyFields ⊆ e.fields :=
    List.append_subset.2 ⟨List.Subset.refl e.fields, hkey⟩
  cases op with
  | insert => exact hbuild _ rfl _ (List.Subset.refl e.fields)
  | delete => exact hbuild _ rfl _ hkey
  | update => exact hbuild _ rfl _ hboth
  | upsert =>
    have hinsert := hbuild (.newInsertAdapter e.name) rfl (AdapterSql.insert e table none)
      (List.Subset.refl e.fields)
    have hupdate := hbuild (.newChangeAdapter e.name) rfl (AdapterSql.update e table none) hboth
    simpa [adapterRequest, AdapterCode.upsert, AdapterCode.insert, AdapterCode.update]
      using And.intro hinsert hupdate

end Entities

section Deliveries

variable {w : Work}

@[simp]
theorem converters_ownHandle : ownHandle.converters = [] := by
  simp [ownHandle]

@[simp]
theorem converters_handleFor (delivery : Delivery) : (handleFor delivery).converters = [] := by
  cases delivery with
  | direct => exact converters_ownHandle
  | suspend | future | stream => rfl

theorem Work.converters_direct (w : Work)
    : w.direct.converters = stmtConverters w.setup ++ w.body.converters := by
  unfold direct
  split
  . simp
  . simp

theorem Work.converters_future (hcapture : stmtConverters w.capture = [])
    : w.future.converters = stmtConverters w.setup ++ w.body.converters := by
  simp [future, moved, hcapture]

theorem Work.converters_suspend (hcapture : stmtConverters w.capture = [])
    : w.suspend.converters = stmtConverters w.setup ++ w.body.converters := by
  simp [suspend, moved, hcapture]

theorem Work.converters_stream (hcapture : stmtConverters w.capture = []) (tables : List String)
    : (w.stream tables).converters = stmtConverters w.setup ++ w.body.converters := by
  simp [stream, moved, hcapture]

theorem Work.converters_deliver (hcapture : stmtConverters w.capture = []) {m : Method}
    {category : String} {body : Block} (h : w.deliver m category = .ok body)
    : body.converters = stmtConverters w.setup ++ w.body.converters := by
  unfold deliver at h
  split at h
  . cases h
    exact w.converters_direct
  . cases h
    exact converters_future hcapture
  . cases h
    exact converters_suspend hcapture
  . cases h

end Deliveries

namespace BoundStatement

theorem converters_scalarValue (p : Parameter) : (scalarValue p).converters = p.converter.toList := by
  unfold scalarValue converted
  cases p.converter with
  | none | some => simp

theorem converters_itemValue (p : Parameter) : (itemValue p).converters = p.converter.toList := by
  unfold itemValue converted
  cases p.converter with
  | none | some => simp

theorem converters_bindTo (slot value : Expr)
    : (bindTo slot value).converters = slot.converters ++ value.converters := by
  simp [bindTo, statementVar]

theorem converters_emitFixed (s : BoundStatement) (source : StatementSource)
    : stmtConverters (s.emitFixed source) ⊆ s.params.filterMap (·.converter) := by
  have hstatement : (s.fixedStatement source).converters = [] := by
    cases source with
    | fresh | shared | copy => simp [fixedStatement]
  unfold emitFixed
  rw [stmtConverters, Stmt.converters, hstatement, List.nil_append, stmtConverters_eq_flatMap]
  intro c hc
  obtain ⟨b, hb, hc⟩ := List.mem_flatMap.1 hc
  obtain ⟨⟨p, k⟩, hp, rfl⟩ := List.mem_map.1 hb
  rw [converters_bindTo, converters_scalarValue, Expr.converters, List.nil_append,
    Option.mem_toList] at hc
  exact List.mem_filterMap.2 ⟨p, (List.mem_zipIdx' hp).2 ▸ List.getElem_mem _, hc⟩

theorem converters_appendText (pending : List Char) : stmtConverters (appendText pending) = [] := by
  unfold appendText
  split
  . simp
  . simp

theorem converters_emitText (pending : List Char) (k : Nat) (slots : List Slot)
    : stmtConverters (emitText pending k slots) = [] := by
  induction slots generalizing pending k with
  | nil => exact converters_appendText pending
  | cons slot rest ih =>
    cases slot with
    | text chars => exact ih (pending ++ chars) k
    | param p =>
      unfold emitText
      split
      . simp [converters_appendText, ih]
      . exact ih (pending ++ ['?']) k

theorem converters_emitBinds (params : List Parameter)
    : stmtConverters (emitBinds params) = params.filterMap (·.converter) := by
  have hadvance : advance.converters = [] := by simp [advance]
  induction params with
  | nil => rfl
  | cons p rest ih =>
    have hcons : (p :: rest).filterMap (·.converter)
        = p.converter.toList ++ rest.filterMap (·.converter) := by
      cases hconverter : p.converter with
      | none | some => simp [hconverter]
    rw [hcons]
    unfold emitBinds
    dsimp only
    split
    . simp [converters_bindTo, converters_itemValue, hadvance, ih]
    . split
      . simp [converters_bindTo, converters_scalarValue, ih]
      . simp [converters_bindTo, converters_scalarValue, hadvance, ih]

theorem converters_argCountExpr (s : BoundStatement) : s.argCountExpr.converters = [] := by
  have hsum (sizes : List Nat) (sum : Expr) (hsum : sum.converters = [])
      : ((sizes.map fun k => Expr.var (sizeName (k + 1))).foldl .add sum).converters = [] := by
    induction sizes generalizing sum with
    | nil => exact hsum
    | cons k rest ih => exact ih _ (by simp [hsum])
  exact hsum _ _ (by simp)

theorem converters_emit (s : BoundStatement) (source : StatementSource)
    : stmtConverters (s.emit source) ⊆ s.params.filterMap (·.converter) := by
  unfold emit
  split
  . simp [emitExpanded, converters_emitText, converters_emitBinds, converters_argCountExpr]
  . exact s.converters_emitFixed source

end BoundStatement

theorem WriteQuery.converters_run (q : WriteQuery) (delivery : Delivery)
    : (q.run delivery).converters = [] := by
  unfold WriteQuery.run
  cases q.result with
  | unit | count | rowId => simp [BoundStatement.statementVar]

theorem Shortcut.converters_run (s : Shortcut) (delivery : Delivery) (fields : List String)
    : (s.run (self delivery) fields).converters = [] := by
  have hself : (self delivery).converters = [] := by
    cases delivery with
    | direct | suspend | future | stream => rfl
  have hcall (t : ResolvedTarget) (field : String) (method : Code.Method)
      : (callOn (self delivery) t field method).converters = [] := by
    unfold callOn
    split
    . simp [hself]
    . simp [hself]
  have hmap (targets : List (ResolvedTarget × String)) {make : ResolvedTarget × String → Stmt}
      (hmake : ∀ t field, (make (t, field)).converters = []) : stmtConverters (targets.map make) = [] := by
    rw [stmtConverters_eq_flatMap, List.flatMap_eq_nil_iff]
    intro b hb
    obtain ⟨⟨t, field⟩, _, rfl⟩ := List.mem_map.1 hb
    exact hmake t field
  have hoperate (t : ResolvedTarget) (field : String)
      : (operate s.op (self delivery) t field).converters = [] := hcall t field _
  unfold run
  dsimp only
  rw [List.map_map, List.map_map]
  cases s.result with
  | unit =>
    dsimp only
    rw [Block.converters, hmap]
    . rfl
    . intro t field
      exact hoperate t field
  | count =>
    dsimp only
    rw [Block.converters, stmtConverters, hmap]
    . rfl
    . intro t field
      exact hoperate t field
  | rowId | rowIds =>
    dsimp only
    rw [Block.converters, hmap]
    . rfl
    . intro t field
      exact hcall t field (returning s.op t.many)

theorem Reading.converters_consume {handle statement signal : Expr} (hhandle : handle.converters = [])
    (hstatement : statement.converters = []) (hsignal : signal.converters = []) (shape : Shape)
    (names : List String) (streaming : Bool)
    : (consume handle statement signal shape (shape.row.readWith names) streaming).converters = [] := by
  have hrow : (shape.row.readWith names).value.converters = [] ∧
      (shape.row.readWith names).optional.converters = [] := by
    cases shape.row with
    | entity => simp [Row.readWith, RowRead.ofEntity, RowCode.cursorVar]
    | scalar => simp [Row.readWith, RowRead.ofScalar, RowCode.cursorVar]
  have hmissing : (missing statement streaming).converters = [] := by
    unfold missing
    split
    . simp
    . simp [hstatement]
  have hrows : stmtConverters (readRows shape (shape.row.readWith names) (missing statement streaming))
      = [] := by
    unfold readRows
    cases shape.multiplicity with
    | single => simp [nextRow, RowCode.cursorVar, Block.ofExpr, hrow.1, hmissing]
    | optional => simp [nextRow, RowCode.cursorVar, Block.ofExpr, hrow.2]
    | list => simp [nextRow, RowCode.cursorVar, hrow.1]
  unfold consume
  split
  . simp [hrows, hhandle, hstatement, hsignal, RowCode.cursorVar]
  . simp [hrows, hhandle, hstatement, hsignal, RowCode.cursorVar]

def ReadStatement.converters : ReadStatement → List Path
  | owned setup => stmtConverters setup
  | borrowed e => e.converters

theorem Reading.converters_code (delivery : Delivery) {s : ReadStatement}
    (hborrowed : ∀ e, s = .borrowed e → e.converters = []) (shape : Shape) (tables : List String)
    (inTransaction : Bool) (names : List String)
    : (code delivery s shape tables inTransaction names).converters = s.converters := by
  have hcapture : stmtConverters [captureHandle] = [] := by simp [captureHandle]
  have hstatement : stmtConverters (s.forDelivery delivery).1 = s.converters ∧
      (s.forDelivery delivery).2.converters = [] := by
    cases s with
    | owned setup =>
      cases delivery with
      | direct | future | suspend | stream => exact ⟨rfl, rfl⟩
    | borrowed e =>
      have he := hborrowed e rfl
      cases delivery with
      | direct => exact ⟨he.symm, he⟩
      | future | suspend | stream =>
        simp [ReadStatement.forDelivery, ReadStatement.moved, ReadStatement.converters, he,
          BoundStatement.statementVar]
  have hsignal : (signalFor delivery).converters = [] := by
    cases delivery with
    | direct | future | suspend | stream => rfl
  let w := work delivery s shape (shape.row.readWith names) inTransaction
  have hwork : stmtConverters w.setup ++ w.body.converters = s.converters := by
    change stmtConverters (s.forDelivery delivery).1 ++
      (consume (handleFor delivery) (s.forDelivery delivery).2 (signalFor delivery) shape _ _).converters
        = _
    rw [hstatement.1, converters_consume (converters_handleFor delivery) hstatement.2 hsignal,
      List.append_nil]
  cases delivery with
  | direct => exact w.converters_direct.trans hwork
  | future => exact (Work.converters_future hcapture).trans hwork
  | suspend => exact (Work.converters_suspend hcapture).trans hwork
  | stream => exact (Work.converters_stream hcapture tables).trans hwork

theorem Classified.converters_code {c : Classified} {interface : String} {names : List String}
    {body : Block} (h : c.code interface names = .ok body)
    : body.converters ⊆ (c.category.arguments c.method).filterMap (·.converter) := by
  have hhandle : stmtConverters [captureHandle] = [] := by simp [captureHandle]
  have hself : stmtConverters [captureSelf] = [] := by simp [captureSelf]
  have hnone (converters : List Path) (hnil : body.converters = []) : body.converters ⊆ converters :=
    hnil ▸ List.nil_subset converters
  unfold code at h
  cases hcategory : c.category with
  | read q =>
    rw [hcategory] at h
    cases h
    rw [Reading.converters_code _ (by simp)]
    exact q.statement.converters_emit .fresh
  | write q =>
    rw [hcategory] at h
    rw [Work.converters_deliver hhandle h]
    change stmtConverters (q.statement.emit _) ++ (q.run c.method.delivery).converters ⊆ _
    rw [q.converters_run, List.append_nil]
    exact q.statement.converters_emit _
  | shortcut s =>
    rw [hcategory] at h
    apply hnone
    rw [Work.converters_deliver hself h]
    exact s.converters_run c.method.delivery names
  | transaction function =>
    rw [hcategory] at h
    apply hnone
    rw [Work.converters_deliver hself h]
    unfold transactionWork
    split
    . simp [Block.ofExpr, exprConverters_eq_flatMap]
    . simp [Block.ofExpr, exprConverters_eq_flatMap]
  | raw q =>
    rw [hcategory] at h
    cases h
    apply hnone
    have hplain : q.statement.converters = [] ∧ ∀ e, q.statement = .borrowed e → e.converters = [] := by
      unfold RawQuery.statement
      cases q.source with
      | text | owned | borrowed | missing => simp [ReadStatement.converters]
    rw [Reading.converters_code _ hplain.2]
    exact hplain.1
  | delegate target =>
    rw [hcategory] at h
    cases h
    apply hnone
    simp [lowerDelegate, Block.ofExpr, exprConverters_eq_flatMap]

end DataAccess
