import DataAccess.Proofs.Compile.Needs
import DataAccess.Proofs.Compile.Renaming

/-!
This module contains the code of a method as a function of the names that its needs are answered with. Main
statements: to lower a method is to ask for everything that it needs and then to write its code, which no
longer depends on the draft; and the code under other names of helpers is the same code renamed.
-/

namespace DataAccess

open Code (Block Expr Fixes Stmt)

def Row.readWith (names : List String) : Row → RowRead
  | entity _ => .ofEntity (names.headD "")
  | scalar type => .ofScalar type

def Reading.code (delivery : Delivery) (s : ReadStatement) (shape : Shape) (tables : List String)
    (inTransaction : Bool) (names : List String) : Block :=
  let w := work delivery s shape (shape.row.readWith names) inTransaction
  match delivery with
  | .direct => w.direct
  | .future => w.future
  | .suspend => w.suspend
  | .stream => w.stream tables

def WriteQuery.sourceWith (m : Method) : List String → StatementSource
  | [] => .fresh
  | field :: _ => if m.delivery == .direct then .shared field else .copy field

def WriteQuery.work (q : WriteQuery) (m : Method) (source : StatementSource) : Work :=
  { setup := q.statement.emit source
    capture := [captureHandle]
    body := q.run m.delivery
    value := m.value
    inTransaction := false }

def Shortcut.work (s : Shortcut) (m : Method) (fields : List String) : Work :=
  { setup := []
    capture := [captureSelf]
    body := s.run (Shortcut.self m.delivery) fields
    value := m.value
    inTransaction := true }

def transactionWork (m : Method) (function : Code.Path) : Work :=
  let self : Expr := if m.delivery == .direct then .var "self" else .borrow (.var "__this")
  { setup := []
    capture := [captureSelf]
    body := Block.ofExpr (.call (.declared function) (self :: m.params.map fun p => .var p.name))
    value := m.value
    inTransaction := true }

namespace Classified

def code (interface : String) (c : Classified) (names : List String) : Except Problem Block :=
  match c.category with
  | .read q =>
    .ok (Reading.code c.method.delivery (.owned (q.statement.emit .fresh)) q.shape q.tables
      q.inTransaction names)
  | .write q => (q.work c.method (WriteQuery.sourceWith c.method names)).deliver c.method "write query"
  | .shortcut s => (s.work c.method names).deliver c.method s.op.tag
  | .transaction function => (transactionWork c.method function).deliver c.method "transaction"
  | .raw q => .ok (Reading.code c.method.delivery q.statement q.shape q.tables false names)
  | .delegate target => .ok (lowerDelegate interface c.method target)

def announce (c : Classified) : Drafting PUnit :=
  match c.category with
  | .raw q =>
    match q.source with
    | .missing => modify (·.report (.missingStatement c.method.name))
    | _ => pure ⟨⟩
  | _ => pure ⟨⟩

theorem readingBody_eq (delivery : Delivery) (s : ReadStatement) (shape : Shape) (tables : List String)
    (inTransaction : Bool)
    : Reading.body delivery s shape tables inTransaction = (do
        let names ← shape.row.needs.mapM Need.ask
        return Reading.code delivery s shape tables inTransaction names) := by
  unfold Reading.body Reading.code
  cases shape.row with
  | entity e =>
    simp only [rowRead, Row.needs, Row.readWith, Need.ask, List.mapM_cons, List.mapM_nil, bind_assoc,
      pure_bind]
    rfl
  | scalar type => rfl

theorem source_eq (q : WriteQuery) (m : Method)
    : q.source m = (do
        let names ← (q.needs m).mapM Need.ask
        return WriteQuery.sourceWith m names) := by
  unfold WriteQuery.source WriteQuery.needs
  split
  . simp [WriteQuery.sourceWith]
  . simp [WriteQuery.sourceWith, Need.ask]

theorem mapM_adapterField_eq (op : ShortcutOp) (targets : List ResolvedTarget)
    : (targets.mapM (Drafting.adapterField op) : Drafting (List String)) =
        (targets.map fun t => Need.adapter op t.entity t.table).mapM Need.ask := by
  induction targets with
  | nil => rfl
  | cons t rest ih =>
    rw [List.map_cons, List.mapM_cons, List.mapM_cons, ih]
    rfl

/-- A method is lowered by asking for everything that it needs, in order, and then writing its code. -/
theorem lower_eq (interface : String) (c : Classified)
    : c.lower interface = (do
        c.announce
        let names ← c.needs.mapM Need.ask
        MonadExcept.ofExcept (c.code interface names)) := by
  unfold lower announce needs code Category.needs
  cases c.category with
  | read q => exact readingBody_eq _ _ _ _ _
  | write q =>
    change q.lower c.method = _
    unfold WriteQuery.lower
    rw [source_eq]
    simp only [bind_assoc, pure_bind]
    rfl
  | shortcut s =>
    change s.lower c.method = _
    unfold Shortcut.lower
    rw [mapM_adapterField_eq]
    rfl
  | transaction function => rfl
  | raw q =>
    change q.lower c.method = _
    unfold RawQuery.lower
    rw [readingBody_eq]
    dsimp only
    cases q.source with
    | missing => rfl
    | text | owned | borrowed => rfl
  | delegate target => rfl

end Classified

section Rename

variable (f : String → String)

open Code (renameStmts renameStmts_eq_map renameStmts_eq_self renameExprs renamedField fixes_nil)

theorem renameStmts_append (first rest : List Stmt)
    : renameStmts f (first ++ rest) = renameStmts f first ++ renameStmts f rest := by
  simp only [renameStmts_eq_map, List.map_append]

theorem rename_prepend (front : List Stmt) (b : Block)
    : (b.prepend front).rename f = (b.rename f).prepend (renameStmts f front) := by
  obtain ⟨statements, _ | result⟩ := b
  . simp [Block.prepend, Block.rename, Block.statements, Block.result, renameStmts_append]
  . simp [Block.prepend, Block.rename, Block.statements, Block.result, renameStmts_append]

theorem rename_eq_self_of_references {b : Block} (h : b.references = []) : b.rename f = b :=
  b.rename_eq_self (h ▸ fixes_nil)

theorem renameStmts_of_references {statements : List Stmt} (h : Code.stmtReferences statements = [])
    : renameStmts f statements = statements :=
  renameStmts_eq_self statements (h ▸ fixes_nil)

namespace Work

def rename (w : Work) : Work :=
  { w with
    setup := renameStmts f w.setup
    capture := renameStmts f w.capture
    body := w.body.rename f }

theorem direct_rename (w : Work) : (w.rename f).direct = w.direct.rename f := by
  unfold direct
  by_cases h : w.inTransaction = true
  . rw [if_pos h, if_pos (show (w.rename f).inTransaction = true from h)]
    simp [rename, Block.rename, Expr.rename, renameExprs, ownHandle, renamedField]
  . rw [if_neg h, if_neg (show ¬(w.rename f).inTransaction = true from h), rename_prepend]
    rfl

theorem moved_rename (w : Work) (params : List (String × Code.CodeType)) (value : Code.CodeType)
    : (w.rename f).moved params value = (w.moved params value).rename f := by
  simp [moved, rename, Block.rename, Expr.rename]

theorem future_rename (w : Work) : (w.rename f).future = w.future.rename f := by
  unfold future
  rw [moved_rename]
  simp [rename, Block.rename, Expr.rename, renameExprs, ownHandle, renamedField]

theorem suspend_rename (w : Work) : (w.rename f).suspend = w.suspend.rename f := by
  unfold suspend
  rw [moved_rename]
  simp [rename, Block.rename, Expr.rename, renameExprs, ownHandle, renamedField, renameStmts_append,
    renameStmts, Stmt.rename]

theorem deliver_rename (w : Work) (m : Method) (category : String)
    : (w.rename f).deliver m category = (w.deliver m category).map (Block.rename f) := by
  unfold deliver
  cases m.delivery with
  | direct => exact congrArg Except.ok (w.direct_rename f)
  | future => exact congrArg Except.ok (w.future_rename f)
  | suspend => exact congrArg Except.ok (w.suspend_rename f)
  | stream => rfl

theorem deliver_rename_eq_self {w : Work} (hsetup : Code.stmtReferences w.setup = [])
    (hcapture : Code.stmtReferences w.capture = []) (hbody : w.body.references = []) (m : Method)
    (category : String) : (w.deliver m category).map (Block.rename f) = w.deliver m category := by
  rw [← deliver_rename]
  congr 1
  unfold rename
  rw [renameStmts_of_references f hsetup, renameStmts_of_references f hcapture,
    rename_eq_self_of_references f hbody]

end Work

def StatementSource.rename : StatementSource → StatementSource
  | fresh => fresh
  | shared field => shared (f field)
  | copy field => copy (f field)

theorem BoundStatement.emit_rename (s : BoundStatement) {source : StatementSource}
    (h : source.field? ≠ some "__db") : s.emit (source.rename f) = renameStmts f (s.emit source) := by
  have hfixed : (s.fixedStatement source).rename f = s.fixedStatement (source.rename f) := by
    cases source with
    | fresh => rfl
    | shared field | copy field =>
      have hfield : field ≠ "__db" := fun heq => h (congrArg some heq)
      simp [fixedStatement, StatementSource.rename, Expr.rename, renameExprs, renamedField, hfield]
  by_cases hexpandable : s.isExpandable = true
  . have hreferences := s.references_emit source
    rw [if_pos hexpandable] at hreferences
    rw [renameStmts_of_references f hreferences]
    unfold emit
    rw [if_pos hexpandable, if_pos hexpandable]
  . unfold emit
    rw [if_neg hexpandable, if_neg hexpandable]
    unfold emitFixed
    rw [renameStmts, Stmt.rename, hfixed]
    congr 1
    symm
    apply renameStmts_of_references
    apply Code.stmtReferences_eq_nil
    intro b hb
    obtain ⟨⟨p, i⟩, _, rfl⟩ := List.mem_map.1 hb
    exact references_bindTo _ (by simp) (references_scalarValue p)

theorem WriteQuery.work_rename (q : WriteQuery) (m : Method) (source : StatementSource)
    (h : source.field? ≠ some "__db") : q.work m (source.rename f) = (q.work m source).rename f := by
  have hcapture : renameStmts f [captureHandle] = [captureHandle] :=
    renameStmts_of_references f (by simp)
  unfold work Work.rename
  dsimp only
  rw [q.statement.emit_rename f h, rename_eq_self_of_references f (q.references_run m.delivery),
    hcapture]

namespace Shortcut

theorem callOn_rename (delivery : Delivery) (t : ResolvedTarget) {field : String}
    (h : field ≠ "__db") (method : Code.Method)
    : callOn (self delivery) t (f field) method = (callOn (self delivery) t field method).rename f := by
  unfold callOn
  cases delivery with
  | direct | suspend | future | stream =>
    cases t.many with
    | true => simp [self, Expr.rename, renameExprs, renamedField, h]
    | false => simp [self, Expr.rename, renameExprs, renamedField, h]

theorem map_zip_rename (make : ResolvedTarget → String → Stmt) {targets : List ResolvedTarget}
    {fields : List String} (h : ∀ t, ∀ field ∈ fields, make t (f field) = (make t field).rename f)
    : ((targets.zip (fields.map f)).map fun (t, field) => make t field) =
        renameStmts f ((targets.zip fields).map fun (t, field) => make t field) := by
  rw [renameStmts_eq_map, List.zip_map_right, List.map_map, List.map_map]
  apply List.map_congr_left
  rintro ⟨t, field⟩ hmem
  exact h t field (List.of_mem_zip hmem).2

theorem run_rename (s : Shortcut) (delivery : Delivery) {fields : List String}
    (h : ∀ field ∈ fields, field ≠ "__db")
    : s.run (self delivery) (fields.map f) = (s.run (self delivery) fields).rename f := by
  have operations (make : Expr → Stmt) (hmake : ∀ e, (make e).rename f = make (e.rename f))
      : ((s.targets.zip (fields.map f)).map fun (t, field) =>
            operate s.op (self delivery) t field).map make =
          renameStmts f (((s.targets.zip fields).map fun (t, field) =>
            operate s.op (self delivery) t field).map make) := by
    rw [List.map_map, List.map_map]
    apply map_zip_rename f fun t field => make (operate s.op (self delivery) t field)
    intro t field hfield
    rw [hmake, operate, callOn_rename f delivery t (h field hfield)]
    rfl
  have returned
      : ((s.targets.zip (fields.map f)).take 1).map (fun (t, field) =>
            Stmt.bind false "_result" none (callOn (self delivery) t field (returning s.op t.many))) =
          renameStmts f (((s.targets.zip fields).take 1).map fun (t, field) =>
            .bind false "_result" none (callOn (self delivery) t field (returning s.op t.many))) := by
    rw [List.zip, List.take_zipWith, List.take_zipWith, ← List.map_take]
    apply map_zip_rename f fun t field =>
      .bind false "_result" none (callOn (self delivery) t field (returning s.op t.many))
    intro t field hfield
    rw [callOn_rename f delivery t (h field (List.mem_of_mem_take hfield))]
    rfl
  unfold run
  cases s.result with
  | unit =>
    dsimp only
    rw [operations .run fun _ => rfl, Block.rename]
    rfl
  | count type =>
    dsimp only
    rw [operations (.addTo "_total") fun _ => rfl, Block.rename]
    rfl
  | rowId | rowIds =>
    dsimp only
    rw [returned, Block.rename]
    rfl

theorem work_rename (s : Shortcut) (m : Method) {fields : List String}
    (h : ∀ field ∈ fields, field ≠ "__db") : s.work m (fields.map f) = (s.work m fields).rename f := by
  have hcapture : renameStmts f [captureSelf] = [captureSelf] :=
    renameStmts_of_references f (by simp)
  unfold work Work.rename
  dsimp only
  rw [s.run_rename f m.delivery h, hcapture]
  rfl

end Shortcut

theorem Reading.code_rename_eq_self (delivery : Delivery) {s : ReadStatement} (hs : s.IsPlain)
    (shape : Shape) (tables : List String) (inTransaction : Bool) (names : List String)
    : (code delivery s shape tables inTransaction names).rename f =
        code delivery s shape tables inTransaction names := by
  obtain ⟨functions, hfunctions⟩ : ∃ functions, Reads (shape.row.readWith names) functions := by
    cases shape.row with
    | entity e => exact ⟨_, reads_ofEntity _⟩
    | scalar type => exact ⟨_, reads_ofScalar type⟩
  have hreferences : (code delivery s shape tables inTransaction names).references =
      functions.map .rowFunction :=
    references_delivered delivery hs shape hfunctions tables inTransaction
  apply Block.rename_eq_self
  intro name hname
  rw [hreferences] at hname
  simp at hname

def Need.renamed : Need → String → String
  | adapter _ _ _, name | prepared _ _, name => f name
  | row _, name => name

/-- The code of a method under other names of helpers is its code with the helpers renamed. -/
theorem Classified.code_rename (interface : String) (c : Classified) {names : List String}
    (hlength : names.length = c.needs.length) (hnames : ∀ name ∈ names, name ≠ "__db")
    : c.code interface (List.zipWith (Need.renamed f) c.needs names) =
        (c.code interface names).map (Block.rename f) := by
  have rows (row : Row) (h : names.length = row.needs.length)
      : List.zipWith (Need.renamed f) row.needs names = names := by
    cases row with
    | scalar => exact (List.length_eq_zero_iff.1 h).symm
    | entity e =>
      obtain ⟨name, rfl⟩ := List.length_eq_one_iff.1 h
      rfl
  unfold code needs Category.needs at *
  cases hc : c.category with
  | read q =>
    rw [hc] at hlength
    change Except.ok _ = Except.ok _
    rw [rows q.shape.row hlength, Reading.code_rename_eq_self f _ (ReadStatement.isPlain_emit _)]
  | write q =>
    rw [hc] at hlength
    change names.length = (q.needs c.method).length at hlength
    dsimp only
    rw [← Work.deliver_rename]
    congr 1
    unfold WriteQuery.needs at hlength ⊢
    split at hlength
    . next hexpandable =>
      rw [List.length_eq_zero_iff.1 hlength, if_pos hexpandable]
      exact q.work_rename f c.method .fresh (by simp [StatementSource.field?])
    . next hscalar =>
      obtain ⟨name, rfl⟩ := List.length_eq_one_iff.1 hlength
      have hname : name ≠ "__db" := hnames name (by simp)
      rw [if_neg hscalar]
      unfold WriteQuery.sourceWith
      dsimp only [List.zipWith, Need.renamed]
      split
      . exact q.work_rename f c.method (.shared name)
          (by simp [StatementSource.field?, hname])
      . exact q.work_rename f c.method (.copy name) (by simp [StatementSource.field?, hname])
  | shortcut s =>
    rw [hc] at hlength
    change names.length = s.needs.length at hlength
    dsimp only
    rw [← Work.deliver_rename, ← s.work_rename f c.method hnames]
    have hzip : List.zipWith (Need.renamed f) s.needs names = names.map f := by
      unfold Shortcut.needs at hlength ⊢
      generalize s.targets = targets at hlength
      clear hc hnames rows
      induction targets generalizing names with
      | nil => simpa using hlength
      | cons t rest ih =>
        cases names with
        | nil => rfl
        | cons name names =>
          rw [List.map_cons, List.zipWith_cons_cons, List.map_cons, ih (Nat.succ.inj hlength)]
          rfl
    rw [hzip]
  | transaction function =>
    dsimp only
    rw [Work.deliver_rename_eq_self f rfl (by simp [transactionWork])]
    unfold transactionWork
    dsimp only
    split
    . exact references_callFunction function (by simp) c.method.params
    . exact references_callFunction function (by simp) c.method.params
  | raw q =>
    rw [hc] at hlength
    change Except.ok _ = Except.ok _
    rw [rows q.shape.row hlength, Reading.code_rename_eq_self f _ q.isPlain_statement]
  | delegate target =>
    change Except.ok _ = Except.ok _
    rw [rename_eq_self_of_references f (references_lowerDelegate interface c.method target)]

end Rename

end DataAccess
