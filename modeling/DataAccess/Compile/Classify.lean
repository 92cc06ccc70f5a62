import DataAccess.Compile.Category
import DataAccess.Sql.Tables
import DataAccess.Sql.Verb

/-!
This module contains the classification of methods. It finds the category of a method with all that
belongs to it, or every problem of the method: first each undeclared converter of a parameter, then
what keeps the method from its category, or else what keeps the category from its delivery.
-/

namespace DataAccess

open Code (Path TypeExpr)

namespace Interface

def converterProblems (i : Interface) (owner : String) (converters : List Path) : List Problem :=
  (converters.filter fun c => !i.declares c).map fun c => .unknownConverter owner c.compact

/-- The entity itself, unless one of its converters is undeclared; then the first such problem. -/
def checkedEntity (i : Interface) (e : Entity) : Except Problem Entity :=
  match i.converterProblems e.name e.converters with
  | [] => .ok e
  | p :: _ => .error p

def requireEntity (i : Interface) (m : Method) (name : String) : Except Problem Entity :=
  match i.entity? name with
  | some e => i.checkedEntity e
  | none => .error (.unknownEntity m.name name)

def resolveRow (i : Interface) (m : Method) : RowShape → Except Problem Row
  | .entity name => do return .entity (← i.requireEntity m name)
  | .scalar type => .ok (.scalar type)

/-- The row of a type: the entity of that name, or else a scalar. -/
def inferRow (i : Interface) (type : TypeExpr) : Except Problem Row :=
  match type.simpleName.bind i.entity? with
  | some e => do return .entity (← i.checkedEntity e)
  | none => .ok (.scalar type)

def badReturn (m : Method) (rule : ReturnRule) : Problem :=
  .unsupportedReturn m.name ((m.returns.map TypeExpr.compact).getD "()") rule

/-- The result of a query: as declared if the return type allows it, or else as the return type
says. -/
def resolveShape (i : Interface) (m : Method) (declared : Option ResultShape) :
    Except Problem Shape :=
  match m.returns with
  | none => .error (badReturn m .queriesReturn)
  | some value =>
    match declared with
    | some (.list row) =>
      if (value.genericArg "Vec").isNone then .error (badReturn m .listsAreVec)
      else do return ⟨.list, ← i.resolveRow m row, value⟩
    | some (.single row nullable) =>
      if nullable && (value.genericArg "Option").isNone then .error (badReturn m .nullableIsOption)
      else do return ⟨if nullable then .optional else .single, ← i.resolveRow m row, value⟩
    | none =>
      match value.genericArg "Vec", value.genericArg "Option" with
      | some item, _ => do return ⟨.list, ← i.inferRow item, value⟩
      | none, some inner => do return ⟨.optional, ← i.inferRow inner, value⟩
      | none, none => do return ⟨.single, ← i.inferRow value, value⟩

def resolveRead (i : Interface) (m : Method) (sql : String) (declared : Option ResultShape)
    (tables : List String) (inTransaction : Bool) : Except Problem Category := do
  let statement ← BoundStatement.resolve m sql
  let kind := statement.template.kind
  if kind != .select && kind != .other then throw (.unclassifiable m.name .readWrites)
  let tables := if tables.isEmpty then statement.template.tables else tables
  return .read ⟨statement, ← i.resolveShape m declared, tables, inTransaction⟩

def writeResult (m : Method) (kind : Sql.StatementKind) : Except Problem WriteResult :=
  match m.returns with
  | none => .ok .unit
  | some type =>
    if kind == .insert && type.isRowId then .ok .rowId
    else if type.isInteger then .ok (.count type)
    else .error (badReturn m .writesReturn)

def resolveWrite (m : Method) (sql : String) : Except Problem Category := do
  let statement ← BoundStatement.resolve m sql
  let kind := statement.template.kind
  if kind == .select then throw (.unclassifiable m.name .writeReads)
  return .write ⟨statement, ← writeResult m kind, statement.template.tables⟩

def resolveTarget (i : Interface) (m : Method) (op : ShortcutOp) (t : Target) :
    Except Problem ResolvedTarget := do
  let some param := m.param? t.param
    | throw (.unclassifiable m.name (.targetNotParameter t.param))
  let entity ← i.requireEntity m t.entity
  if entity.fields.isEmpty then throw (.unclassifiable m.name (.entityWithoutFields entity.name))
  let table ← match entity.projectionOf with
    | some full => do pure (← i.requireEntity m full).table
    | none => pure entity.table
  if op.needsKey && !entity.hasCompleteKey then throw (.missingPrimaryKey m.name entity.name)
  return ⟨param, entity, table, t.many⟩

/-- The result of a shortcut. Only shortcuts with a single target give back row ids. -/
def shortcutResult (m : Method) (op : ShortcutOp) (targets : List ResolvedTarget) :
    Except Problem ShortcutResult :=
  match m.returns with
  | none => .ok .unit
  | some type =>
    match op with
    | .insert _ | .upsert =>
      match targets with
      | [only] =>
        if !only.many && type.isRowId then .ok .rowId
        else if only.many && (type.genericArg "Vec").any TypeExpr.isRowId then .ok .rowIds
        else .error (badReturn m .insertsReturn)
      | _ => .error (badReturn m .insertsReturn)
    | .delete | .update _ =>
      if type.isInteger then .ok (.count type) else .error (badReturn m .changesReturn)

def resolveShortcut (i : Interface) (m : Method) (op : ShortcutOp) (targets : List Target) :
    Except Problem Category := do
  if targets.isEmpty then throw (.unclassifiable m.name .noTargets)
  let targets ← targets.mapM (i.resolveTarget m op)
  return .shortcut ⟨op, targets, ← shortcutResult m op targets⟩

def rawSource (m : Method) (param : Option String) : RawSource :=
  match param.bind m.param? with
  | none => .missing
  | some p =>
    if p.type.isSqlText then .text p
    else
      match p.type.statementBorrow with
      | some true => .borrowed p
      | some false => .owned p
      | none => .missing

def resolveRaw (i : Interface) (m : Method) (param : Option String) (declared : Option ResultShape)
    (tables : List String) : Except Problem Category := do
  if m.delivery == .stream && tables.isEmpty then
    throw (.unsupportedDelivery m.name "unobserved raw query" m.delivery)
  return .raw ⟨rawSource m param, ← i.resolveShape m declared, tables⟩

def resolveDelegate (i : Interface) (m : Method) (target : String) : Except Problem Category := do
  let reject (why : DelegateFault) : Problem := .unknownDelegate m.name target why
  let some found := i.method? target | throw (reject .missing)
  if found.name == m.name then throw (reject .itself)
  if found.delivery != .direct then throw (reject .notDirect)
  if let .delegate _ := found.kind then throw (reject .delegates)
  if found.params.length != m.params.length then throw (reject .parameterCount)
  return .delegate found

def resolve (i : Interface) (m : Method) : Except Problem Category :=
  match m.kind with
  | .read sql shape tables inTransaction => i.resolveRead m sql shape tables inTransaction
  | .write sql => resolveWrite m sql
  | .insert targets policy => i.resolveShortcut m (.insert policy) targets
  | .delete targets => i.resolveShortcut m .delete targets
  | .update targets policy => i.resolveShortcut m (.update policy) targets
  | .upsert targets => i.resolveShortcut m .upsert targets
  | .transaction body => .ok (.transaction body)
  | .raw param shape tables => i.resolveRaw m param shape tables
  | .delegate target => i.resolveDelegate m target

def deliveryProblems (m : Method) (c : Category) : List Problem :=
  if !c.supports m.delivery then [.unsupportedDelivery m.name c.tag m.delivery]
  else if m.delivery.isAsync && c.movesParameters then
    (m.params.filter Parameter.isBorrowed).map fun p => .borrowedAsyncParameter m.name p.name
  else []

def unusedParameters (m : Method) : List Parameter :=
  match m.kind with
  | .read sql _ _ _ | .write sql => BoundStatement.unused m sql
  | _ => []

def classify (i : Interface) (m : Method) : Except Problem Classified :=
  let converters := i.converterProblems m.name (m.params.filterMap (·.converter))
  match i.resolve m with
  | .error p =>
    .error ((Problem.combine (converters ++ [p])).getD p)
  | .ok category =>
    match Problem.combine (converters ++ deliveryProblems m category) with
    | some p => .error p
    | none => .ok ⟨m, category, unusedParameters m⟩

end Interface

end DataAccess
