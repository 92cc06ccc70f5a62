import DataAccess.Compile.Category
import DataAccess.Compile.Draft
import DataAccess.Text.SnakeCase

/-!
This module contains the fields that methods share: adapters that write entities, with their SQL and
the functions that bind entities to it, and prepared statements. Each is written once per signature.
-/

namespace DataAccess

open Code (Block CodeType Expr Path Stmt)

namespace AdapterSql

def quoted (name : String) : String :=
  "\x60" ++ name ++ "\x60"

def verb (word : String) : Option ConflictPolicy → String
  | some policy => word ++ " OR " ++ policy.keyword
  | none => word

def equation (f : Field) : String :=
  quoted f.column ++ " = ?"

def insert (e : Entity) (table : String) (policy : Option ConflictPolicy) : String :=
  verb "INSERT" policy ++ " INTO " ++ quoted table ++ " (" ++
    ",".intercalate (e.fields.map fun f => quoted f.column) ++ ") VALUES (" ++
    ",".intercalate (e.fields.map fun _ => "?") ++ ")"

def keyCondition (e : Entity) : String :=
  " AND ".intercalate (e.keyFields.map equation)

def delete (e : Entity) (table : String) : String :=
  "DELETE FROM " ++ quoted table ++ " WHERE " ++ keyCondition e

def update (e : Entity) (table : String) (policy : Option ConflictPolicy) : String :=
  verb "UPDATE" policy ++ " " ++ quoted table ++ " SET " ++
    ",".intercalate (e.fields.map equation) ++ " WHERE " ++ keyCondition e

end AdapterSql

namespace AdapterCode

def fieldOf (f : Field) : Expr :=
  .borrow (.field (.var "_entity") f.name)

/-- Binds a field to a slot. A converter sees the value in a nullable field, never its absence. -/
def bindField (slot : Nat) (f : Field) : Stmt :=
  let index := Expr.number slot true
  let bind (value : Expr) : Expr := .method BoundStatement.statementVar .bind [index, value]
  match f.converter, f.nullable with
  | none, _ => .run (bind (fieldOf f))
  | some c, false => .run (bind (.borrow (.call (.toColumn c) [fieldOf f])))
  | some c, true =>
    .runBlock (.matchOption (fieldOf f) "_value"
      (Block.ofExpr (bind (.borrow (.call (.toColumn c) [.var "_value"]))))
      (.method BoundStatement.statementVar .bindNull [index]))

def bindFields (fields : List Field) : List Stmt :=
  fields.zipIdx.map fun (f, i) => bindField (i + 1) f

def binder (e : Entity) (fields : List Field) : Expr :=
  .closure false [("_statement", .statement), ("_entity", .entity e.name)] none
    (.mk (bindFields fields) none)

def build (new : Code.Function) (e : Entity) (table sql : String) (fields : List Field) : Expr :=
  .call new
    [.call .share [.borrow (.var "__db")], .text table, .text sql, .number fields.length true,
     binder e fields]

def insert (e : Entity) (table : String) (policy : Option ConflictPolicy) : Expr :=
  build (.newInsertAdapter e.name) e table (AdapterSql.insert e table policy) e.fields

def delete (e : Entity) (table : String) : Expr :=
  build (.newChangeAdapter e.name) e table (AdapterSql.delete e table) e.keyFields

def update (e : Entity) (table : String) (policy : Option ConflictPolicy) : Expr :=
  build (.newChangeAdapter e.name) e table (AdapterSql.update e table policy)
    (e.fields ++ e.keyFields)

def upsert (e : Entity) (table : String) : Expr :=
  .call .newUpsertAdapter [insert e table none, update e table none]

end AdapterCode

def adapterRequest (op : ShortcutOp) (e : Entity) (table : String) : HelperRequest :=
  let fingerprint := table ++ ":" ++ e.fingerprint
  let named (stem : String) := stem ++ Text.snakeCase e.name
  match op with
  | .insert policy =>
    ⟨"insert:" ++ e.label ++ ":" ++ policy.keyword, fingerprint, named "__insertion_adapter_of_",
      .insertAdapter e.name, AdapterCode.insert e table (some policy)⟩
  | .delete =>
    ⟨"delete:" ++ e.label, fingerprint, named "__deletion_adapter_of_", .changeAdapter e.name,
      AdapterCode.delete e table⟩
  | .update policy =>
    ⟨"update:" ++ e.label ++ ":" ++ policy.keyword, fingerprint, named "__update_adapter_of_",
      .changeAdapter e.name, AdapterCode.update e table (some policy)⟩
  | .upsert =>
    ⟨"upsert:" ++ e.label, fingerprint, named "__upsertion_adapter_of_", .upsertAdapter e.name,
      AdapterCode.upsert e table⟩

def preparedRequest (m : Method) (s : BoundStatement) : HelperRequest :=
  ⟨"prepared:" ++ m.name, s.positionalSql ++ "/" ++ toString s.argCount,
    "__prepared_stmt_of_" ++ Text.snakeCase m.name, .sharedStatement,
    .call .newSharedStatement [.text s.positionalSql, .number s.argCount true]⟩

namespace Drafting

def adapterField (op : ShortcutOp) (t : ResolvedTarget) : Drafting String := do
  modify (·.noteConverters t.entity.converters)
  request (adapterRequest op t.entity t.table)

def preparedField (m : Method) (s : BoundStatement) : Drafting String :=
  request (preparedRequest m s)

end Drafting

end DataAccess
