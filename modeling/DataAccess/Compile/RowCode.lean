import DataAccess.Compile.Draft
import DataAccess.Text.SnakeCase

/-!
This module contains the functions that read rows as entities. Methods share them, one per entity. Entities and
fields have plain names: functions and variables cannot be called after a raw one, such as `r#type`.
-/

namespace DataAccess

open Code (Block Expr FieldInit Stmt)

namespace RowCode

def cursorVar : Expr := .var "_cursor"

def indexName (f : Field) : String :=
  "_index_of_" ++ f.name

def lookUp (f : Field) : Stmt :=
  .bind false (indexName f) none (.attempt (.method cursorVar .columnIndex [.text f.column]))

/-- Reads a field. A converter sees the value in a nullable column, never its absence. -/
def readField (f : Field) : Expr :=
  let index := Expr.var (indexName f)
  let column := Expr.attempt (.method cursorVar (.get none) [index])
  match f.converter, f.nullable with
  | none, _ => column
  | some c, false => .call (.fromColumn c) [column]
  | some c, true =>
    .ifElse (.method cursorVar .isNull [index]) (Block.ofExpr .none)
      (Block.ofExpr (.some (.call (.fromColumn c) [column])))

def body (e : Entity) : Block :=
  .mk (e.fields.map lookUp)
    (some (.ok (.record e.name (e.fields.map fun f => .mk f.name (readField f)))))

def adapter (e : Entity) : RowAdapter :=
  ⟨"__entity_cursor_converter_" ++ Text.snakeCase e.name, e.name, e.fingerprint, body e⟩

end RowCode

namespace Drafting

def rowFunction (e : Entity) : Drafting String :=
  requestRow (RowCode.adapter e) e.converters

end Drafting

end DataAccess
