import DataAccess.Code.Expr

/-!
This module contains the printer of the generated code: `Block.tokens` and its companions turn syntax
into tokens. All of them take the path under which the generated code finds the runtime library.
-/

namespace DataAccess.Code

def rootPath (names : List String) : List Token :=
  names.flatMap fun name => symbols "::" ++ [.word name]

def runtimeName (runtime : Path) (names : List String) : List Token :=
  runtime.tokens ++ rootPath names

def applied (head : List Token) (argument : List Token) : List Token :=
  head ++ symbols "<" ++ argument ++ symbols ">"

namespace CodeType

def tokens (runtime : Path) : CodeType → List Token
  | declared t => t.tokens
  | unit => symbols "()"
  | count => [.word "usize"]
  | result value =>
    applied (rootPath ["std", "result", "Result"])
      (value.tokens runtime ++ symbols "," ++ runtimeName runtime ["DaoError"])
  | option value => applied (rootPath ["std", "option", "Option"]) (value.tokens runtime)
  | signal => symbols "&" ++ runtimeName runtime ["CancellationSignal"]
  | statement => symbols "&" ++ [.word "mut"] ++ runtimeName runtime ["SqlQuery"]
  | entity name => symbols "&" ++ [.word name]

end CodeType

namespace Function

def converterMethod (runtime : Path) (converter : Path) (name : String) : List Token :=
  symbols "<" ++ converter.tokens ++ [.word "as"] ++ runtimeName runtime ["TypeConverter"] ++
    symbols ">::" ++ [.word name]

def adapterConstructor (runtime : Path) (adapter entity : String) : List Token :=
  runtimeName runtime [adapter] ++ symbols "::" ++ applied [] [.word entity] ++ rootPath ["new"]

def tokens (runtime : Path) : Function → List Token
  | acquire => runtimeName runtime ["SqlQuery", "acquire"]
  | newSharedStatement => runtimeName runtime ["SharedStatement", "new"]
  | statementText => runtimeName runtime ["SqlQuery", "sql"]
  | appendPlaceholders => runtimeName runtime ["append_placeholders"]
  | rowCount type => runtimeName runtime ["row_count"] ++ symbols "::" ++ applied [] type.tokens
  | toColumn converter => converterMethod runtime converter "to_column"
  | fromColumn converter => converterMethod runtime converter "from_column"
  | createFuture => runtimeName runtime ["create_future"]
  | createStream => runtimeName runtime ["create_stream"]
  | launch => runtimeName runtime ["launch"]
  | newInsertAdapter entity => adapterConstructor runtime "InsertAdapter" entity
  | newChangeAdapter entity => adapterConstructor runtime "DeleteOrUpdateAdapter" entity
  | newUpsertAdapter => runtimeName runtime ["UpsertAdapter", "new"]
  | share => rootPath ["std", "sync", "Arc", "clone"]
  | clone => rootPath ["std", "clone", "Clone", "clone"]
  | toText => rootPath ["std", "string", "ToString", "to_string"]
  | convert => rootPath ["std", "convert", "Into", "into"]
  | newText => rootPath ["std", "string", "String", "new"]
  | listWithCapacity => rootPath ["std", "vec", "Vec", "with_capacity"]
  | rowAdapter name => [.word "Self"] ++ rootPath [name]
  | interfaceMethod interface name =>
    symbols "<" ++ [.word "Self", .word "as", .word interface] ++ symbols ">" ++ rootPath [name]
  | declared path => path.tokens

end Function

namespace Method

def name : Method → String
  | acquire => "acquire"
  | newQuery => "new_query"
  | bind => "bind"
  | bindNull => "bind_null"
  | len => "len"
  | iter => "iter"
  | pushText => "push_str"
  | push => "push"
  | query => "query"
  | executeOn => "execute_on"
  | executeInsertOn => "execute_insert_on"
  | runInTransaction => "run_in_transaction"
  | moveToNext => "move_to_next"
  | count => "count"
  | close => "close"
  | isNull => "is_null"
  | columnIndex => "column_index_or_err"
  | get _ => "get"
  | map => "map"
  | insert => "insert"
  | insertAll => "insert_all"
  | insertReturningId => "insert_and_return_id"
  | insertReturningIds => "insert_and_return_ids"
  | handle => "handle"
  | handleAll => "handle_multiple"
  | upsert => "upsert"
  | upsertAll => "upsert_all"
  | upsertReturningId => "upsert_and_return_id"
  | upsertReturningIds => "upsert_and_return_ids"

def tokens (runtime : Path) : Method → List Token
  | get (some type) => [.word "get"] ++ symbols "::" ++ applied [] (type.tokens runtime)
  | m => [.word m.name]

end Method

def parenthesized (inside : List Token) : List Token :=
  symbols "(" ++ inside ++ symbols ")"

def braced (inside : List Token) : List Token :=
  symbols "\x7b" ++ inside ++ symbols "\x7d"

def closureParams (runtime : Path) (params : List (String × CodeType)) : List Token :=
  symbols "|" ++
    separated (symbols ",") (params.map fun (name, type) =>
      [.word name] ++ symbols ":" ++ type.tokens runtime) ++
    symbols "|"

def typeAnnotation (runtime : Path) : Option CodeType → List Token
  | none => []
  | some type => symbols ":" ++ type.tokens runtime

def resultAnnotation (runtime : Path) : Option CodeType → List Token
  | none => []
  | some type => symbols "->" ++ type.tokens runtime

variable (runtime : Path)

mutual

def Expr.tokens : Expr → List Token
  | .var name => [.word name]
  | .text value => [.text value]
  | .number n typed => [.word (toString n ++ if typed then "usize" else "")]
  | .bool b => [.word (if b then "true" else "false")]
  | .unit => symbols "()"
  | .field e name => e.tokens ++ symbols "." ++ [.word name]
  | .call f args => f.tokens runtime ++ parenthesized (separated (symbols ",") (exprTokens args))
  | .function f => f.tokens runtime
  | .method receiver m args =>
    receiver.tokens ++ symbols "." ++ m.tokens runtime ++
      parenthesized (separated (symbols ",") (exprTokens args))
  | .borrow e => symbols "&" ++ e.tokens
  | .borrowMut e => symbols "&" ++ [.word "mut"] ++ e.tokens
  | .attempt e => e.tokens ++ symbols "?"
  | .add a b => a.tokens ++ symbols "+" ++ b.tokens
  | .array items => symbols "[" ++ separated (symbols ",") (exprTokens items) ++ symbols "]"
  | .ok e => rootPath ["std", "result", "Result", "Ok"] ++ parenthesized e.tokens
  | .err e => rootPath ["std", "result", "Result", "Err"] ++ parenthesized e.tokens
  | .some e => rootPath ["std", "option", "Option", "Some"] ++ parenthesized e.tokens
  | .none => rootPath ["std", "option", "Option", "None"]
  | .missingResult statement =>
    runtimeName runtime ["DaoError", "MissingResult"] ++
      braced ([.word "sql"] ++ symbols ":" ++ Function.toText.tokens runtime ++
        parenthesized (Function.statementText.tokens runtime ++ parenthesized statement.tokens))
  | .record name fields => [.word name] ++ braced (separated (symbols ",") (fieldTokens fields))
  | .block b => braced b.tokens
  | .ifElse condition yes no =>
    [.word "if"] ++ condition.tokens ++ braced yes.tokens ++ [.word "else"] ++ braced no.tokens
  | .matchOption e binder present absent =>
    [.word "match"] ++ e.tokens ++ braced (
      rootPath ["std", "option", "Option", "Some"] ++ parenthesized [.word binder] ++
        symbols "=>" ++ braced present.tokens ++
        rootPath ["std", "option", "Option", "None"] ++ symbols "=>" ++ absent.tokens)
  | .closure moves params result body =>
    (if moves then [.word "move"] else []) ++ closureParams runtime params ++
      resultAnnotation runtime result ++ braced body.tokens

def exprTokens : List Expr → List (List Token)
  | [] => []
  | e :: rest => e.tokens :: exprTokens rest

def FieldInit.tokens : FieldInit → List Token
  | .mk name value => [.word name] ++ symbols ":" ++ value.tokens

def fieldTokens : List FieldInit → List (List Token)
  | [] => []
  | f :: rest => f.tokens :: fieldTokens rest

def Stmt.tokens : Stmt → List Token
  | .bind mutable name type value =>
    [.word "let"] ++ (if mutable then [.word "mut"] else []) ++ [.word name] ++
      typeAnnotation runtime type ++ symbols "=" ++ value.tokens ++ symbols ";"
  | .run e => e.tokens ++ symbols ";"
  | .runBlock e => e.tokens
  | .addTo name value => [.word name] ++ symbols "+=" ++ value.tokens ++ symbols ";"
  | .forIn name items body =>
    [.word "for", .word name, .word "in"] ++ items.tokens ++ braced (stmtTokens body)
  | .whileLoop condition body => [.word "while"] ++ condition.tokens ++ braced (stmtTokens body)
  | .ret e => [.word "return"] ++ e.tokens ++ symbols ";"

def stmtTokens : List Stmt → List Token
  | [] => []
  | s :: rest => s.tokens ++ stmtTokens rest

def Block.tokens : Block → List Token
  | .mk statements none => stmtTokens statements
  | .mk statements (some result) => stmtTokens statements ++ result.tokens

end

end DataAccess.Code
