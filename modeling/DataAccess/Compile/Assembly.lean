import DataAccess.Code.Printer
import DataAccess.Compile.Plan

/-!
This module contains the assembly of a plan into the code of an implementation.
-/

namespace DataAccess

open Code (CodeType Path Token applied braced parenthesized rootPath runtimeName separated symbols)

def sharedType (inside : List Token) : List Token :=
  applied (rootPath ["std", "sync", "Arc"]) inside

def HelperType.tokens (runtime : Path) : HelperType → List Token
  | insertAdapter e => applied (runtimeName runtime ["InsertAdapter"]) [.word e]
  | changeAdapter e => applied (runtimeName runtime ["DeleteOrUpdateAdapter"]) [.word e]
  | upsertAdapter e => applied (runtimeName runtime ["UpsertAdapter"]) [.word e]
  | sharedStatement => runtimeName runtime ["SharedStatement"]

def callbackParam (runtime : Path) (value : CodeType) : List Token :=
  [.word callbackName] ++ symbols ":" ++
    sharedType ([.word "dyn"] ++
      applied (runtimeName runtime ["TransactionCallback"]) (value.tokens runtime))

def resultTokens (runtime : Path) (value : CodeType) : Delivery → List Token
  | .direct => symbols "->" ++ (CodeType.result value).tokens runtime
  | .future => symbols "->" ++ applied (runtimeName runtime ["QueryFuture"]) (value.tokens runtime)
  | .stream => symbols "->" ++ applied (runtimeName runtime ["QueryStream"]) (value.tokens runtime)
  | .suspend => []

def Method.paramTokens (m : Method) (runtime : Path) : List (List Token) :=
  let own := m.params.map fun p => [.word p.name] ++ symbols ":" ++ p.type.tokens
  match m.delivery with
  | .suspend => own ++ [callbackParam runtime m.value]
  | _ => own

def Method.signature (m : Method) (runtime : Path) : List Token :=
  [.word "fn", .word m.name] ++
    parenthesized (separated (symbols ",")
      ((symbols "&" ++ [.word "self"]) :: m.paramTokens runtime)) ++
    resultTokens runtime m.value m.delivery

namespace Plan

def doc (text : String) : List Token :=
  symbols "#[" ++ [.word "doc"] ++ symbols "=" ++ [.text text] ++ symbols "]"

def annotation (name : String) (args : List (List Token)) : List Token :=
  symbols "#[" ++ [.word name] ++ parenthesized (separated (symbols ",") args) ++ symbols "]"

def handleType (p : Plan) : List Token :=
  sharedType (runtimeName p.runtime ["Database"])

def structTokens (p : Plan) : List Token :=
  doc ("Generated implementation of [\x60" ++ p.interface ++ "\x60].") ++
    annotation "derive" [[.word "Clone"]] ++
    [.word "pub", .word "struct", .word p.implementation] ++
    braced ([.word "__db"] ++ symbols ":" ++ p.handleType ++ symbols "," ++
      p.fields.flatMap fun f =>
        [.word f.name] ++ symbols ":" ++ f.type.tokens p.runtime ++ symbols ",")

def constructorInput (p : Plan) : List Token × List Token :=
  match p.backing with
  | some backing =>
    ([.word "__backing"] ++ symbols ":" ++ backing.tokens,
     [.word "let", .word "__db"] ++ symbols ":" ++ p.handleType ++ symbols "=" ++
      (Code.Expr.call .convert [.var "__backing"]).tokens p.runtime ++ symbols ";")
  | none => ([.word "__db"] ++ symbols ":" ++ p.handleType, [])

def constructorTokens (p : Plan) : List Token :=
  let (param, handle) := p.constructorInput
  doc ("Create a \x60" ++ p.implementation ++
      "\x60 wiring every shared helper against the handle.") ++
    [.word "pub", .word "fn", .word "new"] ++ parenthesized param ++ symbols "->" ++
    [.word "Self"] ++
    braced (handle ++
      Code.stmtTokens p.runtime (p.fields.map fun f => .bind false f.name none f.value) ++
      [.word "Self"] ++
      braced ((p.fields.flatMap fun f => [.word f.name] ++ symbols ",") ++ [.word "__db"]))

def convertersTokens (p : Plan) : List Token :=
  let text := symbols "&" ++ [.lifetime "static"]
  doc " Custom converters used by this implementation, sorted." ++
    [.word "pub", .word "fn", .word "required_converters"] ++ parenthesized [] ++ symbols "->" ++
    text ++ symbols "[" ++ text ++ [.word "str"] ++ symbols "]" ++
    braced (symbols "&[" ++ separated (symbols ",") (p.converters.map fun c => [.text c]) ++
      symbols "]")

def rowAdapterTokens (p : Plan) (r : RowAdapter) : List Token :=
  [.word "fn", .word r.name] ++
    parenthesized ([.word "_cursor"] ++ symbols ":&" ++ runtimeName p.runtime ["Cursor"]) ++
    symbols "->" ++
    applied (rootPath ["std", "result", "Result"])
      ([.word r.entity] ++ symbols "," ++ runtimeName p.runtime ["DaoError"]) ++
    braced (r.body.tokens p.runtime)

def methodTokens (p : Plan) (m : MethodPlan) : List Token :=
  m.method.signature p.runtime ++ braced (m.body.tokens p.runtime)

def tokens (p : Plan) : List Token :=
  p.structTokens ++
    [.word "impl", .word p.implementation] ++
    braced (p.constructorTokens ++ p.convertersTokens ++ p.rowAdapters.flatMap p.rowAdapterTokens) ++
    annotation "allow" [[.word "unused_variables"], [.word "unused_mut"],
      [.word "clippy"] ++ rootPath ["needless_question_mark"]] ++
    [.word "impl", .word p.interface, .word "for", .word p.implementation] ++
    braced (p.methods.flatMap p.methodTokens)

end Plan

end DataAccess
