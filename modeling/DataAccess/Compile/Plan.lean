import DataAccess.Compile.Classify
import DataAccess.Compile.Lowering

/-!
This module contains plans: everything that is decided about the implementation of an interface,
before it is written down. An interface has a plan or problems, never a part of a plan.
-/

namespace DataAccess

open Code (Block Path TypeExpr)

structure MethodPlan where
  method : Method
  category : String
  body : Block

structure Plan where
  interface : String
  implementation : String
  runtime : Path
  backing : Option TypeExpr
  fields : List HelperField
  rowAdapters : List RowAdapter
  methods : List MethodPlan
  converters : List String
  events : List Event

inductive PlanFailure where
  | problem (p : Problem)
  | unnamable (name : String)

namespace Plan

def method? (p : Plan) (name : String) : Option MethodPlan :=
  p.methods.find? (·.method.name == name)

def field? (p : Plan) (key : String) : Option HelperField :=
  p.fields.find? (·.key == key)

end Plan

def collect (results : List (Except Problem α)) : Except Problem (List α) :=
  let problems := results.filterMap fun
    | .error p => some p
    | .ok _ => none
  match Problem.combine problems with
  | some p => .error p
  | none =>
    .ok (results.filterMap fun
      | .ok a => some a
      | .error _ => none)

namespace Interface

def classifyAll (i : Interface) : Except Problem (List Classified) :=
  collect (i.methods.map i.classify)

def draftMethod (i : Interface) (c : Classified) : Drafting MethodPlan := do
  modify (·.noteConverters (c.method.params.filterMap (·.converter)))
  return ⟨c.method, c.category.tag, ← c.lower i.name⟩

/-- Drafts methods in order; one that has a problem does not keep the others from being drafted. -/
def draftMethods (i : Interface) : List Classified → StateM Draft (List (Except Problem MethodPlan))
  | [] => return []
  | c :: rest => do
    let drafted ← (i.draftMethod c).run
    return drafted :: (← i.draftMethods rest)

def implementationName (i : Interface) (options : Options) : String :=
  i.name ++ options.suffix

def planClassified (i : Interface) (options : Options) (classified : List Classified) :
    Except Problem Plan := do
  let (drafted, draft) := (i.draftMethods classified).run .empty
  let methods ← collect drafted
  let events := classified.flatMap Classified.events ++ draft.events ++
    [.planned draft.fields.length draft.rowAdapters.length draft.converters.length]
  return ⟨i.name, i.implementationName options, options.runtime, i.backing, draft.fields,
    draft.rowAdapters, methods, draft.converters, events⟩

def plan (i : Interface) (options : Options) : Except Problem Plan := do
  i.planClassified options (← i.classifyAll)

/-- The plan of an interface's implementation under a name that has to be an identifier. The name is
only looked at when all methods have their categories. -/
def compile (i : Interface) (options : Options) : Except PlanFailure Plan :=
  match i.classifyAll with
  | .error p => .error (.problem p)
  | .ok classified =>
    let name := i.implementationName options
    if Code.isIdent name then (i.planClassified options classified).mapError .problem
    else .error (.unnamable name)

end Interface

end DataAccess
