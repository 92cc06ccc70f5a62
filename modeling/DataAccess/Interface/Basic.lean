import DataAccess.Interface.Entity
import DataAccess.Interface.Method

/-!
This module contains interfaces: named collections of entities and methods, to be implemented over
a database, with the options of an implementation.
-/

namespace DataAccess

open Code (Path TypeExpr)

structure Interface where
  name : String
  entities : List Entity
  converters : List Path
  backing : Option TypeExpr
  methods : List Method

namespace Interface

def entity? (i : Interface) (name : String) : Option Entity :=
  i.entities.find? (·.name == name)

def method? (i : Interface) (name : String) : Option Method :=
  i.methods.find? (·.name == name)

def declares (i : Interface) (converter : Path) : Bool :=
  (i.converters.map Path.compact).contains converter.compact

end Interface

structure Options where
  runtime : Path
  suffix : String

def Options.standard : Options :=
  ⟨⟨true, [.mk "daogen_core" .none]⟩, "Impl"⟩

end DataAccess
