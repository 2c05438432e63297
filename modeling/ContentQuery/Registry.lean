import ContentQuery.ContentType

namespace ContentQuery

/-- What a compilation needs to know about the declared types. Lists stand in the order of
registration; the look-ups by base type go through all types unless they are given. -/
structure Registry where
  all : List ContentType
  find? : String → Option ContentType
  ofBase : BaseType → List ContentType := fun base => all.filter fun t => t.baseType = base
  mediaKeys : List String := (all.filter fun t => t.baseType.isMedia).map ContentType.key

/-- Declarations by key. Registering a key again replaces the declaration in its place. -/
structure ContentTypes where
  toList : List ContentType

namespace ContentTypes

def empty : ContentTypes := ⟨[]⟩

def register (types : ContentTypes) (t : ContentType) : ContentTypes :=
  ⟨Keyed.put ContentType.key t types.toList⟩

def ofList (declarations : List ContentType) : ContentTypes := declarations.foldl register empty

def get? (types : ContentTypes) (key : String) : Option ContentType :=
  Keyed.find? ContentType.key key types.toList

def contains (types : ContentTypes) (key : String) : Bool := (types.get? key).isSome

def keys (types : ContentTypes) : List String := types.toList.map ContentType.key

def size (types : ContentTypes) : Nat := types.toList.length

def isEmpty (types : ContentTypes) : Bool := types.toList.isEmpty

def registry (types : ContentTypes) : Registry where
  all := types.toList
  find? := types.get?

end ContentTypes

end ContentQuery
