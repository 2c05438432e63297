import ContentQuery.ContentType

namespace ContentQuery

/-- Whether a key is written like a tag. Not every such key is the tag of a base type. -/
def isTag (key : String) : Bool := key.toList.head? = some tagMark

/-- The base type whose tag the key is. -/
def builtin? (key : String) : Option BaseType :=
  if isTag key then BaseType.ofTag? key else none

/-- The root in place of the self key. -/
def resolveSelf (root key : String) : String := if key = selfKey then root else key

/-- The keys of a list of references that may be absent. -/
def canonicalKeys (root : String) (references : Option (List Reference)) : List String :=
  (references.getD []).map fun reference => resolveSelf root reference.typeKey

end ContentQuery
