import ContentQuery.Json.Writer
import ContentQuery.Manifest.Names

namespace ContentQuery.Manifest

/-- An attribute that is left out when it has no value. -/
def optionalMember (name : String) : Option String → List (String × Json)
  | none => []
  | some value => [(name, .string value)]

/-- An attribute that is left out when its list is empty. -/
def listMember (name : String) : List Json → List (String × Json)
  | [] => []
  | items => [(name, .array items)]

mutual

def encodeReference : Reference → Json
  | .key name => .string name
  | .inline declaration => encodeType declaration

def encodeReferences : List Reference → List Json
  | [] => []
  | reference :: rest => encodeReference reference :: encodeReferences rest

/-- A list attribute, written even when the list is empty. -/
def referencesMember (name : String) : Option (List Reference) → List (String × Json)
  | none => []
  | some references => [(name, .array (encodeReferences references))]

def encodeKind : PropertyKind → List (String × Json)
  | .component type => [("contentType", encodeReference type)]
  | .content allowed restricted =>
      referencesMember "allowedTypes" allowed ++ referencesMember "restrictedTypes" restricted
  | .array item => [("items", encodeProperty item)]
  | _ => []

def encodeProperty : Property → Json
  | ⟨kind, indexing⟩ =>
      .object (("type", .string kind.name) :: encodeKind kind ++
        optionalMember "indexingType" (indexing.map Indexing.name))

def encodeProperties : List (String × Property) → List (String × Json)
  | [] => []
  | (name, p) :: rest => (name, encodeProperty p) :: encodeProperties rest

def encodeType : ContentType → Json
  | ⟨key, baseType, displayName, properties, behaviors, mayContain⟩ =>
      .object (("key", .string key) :: ("baseType", .string baseType.tag) ::
        optionalMember "displayName" displayName ++
        ("properties", .object (encodeProperties properties)) ::
        listMember "compositionBehaviors" (behaviors.map fun behavior => .string behavior.name) ++
        listMember "mayContainTypes" (encodeReferences mayContain))

end

def write (declaration : ContentType) : String := (encodeType declaration).write

end ContentQuery.Manifest
