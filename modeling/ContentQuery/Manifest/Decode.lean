import ContentQuery.Json.Value
import ContentQuery.Manifest.Names

/-!
Declarations from JSON. Every attribute is read at each of its occurrences; an attribute that the
declaration uses may occur once, and all others are of no account.
-/

namespace ContentQuery.Manifest

/-- What the occurrences of an attribute were read as: one occurrence, and read. -/
def once {α : Type} : List (Option α) → Option α
  | [outcome] => outcome
  | _ => none

/-- What the occurrences of an attribute were read as: none, or one that could be read. -/
def atMostOnce {α : Type} : List (Option α) → Option (Option α)
  | [] => some none
  | [outcome] => outcome.map some
  | _ => none

/-- An attribute in which null stands for none. -/
def nullable {α : Type} (decode : Json → Option α) : Json → Option (Option α)
  | .null => some none
  | value => (decode value).map some

/-- A value of an enumeration: its name, or an object whose one member has that name and no
payload. -/
def enumerated {α : Type} (ofName? : String → Option α) (isPayload : Json → Bool) :
    Json → Option α
  | .string name => ofName? name
  | .object [(name, payload)] => if isPayload payload then ofName? name else none
  | _ => none

def isNull : Json → Bool
  | .null => true
  | _ => false

/-- The payload of an enumerated value inside an array's item, where an empty object is one too. -/
def isNullOrEmpty : Json → Bool
  | .null => true
  | .object [] => true
  | _ => false

def decodeBaseType (value : Json) : Option BaseType := enumerated BaseType.ofTag? isNull value

def decodeBehaviors : Json → Option (List Behavior)
  | .array items => items.mapM (enumerated Behavior.ofName? isNull)
  | _ => none

/-- The name of a kind, given by itself or by its place in the list of names. -/
def decodeKindName : Json → Option String
  | .string name => if name ∈ PropertyKind.names then some name else none
  | value => value.natural?.bind fun index => PropertyKind.names[index]?

structure PropertyAttributes where
  kind : List (Option String)
  indexing : List (Option (Option Indexing))
  type : List (Option Reference)
  allowed : List (Option (Option (List Reference)))
  restricted : List (Option (Option (List Reference)))
  item : List (Option Property)

def PropertyAttributes.none : PropertyAttributes := ⟨[], [], [], [], [], []⟩

/-- The kind of the given name, made of the attributes that it uses. -/
def PropertyAttributes.toKind (a : PropertyAttributes) : String → Option PropertyKind
  | "string" => some .string
  | "boolean" => some .boolean
  | "integer" => some .integer
  | "float" => some .float
  | "binary" => some .binary
  | "json" => some .json
  | "dateTime" => some .dateTime
  | "richText" => some .richText
  | "url" => some .url
  | "link" => some .link
  | "contentReference" => some .contentReference
  | "component" => (once a.type).map .component
  | "content" => do
      let allowed ← atMostOnce a.allowed
      let restricted ← atMostOnce a.restricted
      return .content allowed.join restricted.join
  | "array" => (once a.item).map .array
  | _ => Option.none

def PropertyAttributes.toProperty (a : PropertyAttributes) : Option Property := do
  let name ← once a.kind
  let kind ← a.toKind name
  let indexing ← atMostOnce a.indexing
  return ⟨kind, indexing.join⟩

structure TypeAttributes where
  key : List (Option String)
  baseType : List (Option BaseType)
  displayName : List (Option (Option String))
  properties : List (Option (List (String × Property)))
  behaviors : List (Option (List Behavior))
  mayContain : List (Option (List Reference))

def TypeAttributes.none : TypeAttributes := ⟨[], [], [], [], [], []⟩

def TypeAttributes.toType (a : TypeAttributes) : Option ContentType := do
  let key ← once a.key
  let baseType ← once a.baseType
  let displayName ← atMostOnce a.displayName
  let properties ← atMostOnce a.properties
  let behaviors ← atMostOnce a.behaviors
  let mayContain ← atMostOnce a.mayContain
  return ⟨key, baseType, displayName.join, Keyed.lasts Prod.fst (properties.getD []),
    behaviors.getD [], mayContain.getD []⟩

/-- The attributes of a declaration, in the order in which a list may give them. -/
def typeAttributeNames : List String :=
  ["key", "baseType", "displayName", "properties", "compositionBehaviors", "mayContainTypes"]

/-- A value, and what it reads as in each place of a manifest where its parts have to be read. -/
structure Reading where
  value : Json
  /-- As a declaration. -/
  type : Option ContentType
  /-- As a list of references. -/
  references : Option (List Reference)
  /-- As the property of a declaration. -/
  property : Option Property
  /-- As the item of another property. -/
  item : Option Property
  /-- As the properties of a declaration. -/
  properties : Option (List (String × Property))

def Reading.reference (r : Reading) : Option Reference :=
  match r.value with
  | .string name => some (.key name)
  | _ => r.type.map .inline

/-- As a list of references that may be null. -/
def Reading.optionalReferences (r : Reading) : Option (Option (List Reference)) :=
  match r.value with
  | .null => some none
  | _ => r.references.map some

def PropertyAttributes.add (isPayload : Json → Bool) (name : String) (r : Reading)
    (a : PropertyAttributes) : PropertyAttributes :=
  match name with
  | "type" => { a with kind := decodeKindName r.value :: a.kind }
  | "indexingType" =>
      { a with
        indexing := nullable (enumerated Indexing.ofName? isPayload) r.value :: a.indexing }
  | "contentType" => { a with type := r.reference :: a.type }
  | "allowedTypes" => { a with allowed := r.optionalReferences :: a.allowed }
  | "restrictedTypes" => { a with restricted := r.optionalReferences :: a.restricted }
  | "items" => { a with item := r.item :: a.item }
  | _ => a

def TypeAttributes.add (name : String) (r : Reading) (a : TypeAttributes) : TypeAttributes :=
  match name with
  | "key" => { a with key := r.value.string? :: a.key }
  | "baseType" => { a with baseType := decodeBaseType r.value :: a.baseType }
  | "displayName" => { a with displayName := nullable Json.string? r.value :: a.displayName }
  | "properties" => { a with properties := r.properties :: a.properties }
  | "compositionBehaviors" => { a with behaviors := decodeBehaviors r.value :: a.behaviors }
  | "mayContainTypes" => { a with mayContain := r.references :: a.mayContain }
  | _ => a

def propertyOfMembers (isPayload : Json → Bool) (members : List (String × Reading)) :
    Option Property :=
  (members.foldr (fun member => PropertyAttributes.add isPayload member.1 member.2) .none).toProperty

def typeOfMembers (members : List (String × Reading)) : Option ContentType :=
  (members.foldr (fun member => TypeAttributes.add member.1 member.2) .none).toType

/-- A declaration from a list of its attributes; those at the end may be missing. -/
def typeOfItems (items : List Reading) : Option ContentType :=
  if items.length ≤ typeAttributeNames.length then typeOfMembers (typeAttributeNames.zip items)
  else none

namespace Reading

def ofScalar (value : Json) : Reading := ⟨value, none, none, none, none, none⟩

def ofItems (value : Json) (items : List Reading) : Reading :=
  ⟨value, typeOfItems items, items.mapM Reading.reference, none, none, none⟩

def ofMembers (value : Json) (members : List (String × Reading)) : Reading :=
  ⟨value, typeOfMembers members, none, propertyOfMembers isNull members,
    propertyOfMembers isNullOrEmpty members,
    members.mapM fun member => member.2.property.map fun p => (member.1, p)⟩

end Reading

mutual

def reading : Json → Reading
  | .array items => .ofItems (.array items) (readingItems items)
  | .object members => .ofMembers (.object members) (readingMembers members)
  | value => .ofScalar value

def readingItems : List Json → List Reading
  | [] => []
  | item :: rest => reading item :: readingItems rest

def readingMembers : List (String × Json) → List (String × Reading)
  | [] => []
  | (name, value) :: rest => (name, reading value) :: readingMembers rest

end

def decodeType (value : Json) : Option ContentType := (reading value).type

def decodeTypes : Json → Option (List ContentType)
  | .array items => items.mapM decodeType
  | _ => none

/-- A manifest: a list of declarations, or an object that has one as its content types. -/
def decodeManifest : Json → Option (List ContentType)
  | .object members =>
      once ((members.filter fun member => member.1 = "contentTypes").map fun member =>
        decodeTypes member.2)
  | value => decodeTypes value

end ContentQuery.Manifest
