import ContentQuery.BaseType
import ContentQuery.Keyed

namespace ContentQuery

/-- The character that every tag of a base type starts with. -/
def tagMark : Char := '_'

/-- The key that stands for the content type that is being compiled. -/
def selfKey : String := "_self"

/-- How a property is indexed for search. -/
inductive Indexing where
  | disabled
  | queryable
  | searchable
  deriving DecidableEq, Repr

/-- Where a content type may be placed in the composition of an experience. -/
inductive Behavior where
  | sectionEnabled
  | elementEnabled
  | formsElementEnabled
  deriving DecidableEq, Repr

mutual

/-- A reference to a content type: by its key, a tag or the self key, or by an inline declaration. -/
inductive Reference where
  | key (name : String)
  | inline (declaration : ContentType)

/-- The shape of a property's values. -/
inductive PropertyKind where
  | string
  | boolean
  | integer
  | float
  | binary
  | json
  | dateTime
  | richText
  | url
  | link
  | contentReference
  /-- One instance of the referenced type. -/
  | component (type : Reference)
  /-- An instance of any of the candidate types. -/
  | content (allowed restricted : Option (List Reference))
  /-- Any number of values of the item's shape. -/
  | array (item : Property)

structure Property where
  kind : PropertyKind
  indexing : Option Indexing

/-- A declared content type. Properties are named and stand in the order of declaration. The types
that it may contain are advisory. -/
structure ContentType where
  key : String
  baseType : BaseType
  displayName : Option String
  properties : List (String × Property)
  behaviors : List Behavior
  mayContain : List Reference

end

def Reference.typeKey : Reference → String
  | .key name => name
  | .inline declaration => declaration.key

namespace Property

def ofKind (kind : PropertyKind) : Property := ⟨kind, none⟩

/-- Sets the allowed types of a content property. Other properties stay as they are. -/
def allowing (refs : List Reference) (p : Property) : Property :=
  match p.kind with
  | .content _ restricted => { p with kind := .content (some refs) restricted }
  | _ => p

/-- Sets the restricted types of a content property. Other properties stay as they are. -/
def restricting (refs : List Reference) (p : Property) : Property :=
  match p.kind with
  | .content allowed _ => { p with kind := .content allowed (some refs) }
  | _ => p

def indexed (mode : Indexing) (p : Property) : Property := { p with indexing := some mode }

/-- Disabled properties are left out of every selection. -/
def isDisabled (p : Property) : Bool := p.indexing = some .disabled

end Property

namespace ContentType

def ofKey (key : String) (baseType : BaseType) : ContentType :=
  ⟨key, baseType, none, [], [], []⟩

/-- Declares a property. A name that is already there gets the new declaration in its old place. -/
def withProperty (name : String) (p : Property) (t : ContentType) : ContentType :=
  { t with properties := Keyed.put Prod.fst (name, p) t.properties }

def withBehavior (behavior : Behavior) (t : ContentType) : ContentType :=
  if behavior ∈ t.behaviors then t else { t with behaviors := t.behaviors ++ [behavior] }

def isCompositionEligible (t : ContentType) : Bool := !t.behaviors.isEmpty

def isFormElement (t : ContentType) : Bool := t.behaviors.contains .formsElementEnabled

end ContentType

end ContentQuery
