import ContentQuery.ContentType

namespace ContentQuery

mutual

def Reference.same : Reference → Reference → Bool
  | .key a, .key b => a = b
  | .inline a, .inline b => ContentType.same a b
  | _, _ => false
termination_by structural a => a

def sameReferences : List Reference → List Reference → Bool
  | [], [] => true
  | a :: as, b :: bs => Reference.same a b && sameReferences as bs
  | _, _ => false
termination_by structural a => a

def sameOptionalReferences : Option (List Reference) → Option (List Reference) → Bool
  | none, none => true
  | some as, some bs => sameReferences as bs
  | _, _ => false
termination_by structural a => a

def PropertyKind.same : PropertyKind → PropertyKind → Bool
  | .string, .string => true
  | .boolean, .boolean => true
  | .integer, .integer => true
  | .float, .float => true
  | .binary, .binary => true
  | .json, .json => true
  | .dateTime, .dateTime => true
  | .richText, .richText => true
  | .url, .url => true
  | .link, .link => true
  | .contentReference, .contentReference => true
  | .component a, .component b => Reference.same a b
  | .content allowed restricted, .content allowed' restricted' =>
      sameOptionalReferences allowed allowed' && sameOptionalReferences restricted restricted'
  | .array a, .array b => Property.same a b
  | _, _ => false
termination_by structural a => a

def Property.same : Property → Property → Bool
  | ⟨kind, indexing⟩, q => PropertyKind.same kind q.kind && indexing = q.indexing
termination_by structural a => a

/-- Whether every property of the first list is declared alike in the second. -/
def propertiesWithin : List (String × Property) → List (String × Property) → Bool
  | [], _ => true
  | (name, p) :: rest, others =>
      (match Keyed.find? Prod.fst name others with
        | some (_, q) => Property.same p q
        | none => false) &&
        propertiesWithin rest others
termination_by structural a => a

/-- Whether two declarations say the same. The order of properties does not matter; the order of
every list does, an absent list differs from an empty one, and a key from an inline declaration. -/
def ContentType.same : ContentType → ContentType → Bool
  | ⟨key, baseType, displayName, properties, behaviors, mayContain⟩, u =>
      key = u.key && baseType = u.baseType && displayName = u.displayName &&
        (properties.length = u.properties.length && propertiesWithin properties u.properties) &&
        behaviors = u.behaviors && sameReferences mayContain u.mayContain
termination_by structural a => a

end

def sameTypes : List ContentType → List ContentType → Bool
  | [], [] => true
  | a :: as, b :: bs => a.same b && sameTypes as bs
  | _, _ => false

end ContentQuery
