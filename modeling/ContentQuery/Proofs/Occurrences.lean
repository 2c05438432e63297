import ContentQuery.Proofs.PropertyNames
import ContentQuery.Proofs.RoundTrip

namespace ContentQuery.Manifest

/-! ### Attributes in any order -/

theorem eq_or_two_of_perm {α : Type} {xs ys : List α} (h : xs.Perm ys) :
    xs = ys ∨ (∃ x y zs, xs = x :: y :: zs) ∧ ∃ x y zs, ys = x :: y :: zs := by
  match xs, ys, h.length_eq with
  | [], [], _ => exact Or.inl rfl
  | [x], [y], _ => exact Or.inl (List.perm_singleton.mp h)
  | _ :: _ :: _, _ :: _ :: _, _ => exact Or.inr ⟨⟨_, _, _, rfl⟩, _, _, _, rfl⟩

theorem once_perm {α : Type} {outcomes outcomes' : List (Option α)}
    (h : outcomes.Perm outcomes') : once outcomes = once outcomes' := by
  obtain rfl | ⟨⟨_, _, _, rfl⟩, _, _, _, rfl⟩ := eq_or_two_of_perm h <;> rfl

theorem atMostOnce_perm {α : Type} {outcomes outcomes' : List (Option α)}
    (h : outcomes.Perm outcomes') : atMostOnce outcomes = atMostOnce outcomes' := by
  obtain rfl | ⟨⟨_, _, _, rfl⟩, _, _, _, rfl⟩ := eq_or_two_of_perm h <;> rfl

/-- What the values of an attribute are read as, in the order of its occurrences. -/
def occurrences {α : Type} (name : String) (read : Reading → α)
    (members : List (String × Reading)) : List α :=
  (members.filter fun member => member.1 = name).map fun member => read member.2

section

variable {members members' : List (String × Reading)}

theorem occurrences_perm {α : Type} (h : members.Perm members') (name : String)
    (read : Reading → α) :
    (occurrences name read members).Perm (occurrences name read members') :=
  (h.filter _).map _

def TypeAttributes.ofMembers (members : List (String × Reading)) : TypeAttributes where
  key := occurrences "key" (·.value.string?) members
  baseType := occurrences "baseType" (decodeBaseType ·.value) members
  displayName := occurrences "displayName" (nullable Json.string? ·.value) members
  properties := occurrences "properties" (·.properties) members
  behaviors := occurrences "compositionBehaviors" (decodeBehaviors ·.value) members
  mayContain := occurrences "mayContainTypes" (·.references) members

theorem TypeAttributes.ofMembers_cons (name : String) (r : Reading)
    (members : List (String × Reading)) :
    ofMembers ((name, r) :: members) = (ofMembers members).add name r := by
  unfold add
  split
  all_goals simp_all [ofMembers, occurrences]

theorem typeOfMembers_eq (members : List (String × Reading)) :
    typeOfMembers members = (TypeAttributes.ofMembers members).toType := by
  rw [typeOfMembers]
  congr 1
  induction members with
  | nil => rfl
  | cons member members ih => rw [List.foldr_cons, ih, ← TypeAttributes.ofMembers_cons]

theorem typeOfMembers_perm (h : members.Perm members') :
    typeOfMembers members = typeOfMembers members' := by
  simp only [typeOfMembers_eq, TypeAttributes.toType, TypeAttributes.ofMembers,
    once_perm (occurrences_perm h _ _), atMostOnce_perm (occurrences_perm h _ _)]

variable {isPayload : Json → Bool}

def PropertyAttributes.ofMembers (isPayload : Json → Bool) (members : List (String × Reading)) :
    PropertyAttributes where
  kind := occurrences "type" (decodeKindName ·.value) members
  indexing :=
    occurrences "indexingType" (nullable (enumerated Indexing.ofName? isPayload) ·.value) members
  type := occurrences "contentType" Reading.reference members
  allowed := occurrences "allowedTypes" Reading.optionalReferences members
  restricted := occurrences "restrictedTypes" Reading.optionalReferences members
  item := occurrences "items" (·.item) members

theorem PropertyAttributes.ofMembers_cons (name : String) (r : Reading)
    (members : List (String × Reading)) :
    ofMembers isPayload ((name, r) :: members) =
      (ofMembers isPayload members).add isPayload name r := by
  unfold add
  split
  all_goals simp_all [ofMembers, occurrences]

theorem propertyOfMembers_eq (members : List (String × Reading)) :
    propertyOfMembers isPayload members =
      (PropertyAttributes.ofMembers isPayload members).toProperty := by
  rw [propertyOfMembers]
  congr 1
  induction members with
  | nil => rfl
  | cons member members ih => rw [List.foldr_cons, ih, ← PropertyAttributes.ofMembers_cons]

theorem propertyOfMembers_perm (h : members.Perm members') :
    propertyOfMembers isPayload members = propertyOfMembers isPayload members' := by
  simp only [propertyOfMembers_eq, PropertyAttributes.toProperty, PropertyAttributes.toKind,
    PropertyAttributes.ofMembers, once_perm (occurrences_perm h _ _),
    atMostOnce_perm (occurrences_perm h _ _)]

end

/-! ### One attribute among others -/

/-- The attributes of a property that are read, for one kind or another. -/
def propertyAttributeNames : List String :=
  ["type", "indexingType", "contentType", "allowedTypes", "restrictedTypes", "items"]

section

variable {name : String} {r r' : Reading} {before after : List (String × Reading)}

theorem TypeAttributes.add_of_not_mem (h : name ∉ typeAttributeNames) (a : TypeAttributes) :
    a.add name r = a := by
  unfold add
  split
  case h_7 => rfl
  all_goals exact absurd (by decide) h

theorem typeOfMembers_of_not_mem (h : name ∉ typeAttributeNames) :
    typeOfMembers (before ++ (name, r) :: after) = typeOfMembers (before ++ after) := by
  simp only [typeOfMembers, List.foldr_append, List.foldr_cons, TypeAttributes.add_of_not_mem h]

theorem typeOfMembers_congr (h : ∀ a : TypeAttributes, a.add name r = a.add name r') :
    typeOfMembers (before ++ (name, r) :: after) =
      typeOfMembers (before ++ (name, r') :: after) := by
  simp only [typeOfMembers, List.foldr_append, List.foldr_cons, h]

theorem typeOfItems_congr {before after : List Reading}
    (hname : typeAttributeNames[before.length]? = some name)
    (h : ∀ a : TypeAttributes, a.add name r = a.add name r') :
    typeOfItems (before ++ r :: after) = typeOfItems (before ++ r' :: after) := by
  obtain ⟨hlength, rfl⟩ := List.getElem?_eq_some_iff.mp hname
  have hzip (r : Reading) : typeAttributeNames.zip (before ++ r :: after) =
      (typeAttributeNames.take before.length).zip before ++
        (typeAttributeNames[before.length], r) ::
          (typeAttributeNames.drop (before.length + 1)).zip after := by
    conv_lhs => rw [← List.take_append_drop before.length typeAttributeNames,
      ← List.getElem_cons_drop hlength]
    rw [List.zip_append (List.length_take_of_le (Nat.le_of_lt hlength)), List.zip_cons_cons]
  rw [typeOfItems, typeOfItems, hzip, hzip, typeOfMembers_congr h]
  simp

variable {isPayload : Json → Bool}

theorem PropertyAttributes.add_of_not_mem (h : name ∉ propertyAttributeNames)
    (a : PropertyAttributes) : a.add isPayload name r = a := by
  unfold add
  split
  case h_7 => rfl
  all_goals exact absurd (by decide) h

theorem propertyOfMembers_of_not_mem (h : name ∉ propertyAttributeNames) :
    propertyOfMembers isPayload (before ++ (name, r) :: after) =
      propertyOfMembers isPayload (before ++ after) := by
  simp only [propertyOfMembers, List.foldr_append, List.foldr_cons,
    PropertyAttributes.add_of_not_mem h]

theorem propertyOfMembers_congr
    (h : ∀ a : PropertyAttributes, a.add isPayload name r = a.add isPayload name r') :
    propertyOfMembers isPayload (before ++ (name, r) :: after) =
      propertyOfMembers isPayload (before ++ (name, r') :: after) := by
  simp only [propertyOfMembers, List.foldr_append, List.foldr_cons, h]

end

/-! ### Repeated names -/

theorem eq_of_atMostOnce {α : Type} {outcomes : List (Option α)} {value? : Option α}
    (h : atMostOnce outcomes = some value?) {outcome : Option α} (hmem : outcome ∈ outcomes) :
    outcome = value? ∧ value?.isSome := by
  unfold atMostOnce at h
  split at h
  · exact absurd hmem List.not_mem_nil
  · obtain ⟨x, rfl, rfl⟩ := Option.map_eq_some_iff.mp h
    exact ⟨List.mem_singleton.mp hmem, rfl⟩
  · contradiction

/-- The attributes of a declaration, by their names or by their places. -/
def attributesOf : Json → List (String × Json)
  | .object members => members
  | .array items => typeAttributeNames.zip items
  | _ => []

theorem typeOfMembers_attributesOf {declaration : Json} {t : ContentType}
    (h : decodeType declaration = some t) :
    typeOfMembers (readingMembers (attributesOf declaration)) = some t := by
  cases declaration with
  | object members => exact h
  | array items =>
      change typeOfItems (readingItems items) = some t at h
      unfold typeOfItems at h
      split at h
      · rw [readingItems_eq_map, List.zip_map_right] at h
        rw [attributesOf, readingMembers_eq_map]
        exact h
      · contradiction
  | _ => cases h

def decodeEntry (member : String × Json) : Option (String × Property) :=
  propertyEntry (member.1, reading member.2)

theorem properties_object (members : List (String × Json)) :
    (reading (.object members)).properties = members.mapM decodeEntry := by
  change (readingMembers members).mapM propertyEntry = _
  rw [readingMembers_eq_map, List.mapM_map]
  rfl

theorem decodeEntry_eq_some_iff {member : String × Json} {property : String × Property} :
    decodeEntry member = some property ↔
      (reading member.2).property = some property.2 ∧ member.1 = property.1 := by
  obtain ⟨name, p⟩ := property
  simp [decodeEntry, propertyEntry]

theorem map_fst_of_mapM {members : List (String × Json)} {ps : List (String × Property)}
    (h : members.mapM decodeEntry = some ps) : ps.map Prod.fst = members.map Prod.fst := by
  induction members generalizing ps with
  | nil =>
      obtain rfl : [] = ps := Option.some.inj h
      rfl
  | cons member members ih =>
      obtain ⟨p, ps', rfl, hp, hps⟩ := exists_of_mapM_cons h
      rw [List.map_cons, List.map_cons, ih hps, (decodeEntry_eq_some_iff.mp hp).2]

/-- A declaration has the last property of each name in its attribute, at the place of the first. -/
theorem properties_of_decodeType {declaration : Json} {t : ContentType}
    (h : decodeType declaration = some t) {members : List (String × Json)}
    (hmem : ("properties", .object members) ∈ attributesOf declaration) :
    ∃ ps, members.mapM decodeEntry = some ps ∧ t.properties = Keyed.lasts Prod.fst ps := by
  have hread : (reading (.object members)).properties ∈
      (TypeAttributes.ofMembers (readingMembers (attributesOf declaration))).properties := by
    rw [readingMembers_eq_map]
    refine List.mem_map.mpr ⟨("properties", reading (.object members)), ?_, rfl⟩
    exact List.mem_filter.mpr ⟨List.mem_map.mpr ⟨_, hmem, rfl⟩, by simp⟩
  have htype := typeOfMembers_attributesOf h
  simp only [typeOfMembers_eq, TypeAttributes.toType, bind, pure, Option.bind_eq_some_iff,
    Option.some.injEq] at htype
  obtain ⟨_, -, _, -, _, -, ps?, hps, _, -, _, -, rfl⟩ := htype
  obtain ⟨hread, hsome⟩ := eq_of_atMostOnce hps hread
  obtain ⟨ps, rfl⟩ := Option.isSome_iff_exists.mp hsome
  exact ⟨ps, (properties_object members).symm.trans hread, rfl⟩

end ContentQuery.Manifest
