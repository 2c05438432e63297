import ContentQuery.Manifest.Encode
import ContentQuery.Manifest.Parse
import ContentQuery.Proofs.JsonText
import ContentQuery.Proofs.PropertyNames

namespace ContentQuery

namespace Indexing

@[simp] theorem ofName?_name (mode : Indexing) : ofName? mode.name = some mode := by
  cases mode <;> decide

end Indexing

namespace Behavior

@[simp] theorem ofName?_name (behavior : Behavior) : ofName? behavior.name = some behavior := by
  cases behavior <;> decide

end Behavior

namespace Manifest

open Json

/-! ### No numbers are written -/

theorem membersNumberless_append (ms ns : List (String × Json)) :
    membersNumberless (ms ++ ns) = (membersNumberless ms && membersNumberless ns) := by
  induction ms with
  | nil => rfl
  | cons m ms ih => simp [membersNumberless, ih, Bool.and_assoc]

theorem numberless_optionalMember (name : String) (value : Option String) :
    membersNumberless (optionalMember name value) := by
  cases value <;> rfl

theorem numberless_listMember (name : String) {items : List Json} (h : areNumberless items) :
    membersNumberless (listMember name items) := by
  cases items with
  | nil => rfl
  | cons item items => simpa [listMember, membersNumberless, isNumberless] using h

theorem numberless_behaviors (behaviors : List Behavior) :
    areNumberless (behaviors.map fun behavior => .string behavior.name) := by
  induction behaviors with
  | nil => rfl
  | cons behavior behaviors ih => simpa [areNumberless, isNumberless] using ih

mutual

theorem numberless_encodeReference (r : Reference) : (encodeReference r).isNumberless := by
  match r with
  | .key name => rfl
  | .inline declaration => exact numberless_encodeType declaration
termination_by structural r

theorem numberless_encodeReferences (rs : List Reference) :
    areNumberless (encodeReferences rs) := by
  match rs with
  | [] => rfl
  | r :: rs =>
      rw [encodeReferences, areNumberless, numberless_encodeReference r,
        numberless_encodeReferences rs]
      rfl
termination_by structural rs

theorem numberless_referencesMember (name : String) (rs : Option (List Reference)) :
    membersNumberless (referencesMember name rs) := by
  match rs with
  | none => rfl
  | some rs => simpa [referencesMember, membersNumberless, isNumberless] using
      numberless_encodeReferences rs
termination_by structural rs

theorem numberless_encodeKind (kind : PropertyKind) : membersNumberless (encodeKind kind) := by
  match kind with
  | .component type => simpa [encodeKind, membersNumberless] using numberless_encodeReference type
  | .content allowed restricted =>
      rw [encodeKind, membersNumberless_append, numberless_referencesMember "allowedTypes" allowed,
        numberless_referencesMember "restrictedTypes" restricted]
      rfl
  | .array item => simpa [encodeKind, membersNumberless] using numberless_encodeProperty item
  | .string | .boolean | .integer | .float | .binary | .json | .dateTime | .richText | .url | .link
  | .contentReference => rfl
termination_by structural kind

theorem numberless_encodeProperty (p : Property) : (encodeProperty p).isNumberless := by
  match p with
  | ⟨kind, indexing⟩ =>
      simp [encodeProperty, isNumberless, membersNumberless, membersNumberless_append,
        numberless_encodeKind kind, numberless_optionalMember]
termination_by structural p

theorem numberless_encodeProperties (ps : List (String × Property)) :
    membersNumberless (encodeProperties ps) := by
  match ps with
  | [] => rfl
  | (name, p) :: ps =>
      rw [encodeProperties, membersNumberless, numberless_encodeProperty p,
        numberless_encodeProperties ps]
      rfl
termination_by structural ps

theorem numberless_encodeType (t : ContentType) : (encodeType t).isNumberless := by
  match t with
  | ⟨key, baseType, displayName, properties, behaviors, mayContain⟩ =>
      simp [encodeType, isNumberless, membersNumberless, membersNumberless_append,
        numberless_optionalMember, numberless_encodeProperties properties,
        numberless_listMember "compositionBehaviors" (numberless_behaviors behaviors),
        numberless_listMember "mayContainTypes" (numberless_encodeReferences mayContain)]
termination_by structural t

end

/-! ### What is written is read -/

theorem readingItems_eq_map (items : List Json) : readingItems items = items.map reading := by
  induction items with
  | nil => rfl
  | cons item items ih => rw [readingItems, ih, List.map_cons]

theorem readingMembers_eq_map (members : List (String × Json)) :
    readingMembers members = members.map fun member => (member.1, reading member.2) := by
  induction members with
  | nil => rfl
  | cons member members ih => rw [readingMembers, ih, List.map_cons]

theorem readingMembers_append (ms ns : List (String × Json)) :
    readingMembers (ms ++ ns) = readingMembers ms ++ readingMembers ns := by
  simp only [readingMembers_eq_map, List.map_append]

@[simp] theorem atMostOnce_toList {α : Type} (value : Option α) :
    atMostOnce (value.toList.map some) = some value := by
  cases value <;> rfl

@[simp] theorem join_map_some {α : Type} (value : Option α) : (value.map some).join = value := by
  cases value <;> rfl

theorem decodeBaseType_tag (base : BaseType) : decodeBaseType (.string base.tag) = some base :=
  BaseType.ofTag?_tag base

theorem decodeBehaviors_names (behaviors : List Behavior) :
    decodeBehaviors (.array (behaviors.map fun behavior => .string behavior.name)) =
      some behaviors := by
  induction behaviors with
  | nil => rfl
  | cons behavior behaviors ih =>
      simp only [decodeBehaviors, List.map_cons, List.mapM_cons] at ih ⊢
      rw [ih, enumerated, Behavior.ofName?_name]
      rfl

theorem decodeKindName_name (kind : PropertyKind) :
    decodeKindName (.string kind.name) = some kind.name := by
  cases kind <;> rfl

/-- A list that an attribute gives only when it is not empty. -/
def nonempty? {α : Type} : List α → Option (List α)
  | [] => none
  | xs => some xs

@[simp] theorem nonempty?_getD {α : Type} (xs : List α) : (nonempty? xs).getD [] = xs := by
  cases xs <;> rfl

/-- The attributes of a property of which only the indexing was read. -/
def PropertyAttributes.ofIndexing (indexing : Option Indexing) : PropertyAttributes :=
  { PropertyAttributes.none with indexing := (indexing.map some).toList.map some }

theorem PropertyAttributes.toProperty_eq {a : PropertyAttributes} {kind : PropertyKind}
    {indexing : Option Indexing} (hname : a.kind = [some kind.name])
    (hkind : a.toKind kind.name = some kind)
    (hindexing : a.indexing = (indexing.map some).toList.map some) :
    a.toProperty = some ⟨kind, indexing⟩ := by
  simp [PropertyAttributes.toProperty, hname, once, hkind, hindexing]

section Property

variable (isPayload : Json → Bool)

/-- The attributes of a property, with those that the members give added in front. -/
def addMembers (members : List (String × Json)) (a : PropertyAttributes) : PropertyAttributes :=
  (readingMembers members).foldr
    (fun member => PropertyAttributes.add isPayload member.1 member.2) a

theorem addMembers_append (ms ns : List (String × Json)) (a : PropertyAttributes) :
    addMembers isPayload (ms ++ ns) a = addMembers isPayload ms (addMembers isPayload ns a) := by
  rw [addMembers, readingMembers_append, List.foldr_append]
  rfl

theorem addMembers_indexing (indexing : Option Indexing) :
    addMembers isPayload (optionalMember "indexingType" (indexing.map Indexing.name)) .none =
      .ofIndexing indexing := by
  cases indexing with
  | none => rfl
  | some mode =>
      change { PropertyAttributes.none with
        indexing := [(Indexing.ofName? mode.name).map some] } = _
      rw [Indexing.ofName?_name]
      rfl

theorem addMembers_type (kind : PropertyKind) (members : List (String × Json))
    (a : PropertyAttributes) :
    addMembers isPayload (("type", .string kind.name) :: members) a =
      { addMembers isPayload members a with
        kind := some kind.name :: (addMembers isPayload members a).kind } := by
  change { addMembers isPayload members a with
    kind := decodeKindName (.string kind.name) :: (addMembers isPayload members a).kind } = _
  rw [decodeKindName_name]

theorem toKind_of_kind (a : PropertyAttributes) (kind : List (Option String)) (name : String) :
    { a with kind := kind }.toKind name = a.toKind name := rfl

variable {references : Option (List Reference)}

theorem addMembers_allowed
    (h : ∀ rs ∈ references, (readingItems (encodeReferences rs)).mapM Reading.reference = some rs)
    (a : PropertyAttributes) :
    addMembers isPayload (referencesMember "allowedTypes" references) a =
      { a with allowed := (references.map some).toList.map some ++ a.allowed } := by
  cases references with
  | none => rfl
  | some rs =>
      change { a with
        allowed := ((readingItems (encodeReferences rs)).mapM Reading.reference).map some ::
          a.allowed } = _
      rw [h rs rfl]
      rfl

theorem addMembers_restricted
    (h : ∀ rs ∈ references, (readingItems (encodeReferences rs)).mapM Reading.reference = some rs)
    (a : PropertyAttributes) :
    addMembers isPayload (referencesMember "restrictedTypes" references) a =
      { a with restricted := (references.map some).toList.map some ++ a.restricted } := by
  cases references with
  | none => rfl
  | some rs =>
      change { a with
        restricted := ((readingItems (encodeReferences rs)).mapM Reading.reference).map some ::
          a.restricted } = _
      rw [h rs rfl]
      rfl

theorem addMembers_encodeKind (kind : PropertyKind) (a : PropertyAttributes) :
    (addMembers isPayload (encodeKind kind) a).kind = a.kind ∧
      (addMembers isPayload (encodeKind kind) a).indexing = a.indexing := by
  cases kind with
  | content allowed restricted => cases allowed <;> cases restricted <;> exact ⟨rfl, rfl⟩
  | _ => exact ⟨rfl, rfl⟩

end Property

/-- The attributes of a declaration, with those that the members give added in front. -/
def addTypeMembers (members : List (String × Json)) (a : TypeAttributes) : TypeAttributes :=
  (readingMembers members).foldr (fun member => TypeAttributes.add member.1 member.2) a

theorem addTypeMembers_append (ms ns : List (String × Json)) (a : TypeAttributes) :
    addTypeMembers (ms ++ ns) a = addTypeMembers ms (addTypeMembers ns a) := by
  rw [addTypeMembers, readingMembers_append, List.foldr_append]
  rfl

theorem addTypeMembers_displayName (displayName : Option String) (a : TypeAttributes) :
    addTypeMembers (optionalMember "displayName" displayName) a =
      { a with displayName := (displayName.map some).toList.map some ++ a.displayName } := by
  cases displayName <;> rfl

theorem addTypeMembers_behaviors (behaviors : List Behavior) (a : TypeAttributes) :
    addTypeMembers (listMember "compositionBehaviors"
        (behaviors.map fun behavior => .string behavior.name)) a =
      { a with behaviors := (nonempty? behaviors).toList.map some ++ a.behaviors } := by
  cases behaviors with
  | nil => rfl
  | cons behavior behaviors =>
      have hbehaviors := decodeBehaviors_names (behavior :: behaviors)
      change { a with behaviors := decodeBehaviors (.array _) :: a.behaviors } = _
      rw [hbehaviors]
      rfl

theorem addTypeMembers_mayContain {rs : List Reference}
    (h : (readingItems (encodeReferences rs)).mapM Reading.reference = some rs)
    (a : TypeAttributes) :
    addTypeMembers (listMember "mayContainTypes" (encodeReferences rs)) a =
      { a with mayContain := (nonempty? rs).toList.map some ++ a.mayContain } := by
  cases rs with
  | nil => rfl
  | cons r rs =>
      change { a with mayContain :=
        (readingItems (encodeReferences (r :: rs))).mapM Reading.reference :: a.mayContain } = _
      rw [h]
      rfl

/-- A member of an object, read as a named property. -/
def propertyEntry (member : String × Reading) : Option (String × Property) :=
  member.2.property.map fun p => (member.1, p)

theorem addTypeMembers_properties {properties : List (String × Property)}
    (h : (readingMembers (encodeProperties properties)).mapM propertyEntry =
      some properties)
    (members : List (String × Json)) (a : TypeAttributes) :
    addTypeMembers (("properties", .object (encodeProperties properties)) :: members) a =
      { addTypeMembers members a with
        properties := some properties :: (addTypeMembers members a).properties } := by
  change { addTypeMembers members a with
    properties := (readingMembers (encodeProperties properties)).mapM propertyEntry ::
      (addTypeMembers members a).properties } = _
  rw [h]

theorem addTypeMembers_head (key : String) (baseType : BaseType) (members : List (String × Json))
    (a : TypeAttributes) :
    addTypeMembers (("key", .string key) :: ("baseType", .string baseType.tag) :: members) a =
      { addTypeMembers members a with
        key := some key :: (addTypeMembers members a).key
        baseType := some baseType :: (addTypeMembers members a).baseType } := by
  change { addTypeMembers members a with
    key := some key :: (addTypeMembers members a).key
    baseType := decodeBaseType (.string baseType.tag) :: (addTypeMembers members a).baseType } = _
  rw [decodeBaseType_tag]

/-- The attributes of a declaration as they are read from what is written. -/
def TypeAttributes.written (t : ContentType) : TypeAttributes :=
  ⟨[some t.key], [some t.baseType], (t.displayName.map some).toList.map some, [some t.properties],
    (nonempty? t.behaviors).toList.map some, (nonempty? t.mayContain).toList.map some⟩

theorem TypeAttributes.toType_written {t : ContentType} (h : (t.properties.map Prod.fst).Nodup) :
    (TypeAttributes.written t).toType = some t := by
  have hproperties : atMostOnce [some t.properties] = some (some t.properties) := rfl
  cases t
  simp [TypeAttributes.written, TypeAttributes.toType, once, hproperties,
    Keyed.lasts_of_nodup Prod.fst h]

theorem addTypeMembers_encodeType (key : String) (baseType : BaseType)
    (displayName : Option String) {properties : List (String × Property)}
    (behaviors : List Behavior) {mayContain : List Reference}
    (hproperties : (readingMembers (encodeProperties properties)).mapM propertyEntry =
      some properties)
    (hmayContain : (readingItems (encodeReferences mayContain)).mapM Reading.reference =
      some mayContain) :
    addTypeMembers (("key", .string key) :: ("baseType", .string baseType.tag) ::
        optionalMember "displayName" displayName ++
        ("properties", .object (encodeProperties properties)) ::
        listMember "compositionBehaviors" (behaviors.map fun behavior => .string behavior.name) ++
        listMember "mayContainTypes" (encodeReferences mayContain)) .none =
      .written ⟨key, baseType, displayName, properties, behaviors, mayContain⟩ := by
  rw [addTypeMembers_append, addTypeMembers_mayContain hmayContain, addTypeMembers_append,
    addTypeMembers_properties hproperties, addTypeMembers_behaviors, addTypeMembers_head,
    addTypeMembers_displayName]
  simp only [TypeAttributes.none, TypeAttributes.written, List.append_nil]

mutual

theorem reference_encodeReference (r : Reference) (h : r.propertiesDiffer) :
    (reading (encodeReference r)).reference = some r := by
  match r with
  | .key name => rfl
  | .inline ⟨key, baseType, displayName, properties, behaviors, mayContain⟩ =>
      have htype := type_encodeType
        ⟨key, baseType, displayName, properties, behaviors, mayContain⟩ h
      -- A declaration is written as an object, so it is not taken for a key.
      change Option.map Reference.inline (reading (encodeType _)).type = _
      rw [htype]
      rfl
termination_by structural r

theorem references_encodeReferences (rs : List Reference) (h : referencesDiffer rs) :
    (readingItems (encodeReferences rs)).mapM Reading.reference = some rs := by
  match rs with
  | [] => rfl
  | r :: rs =>
      simp only [referencesDiffer, Bool.and_eq_true] at h
      rw [encodeReferences, readingItems, List.mapM_cons, reference_encodeReference r h.1,
        references_encodeReferences rs h.2]
      rfl
termination_by structural rs

theorem optionalReferences_encodeReferences (rs? : Option (List Reference))
    (h : optionalReferencesDiffer rs?) :
    ∀ rs ∈ rs?, (readingItems (encodeReferences rs)).mapM Reading.reference = some rs := by
  match rs? with
  | none => simp
  | some rs =>
      intro rs' hrs
      obtain rfl := Option.some.inj hrs
      exact references_encodeReferences rs h
termination_by structural rs?

theorem toKind_encodeKind (kind : PropertyKind) (h : kind.propertiesDiffer)
    (isPayload : Json → Bool) (indexing : Option Indexing) :
    (addMembers isPayload (encodeKind kind) (.ofIndexing indexing)).toKind kind.name =
      some kind := by
  match kind with
  | .component type =>
      change (once [(reading (encodeReference type)).reference]).map PropertyKind.component = _
      rw [reference_encodeReference type h]
      rfl
  | .content allowed restricted =>
      simp only [PropertyKind.propertiesDiffer, Bool.and_eq_true] at h
      rw [encodeKind, addMembers_append,
        addMembers_restricted isPayload (optionalReferences_encodeReferences restricted h.2),
        addMembers_allowed isPayload (optionalReferences_encodeReferences allowed h.1)]
      simp [PropertyAttributes.toKind, PropertyKind.name, PropertyAttributes.ofIndexing,
        PropertyAttributes.none]
  | .array item =>
      change (once [(reading (encodeProperty item)).item]).map PropertyKind.array = _
      rw [(property_encodeProperty item h).2]
      rfl
  | .string | .boolean | .integer | .float | .binary | .json | .dateTime | .richText | .url | .link
  | .contentReference => rfl
termination_by structural kind

theorem property_encodeProperty (p : Property) (h : p.propertiesDiffer) :
    (reading (encodeProperty p)).property = some p ∧
      (reading (encodeProperty p)).item = some p := by
  match p with
  | ⟨kind, indexing⟩ =>
      -- The payload of an enumerated value makes no difference: names are written alone.
      have hmembers : ∀ isPayload, (addMembers isPayload (("type", .string kind.name) ::
          encodeKind kind ++ optionalMember "indexingType" (indexing.map Indexing.name))
            .none).toProperty = some ⟨kind, indexing⟩ := by
        intro isPayload
        obtain ⟨hname, hindexing⟩ := addMembers_encodeKind isPayload kind (.ofIndexing indexing)
        rw [List.cons_append, addMembers_type, addMembers_append, addMembers_indexing]
        refine PropertyAttributes.toProperty_eq ?_ ?_ ?_
        · rw [hname]
          rfl
        · rw [toKind_of_kind, toKind_encodeKind kind h]
        · exact hindexing
      exact ⟨hmembers isNull, hmembers isNullOrEmpty⟩
termination_by structural p

theorem properties_encodeProperties (ps : List (String × Property)) (h : eachPropertyDiffers ps) :
    (readingMembers (encodeProperties ps)).mapM propertyEntry = some ps := by
  match ps with
  | [] => rfl
  | (name, p) :: ps =>
      simp only [eachPropertyDiffers, Bool.and_eq_true] at h
      rw [encodeProperties, readingMembers, List.mapM_cons, propertyEntry,
        (property_encodeProperty p h.1).1,
        properties_encodeProperties ps h.2]
      rfl
termination_by structural ps

theorem type_encodeType (t : ContentType) (h : t.propertiesDiffer) :
    (reading (encodeType t)).type = some t := by
  match t with
  | ⟨key, baseType, displayName, properties, behaviors, mayContain⟩ =>
      simp only [ContentType.propertiesDiffer, Bool.and_eq_true, decide_eq_true_eq] at h
      obtain ⟨⟨hnames, hproperties⟩, hmayContain⟩ := h
      have hattributes := addTypeMembers_encodeType key baseType displayName behaviors
        (properties_encodeProperties properties hproperties)
        (references_encodeReferences mayContain hmayContain)
      change (addTypeMembers _ .none).toType = _
      rw [hattributes, TypeAttributes.toType_written hnames]
termination_by structural t

end

/-! ### Whole manifests -/

/-- The text of a list of declarations: their own texts in brackets, with commas between them. -/
def writeAll (declarations : List ContentType) : String :=
  "[" ++ String.intercalate "," (declarations.map write) ++ "]"

/-- How deep lists and objects are nested in the text of a list of declarations. -/
def nesting (declarations : List ContentType) : Nat :=
  (Json.array (declarations.map encodeType)).nesting

theorem toList_writeAll (declarations : List ContentType) :
    (writeAll declarations).toList = writeChars (.array (declarations.map encodeType)) := by
  have htexts : (declarations.map write).map String.toList =
      writeItems (declarations.map encodeType) := by
    rw [writeItems_eq_map, List.map_map, List.map_map]
    exact List.map_congr_left fun t _ => String.toList_ofList
  rw [writeAll, String.toList_append, String.toList_append, String.toList_intercalate, htexts,
    writeChars]
  rfl

theorem numberless_types (declarations : List ContentType) :
    areNumberless (declarations.map encodeType) := by
  induction declarations with
  | nil => rfl
  | cons t declarations ih =>
      rw [List.map_cons, areNumberless, numberless_encodeType, ih]
      rfl

theorem decodeTypes_encodeTypes {declarations : List ContentType}
    (h : ∀ t ∈ declarations, t.propertiesDiffer) :
    (declarations.map encodeType).mapM decodeType = some declarations := by
  induction declarations with
  | nil => rfl
  | cons t declarations ih =>
      rw [List.map_cons, List.mapM_cons, decodeType, type_encodeType t (h t List.mem_cons_self),
        ih fun u hu => h u (List.mem_cons_of_mem t hu)]
      rfl

theorem parse_text {declarations : List ContentType}
    (hdiffer : ∀ t ∈ declarations, t.propertiesDiffer)
    (hnesting : nesting declarations ≤ maxNesting) :
    parse (writeAll declarations) = .ok declarations := by
  have hread : Json.read (writeChars (.array (declarations.map encodeType)) ++ []) =
      .ok (.array (declarations.map encodeType), []) :=
    readValue_writeChars (.array _) maxNesting (numberless_types declarations) hnesting []
  have hdecode : decodeManifest (.array (declarations.map encodeType)) = some declarations :=
    decodeTypes_encodeTypes hdiffer
  rw [List.append_nil] at hread
  rw [parse, parseChars, toList_writeAll, hread]
  simp only [hdecode]
  rfl

/-- What is nested deeper than the reader goes is not read. -/
theorem parse_writeAll_of_lt_nesting {declarations : List ContentType}
    (hnesting : maxNesting < nesting declarations) :
    ∃ position, parse (writeAll declarations) = .error (.malformed .nestingLimit position) := by
  have hstops : StopsAtLimit
      (Json.read (writeChars (.array (declarations.map encodeType)) ++ [])) :=
    stops_of_lt_nesting (.array _) maxNesting (numberless_types declarations) hnesting []
  obtain ⟨left, hread⟩ := hstops
  rw [List.append_nil] at hread
  rw [parse, parseChars, toList_writeAll, hread]
  exact ⟨_, rfl⟩

/-- What is written is read back as it was, unless it is nested deeper than the reader goes. So no
two such lists are written alike. -/
theorem parse_writeAll {declarations : List ContentType}
    (hdiffer : ∀ t ∈ declarations, t.propertiesDiffer)
    (hnesting : nesting declarations ≤ maxNesting) :
    parse (writeAll declarations) = .ok declarations ∧
      ∀ others : List ContentType, (∀ t ∈ others, t.propertiesDiffer) →
        nesting others ≤ maxNesting → writeAll others = writeAll declarations →
          others = declarations := by
  have hparse := parse_text hdiffer hnesting
  refine ⟨hparse, ?_⟩
  intro others hothers hdepth htext
  have hother := parse_text hothers hdepth
  rw [htext, hparse] at hother
  exact (Except.ok.inj hother).symm

/-- A content property of a gallery, in which the list of allowed types may be absent. -/
def pictures (allowed : Option (List Reference)) : Property :=
  ⟨.array ⟨.content allowed (some [.key "_video", .inline (.ofKey "Clip\n" .media)]), none⟩,
    some .queryable⟩

/-- Declarations with references by key and inline, a behavior given twice, and characters that are
written with an escape. -/
def galleryTypes (allowed : Option (List Reference)) : List ContentType :=
  [⟨"Gallery", .component, some "Gallery \"é\" \u0007", [("pictures", pictures allowed),
      ("caption", ⟨.component (.inline (.ofKey "Caption" .element)), some .disabled⟩)],
      [.elementEnabled, .sectionEnabled, .elementEnabled],
      [.key "_self", .inline (.ofKey "" .page)]⟩,
    .ofKey "Empty" .folder]

theorem parse_writeAll_gallery :
    parse (writeAll (galleryTypes none)) = .ok (galleryTypes none) ∧
      writeAll (galleryTypes (some [])) ≠ writeAll (galleryTypes none) := by
  have hdiffer : ∀ t ∈ galleryTypes none, t.propertiesDiffer := by decide
  have hround := parse_writeAll hdiffer (by decide)
  refine ⟨hround.1, ?_⟩
  intro htext
  have hsame := hround.2 (galleryTypes (some [])) (by decide) (by decide) htext
  simp [galleryTypes, pictures] at hsame

end Manifest

end ContentQuery
