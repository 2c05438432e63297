import Mathlib.Logic.Relation
import ContentQuery.Proofs.Occurrences
import ContentQuery.Proofs.ReadingDepth

namespace ContentQuery.Manifest

/-- What a value of a manifest stands for. -/
inductive Role where
  | manifest
  /-- A list of declarations or of references. -/
  | declarations
  /-- A declaration or a reference. -/
  | declaration
  | property
  /-- The properties of a declaration. -/
  | properties
  deriving DecidableEq, Repr

namespace Role

/-- The role of a value that an object has under a name. -/
def ofMember : Role → String → Option Role
  | manifest, "contentTypes" => some declarations
  | declaration, "properties" => some properties
  | declaration, "mayContainTypes" => some declarations
  | property, "contentType" => some declaration
  | property, "allowedTypes" => some declarations
  | property, "restrictedTypes" => some declarations
  | property, "items" => some property
  | properties, _ => some property
  | _, _ => none

/-- The role of a value that a list has at a place. -/
def ofItem : Role → Nat → Option Role
  | manifest, _ => some declaration
  | declarations, _ => some declaration
  | declaration, i => typeAttributeNames[i]?.bind declaration.ofMember
  | _, _ => none

/-- The attributes that are read of an object whose attributes may stand in any order. -/
def attributes? : Role → Option (List String)
  | declaration => some typeAttributeNames
  | property => some propertyAttributeNames
  | _ => none

/-- Two values of which the same is read in a role. -/
def Alike : Role → Json → Json → Prop
  | manifest, v, v' => decodeManifest v = decodeManifest v'
  | declarations, v, v' =>
      decodeTypes v = decodeTypes v' ∧ (reading v).references = (reading v').references ∧
        (reading v).optionalReferences = (reading v').optionalReferences
  | declaration, v, v' =>
      decodeType v = decodeType v' ∧ (reading v).reference = (reading v').reference
  | property, v, v' =>
      (reading v).property = (reading v').property ∧ (reading v).item = (reading v').item
  | properties, v, v' => (reading v).properties = (reading v').properties

end Role

/-- Rewritings of a manifest and of its parts. The attributes of a declaration or of a property may
be put in another order, and those that are not read may be left out. A list of declarations may be
wrapped in an object as its only content types. And a value that has a role may be rewritten where
it stands. -/
inductive Rewrites : Role → Json → Json → Prop
  | permuted {role : Role} {names : List String} {members members' : List (String × Json)}
      (hrole : role.attributes? = some names) (h : members.Perm members') :
      Rewrites role (.object members) (.object members')
  | ignored {role : Role} {names : List String} (before after : List (String × Json))
      {name : String} (value : Json) (hrole : role.attributes? = some names)
      (hname : name ∉ names) :
      Rewrites role (.object (before ++ (name, value) :: after)) (.object (before ++ after))
  | wrapped (items : List Json) (before after : List (String × Json))
      (h : ∀ member ∈ before ++ after, member.1 ≠ "contentTypes") :
      Rewrites .manifest (.array items)
        (.object (before ++ ("contentTypes", .array items) :: after))
  | member {role inner : Role} (before after : List (String × Json)) {name : String}
      {value value' : Json} (hrole : role.ofMember name = some inner)
      (h : Rewrites inner value value') :
      Rewrites role (.object (before ++ (name, value) :: after))
        (.object (before ++ (name, value') :: after))
  | item {role inner : Role} (before after : List Json) {value value' : Json}
      (hrole : role.ofItem before.length = some inner) (h : Rewrites inner value value') :
      Rewrites role (.array (before ++ value :: after)) (.array (before ++ value' :: after))

theorem mapM_congr {α β : Type} {f : α → Option β} {x x' : α} (h : f x = f x')
    (before after : List α) :
    (before ++ x :: after).mapM f = (before ++ x' :: after).mapM f := by
  simp only [List.mapM_append, List.mapM_cons, h]

namespace Role

variable {members members' : List (String × Json)}

theorem alike_declaration
    (h : typeOfMembers (readingMembers members) = typeOfMembers (readingMembers members')) :
    declaration.Alike (.object members) (.object members') :=
  ⟨h, congrArg (Option.map Reference.inline) h⟩

theorem alike_property
    (h : ∀ isPayload, propertyOfMembers isPayload (readingMembers members) =
      propertyOfMembers isPayload (readingMembers members')) :
    property.Alike (.object members) (.object members') :=
  ⟨h isNull, h isNullOrEmpty⟩

variable {inner : Role} {name : String} {value value' : Json}

theorem add_type_congr (hrole : declaration.ofMember name = some inner)
    (h : inner.Alike value value') (a : TypeAttributes) :
    a.add name (reading value) = a.add name (reading value') := by
  unfold ofMember at hrole
  split at hrole
  case h_2 =>
    obtain rfl := Option.some.inj hrole
    exact congrArg (fun ps => { a with properties := ps :: a.properties }) h
  case h_3 =>
    obtain rfl := Option.some.inj hrole
    exact congrArg (fun rs => { a with mayContain := rs :: a.mayContain }) h.2.1
  all_goals contradiction

theorem add_property_congr (hrole : property.ofMember name = some inner)
    (h : inner.Alike value value') (isPayload : Json → Bool) (a : PropertyAttributes) :
    a.add isPayload name (reading value) = a.add isPayload name (reading value') := by
  unfold ofMember at hrole
  split at hrole
  case h_4 =>
    obtain rfl := Option.some.inj hrole
    exact congrArg (fun type => { a with type := type :: a.type }) h.2
  case h_5 =>
    obtain rfl := Option.some.inj hrole
    exact congrArg (fun allowed => { a with allowed := allowed :: a.allowed }) h.2.2
  case h_6 =>
    obtain rfl := Option.some.inj hrole
    exact congrArg (fun restricted => { a with restricted := restricted :: a.restricted }) h.2.2
  case h_7 =>
    obtain rfl := Option.some.inj hrole
    exact congrArg (fun item => { a with item := item :: a.item }) h.2
  all_goals contradiction

theorem Alike.member {role : Role} (hrole : role.ofMember name = some inner)
    (h : inner.Alike value value') (before after : List (String × Json)) :
    role.Alike (.object (before ++ (name, value) :: after))
      (.object (before ++ (name, value') :: after)) := by
  cases role with
  | manifest =>
      unfold ofMember at hrole
      split at hrole
      case h_1 =>
        obtain rfl := Option.some.inj hrole
        have htypes : decodeTypes value = decodeTypes value' := h.1
        simp [Alike, decodeManifest, htypes]
      all_goals contradiction
  | declarations => cases hrole
  | declaration =>
      refine alike_declaration ?_
      rw [readingMembers_append, readingMembers_append]
      exact typeOfMembers_congr (add_type_congr hrole h)
  | property =>
      refine alike_property fun isPayload => ?_
      rw [readingMembers_append, readingMembers_append]
      exact propertyOfMembers_congr (add_property_congr hrole h isPayload)
  | properties =>
      obtain rfl := Option.some.inj hrole
      change (readingMembers _).mapM propertyEntry = (readingMembers _).mapM propertyEntry
      rw [readingMembers_append, readingMembers_append]
      have hentry : propertyEntry (name, reading value) = propertyEntry (name, reading value') :=
        congrArg (Option.map fun p => (name, p)) h.1
      exact mapM_congr hentry _ _

theorem Alike.item {role : Role} {before after : List Json}
    (hrole : role.ofItem before.length = some inner) (h : inner.Alike value value') :
    role.Alike (.array (before ++ value :: after)) (.array (before ++ value' :: after)) := by
  cases role with
  | manifest =>
      obtain rfl := Option.some.inj hrole
      exact mapM_congr h.1 before after
  | declarations =>
      obtain rfl := Option.some.inj hrole
      have hreferences : (reading (.array (before ++ value :: after))).references =
          (reading (.array (before ++ value' :: after))).references := by
        change (readingItems _).mapM Reading.reference = (readingItems _).mapM Reading.reference
        rw [readingItems_eq_map, readingItems_eq_map, List.map_append, List.map_append]
        exact mapM_congr h.2 _ _
      exact ⟨mapM_congr h.1 before after, hreferences, congrArg (Option.map some) hreferences⟩
  | declaration =>
      obtain ⟨name, hname, hinner⟩ := Option.bind_eq_some_iff.mp hrole
      have htype : decodeType (.array (before ++ value :: after)) =
          decodeType (.array (before ++ value' :: after)) := by
        change typeOfItems (readingItems _) = typeOfItems (readingItems _)
        rw [readingItems_eq_map, readingItems_eq_map, List.map_append, List.map_append]
        refine typeOfItems_congr ?_ (add_type_congr hinner h)
        rw [List.length_map]
        exact hname
      exact ⟨htype, congrArg (Option.map Reference.inline) htype⟩
  | property | properties => cases hrole

end Role

theorem Rewrites.alike {role : Role} {v v' : Json} (h : Rewrites role v v') : role.Alike v v' := by
  induction h with
  | @permuted role _ members members' hrole h =>
      have hreadings : (readingMembers members).Perm (readingMembers members') := by
        rw [readingMembers_eq_map, readingMembers_eq_map]
        exact h.map _
      cases role with
      | declaration => exact Role.alike_declaration (typeOfMembers_perm hreadings)
      | property => exact Role.alike_property fun _ => propertyOfMembers_perm hreadings
      | _ => cases hrole
  | @ignored role _ before after name value hrole hname =>
      cases role with
      | declaration =>
          obtain rfl := Option.some.inj hrole
          refine Role.alike_declaration ?_
          rw [readingMembers_append, readingMembers_append]
          exact typeOfMembers_of_not_mem hname
      | property =>
          obtain rfl := Option.some.inj hrole
          refine Role.alike_property fun _ => ?_
          rw [readingMembers_append, readingMembers_append]
          exact propertyOfMembers_of_not_mem hname
      | _ => cases hrole
  | wrapped items before after h =>
      rw [List.forall_mem_append] at h
      have hnone (members : List (String × Json))
          (h : ∀ member ∈ members, member.1 ≠ "contentTypes") :
          members.filter (fun member => member.1 = "contentTypes") = [] := by
        simpa using h
      simp [Role.Alike, decodeManifest, hnone before h.1, hnone after h.2, once]
  | member before after hrole _ ih => exact ih.member hrole before after
  | item before after hrole _ ih => exact ih.item hrole

theorem decodeManifest_eq_of_eqvGen {v v' : Json}
    (h : Relation.EqvGen (Rewrites .manifest) v v') : decodeManifest v = decodeManifest v' := by
  induction h with
  | rel _ _ h => exact h.alike
  | refl => rfl
  | symm _ _ _ ih => exact ih.symm
  | trans _ _ _ _ _ ih ih' => exact ih.trans ih'

/-- A manifest is decoded alike, or fails alike, however it is rewritten: any number of times and in
either direction. So are texts of both manifests, as long as these are nested within the limit. Of the
properties of one name that are given for a declaration, wherever it stands, the last one is taken, at
the place of the first. -/
theorem parse_rewritten :
    (∀ {value value' : Json}, Relation.EqvGen (Rewrites .manifest) value value' →
      decodeManifest value = decodeManifest value' ∧
        ∀ {text text' : String}, value.IsSpelled text → value'.IsSpelled text' →
          value.nesting ≤ Json.maxNesting → value'.nesting ≤ Json.maxNesting →
            parse text = parse text') ∧
      ∀ {declaration : Json} {t : ContentType} {members : List (String × Json)},
        decodeType declaration = some t →
        ("properties", .object members) ∈ attributesOf declaration →
          t.properties.map Prod.fst = (members.map Prod.fst).eraseDups ∧
          ∀ property ∈ t.properties, ∃ before value after,
            members = before ++ (property.1, value) :: after ∧
              property.1 ∉ after.map Prod.fst ∧ (reading value).property = some property.2 := by
  constructor
  · intro value value' h
    have hdecode := decodeManifest_eq_of_eqvGen h
    refine ⟨hdecode, fun hspelled hspelled' hdepth hdepth' => ?_⟩
    rw [parse_of_isSpelled hspelled hdepth, parse_of_isSpelled hspelled' hdepth', hdecode]
  · intro declaration t members h hmem
    obtain ⟨ps, hps, hlasts⟩ := properties_of_decodeType h hmem
    rw [hlasts, Keyed.map_lasts, map_fst_of_mapM hps]
    refine ⟨rfl, fun property hproperty => ?_⟩
    obtain ⟨before, after, rfl, hlast⟩ := Keyed.exists_append_of_mem_lasts Prod.fst hproperty
    obtain ⟨before', ⟨name, value⟩, after', rfl, hentry, hafter⟩ := exists_append_of_mapM hps
    obtain ⟨hvalue, rfl⟩ := decodeEntry_eq_some_iff.mp hentry
    rw [map_fst_of_mapM hafter] at hlast
    exact ⟨before', value, after', rfl, hlast, hvalue⟩

/-- A card with a body of the given type and with a title whose type is given twice. -/
def cardJson (body : Json) : Json :=
  .object [("key", .string "Card"), ("baseType", .string "_component"),
    ("properties", .object [
      ("title", .object [("type", .string "integer")]),
      ("body", .object [("type", .string "component"), ("contentType", body)]),
      ("title", .object [("type", .string "string")])])]

def plainBody : Json := .object [("key", .string "Text"), ("baseType", .string "_component")]

/-- The same type with a note, and with its attributes in another order. -/
def notedBody : Json :=
  .object [("baseType", .string "_component"), ("note", .null), ("key", .string "Text")]

theorem Rewrites.card {body body' : Json} (h : Rewrites .declaration body body') :
    Rewrites .manifest (.array [cardJson body]) (.array [cardJson body']) := by
  refine .item [] [] rfl (.member [("key", _), ("baseType", _)] [] rfl ?_)
  exact .member [("title", _)] [("title", _)] rfl (.member [("type", _)] [] rfl h)

theorem parse_rewritten_card :
    let wrapped : Json := .object [("schema", .null), ("contentTypes", .array [cardJson notedBody])]
    ∃ t, parse wrapped.write = .ok [t] ∧ t.properties.map Prod.fst = ["title", "body"] := by
  intro wrapped
  let swapped : Json := .object [("baseType", .string "_component"), ("key", .string "Text")]
  have hplain : Rewrites .declaration plainBody swapped := .permuted rfl (.swap _ _ _)
  have hnoted : Rewrites .declaration notedBody swapped :=
    .ignored [("baseType", _)] [("key", _)] .null rfl (by decide)
  have hwrapped : Rewrites .manifest (.array [cardJson notedBody]) wrapped :=
    .wrapped _ [("schema", .null)] [] (by simp)
  have hrewritten : Relation.EqvGen (Rewrites .manifest) (.array [cardJson plainBody]) wrapped :=
    .trans _ _ _ (.rel _ _ hplain.card)
      (.trans _ _ _ (.symm _ _ (.rel _ _ hnoted.card)) (.rel _ _ hwrapped))
  obtain ⟨t, ht⟩ := Option.isSome_iff_exists.mp
    (show (decodeType (cardJson plainBody)).isSome = true from rfl)
  have htext : parse (Json.array [cardJson plainBody]).write = .ok [t] := by
    rw [parse_of_isSpelled (Json.isSpelled_write rfl) (by decide)]
    simp [decodeManifest, decodeTypes, ht]
  have hparse := (parse_rewritten.1 hrewritten).2 (Json.isSpelled_write rfl)
    (Json.isSpelled_write rfl) (by decide) (by decide)
  obtain ⟨hnames, -⟩ := parse_rewritten.2 ht (.tail _ (.tail _ (.head _)))
  exact ⟨t, hparse.symm.trans htext, hnames⟩

end ContentQuery.Manifest
