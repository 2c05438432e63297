import ContentQuery.Manifest.Parse
import ContentQuery.Proofs.Keyed

namespace ContentQuery

mutual

/-- Whether every declaration inside a reference has each property once. -/
def Reference.propertiesDiffer : Reference → Bool
  | .key _ => true
  | .inline declaration => declaration.propertiesDiffer
termination_by structural r => r

def referencesDiffer : List Reference → Bool
  | [] => true
  | reference :: rest => reference.propertiesDiffer && referencesDiffer rest
termination_by structural rs => rs

def optionalReferencesDiffer : Option (List Reference) → Bool
  | none => true
  | some references => referencesDiffer references
termination_by structural rs => rs

def PropertyKind.propertiesDiffer : PropertyKind → Bool
  | .component type => type.propertiesDiffer
  | .content allowed restricted =>
      optionalReferencesDiffer allowed && optionalReferencesDiffer restricted
  | .array item => item.propertiesDiffer
  | _ => true
termination_by structural k => k

def Property.propertiesDiffer : Property → Bool
  | ⟨kind, _⟩ => kind.propertiesDiffer
termination_by structural p => p

def eachPropertyDiffers : List (String × Property) → Bool
  | [] => true
  | (_, p) :: rest => p.propertiesDiffer && eachPropertyDiffers rest
termination_by structural ps => ps

/-- Whether a declaration, and every declaration inside it, has each property once. -/
def ContentType.propertiesDiffer : ContentType → Bool
  | ⟨_, _, _, properties, _, mayContain⟩ =>
      decide (properties.map Prod.fst).Nodup && eachPropertyDiffers properties &&
        referencesDiffer mayContain
termination_by structural t => t

end

theorem referencesDiffer_iff (rs : List Reference) :
    referencesDiffer rs ↔ ∀ r ∈ rs, r.propertiesDiffer := by
  induction rs with
  | nil => simp [referencesDiffer]
  | cons r rs ih => simp [referencesDiffer, ih]

theorem eachPropertyDiffers_iff (ps : List (String × Property)) :
    eachPropertyDiffers ps ↔ ∀ p ∈ ps, p.2.propertiesDiffer := by
  induction ps with
  | nil => simp [eachPropertyDiffers]
  | cons p ps ih => simp [eachPropertyDiffers, ih]

theorem ContentType.propertiesDiffer_iff (t : ContentType) :
    t.propertiesDiffer ↔ (t.properties.map Prod.fst).Nodup ∧ eachPropertyDiffers t.properties ∧
      referencesDiffer t.mayContain := by
  cases t
  simp [ContentType.propertiesDiffer, and_assoc]

theorem ContentType.propertiesDiffer_withProperty {t : ContentType} {p : Property} (name : String)
    (ht : t.propertiesDiffer) (hp : p.propertiesDiffer) :
    (t.withProperty name p).propertiesDiffer := by
  rw [ContentType.propertiesDiffer_iff] at ht ⊢
  obtain ⟨hnames, hproperties, hmayContain⟩ := ht
  refine ⟨Keyed.nodup_map_put Prod.fst (name, p) hnames, ?_, hmayContain⟩
  rw [eachPropertyDiffers_iff] at hproperties ⊢
  intro q hq
  rcases Keyed.mem_of_mem_put Prod.fst hq with rfl | hq
  · exact hp
  · exact hproperties q hq

namespace Manifest

theorem mem_of_once {α : Type} {outcomes : List (Option α)} {x : α} (h : once outcomes = some x) :
    some x ∈ outcomes := by
  unfold once at h
  split at h
  · exact List.mem_singleton.mpr h.symm
  · contradiction

theorem mem_of_atMostOnce {α : Type} {outcomes : List (Option α)} {x : α}
    (h : atMostOnce outcomes = some (some x)) : some x ∈ outcomes := by
  unfold atMostOnce at h
  split at h
  · simp at h
  · rename_i outcome
    obtain ⟨y, rfl, hy⟩ := Option.map_eq_some_iff.mp h
    obtain rfl := Option.some.inj hy
    exact List.mem_cons_self
  · contradiction

/-- What holds of each value that the occurrences of an attribute were read as. -/
def Throughout {α : Type} (holds : α → Prop) (outcomes : List (Option α)) : Prop :=
  ∀ x, some x ∈ outcomes → holds x

section Throughout

variable {α : Type} {holds : α → Prop} {outcomes : List (Option α)}

theorem Throughout.nil : Throughout holds [] := fun _ h => absurd h List.not_mem_nil

theorem Throughout.cons (hrest : Throughout holds outcomes) {outcome : Option α}
    (h : ∀ x, outcome = some x → holds x) : Throughout holds (outcome :: outcomes) := by
  intro x hx
  rcases List.mem_cons.mp hx with hx | hx
  · exact h x hx.symm
  · exact hrest x hx

end Throughout

theorem exists_of_mapM_cons {α β : Type} {f : α → Option β} {x : α} {xs : List α} {ys : List β}
    (h : (x :: xs).mapM f = some ys) :
    ∃ y ys', ys = y :: ys' ∧ f x = some y ∧ xs.mapM f = some ys' := by
  simp only [List.mapM_cons, bind, pure, Option.bind_eq_some_iff, Option.some.injEq] at h
  obtain ⟨y, hy, ys', hys, rfl⟩ := h
  exact ⟨y, ys', rfl, hy, hys⟩

theorem exists_append_of_mapM {α β : Type} {f : α → Option β} {xs : List α} {before : List β}
    {y : β} {after : List β} (h : xs.mapM f = some (before ++ y :: after)) :
    ∃ before' x after', xs = before' ++ x :: after' ∧ f x = some y ∧ after'.mapM f = some after := by
  induction before generalizing xs with
  | nil =>
      cases xs with
      | nil => cases h
      | cons x xs =>
          obtain ⟨z, zs, hcons, hz, hzs⟩ := exists_of_mapM_cons h
          obtain ⟨rfl, rfl⟩ := List.cons.inj hcons
          exact ⟨[], x, xs, rfl, hz, hzs⟩
  | cons z before ih =>
      cases xs with
      | nil => cases h
      | cons x xs =>
          obtain ⟨w, ws, hcons, -, hws⟩ := exists_of_mapM_cons h
          obtain ⟨rfl, rfl⟩ := List.cons.inj hcons
          obtain ⟨before', x', after', rfl, hx', hafter⟩ := ih hws
          exact ⟨x :: before', x', after', rfl, hx', hafter⟩

theorem exists_of_mapM {α β : Type} {f : α → Option β} {xs : List α} {ys : List β}
    (h : xs.mapM f = some ys) : ∀ y ∈ ys, ∃ x ∈ xs, f x = some y := by
  intro y hy
  obtain ⟨before, after, rfl⟩ := List.append_of_mem hy
  obtain ⟨before', x, after', rfl, hx, -⟩ := exists_append_of_mapM h
  exact ⟨x, List.mem_append_right before' List.mem_cons_self, hx⟩

/-- Whatever a value reads as has each property once. -/
structure Reading.PropertiesDiffer (r : Reading) : Prop where
  type : ∀ t, r.type = some t → t.propertiesDiffer
  references : ∀ rs, r.references = some rs → referencesDiffer rs
  property : ∀ p, r.property = some p → p.propertiesDiffer
  item : ∀ p, r.item = some p → p.propertiesDiffer
  properties : ∀ ps, r.properties = some ps → eachPropertyDiffers ps

namespace Reading.PropertiesDiffer

variable {r : Reading}

theorem reference (h : r.PropertiesDiffer) {reference : Reference}
    (hr : r.reference = some reference) : reference.propertiesDiffer := by
  unfold Reading.reference at hr
  split at hr
  · obtain rfl := Option.some.inj hr
    rfl
  · obtain ⟨t, ht, rfl⟩ := Option.map_eq_some_iff.mp hr
    exact h.type t ht

theorem optionalReferences (h : r.PropertiesDiffer) {rs? : Option (List Reference)}
    (hr : r.optionalReferences = some rs?) : optionalReferencesDiffer rs? := by
  unfold Reading.optionalReferences at hr
  split at hr
  · obtain rfl := Option.some.inj hr
    rfl
  · obtain ⟨rs, hrs, rfl⟩ := Option.map_eq_some_iff.mp hr
    exact h.references rs hrs

end Reading.PropertiesDiffer

/-! ### Declarations -/

structure TypeAttributes.PropertiesDiffer (a : TypeAttributes) : Prop where
  properties : Throughout (fun ps => eachPropertyDiffers ps) a.properties
  mayContain : Throughout (fun rs => referencesDiffer rs) a.mayContain

theorem TypeAttributes.PropertiesDiffer.add {a : TypeAttributes} (ha : a.PropertiesDiffer)
    {r : Reading} (hr : r.PropertiesDiffer) (name : String) :
    (TypeAttributes.add name r a).PropertiesDiffer := by
  unfold TypeAttributes.add
  split
  case h_4 => exact ⟨ha.properties.cons hr.properties, ha.mayContain⟩
  case h_6 => exact ⟨ha.properties, ha.mayContain.cons hr.references⟩
  all_goals exact ⟨ha.properties, ha.mayContain⟩

theorem TypeAttributes.PropertiesDiffer.toType {a : TypeAttributes} (ha : a.PropertiesDiffer)
    {t : ContentType} (ht : a.toType = some t) : t.propertiesDiffer := by
  simp only [TypeAttributes.toType, bind, pure, Option.bind_eq_some_iff, Option.some.injEq] at ht
  obtain ⟨_, -, _, -, _, -, properties, hproperties, _, -, mayContain, hmayContain, rfl⟩ := ht
  rw [ContentType.propertiesDiffer_iff]
  refine ⟨Keyed.nodup_map_lasts Prod.fst _, ?_, ?_⟩
  · cases properties with
    | none => rfl
    | some ps =>
        have hps : eachPropertyDiffers ps := ha.properties ps (mem_of_atMostOnce hproperties)
        rw [eachPropertyDiffers_iff] at hps ⊢
        exact fun p hp => hps p (Keyed.mem_of_mem_lasts Prod.fst hp)
  · cases mayContain with
    | none => rfl
    | some rs => exact ha.mayContain rs (mem_of_atMostOnce hmayContain)

theorem typeOfMembers_differ {members : List (String × Reading)}
    (h : ∀ member ∈ members, member.2.PropertiesDiffer) {t : ContentType}
    (ht : typeOfMembers members = some t) : t.propertiesDiffer := by
  refine TypeAttributes.PropertiesDiffer.toType ?_ ht
  clear ht
  induction members with
  | nil => exact ⟨.nil, .nil⟩
  | cons member members ih =>
      rw [List.forall_mem_cons] at h
      exact (ih h.2).add h.1 member.1

/-! ### Properties -/

structure PropertyAttributes.PropertiesDiffer (a : PropertyAttributes) : Prop where
  type : Throughout (fun r => r.propertiesDiffer) a.type
  allowed : Throughout (fun rs? => optionalReferencesDiffer rs?) a.allowed
  restricted : Throughout (fun rs? => optionalReferencesDiffer rs?) a.restricted
  item : Throughout (fun p => p.propertiesDiffer) a.item

theorem PropertyAttributes.PropertiesDiffer.add {a : PropertyAttributes} (ha : a.PropertiesDiffer)
    {r : Reading} (hr : r.PropertiesDiffer) (isPayload : Json → Bool) (name : String) :
    (PropertyAttributes.add isPayload name r a).PropertiesDiffer := by
  unfold PropertyAttributes.add
  split
  case h_3 => exact ⟨ha.type.cons fun _ => hr.reference, ha.allowed, ha.restricted, ha.item⟩
  case h_4 =>
    exact ⟨ha.type, ha.allowed.cons fun _ => hr.optionalReferences, ha.restricted, ha.item⟩
  case h_5 =>
    exact ⟨ha.type, ha.allowed, ha.restricted.cons fun _ => hr.optionalReferences, ha.item⟩
  case h_6 => exact ⟨ha.type, ha.allowed, ha.restricted, ha.item.cons hr.item⟩
  all_goals exact ⟨ha.type, ha.allowed, ha.restricted, ha.item⟩

theorem optionalReferencesDiffer_join {outcomes : List (Option (Option (List Reference)))}
    (h : Throughout (fun rs? => optionalReferencesDiffer rs?) outcomes)
    {outcome : Option (Option (List Reference))} (hread : atMostOnce outcomes = some outcome) :
    optionalReferencesDiffer outcome.join := by
  cases outcome with
  | none => rfl
  | some rs? => exact h rs? (mem_of_atMostOnce hread)

theorem PropertyAttributes.PropertiesDiffer.toKind {a : PropertyAttributes}
    (ha : a.PropertiesDiffer) {name : String} {kind : PropertyKind}
    (hkind : a.toKind name = some kind) : kind.propertiesDiffer := by
  unfold PropertyAttributes.toKind at hkind
  split at hkind
  case h_12 =>
    obtain ⟨type, htype, rfl⟩ := Option.map_eq_some_iff.mp hkind
    exact ha.type type (mem_of_once htype)
  case h_13 =>
    simp only [bind, pure, Option.bind_eq_some_iff, Option.some.injEq] at hkind
    obtain ⟨allowed, hallowed, restricted, hrestricted, rfl⟩ := hkind
    rw [PropertyKind.propertiesDiffer, optionalReferencesDiffer_join ha.allowed hallowed,
      optionalReferencesDiffer_join ha.restricted hrestricted]
    rfl
  case h_14 =>
    obtain ⟨item, hitem, rfl⟩ := Option.map_eq_some_iff.mp hkind
    exact ha.item item (mem_of_once hitem)
  case h_15 => contradiction
  all_goals
    obtain rfl := Option.some.inj hkind
    rfl

theorem PropertyAttributes.PropertiesDiffer.toProperty {a : PropertyAttributes}
    (ha : a.PropertiesDiffer) {p : Property} (hp : a.toProperty = some p) :
    p.propertiesDiffer := by
  simp only [PropertyAttributes.toProperty, bind, pure, Option.bind_eq_some_iff,
    Option.some.injEq] at hp
  obtain ⟨name, -, kind, hkind, _, -, rfl⟩ := hp
  exact ha.toKind hkind

theorem propertyOfMembers_differ {isPayload : Json → Bool} {members : List (String × Reading)}
    (h : ∀ member ∈ members, member.2.PropertiesDiffer) {p : Property}
    (hp : propertyOfMembers isPayload members = some p) : p.propertiesDiffer := by
  refine PropertyAttributes.PropertiesDiffer.toProperty ?_ hp
  clear hp
  induction members with
  | nil => exact ⟨.nil, .nil, .nil, .nil⟩
  | cons member members ih =>
      rw [List.forall_mem_cons] at h
      exact (ih h.2).add h.1 isPayload member.1

/-! ### Whole texts -/

theorem propertiesDiffer_ofItems (value : Json) {items : List Reading}
    (h : ∀ item ∈ items, item.PropertiesDiffer) :
    (Reading.ofItems value items).PropertiesDiffer := by
  refine ⟨?_, ?_, ?_, ?_, ?_⟩
  · intro t ht
    change typeOfItems items = some t at ht
    unfold typeOfItems at ht
    split at ht
    · refine typeOfMembers_differ ?_ ht
      exact fun member hmember => h member.2 (List.of_mem_zip hmember).2
    · contradiction
  · intro rs hrs
    rw [referencesDiffer_iff]
    intro r hr
    obtain ⟨item, hitem, hreference⟩ := exists_of_mapM hrs r hr
    exact (h item hitem).reference hreference
  all_goals
    intro _ hnone
    contradiction

theorem propertiesDiffer_ofMembers (value : Json) {members : List (String × Reading)}
    (h : ∀ member ∈ members, member.2.PropertiesDiffer) :
    (Reading.ofMembers value members).PropertiesDiffer := by
  refine ⟨?_, ?_, ?_, ?_, ?_⟩
  · exact fun t ht => typeOfMembers_differ h ht
  · intro _ hnone
    contradiction
  · exact fun p hp => propertyOfMembers_differ h hp
  · exact fun p hp => propertyOfMembers_differ h hp
  · intro ps hps
    rw [eachPropertyDiffers_iff]
    intro p hp
    obtain ⟨member, hmember, hproperty⟩ := exists_of_mapM hps p hp
    obtain ⟨q, hq, rfl⟩ := Option.map_eq_some_iff.mp hproperty
    exact (h member hmember).property q hq

mutual

theorem propertiesDiffer_reading (value : Json) : (reading value).PropertiesDiffer := by
  match value with
  | .array items => exact propertiesDiffer_ofItems _ (propertiesDiffer_readingItems items)
  | .object members => exact propertiesDiffer_ofMembers _ (propertiesDiffer_readingMembers members)
  | .null | .bool _ | .number _ | .string _ =>
      constructor <;> intro _ hnone <;> contradiction

theorem propertiesDiffer_readingItems (items : List Json) :
    ∀ item ∈ readingItems items, item.PropertiesDiffer := by
  match items with
  | [] => simp [readingItems]
  | item :: items =>
      rw [readingItems, List.forall_mem_cons]
      exact ⟨propertiesDiffer_reading item, propertiesDiffer_readingItems items⟩

theorem propertiesDiffer_readingMembers (members : List (String × Json)) :
    ∀ member ∈ readingMembers members, member.2.PropertiesDiffer := by
  match members with
  | [] => simp [readingMembers]
  | (name, value) :: members =>
      rw [readingMembers, List.forall_mem_cons]
      exact ⟨propertiesDiffer_reading value, propertiesDiffer_readingMembers members⟩

end

theorem propertiesDiffer_of_decodeTypes {value : Json} {declarations : List ContentType}
    (h : decodeTypes value = some declarations) : ∀ t ∈ declarations, t.propertiesDiffer := by
  unfold decodeTypes at h
  split at h
  · intro t ht
    obtain ⟨item, -, hitem⟩ := exists_of_mapM h t ht
    exact (propertiesDiffer_reading item).type t hitem
  · contradiction

theorem propertiesDiffer_of_decodeManifest {value : Json} {declarations : List ContentType}
    (h : decodeManifest value = some declarations) : ∀ t ∈ declarations, t.propertiesDiffer := by
  unfold decodeManifest at h
  split at h
  · obtain ⟨member, -, hmember⟩ := List.mem_map.mp (mem_of_once h)
    exact propertiesDiffer_of_decodeTypes hmember
  · exact propertiesDiffer_of_decodeTypes h

/-- Whatever the text, no declaration that is read from it has two properties of one name. -/
theorem propertiesDiffer_of_parse {text : String} {declarations : List ContentType}
    (h : parse text = .ok declarations) : ∀ t ∈ declarations, t.propertiesDiffer := by
  unfold parse parseChars at h
  split at h
  · contradiction
  split at h
  · contradiction
  split at h
  · rename_i hdecode _ _
    obtain rfl := Except.ok.inj h
    exact propertiesDiffer_of_decodeManifest hdecode
  · contradiction

end Manifest

end ContentQuery
