import Mathlib.Logic.Relation
import ContentQuery.Document
import ContentQuery.Proofs.Keyed

/-!
The graph of spreads. A node stands for a fragment that a compilation may be asked for, under the
name that it is asked for by; its targets are the nodes whose fragments it spreads. Nothing here
depends on what a compilation has visited.
-/

namespace ContentQuery.Compile

/-- A type has two fragments. The suffixed one is for properties that hold exactly one instance. -/
def suffix (suffixed : Bool) : String := if suffixed then componentSuffix else ""

@[simp]
theorem suffix_true : suffix true = componentSuffix := rfl

@[simp]
theorem suffix_false : suffix false = "" := rfl

/-- What a fragment is made for. -/
inductive Node where
  | type (key : String) (suffixed : Bool)
  | mediaMetadata
  | experienceData
  | compositionNode
  | compositionComponent
  deriving DecidableEq, Repr

/-- The field that a property of the given kind has in a selection. -/
def field (ctx : Context) (name : String) : PropertyKind → String
  | .component type =>
      name ++ " " ++ braced (spread (resolveSelf ctx.root type.typeKey ++ componentSuffix))
  | .content allowed restricted =>
      name ++ " " ++ braced (typedBody (spreads (contentTargets ctx allowed restricted)))
  | .array ⟨kind, _⟩ => field ctx name kind
  | kind => plainField name kind

/-- The nodes whose fragments the field spreads. -/
def kindTargets (ctx : Context) : PropertyKind → List Node
  | .component type => [.type (resolveSelf ctx.root type.typeKey) true]
  | .content allowed restricted => (contentTargets ctx allowed restricted).map (.type · false)
  | .array ⟨kind, _⟩ => kindTargets ctx kind
  | _ => []

/-- The properties that stand in a selection. -/
def enabled (properties : List (String × Property)) : List (String × Property) :=
  properties.filter fun property => !property.2.isDisabled

def fields (ctx : Context) (t : ContentType) (properties : List (String × Property)) :
    List String :=
  (enabled properties).map fun property =>
    aliased t property.1 (field ctx property.1 property.2.kind)

def baseBody (base : BaseType) : String :=
  typedBody (if base.isMedia then [mediaMetadataField] else [])

def declaredBody (ctx : Context) (t : ContentType) : String :=
  typedBody (Keyed.firsts id (fields ctx t t.properties ++
    (if t.baseType.isMedia then [mediaMetadataField] else []) ++
    (if t.baseType = .experience then [spread experienceDataName] else [])))

/-- The nodes whose fragments the fields of the properties spread. -/
def propertyTargets (ctx : Context) (properties : List (String × Property)) : List Node :=
  (enabled properties).flatMap fun property => kindTargets ctx property.2.kind

def metadataTargets (base : BaseType) : List Node := if base.isMedia then [.mediaMetadata] else []

def compositionTargets (base : BaseType) : List Node :=
  if base = .experience then [.experienceData] else []

/-- The nodes whose fragments the selection on a declared type spreads. -/
def declaredTargets (ctx : Context) (t : ContentType) : List Node :=
  metadataTargets t.baseType ++ propertyTargets ctx t.properties ++ compositionTargets t.baseType

def eligibleNodes (ctx : Context) : List Node := (eligibleKeys ctx).map (.type · false)

namespace Node

def name : Node → String
  | .type key suffixed => key ++ suffix suffixed
  | .mediaMetadata => mediaMetadataName
  | .experienceData => experienceDataName
  | .compositionNode => compositionNodeName
  | .compositionComponent => compositionComponentName

/-- The fragment of a node. A type that is neither built in nor registered has none. -/
def fragment? (ctx : Context) : Node → Option Fragment
  | .type key suffixed =>
      match builtin? key with
      | some base => some ⟨key ++ suffix suffixed, base.graphType, baseBody base⟩
      | none =>
          (ctx.snapshot.get? key).map fun t =>
            ⟨key ++ suffix suffixed, t.key, declaredBody ctx t⟩
  | .mediaMetadata => some ContentQuery.mediaMetadata
  | .experienceData => some Compile.experienceData
  | .compositionNode => some ContentQuery.compositionNode
  | .compositionComponent => some (Compile.compositionComponent ctx)

/-- The nodes whose fragments the fragment of a node spreads. -/
def targets (ctx : Context) : Node → List Node
  | .type key _ =>
      match builtin? key with
      | some base => metadataTargets base
      | none =>
          match ctx.snapshot.get? key with
          | some t => declaredTargets ctx t
          | none => []
  | .mediaMetadata => []
  | .experienceData => [.compositionNode]
  | .compositionNode => [.compositionComponent]
  | .compositionComponent => eligibleNodes ctx

end Node

/-- The fragment of a node spreads that of another one. -/
def Leads (ctx : Context) (v w : Node) : Prop := w ∈ v.targets ctx

/-- What the fragment of the root needs. -/
def Needed (ctx : Context) (v : Node) : Prop :=
  Relation.ReflTransGen (Leads ctx) (.type ctx.root false) v

/-- The names that a fragment spreads. -/
def Spreads (ctx : Context) (f : Fragment) (name : String) : Prop :=
  ∃ v w, v.fragment? ctx = some f ∧ Leads ctx v w ∧ w.name = name

/-- The registered types, as far as their keys are no tags. -/
def Declared (ctx : Context) (key : String) (t : ContentType) : Prop :=
  builtin? key = none ∧ ctx.snapshot.get? key = some t

theorem builtin?_eq_some {key : String} {base : BaseType} (h : builtin? key = some base) :
    key = base.tag := by
  unfold builtin? at h
  split at h
  · have htag : base.tag = key := by simpa using List.find?_some h
    exact htag.symm
  · exact absurd h (by simp)

theorem builtin?_tag (base : BaseType) : builtin? base.tag = some base := by
  cases base <;> decide

theorem builtin?_tag_ne_none (base : BaseType) : builtin? base.tag ≠ none := by
  rw [builtin?_tag]
  exact Option.some_ne_none base

theorem mem_metadataTargets {base : BaseType} {w : Node} :
    w ∈ metadataTargets base ↔ w = .mediaMetadata ∧ base.isMedia = true := by
  unfold metadataTargets
  split <;> simp [*]

theorem mem_compositionTargets {base : BaseType} {w : Node} :
    w ∈ compositionTargets base ↔ w = .experienceData ∧ base = .experience := by
  unfold compositionTargets
  split <;> simp [*]

theorem mem_declaredTargets {ctx : Context} {t : ContentType} {w : Node} :
    w ∈ declaredTargets ctx t ↔
      (w = .mediaMetadata ∧ t.baseType.isMedia = true) ∨
        (∃ property ∈ enabled t.properties, w ∈ kindTargets ctx property.2.kind) ∨
          (w = .experienceData ∧ t.baseType = .experience) := by
  rw [declaredTargets, List.mem_append, List.mem_append, mem_metadataTargets, propertyTargets,
    List.mem_flatMap, mem_compositionTargets, or_assoc]

theorem Declared.key_eq {ctx : Context} {key : String} {t : ContentType}
    (h : Declared ctx key t) : t.key = key :=
  (Keyed.mem_of_find? ContentType.key h.2).2

theorem Declared.mem_types {ctx : Context} {key : String} {t : ContentType}
    (h : Declared ctx key t) : t ∈ ctx.snapshot.types :=
  (Keyed.mem_of_find? ContentType.key h.2).1

theorem nodup_keys (registry : Registry) :
    ((Snapshot.capture registry).types.map ContentType.key).Nodup :=
  Keyed.nodup_map_lasts ContentType.key registry.all

theorem get?_eq_some_iff {registry : Registry} {key : String} {t : ContentType} :
    (Snapshot.capture registry).get? key = some t ↔
      t ∈ (Snapshot.capture registry).types ∧ t.key = key :=
  Keyed.find?_eq_some_iff ContentType.key (nodup_keys registry)

theorem get?_eq_none_iff {ctx : Context} {key : String} :
    ctx.snapshot.get? key = none ↔ key ∉ ctx.snapshot.types.map ContentType.key :=
  Keyed.find?_eq_none_iff ContentType.key key _

namespace Node

variable {ctx : Context}

theorem fragment?_builtin {key : String} {base : BaseType} (h : builtin? key = some base)
    (suffixed : Bool) :
    (Node.type key suffixed).fragment? ctx =
      some ⟨key ++ suffix suffixed, base.graphType, baseBody base⟩ := by
  simp [fragment?, h]

theorem fragment?_declared {key : String} {t : ContentType} (h : Declared ctx key t)
    (suffixed : Bool) :
    (Node.type key suffixed).fragment? ctx =
      some ⟨key ++ suffix suffixed, t.key, declaredBody ctx t⟩ := by
  simp [fragment?, h.1, h.2]

theorem targets_builtin {key : String} {base : BaseType} (h : builtin? key = some base)
    (suffixed : Bool) : (Node.type key suffixed).targets ctx = metadataTargets base := by
  simp [targets, h]

theorem targets_declared {key : String} {t : ContentType} (h : Declared ctx key t)
    (suffixed : Bool) : (Node.type key suffixed).targets ctx = declaredTargets ctx t := by
  simp [targets, h.1, h.2]

theorem type_cases (ctx : Context) (key : String) :
    (∃ base, builtin? key = some base) ∨ (∃ t, Declared ctx key t) ∨
      (builtin? key = none ∧ ctx.snapshot.get? key = none) := by
  cases hb : builtin? key with
  | some base => exact Or.inl ⟨base, rfl⟩
  | none =>
      cases hg : ctx.snapshot.get? key with
      | some t => exact Or.inr (Or.inl ⟨t, hb, hg⟩)
      | none => exact Or.inr (Or.inr ⟨rfl, rfl⟩)

theorem fragment?_type_eq_none_iff {key : String} {suffixed : Bool} :
    (Node.type key suffixed).fragment? ctx = none ↔
      builtin? key = none ∧ ctx.snapshot.get? key = none := by
  cases hb : builtin? key <;> simp [fragment?, hb]

theorem eq_of_fragment?_type {key : String} {suffixed : Bool} {f : Fragment}
    (h : (Node.type key suffixed).fragment? ctx = some f) :
    (∃ base, builtin? key = some base ∧
        f = ⟨key ++ suffix suffixed, base.graphType, baseBody base⟩) ∨
      ∃ t, Declared ctx key t ∧ f = ⟨key ++ suffix suffixed, key, declaredBody ctx t⟩ := by
  rcases type_cases ctx key with ⟨base, hb⟩ | ⟨t, ht⟩ | hm
  · rw [fragment?_builtin hb] at h
    exact Or.inl ⟨base, hb, (Option.some.inj h).symm⟩
  · rw [fragment?_declared ht, ht.key_eq] at h
    exact Or.inr ⟨t, ht, (Option.some.inj h).symm⟩
  · rw [fragment?_type_eq_none_iff.mpr hm] at h
    exact absurd h (by simp)

theorem name_of_fragment? {v : Node} {f : Fragment} (h : v.fragment? ctx = some f) :
    f.name = v.name := by
  cases v with
  | type key suffixed =>
      rcases eq_of_fragment?_type h with ⟨_, _, rfl⟩ | ⟨_, _, rfl⟩
      · rfl
      · rfl
  | mediaMetadata | experienceData | compositionNode | compositionComponent =>
      exact (Option.some.inj h) ▸ rfl

theorem exists_fragment_of_leads {v w : Node} (h : Leads ctx v w) :
    ∃ f, v.fragment? ctx = some f := by
  cases v with
  | type key suffixed =>
      rcases type_cases ctx key with ⟨base, hb⟩ | ⟨t, ht⟩ | ⟨hb, hg⟩
      · exact ⟨_, fragment?_builtin hb suffixed⟩
      · exact ⟨_, fragment?_declared ht suffixed⟩
      · simp [Leads, targets, hb, hg] at h
  | mediaMetadata | experienceData | compositionNode | compositionComponent => exact ⟨_, rfl⟩

end Node

end ContentQuery.Compile
