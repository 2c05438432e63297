import ContentQuery.Proofs.SpreadGraph

/-!
Which names tell their nodes apart. A fragment always does (`Node.eq_of_fragment?`). A name does as
far as no key is spelled like a name that a compilation makes up itself (`CollisionFree.name_inj`).
-/

namespace ContentQuery.Compile

/-- The names of the fragments that are made for no type. -/
def fixedNames : List String :=
  [mediaMetadataName, experienceDataName, compositionNodeName, compositionComponentName]

theorem not_suffix_tag (base : BaseType) :
    ¬ componentSuffix.toList <:+ base.tag.toList := by
  cases base <;> decide

theorem not_suffix_fixed {name : String} (h : name ∈ fixedNames) :
    ¬ componentSuffix.toList <:+ name.toList := by
  simp only [fixedNames, List.mem_cons, List.not_mem_nil, or_false] at h
  rcases h with rfl | rfl | rfl | rfl <;> decide

theorem suffix_append (key : String) :
    componentSuffix.toList <:+ (key ++ componentSuffix).toList := by
  rw [String.toList_append]
  exact List.suffix_append _ _

theorem append_ne_tag (key : String) (base : BaseType) : key ++ componentSuffix ≠ base.tag :=
  fun h => not_suffix_tag base (h ▸ suffix_append key)

theorem append_ne_fixed (key : String) {name : String} (h : name ∈ fixedNames) :
    key ++ componentSuffix ≠ name :=
  fun he => not_suffix_fixed h (he ▸ suffix_append key)

theorem builtin?_fixed {name : String} (h : name ∈ fixedNames) : builtin? name = none := by
  simp only [fixedNames, List.mem_cons, List.not_mem_nil, or_false] at h
  rcases h with rfl | rfl | rfl | rfl <;> decide

theorem tag_not_mem_fixed (base : BaseType) : base.tag ∉ fixedNames :=
  fun h => builtin?_tag_ne_none base (builtin?_fixed h)

theorem graphType_ne_tag_append (base : BaseType) (suffixed : Bool) :
    base.graphType ≠ base.tag ++ suffix suffixed := by
  cases base <;> cases suffixed <;> decide

namespace Node

variable {ctx : Context} {key key' : String} {suffixed suffixed' : Bool}

theorem name_type_inj (h : (Node.type key suffixed).name = (Node.type key suffixed').name) :
    suffixed = suffixed' := by
  have hs : suffix suffixed = suffix suffixed' := (String.append_right_inj key).mp h
  cases suffixed <;> cases suffixed' <;> first | rfl | exact absurd hs (by decide)

theorem key_inj (h : (Node.type key suffixed).name = (Node.type key' suffixed).name) :
    key = key' :=
  (String.append_left_inj (suffix suffixed)).mp h

theorem type_cases_of_name_eq
    (h : (Node.type key suffixed).name = (Node.type key' suffixed').name) :
    Node.type key suffixed = .type key' suffixed' ∨ key = key' ++ componentSuffix ∨
      key' = key ++ componentSuffix := by
  cases suffixed <;> cases suffixed'
  · exact Or.inl (by rw [key_inj h])
  · exact Or.inr (Or.inl (by simpa [name] using h))
  · exact Or.inr (Or.inr (by simpa [name] using h.symm))
  · exact Or.inl (by rw [key_inj h])

theorem eq_of_type_name_mem_fixed (h : (Node.type key suffixed).name ∈ fixedNames) :
    suffixed = false ∧ key ∈ fixedNames := by
  cases suffixed with
  | false => exact ⟨rfl, by simpa [name] using h⟩
  | true => exact absurd rfl (append_ne_fixed key h)

end Node

theorem foldl_fields (fields : List String) (body : String) :
    fields.foldl (fun body field => body ++ " " ++ field) body =
      body ++ fields.foldl (fun body field => body ++ " " ++ field) "" := by
  induction fields generalizing body with
  | nil => simp
  | cons field fields ih =>
      rw [List.foldl_cons, List.foldl_cons, ih (body ++ " " ++ field), ih ("" ++ " " ++ field)]
      simp [String.append_assoc]

theorem typedBody_ne_metadata (fields : List String) :
    typedBody fields ≠ mediaMetadata.body := by
  intro h
  rw [typedBody, foldl_fields] at h
  have hhead := congrArg (fun body => body.toList.head?) h
  simp [mediaMetadata] at hhead

namespace Node

variable {ctx : Context} {v w : Node} {f g : Fragment} {key key' : String}
  {suffixed suffixed' : Bool}

/-- The nodes that are no types. -/
def fixed : List Node := [.mediaMetadata, .experienceData, .compositionNode, .compositionComponent]

theorem mem_fixed_or_type (v : Node) : v ∈ fixed ∨ ∃ key suffixed, v = .type key suffixed := by
  cases v with
  | type key suffixed => exact Or.inr ⟨key, suffixed, rfl⟩
  | mediaMetadata | experienceData | compositionNode | compositionComponent =>
      exact Or.inl (by decide)

theorem name_mem_fixedNames : ∀ v ∈ fixed, v.name ∈ fixedNames := by decide

theorem eq_of_fixed_name : ∀ v ∈ fixed, ∀ w ∈ fixed, v.name = w.name → v = w := by decide

theorem eq_of_fragment?_fixed (h : (Node.type key suffixed).fragment? ctx = some f)
    (hfixed : f.name ∈ fixedNames) :
    ∃ fields, f = ⟨f.name, f.name, typedBody fields⟩ := by
  rw [name_of_fragment? h] at hfixed
  obtain ⟨rfl, hkey⟩ := eq_of_type_name_mem_fixed hfixed
  rcases eq_of_fragment?_type h with ⟨base, hb, rfl⟩ | ⟨t, _, rfl⟩
  · rw [builtin?_fixed hkey] at hb
    exact absurd hb (by simp)
  · exact ⟨_, by rw [declaredBody]; simp; rfl⟩

theorem name_type_ne_builtin {base : BaseType} (hkey : builtin? key = none)
    (hcondition : key = base.graphType) :
    (Node.type key suffixed).name ≠ (Node.type base.tag suffixed').name := by
  intro hname
  rcases type_cases_of_name_eq hname with h | h | h
  · obtain ⟨rfl, -⟩ := Node.type.inj h
    exact builtin?_tag_ne_none base hkey
  · exact graphType_ne_tag_append base true (hcondition ▸ h)
  · exact append_ne_tag key base h.symm

theorem type_eq_of_condition (hv : (Node.type key suffixed).fragment? ctx = some f)
    (hw : (Node.type key' suffixed').fragment? ctx = some g) (hname : f.name = g.name)
    (hcondition : f.typeCondition = g.typeCondition) :
    Node.type key suffixed = .type key' suffixed' := by
  have hnode : (Node.type key suffixed).name = (Node.type key' suffixed').name :=
    (name_of_fragment? hv).symm.trans (hname.trans (name_of_fragment? hw))
  rcases eq_of_fragment?_type hv with ⟨base, hb, rfl⟩ | ⟨t, ht, rfl⟩
  · obtain rfl := builtin?_eq_some hb
    rcases eq_of_fragment?_type hw with ⟨base', hb', rfl⟩ | ⟨t', ht', rfl⟩
    · obtain rfl := builtin?_eq_some hb'
      rcases type_cases_of_name_eq hnode with h | h | h
      · exact h
      · exact absurd h.symm (append_ne_tag _ _)
      · exact absurd h.symm (append_ne_tag _ _)
    · exact absurd hnode.symm (name_type_ne_builtin ht'.1 hcondition.symm)
  · rcases eq_of_fragment?_type hw with ⟨base', hb', rfl⟩ | ⟨t', ht', rfl⟩
    · obtain rfl := builtin?_eq_some hb'
      exact absurd hnode (name_type_ne_builtin ht.1 hcondition)
    · obtain rfl : key = key' := hcondition
      rw [name_type_inj hnode]

theorem eq_of_condition (hv : v.fragment? ctx = some f)
    (hw : (Node.type key suffixed).fragment? ctx = some g) (hname : f.name = g.name)
    (hcondition : f.typeCondition = g.typeCondition) :
    v = .type key suffixed ∨
      (v = .mediaMetadata ∧ key = mediaMetadataName ∧ suffixed = false) := by
  rcases mem_fixed_or_type v with hfixed | ⟨key', suffixed', rfl⟩
  swap
  · exact Or.inl (type_eq_of_condition hv hw hname hcondition)
  have hnode : v.name = (Node.type key suffixed).name :=
    (name_of_fragment? hv).symm.trans (hname.trans (name_of_fragment? hw))
  have hmem : (Node.type key suffixed).name ∈ fixedNames := hnode ▸ name_mem_fixedNames v hfixed
  obtain ⟨fields, hg⟩ := eq_of_fragment?_fixed hw (name_of_fragment? hw ▸ hmem)
  have hown : f.typeCondition = f.name :=
    hcondition.trans ((congrArg Fragment.typeCondition hg).trans hname.symm)
  cases v with
  | type => exact absurd hfixed (by simp [fixed])
  | mediaMetadata =>
      obtain ⟨rfl, -⟩ := eq_of_type_name_mem_fixed hmem
      exact Or.inr ⟨rfl, by simpa [name] using hnode.symm, rfl⟩
  | experienceData =>
      obtain rfl := Option.some.inj hv
      exact absurd hown (show "_IExperience" ≠ "ExperienceData" by decide)
  | compositionNode =>
      obtain rfl := Option.some.inj hv
      exact absurd hown (show "ICompositionNode" ≠ "CompositionNodeData" by decide)
  | compositionComponent =>
      obtain rfl := Option.some.inj hv
      exact absurd hown (show "_IComponent" ≠ "CompositionComponentData" by decide)

theorem type_eq_of_fragment? (hv : (Node.type key suffixed).fragment? ctx = some f)
    (hw : w.fragment? ctx = some f) : w = .type key suffixed := by
  rcases eq_of_condition hw hv rfl rfl with h | ⟨rfl, -, -⟩
  · exact h
  · obtain rfl := Option.some.inj hw
    obtain ⟨fields, hf⟩ := eq_of_fragment?_fixed hv (by decide)
    exact absurd (congrArg Fragment.body hf).symm (typedBody_ne_metadata fields)

/-- A fragment tells what it was made for. -/
theorem eq_of_fragment? (hv : v.fragment? ctx = some f) (hw : w.fragment? ctx = some f) :
    v = w := by
  rcases mem_fixed_or_type v with hfixed | ⟨key, suffixed, rfl⟩
  · rcases mem_fixed_or_type w with hfixed' | ⟨key', suffixed', rfl⟩
    · exact eq_of_fixed_name v hfixed w hfixed'
        ((name_of_fragment? hv).symm.trans (name_of_fragment? hw))
    · exact type_eq_of_fragment? hw hv
  · exact (type_eq_of_fragment? hv hw).symm

theorem typeCondition_of_name_mediaMetadata (h : v.fragment? ctx = some f)
    (hname : f.name = mediaMetadataName) : f.typeCondition = mediaMetadataName := by
  rcases mem_fixed_or_type v with hfixed | ⟨key, suffixed, rfl⟩
  · obtain rfl := eq_of_fixed_name v hfixed .mediaMetadata (by decide)
      ((name_of_fragment? h).symm.trans hname)
    obtain rfl := Option.some.inj h
    rfl
  · obtain ⟨fields, hf⟩ := eq_of_fragment?_fixed h (hname ▸ by decide)
    exact (congrArg Fragment.typeCondition hf).trans hname

end Node

/-- The given keys and the tags of the base types. -/
def knownKeys (keys : List String) : List String := keys ++ BaseType.all.map BaseType.tag

/-- No key is spelled like a name that is made up: like a fixed name, or like another key or a tag
with the suffix. -/
structure CollisionFree (keys : List String) : Prop where
  not_fixed : ∀ key ∈ keys, key ∉ fixedNames
  not_suffixed : ∀ key ∈ keys, ∀ other ∈ knownKeys keys, key ≠ other ++ componentSuffix

instance (keys : List String) : Decidable (CollisionFree keys) :=
  decidable_of_iff ((∀ key ∈ keys, key ∉ fixedNames) ∧
      ∀ key ∈ keys, ∀ other ∈ knownKeys keys, key ≠ other ++ componentSuffix)
    ⟨fun h => ⟨h.1, h.2⟩, fun h => ⟨h.1, h.2⟩⟩

theorem mem_knownKeys {keys : List String} {key : String} :
    key ∈ knownKeys keys ↔ key ∈ keys ∨ ∃ base : BaseType, key = base.tag := by
  rw [knownKeys, List.mem_append, List.mem_map]
  constructor
  · rintro (h | ⟨base, -, rfl⟩)
    · exact Or.inl h
    · exact Or.inr ⟨base, rfl⟩
  · rintro (h | ⟨base, rfl⟩)
    · exact Or.inl h
    · exact Or.inr ⟨base, base.mem_all, rfl⟩

/-- The types whose keys are among the given ones or tags, and all other nodes. -/
def Node.Known (keys : List String) : Node → Prop
  | .type key _ => key ∈ knownKeys keys
  | _ => True

section

variable {keys : List String} {key key' : String} {suffixed suffixed' : Bool} {v w : Node}

theorem CollisionFree.type_name_inj (h : CollisionFree keys)
    (hkey : (Node.type key suffixed).Known keys) (hkey' : (Node.type key' suffixed').Known keys)
    (hname : (Node.type key suffixed).name = (Node.type key' suffixed').name) :
    Node.type key suffixed = .type key' suffixed' := by
  rcases Node.type_cases_of_name_eq hname with he | rfl | rfl
  · exact he
  · rcases mem_knownKeys.mp hkey with hmem | ⟨base, htag⟩
    · exact absurd rfl (h.not_suffixed _ hmem _ hkey')
    · exact absurd htag (append_ne_tag _ base)
  · rcases mem_knownKeys.mp hkey' with hmem | ⟨base, htag⟩
    · exact absurd rfl (h.not_suffixed _ hmem _ hkey)
    · exact absurd htag (append_ne_tag _ base)

theorem CollisionFree.type_name_not_fixed (h : CollisionFree keys)
    (hkey : (Node.type key suffixed).Known keys) :
    (Node.type key suffixed).name ∉ fixedNames := by
  intro hname
  obtain ⟨-, hfixed⟩ := Node.eq_of_type_name_mem_fixed hname
  rcases mem_knownKeys.mp hkey with hmem | ⟨base, rfl⟩
  · exact h.not_fixed key hmem hfixed
  · exact tag_not_mem_fixed base hfixed

/-- Without collisions a name tells what it stands for. -/
theorem CollisionFree.name_inj (h : CollisionFree keys) (hv : v.Known keys) (hw : w.Known keys)
    (hname : v.name = w.name) : v = w := by
  rcases Node.mem_fixed_or_type v with hfixed | ⟨key, suffixed, rfl⟩
  · rcases Node.mem_fixed_or_type w with hfixed' | ⟨key', suffixed', rfl⟩
    · exact Node.eq_of_fixed_name v hfixed w hfixed' hname
    · exact absurd (hname ▸ Node.name_mem_fixedNames v hfixed) (h.type_name_not_fixed hw)
  · rcases Node.mem_fixed_or_type w with hfixed' | ⟨key', suffixed', rfl⟩
    · exact absurd (hname ▸ Node.name_mem_fixedNames w hfixed') (h.type_name_not_fixed hv)
    · exact h.type_name_inj hv hw hname

end

theorem Node.known_of_fragment? {ctx : Context} {keys : List String}
    (hkeys : ∀ t ∈ ctx.snapshot.types, t.key ∈ keys) {v : Node} {f : Fragment}
    (h : v.fragment? ctx = some f) : v.Known keys := by
  cases v with
  | type key suffixed =>
      rcases Node.eq_of_fragment?_type h with ⟨base, hb, _⟩ | ⟨t, ht, _⟩
      · exact mem_knownKeys.mpr (Or.inr ⟨base, builtin?_eq_some hb⟩)
      · exact mem_knownKeys.mpr (Or.inl (ht.key_eq ▸ hkeys t ht.mem_types))
  | mediaMetadata | experienceData | compositionNode | compositionComponent => exact trivial

end ContentQuery.Compile
