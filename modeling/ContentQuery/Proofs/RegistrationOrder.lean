import Mathlib.Data.List.TakeWhile
import ContentQuery.Proofs.Candidates
import ContentQuery.Proofs.Contents
import ContentQuery.Proofs.MissingTypes

/-!
What the order of registration decides. It changes which spread makes a fragment and where a
composition is made, so that two compilations do not go the same way. But the graph of spreads is the
same, and with it, as long as names tell nodes apart, what is made: only candidates and the types of
a composition are spread in another order, `registration_order`.
-/

namespace ContentQuery

open Candidates

/-- The registries hold the same declarations under the same keys, and list the same keys as
media. -/
structure SameDeclarations (registry registry' : Registry) : Prop where
  get? : ∀ key, (Snapshot.capture registry).get? key = (Snapshot.capture registry').get? key
  mediaKeys : ∀ key, key ∈ registry.mediaKeys ↔ key ∈ registry'.mediaKeys

namespace SameDeclarations

variable {registry registry' : Registry} (h : SameDeclarations registry registry')
include h

theorem symm : SameDeclarations registry' registry :=
  ⟨fun key => (h.get? key).symm, fun key => (h.mediaKeys key).symm⟩

theorem types_perm :
    (Snapshot.capture registry).types.Perm (Snapshot.capture registry').types := by
  rw [List.perm_ext_iff_of_nodup (Compile.nodup_keys registry).of_map
    (Compile.nodup_keys registry').of_map]
  intro t
  have hget := h.get? t.key
  constructor
  · intro ht
    rw [Compile.get?_eq_some_iff.mpr ⟨ht, rfl⟩] at hget
    exact (Compile.get?_eq_some_iff.mp hget.symm).1
  · intro ht
    rw [Compile.get?_eq_some_iff.mpr ⟨ht, rfl⟩] at hget
    exact (Compile.get?_eq_some_iff.mp hget).1

theorem mediaBase?_eq (key : String) :
    (Snapshot.capture registry).mediaBase? key = (Snapshot.capture registry').mediaBase? key := by
  have hmedia : key ∈ (Snapshot.capture registry).mediaKeys ↔
      key ∈ (Snapshot.capture registry').mediaKeys := by
    rw [Snapshot.capture, Snapshot.capture, Keyed.mem_firsts_id, Keyed.mem_firsts_id, h.mediaKeys]
  rw [Snapshot.mediaBase?, Snapshot.mediaBase?, h.get? key]
  exact if_congr hmedia rfl rfl

theorem keysOf_perm (base : BaseType) :
    (keysOf (Snapshot.capture registry).registry base).Perm
      (keysOf (Snapshot.capture registry').registry base) :=
  (h.types_perm.filter _).map ContentType.key

theorem baseline_perm (allowed : List String) :
    (baseline (Snapshot.capture registry).registry allowed).Perm
      (baseline (Snapshot.capture registry').registry allowed) := by
  unfold baseline
  split
  · exact h.types_perm.map ContentType.key
  · exact List.Perm.refl allowed

theorem mem_expansion_iff (entry key : String) :
    key ∈ expansion (Snapshot.capture registry).registry entry ↔
      key ∈ expansion (Snapshot.capture registry').registry entry := by
  rw [mem_expansion, mem_expansion]
  refine or_congr_right (exists_congr fun base => and_congr_right fun _ => ?_)
  exact (h.keysOf_perm base).mem_iff

theorem mem_skipped_iff (restricted : List String) (key : String) :
    key ∈ skipped (Snapshot.capture registry).registry restricted ↔
      key ∈ skipped (Snapshot.capture registry').registry restricted := by
  rw [mem_skipped, mem_skipped]
  refine exists_congr fun entry => and_congr_right fun _ => or_congr_right ?_
  exact exists_congr fun base => and_congr_right fun _ => (h.keysOf_perm base).mem_iff

theorem mem_resolve_iff (allowed restricted : List String) (key : String) :
    key ∈ resolve (Snapshot.capture registry).registry allowed restricted ↔
      key ∈ resolve (Snapshot.capture registry').registry allowed restricted := by
  rw [mem_resolve, mem_resolve, h.mem_skipped_iff]
  refine and_congr_right fun _ => exists_congr fun entry => ?_
  rw [(h.baseline_perm allowed).mem_iff, h.mem_expansion_iff]

end SameDeclarations

theorem ContentTypes.toList_ofList (declarations : List ContentType) :
    (ContentTypes.ofList declarations).toList = Keyed.lasts ContentType.key declarations :=
  (List.foldl_hom ContentTypes.toList fun _ _ => rfl).symm

theorem SameDeclarations.of_perm {declarations declarations' : List ContentType}
    (hperm : declarations.Perm declarations')
    (hnodup : (declarations.map ContentType.key).Nodup) :
    SameDeclarations (ContentTypes.ofList declarations).registry
      (ContentTypes.ofList declarations').registry := by
  have hnodup' : (declarations'.map ContentType.key).Nodup :=
    (hperm.map ContentType.key).nodup_iff.mp hnodup
  have hlist : (ContentTypes.ofList declarations).toList = declarations := by
    rw [ContentTypes.toList_ofList, Keyed.lasts_of_nodup _ hnodup]
  have hlist' : (ContentTypes.ofList declarations').toList = declarations' := by
    rw [ContentTypes.toList_ofList, Keyed.lasts_of_nodup _ hnodup']
  constructor
  · intro key
    ext t
    rw [Compile.get?_eq_some_iff, Compile.get?_eq_some_iff]
    simp only [Snapshot.capture, ContentTypes.registry, hlist, hlist',
      Keyed.lasts_of_nodup _ hnodup, Keyed.lasts_of_nodup _ hnodup', hperm.mem_iff]
  · intro key
    simp only [ContentTypes.registry, hlist, hlist']
    exact ((hperm.filter _).map ContentType.key).mem_iff

namespace Compile

section

variable {registry registry' : Registry} (h : SameDeclarations registry registry')
  (settings : Settings) (root : String)
include h

theorem eligibleKeys_perm :
    (eligibleKeys (contextOf registry settings root)).Perm
      (eligibleKeys (contextOf registry' settings root)) :=
  (h.types_perm.filter _).map ContentType.key

theorem mem_contentTargets_iff (allowed restricted : Option (List Reference)) (key : String) :
    key ∈ contentTargets (contextOf registry settings root) allowed restricted ↔
      key ∈ contentTargets (contextOf registry' settings root) allowed restricted := by
  have hcandidates : ∀ key,
      key ∈ candidates (contextOf registry settings root) allowed restricted ↔
        key ∈ candidates (contextOf registry' settings root) allowed restricted :=
    h.mem_resolve_iff _ _
  rw [mem_contentTargets, mem_contentTargets, hcandidates]
  refine or_congr_right (exists_congr fun candidate => ?_)
  rw [hcandidates]
  refine and_congr_right fun _ => exists_congr fun base => ?_
  have hbase := h.mediaBase?_eq candidate
  exact and_congr_left fun _ => by rw [hbase]

theorem mem_kindTargets_iff (w : Node) : ∀ kind : PropertyKind,
    w ∈ kindTargets (contextOf registry settings root) kind ↔
      w ∈ kindTargets (contextOf registry' settings root) kind
  | .component _ => Iff.rfl
  | .content allowed restricted => by
      rw [kindTargets, kindTargets, List.mem_map, List.mem_map]
      exact exists_congr fun key =>
        and_congr_left fun _ => mem_contentTargets_iff h settings root allowed restricted key
  | .array ⟨kind, _⟩ => mem_kindTargets_iff w kind
  | .string | .boolean | .integer | .float | .binary | .json | .dateTime | .richText | .url
  | .link | .contentReference => Iff.rfl

theorem declared_of_same {key : String} {t : ContentType}
    (ht : Declared (contextOf registry settings root) key t) :
    Declared (contextOf registry' settings root) key t :=
  ⟨ht.1, (h.get? key).symm.trans ht.2⟩

theorem leads_iff (v w : Node) :
    Leads (contextOf registry settings root) v w ↔
      Leads (contextOf registry' settings root) v w := by
  cases v with
  | type key suffixed =>
      rcases Node.type_cases (contextOf registry settings root) key with
        ⟨base, hb⟩ | ⟨t, ht⟩ | ⟨hb, hg⟩
      · rw [Leads, Leads, Node.targets_builtin hb, Node.targets_builtin hb]
      · have ht' := declared_of_same h settings root ht
        rw [Leads, Leads, Node.targets_declared ht, Node.targets_declared ht', mem_declaredTargets,
          mem_declaredTargets]
        simp only [mem_kindTargets_iff h settings root]
      · have hg' : (contextOf registry' settings root).snapshot.get? key = none :=
          (h.get? key).symm.trans hg
        simp [Leads, Node.targets, hb, hg, hg']
  | compositionComponent =>
      exact ((eligibleKeys_perm h settings root).map _).mem_iff
  | mediaMetadata | experienceData | compositionNode => exact Iff.rfl

theorem needed_iff (v : Node) :
    Needed (contextOf registry settings root) v ↔ Needed (contextOf registry' settings root) v := by
  constructor
  · exact Relation.ReflTransGen.mono (fun v w hw => (leads_iff h settings root v w).mp hw) _ _
  · exact Relation.ReflTransGen.mono (fun v w hw => (leads_iff h settings root v w).mpr hw) _ _

end

/-- One field in two orders of registration: the same text, or a selection on the same candidates. -/
inductive SameField : String → String → Prop
  | same (text : String) : SameField text text
  | selection (start : String) {names names' : List String} (h : names.Perm names') :
      SameField (start ++ " " ++ braced (typedBody (names.map spread)))
        (start ++ " " ++ braced (typedBody (names'.map spread)))

/-- The bodies of two fragments of one name, which differ at most in the order of the spreads inside
selections on candidates, or in that of the types that a composition may hold. -/
inductive SameBody (name : String) : String → String → Prop
  | same (body : String) : SameBody name body body
  | fields {texts texts' : List String} (h : List.Forall₂ SameField texts texts') :
      SameBody name (typedBody texts) (typedBody texts')
  | composition {names names' : List String} (hname : name = compositionComponentName)
      (h : names.Perm names') :
      SameBody name (typedBody (names.map spread)) (typedBody (names'.map spread))

theorem SameField.prepend {text text' : String} (h : SameField text text') (start : String) :
    SameField (start ++ text) (start ++ text') := by
  cases h with
  | same => exact .same _
  | selection start' hperm =>
      simpa only [String.append_assoc] using SameField.selection (start ++ start') hperm

theorem SameField.aliased {text text' : String} (h : SameField text text') (t : ContentType)
    (name : String) : SameField (aliased t name text) (aliased t name text') := by
  unfold Compile.aliased
  split
  · exact h
  · exact h.prepend _

theorem SameField.eq_of_no_space {text text' : String} (h : SameField text text')
    (hspace : ' ' ∉ text.toList) : text = text' := by
  cases h with
  | same => rfl
  | selection => exact absurd (by simp [String.toList_append]) hspace

theorem spreads_eq (names : List String) : spreads names = (Keyed.firsts id names).map spread := by
  have hkeys : Keyed.firsts (id ∘ spread) names = Keyed.firsts id names :=
    Keyed.firsts_congr fun x _ y _ => spread_injective.eq_iff
  rw [spreads, Keyed.firsts_map, hkeys]

/-- The name stands at the beginning of the text, and a space or the end of the text after it. -/
def BeginsWith (name text : String) : Prop := text = name ∨ ∃ rest, text = name ++ " " ++ rest

theorem BeginsWith.takeWhile_eq {name text : String} (h : BeginsWith name text)
    (hspace : ' ' ∉ name.toList) : text.toList.takeWhile (· ≠ ' ') = name.toList := by
  have hname : ∀ c ∈ name.toList, decide (c ≠ ' ') = true := by
    intro c hc
    exact decide_eq_true fun he => hspace (he ▸ hc)
  rcases h with rfl | ⟨rest, rfl⟩
  · exact List.takeWhile_eq_self_iff.mpr hname
  · rw [String.toList_append, String.toList_append, List.append_assoc,
      List.takeWhile_append_of_pos hname]
    simp

theorem BeginsWith.name_inj {name name' text : String} (h : BeginsWith name text)
    (h' : BeginsWith name' text) (hspace : ' ' ∉ name.toList) (hspace' : ' ' ∉ name'.toList) :
    name = name' :=
  String.toList_inj.mp ((h.takeWhile_eq hspace).symm.trans (h'.takeWhile_eq hspace'))

theorem beginsWith_field (ctx : Context) (name : String) : ∀ kind : PropertyKind,
    BeginsWith name (field ctx name kind)
  | .component _ | .content _ _ | .richText | .url | .link | .contentReference =>
      Or.inr ⟨_, rfl⟩
  | .array ⟨kind, _⟩ => beginsWith_field ctx name kind
  | .string | .boolean | .integer | .float | .binary | .json | .dateTime => Or.inl rfl

theorem BeginsWith.name_inj_of_aliased {t : ContentType} {name name' text text' : String}
    (h : BeginsWith name text) (h' : BeginsWith name' text') (hspace : ' ' ∉ name.toList)
    (hspace' : ' ' ∉ name'.toList) (haliased : aliased t name text = aliased t name' text') :
    name = name' := by
  unfold aliased at haliased
  split at haliased
  · exact h.name_inj (haliased ▸ h') hspace hspace'
  -- The colon of the alias ends the first word after the key, which is the name with it.
  · have hcolon : ∀ name text : String,
        t.key ++ "__" ++ name ++ ": " ++ text = t.key ++ "__" ++ (name ++ ":" ++ " " ++ text) := by
      intro name text
      have hsplit : ": " = ":" ++ " " := rfl
      simp only [hsplit, String.append_assoc]
    rw [hcolon, hcolon, String.append_right_inj] at haliased
    have hname : BeginsWith (name ++ ":") (name ++ ":" ++ " " ++ text) := Or.inr ⟨_, rfl⟩
    have hname' : BeginsWith (name' ++ ":") (name ++ ":" ++ " " ++ text) :=
      Or.inr ⟨_, haliased⟩
    have hnames := hname.name_inj hname' (by simpa using hspace) (by simpa using hspace')
    exact (String.append_left_inj ":").mp hnames

/-- The fields that a declared type has beside those of its properties. -/
def extras (t : ContentType) : List String :=
  (if t.baseType.isMedia then [mediaMetadataField] else []) ++
    (if t.baseType = .experience then [spread experienceDataName] else [])

/-- What stands in the fragment of a declared type: its enabled properties and the other fields. -/
def entries (t : ContentType) : List ((String × Property) ⊕ String) :=
  (enabled t.properties).map .inl ++ (extras t).map .inr

def entryText (ctx : Context) (t : ContentType) : (String × Property) ⊕ String → String
  | .inl property => aliased t property.1 (field ctx property.1 property.2.kind)
  | .inr extra => extra

theorem declaredBody_eq (ctx : Context) (t : ContentType) :
    declaredBody ctx t = typedBody (Keyed.firsts id ((entries t).map (entryText ctx t))) := by
  have htexts : (entries t).map (entryText ctx t) = fields ctx t t.properties ++ extras t := by
    simp [entries, fields, entryText, Function.comp_def]
  rw [declaredBody, htexts, extras, List.append_assoc]

theorem mem_entries_property {t : ContentType} {property : String × Property} :
    .inl property ∈ entries t ↔ property ∈ enabled t.properties := by
  simp [entries]

theorem mem_entries_extra {t : ContentType} {extra : String} :
    .inr extra ∈ entries t ↔ extra ∈ extras t := by
  simp [entries]

theorem mem_extras {t : ContentType} {extra : String} :
    extra ∈ extras t ↔ (t.baseType.isMedia = true ∧ extra = mediaMetadataField) ∨
      (t.baseType = .experience ∧ extra = spread experienceDataName) := by
  rw [extras, List.mem_append]
  refine or_congr ?_ ?_
  · split <;> simp [*]
  · split <;> simp [*]

theorem extra_eq_of_sameField {t : ContentType} {name text text' extra : String}
    (hextra : extra ∈ extras t) (h : SameField (aliased t name text) (aliased t name text'))
    (heq : aliased t name text = extra) : aliased t name text' = extra := by
  -- What a media type adds is no property's field, which would have an alias, and the spread that an
  -- experience adds has no other order.
  rcases mem_extras.mp hextra with ⟨hmedia, hmetadata⟩ | ⟨-, hspread⟩
  · have haliased : t.baseType.isComponentHierarchy = false := by
      cases hbase : t.baseType <;> simp_all [BaseType.isMedia, BaseType.isComponentHierarchy]
    have hcolon : ':' ∈ (aliased t name text).toList := by
      simp [aliased, haliased, String.toList_append]
    rw [heq, hmetadata] at hcolon
    exact absurd hcolon (by decide)
  · have hspace : ' ' ∉ (aliased t name text).toList := by
      rw [heq, hspread]
      decide
    exact (h.eq_of_no_space hspace).symm.trans heq

theorem property_eq_of_entryText {ctx : Context} {t : ContentType}
    (hnodup : (t.properties.map Prod.fst).Nodup)
    (hspace : ∀ property ∈ enabled t.properties, ' ' ∉ property.1.toList)
    {property property' : String × Property} (hproperty : property ∈ enabled t.properties)
    (hproperty' : property' ∈ enabled t.properties)
    (htext : entryText ctx t (.inl property) = entryText ctx t (.inl property')) :
    property = property' := by
  have hname : property.1 = property'.1 :=
    (beginsWith_field ctx property.1 property.2.kind).name_inj_of_aliased
      (beginsWith_field ctx property'.1 property'.2.kind) (hspace property hproperty)
      (hspace property' hproperty') htext
  exact List.inj_on_of_nodup_map hnodup (List.mem_of_mem_filter hproperty)
    (List.mem_of_mem_filter hproperty') hname

section

variable {registry registry' : Registry} (h : SameDeclarations registry registry')
  (settings : Settings) (root : String)
include h

theorem sameField (name : String) : ∀ kind : PropertyKind,
    SameField (field (contextOf registry settings root) name kind)
      (field (contextOf registry' settings root) name kind)
  | .content allowed restricted => by
      rw [field, field, spreads_eq, spreads_eq]
      exact .selection name
        (Keyed.firsts_id_perm (mem_contentTargets_iff h settings root allowed restricted))
  | .array ⟨kind, _⟩ => sameField name kind
  | .component _ | .string | .boolean | .integer | .float | .binary | .json | .dateTime
  | .richText | .url | .link | .contentReference => .same _

theorem sameField_property (t : ContentType) (property : String × Property) :
    SameField (entryText (contextOf registry settings root) t (.inl property))
      (entryText (contextOf registry' settings root) t (.inl property)) :=
  (sameField h settings root property.1 property.2.kind).aliased t property.1

theorem entryText_eq_of_eq {t : ContentType} (hnodup : (t.properties.map Prod.fst).Nodup)
    (hspace : ∀ property ∈ enabled t.properties, ' ' ∉ property.1.toList)
    {entry entry' : (String × Property) ⊕ String} (hentry : entry ∈ entries t)
    (hentry' : entry' ∈ entries t)
    (htext : entryText (contextOf registry settings root) t entry =
      entryText (contextOf registry settings root) t entry') :
    entryText (contextOf registry' settings root) t entry =
      entryText (contextOf registry' settings root) t entry' := by
  -- Two properties have different fields under either order. A property against another field is
  -- settled by what the two fields of the property have in common.
  cases entry with
  | inl property =>
      cases entry' with
      | inl property' =>
          rw [property_eq_of_entryText hnodup hspace (mem_entries_property.mp hentry)
            (mem_entries_property.mp hentry') htext]
      | inr extra =>
          exact extra_eq_of_sameField (mem_entries_extra.mp hentry')
            (sameField_property h settings root t property) htext
  | inr extra =>
      cases entry' with
      | inl property =>
          exact (extra_eq_of_sameField (mem_entries_extra.mp hentry)
            (sameField_property h settings root t property) htext.symm).symm
      | inr extra' => exact htext

theorem sameBody_declared {t : ContentType} (hnodup : (t.properties.map Prod.fst).Nodup)
    (hspace : ∀ property ∈ enabled t.properties, ' ' ∉ property.1.toList) (name : String) :
    SameBody name (declaredBody (contextOf registry settings root) t)
      (declaredBody (contextOf registry' settings root) t) := by
  rw [declaredBody_eq, declaredBody_eq]
  refine .fields (Keyed.forall₂_firsts ?_ ?_)
  · rintro (property | extra) -
    · exact sameField_property h settings root t property
    · exact .same extra
  · intro entry hentry entry' hentry'
    constructor
    · exact entryText_eq_of_eq h settings root hnodup hspace hentry hentry'
    · exact entryText_eq_of_eq h.symm settings root hnodup hspace hentry hentry'

/-- A node's fragments in both orders of registration. -/
theorem exists_same_fragment
    (hnodup : ∀ t ∈ (Snapshot.capture registry).types, (t.properties.map Prod.fst).Nodup)
    (hspace : ∀ t ∈ (Snapshot.capture registry).types, ∀ property ∈ enabled t.properties,
      ' ' ∉ property.1.toList)
    {v : Node} {f : Fragment} (hf : v.fragment? (contextOf registry settings root) = some f) :
    ∃ f', v.fragment? (contextOf registry' settings root) = some f' ∧
      f.typeCondition = f'.typeCondition ∧ SameBody f.name f.body f'.body := by
  cases v with
  | type key suffixed =>
      rcases Node.eq_of_fragment?_type hf with ⟨base, hb, rfl⟩ | ⟨t, ht, rfl⟩
      · exact ⟨_, Node.fragment?_builtin hb suffixed, rfl, .same _⟩
      · refine ⟨_, Node.fragment?_declared (declared_of_same h settings root ht) suffixed,
          ht.key_eq.symm, ?_⟩
        exact sameBody_declared h settings root (hnodup t ht.mem_types) (hspace t ht.mem_types) _
  | compositionComponent =>
      obtain rfl := Option.some.inj hf
      refine ⟨_, rfl, rfl, ?_⟩
      rw [compositionComponent_eq (nodup_keys registry),
        compositionComponent_eq (nodup_keys registry')]
      exact .composition rfl (eligibleKeys_perm h settings root)
  | mediaMetadata | experienceData | compositionNode =>
      exact ⟨f, hf, rfl, .same f.body⟩

theorem fragment?_eq_none_iff_same (v : Node) :
    v.fragment? (contextOf registry settings root) = none ↔
      v.fragment? (contextOf registry' settings root) = none := by
  cases v with
  | type key suffixed =>
      rw [Node.fragment?_type_eq_none_iff, Node.fragment?_type_eq_none_iff, h.get? key]
  | mediaMetadata | experienceData | compositionNode | compositionComponent =>
      simp [Node.fragment?]

end

/-- The same fragments in any order, each with the same body but for the order of the types that
content may hold. -/
structure SameFragments (c c' : Compilation) : Prop where
  names : ∀ name, name ∈ c.fragments.map Fragment.name ↔ name ∈ c'.fragments.map Fragment.name
  bodies : ∀ f ∈ c.fragments, ∀ f' ∈ c'.fragments, f.name = f'.name →
    f.typeCondition = f'.typeCondition ∧ SameBody f.name f.body f'.body

/-- The order of registration affects only order: a root can be compiled under both registries or
under none, and the fragments are the same. As properties stand for a map, their names differ. -/
theorem registration_order {registry registry' : Registry} (settings : Settings) (root : String)
    (hsame : SameDeclarations registry registry')
    (hfree : CollisionFree (referencedKeys (contextOf registry settings root)))
    (hnodup : ∀ t ∈ (Snapshot.capture registry).types, (t.properties.map Prod.fst).Nodup)
    (hspace : ∀ t ∈ (Snapshot.capture registry).types, ∀ property ∈ enabled t.properties,
      ' ' ∉ property.1.toList) :
    ((∃ c, (compile registry settings root).value = .ok c) ↔
        ∃ c', (compile registry' settings root).value = .ok c') ∧
      ∀ c c', (compile registry settings root).value = .ok c →
        (compile registry' settings root).value = .ok c' → SameFragments c c' := by
  have hneeded := needed_iff hsame settings root
  have hdistinct : NamesDistinct (contextOf registry settings root) := hfree.namesDistinct
  have hdistinct' : NamesDistinct (contextOf registry' settings root) :=
    fun v w hv hw => hdistinct v w ((hneeded v).mpr hv) ((hneeded w).mpr hw)
  refine ⟨?_, fun c c' hc hc' => ⟨fun name => ?_, fun f hf f' hf' hname => ?_⟩⟩
  · rw [hdistinct.exists_ok_iff, hdistinct'.exists_ok_iff]
    refine forall_congr' fun v => imp_congr (hneeded v) (not_congr ?_)
    exact fragment?_eq_none_iff_same hsame settings root v
  · rw [hdistinct.mem_names_iff hc, hdistinct'.mem_names_iff hc']
    exact exists_congr fun v => and_congr_left fun _ => hneeded v
  · obtain ⟨v, hv, hfragment⟩ := exists_needed_of_mem hc hf
    have hfragment' : v.fragment? (contextOf registry' settings root) = some f' :=
      hdistinct'.fragment?_of_name hc' ((hneeded v).mp hv) hf'
        (hname.symm.trans (Node.name_of_fragment? hfragment))
    obtain ⟨g, hg, hsameFragment⟩ :=
      exists_same_fragment hsame settings root hnodup hspace hfragment
    obtain rfl := Option.some.inj (hg.symm.trans hfragment')
    exact hsameFragment

/-- A page and the blocks that it may hold. -/
def blockTypes : List ContentType := [
  (ContentType.ofKey "Home" .experience).withProperty "blocks"
    (.ofKind (.content (some [.key "_component"]) none)),
  (ContentType.ofKey "Banner" .component).withBehavior .elementEnabled,
  (ContentType.ofKey "Quote" .component).withBehavior .elementEnabled]

def homeOf (types : List ContentType) : Except CompileError Compilation :=
  (compile (ContentTypes.ofList types).registry .initial "Home").value

theorem registration_order_blocks :
    ∃ c c', homeOf blockTypes = .ok c ∧ homeOf blockTypes.reverse = .ok c' ∧
      c.fragments ≠ c'.fragments ∧ SameFragments c c' := by
  have hsame := SameDeclarations.of_perm blockTypes.reverse_perm.symm (by decide)
  obtain ⟨hok, hfragments⟩ :=
    registration_order .initial "Home" hsame (by decide) (by decide) (by decide)
  have hdiffer : (homeOf blockTypes).toOption.map Compilation.fragments ≠
      (homeOf blockTypes.reverse).toOption.map Compilation.fragments := by decide
  obtain ⟨c, hc⟩ := exists_ok_of_isSome
    (show (homeOf blockTypes).toOption.isSome = true from rfl)
  obtain ⟨c', hc'⟩ := hok.mp ⟨c, hc⟩
  refine ⟨c, c', hc, hc', ?_, hfragments c c' hc hc'⟩
  intro he
  rw [hc, show homeOf blockTypes.reverse = .ok c' from hc'] at hdiffer
  exact hdiffer (congrArg some he)

end Compile

end ContentQuery
