import ContentQuery.Proofs.Grammar

namespace ContentQuery.Compile

open Token

/-- Keys and the names of enabled properties are names, and no key is the word that begins a type
condition. -/
structure WellNamed (types : List ContentType) : Prop where
  key : ∀ t ∈ types, IsFragmentName t.key
  property : ∀ t ∈ types, ∀ property ∈ enabled t.properties, isName property.1 = true

instance (types : List ContentType) : Decidable (WellNamed types) :=
  decidable_of_iff
    ((∀ t ∈ types, IsFragmentName t.key) ∧
      ∀ t ∈ types, ∀ property ∈ enabled t.properties, isName property.1 = true)
    ⟨fun h => ⟨h.1, h.2⟩, fun h => ⟨h.1, h.2⟩⟩

theorem WellNamed.capture {registry : Registry} (h : WellNamed registry.all) :
    WellNamed (Snapshot.capture registry).types where
  key t ht := h.key t (Keyed.mem_of_mem_lasts _ ht)
  property t ht := h.property t (Keyed.mem_of_mem_lasts _ ht)

theorem isFragmentName_suffix {name : String} (h : IsFragmentName name) (suffixed : Bool) :
    IsFragmentName (name ++ suffix suffixed) := by
  cases suffixed with
  | false => simpa using h
  | true =>
      refine ⟨isName_append h.isName rfl, fun hon => ?_⟩
      have hlength := congrArg String.length hon
      rw [String.length_append] at hlength
      have hsuffix : (suffix true).length = 8 := rfl
      have hword : "on".length = 2 := rfl
      omega

theorem isFragmentName_tag (base : BaseType) : IsFragmentName base.tag := by
  cases base <;> exact ⟨rfl, by decide⟩

variable {ctx : Context} {name : String}

theorem isFragmentName_compositionComponentName : IsFragmentName compositionComponentName :=
  ⟨rfl, by decide⟩

theorem isName_graphType (base : BaseType) : isName base.graphType = true := by
  cases base <;> rfl

theorem isFragmentName_of_fragment? (h : WellNamed ctx.snapshot.types) {v : Node} {f : Fragment}
    (hv : v.fragment? ctx = some f) : IsFragmentName f.name ∧ isName f.typeCondition = true := by
  cases v with
  | type key suffixed =>
      rcases Node.eq_of_fragment?_type hv with ⟨base, hb, rfl⟩ | ⟨t, ht, rfl⟩
      · rw [builtin?_eq_some hb]
        exact ⟨isFragmentName_suffix (isFragmentName_tag base) suffixed, isName_graphType base⟩
      · have hkey : IsFragmentName key := ht.key_eq ▸ h.key t ht.mem_types
        exact ⟨isFragmentName_suffix hkey suffixed, hkey.isName⟩
  | mediaMetadata | experienceData | compositionNode =>
      obtain rfl := Option.some.inj hv
      exact ⟨⟨rfl, by decide⟩, rfl⟩
  | compositionComponent =>
      obtain rfl := Option.some.inj hv
      exact ⟨isFragmentName_compositionComponentName, isName_graphType .component⟩

theorem parses_spreads {targets : List String} (h : ∀ target ∈ targets, IsFragmentName target) :
    Parses .selections (typedBody (spreads targets)) := by
  refine parses_typedBody fun field hfield => ?_
  obtain ⟨target, htarget, rfl⟩ := List.mem_map.mp (Keyed.mem_firsts_id.mp hfield)
  exact (h target htarget).parses_spread

theorem isField_field (hname : isName name = true) : ∀ kind : PropertyKind,
    (∀ w ∈ kindTargets ctx kind, IsFragmentName w.name) → IsField name (field ctx name kind)
  | .component _, h => by
      exact .of_set hname (h _ List.mem_cons_self).parses_spread.one.braced
  | .content allowed restricted, h => by
      refine .of_set hname (parses_spreads fun target htarget => ?_).braced
      simpa [Node.name] using h (.type target false) (List.mem_map_of_mem htarget)
  | .array ⟨kind, _⟩, h => isField_field hname kind h
  | .string, _ | .boolean, _ | .integer, _ | .float, _ | .binary, _ | .json, _ | .dateTime, _
  | .richText, _ | .url, _ | .link, _ | .contentReference, _ => isField_plainField hname _

theorem parses_aliased {t : ContentType} {text : String} (hkey : IsFragmentName t.key)
    (hname : isName name = true) (h : IsField name text) :
    Parses .selection (aliased t name text) := by
  have hlabel : isName (t.key ++ "__" ++ name) = true :=
    isName_append (isName_append hkey.isName rfl) (all_isNamed_of_isName hname)
  unfold aliased
  split
  · exact h.parses
  · exact h.parses_labelled hlabel

theorem parses_field_spread {target : String} (hname : isName name = true)
    (h : IsFragmentName target) : Parses .selection (name ++ " " ++ braced (spread target)) :=
  (IsField.of_set hname h.parses_spread.one.braced).parses

theorem parses_metadataField : Parses .selection mediaMetadataField :=
  (parses_field_spread rfl ⟨rfl, by decide⟩ :
    Parses .selection ("_metadata" ++ " " ++ braced (spread mediaMetadataName)))

theorem parses_declaredBody (h : WellNamed ctx.snapshot.types) {t : ContentType}
    (ht : t ∈ ctx.snapshot.types) (hspread : ∀ w ∈ declaredTargets ctx t, IsFragmentName w.name) :
    Parses .selections (declaredBody ctx t) := by
  refine parses_typedBody fun field hfield => ?_
  rw [Keyed.mem_firsts_id, List.append_assoc, List.mem_append, List.mem_append] at hfield
  rcases hfield with hfield | hfield | hfield
  · obtain ⟨⟨name, p⟩, hproperty, rfl⟩ := List.mem_map.mp hfield
    have hname : isName name = true := h.property t ht (name, p) hproperty
    refine parses_aliased (h.key t ht) hname (isField_field hname p.kind fun w hw => ?_)
    exact hspread w (mem_declaredTargets.mpr (Or.inr (Or.inl ⟨(name, p), hproperty, hw⟩)))
  · obtain rfl := List.mem_singleton.mp (List.mem_ite_nil_right.mp hfield).2
    exact parses_metadataField
  · obtain rfl := List.mem_singleton.mp (List.mem_ite_nil_right.mp hfield).2
    exact IsFragmentName.parses_spread ⟨rfl, by decide⟩

theorem parses_baseBody (base : BaseType) : Parses .selections (baseBody base) := by
  refine parses_typedBody fun field hfield => ?_
  obtain rfl := List.mem_singleton.mp (List.mem_ite_nil_right.mp hfield).2
  exact parses_metadataField

theorem parses_compositionNode : Parses .selections compositionNode.body := by
  have hsettings : Parses .selection ("displaySettings" ++ " " ++ braced "key value") :=
    (IsField.of_set rfl (parses_words "key" ["value"] rfl).braced).parses
  have hnodes : Parses .selection "nodes @recursive" :=
    ⟨[.name "nodes", .atSign, .name "recursive"], rfl,
      .field none "nodes" none (some "recursive") .noSet⟩
  have hstructure : lex "... on CompositionStructureNode" =
      some [.ellipsis, .name "on", .name "CompositionStructureNode"] := rfl
  have hcomponent : lex "... on CompositionComponentNode" =
      some [.ellipsis, .name "on", .name "CompositionComponentNode"] := rfl
  have hinstance : Parses .selection
      ("component" ++ " " ++ braced (spread compositionComponentName)) :=
    parses_field_spread rfl isFragmentName_compositionComponentName
  have hwords : Parses .selections
      "__typename key type nodeType layoutType displayName displayTemplateKey" :=
    parses_words "__typename"
      ["key", "type", "nodeType", "layoutType", "displayName", "displayTemplateKey"] rfl
  have htext : compositionNode.body =
      "__typename key type nodeType layoutType displayName displayTemplateKey" ++ " " ++
        ("displaySettings" ++ " " ++ braced "key value") ++ " " ++
        ("... on CompositionStructureNode" ++ " " ++ braced "nodes @recursive") ++ " " ++
        ("... on CompositionComponentNode" ++ " " ++
          braced ("component" ++ " " ++ braced (spread compositionComponentName))) := rfl
  rw [htext]
  exact ((hwords.append hsettings).append (.inline hstructure hnodes.one.braced)).append
    (.inline hcomponent hinstance.one.braced)

theorem parses_body (h : WellNamed ctx.snapshot.types) {v : Node} {f : Fragment}
    (hv : v.fragment? ctx = some f) (hspread : ∀ w, Leads ctx v w → IsFragmentName w.name) :
    Parses .selections f.body := by
  cases v with
  | type key suffixed =>
      rcases Node.eq_of_fragment?_type hv with ⟨base, hb, rfl⟩ | ⟨t, ht, rfl⟩
      · exact parses_baseBody base
      · refine parses_declaredBody h ht.mem_types fun w hw => hspread w ?_
        rwa [Leads, Node.targets_declared ht]
  | mediaMetadata =>
      obtain rfl := Option.some.inj hv
      exact parses_words "mimeType" ["thumbnail", "content"] rfl
  | experienceData =>
      obtain rfl := Option.some.inj hv
      exact (parses_field_spread rfl ⟨rfl, by decide⟩ :
        Parses .selection ("composition" ++ " " ++ braced (spread compositionNodeName))).one
  | compositionNode =>
      obtain rfl := Option.some.inj hv
      exact parses_compositionNode
  | compositionComponent =>
      obtain rfl := Option.some.inj hv
      refine parses_spreads fun key hkey => ?_
      simpa [Node.name] using hspread (.type key false) (List.mem_map_of_mem hkey)

section

variable {registry : Registry} {settings : Settings} {root : String}

theorem exists_compile_of_assemble {a : Assembly}
    (h : (assemble registry settings root).value = .ok a) :
    ∃ c, (compile registry settings root).value = .ok c ∧
      a = ⟨⟨root, c.fragments⟩, c.diagnostics⟩ := by
  cases hvalue : (compile registry settings root).value with
  | error error =>
      unfold assemble at h
      split at h
      · cases h
      · rename_i hcompile
        rw [hcompile] at hvalue
        cases hvalue
  | ok c =>
      rw [assemble_value_of_compile hvalue] at h
      exact ⟨c, rfl, (Except.ok.inj h).symm⟩

theorem isFragmentName_of_mem_names (hnamed : WellNamed registry.all) {c : Compilation}
    (h : (compile registry settings root).value = .ok c) {name : String}
    (hname : name ∈ c.fragments.map Fragment.name) : IsFragmentName name := by
  obtain ⟨f, hf, rfl⟩ := List.mem_map.mp hname
  obtain ⟨v, -, hv⟩ := exists_needed_of_mem h hf
  exact (isFragmentName_of_fragment? hnamed.capture hv).1

end

/-- Documents are well formed. Where keys and properties have names for names, the text of a
document that is assembled is read as the definitions of its fragments, each under its name and on
its type, followed by one query. All braces are balanced in it, and no selection set is empty. -/
theorem documents_well_formed {registry : Registry} (hnamed : WellNamed registry.all)
    (settings : Settings) (root : String) {a : Assembly}
    (h : (assemble registry settings root).value = .ok a) :
    ∃ tokens, lex a.document.render = some tokens ∧
      (∀ name, .name name ∈ tokens → isName name = true) ∧
      IsDocument a.document.fragments tokens ∧ nesting 0 tokens = some 0 := by
  obtain ⟨c, hc, rfl⟩ := exists_compile_of_assemble h
  have hdefinitions : ∀ f ∈ c.fragments, ∃ tokens, lex f.render = some tokens ∧
      IsDefinition f tokens := by
    intro f hf
    obtain ⟨v, -, hv⟩ := exists_needed_of_mem hc hf
    obtain ⟨hname, htype⟩ := isFragmentName_of_fragment? hnamed.capture hv
    refine exists_definition hname htype (parses_body hnamed.capture hv fun w hw => ?_)
    exact isFragmentName_of_mem_names hnamed hc (name_mem_of_leads hc hf hv hw)
  have hroot : IsFragmentName root := isFragmentName_of_mem_names hnamed hc (root_mem_names hc)
  obtain ⟨tokens, hlex, hdocument⟩ := exists_document ⟨root, c.fragments⟩ hroot hdefinitions
  exact ⟨tokens, hlex, fun _ => isName_of_mem_lex hlex, hdocument, hdocument.nesting_eq⟩

theorem documents_well_formed_landing :
    ∃ a tokens, (assemble landingTypes.registry .initial "Landing").value = .ok a ∧
      a.document.names = [mediaMetadataName, "Photo", "_image", "HeroProperty", "Hero",
        compositionComponentName, compositionNodeName, experienceDataName, "Landing"] ∧
      lex a.document.render = some tokens ∧ IsDocument a.document.fragments tokens ∧
      nesting 0 tokens = some 0 := by
  have hvalue : ((compile landingTypes.registry .initial "Landing").value.toOption.map fun c =>
      c.fragments.map Fragment.name) = some [mediaMetadataName, "Photo", "_image", "HeroProperty",
        "Hero", compositionComponentName, compositionNodeName, experienceDataName, "Landing"] := rfl
  obtain ⟨c, hc⟩ := exists_ok_of_isSome
    (show (compile landingTypes.registry .initial "Landing").value.toOption.isSome = true from rfl)
  rw [hc] at hvalue
  have ha := assemble_value_of_compile hc
  have hnamed : WellNamed landingTypes.registry.all := by decide
  obtain ⟨tokens, hlex, -, hdocument, hnesting⟩ :=
    documents_well_formed hnamed .initial "Landing" ha
  exact ⟨_, tokens, ha, Option.some.inj hvalue, hlex, hdocument, hnesting⟩

end ContentQuery.Compile
