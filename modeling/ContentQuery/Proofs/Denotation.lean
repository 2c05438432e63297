import ContentQuery.Proofs.References

/-!
What a spread stands for in a document: the fragment of its name. All of them are the fragments that
the spreads were written for exactly if no two needed nodes share a name, and then every reference
finds the type that it refers to. Keys that are spelled like made-up names break this. A reference
may then find another type, even if its own type is missing.
-/

namespace ContentQuery.Compile

/-- Of the given fragments exactly that of the node has its name. -/
def Denotes (ctx : Context) (fragments : List Fragment) (w : Node) : Prop :=
  ∃ f, w.fragment? ctx = some f ∧ ∀ g, g ∈ fragments ∧ g.name = w.name ↔ g = f

/-- The spread of the query and all spreads of the fragments stand for what they were written
for. -/
structure SpreadsDenote (ctx : Context) (fragments : List Fragment) : Prop where
  root : Denotes ctx fragments (.type ctx.root false)
  spread : ∀ f ∈ fragments, ∀ v w, v.fragment? ctx = some f → Leads ctx v w →
    Denotes ctx fragments w

/-- The condition on a fragment for the key: the interface of a base type, or a registered key
itself. -/
def condition? (ctx : Context) (key : String) : Option String :=
  match builtin? key with
  | some base => some base.graphType
  | none => (ctx.snapshot.get? key).map fun _ => key

/-- The reference stands in an enabled property of a registered type that has a fragment. -/
def Refers (ctx : Context) (fragments : List Fragment) (key : String) (suffixed : Bool) : Prop :=
  ∃ f ∈ fragments, ∃ source suffixed' t, (Node.type source suffixed').fragment? ctx = some f ∧
    Declared ctx source t ∧ (key, suffixed) ∈ references ctx t

/-- What properties refer to is built in or registered, and the fragments under its name have its
condition. -/
def ReferencesDenote (ctx : Context) (fragments : List Fragment) : Prop :=
  ∀ key suffixed, Refers ctx fragments key suffixed →
    ∃ condition, condition? ctx key = some condition ∧
      (∃ g ∈ fragments, g.name = key ++ suffix suffixed) ∧
      ∀ g ∈ fragments, g.name = key ++ suffix suffixed → g.typeCondition = condition

/-- The spreads of properties stand for what they were written for. Only the condition of a
registered type with the name of media metadata does not tell its fragment from theirs. -/
def PropertySpreadsDenote (ctx : Context) (fragments : List Fragment) : Prop :=
  ∀ key suffixed, Refers ctx fragments key suffixed →
    Denotes ctx fragments (.type key suffixed) ∨
      (key = mediaMetadataName ∧ suffixed = false ∧ ∃ t, Declared ctx key t)

section

variable {ctx : Context} {fragments : List Fragment}

theorem condition?_of_fragment? {key : String} {suffixed : Bool} {f : Fragment}
    (h : (Node.type key suffixed).fragment? ctx = some f) :
    condition? ctx key = some f.typeCondition := by
  rcases Node.eq_of_fragment?_type h with ⟨base, hb, rfl⟩ | ⟨t, ht, rfl⟩
  · simp [condition?, hb]
  · simp [condition?, ht.1, ht.2]

theorem exists_fragment_of_condition? {key condition : String}
    (h : condition? ctx key = some condition) (suffixed : Bool) :
    ∃ f, (Node.type key suffixed).fragment? ctx = some f ∧ f.typeCondition = condition := by
  cases hf : (Node.type key suffixed).fragment? ctx with
  | some f => exact ⟨f, rfl, Option.some.inj ((condition?_of_fragment? hf).symm.trans h)⟩
  | none =>
      obtain ⟨hb, hg⟩ := Node.fragment?_type_eq_none_iff.mp hf
      simp [condition?, hb, hg] at h

theorem Denotes.eq_of_name {v w : Node} (hv : Denotes ctx fragments v)
    (hw : Denotes ctx fragments w) (hname : v.name = w.name) : v = w := by
  obtain ⟨f, hf, hfonly⟩ := hv
  obtain ⟨g, hg, hgonly⟩ := hw
  obtain ⟨hmem, hfname⟩ := (hfonly f).mpr rfl
  obtain rfl := (hgonly f).mp ⟨hmem, hfname.trans hname⟩
  exact Node.eq_of_fragment? hf hg

theorem SpreadsDenote.of_needed (h : SpreadsDenote ctx fragments) {v : Node}
    (hv : Needed ctx v) : Denotes ctx fragments v := by
  induction hv with
  | refl => exact h.root
  | @tail v w _ hleads ih =>
      obtain ⟨f, hf, honly⟩ := ih
      obtain ⟨hmem, -⟩ := (honly f).mpr rfl
      exact h.spread f hmem v w hf hleads

theorem SpreadsDenote.namesDistinct (h : SpreadsDenote ctx fragments) : NamesDistinct ctx :=
  fun _ _ hv hw hname => (h.of_needed hv).eq_of_name (h.of_needed hw) hname

theorem SpreadsDenote.propertySpreads (h : SpreadsDenote ctx fragments) :
    PropertySpreadsDenote ctx fragments := by
  rintro key suffixed ⟨f, hf, source, suffixed', t, hsource, ht, href⟩
  exact Or.inl (h.spread f hf _ _ hsource (leads_of_references ht href))

end

section

variable {registry : Registry} {settings : Settings} {root : String} {c : Compilation}

theorem NamesDistinct.denotes (hdistinct : NamesDistinct (contextOf registry settings root))
    (h : (compile registry settings root).value = .ok c) {w : Node}
    (hw : Needed (contextOf registry settings root) w) :
    Denotes (contextOf registry settings root) c.fragments w := by
  obtain ⟨f, hmem, hf⟩ := hdistinct.exists_mem_of_needed h hw
  refine ⟨f, hf, fun g => ⟨?_, ?_⟩⟩
  · rintro ⟨hgmem, hname⟩
    exact Option.some.inj ((hdistinct.fragment?_of_name h hw hgmem hname).symm.trans hf)
  · rintro rfl
    exact ⟨hmem, Node.name_of_fragment? hf⟩

theorem NamesDistinct.spreadsDenote (hdistinct : NamesDistinct (contextOf registry settings root))
    (h : (compile registry settings root).value = .ok c) :
    SpreadsDenote (contextOf registry settings root) c.fragments where
  root := hdistinct.denotes h .refl
  spread f hf v w hv hleads := by
    obtain ⟨u, hneeded, hu⟩ := exists_needed_of_mem h hf
    obtain rfl := Node.eq_of_fragment? hv hu
    exact hdistinct.denotes h (hneeded.tail hleads)

/-- A property's spread finds the condition of its type only in the type's own fragment. -/
theorem ReferencesDenote.propertySpreads
    (hrefs : ReferencesDenote (contextOf registry settings root) c.fragments)
    (h : (compile registry settings root).value = .ok c) :
    PropertySpreadsDenote (contextOf registry settings root) c.fragments := by
  intro key suffixed href
  obtain ⟨condition, hcondition, ⟨f, hf, hfname⟩, hall⟩ := hrefs key suffixed href
  obtain ⟨own, hown, rfl⟩ := exists_fragment_of_condition? hcondition suffixed
  by_cases hmedia : key = mediaMetadataName ∧ suffixed = false
  · obtain ⟨rfl, rfl⟩ := hmedia
    rcases Node.eq_of_fragment?_type hown with ⟨base, hb, -⟩ | ⟨t, ht, -⟩
    · have hnone : builtin? mediaMetadataName = none := builtin?_fixed (by decide)
      exact absurd (hnone.symm.trans hb) (by simp)
    · exact Or.inr ⟨rfl, rfl, t, ht⟩
  · have honly : ∀ g ∈ c.fragments, g.name = key ++ suffix suffixed → g = own := by
      intro g hg hname
      obtain ⟨u, -, hu⟩ := exists_needed_of_mem h hg
      rcases Node.eq_of_condition hu hown (hname.trans (Node.name_of_fragment? hown).symm)
        (hall g hg hname) with rfl | ⟨-, hkey⟩
      · exact Option.some.inj (hu.symm.trans hown)
      · exact absurd hkey hmedia
    refine Or.inl ⟨own, hown, fun g => ⟨fun hg => honly g hg.1 hg.2, ?_⟩⟩
    rintro rfl
    exact ⟨honly f hf hfname ▸ hf, Node.name_of_fragment? hown⟩

theorem PropertySpreadsDenote.references
    (hspreads : PropertySpreadsDenote (contextOf registry settings root) c.fragments)
    (h : (compile registry settings root).value = .ok c) :
    ReferencesDenote (contextOf registry settings root) c.fragments := by
  intro key suffixed href
  rcases hspreads key suffixed href with ⟨own, hown, honly⟩ | ⟨rfl, rfl, t, ht⟩
  · refine ⟨own.typeCondition, condition?_of_fragment? hown, ⟨own, (honly own).mpr rfl⟩, ?_⟩
    intro g hg hname
    rw [(honly g).mp ⟨hg, hname⟩]
  · obtain ⟨f, hf, source, suffixed', t', hsource, ht', href'⟩ := href
    have hname := name_mem_of_leads h hf hsource (leads_of_references ht' href')
    refine ⟨mediaMetadataName, by simp [condition?, ht.1, ht.2], List.mem_map.mp hname, ?_⟩
    intro g hg hgname
    obtain ⟨u, -, hu⟩ := exists_needed_of_mem h hg
    exact Node.typeCondition_of_name_mediaMetadata hu (by simpa using hgname)

end

/-- All spreads of a compilation stand for what they were written for exactly if no two needed nodes
share a name, as is the case without collisions. References find their types exactly if the spreads
of properties do so. -/
theorem spreadsDenote_iff_namesDistinct {registry : Registry} {settings : Settings}
    {root : String} {c : Compilation} (h : (compile registry settings root).value = .ok c) :
    (SpreadsDenote (contextOf registry settings root) c.fragments ↔
        NamesDistinct (contextOf registry settings root)) ∧
      (ReferencesDenote (contextOf registry settings root) c.fragments ↔
        PropertySpreadsDenote (contextOf registry settings root) c.fragments) ∧
      (NamesDistinct (contextOf registry settings root) →
        ReferencesDenote (contextOf registry settings root) c.fragments) ∧
      (CollisionFree (referencedKeys (contextOf registry settings root)) →
        NamesDistinct (contextOf registry settings root)) := by
  refine ⟨⟨fun hdenote => hdenote.namesDistinct, fun hdistinct => hdistinct.spreadsDenote h⟩,
    ⟨fun hrefs => hrefs.propertySpreads h, fun hspreads => hspreads.references h⟩, ?_,
    fun hfree => hfree.namesDistinct⟩
  intro hdistinct
  exact (hdistinct.spreadsDenote h).propertySpreads.references h

theorem spreadsDenote_landing :
    ∃ c, (compile landingTypes.registry .initial "Landing").value = .ok c ∧
      SpreadsDenote (contextOf landingTypes.registry .initial "Landing") c.fragments ∧
      ReferencesDenote (contextOf landingTypes.registry .initial "Landing") c.fragments := by
  obtain ⟨c, hc⟩ := exists_ok_of_isSome
    (show (compile landingTypes.registry .initial "Landing").value.toOption.isSome = true from rfl)
  obtain ⟨hiff, -, href, hfree⟩ := spreadsDenote_iff_namesDistinct hc
  have hdistinct := hfree (by decide)
  exact ⟨c, hc, hiff.mpr hdistinct, href hdistinct⟩

/-- A card with a hero of an undeclared type, and before it instances of a type whose key is spelled
like the suffixed name of that hero. -/
def heroTypes : ContentTypes :=
  .ofList [
    (ContentType.ofKey "Card" .component)
      |>.withProperty "featured" (.ofKind (.content (some [.key "HeroProperty"]) none))
      |>.withProperty "hero" (.ofKind (.component (.key "Hero"))),
    .ofKey "HeroProperty" .component]

/-- The reference to the missing hero finds the fragment of the other type. -/
theorem missing_hero_denotes_other_type :
    ¬ ∀ (registry : Registry) (settings : Settings) (root : String) (c : Compilation),
      (compile registry settings root).value = .ok c →
        ReferencesDenote (contextOf registry settings root) c.fragments := by
  intro h
  obtain ⟨c, hc⟩ := exists_ok_of_isSome
    (show (compile heroTypes.registry .initial "Card").value.toOption.isSome = true from rfl)
  obtain ⟨f, hf, hroot⟩ := exists_root_fragment hc
  have hhero : ("Hero", true) ∈ references (contextOf heroTypes.registry .initial "Card")
      (heroTypes.toList.head (by decide)) := by decide
  obtain ⟨condition, hcondition, -⟩ := h heroTypes.registry .initial "Card" c hc "Hero" true
    ⟨f, hf, "Card", false, _, hroot, ⟨by decide, rfl⟩, hhero⟩
  have hnone : condition? (contextOf heroTypes.registry .initial "Card") "Hero" = none := by decide
  exact absurd (hnone.symm.trans hcondition) (by simp)

end ContentQuery.Compile
