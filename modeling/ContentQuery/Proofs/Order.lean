import ContentQuery.Proofs.References
import ContentQuery.Proofs.Uniqueness

/-!
The order of the fragments of a compilation. A name that is visited and has no fragment yet is in
progress: whatever is walked over meanwhile is reached from its node. Hence, without collisions, a
fragment stands after all fragments that it spreads, except those that lead back to it,
`dependencies_first`.
-/

namespace ContentQuery.Compile

/-- What each fragment spreads is among the names that are done when its turn comes, or leads back
to it. A fragment is done after its turn. -/
def Ordered (ctx : Context) : List String → List Fragment → Prop
  | _, [] => True
  | done, f :: rest =>
      (∀ v w, v.fragment? ctx = some f → Leads ctx v w →
        w.name ∈ done ∨ Relation.ReflTransGen (Leads ctx) w v) ∧ Ordered ctx (f.name :: done) rest

/-- Of the given fragments, the one spreads the other. -/
def SpreadsTo (ctx : Context) (fragments : List Fragment) (f g : Fragment) : Prop :=
  f ∈ fragments ∧ g ∈ fragments ∧ Spreads ctx f g.name

variable {ctx : Context} {vs : List Node} {visited visited' : List String}
  {fragments : List Fragment}

theorem spreads_iff {f : Fragment} {v : Node} (hv : v.fragment? ctx = some f) {name : String} :
    Spreads ctx f name ↔ name ∈ (v.targets ctx).map Node.name := by
  constructor
  · rintro ⟨u, w, hu, hw, rfl⟩
    obtain rfl := Node.eq_of_fragment? hu hv
    exact List.mem_map_of_mem hw
  · intro hname
    obtain ⟨w, hw, rfl⟩ := List.mem_map.mp hname
    exact ⟨v, w, hv, hw, rfl⟩

theorem Ordered.of_leads_back {done done' : List String} (h : Ordered ctx done fragments)
    (hback : ∀ f ∈ fragments, ∀ v w, v.fragment? ctx = some f → Leads ctx v w → w.name ∈ done →
      w.name ∈ done' ∨ Relation.ReflTransGen (Leads ctx) w v) : Ordered ctx done' fragments := by
  induction fragments generalizing done done' with
  | nil => trivial
  | cons f rest ih =>
      obtain ⟨hf, hrest⟩ := h
      refine ⟨?_, ih hrest ?_⟩
      · intro v w hv hw
        rcases hf v w hv hw with hdone | hpath
        · exact hback f List.mem_cons_self v w hv hw hdone
        · exact Or.inr hpath
      · intro g hg v w hv hw hdone
        rcases List.mem_cons.mp hdone with hname | hdone
        · exact Or.inl (List.mem_cons.mpr (Or.inl hname))
        · exact (hback g (List.mem_cons_of_mem _ hg) v w hv hw hdone).imp_left
            (List.mem_cons_of_mem _)

theorem Ordered.mono {done done' : List String} (h : Ordered ctx done fragments)
    (hsub : done ⊆ done') : Ordered ctx done' fragments :=
  h.of_leads_back fun _ _ _ _ _ _ hdone => Or.inl (hsub hdone)

theorem Ordered.append {done : List String} {rest : List Fragment}
    (h : Ordered ctx done fragments)
    (hrest : Ordered ctx (fragments.map Fragment.name ++ done) rest) :
    Ordered ctx done (fragments ++ rest) := by
  induction fragments generalizing done with
  | nil => exact hrest
  | cons f fragments ih =>
      obtain ⟨hf, hfragments⟩ := h
      refine ⟨hf, ih hfragments (hrest.mono ?_)⟩
      intro name hname
      simp only [List.map_cons, List.cons_append, List.mem_cons, List.mem_append] at hname ⊢
      tauto

theorem Ordered.split {done : List String} {before after : List Fragment} {f : Fragment}
    (h : Ordered ctx done (before ++ f :: after)) {v w : Node} (hv : v.fragment? ctx = some f)
    (hw : Leads ctx v w) :
    w.name ∈ before.map Fragment.name ∨ w.name ∈ done ∨
      Relation.ReflTransGen (Leads ctx) w v := by
  induction before generalizing done with
  | nil => exact Or.inr (h.1 v w hv hw)
  | cons g before ih =>
      rcases ih h.2 with hbefore | hdone | hpath
      · exact Or.inl (List.mem_cons_of_mem _ hbefore)
      · rcases List.mem_cons.mp hdone with hname | hdone
        · exact Or.inl (List.mem_cons.mpr (Or.inl hname))
        · exact Or.inr (Or.inl hdone)
      · exact Or.inr (Or.inr hpath)

theorem CollisionFree.unguardedFree (hfree : CollisionFree (referencedKeys ctx)) :
    UnguardedFree ctx :=
  fun _ ht hname => hfree.not_fixed _ (key_mem_referencedKeys ht)
    (unguardedNames_subset_fixedNames hname)

/-- The nodes of a composition. -/
def compositionNodes : List Node := [.compositionComponent, .compositionNode, .experienceData]

theorem map_name_compositionNodes : compositionNodes.map Node.name = compositionNames := rfl

theorem path_of_mem_compositionNodes (ctx : Context) {v : Node} (hv : v ∈ compositionNodes) :
    Relation.ReflTransGen (Leads ctx) .experienceData v ∧
      Relation.ReflTransGen (Leads ctx) v .compositionComponent := by
  simp only [compositionNodes, List.mem_cons, List.not_mem_nil, or_false] at hv
  rcases hv with rfl | rfl | rfl
  · exact ⟨reaches_compositionComponent ctx, .refl⟩
  · exact ⟨.single (List.mem_singleton.mpr rfl), .single (List.mem_singleton.mpr rfl)⟩
  · exact ⟨.refl, reaches_compositionComponent ctx⟩

theorem ordered_compositionFragments {done : List String}
    (hdone : ∀ u ∈ eligibleNodes ctx,
      u.name ∈ done ∨ Relation.ReflTransGen (Leads ctx) u .compositionComponent) :
    Ordered ctx done (compositionFragments ctx) := by
  refine ⟨?_, ?_, ?_, trivial⟩
  · intro v w hv hw
    obtain rfl := Node.eq_of_fragment? hv (w := .compositionComponent) rfl
    exact hdone w hw
  · intro v w hv hw
    obtain rfl := Node.eq_of_fragment? hv (w := .compositionNode) rfl
    obtain rfl := List.mem_singleton.mp hw
    exact Or.inl List.mem_cons_self
  · intro v w hv hw
    obtain rfl := Node.eq_of_fragment? hv (w := .experienceData) rfl
    obtain rfl := List.mem_singleton.mp hw
    exact Or.inl List.mem_cons_self

/-- The order of a walk over needed nodes: only what was visited before it may be missing. -/
theorem Visits.ordered (h : Visits ctx vs visited fragments visited')
    (hdistinct : NamesDistinct ctx) (hfree : UnguardedFree ctx)
    (hneeded : ∀ v ∈ vs, Needed ctx v) (htogether : MarkedTogether visited) :
    Ordered ctx visited fragments := by
  induction h with
  | nil => trivial
  | seen _ _ ih => exact ih (fun v hv => hneeded v (List.mem_cons_of_mem _ hv)) htogether
  | metadata _ _ ih =>
      refine ⟨?_, ih (fun v hv => hneeded v (List.mem_cons_of_mem _ hv))
        (htogether.cons (by decide))⟩
      intro v w hv hw
      obtain rfl := Node.eq_of_fragment? hv (w := .mediaMetadata) rfl
      exact absurd hw List.not_mem_nil
  | @type key suffixed vs visited inner _ own needed fragments _ hown needs tail ihNeeds ihTail =>
      have hnode : Needed ctx (.type key suffixed) := hneeded _ List.mem_cons_self
      have htargets : ∀ u ∈ (Node.type key suffixed).targets ctx, Needed ctx u :=
        fun u hu => hnode.tail hu
      have hneeds := htogether.cons (hfree.type_name_not_mem hown)
      have hinner : inner ⊆ own.name :: (needed.map Fragment.name ++ visited) := by
        intro name hname
        have hvisited := (needs.mem_visited_iff name).mp hname
        rw [← Node.name_of_fragment? hown] at hvisited
        simp only [List.mem_cons, List.mem_append] at hvisited ⊢
        tauto
      rw [Keyed.firsts_of_nodup _ (needs.nodup hfree hneeds)]
      refine Ordered.append ?_ ⟨?_, ?_⟩
      · -- What is walked over inside leads to no new name in progress but that of the type.
        refine (ihNeeds htargets hneeds).of_leads_back ?_
        intro f hf v w hv hw hdone
        rcases List.mem_cons.mp hdone with hname | hdone
        · obtain ⟨u, hu, v', hpath, hv'⟩ := needs.exists_path hf
          obtain rfl := Node.eq_of_fragment? hv hv'
          have hv'' : Relation.ReflTransGen (Leads ctx) (.type key suffixed) v := .head hu hpath
          obtain rfl := hdistinct w (.type key suffixed) ((hnode.trans hv'').tail hw) hnode hname
          exact Or.inr hv''
        · exact Or.inl hdone
      · intro v w hv hw
        obtain rfl := Node.eq_of_fragment? hv hown
        rcases List.mem_cons.mp (hinner (needs.name_mem hw)) with hname | hdone
        · rw [Node.name_of_fragment? hown] at hname
          obtain rfl := hdistinct w _ (htargets w hw) hnode hname
          exact Or.inr .refl
        · exact Or.inl hdone
      · exact (ihTail (fun v hv => hneeded v (List.mem_cons_of_mem _ hv))
          (needs.markedTogether hfree hneeds)).mono hinner
  | @composition vs visited inner _ needed fragments _ needs tail ihNeeds ihTail =>
      have hdata : Needed ctx .experienceData := hneeded _ List.mem_cons_self
      have heligible : ∀ u ∈ eligibleNodes ctx, Needed ctx u := fun u hu =>
        hdata.trans ((reaches_compositionComponent ctx).tail hu)
      have hneeds := markedTogether_compositionNames visited
      -- A needed node with a name of the composition is a node of the composition.
      have hback : ∀ w, Needed ctx w → w.name ∈ compositionNames →
          Relation.ReflTransGen (Leads ctx) w .compositionComponent := by
        intro w hw hname
        rw [← map_name_compositionNodes] at hname
        obtain ⟨v, hv, hvname⟩ := List.mem_map.mp hname
        obtain ⟨hfrom, hto⟩ := path_of_mem_compositionNodes ctx hv
        obtain rfl := hdistinct v w (hdata.trans hfrom) hw hvname
        exact hto
      have hinner : ∀ name ∈ inner, name ∈ compositionNames ∨
          name ∈ needed.map Fragment.name ++ visited := by
        intro name hname
        have hvisited := (needs.mem_visited_iff name).mp hname
        simp only [List.mem_append] at hvisited ⊢
        tauto
      refine Ordered.append (Ordered.append ?_ (ordered_compositionFragments ?_)) ?_
      · refine (ihNeeds heligible hneeds).of_leads_back ?_
        intro f hf v w hv hw hdone
        rcases List.mem_append.mp hdone with hname | hdone
        · obtain ⟨u, hu, v', hpath, hv'⟩ := needs.exists_path hf
          obtain rfl := Node.eq_of_fragment? hv hv'
          exact Or.inr ((hback w (((heligible u hu).trans hpath).tail hw) hname).trans
            (.head hu hpath))
        · exact Or.inl hdone
      · intro u hu
        rcases hinner _ (needs.name_mem hu) with hname | hdone
        · exact Or.inr (hback u (heligible u hu) hname)
        · exact Or.inl hdone
      · refine (ihTail (fun v hv => hneeded v (List.mem_cons_of_mem _ hv))
          (needs.markedTogether hfree hneeds)).mono ?_
        intro name hname
        rw [List.map_append, map_name_compositionFragments]
        rcases hinner name hname with hmade | hdone
        · exact List.mem_append_left _ (List.mem_append_right _ hmade)
        · rcases List.mem_append.mp hdone with hneeded | hvisited
          · exact List.mem_append_left _ (List.mem_append_left _ hneeded)
          · exact List.mem_append_right _ hvisited

section

variable {registry : Registry} {settings : Settings} {root : String} {c : Compilation}

theorem ordered_of_compile
    (hfree : CollisionFree (referencedKeys (contextOf registry settings root)))
    (h : (compile registry settings root).value = .ok c) :
    Ordered (contextOf registry settings root) [] c.fragments := by
  obtain ⟨visited, hvisits⟩ := visits_of_compile h
  refine hvisits.ordered hfree.namesDistinct hfree.unguardedFree ?_ ?_
  · intro v hv
    obtain rfl := List.mem_singleton.mp hv
    exact .refl
  · exact fun _ _ hvisited => absurd hvisited List.not_mem_nil

theorem spreadsTo_of_path (hdistinct : NamesDistinct (contextOf registry settings root))
    (h : (compile registry settings root).value = .ok c) {v w : Node}
    (hneeded : Needed (contextOf registry settings root) v)
    (hpath : Relation.ReflTransGen (Leads (contextOf registry settings root)) v w)
    {f g : Fragment} (hv : v.fragment? (contextOf registry settings root) = some f)
    (hg : g ∈ c.fragments)
    (hw : w.fragment? (contextOf registry settings root) = some g) :
    Relation.ReflTransGen (SpreadsTo (contextOf registry settings root) c.fragments) f g := by
  induction hpath generalizing g with
  | refl =>
      obtain rfl := Option.some.inj (hv.symm.trans hw)
      exact .refl
  | @tail u w hprefix hleads ih =>
      obtain ⟨e, he, hu⟩ := hdistinct.exists_mem_of_needed h (hneeded.trans hprefix)
      exact (ih he hu).tail ⟨he, hg, u, w, hu, hleads, (Node.name_of_fragment? hw).symm⟩

end

/-- Dependencies first. Without collisions a fragment that does not stand before the one which
spreads it leads back to it, so that without cycles all that a fragment spreads stands before it.
The fragment of the root is the last one. -/
theorem dependencies_first {registry : Registry} {settings : Settings} {root : String}
    {c : Compilation} (hfree : CollisionFree (referencedKeys (contextOf registry settings root)))
    (h : (compile registry settings root).value = .ok c) :
    (∀ before f after, c.fragments = before ++ f :: after → ∀ g ∈ c.fragments,
        Spreads (contextOf registry settings root) f g.name → g ∉ before →
          Relation.ReflTransGen (SpreadsTo (contextOf registry settings root) c.fragments) g f) ∧
      ((∀ f, ¬ Relation.TransGen (SpreadsTo (contextOf registry settings root) c.fragments) f f) →
        ∀ before f after, c.fragments = before ++ f :: after →
          ∀ name, Spreads (contextOf registry settings root) f name →
            name ∈ before.map Fragment.name) ∧
      ∃ before own, c.fragments = before ++ [own] ∧
        (Node.type root false).fragment? (contextOf registry settings root) = some own := by
  have hordered := ordered_of_compile hfree h
  have hback : ∀ before f after, c.fragments = before ++ f :: after → ∀ g ∈ c.fragments,
      Spreads (contextOf registry settings root) f g.name → g ∉ before →
        Relation.ReflTransGen (SpreadsTo (contextOf registry settings root) c.fragments) g f := by
    rintro before f after hsplit g hg ⟨v, w, hv, hw, hname⟩ hbefore
    have hf : f ∈ c.fragments := by rw [hsplit]; exact List.mem_append_right _ List.mem_cons_self
    obtain ⟨u, hneeded, hu⟩ := exists_needed_of_mem h hf
    obtain rfl := Node.eq_of_fragment? hv hu
    have hneededTarget : Needed (contextOf registry settings root) w := hneeded.tail hw
    have hgw := hfree.namesDistinct.fragment?_of_name h hneededTarget hg hname.symm
    rw [hsplit] at hordered
    rcases hordered.split hv hw with hmem | hmem | hpath
    · obtain ⟨g', hg', hg'name⟩ := List.mem_map.mp hmem
      have hgw' := hfree.namesDistinct.fragment?_of_name h hneededTarget
        (hsplit ▸ List.mem_append_left _ hg') hg'name
      exact absurd (Option.some.inj (hgw.symm.trans hgw') ▸ hg') hbefore
    · exact absurd hmem List.not_mem_nil
    · exact spreadsTo_of_path hfree.namesDistinct h hneededTarget hpath hgw hf hv
  refine ⟨hback, ?_, ?_⟩
  · intro hacyclic before f after hsplit name hspreads
    have hf : f ∈ c.fragments := by rw [hsplit]; exact List.mem_append_right _ List.mem_cons_self
    obtain ⟨v, w, hv, hw, rfl⟩ := id hspreads
    obtain ⟨g, hg, hgname⟩ := List.mem_map.mp (name_mem_of_leads h hf hv hw)
    rw [← hgname] at hspreads ⊢
    by_contra hmissing
    have hpath := hback before f after hsplit g hg hspreads
      (fun hbefore => hmissing (List.mem_map_of_mem hbefore))
    exact hacyclic f (.head' ⟨hf, hg, hspreads⟩ hpath)
  · obtain ⟨needed, own, -, hfragments, hown, -⟩ := exists_root_last h
    exact ⟨_, own, hfragments, hown⟩

/-- An album of photos, in which nothing refers back. -/
def albumTypes : ContentTypes :=
  .ofList [
    (ContentType.ofKey "Album" .component).withProperty "cover"
      (.ofKind (.content (some [.key "Photo"]) none)),
    .ofKey "Photo" .image]

/-- The nodes of an album's compilation, in the order of their fragments. -/
def albumNodes : List Node :=
  [.mediaMetadata, .type "Photo" false, .type "_image" false, .type "Album" false]

theorem album_acyclic {c : Compilation}
    (hc : (compile albumTypes.registry .initial "Album").value = .ok c) (f : Fragment) :
    ¬ Relation.TransGen
      (SpreadsTo (contextOf albumTypes.registry .initial "Album") c.fragments) f f := by
  have hvalue : (compile albumTypes.registry .initial "Album").value.toOption.map
      Compilation.fragments = some (albumNodes.filterMap
        (Node.fragment? (contextOf albumTypes.registry .initial "Album"))) := rfl
  rw [hc] at hvalue
  have hfragments : c.fragments = _ := Option.some.inj hvalue
  -- The place among the nodes goes down along spreads.
  have hstep : ∀ v ∈ albumNodes, ∀ w ∈ albumNodes,
      w.name ∈ (v.targets (contextOf albumTypes.registry .initial "Album")).map Node.name →
        (albumNodes.map Node.name).idxOf w.name < (albumNodes.map Node.name).idxOf v.name := by
    decide
  have hpath : ∀ f g,
      Relation.TransGen
        (SpreadsTo (contextOf albumTypes.registry .initial "Album") c.fragments) f g →
      (albumNodes.map Node.name).idxOf g.name < (albumNodes.map Node.name).idxOf f.name := by
    intro f g hpath
    refine hpath.trans_induction_on ?_ (fun _ _ hab hbc => hbc.trans hab)
    rintro f g ⟨hf, hg, hspreads⟩
    rw [hfragments] at hf hg
    obtain ⟨v, hv, hvf⟩ := List.mem_filterMap.mp hf
    obtain ⟨w, hw, hwg⟩ := List.mem_filterMap.mp hg
    rw [spreads_iff hvf, Node.name_of_fragment? hwg] at hspreads
    rw [Node.name_of_fragment? hvf, Node.name_of_fragment? hwg]
    exact hstep v hv w hw hspreads
  exact fun hcycle => lt_irrefl _ (hpath f f hcycle)

theorem dependencies_first_landing_album :
    (∃ c, (compile landingTypes.registry .initial "Landing").value = .ok c ∧
      ∀ before f after, c.fragments = before ++ f :: after → ∀ g ∈ c.fragments,
        Spreads (contextOf landingTypes.registry .initial "Landing") f g.name → g ∉ before →
          Relation.ReflTransGen
            (SpreadsTo (contextOf landingTypes.registry .initial "Landing") c.fragments) g f) ∧
      ∃ c, (compile albumTypes.registry .initial "Album").value = .ok c ∧
        ∀ before f after, c.fragments = before ++ f :: after → ∀ name,
          Spreads (contextOf albumTypes.registry .initial "Album") f name →
            name ∈ before.map Fragment.name := by
  constructor
  · obtain ⟨c, hc⟩ := exists_ok_of_isSome (show
      (compile landingTypes.registry .initial "Landing").value.toOption.isSome = true from rfl)
    exact ⟨c, hc, (dependencies_first (by decide) hc).1⟩
  · obtain ⟨c, hc⟩ := exists_ok_of_isSome (show
      (compile albumTypes.registry .initial "Album").value.toOption.isSome = true from rfl)
    exact ⟨c, hc, (dependencies_first (by decide) hc).2.1 (album_acyclic hc)⟩

end ContentQuery.Compile
