import ContentQuery.Proofs.Naming
import ContentQuery.Proofs.SpreadText
import ContentQuery.Proofs.Traversal

namespace ContentQuery.Compile

variable {ctx : Context} {vs : List Node} {visited visited' : List String}
  {fragments : List Fragment}

theorem Visits.isSuffix (h : Visits ctx vs visited fragments visited') : visited <:+ visited' := by
  induction h with
  | nil => exact List.suffix_refl _
  | seen _ _ ih => exact ih
  | metadata _ _ ih => exact (List.suffix_cons _ _).trans ih
  | type _ _ _ _ ihNeeds ihTail => exact (List.suffix_cons _ _).trans (ihNeeds.trans ihTail)
  | composition _ _ _ ihNeeds ihTail => exact (List.suffix_append _ _).trans (ihNeeds.trans ihTail)

theorem Visits.subset (h : Visits ctx vs visited fragments visited') : visited ⊆ visited' :=
  h.isSuffix.subset

theorem Visits.name_mem (h : Visits ctx vs visited fragments visited') {v : Node} (hv : v ∈ vs) :
    v.name ∈ visited' := by
  induction h with
  | nil => exact absurd hv List.not_mem_nil
  | seen hseen tail ih =>
      rcases List.mem_cons.mp hv with rfl | hv
      · exact tail.subset hseen
      · exact ih hv
  | metadata _ tail ih =>
      rcases List.mem_cons.mp hv with rfl | hv
      · exact tail.subset List.mem_cons_self
      · exact ih hv
  | type _ _ needs tail _ ihTail =>
      rcases List.mem_cons.mp hv with rfl | hv
      · exact tail.subset (needs.subset List.mem_cons_self)
      · exact ihTail hv
  | composition _ needs tail _ ihTail =>
      rcases List.mem_cons.mp hv with rfl | hv
      · exact tail.subset (needs.subset (by simp [compositionNames, Node.name]))
      · exact ihTail hv

theorem Visits.exists_head_fragment {key : String} {suffixed : Bool}
    (h : Visits ctx (.type key suffixed :: vs) visited fragments visited')
    (hnew : (Node.type key suffixed).name ∉ visited) :
    ∃ f ∈ fragments, (Node.type key suffixed).fragment? ctx = some f := by
  cases h with
  | seen hseen => exact absurd hseen hnew
  | type _ hown => exact ⟨_, List.mem_append_right _ List.mem_cons_self, hown⟩

theorem map_name_compositionFragments (ctx : Context) :
    (compositionFragments ctx).map Fragment.name = compositionNames := rfl

theorem Visits.mem_visited_iff (h : Visits ctx vs visited fragments visited') (name : String) :
    name ∈ visited' ↔ name ∈ visited ∨ name ∈ fragments.map Fragment.name := by
  induction h with
  | nil => simp
  | seen _ _ ih => exact ih
  | metadata _ _ ih =>
      rw [ih, List.map_cons, List.mem_cons, List.mem_cons]
      simp only [mediaMetadata, or_assoc, or_left_comm]
  | type _ hown _ _ ihNeeds ihTail =>
      rw [ihTail, ihNeeds, List.map_append, List.map_cons, List.mem_append, List.mem_cons,
        List.mem_cons, Keyed.mem_map_firsts, Node.name_of_fragment? hown]
      simp only [or_assoc, or_left_comm]
  | composition _ _ _ ihNeeds ihTail =>
      rw [ihTail, ihNeeds, List.map_append, List.map_append, map_name_compositionFragments,
        List.mem_append, List.mem_append, List.mem_append]
      simp only [or_assoc, or_left_comm]

theorem reaches_compositionComponent (ctx : Context) :
    Relation.ReflTransGen (Leads ctx) .experienceData .compositionComponent :=
  .head (b := .compositionNode) (List.mem_singleton.mpr rfl)
    (.single (List.mem_singleton.mpr rfl))

theorem exists_path_compositionFragments {f : Fragment} (hf : f ∈ compositionFragments ctx) :
    ∃ v, Relation.ReflTransGen (Leads ctx) .experienceData v ∧ v.fragment? ctx = some f := by
  simp only [compositionFragments, List.mem_cons, List.not_mem_nil, or_false] at hf
  rcases hf with rfl | rfl | rfl
  · exact ⟨.compositionComponent, reaches_compositionComponent ctx, rfl⟩
  · exact ⟨.compositionNode, .single (List.mem_singleton.mpr rfl), rfl⟩
  · exact ⟨.experienceData, .refl, rfl⟩

/-- Every fragment is that of a node to which the nodes walked over lead. -/
theorem Visits.exists_path (h : Visits ctx vs visited fragments visited') {f : Fragment}
    (hf : f ∈ fragments) :
    ∃ u ∈ vs, ∃ v, Relation.ReflTransGen (Leads ctx) u v ∧ v.fragment? ctx = some f := by
  induction h with
  | nil => exact absurd hf List.not_mem_nil
  | seen _ _ ih =>
      obtain ⟨u, hu, hpath⟩ := ih hf
      exact ⟨u, List.mem_cons_of_mem _ hu, hpath⟩
  | metadata _ _ ih =>
      rcases List.mem_cons.mp hf with rfl | hf
      · exact ⟨.mediaMetadata, List.mem_cons_self, .mediaMetadata, .refl, rfl⟩
      · obtain ⟨u, hu, hpath⟩ := ih hf
        exact ⟨u, List.mem_cons_of_mem _ hu, hpath⟩
  | @type key suffixed _ _ _ _ _ _ _ _ hown _ _ ihNeeds ihTail =>
      rcases List.mem_append.mp hf with hneeded | hf
      · obtain ⟨u, hu, v, hpath, hv⟩ := ihNeeds (Keyed.mem_of_mem_firsts _ hneeded)
        exact ⟨.type key suffixed, List.mem_cons_self, v, .head hu hpath, hv⟩
      rcases List.mem_cons.mp hf with rfl | hf
      · exact ⟨.type key suffixed, List.mem_cons_self, .type key suffixed, .refl, hown⟩
      · obtain ⟨u, hu, hpath⟩ := ihTail hf
        exact ⟨u, List.mem_cons_of_mem _ hu, hpath⟩
  | composition _ _ _ ihNeeds ihTail =>
      rcases List.mem_append.mp hf with hf | hf
      · rcases List.mem_append.mp hf with hneeded | hown
        · obtain ⟨u, hu, v, hpath, hv⟩ := ihNeeds hneeded
          exact ⟨.experienceData, List.mem_cons_self, v,
            (reaches_compositionComponent ctx).trans (.head hu hpath), hv⟩
        · exact ⟨.experienceData, List.mem_cons_self, exists_path_compositionFragments hown⟩
      · obtain ⟨u, hu, hpath⟩ := ihTail hf
        exact ⟨u, List.mem_cons_of_mem _ hu, hpath⟩

theorem name_mem_of_leads_composition {f : Fragment} {v w : Node}
    (hvisited : ∀ u ∈ eligibleNodes ctx, u.name ∈ visited) (hnames : compositionNames ⊆ visited)
    (hf : f ∈ compositionFragments ctx) (hv : v.fragment? ctx = some f) (hw : Leads ctx v w) :
    w.name ∈ visited := by
  simp only [compositionFragments, List.mem_cons, List.not_mem_nil, or_false] at hf
  rcases hf with rfl | rfl | rfl
  · obtain rfl := Node.eq_of_fragment? hv (w := .compositionComponent) rfl
    exact hvisited w hw
  · obtain rfl := Node.eq_of_fragment? hv (w := .compositionNode) rfl
    obtain rfl := List.mem_singleton.mp hw
    exact hnames (by decide)
  · obtain rfl := Node.eq_of_fragment? hv (w := .experienceData) rfl
    obtain rfl := List.mem_singleton.mp hw
    exact hnames (by decide)

/-- Every name that a fragment spreads is visited when the walk ends. -/
theorem Visits.name_mem_of_leads (h : Visits ctx vs visited fragments visited') {f : Fragment}
    (hf : f ∈ fragments) {v w : Node} (hv : v.fragment? ctx = some f) (hw : Leads ctx v w) :
    w.name ∈ visited' := by
  induction h with
  | nil => exact absurd hf List.not_mem_nil
  | seen _ _ ih => exact ih hf
  | metadata _ tail ih =>
      rcases List.mem_cons.mp hf with rfl | hf
      · obtain rfl := Node.eq_of_fragment? hv (w := .mediaMetadata) rfl
        exact absurd hw List.not_mem_nil
      · exact ih hf
  | type _ hown needs tail ihNeeds ihTail =>
      rcases List.mem_append.mp hf with hneeded | hf
      · exact tail.subset (ihNeeds (Keyed.mem_of_mem_firsts _ hneeded))
      rcases List.mem_cons.mp hf with rfl | hf
      · -- The type's own fragment: its targets were walked over, those in progress included.
        obtain rfl := Node.eq_of_fragment? hv hown
        exact tail.subset (needs.name_mem hw)
      · exact ihTail hf
  | composition _ needs tail ihNeeds ihTail =>
      rcases List.mem_append.mp hf with hf | hf
      · rcases List.mem_append.mp hf with hneeded | hown
        · exact tail.subset (ihNeeds hneeded)
        · -- The names of the composition were marked before the eligible types.
          refine tail.subset (name_mem_of_leads_composition (fun u hu => needs.name_mem hu) ?_ hown
            hv hw)
          exact List.Subset.trans (List.subset_append_left _ _) needs.subset
      · exact ihTail hf

section

variable {registry : Registry} {settings : Settings} {root : String} {c : Compilation}

theorem exists_visits_of_compile (h : (compile registry settings root).value = .ok c) :
    ∃ visited,
      Visits (contextOf registry settings root) [.type root false] [] c.fragments visited ∧
        ∀ name, name ∈ visited ↔ name ∈ c.fragments.map Fragment.name := by
  obtain ⟨visited, hvisits⟩ := visits_of_compile h
  refine ⟨visited, hvisits, fun name => ?_⟩
  rw [hvisits.mem_visited_iff]
  simp

theorem exists_root_fragment (h : (compile registry settings root).value = .ok c) :
    ∃ f ∈ c.fragments,
      (Node.type root false).fragment? (contextOf registry settings root) = some f := by
  -- No name is visited before the root, so that it is entered.
  obtain ⟨visited, hvisits⟩ := visits_of_compile h
  exact hvisits.exists_head_fragment List.not_mem_nil

theorem root_mem_names (h : (compile registry settings root).value = .ok c) :
    root ∈ c.fragments.map Fragment.name := by
  obtain ⟨f, hf, hroot⟩ := exists_root_fragment h
  refine List.mem_map.mpr ⟨f, hf, ?_⟩
  simpa [Node.name] using Node.name_of_fragment? hroot

theorem exists_needed_of_mem (h : (compile registry settings root).value = .ok c) {f : Fragment}
    (hf : f ∈ c.fragments) :
    ∃ v, Needed (contextOf registry settings root) v ∧
      v.fragment? (contextOf registry settings root) = some f := by
  obtain ⟨visited, hvisits⟩ := visits_of_compile h
  obtain ⟨u, hu, hpath⟩ := hvisits.exists_path hf
  obtain rfl := List.mem_singleton.mp hu
  exact hpath

theorem name_mem_of_leads (h : (compile registry settings root).value = .ok c) {f : Fragment}
    (hf : f ∈ c.fragments) {v w : Node}
    (hv : v.fragment? (contextOf registry settings root) = some f)
    (hw : Leads (contextOf registry settings root) v w) :
    w.name ∈ c.fragments.map Fragment.name := by
  obtain ⟨visited, hvisits, hnames⟩ := exists_visits_of_compile h
  exact (hnames _).mp (hvisits.name_mem_of_leads hf hv hw)

theorem assemble_value_of_compile (h : (compile registry settings root).value = .ok c) :
    (assemble registry settings root).value = .ok ⟨⟨root, c.fragments⟩, c.diagnostics⟩ := by
  unfold assemble
  split
  · rename_i error events hcompile
    rw [hcompile] at h
    exact absurd h (by simp)
  · rename_i compilation events hcompile
    rw [hcompile] at h
    obtain rfl := Except.ok.inj h
    rfl

end

/-- A compilation that succeeds makes a document that is closed under spreads. It has a fragment of
the name that the query spreads, and every fragment is that of a node, writes all spreads of the
node into its body and finds a fragment of every name that it spreads. -/
theorem compile_closed {registry : Registry} {settings : Settings} {root : String}
    {c : Compilation} (h : (compile registry settings root).value = .ok c) :
    (assemble registry settings root).value = .ok ⟨⟨root, c.fragments⟩, c.diagnostics⟩ ∧
      root ∈ c.fragments.map Fragment.name ∧
      ∀ f ∈ c.fragments,
        (∃ v : Node, v.fragment? (contextOf registry settings root) = some f) ∧
        ∀ name, Spreads (contextOf registry settings root) f name →
          Written name f.body ∧ name ∈ c.fragments.map Fragment.name := by
  refine ⟨assemble_value_of_compile h, root_mem_names h, ?_⟩
  intro f hf
  constructor
  · obtain ⟨v, -, hv⟩ := exists_needed_of_mem h hf
    exact ⟨v, hv⟩
  · rintro name hspreads
    refine ⟨hspreads.written, ?_⟩
    obtain ⟨v, w, hv, hw, rfl⟩ := hspreads
    exact name_mem_of_leads h hf hv hw

theorem exists_ok_of_isSome {value : Except CompileError Compilation}
    (h : value.toOption.isSome = true) : ∃ c, value = .ok c := by
  cases value with
  | ok c => exact ⟨c, rfl⟩
  | error error => simp [Except.toOption] at h

/-- An experience with a hero, which holds images and instances of the experience. -/
def landingTypes : ContentTypes :=
  .ofList [
    (ContentType.ofKey "Landing" .experience).withBehavior .sectionEnabled
      |>.withProperty "hero" (.ofKind (.component (.key "Hero"))),
    (ContentType.ofKey "Hero" .component).withBehavior .elementEnabled
      |>.withProperty "gallery"
        (.ofKind (.array (.ofKind (.content (some [.key "_image", .key selfKey]) none)))),
    .ofKey "Photo" .image]

/-- The types of a landing page, one of them declared again, and one with a made-up name. -/
def crowdedRegistry : Registry where
  all := landingTypes.toList ++ [
    .ofKey "Photo" .video,
    (ContentType.ofKey "CompositionNodeData" .component).withBehavior .elementEnabled]
  find? := landingTypes.get?

theorem compile_closed_crowded :
    ∃ c, (compile crowdedRegistry .initial "Landing").value = .ok c ∧
      "Landing" ∈ c.fragments.map Fragment.name ∧
      ∀ f ∈ c.fragments, ∀ name, Spreads (contextOf crowdedRegistry .initial "Landing") f name →
        name ∈ c.fragments.map Fragment.name := by
  obtain ⟨c, hc⟩ := exists_ok_of_isSome
    (show (compile crowdedRegistry .initial "Landing").value.toOption.isSome = true from rfl)
  obtain ⟨-, hroot, hclosed⟩ := compile_closed hc
  exact ⟨c, hc, hroot, fun f hf name hname => ((hclosed f hf).2 name hname).2⟩

end ContentQuery.Compile
