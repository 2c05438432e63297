import ContentQuery.Proofs.Closure

/-!
How often a compilation defines a name. The marks of a walk keep every name to one fragment, with
one exception: a composition makes its fragments on components and nodes even if their names are
visited. Where no type is registered under these two names, all fragments of a walk have names of
their own (`Visits.nodup`). In general only a root that is itself called like one of the two can be
defined a second time, `nodup_names_iff`.
-/

namespace ContentQuery.Compile

variable {ctx : Context} {vs : List Node} {visited visited' : List String}
  {fragments : List Fragment}

/-- The fragments that a composition makes whether their names are visited or not. -/
def unguardedFragments (ctx : Context) : List Fragment :=
  [compositionComponent ctx, compositionNode]

def unguardedNames : List String := [compositionComponentName, compositionNodeName]

/-- No type is registered under an unguarded name. -/
def UnguardedFree (ctx : Context) : Prop := ∀ t ∈ ctx.snapshot.types, t.key ∉ unguardedNames

/-- The unguarded names are visited only together with the name that guards the composition. -/
def MarkedTogether (visited : List String) : Prop :=
  ∀ name ∈ unguardedNames, name ∈ visited → experienceDataName ∈ visited

theorem name_mem_unguardedNames {f : Fragment} (h : f ∈ unguardedFragments ctx) :
    f.name ∈ unguardedNames :=
  List.mem_map_of_mem (f := Fragment.name) h

theorem unguardedNames_subset_fixedNames : unguardedNames ⊆ fixedNames := by decide

theorem ne_of_mem_unguarded {f own : Fragment} (hf : f ∈ unguardedFragments ctx) {key : String}
    {suffixed : Bool} (hown : (Node.type key suffixed).fragment? ctx = some own) : f ≠ own := by
  rintro rfl
  simp only [unguardedFragments, List.mem_cons, List.not_mem_nil, or_false] at hf
  rcases hf with rfl | rfl
  · exact absurd (Node.eq_of_fragment? hown (w := .compositionComponent) rfl) (by simp)
  · exact absurd (Node.eq_of_fragment? hown (w := .compositionNode) rfl) (by simp)

theorem Visits.unguarded_of_visited (h : Visits ctx vs visited fragments visited') {f : Fragment}
    (hf : f ∈ fragments) (hvisited : f.name ∈ visited) :
    f ∈ unguardedFragments ctx ∧ experienceDataName ∉ visited := by
  induction h with
  | nil => exact absurd hf List.not_mem_nil
  | seen _ _ ih => exact ih hf hvisited
  | metadata hnew _ ih =>
      rcases List.mem_cons.mp hf with rfl | hf
      · exact absurd hvisited hnew
      · obtain ⟨hmade, hopen⟩ := ih hf (List.mem_cons_of_mem _ hvisited)
        exact ⟨hmade, fun h => hopen (List.mem_cons_of_mem _ h)⟩
  | type hnew hown needs _ ihNeeds ihTail =>
      rcases List.mem_append.mp hf with hneeded | hf
      · obtain ⟨hmade, hopen⟩ :=
          ihNeeds (Keyed.mem_of_mem_firsts _ hneeded) (List.mem_cons_of_mem _ hvisited)
        exact ⟨hmade, fun h => hopen (List.mem_cons_of_mem _ h)⟩
      rcases List.mem_cons.mp hf with rfl | hf
      · exact absurd (Node.name_of_fragment? hown ▸ hvisited) hnew
      · obtain ⟨hmade, hopen⟩ := ihTail hf (needs.subset (List.mem_cons_of_mem _ hvisited))
        exact ⟨hmade, fun h => hopen (needs.subset (List.mem_cons_of_mem _ h))⟩
  | composition hnew needs _ ihNeeds ihTail =>
      rcases List.mem_append.mp hf with hf | hf
      · refine ⟨?_, hnew⟩
        rcases List.mem_append.mp hf with hneeded | hmade
        · exact (ihNeeds hneeded (List.mem_append_right _ hvisited)).1
        · simp only [compositionFragments, List.mem_cons, List.not_mem_nil, or_false] at hmade
          rcases hmade with rfl | rfl | rfl
          · exact List.mem_cons_self
          · exact List.mem_cons_of_mem _ List.mem_cons_self
          · exact absurd hvisited hnew
      · exact ⟨(ihTail hf (needs.subset (List.mem_append_right _ hvisited))).1, hnew⟩

theorem Visits.name_not_mem (h : Visits ctx vs visited fragments visited')
    (htogether : MarkedTogether visited) {f : Fragment} (hf : f ∈ fragments) :
    f.name ∉ visited := by
  intro hvisited
  obtain ⟨hmade, hopen⟩ := h.unguarded_of_visited hf hvisited
  exact hopen (htogether f.name (name_mem_unguardedNames hmade) hvisited)

theorem MarkedTogether.cons {name : String} (h : MarkedTogether visited)
    (hname : name ∉ unguardedNames) : MarkedTogether (name :: visited) := by
  intro other hother hmem
  rcases List.mem_cons.mp hmem with rfl | hmem
  · exact absurd hother hname
  · exact List.mem_cons_of_mem _ (h other hother hmem)

theorem markedTogether_compositionNames (visited : List String) :
    MarkedTogether (compositionNames ++ visited) :=
  fun _ _ _ => List.mem_append_left _ (by decide)

theorem UnguardedFree.type_name_not_mem (hfree : UnguardedFree ctx) {key : String}
    {suffixed : Bool} {own : Fragment} (h : (Node.type key suffixed).fragment? ctx = some own) :
    (Node.type key suffixed).name ∉ unguardedNames := by
  intro hname
  obtain ⟨rfl, hfixed⟩ := Node.eq_of_type_name_mem_fixed (unguardedNames_subset_fixedNames hname)
  rcases Node.eq_of_fragment?_type h with ⟨base, hb, -⟩ | ⟨t, ht, -⟩
  · exact absurd ((builtin?_fixed hfixed).symm.trans hb) (by simp)
  · refine hfree t ht.mem_types ?_
    simpa [Node.name, ht.key_eq] using hname

theorem Visits.markedTogether (h : Visits ctx vs visited fragments visited')
    (hfree : UnguardedFree ctx) (htogether : MarkedTogether visited) : MarkedTogether visited' := by
  induction h with
  | nil => exact htogether
  | seen _ _ ih => exact ih htogether
  | metadata _ _ ih => exact ih (htogether.cons (by decide))
  | type _ hown _ _ ihNeeds ihTail =>
      exact ihTail (ihNeeds (htogether.cons (hfree.type_name_not_mem hown)))
  | composition _ _ _ ihNeeds ihTail =>
      exact ihTail (ihNeeds (markedTogether_compositionNames _))

theorem nodup_names_cons {f : Fragment} {fs : List Fragment} (hfs : (fs.map Fragment.name).Nodup)
    (h : ∀ g ∈ fs, g.name ≠ f.name) : ((f :: fs).map Fragment.name).Nodup := by
  rw [List.map_cons, List.nodup_cons]
  refine ⟨?_, hfs⟩
  intro hname
  obtain ⟨g, hg, hgname⟩ := List.mem_map.mp hname
  exact h g hg hgname

theorem nodup_names_append {fs gs : List Fragment} (hfs : (fs.map Fragment.name).Nodup)
    (hgs : (gs.map Fragment.name).Nodup) (h : ∀ g ∈ gs, g.name ∉ fs.map Fragment.name) :
    ((fs ++ gs).map Fragment.name).Nodup := by
  rw [List.map_append]
  refine List.Nodup.append hfs hgs ?_
  intro name hname hname'
  obtain ⟨g, hg, rfl⟩ := List.mem_map.mp hname'
  exact h g hg hname

/-- If no type is registered under an unguarded name, a walk defines no name twice. -/
theorem Visits.nodup (h : Visits ctx vs visited fragments visited') (hfree : UnguardedFree ctx)
    (htogether : MarkedTogether visited) : (fragments.map Fragment.name).Nodup := by
  induction h with
  | nil => exact List.nodup_nil
  | seen _ _ ih => exact ih htogether
  | @metadata _ visited _ _ _ tail ih =>
      have htail : MarkedTogether (mediaMetadataName :: visited) := htogether.cons (by decide)
      refine nodup_names_cons (ih htail) ?_
      intro g hg hname
      exact tail.name_not_mem htail hg (List.mem_cons.mpr (Or.inl hname))
  | @type key suffixed _ _ inner _ own needed _ _ hown needs tail _ ihTail =>
      have hneeds := htogether.cons (hfree.type_name_not_mem hown)
      have hinner := needs.markedTogether hfree hneeds
      have hownName : own.name ∈ inner :=
        Node.name_of_fragment? hown ▸ needs.subset List.mem_cons_self
      refine nodup_names_append (Keyed.nodup_map_firsts _ _)
        (nodup_names_cons (ihTail hinner) ?_) ?_
      · intro g hg hname
        exact tail.name_not_mem hinner hg (hname ▸ hownName)
      · intro g hg hname
        have hmem := (Keyed.mem_map_firsts _ _ _).mp hname
        rcases List.mem_cons.mp hg with rfl | hg
        · obtain ⟨f, hf, hfname⟩ := List.mem_map.mp hmem
          refine needs.name_not_mem hneeds hf ?_
          rw [hfname, Node.name_of_fragment? hown]
          exact List.mem_cons_self
        · exact tail.name_not_mem hinner hg ((needs.mem_visited_iff _).mpr (Or.inr hmem))
  | @composition _ visited inner _ needed _ _ needs tail ihNeeds ihTail =>
      have hneeds := markedTogether_compositionNames visited
      have hinner := needs.markedTogether hfree hneeds
      refine nodup_names_append (nodup_names_append (ihNeeds hneeds)
        (map_name_compositionFragments ctx ▸ by decide) ?_) (ihTail hinner) ?_
      · intro g hg hname
        obtain ⟨f, hf, hfname⟩ := List.mem_map.mp hname
        refine needs.name_not_mem hneeds hf (List.mem_append_left _ ?_)
        rw [hfname, ← map_name_compositionFragments ctx]
        exact List.mem_map_of_mem hg
      · intro g hg hname
        refine tail.name_not_mem hinner hg ?_
        rw [List.map_append, map_name_compositionFragments] at hname
        rcases List.mem_append.mp hname with hname | hname
        · exact (needs.mem_visited_iff _).mpr (Or.inr hname)
        · exact needs.subset (List.mem_append_left _ hname)

section

variable {registry : Registry} {settings : Settings} {root : String} {c : Compilation}

theorem exists_root_last (h : (compile registry settings root).value = .ok c) :
    ∃ needed own visited, c.fragments = Keyed.firsts Fragment.name needed ++ [own] ∧
      (Node.type root false).fragment? (contextOf registry settings root) = some own ∧
      Visits (contextOf registry settings root)
        ((Node.type root false).targets (contextOf registry settings root)) [root] needed
        visited := by
  obtain ⟨visited, hvisits⟩ := visits_of_compile h
  have hname : (Node.type root false).name = root := by simp [Node.name]
  generalize hfragments : c.fragments = fragments at hvisits
  cases hvisits with
  | seen hseen => exact absurd hseen List.not_mem_nil
  | type _ hown needs tail =>
      cases tail
      rw [hname] at needs
      exact ⟨_, _, _, rfl, hown, needs⟩

end

/-- The root's own fragment stands last, and the fragments before it have names of their own. A name
is defined twice exactly if the root has the name of an unguarded fragment that is made. -/
theorem nodup_names_iff {registry : Registry} {settings : Settings} {root : String}
    {c : Compilation} (h : (compile registry settings root).value = .ok c) :
    (c.fragments.dropLast.map Fragment.name).Nodup ∧
      ((c.fragments.map Fragment.name).Nodup ↔
        ∀ f ∈ unguardedFragments (contextOf registry settings root),
          f ∈ c.fragments → f.name ≠ root) ∧
      (root ∉ unguardedNames → (c.fragments.map Fragment.name).Nodup) := by
  obtain ⟨needed, own, visited, hfragments, hown, needs⟩ := exists_root_last h
  have hname : own.name = root := by simpa [Node.name] using Node.name_of_fragment? hown
  have hiff : (c.fragments.map Fragment.name).Nodup ↔
      ∀ f ∈ unguardedFragments (contextOf registry settings root),
        f ∈ c.fragments → f.name ≠ root := by
    rw [hfragments]
    constructor
    · intro hnodup f hunguarded hf
      rcases List.mem_append.mp hf with hneeded | hlast
      · rw [List.map_append, List.nodup_append] at hnodup
        exact hnodup.2.2 _ (List.mem_map_of_mem hneeded) _ (by simp [hname])
      · exact absurd (List.mem_singleton.mp hlast) (ne_of_mem_unguarded hunguarded hown)
    · intro hother
      refine nodup_names_append (Keyed.nodup_map_firsts _ _) (by simp) ?_
      intro g hg hmem
      obtain rfl := List.mem_singleton.mp hg
      obtain ⟨f, hf, hfname⟩ := List.mem_map.mp hmem
      have hroot : f.name = root := hfname.trans hname
      obtain ⟨hunguarded, -⟩ := needs.unguarded_of_visited (Keyed.mem_of_mem_firsts _ hf)
        (List.mem_singleton.mpr hroot)
      exact hother f hunguarded (List.mem_append_left _ hf) hroot
  refine ⟨?_, hiff, ?_⟩
  · rw [hfragments, List.dropLast_concat]
    exact Keyed.nodup_map_firsts _ _
  · intro hroot
    refine hiff.mpr fun f hf _ hfname => hroot ?_
    exact hfname ▸ name_mem_unguardedNames hf

theorem nodup_names_iff_crowded :
    ∃ c, (compile crowdedRegistry .initial "Landing").value = .ok c ∧
      (c.fragments.map Fragment.name).Nodup := by
  obtain ⟨c, hc⟩ := exists_ok_of_isSome
    (show (compile crowdedRegistry .initial "Landing").value.toOption.isSome = true from rfl)
  obtain ⟨-, -, hnodup⟩ := nodup_names_iff hc
  exact ⟨c, hc, hnodup (by decide)⟩

/-- An experience that is called like the fragment on the nodes of its composition. -/
def nodeTypes : ContentTypes := .ofList [.ofKey compositionNodeName .experience]

/-- The root of such a compilation has a name that its composition defines too. -/
theorem composition_node_defined_twice :
    ¬ ∀ (registry : Registry) (settings : Settings) (root : String) (c : Compilation),
      (compile registry settings root).value = .ok c → (c.fragments.map Fragment.name).Nodup := by
  intro h
  have hvalue : ((compile nodeTypes.registry .initial compositionNodeName).value.toOption.map
      fun c => c.fragments.map Fragment.name) =
        some [compositionComponentName, compositionNodeName, experienceDataName,
          compositionNodeName] := rfl
  obtain ⟨c, hc⟩ := exists_ok_of_isSome
    (show (compile nodeTypes.registry .initial compositionNodeName).value.toOption.isSome = true
      from rfl)
  rw [hc] at hvalue
  have hnames : c.fragments.map Fragment.name = _ := Option.some.inj hvalue
  exact absurd (hnames ▸ h _ _ _ c hc) (by decide)

end ContentQuery.Compile
