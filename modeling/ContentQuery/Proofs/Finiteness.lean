import ContentQuery.Proofs.Lockstep
import ContentQuery.Proofs.MissingTypes

/-!
Compilations end, and there is a bound on what they make. Visits that may be nested deeper than
there are names to enter never use that depth up, whatever was visited before, so that no bound on
the depth above it changes anything. Each fragment of a compilation is made for a node of its own,
and a registered type or a base type has two nodes.
-/

namespace ContentQuery.Compile

/-- The nodes of registered types and base types, and those that are no types. -/
def makeableNodes (keys : List String) : List Node :=
  ((knownKeys keys).flatMap fun key => [.type key false, .type key true]) ++ Node.fixed

theorem length_makeableNodes (keys : List String) :
    (makeableNodes keys).length = 2 * (keys.length + 9) + 4 := by
  have hpairs : ((knownKeys keys).flatMap fun key =>
      [Node.type key false, .type key true]).length = 2 * (knownKeys keys).length := by
    simp [List.length_flatMap, Nat.mul_comm]
  have hknown : (knownKeys keys).length = keys.length + 9 := List.length_append
  rw [makeableNodes, List.length_append, hpairs, hknown]
  rfl

theorem Node.mem_makeableNodes {keys : List String} {v : Node} (h : v.Known keys) :
    v ∈ makeableNodes keys := by
  rcases mem_fixed_or_type v with hfixed | ⟨key, suffixed, rfl⟩
  · exact List.mem_append_right _ hfixed
  · refine List.mem_append_left _ (List.mem_flatMap.mpr ⟨key, h, ?_⟩)
    cases suffixed <;> simp

theorem steady_eq : Steady Eq where
  visited := fun h => congrArg State.visited h
  mark := fun _ h => by rw [h]
  record := fun _ h => by rw [h]

section

variable (ctx : Context)

theorem visitWithin_lockstep_succ (depth : Nat) (key suffix : String) :
    Lockstep Eq (visitWithin ctx depth key suffix) (visitWithin ctx (depth + 1) key suffix) := by
  induction depth generalizing key suffix with
  | zero => exact fun _ _ _ => Or.inl rfl
  | succ depth ih =>
      refine visitWith_lockstep ⟨rfl, rfl, rfl⟩ steady_eq ?_ ih key suffix
      rintro name p count state _ rfl
      exact Or.inr ⟨rfl, rfl⟩

theorem visitWithin_ne_unfinished {depth : Nat} (hdepth : maxDepth ctx.snapshot ≤ depth)
    (key : String) (suffixed : Bool) (state : State) :
    ((visitWithin ctx depth key (suffix suffixed)).run state).1 ≠ .error .unfinished := by
  intro hunfinished
  have hfollows := visitWithin_follows ctx depth key suffixed state
  rcases hrun : (visitWithin ctx depth key (suffix suffixed)).run state with ⟨value, inner⟩
  rw [hrun] at hfollows hunfinished
  obtain rfl : value = .error .unfinished := hunfinished
  have hfails : Fails ctx depth [.type key suffixed] state.visited .unfinished := hfollows
  -- A walk that gives up has entered a name that was not visited on each level.
  have hnames : depth ≤ (unvisited ctx state.visited).card := hfails.depth_le rfl
  have hstart : (unvisited ctx state.visited).card ≤ 2 * ctx.snapshot.types.length :=
    (card_unvisited_mono (List.nil_subset _)).trans (card_unvisited_start ctx)
  rw [maxDepth] at hdepth
  omega

/-- No visit needs to be nested deeper than `maxDepth`. -/
theorem visitWithin_eq_of_le {depth : Nat} (hdepth : maxDepth ctx.snapshot ≤ depth) (key : String)
    (suffixed : Bool) :
    visitWithin ctx depth key (suffix suffixed) =
      visitWithin ctx (maxDepth ctx.snapshot) key (suffix suffixed) := by
  induction depth, hdepth using Nat.le_induction with
  | base => rfl
  | succ depth hdepth ih =>
      rw [← ih]
      funext state
      rcases visitWithin_lockstep_succ ctx depth key (suffix suffixed) (rfl : state = state) with
        hunfinished | ⟨hvalue, hstate⟩
      · exact absurd hunfinished (visitWithin_ne_unfinished ctx hdepth key suffixed state)
      · exact (Prod.ext hvalue hstate).symm

end

section

variable {registry : Registry} {settings : Settings} {root : String} {c : Compilation}

/-- Even where a name is defined twice, no fragment is made twice. -/
theorem nodup_fragments (h : (compile registry settings root).value = .ok c) :
    c.fragments.Nodup := by
  obtain ⟨needed, own, visited, hfragments, hown, needs⟩ := exists_root_last h
  rw [hfragments]
  refine List.Nodup.append (Keyed.nodup_map_firsts _ _).of_map (List.nodup_singleton _) ?_
  rw [List.disjoint_singleton]
  intro hmem
  have hname : own.name = root := by simpa [Node.name] using Node.name_of_fragment? hown
  obtain ⟨hunguarded, -⟩ := needs.unguarded_of_visited (Keyed.mem_of_mem_firsts _ hmem)
    (List.mem_singleton.mpr hname)
  exact ne_of_mem_unguarded hunguarded hown rfl

theorem length_types (registry : Registry) :
    (Snapshot.capture registry).types.length =
      (registry.all.map ContentType.key).toFinset.card := by
  rw [← List.length_map (f := ContentType.key),
    ← List.toFinset_card_of_nodup (nodup_keys registry)]
  congr 1
  ext key
  simp only [List.mem_toFinset]
  exact Keyed.mem_map_lasts ContentType.key registry.all key

theorem length_fragments_le (h : (compile registry settings root).value = .ok c) :
    c.fragments.length ≤ 2 * ((registry.all.map ContentType.key).toFinset.card + 9) + 4 := by
  let keys := (Snapshot.capture registry).types.map ContentType.key
  have hsub : c.fragments ⊆
      (makeableNodes keys).filterMap (Node.fragment? (contextOf registry settings root)) := by
    intro f hf
    obtain ⟨v, -, hv⟩ := exists_needed_of_mem h hf
    have hknown : v.Known keys := Node.known_of_fragment? (fun t => List.mem_map_of_mem) hv
    exact List.mem_filterMap.mpr ⟨v, Node.mem_makeableNodes hknown, hv⟩
  calc c.fragments.length
    _ ≤ ((makeableNodes keys).filterMap
          (Node.fragment? (contextOf registry settings root))).length :=
        (List.subperm_of_subset (nodup_fragments h) hsub).length_le
    _ ≤ (makeableNodes keys).length := List.length_filterMap_le _ _
    _ = 2 * ((registry.all.map ContentType.key).toFinset.card + 9) + 4 := by
        rw [length_makeableNodes, List.length_map, length_types]

end

/-- Every compilation ends. From whatever state, a visit ends before it is nested deeper than
`maxDepth`, with the same end for every greater depth, so that the visits solve the equations of the
walk without a bound on its depth. A compilation that fails names a missing type, and one that
succeeds makes at most two fragments for each registered key and each base type, and four others. -/
theorem compile_ends (registry : Registry) (settings : Settings) (root : String) :
    (∀ depth, maxDepth (Snapshot.capture registry) ≤ depth → ∀ key suffixed,
        (∀ state, ((visitWithin (contextOf registry settings root) depth key
          (suffix suffixed)).run state).1 ≠ .error .unfinished) ∧
        visitWithin (contextOf registry settings root) depth key (suffix suffixed) =
          visitWithin (contextOf registry settings root) (maxDepth (Snapshot.capture registry)) key
            (suffix suffixed) ∧
        visitWith (contextOf registry settings root)
            (visitWithin (contextOf registry settings root) depth) key (suffix suffixed) =
          visitWithin (contextOf registry settings root) depth key (suffix suffixed)) ∧
      (∀ error, (compile registry settings root).value = .error error →
        ∃ name, error = .missingContentType name) ∧
      ∀ c, (compile registry settings root).value = .ok c →
        c.fragments.length ≤ 2 * ((registry.all.map ContentType.key).toFinset.card + 9) + 4 := by
  refine ⟨?_, fun _ => exists_missing_of_error, fun _ => length_fragments_le⟩
  intro depth hdepth key suffixed
  have heq := visitWithin_eq_of_le (contextOf registry settings root) hdepth key suffixed
  have hsucc := visitWithin_eq_of_le (contextOf registry settings root)
    (Nat.le_succ_of_le hdepth) key suffixed
  exact ⟨visitWithin_ne_unfinished _ hdepth key suffixed, heq, hsucc.trans heq.symm⟩

theorem compile_ends_landing_slide :
    (∃ c, (compile landingTypes.registry .initial "Landing").value = .ok c ∧
      c.fragments.length ≤ 28 ∧
      visitWithin (contextOf landingTypes.registry .initial "Landing") 1000 "Hero" (suffix true) =
        visitWithin (contextOf landingTypes.registry .initial "Landing") 7 "Hero" (suffix true)) ∧
      ∃ error name, (compile slideTypes.registry .initial "Landing").value = .error error ∧
        error = .missingContentType name := by
  obtain ⟨c, hc⟩ := exists_ok_of_isSome
    (show (compile landingTypes.registry .initial "Landing").value.toOption.isSome = true from rfl)
  obtain ⟨hdepth, -, hsize⟩ := compile_ends landingTypes.registry .initial "Landing"
  obtain ⟨-, herror, -⟩ := compile_ends slideTypes.registry .initial "Landing"
  have hslide : (compile slideTypes.registry .initial "Landing").value =
      .error (.missingContentType "Slide") := rfl
  obtain ⟨name, hname⟩ := herror _ hslide
  exact ⟨⟨c, hc, hsize c hc, (hdepth 1000 (by decide) "Hero" true).2.1⟩, _, name, hslide, hname⟩

end ContentQuery.Compile
