import ContentQuery.Proofs.Closure

namespace ContentQuery.Compile

/-- The keys that a property names: the type of a component, or the allowed types. -/
def namedKeys (root : String) : PropertyKind → List String
  | .component type => [resolveSelf root type.typeKey]
  | .content allowed _ => canonicalKeys root allowed
  | .array ⟨kind, _⟩ => namedKeys root kind
  | _ => []

/-- The root, the registered keys, and the keys that an enabled property of a registered type
names. -/
def writtenKeys (ctx : Context) : List String :=
  ctx.root :: ctx.snapshot.types.flatMap fun t =>
    t.key :: (enabled t.properties).flatMap fun property => namedKeys ctx.root property.2.kind

/-- A fragment of the one name spreads the other one. -/
def PointsTo (ctx : Context) (name name' : String) : Prop :=
  ∃ f : Fragment, f.name = name ∧ Spreads ctx f name'

variable {ctx : Context}

theorem key_mem_writtenKeys {t : ContentType} (ht : t ∈ ctx.snapshot.types) :
    t.key ∈ writtenKeys ctx :=
  List.mem_cons_of_mem _ (List.mem_flatMap.mpr ⟨t, ht, List.mem_cons_self⟩)

theorem pointsTo_of_path {u v : Node} (h : Relation.ReflTransGen (Leads ctx) u v) :
    Relation.ReflTransGen (PointsTo ctx) u.name v.name := by
  induction h with
  | refl => exact .refl
  | @tail v w _ hw ih =>
      obtain ⟨f, hf⟩ := Node.exists_fragment_of_leads hw
      exact ih.tail ⟨f, Node.name_of_fragment? hf, v, w, hf, hw, rfl⟩

section

variable {registry : Registry} {settings : Settings} {root : String} {c : Compilation}

theorem reachable_of_mem_names (h : (compile registry settings root).value = .ok c)
    {name : String} (hname : name ∈ c.fragments.map Fragment.name) :
    Relation.ReflTransGen (PointsTo (contextOf registry settings root)) root name := by
  obtain ⟨f, hf, rfl⟩ := List.mem_map.mp hname
  obtain ⟨v, hneeded, hv⟩ := exists_needed_of_mem h hf
  have hpath := pointsTo_of_path hneeded
  rw [Node.name_of_fragment? hv]
  simpa [Node.name] using hpath

theorem name_mem_of_pointsTo
    (hfree : CollisionFree (writtenKeys (contextOf registry settings root)))
    (h : (compile registry settings root).value = .ok c) {name name' : String}
    (hname : name ∈ c.fragments.map Fragment.name)
    (hpoints : PointsTo (contextOf registry settings root) name name') :
    name' ∈ c.fragments.map Fragment.name := by
  obtain ⟨f, hf, rfl⟩ := List.mem_map.mp hname
  obtain ⟨v, -, hv⟩ := exists_needed_of_mem h hf
  obtain ⟨g, hg, u, w, hu, hw, rfl⟩ := hpoints
  -- The name points to what some node leads to, and only the fragment's own node has the name.
  have hnames : u.name = v.name :=
    (Node.name_of_fragment? hu).symm.trans (hg.trans (Node.name_of_fragment? hv))
  obtain rfl := hfree.name_inj (Node.known_of_fragment? (fun _ => key_mem_writtenKeys) hu)
    (Node.known_of_fragment? (fun _ => key_mem_writtenKeys) hv) hnames
  exact name_mem_of_leads h hf hv hw

end

/-- Nothing is lost and nothing is unused: without collisions the names of the fragments are those
to which the root leads along spreads. -/
theorem mem_names_iff_reachable {registry : Registry} {settings : Settings} {root : String}
    {c : Compilation} (hfree : CollisionFree (writtenKeys (contextOf registry settings root)))
    (h : (compile registry settings root).value = .ok c) (name : String) :
    name ∈ c.fragments.map Fragment.name ↔
      Relation.ReflTransGen (PointsTo (contextOf registry settings root)) root name := by
  refine ⟨reachable_of_mem_names h, ?_⟩
  intro hpath
  induction hpath with
  | refl => exact root_mem_names h
  | tail _ hpoints ih => exact name_mem_of_pointsTo hfree h ih hpoints

theorem mem_names_iff_reachable_landing :
    ∃ c, (compile landingTypes.registry .initial "Landing").value = .ok c ∧
      ∀ name, name ∈ c.fragments.map Fragment.name ↔
        Relation.ReflTransGen (PointsTo (contextOf landingTypes.registry .initial "Landing"))
          "Landing" name := by
  obtain ⟨c, hc⟩ := exists_ok_of_isSome
    (show (compile landingTypes.registry .initial "Landing").value.toOption.isSome = true from rfl)
  exact ⟨c, hc, fun name => mem_names_iff_reachable (by decide) hc name⟩

end ContentQuery.Compile
