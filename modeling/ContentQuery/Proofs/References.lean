import ContentQuery.Proofs.Closure

/-!
The graph of references between the keys of types, and its place in the graph of spreads. What the
root needs are the types that references and the composition of experiences reach, base types, and
the fixed fragments (`reached_of_needed`), and whatever references reach is needed
(`exists_needed_of_reachable`).
-/

namespace ContentQuery.Compile

def candidates (ctx : Context) (allowed restricted : Option (List Reference)) : List String :=
  Candidates.resolve ctx.snapshot.registry (canonicalKeys ctx.root allowed)
    (canonicalKeys ctx.root restricted)

/-- The keys that a property refers to, each with the fragment that it takes: the suffixed one of a
component's type, or the plain ones of the candidates. -/
def referred (ctx : Context) : PropertyKind → List (String × Bool)
  | .component type => [(resolveSelf ctx.root type.typeKey, true)]
  | .content allowed restricted => (candidates ctx allowed restricted).map (·, false)
  | .array ⟨kind, _⟩ => referred ctx kind
  | _ => []

/-- What the enabled properties of a type refer to. -/
def references (ctx : Context) (t : ContentType) : List (String × Bool) :=
  (enabled t.properties).flatMap fun property => referred ctx property.2.kind

/-- The root, the registered keys, and the keys that enabled properties of registered types refer
to. -/
def referencedKeys (ctx : Context) : List String :=
  ctx.root :: ctx.snapshot.types.flatMap fun t => t.key :: (references ctx t).map Prod.fst

/-- The keys that references and the composition of experiences reach from the root. `resolves` says
which declaration a key stands for. -/
inductive Reachable (ctx : Context) (resolves : String → ContentType → Prop) : String → Prop
  | root : Reachable ctx resolves ctx.root
  | reference {key key' : String} {t : ContentType} {suffixed : Bool}
      (h : Reachable ctx resolves key) (ht : resolves key t)
      (hkey : (key', suffixed) ∈ references ctx t) : Reachable ctx resolves key'
  | composition {key key' : String} {t : ContentType}
      (h : Reachable ctx resolves key) (ht : resolves key t)
      (hexperience : t.baseType = .experience) (hkey : key' ∈ eligibleKeys ctx) :
      Reachable ctx resolves key'

/-- What references say about a node that the root needs: a type is reached or built in, and there is
a composition only where an experience is reached. -/
def Reached (ctx : Context) : Node → Prop
  | .type key _ => Reachable ctx (Declared ctx) key ∨ ∃ base : BaseType, key = base.tag
  | .mediaMetadata => True
  | _ => ∃ key t, Reachable ctx (Declared ctx) key ∧ Declared ctx key t ∧
      t.baseType = .experience

/-- No two nodes that the root needs share a name. -/
def NamesDistinct (ctx : Context) : Prop :=
  ∀ v w, Needed ctx v → Needed ctx w → v.name = w.name → v = w

variable {ctx : Context}

theorem key_mem_referencedKeys {t : ContentType} (ht : t ∈ ctx.snapshot.types) :
    t.key ∈ referencedKeys ctx :=
  List.mem_cons_of_mem _ (List.mem_flatMap.mpr ⟨t, ht, List.mem_cons_self⟩)

theorem mem_referencedKeys_of_references {t : ContentType} (ht : t ∈ ctx.snapshot.types)
    {key : String} {suffixed : Bool} (hkey : (key, suffixed) ∈ references ctx t) :
    key ∈ referencedKeys ctx :=
  List.mem_cons_of_mem _ (List.mem_flatMap.mpr
    ⟨t, ht, List.mem_cons_of_mem _ (List.mem_map_of_mem (f := Prod.fst) hkey)⟩)

theorem mem_types_of_mem_eligibleKeys {key : String} (h : key ∈ eligibleKeys ctx) :
    key ∈ ctx.snapshot.types.map ContentType.key := by
  obtain ⟨t, ht, rfl⟩ := List.mem_map.mp h
  exact List.mem_map_of_mem (List.mem_filter.mp ht).1

theorem mem_contentTargets {allowed restricted : Option (List Reference)} {key : String} :
    key ∈ contentTargets ctx allowed restricted ↔
      key ∈ candidates ctx allowed restricted ∨
        ∃ candidate ∈ candidates ctx allowed restricted, ∃ base,
          ctx.snapshot.mediaBase? candidate = some base ∧ key = base.tag := by
  unfold contentTargets
  rw [List.mem_flatMap]
  constructor
  · rintro ⟨candidate, hcandidate, hkey⟩
    split at hkey
    · obtain rfl := List.mem_singleton.mp hkey
      exact Or.inl hcandidate
    · rename_i base hbase
      rcases List.mem_cons.mp hkey with rfl | hkey
      · exact Or.inl hcandidate
      · exact Or.inr ⟨candidate, hcandidate, base, hbase, List.mem_singleton.mp hkey⟩
  · rintro (hkey | ⟨candidate, hcandidate, base, hbase, rfl⟩)
    · refine ⟨key, hkey, ?_⟩
      split <;> exact List.mem_cons_self
    · exact ⟨candidate, hcandidate, by simp [hbase]⟩

theorem kindTargets_cases {w : Node} : ∀ kind : PropertyKind, w ∈ kindTargets ctx kind →
    (∃ key suffixed, w = .type key suffixed ∧ (key, suffixed) ∈ referred ctx kind) ∨
      ∃ base : BaseType, w = .type base.tag false
  | .component _, h => Or.inl ⟨_, true, List.mem_singleton.mp h, List.mem_singleton.mpr rfl⟩
  | .content _ _, h => by
      obtain ⟨key, hkey, rfl⟩ := List.mem_map.mp h
      rcases mem_contentTargets.mp hkey with hkey | ⟨_, _, base, _, rfl⟩
      · exact Or.inl ⟨key, false, rfl, List.mem_map_of_mem hkey⟩
      · exact Or.inr ⟨base, rfl⟩
  | .array ⟨kind, _⟩, h => kindTargets_cases kind h

theorem mem_kindTargets_of_referred {key : String} {suffixed : Bool} : ∀ kind : PropertyKind,
    (key, suffixed) ∈ referred ctx kind → Node.type key suffixed ∈ kindTargets ctx kind
  | .component _, h => by
      obtain ⟨rfl, rfl⟩ := Prod.mk.inj (List.mem_singleton.mp h)
      exact List.mem_singleton.mpr rfl
  | .content _ _, h => by
      obtain ⟨_, hkey, he⟩ := List.mem_map.mp h
      obtain ⟨rfl, rfl⟩ := Prod.mk.inj he
      exact List.mem_map_of_mem (mem_contentTargets.mpr (Or.inl hkey))
  | .array ⟨kind, _⟩, h => mem_kindTargets_of_referred kind h

theorem declaredTargets_cases {t : ContentType} {w : Node} (h : w ∈ declaredTargets ctx t) :
    (∃ key suffixed, w = .type key suffixed ∧ (key, suffixed) ∈ references ctx t) ∨
      (∃ base : BaseType, w = .type base.tag false) ∨ w = .mediaMetadata ∨
        (w = .experienceData ∧ t.baseType = .experience) := by
  rcases mem_declaredTargets.mp h with ⟨rfl, -⟩ | ⟨property, hproperty, hw⟩ | hcomposition
  · exact Or.inr (Or.inr (Or.inl rfl))
  · rcases kindTargets_cases _ hw with ⟨key, suffixed, rfl, hkey⟩ | htag
    · exact Or.inl ⟨key, suffixed, rfl, List.mem_flatMap.mpr ⟨property, hproperty, hkey⟩⟩
    · exact Or.inr (Or.inl htag)
  · exact Or.inr (Or.inr (Or.inr hcomposition))

theorem leads_of_references {key key' : String} {t : ContentType} {suffixed suffixed' : Bool}
    (ht : Declared ctx key t) (hkey : (key', suffixed') ∈ references ctx t) :
    Leads ctx (.type key suffixed) (.type key' suffixed') := by
  obtain ⟨property, hproperty, hkey⟩ := List.mem_flatMap.mp hkey
  rw [Leads, Node.targets_declared ht, mem_declaredTargets]
  exact Or.inr (Or.inl ⟨property, hproperty, mem_kindTargets_of_referred _ hkey⟩)

theorem leads_experienceData {key : String} {t : ContentType} {suffixed : Bool}
    (ht : Declared ctx key t) (hexperience : t.baseType = .experience) :
    Leads ctx (.type key suffixed) .experienceData := by
  rw [Leads, Node.targets_declared ht, mem_declaredTargets]
  exact Or.inr (Or.inr ⟨rfl, hexperience⟩)

theorem Reachable.mem_referencedKeys {key : String} (h : Reachable ctx (Declared ctx) key) :
    key ∈ referencedKeys ctx := by
  cases h with
  | root => exact List.mem_cons_self
  | reference _ ht hkey => exact mem_referencedKeys_of_references ht.mem_types hkey
  | composition _ _ _ hkey =>
      obtain ⟨t, ht, rfl⟩ := List.mem_map.mp (mem_types_of_mem_eligibleKeys hkey)
      exact key_mem_referencedKeys ht

theorem Reached.reachable_of_declared {key : String} {suffixed : Bool} {t : ContentType}
    (h : Reached ctx (.type key suffixed)) (ht : Declared ctx key t) :
    Reachable ctx (Declared ctx) key := by
  rcases h with h | ⟨base, rfl⟩
  · exact h
  · exact absurd ht.1 (builtin?_tag_ne_none base)

theorem Reached.of_leads {v w : Node} (h : Reached ctx v) (hw : Leads ctx v w) :
    Reached ctx w := by
  cases v with
  | type key suffixed =>
      rcases Node.type_cases ctx key with ⟨base, hb⟩ | ⟨t, ht⟩ | ⟨hb, hg⟩
      · rw [Leads, Node.targets_builtin hb] at hw
        obtain ⟨rfl, -⟩ := mem_metadataTargets.mp hw
        exact trivial
      · have hkey := h.reachable_of_declared ht
        rw [Leads, Node.targets_declared ht] at hw
        rcases declaredTargets_cases hw with
          ⟨key', suffixed', rfl, href⟩ | ⟨base, rfl⟩ | rfl | ⟨rfl, hexperience⟩
        · exact Or.inl (.reference hkey ht href)
        · exact Or.inr ⟨base, rfl⟩
        · exact trivial
        · exact ⟨key, t, hkey, ht, hexperience⟩
      · simp [Leads, Node.targets, hb, hg] at hw
  | mediaMetadata => exact absurd hw List.not_mem_nil
  | experienceData =>
      obtain rfl := List.mem_singleton.mp hw
      exact h
  | compositionNode =>
      obtain rfl := List.mem_singleton.mp hw
      exact h
  | compositionComponent =>
      obtain ⟨key, t, hkey, ht, hexperience⟩ := h
      obtain ⟨key', hkey', rfl⟩ := List.mem_map.mp hw
      exact Or.inl (.composition hkey ht hexperience hkey')

theorem reached_of_needed {v : Node} (h : Needed ctx v) : Reached ctx v := by
  induction h with
  | refl => exact Or.inl .root
  | tail _ hw ih => exact ih.of_leads hw

theorem Reached.known {v : Node} (h : Reached ctx v) : v.Known (referencedKeys ctx) := by
  cases v with
  | type key suffixed =>
      exact mem_knownKeys.mpr (h.imp_left fun hkey => hkey.mem_referencedKeys)
  | mediaMetadata | experienceData | compositionNode | compositionComponent => exact trivial

theorem CollisionFree.namesDistinct (hfree : CollisionFree (referencedKeys ctx)) :
    NamesDistinct ctx :=
  fun _ _ hv hw => hfree.name_inj (reached_of_needed hv).known (reached_of_needed hw).known

theorem exists_needed_of_reachable {key : String} (h : Reachable ctx (Declared ctx) key) :
    ∃ suffixed, Needed ctx (.type key suffixed) := by
  induction h with
  | root => exact ⟨false, .refl⟩
  | reference _ ht hkey ih =>
      obtain ⟨suffixed, hneeded⟩ := ih
      exact ⟨_, hneeded.tail (leads_of_references ht hkey)⟩
  | @composition key key' t _ ht hexperience hkey ih =>
      obtain ⟨suffixed, hneeded⟩ := ih
      have hcomponent : Needed ctx .compositionComponent :=
        (hneeded.tail (leads_experienceData ht hexperience)).trans (reaches_compositionComponent ctx)
      exact ⟨false, hcomponent.tail (List.mem_map_of_mem hkey)⟩

section

variable {registry : Registry} {settings : Settings} {root : String} {c : Compilation}

theorem NamesDistinct.fragment?_of_name
    (hdistinct : NamesDistinct (contextOf registry settings root))
    (h : (compile registry settings root).value = .ok c) {w : Node}
    (hw : Needed (contextOf registry settings root) w) {f : Fragment} (hf : f ∈ c.fragments)
    (hname : f.name = w.name) : w.fragment? (contextOf registry settings root) = some f := by
  obtain ⟨v, hneeded, hv⟩ := exists_needed_of_mem h hf
  obtain rfl := hdistinct v w hneeded hw ((Node.name_of_fragment? hv).symm.trans hname)
  exact hv

/-- If no needed nodes share a name, then all of them have their fragments in a compilation. -/
theorem NamesDistinct.exists_mem_of_needed
    (hdistinct : NamesDistinct (contextOf registry settings root))
    (h : (compile registry settings root).value = .ok c) {w : Node}
    (hw : Needed (contextOf registry settings root) w) :
    ∃ f ∈ c.fragments, w.fragment? (contextOf registry settings root) = some f := by
  -- Along the path from the root each fragment is its node's own, so that its spreads are found.
  have hname : w.name ∈ c.fragments.map Fragment.name := by
    induction hw with
    | refl => simpa [Node.name] using root_mem_names h
    | tail hpath hleads ih =>
        obtain ⟨f, hf, hv⟩ := List.mem_map.mp ih
        exact name_mem_of_leads h hf (hdistinct.fragment?_of_name h hpath hf hv) hleads
  obtain ⟨f, hf, hfname⟩ := List.mem_map.mp hname
  exact ⟨f, hf, hdistinct.fragment?_of_name h hw hf hfname⟩

theorem NamesDistinct.mem_names_iff
    (hdistinct : NamesDistinct (contextOf registry settings root))
    (h : (compile registry settings root).value = .ok c) (name : String) :
    name ∈ c.fragments.map Fragment.name ↔
      ∃ v, Needed (contextOf registry settings root) v ∧ v.name = name := by
  constructor
  · intro hname
    obtain ⟨f, hf, rfl⟩ := List.mem_map.mp hname
    obtain ⟨v, hneeded, hv⟩ := exists_needed_of_mem h hf
    exact ⟨v, hneeded, (Node.name_of_fragment? hv).symm⟩
  · rintro ⟨v, hneeded, rfl⟩
    obtain ⟨f, hf, hv⟩ := hdistinct.exists_mem_of_needed h hneeded
    exact List.mem_map.mpr ⟨f, hf, Node.name_of_fragment? hv⟩

end

end ContentQuery.Compile
