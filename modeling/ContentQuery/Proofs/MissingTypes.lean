import ContentQuery.Proofs.References
import ContentQuery.Proofs.Termination

namespace ContentQuery.Compile

/-- The key is no tag, and no type is registered under it. -/
def Missing (registry : Registry) (key : String) : Prop :=
  builtin? key = none ∧ key ∉ registry.all.map ContentType.key

/-- The key is the root, or a reached type refers to it. -/
def Referred (ctx : Context) (key : String) : Prop :=
  key = ctx.root ∨ ∃ key' t suffixed, Reachable ctx (Declared ctx) key' ∧ Declared ctx key' t ∧
    (key, suffixed) ∈ references ctx t

/-- A walk fails at a missing type to which the nodes walked over lead. -/
theorem Fails.exists_path {ctx : Context} {depth : Nat} {vs : List Node} {visited : List String}
    {error : CompileError} (h : Fails ctx depth vs visited error) {name : String}
    (herror : error = .missingContentType name) :
    ∃ u ∈ vs, ∃ suffixed, Relation.ReflTransGen (Leads ctx) u (.type name suffixed) ∧
      builtin? name = none ∧ ctx.snapshot.get? name = none := by
  induction h with
  | unfinished => exact absurd herror (by simp)
  | @missing _ key suffixed _ _ _ hbuiltin hget =>
      obtain rfl := CompileError.missingContentType.inj herror
      exact ⟨.type key suffixed, List.mem_cons_self, suffixed, .refl, hbuiltin, hget⟩
  | @type _ key suffixed t _ _ _ _ ht _ ih =>
      obtain ⟨u, hu, suffixed', hpath, hmissing⟩ := ih herror
      have hleads : Leads ctx (.type key suffixed) u := by
        rw [Leads, Node.targets_declared ht]
        exact hu
      exact ⟨.type key suffixed, List.mem_cons_self, suffixed', .head hleads hpath, hmissing⟩
  | composition _ _ ih =>
      obtain ⟨u, hu, suffixed, hpath, hmissing⟩ := ih herror
      exact ⟨.experienceData, List.mem_cons_self, suffixed,
        (reaches_compositionComponent ctx).trans (.head hu hpath), hmissing⟩
  | later _ _ ih =>
      obtain ⟨u, hu, hpath⟩ := ih herror
      exact ⟨u, List.mem_cons_of_mem _ hu, hpath⟩

section

variable {registry : Registry} {settings : Settings} {root : String}

theorem missing_iff (settings : Settings) (root : String) {key : String} :
    Missing registry key ↔
      builtin? key = none ∧ (contextOf registry settings root).snapshot.get? key = none := by
  have hkeys : key ∈ (contextOf registry settings root).snapshot.types.map ContentType.key ↔
      key ∈ registry.all.map ContentType.key := Keyed.mem_map_lasts ContentType.key registry.all key
  rw [Missing, get?_eq_none_iff, hkeys]

theorem exists_needed_of_error {error : CompileError}
    (h : (compile registry settings root).value = .error error) :
    ∃ name suffixed, error = .missingContentType name ∧ Missing registry name ∧
      Needed (contextOf registry settings root) (.type name suffixed) := by
  obtain ⟨name, rfl⟩ := exists_missing_of_error h
  obtain ⟨u, hu, suffixed, hpath, hmissing⟩ := (fails_of_compile h).exists_path rfl
  obtain rfl := List.mem_singleton.mp hu
  exact ⟨name, suffixed, rfl, (missing_iff settings root).mpr hmissing, hpath⟩

theorem referred_of_needed {key : String} {suffixed : Bool} (hmissing : Missing registry key)
    (hneeded : Needed (contextOf registry settings root) (.type key suffixed)) :
    Referred (contextOf registry settings root) key := by
  rcases reached_of_needed hneeded with hreached | ⟨base, rfl⟩
  swap
  · exact absurd hmissing.1 (builtin?_tag_ne_none base)
  cases hreached with
  | root => exact Or.inl rfl
  | reference hkey ht href => exact Or.inr ⟨_, _, _, hkey, ht, href⟩
  | composition _ _ _ hkey =>
      have hget := ((missing_iff settings root).mp hmissing).2
      exact absurd (mem_types_of_mem_eligibleKeys hkey) (get?_eq_none_iff.mp hget)

theorem not_missing_of_reachable
    (hfree : CollisionFree (referencedKeys (contextOf registry settings root))) {c : Compilation}
    (h : (compile registry settings root).value = .ok c) {key : String}
    (hkey : Reachable (contextOf registry settings root)
      (Declared (contextOf registry settings root)) key) : ¬ Missing registry key := by
  intro hmissing
  obtain ⟨suffixed, hneeded⟩ := exists_needed_of_reachable hkey
  obtain ⟨f, -, hf⟩ := hfree.namesDistinct.exists_mem_of_needed h hneeded
  rw [Node.fragment?_type_eq_none_iff.mpr ((missing_iff settings root).mp hmissing)] at hf
  exact absurd hf (by simp)

theorem exists_ok_of_not_missing
    (hknown : ∀ key, Reachable (contextOf registry settings root)
      (Declared (contextOf registry settings root)) key → ¬ Missing registry key) :
    ∃ c, (compile registry settings root).value = .ok c := by
  cases h : (compile registry settings root).value with
  | ok c => exact ⟨c, rfl⟩
  | error error =>
      obtain ⟨name, suffixed, -, hmissing, hneeded⟩ := exists_needed_of_error h
      rcases reached_of_needed hneeded with hreached | ⟨base, rfl⟩
      · exact absurd hmissing (hknown name hreached)
      · exact absurd hmissing.1 (builtin?_tag_ne_none base)

/-- If no needed nodes share a name, then a compilation succeeds as soon as all have a fragment. -/
theorem NamesDistinct.exists_ok_iff
    (hdistinct : NamesDistinct (contextOf registry settings root)) :
    (∃ c, (compile registry settings root).value = .ok c) ↔
      ∀ v, Needed (contextOf registry settings root) v →
        v.fragment? (contextOf registry settings root) ≠ none := by
  constructor
  · rintro ⟨c, h⟩ v hneeded hnone
    obtain ⟨f, -, hf⟩ := hdistinct.exists_mem_of_needed h hneeded
    exact absurd (hf.symm.trans hnone) (by simp)
  · intro hfragments
    cases h : (compile registry settings root).value with
    | ok c => exact ⟨c, rfl⟩
    | error error =>
        obtain ⟨name, suffixed, -, hmissing, hneeded⟩ := exists_needed_of_error h
        exact absurd (Node.fragment?_type_eq_none_iff.mpr
          ((missing_iff settings root).mp hmissing)) (hfragments _ hneeded)

end

/-- Missing references fail, and only they do. An error names a missing key that is referred to,
and without collisions there is an error as soon as references reach a missing key. -/
theorem missing_types_fail (registry : Registry) (settings : Settings) (root : String) :
    (∀ error, (compile registry settings root).value = .error error →
      ∃ name, error = .missingContentType name ∧ Missing registry name ∧
        Referred (contextOf registry settings root) name) ∧
    (CollisionFree (referencedKeys (contextOf registry settings root)) →
      ∀ key, Reachable (contextOf registry settings root)
          (Declared (contextOf registry settings root)) key → Missing registry key →
        ∃ name, (compile registry settings root).value = .error (.missingContentType name)) := by
  constructor
  · intro error h
    obtain ⟨name, suffixed, rfl, hmissing, hneeded⟩ := exists_needed_of_error h
    exact ⟨name, rfl, hmissing, referred_of_needed hmissing hneeded⟩
  · intro hfree key hkey hmissing
    cases h : (compile registry settings root).value with
    | ok c => exact absurd hmissing (not_missing_of_reachable hfree h hkey)
    | error error =>
        obtain ⟨name, rfl⟩ := exists_missing_of_error h
        exact ⟨name, rfl⟩

/-- An experience whose composition may hold a teaser, which has slides of an undeclared type. -/
def slideTypes : ContentTypes :=
  .ofList [
    .ofKey "Landing" .experience,
    (ContentType.ofKey "Teaser" .component).withBehavior .elementEnabled
      |>.withProperty "slides" (.ofKind (.array (.ofKind (.component (.key "Slide")))))]

theorem missing_types_fail_slide :
    ∃ name, (compile slideTypes.registry .initial "Landing").value =
        .error (.missingContentType name) ∧
      Missing slideTypes.registry name ∧
        Referred (contextOf slideTypes.registry .initial "Landing") name := by
  have hcomposition : Reachable (contextOf slideTypes.registry .initial "Landing")
      (Declared (contextOf slideTypes.registry .initial "Landing")) "Teaser" :=
    .composition .root ⟨by decide, rfl⟩ rfl (by decide)
  have hslide : Reachable (contextOf slideTypes.registry .initial "Landing")
      (Declared (contextOf slideTypes.registry .initial "Landing")) "Slide" := by
    refine .reference hcomposition ⟨by decide, rfl⟩ (?_ : ("Slide", true) ∈ _)
    decide
  obtain ⟨name, herror⟩ := (missing_types_fail slideTypes.registry .initial "Landing").2
    (by decide) "Slide" hslide ⟨by decide, by decide⟩
  obtain ⟨name', hname, hmissing, hreferred⟩ :=
    (missing_types_fail slideTypes.registry .initial "Landing").1 _ herror
  exact ⟨name', hname ▸ herror, hmissing, hreferred⟩

/-- A card that holds images, and a declaration under the tag of images. -/
def taggedTypes : ContentTypes :=
  .ofList [
    (ContentType.ofKey "Card" .component).withProperty "picture"
      (.ofKind (.content (some [.key "_image"]) none)),
    (ContentType.ofKey "_image" .image).withProperty "hero"
      (.ofKind (.component (.key "Ghost")))]

/-- What a declaration under a tag refers to may be missing, although the tag is reached. -/
theorem tag_hides_declaration :
    ¬ ∀ (registry : Registry) (settings : Settings) (root : String),
      CollisionFree (referencedKeys (contextOf registry settings root)) →
      ∀ key, Reachable (contextOf registry settings root)
          (fun key t => (contextOf registry settings root).snapshot.get? key = some t) key →
        Missing registry key → ∃ error, (compile registry settings root).value = .error error := by
  intro h
  have hghost : Reachable (contextOf taggedTypes.registry .initial "Card")
      (fun key t => (contextOf taggedTypes.registry .initial "Card").snapshot.get? key = some t)
      "Ghost" := by
    have himage : ("_image", false) ∈ references (contextOf taggedTypes.registry .initial "Card")
        (taggedTypes.toList.head (by decide)) := by decide
    refine .reference (.reference .root rfl himage) rfl (?_ : ("Ghost", true) ∈ _)
    decide
  obtain ⟨error, herror⟩ := h taggedTypes.registry .initial "Card" (by decide) "Ghost" hghost
    ⟨by decide, by decide⟩
  obtain ⟨c, hc⟩ := exists_ok_of_isSome
    (show (compile taggedTypes.registry .initial "Card").value.toOption.isSome = true from rfl)
  exact absurd (herror.symm.trans hc) (by simp)

end ContentQuery.Compile
