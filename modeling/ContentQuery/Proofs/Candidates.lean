import ContentQuery.Candidates
import ContentQuery.Proofs.Keyed

namespace ContentQuery.Candidates

/-- What an allowed entry stands for. -/
def expansion (registry : Registry) (entry : String) : List String :=
  match builtin? entry with
  | none => [entry]
  | some base => keysOf registry base ++ if base.isAbstract then [] else [entry]

/-- The allowed entries. Without any every registered type is one. -/
def baseline (registry : Registry) (allowed : List String) : List String :=
  if allowed.isEmpty then registry.all.map ContentType.key else allowed

variable {registry : Registry} {allowed restricted : List String} {key : String}

theorem emit_eq (skip emitted : List String) (key : String) :
    emit skip emitted key =
      if decide (key ∉ skip) = true then Keyed.putNew id key emitted else emitted := by
  unfold emit
  by_cases hskip : key ∈ skip
  · simp [hskip]
  by_cases hemitted : key ∈ emitted
  · rw [Keyed.putNew_of_mem id key emitted (by simpa using hemitted)]
    simp [hskip, hemitted]
  · rw [Keyed.putNew_of_not_mem id key emitted (by simpa using hemitted)]
    simp [hskip, hemitted]

theorem emitEntry_eq (registry : Registry) (skip emitted : List String) (entry : String) :
    emitEntry registry skip emitted entry =
      (expansion registry entry).foldl (emit skip) emitted := by
  unfold emitEntry expansion
  cases builtin? entry with
  | none => rfl
  | some base => cases habstract : base.isAbstract <;> simp [habstract]

theorem resolve_eq_firsts (registry : Registry) (allowed restricted : List String) :
    resolve registry allowed restricted =
      Keyed.firsts id (((baseline registry allowed).flatMap (expansion registry)).filter
        (· ∉ skipped registry restricted)) := by
  have hentry : emitEntry registry (skipped registry restricted) = fun emitted entry =>
      (expansion registry entry).foldl (emit (skipped registry restricted)) emitted := by
    funext emitted entry
    exact emitEntry_eq registry _ emitted entry
  have hemit : emit (skipped registry restricted) = fun emitted key =>
      if decide (key ∉ skipped registry restricted) = true
        then Keyed.putNew id key emitted else emitted := by
    funext emitted key
    exact emit_eq _ emitted key
  calc resolve registry allowed restricted
    _ = (baseline registry allowed).foldl
          (emitEntry registry (skipped registry restricted)) [] := rfl
    _ = ((baseline registry allowed).flatMap (expansion registry)).foldl
          (emit (skipped registry restricted)) [] := by
        rw [hentry, List.foldl_flatMap]
    _ = _ := by
        rw [hemit, Keyed.firsts, List.foldl_filter]

theorem resolve_congr {registry' : Registry}
    (hkeys : registry.all.map ContentType.key = registry'.all.map ContentType.key)
    (hbases : ∀ base, keysOf registry base = keysOf registry' base) :
    resolve registry = resolve registry' := by
  have hskipped : skipped registry = skipped registry' := by
    funext restricted
    simp only [skipped, hbases]
  have hentry : emitEntry registry = emitEntry registry' := by
    funext skip emitted entry
    simp only [emitEntry, hbases]
  funext allowed restricted
  rw [resolve, resolve, hkeys, hskipped, hentry]

theorem mem_resolve :
    key ∈ resolve registry allowed restricted ↔
      key ∉ skipped registry restricted ∧
        ∃ entry ∈ baseline registry allowed, key ∈ expansion registry entry := by
  rw [resolve_eq_firsts, Keyed.mem_firsts_id, List.mem_filter, List.mem_flatMap]
  simp only [decide_eq_true_eq, and_comm]

theorem mem_skipped :
    key ∈ skipped registry restricted ↔
      ∃ entry ∈ restricted, key = entry ∨
        ∃ base, builtin? entry = some base ∧ key ∈ keysOf registry base := by
  unfold skipped
  rw [List.mem_flatMap]
  refine exists_congr fun entry => and_congr_right fun _ => ?_
  cases builtin? entry <;> simp

theorem mem_expansion {entry : String} :
    key ∈ expansion registry entry ↔
      (key = entry ∧ ∀ base, builtin? entry = some base → base.isAbstract = false) ∨
        ∃ base, builtin? entry = some base ∧ key ∈ keysOf registry base := by
  unfold expansion
  cases builtin? entry with
  | none => simp
  | some base => cases habstract : base.isAbstract <;> simp [habstract, or_comm]

theorem builtin?_eq_ofTag? (entry : String) : builtin? entry = BaseType.ofTag? entry := by
  unfold builtin?
  split
  · rfl
  · rename_i htag
    refine (List.find?_eq_none.mpr fun base _ hbase => htag ?_).symm
    rw [← of_decide_eq_true hbase]
    cases base <;> decide

/-- The types of a base type are looked up among all types. -/
def LooksThroughAll (registry : Registry) : Prop :=
  ∀ base, registry.ofBase base = registry.all.filter fun t => t.baseType = base

def keysOfBase (types : List ContentType) (base : BaseType) : List String :=
  (types.filter fun t => t.baseType = base).map ContentType.key

/-- The base types whose tags are no candidates themselves. -/
def structuralBases : List BaseType := [.component, .experience, .sectionType]

/-- What an entry stands for among the given types. -/
def standsFor (types : List ContentType) (entry : String) : List String :=
  match BaseType.ofTag? entry with
  | none => [entry]
  | some base => keysOfBase types base ++ if base ∈ structuralBases then [] else [entry]

/-- The restricted entries, and the keys of the types whose base types they name. -/
def takenAway (types : List ContentType) (restricted : List String) : List String :=
  restricted ++ (restricted.filterMap BaseType.ofTag?).flatMap (keysOfBase types)

theorem isAbstract_eq (base : BaseType) : base.isAbstract = decide (base ∈ structuralBases) := by
  cases base <;> decide

theorem LooksThroughAll.keysOf_eq (h : LooksThroughAll registry) (base : BaseType) :
    keysOf registry base = keysOfBase registry.all base :=
  congrArg (List.map ContentType.key) (h base)

theorem LooksThroughAll.expansion_eq (h : LooksThroughAll registry) (entry : String) :
    expansion registry entry = standsFor registry.all entry := by
  unfold expansion standsFor
  rw [builtin?_eq_ofTag?]
  cases BaseType.ofTag? entry with
  | none => rfl
  | some base => simp only [h.keysOf_eq, isAbstract_eq, decide_eq_true_eq]

theorem LooksThroughAll.mem_skipped_iff (h : LooksThroughAll registry) :
    key ∈ skipped registry restricted ↔ key ∈ takenAway registry.all restricted := by
  rw [takenAway, mem_skipped, List.mem_append, List.mem_flatMap]
  simp only [List.mem_filterMap, builtin?_eq_ofTag?, h.keysOf_eq]
  constructor
  · rintro ⟨entry, hentry, rfl | ⟨base, hbase, hkey⟩⟩
    · exact Or.inl hentry
    · exact Or.inr ⟨base, ⟨entry, hentry, hbase⟩, hkey⟩
  · rintro (hentry | ⟨base, ⟨entry, hentry, hbase⟩, hkey⟩)
    · exact ⟨key, hentry, Or.inl rfl⟩
    · exact ⟨entry, hentry, Or.inr ⟨base, hbase, hkey⟩⟩

/-- The candidates are what the allowed entries stand for, or all registered keys if there are none,
without the keys that the restricted entries take away, and each key where it comes first. -/
theorem resolve_eq_eraseDups {registry : Registry} (hall : LooksThroughAll registry)
    (allowed restricted : List String) :
    resolve registry allowed restricted =
      (((if allowed = [] then registry.all.map ContentType.key else allowed).flatMap
        (standsFor registry.all)).filter
          (· ∉ takenAway registry.all restricted)).eraseDups := by
  have hbaseline : baseline registry allowed =
      if allowed = [] then registry.all.map ContentType.key else allowed := by
    simp only [baseline, List.isEmpty_iff]
  have hexpansion : expansion registry = standsFor registry.all := funext hall.expansion_eq
  rw [resolve_eq_firsts, Keyed.firsts_id_eq_eraseDups, hbaseline, hexpansion]
  simp only [hall.mem_skipped_iff]

/-- Types of which one is listed twice, as an image and as a video. -/
def mediaLibrary : Registry where
  all := [.ofKey "Photo" .image, .ofKey "Clip" .video, .ofKey "Card" .component,
    .ofKey "Scan" .image, .ofKey "Photo" .video]
  find? := fun _ => none

theorem resolve_eq_eraseDups_mediaLibrary :
    LooksThroughAll mediaLibrary ∧
      resolve mediaLibrary ["Scan", "_video", "_component", "_sound", "_image", "Ghost", "Scan"]
          ["_image", "Ghost"] = ["Clip", "_video", "Card", "_sound"] := by
  have hall : LooksThroughAll mediaLibrary := fun _ => rfl
  refine ⟨hall, ?_⟩
  rw [resolve_eq_eraseDups hall]
  decide

/-- Restricted entries take a key away that is one of them, and the keys of the types whose tags
are among them. -/
def TakesAway (types : List ContentType) (restricted : List String) (key : String) : Prop :=
  key ∈ restricted ∨ ∃ t ∈ types, t.key = key ∧ t.baseType.tag ∈ restricted

instance (types : List ContentType) (restricted : List String) :
    DecidablePred (TakesAway types restricted) :=
  fun _ => inferInstanceAs (Decidable (_ ∨ _))

theorem ofTag?_eq_some_iff {entry : String} {base : BaseType} :
    BaseType.ofTag? entry = some base ↔ entry = base.tag := by
  constructor
  · intro h
    have htag := List.find?_some h
    exact (of_decide_eq_true htag).symm
  · rintro rfl
    exact BaseType.ofTag?_tag base

theorem mem_takenAway {types : List ContentType} :
    key ∈ takenAway types restricted ↔ TakesAway types restricted key := by
  rw [takenAway, List.mem_append, List.mem_flatMap, TakesAway]
  refine or_congr_right ?_
  simp only [List.mem_filterMap, ofTag?_eq_some_iff, keysOfBase, List.mem_map, List.mem_filter,
    decide_eq_true_eq]
  constructor
  · rintro ⟨base, ⟨entry, hentry, rfl⟩, t, ⟨ht, rfl⟩, rfl⟩
    exact ⟨t, ht, rfl, hentry⟩
  · rintro ⟨t, ht, rfl, htag⟩
    exact ⟨t.baseType, ⟨_, htag, rfl⟩, t, ⟨ht, rfl⟩, rfl⟩

theorem takesAway_append {types : List ContentType} (restricted' : List String) :
    TakesAway types (restricted ++ restricted') key ↔
      TakesAway types restricted key ∨ TakesAway types restricted' key := by
  simp only [TakesAway, List.mem_append, and_or_left, exists_or, or_or_or_comm]

/-- What is taken away is taken away last, after the repeated keys are dropped. -/
theorem LooksThroughAll.resolve_eq (h : LooksThroughAll registry)
    (allowed restricted : List String) :
    resolve registry allowed restricted =
      ((baseline registry allowed).flatMap (expansion registry)).eraseDups.filter
        (¬TakesAway registry.all restricted ·) := by
  rw [resolve_eq_firsts, Keyed.firsts_id_eq_eraseDups, Keyed.eraseDups_filter]
  simp only [h.mem_skipped_iff, mem_takenAway]

theorem LooksThroughAll.resolve_append_restricted (h : LooksThroughAll registry)
    (allowed restricted restricted' : List String) :
    resolve registry allowed (restricted ++ restricted') =
      (resolve registry allowed restricted).filter (¬TakesAway registry.all restricted' ·) := by
  rw [h.resolve_eq, h.resolve_eq, List.filter_filter]
  refine List.filter_congr fun key _ => ?_
  rw [← Bool.decide_and, decide_eq_decide, takesAway_append, not_or, and_comm]

theorem resolve_append_allowed {allowed allowed' : List String} (h : allowed ≠ [])
    (h' : allowed' ≠ []) (restricted : List String) :
    resolve registry (allowed ++ allowed') restricted =
      resolve registry allowed restricted ++ (resolve registry allowed' restricted).filter
        (· ∉ resolve registry allowed restricted) := by
  have hbaseline : baseline registry (allowed ++ allowed') =
      baseline registry allowed ++ baseline registry allowed' := by
    simp [baseline, h, h']
  simp only [resolve_eq_firsts, Keyed.firsts_id_eq_eraseDups]
  rw [hbaseline, List.flatMap_append, List.filter_append, Keyed.eraseDups_append_eq]

/-- Candidates compose. Further restricted entries take out what they take away and keep the order
of the rest, so that neither their order nor their repetition matters. Further allowed entries add
those of their own candidates that are not there yet. -/
theorem candidates_compose {registry : Registry} (hall : LooksThroughAll registry) :
    (∀ allowed restricted restricted',
        resolve registry allowed (restricted ++ restricted') =
            (resolve registry allowed restricted).filter
              (¬TakesAway registry.all restricted' ·) ∧
          resolve registry allowed (restricted ++ restricted') =
            resolve registry allowed (restricted' ++ restricted) ∧
          resolve registry allowed (restricted ++ restricted) =
            resolve registry allowed restricted ∧
          (resolve registry allowed (restricted ++ restricted')).Sublist
            (resolve registry allowed restricted)) ∧
      ∀ allowed allowed' restricted, allowed ≠ [] → allowed' ≠ [] →
        resolve registry (allowed ++ allowed') restricted =
          resolve registry allowed restricted ++ (resolve registry allowed' restricted).filter
            (· ∉ resolve registry allowed restricted) := by
  constructor
  · intro allowed restricted restricted'
    refine ⟨hall.resolve_append_restricted allowed restricted restricted', ?_, ?_, ?_⟩
    · rw [hall.resolve_eq, hall.resolve_eq]
      simp only [takesAway_append, or_comm]
    · rw [hall.resolve_eq, hall.resolve_eq]
      simp only [takesAway_append, or_self]
    · rw [hall.resolve_append_restricted]
      exact List.filter_sublist
  · intro allowed allowed' restricted h h'
    exact resolve_append_allowed h h' restricted

/-- The images are named on their own and by their tag, and taken out by the tag alone. -/
theorem candidates_compose_mediaLibrary :
    LooksThroughAll mediaLibrary ∧
      resolve mediaLibrary (["Scan", "_video"] ++ ["_image", "Ghost", "Clip"]) ["Ghost"] =
        ["Scan", "Clip", "Photo", "_video", "_image"] ∧
      resolve mediaLibrary (["Scan", "_video"] ++ ["_image", "Ghost", "Clip"])
        (["Ghost"] ++ ["_image"]) = ["Clip", "_video"] := by
  have hall : LooksThroughAll mediaLibrary := fun _ => rfl
  obtain ⟨hrestricted, hallowed⟩ := candidates_compose hall
  have hresolve : resolve mediaLibrary (["Scan", "_video"] ++ ["_image", "Ghost", "Clip"])
      ["Ghost"] = ["Scan", "Clip", "Photo", "_video", "_image"] := by
    rw [hallowed _ _ _ (by decide) (by decide)]
    decide
  refine ⟨hall, hresolve, ?_⟩
  rw [(hrestricted _ _ _).1, hresolve]
  decide

end ContentQuery.Candidates
