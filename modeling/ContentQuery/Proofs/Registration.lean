import Mathlib.Data.Finset.Card
import ContentQuery.Command.Run
import ContentQuery.Proofs.Capture
import ContentQuery.Proofs.RoundTrip

namespace ContentQuery

namespace ContentTypes

/-- The declarations that a registry was filled with, in the order of registration: one after
another, as a whole list, or as a manifest has them. -/
inductive Registered : List ContentType → ContentTypes → Prop
  | empty : Registered [] .empty
  | register {declarations : List ContentType} {types : ContentTypes}
      (h : Registered declarations types) (t : ContentType) :
      Registered (declarations ++ [t]) (types.register t)
  | collected (declarations : List ContentType) : Registered declarations (.ofList declarations)
  | loaded {source : Source} {text : String} {declarations : List ContentType}
      {types : ContentTypes} (hparse : Manifest.parse text = .ok declarations)
      (hload : (load source (.ok text)).value = .ok types) : Registered declarations types

/-- No later declaration has the key of this one. -/
def IsLast (t : ContentType) (declarations : List ContentType) : Prop :=
  ∃ before after, declarations = before ++ t :: after ∧ t.key ∉ after.map ContentType.key

/-- Whether a key was registered for the first time before another one was. -/
def FirstBefore (declarations : List ContentType) (key key' : String) : Prop :=
  (declarations.map ContentType.key).idxOf key < (declarations.map ContentType.key).idxOf key'

/-- What a registry tells of the declarations that were registered in it. -/
structure Faithful (declarations : List ContentType) (types : ContentTypes) : Prop where
  distinct : types.keys.Nodup
  inOrder : types.keys.Pairwise (FirstBefore declarations)
  mem_keys : ∀ key, key ∈ types.keys ↔ key ∈ declarations.map ContentType.key
  get? : ∀ key t, types.get? key = some t ↔ t.key = key ∧ IsLast t declarations
  size : types.size = (declarations.map ContentType.key).toFinset.card
  ofBase_sublist : ∀ base, (types.registry.ofBase base).Sublist types.registry.all
  mem_ofBase : ∀ base t,
    t ∈ types.registry.ofBase base ↔ t ∈ types.registry.all ∧ t.baseType = base
  ofBase_perm : (BaseType.all.flatMap types.registry.ofBase).Perm types.registry.all
  mediaKeys_sublist : types.registry.mediaKeys.Sublist types.keys
  mem_mediaKeys : ∀ key, key ∈ types.registry.mediaKeys ↔
    ∃ t, types.get? key = some t ∧
      (t.baseType = .image ∨ t.baseType = .video ∨ t.baseType = .media)

/-- A snapshot answers like the registry. -/
structure Mirrors (snapshot : Snapshot) (types : ContentTypes) : Prop where
  all : snapshot.registry.all = types.registry.all
  find? : snapshot.registry.find? = types.registry.find?
  get? : snapshot.get? = types.get?
  ofBase : snapshot.registry.ofBase = types.registry.ofBase
  mediaKeys : snapshot.registry.mediaKeys = types.registry.mediaKeys
  mediaBase? : ∀ key base, snapshot.mediaBase? key = some base ↔
    (∃ t, types.get? key = some t ∧ t.baseType = base) ∧
      (base = .image ∨ base = .video ∨ base = .media)

end ContentTypes

theorem BaseType.isMedia_iff (base : BaseType) :
    base.isMedia = true ↔ base = .image ∨ base = .video ∨ base = .media := by
  cases base <;> decide

namespace Keyed

variable {α κ : Type} [DecidableEq κ]

theorem find?_lasts_eq_some_iff (key : α → κ) {k : κ} {x : α} {xs : List α} :
    find? key k (lasts key xs) = some x ↔
      key x = k ∧ ∃ before after, xs = before ++ x :: after ∧ key x ∉ after.map key := by
  constructor
  · intro hfind
    obtain ⟨hmem, hkey⟩ := mem_of_find? key hfind
    exact ⟨hkey, exists_append_of_mem_lasts key hmem⟩
  · rintro ⟨rfl, before, after, rfl, hafter⟩
    have hnone : find? key (key x) after.reverse = none := by
      rw [find?_eq_none_iff]
      simpa using hafter
    rw [find?_lasts, find?, List.reverse_append, List.reverse_cons, List.append_assoc,
      List.find?_append]
    rw [find?] at hnone
    simp [hnone]

theorem pairwise_idxOf_eraseDups [DecidableEq α] (xs : List α) :
    xs.eraseDups.Pairwise fun x y => xs.idxOf x < xs.idxOf y := by
  induction xs using List.reverseRecOn with
  | nil => exact List.Pairwise.nil
  | append_singleton xs x ih =>
      -- The places of values that were there before stay the same.
      have hold : xs.eraseDups.Pairwise fun y z => (xs ++ [x]).idxOf y < (xs ++ [x]).idxOf z := by
        refine ih.imp_of_mem fun {y z} hy hz hlt => ?_
        rwa [List.idxOf_append_of_mem (List.mem_eraseDups.mp hy),
          List.idxOf_append_of_mem (List.mem_eraseDups.mp hz)]
      rw [List.eraseDups_append]
      by_cases hx : x ∈ xs
      · simpa [List.removeAll, hx] using hold
      · have hsingleton : ([x].removeAll xs).eraseDups = [x] := by
          simp [List.removeAll, hx]
          rfl
        rw [hsingleton, List.pairwise_append]
        refine ⟨hold, List.pairwise_singleton _ x, fun y hy z hz => ?_⟩
        obtain rfl := List.mem_singleton.mp hz
        have hmem := List.mem_eraseDups.mp hy
        rw [List.idxOf_append_of_mem hmem, List.idxOf_append_of_notMem hx]
        exact (List.idxOf_lt_length_of_mem hmem).trans_le (Nat.le_add_right _ _)

end Keyed

namespace ContentTypes

variable {declarations : List ContentType} {types : ContentTypes}

/-- In whatever way declarations are registered, the last of each key is kept. -/
theorem Registered.toList_eq (h : Registered declarations types) :
    types.toList = Keyed.lasts ContentType.key declarations := by
  induction h with
  | empty => rfl
  | register h t ih =>
      rw [Keyed.lasts_concat, ← ih]
      rfl
  | collected declarations => exact toList_ofList declarations
  | loaded hparse hload =>
      simp only [load, hparse, Except.ok.injEq] at hload
      rw [← hload, toList_ofList]

theorem Registered.keys_eq (h : Registered declarations types) :
    types.keys = (declarations.map ContentType.key).eraseDups := by
  rw [keys, h.toList_eq, Keyed.map_lasts]

theorem Registered.distinct (h : Registered declarations types) : types.keys.Nodup := by
  rw [keys, h.toList_eq]
  exact Keyed.nodup_map_lasts ContentType.key declarations

theorem Registered.get?_iff (h : Registered declarations types) {key : String} {t : ContentType} :
    types.get? key = some t ↔ t.key = key ∧ IsLast t declarations := by
  rw [ContentTypes.get?, h.toList_eq, Keyed.find?_lasts_eq_some_iff, IsLast]

theorem Registered.size_eq (h : Registered declarations types) :
    types.size = (declarations.map ContentType.key).toFinset.card := by
  have hset : (declarations.map ContentType.key).toFinset = types.keys.toFinset := by
    ext key
    rw [List.mem_toFinset, List.mem_toFinset, h.keys_eq, List.mem_eraseDups]
  rw [hset, List.toFinset_card_of_nodup h.distinct, keys, List.length_map, size]

theorem ofBase_perm (h : types.keys.Nodup) :
    (BaseType.all.flatMap types.registry.ofBase).Perm types.registry.all := by
  have hall : types.registry.all.Nodup := h.of_map
  rw [List.perm_ext_iff_of_nodup ?_ hall]
  · intro t
    simp only [List.mem_flatMap, registry, List.mem_filter, decide_eq_true_eq]
    constructor
    · rintro ⟨_, -, ht, -⟩
      exact ht
    · exact fun ht => ⟨t.baseType, BaseType.mem_all t.baseType, ht, rfl⟩
  · rw [List.nodup_flatMap]
    refine ⟨fun base _ => hall.filter _, ?_⟩
    have hbases : BaseType.all.Nodup := by decide
    refine hbases.imp fun {base base'} hne t ht ht' => hne ?_
    simp only [registry, List.mem_filter, decide_eq_true_eq] at ht ht'
    exact ht.2.symm.trans ht'.2

theorem get?_eq_some_iff_mem (h : types.keys.Nodup) {key : String} {t : ContentType} :
    types.get? key = some t ↔ t ∈ types.toList ∧ t.key = key :=
  Keyed.find?_eq_some_iff ContentType.key h

theorem mem_mediaKeys_iff (h : types.keys.Nodup) {key : String} :
    key ∈ types.registry.mediaKeys ↔ ∃ t, types.get? key = some t ∧ t.baseType.isMedia = true := by
  simp only [registry, List.mem_map, List.mem_filter, get?_eq_some_iff_mem h]
  exact exists_congr fun t => by tauto

theorem Registered.faithful (h : Registered declarations types) : Faithful declarations types where
  distinct := h.distinct
  inOrder := by
    rw [h.keys_eq]
    exact Keyed.pairwise_idxOf_eraseDups _
  mem_keys key := by rw [h.keys_eq, List.mem_eraseDups]
  get? _ _ := h.get?_iff
  size := h.size_eq
  ofBase_sublist _ := List.filter_sublist
  mem_ofBase base t := by simp [registry]
  ofBase_perm := ofBase_perm h.distinct
  mediaKeys_sublist := List.filter_sublist.map ContentType.key
  mem_mediaKeys key := by
    rw [mem_mediaKeys_iff h.distinct]
    simp only [BaseType.isMedia_iff]

theorem capture_registry (h : types.keys.Nodup) :
    Snapshot.capture types.registry = ⟨types.toList, types.registry.mediaKeys⟩ := by
  have hmedia : types.registry.mediaKeys.Nodup := h.sublist (List.filter_sublist.map ContentType.key)
  have htypes : Keyed.lasts ContentType.key types.toList = types.toList := Keyed.lasts_of_nodup _ h
  have hkeys : Keyed.firsts id types.registry.mediaKeys = types.registry.mediaKeys :=
    Keyed.firsts_of_nodup id (by simpa using hmedia)
  rw [Snapshot.capture, hkeys, registry, htypes]

theorem mirrors_capture (h : types.keys.Nodup) :
    Mirrors (Snapshot.capture types.registry) types := by
  rw [capture_registry h]
  refine ⟨rfl, rfl, rfl, rfl, rfl, fun key base => ?_⟩
  rw [← BaseType.isMedia_iff]
  constructor
  · intro hbase
    unfold Snapshot.mediaBase? at hbase
    split at hbase
    · rename_i hmem
      obtain ⟨t, ht, rfl⟩ := Option.map_eq_some_iff.mp hbase
      obtain ⟨t', ht', hmedia⟩ := (mem_mediaKeys_iff h).mp hmem
      obtain rfl : t = t' := Option.some.inj (ht.symm.trans ht')
      exact ⟨⟨t, ht, rfl⟩, hmedia⟩
    · contradiction
  · rintro ⟨⟨t, ht, rfl⟩, hmedia⟩
    rw [Snapshot.mediaBase?, if_pos ((mem_mediaKeys_iff h).mpr ⟨t, ht, hmedia⟩)]
    exact Option.map_eq_some_iff.mpr ⟨t, ht, rfl⟩

/-- However a registry was filled, its keys stand where they were first registered, and under each
of them is the declaration that was registered last. The lists of base types split up all types, and
the media are the keys whose last declaration is one. A snapshot that is captured then answers the
same. -/
theorem registered_faithful (h : Registered declarations types) :
    Faithful declarations types ∧ Mirrors (Snapshot.capture types.registry) types :=
  ⟨h.faithful, mirrors_capture h.distinct⟩

/-- Declarations of a manifest, one of which is made again as another kind of media. -/
def albumTypes : List ContentType := [.ofKey "Photo" .image, .ofKey "Album" .page]

theorem registered_faithful_album :
    ∃ types, (load .standardInput (.ok (Manifest.writeAll albumTypes))).value = .ok types ∧
      Registered (albumTypes ++ [.ofKey "Photo" .video])
        (types.register (.ofKey "Photo" .video)) ∧
      (types.register (.ofKey "Photo" .video)).size = 2 ∧
      (types.register (.ofKey "Photo" .video)).get? "Photo" = some (.ofKey "Photo" .video) ∧
      (Snapshot.capture (types.register (.ofKey "Photo" .video)).registry).mediaBase? "Photo" =
        some .video := by
  have hparse : Manifest.parse (Manifest.writeAll albumTypes) = .ok albumTypes :=
    Manifest.parse_text (by decide) (by decide)
  have hload : (load .standardInput (.ok (Manifest.writeAll albumTypes))).value =
      .ok (.ofList albumTypes) := by
    simp only [load, hparse]
  have hregistered : Registered (albumTypes ++ [.ofKey "Photo" .video]) _ :=
    (Registered.loaded hparse hload).register (.ofKey "Photo" .video)
  obtain ⟨hfaithful, hmirrors⟩ := registered_faithful hregistered
  have hphoto : ((ofList albumTypes).register (.ofKey "Photo" .video)).get? "Photo" =
      some (.ofKey "Photo" .video) :=
    (hfaithful.get? _ _).mpr ⟨rfl, albumTypes, [], rfl, by decide⟩
  refine ⟨_, hload, hregistered, ?_, hphoto, ?_⟩
  · rw [hfaithful.size]
    decide
  · exact (hmirrors.mediaBase? _ _).mpr ⟨⟨_, hphoto, rfl⟩, by decide⟩

end ContentTypes

end ContentQuery
