import ContentQuery.Proofs.Accounting
import ContentQuery.Proofs.References

namespace ContentQuery.Compile

/-- The key of a type and the name of a property, with a separator that may stand in both. -/
def responseKey (key name : String) : String := key ++ "__" ++ name

/-- The names of the properties that a type selects under aliases. -/
def aliasedNames (t : ContentType) : List String :=
  if t.baseType.isComponentHierarchy then [] else (enabled t.properties).map Prod.fst

/-- The response keys of a type's aliased fields. -/
def responseKeys (t : ContentType) : List String := (aliasedNames t).map (responseKey t.key)

/-- Fragments of different types have no aliases in common. -/
def AliasesApart (ctx : Context) (fragments : List Fragment) : Prop :=
  ∀ f ∈ fragments, ∀ g ∈ fragments, ∀ t u, MadeFor ctx t f → MadeFor ctx u g → t ≠ u →
    ∀ k ∈ responseKeys t, k ∉ responseKeys u

/-- The first key is the second one and more, and what comes after it begins like the separator, so
that the first response key can be read as one of the second key. -/
inductive Overlaps : (key name key' name' : String) → Prop
  | half (key name : String) : Overlaps (key ++ "_") name key ("_" ++ name)
  | whole (key part name : String) :
      Overlaps (key ++ "__" ++ part) name key (part ++ "__" ++ name)

/-- No two types that the fragments are made for overlap. -/
def NoOverlaps (ctx : Context) (fragments : List Fragment) : Prop :=
  ∀ f ∈ fragments, ∀ g ∈ fragments, ∀ t u, MadeFor ctx t f → MadeFor ctx u g →
    ∀ name ∈ aliasedNames t, ∀ name' ∈ aliasedNames u, ¬ Overlaps t.key name u.key name'

section

variable {key name key' name' : String}

theorem Overlaps.responseKey_eq (h : Overlaps key name key' name') :
    responseKey key name = responseKey key' name' := by
  cases h with
  | half =>
      have hseparator : "_" ++ "__" = "__" ++ "_" := rfl
      calc key' ++ "_" ++ "__" ++ name = key' ++ ("_" ++ "__") ++ name :=
            congrArg (· ++ name) String.append_assoc
        _ = key' ++ ("__" ++ "_") ++ name := by rw [hseparator]
        _ = key' ++ "__" ++ "_" ++ name := congrArg (· ++ name) String.append_assoc.symm
        _ = key' ++ "__" ++ ("_" ++ name) := String.append_assoc
  | whole => simp only [responseKey, String.append_assoc]

theorem Overlaps.exists_underscore (h : Overlaps key name key' name') :
    ∃ rest, key = key' ++ "_" ++ rest := by
  cases h with
  | half => exact ⟨"", String.append_empty.symm⟩
  | whole _ part =>
      have hseparator : "__" = "_" ++ "_" := rfl
      exact ⟨"_" ++ part, by rw [hseparator]; simp only [String.append_assoc]⟩

theorem Overlaps.key_ne (h : Overlaps key name key' name') : key ≠ key' := by
  obtain ⟨rest, rfl⟩ := h.exists_underscore
  intro hkey
  have hlength := congrArg String.length hkey
  simp only [String.length_append] at hlength
  have hunderscore : "_".length = 1 := rfl
  omega

theorem overlaps_of_append {rest : List Char} (hne : rest ≠ [])
    (hkey : key.toList = key'.toList ++ rest)
    (hrest : '_' :: '_' :: name'.toList = rest ++ '_' :: '_' :: name.toList) :
    Overlaps key name key' name' := by
  have hsep : "__".toList = ['_', '_'] := rfl
  cases rest with
  | nil => exact absurd rfl hne
  | cons c rest =>
      simp only [List.cons_append, List.cons.injEq] at hrest
      obtain ⟨rfl, hrest⟩ := hrest
      cases rest with
      | nil =>
          simp only [List.nil_append, List.cons.injEq, true_and] at hrest
          have hname : name' = "_" ++ name :=
            String.toList_inj.mp (by rw [String.toList_append]; exact hrest)
          have hlonger : key = key' ++ "_" :=
            String.toList_inj.mp (by rw [String.toList_append]; exact hkey)
          rw [hname, hlonger]
          exact .half key' name
      | cons c part =>
          simp only [List.cons_append, List.cons.injEq] at hrest
          obtain ⟨rfl, hrest⟩ := hrest
          have hname : name' = String.ofList part ++ "__" ++ name :=
            String.toList_inj.mp (by simp [String.toList_append, hsep, hrest])
          have hlonger : key = key' ++ "__" ++ String.ofList part :=
            String.toList_inj.mp (by simp [String.toList_append, hsep, hkey])
          rw [hname, hlonger]
          exact .whole key' (String.ofList part) name

/-- Different keys make the same response key exactly if one of them overlaps the other. -/
theorem responseKey_eq_iff (hne : key ≠ key') :
    responseKey key name = responseKey key' name' ↔
      Overlaps key name key' name' ∨ Overlaps key' name' key name := by
  have hsep : "__".toList = ['_', '_'] := rfl
  constructor
  · intro h
    have hlist := congrArg String.toList h
    simp only [responseKey, String.toList_append, hsep, List.append_assoc, List.cons_append,
      List.nil_append] at hlist
    rcases List.append_eq_append_iff.mp hlist with ⟨rest, hkey, hrest⟩ | ⟨rest, hkey, hrest⟩
    · refine Or.inr (overlaps_of_append ?_ hkey hrest)
      rintro rfl
      exact hne (String.toList_inj.mp (by simpa using hkey.symm))
    · refine Or.inl (overlaps_of_append ?_ hkey hrest)
      rintro rfl
      exact hne (String.toList_inj.mp (by simpa using hkey))
  · rintro (h | h)
    · exact h.responseKey_eq
    · exact h.responseKey_eq.symm

end

variable {ctx : Context} {t u : ContentType} {f g : Fragment}

theorem MadeFor.key_inj (hf : MadeFor ctx t f) (hg : MadeFor ctx u g) (h : t.key = u.key) :
    t = u := by
  obtain ⟨key, _, ht, -⟩ := hf
  obtain ⟨key', _, hu, -⟩ := hg
  obtain rfl : key = key' := ht.key_eq.symm.trans (h.trans hu.key_eq)
  exact Option.some.inj (ht.2.symm.trans hu.2)

theorem MadeFor.body_eq (hf : MadeFor ctx t f) : f.body = declaredBody ctx t := by
  obtain ⟨key, suffixed, ht, hkey⟩ := hf
  rw [Node.fragment?_declared ht] at hkey
  rw [← Option.some.inj hkey]

theorem MadeFor.responseKey_written (hf : MadeFor ctx t f) {k : String}
    (hk : k ∈ responseKeys t) : ∃ field, (k ++ ": " ++ field).toList <:+: f.body.toList := by
  obtain ⟨name, hname, rfl⟩ := List.mem_map.mp hk
  unfold aliasedNames at hname
  split at hname
  · exact absurd hname List.not_mem_nil
  · rename_i hplain
    obtain ⟨property, hproperty, rfl⟩ := List.mem_map.mp hname
    have haliased : responseKey t.key property.1 ++ ": " ++ field ctx property.1 property.2.kind =
        aliased t property.1 (field ctx property.1 property.2.kind) := (if_neg hplain).symm
    have hfield : aliased t property.1 (field ctx property.1 property.2.kind) ∈
        fields ctx t t.properties := List.mem_map_of_mem hproperty
    refine ⟨field ctx property.1 property.2.kind, ?_⟩
    rw [hf.body_eq, haliased, declaredBody]
    exact infix_typedBody (Keyed.mem_firsts_id.mpr
      (List.mem_append_left _ (List.mem_append_left _ hfield)))

/-- Types with different keys have a response key in common exactly if they overlap. -/
theorem exists_responseKey_iff (hne : t.key ≠ u.key) :
    (∃ k ∈ responseKeys t, k ∈ responseKeys u) ↔
      ∃ name ∈ aliasedNames t, ∃ name' ∈ aliasedNames u,
        Overlaps t.key name u.key name' ∨ Overlaps u.key name' t.key name := by
  constructor
  · rintro ⟨k, hk, hk'⟩
    obtain ⟨name, hname, rfl⟩ := List.mem_map.mp hk
    obtain ⟨name', hname', heq⟩ := List.mem_map.mp hk'
    exact ⟨name, hname, name', hname', (responseKey_eq_iff hne).mp heq.symm⟩
  · rintro ⟨name, hname, name', hname', hoverlaps⟩
    have heq := (responseKey_eq_iff hne).mpr hoverlaps
    exact ⟨_, List.mem_map_of_mem hname, heq ▸ List.mem_map_of_mem hname'⟩

theorem aliasesApart_iff_noOverlaps {fragments : List Fragment} :
    AliasesApart ctx fragments ↔ NoOverlaps ctx fragments := by
  constructor
  · intro hapart f hf g hg t u ht hu name hname name' hname' hoverlaps
    have hne : t.key ≠ u.key := hoverlaps.key_ne
    obtain ⟨k, hk, hk'⟩ := (exists_responseKey_iff hne).mpr
      ⟨name, hname, name', hname', Or.inl hoverlaps⟩
    exact hapart f hf g hg t u ht hu (fun htu => hne (congrArg ContentType.key htu)) k hk hk'
  · intro hnone f hf g hg t u ht hu htu k hk hk'
    have hne : t.key ≠ u.key := fun hkey => htu (ht.key_inj hu hkey)
    obtain ⟨name, hname, name', hname', hoverlaps | hoverlaps⟩ :=
      (exists_responseKey_iff hne).mp ⟨k, hk, hk'⟩
    · exact hnone f hf g hg t u ht hu name hname name' hname' hoverlaps
    · exact hnone g hg f hf u t hu ht name' hname' name hname hoverlaps

theorem MadeFor.needed {registry : Registry} {settings : Settings} {root : String}
    {c : Compilation} (h : (compile registry settings root).value = .ok c) (hf : f ∈ c.fragments)
    (ht : MadeFor (contextOf registry settings root) t f) :
    ∃ suffixed, Needed (contextOf registry settings root) (.type t.key suffixed) := by
  obtain ⟨key, suffixed, hdeclared, hkey⟩ := ht
  obtain ⟨v, hneeded, hv⟩ := exists_needed_of_mem h hf
  obtain rfl := Node.eq_of_fragment? hv hkey
  exact ⟨suffixed, hdeclared.key_eq ▸ hneeded⟩

/-- The aliases of a compilation stand in its fragments, and types share none exactly if no two of
them overlap in their keys and the names of their enabled properties. So it is if of the types that
the root needs none has the key of another one that goes on with an underscore. -/
theorem aliasesApart_iff {registry : Registry} {settings : Settings} {root : String}
    {c : Compilation} (h : (compile registry settings root).value = .ok c) :
    (∀ f ∈ c.fragments, ∀ t, MadeFor (contextOf registry settings root) t f →
        ∀ k ∈ responseKeys t, ∃ field, (k ++ ": " ++ field).toList <:+: f.body.toList) ∧
      (AliasesApart (contextOf registry settings root) c.fragments ↔
        NoOverlaps (contextOf registry settings root) c.fragments) ∧
      ((∀ key key' suffixed suffixed',
          Needed (contextOf registry settings root) (.type key suffixed) →
            Needed (contextOf registry settings root) (.type key' suffixed') →
              ∀ rest, key ≠ key' ++ "_" ++ rest) →
        AliasesApart (contextOf registry settings root) c.fragments) := by
  refine ⟨fun f _ t ht k hk => ht.responseKey_written hk, aliasesApart_iff_noOverlaps, ?_⟩
  intro hkeys
  rw [aliasesApart_iff_noOverlaps]
  intro f hf g hg t u ht hu name _ name' _ hoverlaps
  obtain ⟨suffixed, hneeded⟩ := ht.needed h hf
  obtain ⟨suffixed', hneeded'⟩ := hu.needed h hg
  obtain ⟨rest, hrest⟩ := hoverlaps.exists_underscore
  exact hkeys t.key u.key suffixed suffixed' hneeded hneeded' rest hrest

/-- A home page with news, whose items are a type of their own. -/
def newsTypes (itemKey : String) : ContentTypes :=
  .ofList [
    (ContentType.ofKey "Home" .page).withProperty "news"
      (.ofKind (.content (some [.key "News", .key itemKey]) none)),
    (ContentType.ofKey "News" .page).withProperty "item__title" (.ofKind .string),
    (ContentType.ofKey itemKey .page).withProperty "title" (.ofKind .richText)]

theorem aliasesApart_newsItem :
    ∃ c, (compile (newsTypes "NewsItem").registry .initial "Home").value = .ok c ∧
      AliasesApart (contextOf (newsTypes "NewsItem").registry .initial "Home") c.fragments := by
  obtain ⟨c, hc⟩ := exists_ok_of_isSome (show
    (compile (newsTypes "NewsItem").registry .initial "Home").value.toOption.isSome = true from rfl)
  obtain ⟨-, -, hapart⟩ := aliasesApart_iff hc
  refine ⟨c, hc, hapart fun key key' suffixed suffixed' hkey hkey' rest hrest => ?_⟩
  have hprefix : (key' ++ "_").toList <+: key.toList := by
    rw [hrest]
    exact ⟨rest.toList, String.toList_append.symm⟩
  have hknown : ∀ k ∈ knownKeys (referencedKeys
        (contextOf (newsTypes "NewsItem").registry .initial "Home")),
      ∀ k' ∈ knownKeys (referencedKeys
        (contextOf (newsTypes "NewsItem").registry .initial "Home")),
        ¬ (k' ++ "_").toList <+: k.toList := by decide
  exact hknown key (reached_of_needed hkey).known key' (reached_of_needed hkey').known hprefix

/-- The title of the news' items and a property of the news have one alias. -/
theorem news_item_shares_alias :
    ¬ ∀ (registry : Registry) (settings : Settings) (root : String) (c : Compilation),
      (compile registry settings root).value = .ok c →
        AliasesApart (contextOf registry settings root) c.fragments := by
  intro h
  have hvalue : (compile (newsTypes "News__item").registry .initial "Home").value.toOption.map
      Compilation.fragments = some [
        ⟨"News", "News", "__typename News__item__title: item__title"⟩,
        ⟨"News__item", "News__item", "__typename News__item__title: title \x7b html json \x7d"⟩,
        ⟨"Home", "Home",
          "__typename Home__news: news \x7b __typename ...News ...News__item \x7d"⟩] := rfl
  obtain ⟨c, hc⟩ := exists_ok_of_isSome (show
    (compile (newsTypes "News__item").registry .initial "Home").value.toOption.isSome = true
    from rfl)
  rw [hc] at hvalue
  have hfragments : c.fragments = _ := Option.some.inj hvalue
  have hapart := h _ _ _ c hc
  rw [hfragments] at hapart
  refine hapart _ List.mem_cons_self _ (List.mem_cons_of_mem _ List.mem_cons_self) _ _
    ⟨"News", false, ⟨by decide, rfl⟩, rfl⟩ ⟨"News__item", false, ⟨by decide, rfl⟩, rfl⟩ ?_
    "News__item__title" (by decide) (by decide)
  exact fun htypes => absurd (congrArg ContentType.key htypes) (by decide)

end ContentQuery.Compile
