import ContentQuery.Proofs.Candidates
import ContentQuery.Proofs.MissingTypes

namespace ContentQuery

open Candidates

section

variable {root root' key : String} {references : Option (List Reference)}

theorem mem_canonicalKeys_reroot (root : String) (h : key ∈ canonicalKeys root' references) :
    key = root' ∨ key ∈ canonicalKeys root references := by
  obtain ⟨reference, hreference, rfl⟩ := List.mem_map.mp h
  by_cases hself : reference.typeKey = selfKey
  · exact Or.inl (if_pos hself)
  · refine Or.inr (List.mem_map.mpr ⟨reference, hreference, ?_⟩)
    rw [resolveSelf, resolveSelf, if_neg hself, if_neg hself]

theorem mem_skipped_reroot (registry : Registry) (root : String) (hroot : builtin? root' = none)
    (h : key ∈ skipped registry (canonicalKeys root' references)) :
    key = root' ∨ key ∈ skipped registry (canonicalKeys root references) := by
  obtain ⟨entry, hentry, hkey⟩ := mem_skipped.mp h
  rcases mem_canonicalKeys_reroot root hentry with rfl | hentry
  · rcases hkey with rfl | ⟨base, hbase, -⟩
    · exact Or.inl rfl
    · exact absurd (hroot.symm.trans hbase) (by simp)
  · exact Or.inr (mem_skipped.mpr ⟨entry, hentry, hkey⟩)

theorem mem_baseline_reroot (registry : Registry) (root : String)
    (h : key ∈ baseline registry (canonicalKeys root' references)) :
    key = root' ∨ key ∈ baseline registry (canonicalKeys root references) := by
  have hempty : (canonicalKeys root' references).isEmpty =
      (canonicalKeys root references).isEmpty := by
    simp [canonicalKeys]
  rw [baseline, hempty] at h
  rw [baseline]
  split
  · rename_i hnone
    rw [if_pos hnone] at h
    exact Or.inr h
  · rename_i hsome
    rw [if_neg hsome] at h
    exact mem_canonicalKeys_reroot root h

theorem mem_resolve_reroot {registry : Registry} {allowed restricted : Option (List Reference)}
    (hroot : builtin? root = none) (hroot' : builtin? root' = none)
    (h : key ∈ resolve registry (canonicalKeys root' allowed) (canonicalKeys root' restricted)) :
    key = root ∨ key = root' ∨
      key ∈ resolve registry (canonicalKeys root allowed) (canonicalKeys root restricted) := by
  obtain ⟨hkept, entry, hentry, hkey⟩ := mem_resolve.mp h
  -- The old root may have been taken away as the self key, and nothing else was for that reason.
  by_cases hold : key = root
  · exact Or.inl hold
  refine Or.inr ?_
  rcases mem_baseline_reroot registry root hentry with rfl | hentry
  · rw [expansion, hroot'] at hkey
    exact Or.inl (List.mem_singleton.mp hkey)
  · refine Or.inr (mem_resolve.mpr ⟨?_, entry, hentry, hkey⟩)
    intro hskipped
    exact (mem_skipped_reroot registry root' hroot hskipped).elim hold hkept

end

namespace Compile

section

variable {registry : Registry} {settings : Settings} {root root' key : String} {suffixed : Bool}

theorem mem_referred_reroot (hroot : builtin? root = none) (hroot' : builtin? root' = none) :
    ∀ kind : PropertyKind, (key, suffixed) ∈ referred (contextOf registry settings root') kind →
      key = root ∨ key = root' ∨
        (key, suffixed) ∈ referred (contextOf registry settings root) kind
  | .component type, h => by
      rw [referred] at h ⊢
      obtain ⟨rfl, rfl⟩ := Prod.mk.inj (List.mem_singleton.mp h)
      by_cases hself : type.typeKey = selfKey
      · exact Or.inr (Or.inl (if_pos hself))
      · refine Or.inr (Or.inr (List.mem_singleton.mpr ?_))
        rw [resolveSelf, resolveSelf, if_neg hself, if_neg hself]
  | .content allowed restricted, h => by
      rw [referred] at h ⊢
      obtain ⟨_, hkey, he⟩ := List.mem_map.mp h
      obtain ⟨rfl, rfl⟩ := Prod.mk.inj he
      exact (mem_resolve_reroot hroot hroot' hkey).imp_right
        (Or.imp_right fun hold => List.mem_map_of_mem hold)
  | .array ⟨kind, _⟩, h => mem_referred_reroot hroot hroot' kind h

theorem mem_references_reroot (hroot : builtin? root = none) (hroot' : builtin? root' = none)
    {t : ContentType}
    (h : (key, suffixed) ∈ references (contextOf registry settings root') t) :
    key = root ∨ key = root' ∨
      (key, suffixed) ∈ references (contextOf registry settings root) t := by
  obtain ⟨property, hproperty, hkey⟩ := List.mem_flatMap.mp h
  exact (mem_referred_reroot hroot hroot' _ hkey).imp_right
    (Or.imp_right fun hold => List.mem_flatMap.mpr ⟨property, hproperty, hold⟩)

/-- What the new root reaches was reached before, if the new root was. -/
theorem reachable_of_reroot (hroot : builtin? root = none) (hroot' : builtin? root' = none)
    (hreached : Reachable (contextOf registry settings root)
      (Declared (contextOf registry settings root)) root')
    (h : Reachable (contextOf registry settings root')
      (Declared (contextOf registry settings root')) key) :
    Reachable (contextOf registry settings root)
      (Declared (contextOf registry settings root)) key := by
  induction h with
  | root => exact hreached
  | reference _ ht hkey ih =>
      rcases mem_references_reroot hroot hroot' hkey with rfl | rfl | hold
      · exact .root
      · exact hreached
      · exact .reference ih ht hold
  | composition _ ht hexperience hkey ih => exact .composition ih ht hexperience hkey

theorem Reachable.eq_root_of_builtin {ctx : Context} {base : BaseType}
    (h : Reachable ctx (Declared ctx) key) (hroot : builtin? ctx.root = some base) :
    key = ctx.root := by
  induction h with
  | root => rfl
  | reference _ ht _ ih | composition _ ht _ _ ih =>
      obtain rfl := ih
      exact absurd (hroot.symm.trans ht.1) (by simp)

theorem reachable_of_name_mem {c : Compilation}
    (hfree : CollisionFree (referencedKeys (contextOf registry settings root)))
    (h : (compile registry settings root).value = .ok c)
    (hkey : key ∈ registry.all.map ContentType.key) (hbuiltin : builtin? key = none)
    (hname : (Node.type key suffixed).name ∈ c.fragments.map Fragment.name) :
    Reachable (contextOf registry settings root) (Declared (contextOf registry settings root))
      key := by
  obtain ⟨f, hf, hfname⟩ := List.mem_map.mp hname
  obtain ⟨v, hneeded, hv⟩ := exists_needed_of_mem h hf
  have hregistered : key ∈ referencedKeys (contextOf registry settings root) := by
    obtain ⟨t, ht, rfl⟩ :=
      List.mem_map.mp ((Keyed.mem_map_lasts ContentType.key registry.all key).mpr hkey)
    exact key_mem_referencedKeys ht
  have hknown : (Node.type key suffixed).Known (referencedKeys (contextOf registry settings root)) :=
    mem_knownKeys.mpr (Or.inl hregistered)
  obtain rfl := hfree.name_inj (reached_of_needed hneeded).known hknown
    ((Node.name_of_fragment? hv).symm.trans hfname)
  rcases reached_of_needed hneeded with hreached | ⟨base, rfl⟩
  · exact hreached
  · exact absurd hbuiltin (builtin?_tag_ne_none base)

end

/-- Success is inherited by dependencies. If the compilation of a root succeeds and has a fragment of
a registered type, plain or suffixed, then the type can be compiled as a root of its own. The keys
may not collide where the self key stands for the first root. -/
theorem compile_inherits {registry : Registry} {settings : Settings} {root key : String}
    {c : Compilation} (hfree : CollisionFree (referencedKeys (contextOf registry settings root)))
    (h : (compile registry settings root).value = .ok c)
    (hkey : key ∈ registry.all.map ContentType.key)
    (hname : key ∈ c.fragments.map Fragment.name ∨
      key ++ componentSuffix ∈ c.fragments.map Fragment.name) :
    ∃ c', (compile registry settings key).value = .ok c' := by
  refine exists_ok_of_not_missing fun other hother => ?_
  cases hbuiltin : builtin? key with
  | some base =>
      have hsame : other = key := hother.eq_root_of_builtin hbuiltin
      rw [hsame]
      exact fun hmissing => absurd (hbuiltin.symm.trans hmissing.1) (by simp)
  | none =>
      have hreached : Reachable (contextOf registry settings root)
          (Declared (contextOf registry settings root)) key := by
        rcases hname with hplain | hsuffixed
        · have hnode : (Node.type key false).name ∈ c.fragments.map Fragment.name := by
            simpa [Node.name] using hplain
          exact reachable_of_name_mem hfree h hkey hbuiltin hnode
        · have hnode : (Node.type key true).name ∈ c.fragments.map Fragment.name := hsuffixed
          exact reachable_of_name_mem hfree h hkey hbuiltin hnode
      have hroot : builtin? root = none := by
        cases hbase : builtin? root with
        | none => rfl
        | some base =>
            have hsame : key = root := hreached.eq_root_of_builtin hbase
            exact absurd (hbuiltin.symm.trans (hsame ▸ hbase)) (by simp)
      exact not_missing_of_reachable hfree h (reachable_of_reroot hroot hbuiltin hreached hother)

/-- A story that begins with a quote. A quote may hold anything but the root. -/
def storyTypes : ContentTypes :=
  .ofList [
    (ContentType.ofKey "Story" .page).withProperty "lead" (.ofKind (.component (.key "Quote"))),
    (ContentType.ofKey "Quote" .component).withProperty "context"
      (.ofKind (.content none (some [.key selfKey])))]

theorem compile_inherits_quote :
    ∃ c, (compile storyTypes.registry .initial "Story").value = .ok c ∧
      "QuoteProperty" ∈ c.fragments.map Fragment.name ∧
      ∃ c', (compile storyTypes.registry .initial "Quote").value = .ok c' := by
  have hvalue : ((compile storyTypes.registry .initial "Story").value.toOption.map
      fun c => c.fragments.map Fragment.name) = some ["Quote", "QuoteProperty", "Story"] := rfl
  obtain ⟨c, hc⟩ := exists_ok_of_isSome
    (show (compile storyTypes.registry .initial "Story").value.toOption.isSome = true from rfl)
  rw [hc] at hvalue
  have hnames : c.fragments.map Fragment.name = _ := Option.some.inj hvalue
  have hquote : "QuoteProperty" ∈ c.fragments.map Fragment.name := hnames ▸ by decide
  refine ⟨c, hc, hquote, ?_⟩
  exact compile_inherits (by decide) hc (by decide) (Or.inr hquote)

end Compile

end ContentQuery
