import ContentQuery.Proofs.FanOut

namespace ContentQuery

namespace PropertyKind

/-- The number of arrays that the values are nested in. -/
def layers : PropertyKind → Nat
  | .array ⟨kind, _⟩ => kind.layers + 1
  | _ => 0

/-- The shape of the values inside all arrays. -/
def core : PropertyKind → PropertyKind
  | .array ⟨kind, _⟩ => kind.core
  | kind => kind

end PropertyKind

theorem FanOut.isUnconstrained_iff_layers {p : Property} (h : p.kind.core = .content none none) :
    FanOut.isUnconstrained p = true ↔ p.kind.layers ≤ 1 := by
  obtain ⟨kind, indexing⟩ := p
  change kind.core = _ at h
  cases kind with
  | content allowed restricted =>
      cases h
      simp [isUnconstrained, isUnset, PropertyKind.layers]
  | array item =>
      obtain ⟨kind, itemIndexing⟩ := item
      cases kind with
      | content allowed restricted =>
          cases h
          simp [isUnconstrained, isUnset, PropertyKind.layers]
      | array item =>
          obtain ⟨kind, _⟩ := item
          simp [isUnconstrained, PropertyKind.layers]
      | _ => cases h
  | _ => cases h

namespace Compile

variable {ctx : Context} {calls : List Call} {state state' : State} {fragments : List Fragment}
  {log : List Returned}

theorem expand_core (ctx : Context) (visit : Visit) (name : String) : ∀ kind : PropertyKind,
    expand ctx visit name kind = expand ctx visit name kind.core
  | .array ⟨kind, _⟩ => expand_core ctx visit name kind
  | .component _ | .content _ _ | .string | .boolean | .integer | .float | .binary | .json
  | .dateTime | .richText | .url | .link | .contentReference => rfl

theorem Runs.property_mem (h : Runs ctx calls state fragments log state') {own : Fragment}
    {name : String} {p : Property} (hcall : .property own name p ∈ calls)
    (hp : p.isDisabled = false) : .property own name p ∈ log.map Returned.call := by
  induction h with
  | nil => exact absurd hcall List.not_mem_nil
  | seen _ _ ih | metadata _ _ ih =>
      exact List.mem_cons_of_mem _ (ih (List.mem_of_ne_of_mem (by simp) hcall))
  | type _ _ _ _ _ ih | composition _ _ _ _ ih =>
      rw [List.map_append, List.map_cons]
      refine List.mem_append_right _ (List.mem_cons_of_mem _ (ih ?_))
      exact List.mem_of_ne_of_mem (by simp) hcall
  | disabled hdisabled _ ih =>
      rcases List.mem_cons.mp hcall with hsame | hcall
      · cases hsame
        simp [hp] at hdisabled
      · exact ih hcall
  | property _ _ _ _ ih =>
      rw [List.map_append, List.map_cons]
      refine List.mem_append_right _ (List.mem_cons.mpr ?_)
      exact (List.mem_cons.mp hcall).imp_right ih

/-- For each fragment of a declared type that is made, the enabled properties are expanded. -/
theorem Runs.expansion_mem (h : Runs ctx calls state fragments log state') {t : ContentType}
    {f : Fragment} (hf : MadeFor ctx t f) (hmem : f ∈ fragments) {property : String × Property}
    (hproperty : property ∈ enabled t.properties) :
    .property f property.1 property.2 ∈ log.map Returned.call := by
  induction h with
  | nil => exact absurd hmem List.not_mem_nil
  | seen _ _ ih => exact List.mem_cons_of_mem _ (ih hmem)
  | metadata _ _ ih =>
      have hne : f ≠ mediaMetadata := (hf.ne_of_fixed (v := .mediaMetadata) (by decide) rfl).symm
      exact List.mem_cons_of_mem _ (ih (List.mem_of_ne_of_mem hne hmem))
  | @type key suffixed _ _ _ _ own _ _ _ _ _ hown needs _ ihNeeds ih =>
      rw [List.map_append, List.map_cons]
      rcases List.mem_append.mp hmem with hneeded | hmem
      · exact List.mem_append_left _ (ihNeeds (Keyed.mem_of_mem_firsts _ hneeded))
      rcases List.mem_cons.mp hmem with rfl | hmem
      · obtain ⟨key', suffixed', ht, hkey'⟩ := hf
        obtain ⟨rfl, rfl⟩ := Node.type.inj (Node.eq_of_fragment? hown hkey')
        obtain ⟨hlisted, henabled⟩ := List.mem_filter.mp hproperty
        have hcall : .property f property.1 property.2 ∈ typeCalls ctx f key := by
          rw [typeCalls_declared ht, declaredCalls]
          refine List.mem_append_left _ (List.mem_append_right _ ?_)
          exact List.mem_map_of_mem hlisted
        exact List.mem_append_left _ (needs.property_mem hcall (by simpa using henabled))
      · exact List.mem_append_right _ (List.mem_cons_of_mem _ (ih hmem))
  | composition _ _ _ ihNeeds ih =>
      rw [List.map_append, List.map_cons]
      rcases List.mem_append.mp hmem with hmade | hmem
      · rcases List.mem_append.mp hmade with hneeded | hfixed
        · exact List.mem_append_left _ (ihNeeds hneeded)
        · exact absurd hfixed hf.not_mem_compositionFragments
      · exact List.mem_append_right _ (List.mem_cons_of_mem _ (ih hmem))
  | disabled _ _ ih => exact ih hmem
  | property _ _ _ ihNeeds ih =>
      rw [List.map_append, List.map_cons]
      rcases List.mem_append.mp hmem with hneeded | hmem
      · exact List.mem_append_left _ (ihNeeds hneeded)
      · exact List.mem_append_right _ (List.mem_cons_of_mem _ (ih hmem))

/-- A log of calls has the expansions of a compilation, and the messages are what is reported about
them. -/
structure Reports (ctx : Context) (c : Compilation) (log : List Returned) : Prop where
  ran : ∀ r ∈ log, r.Ran ctx
  expanded : ∀ t f, MadeFor ctx t f → f ∈ c.fragments → ∀ property ∈ enabled t.properties,
    .property f property.1 property.2 ∈ log.map Returned.call
  messages : c.diagnostics.toList = log.filterMap (Returned.reported? ctx)

section

variable {registry : Registry} {settings : Settings} {root : String} {c : Compilation}

theorem exists_reports (h : (compile registry settings root).value = .ok c) :
    ∃ log state, Runs (contextOf registry settings root) [.visit (.type root false)]
        (startOf registry root) c.fragments log state ∧
      Reports (contextOf registry settings root) c log := by
  obtain ⟨log, state, hruns, hran, hdiagnostics, -⟩ := exists_runs_of_compile h
  refine ⟨log, state, hruns, hran, ?_, ?_⟩
  · exact fun t f hf hmem property => hruns.expansion_mem hf hmem
  · rw [hdiagnostics]
    exact hruns.toList_diagnostics

end

/-- Two or more arrays hide fan-out. A property is expanded like the values inside all of its arrays,
and the log has the expansions of all enabled properties of the fragments that are made. Where these
values are content without any constraint, and the expansion makes more fragments than the threshold,
it is reported exactly if the property has at most one array. -/
theorem fanOut_told_by_layers (registry : Registry) (settings : Settings) (root : String)
    {c : Compilation} (h : (compile registry settings root).value = .ok c) :
    (∀ visit name kind, expand (contextOf registry settings root) visit name kind =
        expand (contextOf registry settings root) visit name kind.core) ∧
      ∃ log state, Runs (contextOf registry settings root) [.visit (.type root false)]
          (startOf registry root) c.fragments log state ∧
        Reports (contextOf registry settings root) c log ∧
        ∀ r ∈ log, ∀ own name p, r.call = .property own name p →
          p.kind.core = .content none none → settings.threshold < r.fragments.length →
            r.reported? (contextOf registry settings root) =
              if p.kind.layers ≤ 1
                then some (Warned.diagnostic settings.threshold ⟨root, name, r.fragments.length⟩)
                else none := by
  obtain ⟨log, state, hruns, hreports⟩ := exists_reports h
  refine ⟨expand_core _, log, state, hruns, hreports, ?_⟩
  intro r _ own name p hcall hcore hcount
  have hunconstrained := FanOut.isUnconstrained_iff_layers hcore
  rw [Returned.reported?, hcall]
  exact if_congr (by simp [hunconstrained, hcount]) rfl rfl

def wallGrid : Property := .ofKind (.array (.ofKind (.array (.ofKind (.content none none)))))

/-- A wall has a grid of things of any type, and a row has cells of any type. -/
def wallTypes : ContentTypes :=
  .ofList [
    (ContentType.ofKey "Wall" .component).withProperty "grid" wallGrid,
    (ContentType.ofKey "Row" .component).withProperty "cells"
      (.ofKind (.array (.ofKind (.content none none)))),
    .ofKey "Note" .page]

theorem exists_grid_expansion {settings : Settings} {fragments : List Fragment}
    {log : List Returned} {state : State}
    (h : Runs (contextOf wallTypes.registry settings "Wall") [.visit (.type "Wall" false)]
      (startOf wallTypes.registry "Wall") fragments log state) :
    ∃ r ∈ log, ∃ own, r.call = .property own "grid" wallGrid ∧
      fragments.length ≤ r.fragments.length + 1 := by
  cases h with
  | seen hseen => exact absurd hseen List.not_mem_nil
  | @type _ _ _ _ _ _ own _ _ _ _ _ _ needs tail =>
      have hcalls : typeCalls (contextOf wallTypes.registry settings "Wall") own "Wall" =
          [.property own "grid" wallGrid] := rfl
      rw [hcalls] at needs
      cases tail
      cases needs with
      | disabled hp => exact absurd hp (by decide)
      | @property _ _ _ _ _ _ _ needed _ _ _ _ _ tail =>
          cases tail
          have hle := (Keyed.firsts_sublist Fragment.name (needed ++ [])).length_le
          refine ⟨_, List.mem_append_left _ (List.mem_append_right _ List.mem_cons_self), own, rfl,
            ?_⟩
          simpa using hle

theorem fanOut_told_by_layers_wall :
    ∃ c log, (compile wallTypes.registry (.withThreshold 0 .initial) "Wall").value = .ok c ∧
      c.diagnostics.toList = [Warned.diagnostic 0 ⟨"Wall", "cells", 1⟩] ∧
      Reports (contextOf wallTypes.registry (.withThreshold 0 .initial) "Wall") c log ∧
      ∃ r ∈ log, ∃ own, r.call = .property own "grid" wallGrid ∧ 0 < r.fragments.length ∧
        r.reported? (contextOf wallTypes.registry (.withThreshold 0 .initial) "Wall") = none := by
  obtain ⟨c, hc⟩ := exists_ok_of_isSome (show
    (compile wallTypes.registry (.withThreshold 0 .initial) "Wall").value.toOption.isSome = true
    from rfl)
  have hvalue : (compile wallTypes.registry (.withThreshold 0 .initial) "Wall").value.toOption.map
      (fun c => (c.diagnostics.toList, c.fragments.length)) =
        some ([FanOut.warning "Wall" "cells" 1 0], 3) := rfl
  rw [hc, FanOut.warning_eq] at hvalue
  obtain ⟨hmessages, hlength⟩ := Prod.mk.inj (Option.some.inj hvalue)
  obtain ⟨-, log, state, hruns, hreports, hlayers⟩ := fanOut_told_by_layers _ _ _ hc
  obtain ⟨r, hr, own, hcall, hle⟩ := exists_grid_expansion hruns
  have hcount : 0 < r.fragments.length := by omega
  exact ⟨c, log, hc, hmessages, hreports, r, hr, own, hcall, hcount,
    hlayers r hr own "grid" wallGrid hcall rfl hcount⟩

/-- The grid of a wall makes more fragments than the threshold, and nothing is reported. -/
theorem grid_unreported :
    ¬ ∀ (registry : Registry) (settings : Settings) (root : String) (c : Compilation),
      (compile registry settings root).value = .ok c → ∀ log state,
        Runs (contextOf registry settings root) [.visit (.type root false)]
          (startOf registry root) c.fragments log state →
        ∀ r ∈ log, ∀ own name p, r.call = .property own name p →
          p.kind.core = .content none none → settings.threshold < r.fragments.length →
            Warned.diagnostic settings.threshold ⟨root, name, r.fragments.length⟩ ∈
              c.diagnostics.toList := by
  intro h
  obtain ⟨c, hc⟩ := exists_ok_of_isSome (show
    (compile wallTypes.registry (.withThreshold 1 .initial) "Wall").value.toOption.isSome = true
    from rfl)
  have hvalue : (compile wallTypes.registry (.withThreshold 1 .initial) "Wall").value.toOption.map
      (fun c => (c.diagnostics.toList, c.fragments.length)) = some ([], 3) := rfl
  rw [hc] at hvalue
  obtain ⟨hmessages, hlength⟩ := Prod.mk.inj (Option.some.inj hvalue)
  obtain ⟨log, state, hruns, -⟩ := exists_reports hc
  obtain ⟨r, hr, own, hcall, hle⟩ := exists_grid_expansion hruns
  have hcount : (Settings.withThreshold 1 .initial).threshold < r.fragments.length := by
    change 1 < r.fragments.length
    omega
  have hwarned := h _ _ _ c hc log state hruns r hr own "grid" wallGrid hcall rfl hcount
  rw [hmessages] at hwarned
  exact absurd hwarned List.not_mem_nil

end Compile

end ContentQuery
