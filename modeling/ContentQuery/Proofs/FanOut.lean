import ContentQuery.Proofs.Accounting

namespace ContentQuery.Compile

/-- The property that a call expands for the fragment. -/
def Call.propertyOf? (own : Fragment) : Call → Option (String × Property)
  | .visit _ => none
  | .property other name p => if other = own then some (name, p) else none

/-- The properties that calls expand for the fragment. -/
def expandedFor (own : Fragment) (calls : List Call) : List (String × Property) :=
  calls.filterMap (Call.propertyOf? own)

/-- The warning about a call. It names the root of the compilation, whatever type has the property.
-/
def Returned.warning? (ctx : Context) (r : Returned) : Option Diagnostic :=
  match r.call with
  | .visit _ => none
  | .property _ name p =>
      if FanOut.isUnconstrained p = true ∧ ctx.settings.threshold < r.added.card then
        some (Warned.diagnostic ctx.settings.threshold ⟨ctx.root, name, r.added.card⟩)
      else none

/-- What is reported about a call: the warning with the number of fragments that it returned. -/
def Returned.reported? (ctx : Context) (r : Returned) : Option Diagnostic :=
  match r.call with
  | .visit _ => none
  | .property _ name p =>
      if FanOut.isUnconstrained p = true ∧ ctx.settings.threshold < r.fragments.length then
        some (Warned.diagnostic ctx.settings.threshold ⟨ctx.root, name, r.fragments.length⟩)
      else none

theorem Returned.warning?_eq_some {ctx : Context} {r : Returned} {d : Diagnostic}
    (h : r.warning? ctx = some d) :
    ∃ own name p, r.call = .property own name p ∧ FanOut.isUnconstrained p = true ∧
      ctx.settings.threshold < r.added.card ∧
      d = Warned.diagnostic ctx.settings.threshold ⟨ctx.root, name, r.added.card⟩ := by
  unfold warning? at h
  split at h
  · cases h
  · next own name p hcall =>
      obtain ⟨⟨hunconstrained, hlt⟩, hd⟩ := Option.ite_none_right_eq_some.mp h
      exact ⟨own, name, p, hcall, hunconstrained, hlt, (Option.some.inj hd).symm⟩

section

variable {own : Fragment} {calls calls' : List Call}

theorem expandedFor_append :
    expandedFor own (calls ++ calls') = expandedFor own calls ++ expandedFor own calls' :=
  List.filterMap_append

theorem expandedFor_cons (call : Call) :
    expandedFor own (call :: calls) = (call.propertyOf? own).toList ++ expandedFor own calls := by
  unfold expandedFor
  cases h : call.propertyOf? own <;> simp [h]

theorem expandedFor_visits (own : Fragment) (vs : List Node) :
    expandedFor own (vs.map .visit) = [] := by
  simp [expandedFor, Call.propertyOf?]

theorem expandedFor_properties (own other : Fragment) (properties : List (String × Property)) :
    expandedFor own (properties.map fun property => .property other property.1 property.2) =
      if other = own then properties else [] := by
  by_cases h : other = own
  · simp [expandedFor, Call.propertyOf?, List.filterMap_map, Function.comp_def, h]
  · simp [expandedFor, Call.propertyOf?, h]

end

variable {ctx : Context} {t : ContentType} {own f : Fragment}

theorem expandedFor_typeCalls {key : String} {suffixed : Bool} (hf : MadeFor ctx t f)
    (hown : (Node.type key suffixed).fragment? ctx = some own) :
    expandedFor f (typeCalls ctx own key) = if own = f then t.properties else [] := by
  obtain ⟨key', suffixed', ht, hkey'⟩ := hf
  have hkey : own = f → key = key' := by
    rintro rfl
    exact (Node.type.inj (Node.eq_of_fragment? hown hkey')).1
  rcases Node.eq_of_fragment?_type hown with ⟨base, hb, -⟩ | ⟨t', ht', -⟩
  · have hne : own ≠ f := by
      intro h
      exact absurd (ht.1.symm.trans (hkey h ▸ hb)) (by simp)
    rw [typeCalls_builtin hb, expandedFor_visits, if_neg hne]
  · rw [typeCalls_declared ht', declaredCalls, expandedFor_append, expandedFor_append,
      expandedFor_visits, expandedFor_visits, expandedFor_properties, List.nil_append,
      List.append_nil]
    refine ite_congr rfl (fun h => ?_) fun _ => rfl
    have hsame : some t' = some t := ht'.2.symm.trans (hkey h ▸ ht.2)
    rw [Option.some.inj hsame]

/-- The enabled properties of a type, for each time that its fragment `f` is among the fragments. -/
def share (t : ContentType) (f : Fragment) (fragments : List Fragment) :
    List (String × Property) :=
  fragments.flatMap fun g => if g = f then enabled t.properties else []

theorem share_append (fragments fragments' : List Fragment) :
    share t f (fragments ++ fragments') = share t f fragments ++ share t f fragments' :=
  List.flatMap_append

theorem share_cons (g : Fragment) (fragments : List Fragment) :
    share t f (g :: fragments) =
      (if g = f then enabled t.properties else []) ++ share t f fragments :=
  List.flatMap_cons

theorem share_of_not_mem {fragments : List Fragment} (h : f ∉ fragments) :
    share t f fragments = [] := by
  refine List.flatMap_eq_nil_iff.mpr fun g hg => if_neg ?_
  rintro rfl
  exact h hg

theorem share_of_mem {fragments : List Fragment} (hnodup : fragments.Nodup) (h : f ∈ fragments) :
    share t f fragments = enabled t.properties := by
  obtain ⟨before, after, rfl⟩ := List.append_of_mem h
  rw [List.nodup_middle, List.nodup_cons, List.mem_append, not_or] at hnodup
  rw [share_append, share_cons, share_of_not_mem hnodup.1.1, share_of_not_mem hnodup.1.2,
    if_pos rfl, List.nil_append, List.append_nil]

theorem MadeFor.ne_of_fixed {v : Node} {g : Fragment} (hf : MadeFor ctx t f) (hv : v ∈ Node.fixed)
    (hg : v.fragment? ctx = some g) : g ≠ f := by
  rintro rfl
  obtain ⟨key, suffixed, -, hkey⟩ := hf
  obtain rfl := Node.eq_of_fragment? hg hkey
  simp [Node.fixed] at hv

theorem share_mediaMetadata (hf : MadeFor ctx t f) (fragments : List Fragment) :
    share t f (mediaMetadata :: fragments) = share t f fragments := by
  have hne : mediaMetadata ≠ f := hf.ne_of_fixed (v := .mediaMetadata) (by decide) rfl
  rw [share_cons, if_neg hne, List.nil_append]

theorem MadeFor.not_mem_compositionFragments (hf : MadeFor ctx t f) :
    f ∉ compositionFragments ctx := by
  simp only [compositionFragments, List.mem_cons, List.not_mem_nil, or_false, not_or]
  refine ⟨?_, ?_, ?_⟩
  · exact (hf.ne_of_fixed (v := .compositionComponent) (by decide) rfl).symm
  · exact (hf.ne_of_fixed (v := .compositionNode) (by decide) rfl).symm
  · exact (hf.ne_of_fixed (v := .experienceData) (by decide) rfl).symm

theorem share_compositionFragments (hf : MadeFor ctx t f) :
    share t f (compositionFragments ctx) = [] :=
  share_of_not_mem hf.not_mem_compositionFragments

variable {calls : List Call} {state state' : State} {fragments : List Fragment}
  {log : List Returned}

theorem enabled_nil : enabled [] = [] := rfl

theorem enabled_append (properties properties' : List (String × Property)) :
    enabled (properties ++ properties') = enabled properties ++ enabled properties' :=
  List.filter_append ..

theorem enabled_propertyOf? (own other : Fragment) (name : String) (p : Property) :
    enabled ((Call.property other name p).propertyOf? own).toList =
      if p.isDisabled then [] else ((Call.property other name p).propertyOf? own).toList := by
  by_cases h : other = own
  · cases hp : p.isDisabled <;> simp [Call.propertyOf?, enabled, h, hp]
  · simp [Call.propertyOf?, enabled, h]

theorem perm_needed {before needed rest expanded made : List (String × Property)}
    (hneeded : before.Perm needed) (hrest : rest.Perm (expanded ++ made)) :
    (before ++ rest).Perm (expanded ++ (needed ++ made)) :=
  (hneeded.append hrest).trans (List.perm_append_comm_assoc _ _ _)

/-- Each enabled property of a declared type is expanded once for each of the type's fragments that
are made, besides what the calls themselves expand. -/
theorem Runs.expanded_perm (h : Runs ctx calls state fragments log state')
    (hfree : UnguardedFree ctx) (htogether : MarkedTogether state.visited) (hf : MadeFor ctx t f) :
    (expandedFor f (log.map Returned.call)).Perm
      (enabled (expandedFor f calls) ++ share t f fragments) := by
  induction h with
  | nil => exact .refl _
  | seen _ _ ih => exact ih htogether
  | metadata _ _ ih =>
      rw [share_mediaMetadata hf]
      exact ih (htogether.cons (by decide))
  | @type key suffixed _ state _ _ own _ _ _ _ _ hown needs _ ihNeeds ih =>
      have htogether' : MarkedTogether (state.marked [own.name]).visited :=
        htogether.cons (Node.name_of_fragment? hown ▸ hfree.type_name_not_mem hown)
      rw [State.visited_emitted] at ih
      have hneeds := ihNeeds htogether'
      -- What is called for the type's own properties is the share of its own fragment.
      rw [expandedFor_typeCalls hf hown, apply_ite enabled, enabled_nil] at hneeds
      rw [Keyed.firsts_of_nodup _ (needs.visits.nodup hfree htogether'), share_append, share_cons,
        List.map_append, expandedFor_append, ← List.append_assoc (share t f _)]
      exact perm_needed (hneeds.trans List.perm_append_comm)
        (ih (needs.visits.markedTogether hfree htogether'))
  | @composition _ state _ _ _ _ _ _ _ needs _ ihNeeds ih =>
      have htogether' := markedTogether_compositionNames state.visited
      have hneeds := ihNeeds htogether'
      rw [expandedFor_visits, enabled_nil, List.nil_append] at hneeds
      rw [share_append, share_append, share_compositionFragments hf, List.append_nil,
        List.map_append, expandedFor_append]
      exact perm_needed hneeds (ih (needs.visits.markedTogether hfree htogether'))
  | @disabled own name p _ _ _ _ _ hp _ ih =>
      rw [expandedFor_cons, enabled_append, enabled_propertyOf?, if_pos hp]
      exact ih htogether
  | @property own name p _ _ _ _ _ _ _ _ hp needs _ ihNeeds ih =>
      have hneeds := ihNeeds htogether
      rw [State.visited_checked] at ih
      rw [expandedFor_visits, enabled_nil, List.nil_append] at hneeds
      rw [share_append, List.map_append, expandedFor_append, List.map_cons, expandedFor_cons,
        expandedFor_cons, enabled_append, enabled_propertyOf?, hp, if_neg Bool.false_ne_true]
      refine perm_needed hneeds ?_
      rw [List.append_assoc]
      exact (ih (needs.visits.markedTogether hfree htogether)).append_left _

theorem toList_checked (name : String) (p : Property) (count : Nat) :
    (state.checked ctx name p count).diagnostics.toList =
      state.diagnostics.toList ++
        if FanOut.isUnconstrained p = true ∧ ctx.settings.threshold < count then
          [Warned.diagnostic ctx.settings.threshold ⟨ctx.root, name, count⟩] else [] := by
  unfold State.checked
  by_cases h : FanOut.isUnconstrained p = true ∧ ctx.settings.threshold < count
  · rw [if_pos h, if_pos (by simp [h])]
    rfl
  · rw [if_neg h, if_neg (by simpa [and_comm] using h), List.append_nil]

/-- The messages are what is reported about the calls, in the order in which the calls return. -/
theorem Runs.toList_diagnostics (h : Runs ctx calls state fragments log state') :
    state'.diagnostics.toList =
      state.diagnostics.toList ++ log.filterMap (Returned.reported? ctx) := by
  induction h with
  | nil => simp
  | seen _ _ ih => exact ih
  | metadata _ _ ih => exact ih
  | @type key _ _ _ inner _ own needed _ _ _ _ _ _ _ ihNeeds ih =>
      have hemitted : (inner.emitted key (.fragmentEmitted own.name
          (Keyed.firsts Fragment.name needed).length)).diagnostics = inner.diagnostics := by
        unfold State.emitted
        split <;> rfl
      rw [ih, hemitted, ihNeeds, List.append_assoc, List.filterMap_append]
      rfl
  | composition _ _ _ ihNeeds ih =>
      rw [ih, ihNeeds, List.append_assoc, List.filterMap_append]
      rfl
  | disabled _ _ ih => exact ih
  | @property own name p _ _ _ _ needed _ _ _ _ _ _ ihNeeds ih =>
      rw [ih, toList_checked, ihNeeds, List.filterMap_append, List.filterMap_cons,
        Returned.reported?]
      by_cases hwarned :
          FanOut.isUnconstrained p = true ∧ ctx.settings.threshold < needed.length
      · simp [hwarned]
      · simp [hwarned]

theorem Runs.diagnostics_eq (h : Runs ctx calls state fragments log state')
    (hcard : ∀ r ∈ log, r.added.card = r.fragments.length) :
    state'.diagnostics.toList =
      state.diagnostics.toList ++ log.filterMap (Returned.warning? ctx) := by
  have hsame : ∀ r ∈ log, r.reported? ctx = r.warning? ctx := by
    intro r hr
    rw [Returned.reported?, Returned.warning?, hcard r hr]
  rw [h.toList_diagnostics, List.filterMap_congr hsame]

section

variable {r : Returned} {name : String} {p : Property} (vs : List Node)

theorem Runs.owned (h : Runs ctx (vs.map .visit) state fragments log state')
    (hfree : UnguardedFree ctx) (htogether : MarkedTogether state.visited) (hr : r ∈ log)
    (hcall : r.call = .property own name p) : own ∈ fragments ∧ ∃ t, MadeFor ctx t own := by
  have hbegun := (h.within hfree htogether (begun_visits _ _ _) r hr).begun
  rw [hcall] at hbegun
  obtain ⟨-, t, ht⟩ := hbegun
  refine ⟨?_, t, ht⟩
  by_contra hmem
  have hnone := h.expanded_perm hfree htogether ht
  rw [share_of_not_mem hmem, expandedFor_visits, enabled_nil, List.nil_append,
    List.perm_nil, expandedFor, List.filterMap_eq_nil_iff] at hnone
  have hown := hnone r.call (List.mem_map_of_mem hr)
  simp [hcall, Call.propertyOf?] at hown

theorem Runs.added_ssubset (h : Runs ctx (vs.map .visit) state fragments log state')
    (hfree : UnguardedFree ctx) (htogether : MarkedTogether state.visited) (hr : r ∈ log)
    (hcall : r.call = .property own name p) : r.added ⊂ state'.visited.toFinset := by
  have hwithin := h.within hfree htogether (begun_visits _ _ _) r hr
  have hbegun := hwithin.begun
  rw [hcall] at hbegun
  refine (Finset.ssubset_iff_of_subset hwithin.added_subset).mpr ⟨own.name, ?_, ?_⟩
  · exact List.mem_toFinset.mpr (hwithin.after (hwithin.visits.subset hbegun.1))
  · intro hadded
    exact (Finset.mem_sdiff.mp hadded).2 (List.mem_toFinset.mpr hbegun.1)

end

/-- A log of calls accounts for the warnings of a compilation. -/
structure Accounts (ctx : Context) (c : Compilation) (log : List Returned) : Prop where
  ran : ∀ r ∈ log, r.Ran ctx
  /-- For each fragment of a declared type the enabled properties are expanded, each once. -/
  expanded : ∀ t f, MadeFor ctx t f → f ∈ c.fragments →
    (expandedFor f (log.map Returned.call)).Perm (enabled t.properties)
  owned : ∀ r ∈ log, ∀ own name p, r.call = .property own name p →
    own ∈ c.fragments ∧ ∃ t, MadeFor ctx t own
  warnings : c.diagnostics.toList = log.filterMap (Returned.warning? ctx)
  /-- The names that a call visits are those of as many fragments of the compilation. -/
  count : ∀ r ∈ log, r.added.card = c.fragments.countP (·.name ∈ r.added)
  count_lt : ∀ r ∈ log, ∀ own name p, r.call = .property own name p →
    r.added.card < c.fragments.length

theorem Accounts.warnings_eq_nil {c : Compilation} (h : Accounts ctx c log)
    (hlength : c.fragments.length ≤ ctx.settings.threshold + 1) : c.diagnostics.toList = [] := by
  rw [h.warnings, List.filterMap_eq_nil_iff]
  intro r hr
  unfold Returned.warning?
  cases hcall : r.call with
  | visit => rfl
  | property own name p =>
      have hlt := h.count_lt r hr own name p hcall
      exact if_neg (by omega)

section

variable {registry : Registry} {settings : Settings} {root : String} {c : Compilation}

theorem exists_accounts (hfree : UnguardedFree (contextOf registry settings root))
    (h : (compile registry settings root).value = .ok c) :
    ∃ log state, Runs (contextOf registry settings root) [.visit (.type root false)]
        (startOf registry root) c.fragments log state ∧
      Accounts (contextOf registry settings root) c log := by
  obtain ⟨log, state, hruns, hran, hdiagnostics, -⟩ := exists_runs_of_compile h
  have htogether := markedTogether_start registry root
  have hwithin := hruns.within hfree htogether (begun_visits _ _ [.type root false])
  have hnodup := hruns.visits.nodup hfree htogether
  have hnames : state.visited.toFinset = (c.fragments.map Fragment.name).toFinset := by
    rw [← hruns.visits.added_eq htogether]
    exact Finset.sdiff_empty.symm
  refine ⟨log, state, hruns, hran, ?_, ?_, ?_, ?_, ?_⟩
  · intro t f hf hmem
    rw [← share_of_mem hnodup.of_map hmem]
    exact hruns.expanded_perm hfree htogether hf
  · exact fun r hr own name p => Runs.owned [.type root false] hruns hfree htogether hr
  · rw [hdiagnostics]
    exact hruns.diagnostics_eq fun r hr => (hwithin r hr).card_added hfree
  · intro r hr
    exact card_eq_countP hnodup (hnames ▸ (hwithin r hr).added_subset)
  · intro r hr own name p hcall
    calc r.added.card
      _ < state.visited.toFinset.card := Finset.card_lt_card
        (Runs.added_ssubset [.type root false] hruns hfree htogether hr hcall)
      _ = c.fragments.length := by
        rw [hnames, List.toFinset_card_of_nodup hnodup, List.length_map]

end

/-- The warnings of a compilation are exact, if no type is registered under an unguarded name. A log
of its calls has one expansion for each enabled property of each fragment of a declared type, and
none besides, and the warnings are about those that visit more names than the threshold and are
unconstrained. Each one names the root, and its text tells of the property, the threshold and the
number of fragments that are made for the expansion, which never are all fragments. -/
theorem warnings_exact (registry : Registry) (settings : Settings) (root : String)
    (hfree : ∀ t ∈ registry.all, t.key ∉ unguardedNames) {c : Compilation}
    (h : (compile registry settings root).value = .ok c) :
    (∃ log state, Runs (contextOf registry settings root) [.visit (.type root false)]
        (startOf registry root) c.fragments log state ∧
      Accounts (contextOf registry settings root) c log ∧
      ∀ r ∈ log, ∀ d, r.warning? (contextOf registry settings root) = some d →
        ∃ own name p, r.call = .property own name p ∧ FanOut.isUnconstrained p = true ∧
          settings.threshold < r.added.card ∧
          d.kind = .fragmentFanOut ∧ d.root = some root ∧
          d.message = "too many fragments generated: content type `" ++ root ++ "` generated " ++
            toString r.added.card ++ " fragments for property `" ++ name ++ "` (threshold " ++
            toString settings.threshold ++ ")") ∧
    (c.fragments.length ≤ settings.threshold + 1 → c.diagnostics.toList = []) := by
  obtain ⟨log, state, hruns, haccounts⟩ := exists_accounts (unguardedFree_of_keys hfree) h
  refine ⟨⟨log, state, hruns, haccounts, ?_⟩, haccounts.warnings_eq_nil⟩
  intro r _ d hd
  obtain ⟨own, name, p, hcall, hunconstrained, hlt, rfl⟩ := Returned.warning?_eq_some hd
  exact ⟨own, name, p, hcall, hunconstrained, hlt, rfl, rfl, rfl⟩

theorem warnings_exact_feed :
    (∃ c log, (compile feedTypes.registry (.withThreshold 1 .initial) "Feed").value = .ok c ∧
      Accounts (contextOf feedTypes.registry (.withThreshold 1 .initial) "Feed") c log ∧
      c.diagnostics.toList.map (fun d => (d.kind, d.root, d.message)) =
        [(.fragmentFanOut, some "Feed", "too many fragments generated: content type `Feed` " ++
          "generated 2 fragments for property `items` (threshold 1)")] ∧
      ∃ r ∈ log, ∃ own name p, r.call = .property own name p ∧ 1 < r.added.card) ∧
    ∃ c, (compile feedTypes.registry (.withThreshold 2 .initial) "Feed").value = .ok c ∧
      c.diagnostics.toList = [] := by
  have hfree : ∀ t ∈ feedTypes.registry.all, t.key ∉ unguardedNames := by decide
  constructor
  · obtain ⟨c, hc⟩ := exists_ok_of_isSome (show
      (compile feedTypes.registry (.withThreshold 1 .initial) "Feed").value.toOption.isSome = true
      from rfl)
    have hvalue :
        (compile feedTypes.registry (.withThreshold 1 .initial) "Feed").value.toOption.map
          (·.diagnostics.toList) = some [FanOut.warning "Feed" "items" 2 1] := rfl
    rw [hc, FanOut.warning_eq] at hvalue
    have hmessages : c.diagnostics.toList = [Warned.diagnostic 1 ⟨"Feed", "items", 2⟩] :=
      Option.some.inj hvalue
    obtain ⟨⟨log, state, -, haccounts, hexact⟩, -⟩ := warnings_exact _ _ _ hfree hc
    refine ⟨c, log, hc, haccounts, ?_, ?_⟩
    · rw [hmessages]
      rfl
    · have hmem := List.mem_singleton_self (Warned.diagnostic 1 ⟨"Feed", "items", 2⟩)
      rw [← hmessages, haccounts.warnings] at hmem
      obtain ⟨r, hr, hwarning⟩ := List.mem_filterMap.mp hmem
      obtain ⟨own, name, p, hcall, -, hlt, -⟩ := hexact r hr _ hwarning
      exact ⟨r, hr, own, name, p, hcall, hlt⟩
  · obtain ⟨c, hc⟩ := exists_ok_of_isSome (show
      (compile feedTypes.registry (.withThreshold 2 .initial) "Feed").value.toOption.isSome = true
      from rfl)
    have hlength :
        (compile feedTypes.registry (.withThreshold 2 .initial) "Feed").value.toOption.map
          (·.fragments.length) = some 3 := rfl
    rw [hc] at hlength
    obtain ⟨-, hnone⟩ := warnings_exact _ _ _ hfree hc
    exact ⟨c, hc, hnone (Option.some.inj hlength).le⟩

end ContentQuery.Compile
