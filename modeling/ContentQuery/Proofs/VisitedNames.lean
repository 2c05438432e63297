import ContentQuery.Proofs.Accounting

namespace ContentQuery.Compile

/-- The calls of a log. An array is expanded by a call of its own for its items, which returns what
the call for the array returns. -/
inductive Logged (log : List Returned) : Returned → Prop
  | call {r : Returned} (h : r ∈ log) : Logged log r
  | items {own : Fragment} {name : String} {item : Property} {indexing : Option Indexing}
      {before after : State} {fragments : List Fragment}
      (h : Logged log ⟨.property own name ⟨.array item, indexing⟩, before, fragments, after⟩) :
      Logged log ⟨.property own name item, before, fragments, after⟩

/-- A call visits the names of the fragments that it returns, in addition to those before it. -/
structure Returned.Accounted (r : Returned) : Prop where
  grows : r.before.visited <:+ r.after.visited
  nodup : (r.fragments.map Fragment.name).Nodup
  names : r.added = (r.fragments.map Fragment.name).toFinset

/-- The call entered a type. The calls that this took stand before it in the log, and what they
returned is collected, with the type's own fragment as the last one. -/
def Returned.Entered (ctx : Context) (log : List Returned) (r : Returned) (key : String)
    (suffixed : Bool) (needed : List Fragment) : Prop :=
  ∃ own within inner, (Node.type key suffixed).fragment? ctx = some own ∧
    Runs ctx (typeCalls ctx own key) (r.before.marked [own.name]) needed within inner ∧
    within ++ [r] <:+: log ∧ r.fragments = Keyed.firsts Fragment.name needed ++ [own]

/-- Fragments are collected as they are: each finds its name free among those before it. -/
structure CollectsAll (needed : List Fragment) : Prop where
  free : ∀ before f after, needed = before ++ f :: after →
    f.name ∉ (Keyed.firsts Fragment.name before).map Fragment.name
  firsts_eq : Keyed.firsts Fragment.name needed = needed

theorem collectsAll_of_nodup {needed : List Fragment} (h : (needed.map Fragment.name).Nodup) :
    CollectsAll needed where
  free := by
    rintro before f after rfl hname
    rw [List.map_append, List.map_cons, List.nodup_append] at h
    exact h.2.2 _ ((Keyed.mem_map_firsts _ _ _).mp hname) _ List.mem_cons_self rfl
  firsts_eq := Keyed.firsts_of_nodup _ h

variable {ctx : Context} {calls : List Call} {state state' : State} {fragments : List Fragment}
  {log : List Returned} {visited visited' : List String} {r : Returned}

theorem Returned.Within.accounted (h : r.Within ctx visited visited') (hfree : UnguardedFree ctx) :
    r.Accounted :=
  ⟨h.visits.isSuffix, h.visits.nodup hfree h.together, h.added_eq⟩

theorem expand_array (ctx : Context) (visit : Visit) (name : String) (item : Property) :
    expand ctx visit name (.array item) = expand ctx visit name item.kind := by
  cases item
  rfl

theorem Logged.ran_accounted (h : Logged log r)
    (hlog : ∀ r ∈ log, r.Ran ctx ∧ r.Accounted) : r.Ran ctx ∧ r.Accounted := by
  induction h with
  | call hr => exact hlog _ hr
  | @items own name item indexing before after fragments _ ih =>
      obtain ⟨⟨depth, hrun⟩, haccounted⟩ := ih
      refine ⟨⟨depth, ?_⟩, haccounted.grows, haccounted.nodup, haccounted.names⟩
      rw [Call.step, expand_array] at hrun
      exact hrun

section

variable {key : String} {suffixed : Bool} {needed : List Fragment} {r' : Returned}

theorem Returned.Entered.mono {log' : List Returned} (h : r.Entered ctx log key suffixed needed)
    (hlog : log <:+: log') : r.Entered ctx log' key suffixed needed := by
  obtain ⟨own, within, inner, hown, hneeds, hwithin, hfragments⟩ := h
  exact ⟨own, within, inner, hown, hneeds, hwithin.trans hlog, hfragments⟩

theorem exists_entered_append (within : List Returned) (hr : r ∈ within ++ r' :: log)
    (hwithin : r ∈ within → ∃ needed, r.Entered ctx within key suffixed needed)
    (hself : r = r' → ∃ needed, r.Entered ctx (within ++ [r']) key suffixed needed)
    (hlog : r ∈ log → ∃ needed, r.Entered ctx log key suffixed needed) :
    ∃ needed, r.Entered ctx (within ++ r' :: log) key suffixed needed := by
  have hbefore : within <:+: within ++ r' :: log := (List.prefix_append within _).isInfix
  have hafter : log <:+: within ++ r' :: log :=
    ((List.suffix_cons r' log).trans (List.suffix_append within _)).isInfix
  have hupto : within ++ [r'] <:+: within ++ r' :: log := by
    rw [List.append_cons within r' log]
    exact (List.prefix_append _ log).isInfix
  rcases List.mem_append.mp hr with hr | hr
  · exact (hwithin hr).imp fun _ h => h.mono hbefore
  rcases List.mem_cons.mp hr with hr | hr
  · exact (hself hr).imp fun _ h => h.mono hupto
  · exact (hlog hr).imp fun _ h => h.mono hafter

/-- A visit in the log that finds the name of its type new enters the type. -/
theorem Runs.exists_entered (h : Runs ctx calls state fragments log state') (hr : r ∈ log)
    (hcall : r.call = .visit (.type key suffixed))
    (hnew : (Node.type key suffixed).name ∉ r.before.visited) :
    ∃ needed, r.Entered ctx log key suffixed needed := by
  induction h with
  | nil => exact absurd hr List.not_mem_nil
  | seen hseen _ ih =>
      refine exists_entered_append [] hr (by simp) ?_ ih
      rintro rfl
      cases hcall
      exact absurd hseen hnew
  | metadata _ _ ih =>
      refine exists_entered_append [] hr (by simp) ?_ ih
      rintro rfl
      cases hcall
  | type _ hown needs _ ihNeeds ih =>
      refine exists_entered_append _ hr ihNeeds ?_ ih
      rintro rfl
      cases hcall
      exact ⟨_, _, _, _, hown, needs, List.infix_rfl, rfl⟩
  | composition _ _ _ ihNeeds ih =>
      refine exists_entered_append _ hr ihNeeds ?_ ih
      rintro rfl
      cases hcall
  | disabled _ _ ih => exact ih hr
  | property _ _ _ ihNeeds ih =>
      refine exists_entered_append _ hr ihNeeds ?_ ih
      rintro rfl
      cases hcall

theorem Returned.Entered.name_last (h : r.Entered ctx log key suffixed needed) :
    r.fragments.getLast?.map Fragment.name = some (Node.type key suffixed).name := by
  obtain ⟨own, within, inner, hown, -, -, hfragments⟩ := h
  rw [hfragments, List.getLast?_concat, Option.map_some, Node.name_of_fragment? hown]

theorem Returned.Entered.collectsAll (h : r.Entered ctx log key suffixed needed)
    (hfree : UnguardedFree ctx) (htogether : MarkedTogether r.before.visited) :
    CollectsAll needed := by
  obtain ⟨own, within, inner, hown, hneeds, -, -⟩ := h
  have hmarked : MarkedTogether (r.before.marked [own.name]).visited :=
    htogether.cons (Node.name_of_fragment? hown ▸ hfree.type_name_not_mem hown)
  exact collectsAll_of_nodup (hneeds.visits.nodup hfree hmarked)

end

/-- Every call of a compilation accounts for the names that it visits, if no type is registered
under an unguarded name. It visits the names of the fragments that it returns, each of them once and
none that was visited before. A visit of a type whose name is new returns the type's own fragment
last, and before it what the type needs, of which nothing is dropped. -/
theorem calls_accounted (registry : Registry) (settings : Settings) (root : String)
    (hfree : ∀ t ∈ registry.all, t.key ∉ unguardedNames) {c : Compilation}
    (h : (compile registry settings root).value = .ok c) :
    ∃ log state, Runs (contextOf registry settings root) [.visit (.type root false)]
        (startOf registry root) c.fragments log state ∧
      (∀ r, Logged log r → r.Ran (contextOf registry settings root) ∧ r.Accounted) ∧
      ∀ r ∈ log, ∀ key suffixed, r.call = .visit (.type key suffixed) →
        (Node.type key suffixed).name ∉ r.before.visited →
          r.fragments.getLast?.map Fragment.name = some (Node.type key suffixed).name ∧
            ∃ needed, r.Entered (contextOf registry settings root) log key suffixed needed ∧
              CollectsAll needed := by
  obtain ⟨log, state, hruns, hran, -⟩ := exists_runs_of_compile h
  have hunguarded : UnguardedFree (contextOf registry settings root) := unguardedFree_of_keys hfree
  have hwithin := hruns.within hunguarded (markedTogether_start registry root)
    (begun_visits _ _ [.type root false])
  refine ⟨log, state, hruns, fun r hr => ?_, fun r hr key suffixed hcall hnew => ?_⟩
  · exact hr.ran_accounted fun r hr => ⟨hran r hr, (hwithin r hr).accounted hunguarded⟩
  · obtain ⟨needed, hentered⟩ := hruns.exists_entered hr hcall hnew
    exact ⟨hentered.name_last, needed, hentered,
      hentered.collectsAll hunguarded (hwithin r hr).together⟩

/-- A landing page with two more types, whose keys are names that its compilation makes up. -/
def clashingTypes : ContentTypes :=
  .ofList (landingTypes.toList ++ [
    (ContentType.ofKey "HeroProperty" .component).withBehavior .elementEnabled,
    (ContentType.ofKey "MediaMetadata" .component).withBehavior .elementEnabled])

theorem Runs.visit_mem {v : Node} (h : Runs ctx [.visit v] state fragments log state') :
    ⟨.visit v, state, fragments, state'⟩ ∈ log := by
  cases h with
  | seen _ tail | metadata _ tail =>
      cases tail
      exact List.mem_singleton_self _
  | type _ _ _ tail =>
      cases tail
      exact List.mem_append_right _ (List.mem_singleton_self _)
  | composition _ _ tail =>
      cases tail
      rw [List.append_nil]
      exact List.mem_append_right _ (List.mem_singleton_self _)

theorem calls_accounted_clashing :
    ∃ c log, (compile clashingTypes.registry .initial "Landing").value = .ok c ∧
      (∀ r, Logged log r → r.Accounted) ∧
      ∃ r ∈ log, r.call = .visit (.type "Landing" false) ∧ r.added.card = 9 ∧
        r.fragments.map Fragment.name = [mediaMetadataName, "Photo", "_image", "HeroProperty",
          "Hero", compositionComponentName, compositionNodeName, experienceDataName, "Landing"] ∧
        ∃ needed, r.Entered (contextOf clashingTypes.registry .initial "Landing") log "Landing"
          false needed ∧ needed.length = 8 ∧ CollectsAll needed := by
  have hfree : ∀ t ∈ clashingTypes.registry.all, t.key ∉ unguardedNames := by decide
  obtain ⟨c, hc⟩ := exists_ok_of_isSome (show
    (compile clashingTypes.registry .initial "Landing").value.toOption.isSome = true from rfl)
  have hvalue : ((compile clashingTypes.registry .initial "Landing").value.toOption.map
      fun c => c.fragments.map Fragment.name) =
        some [mediaMetadataName, "Photo", "_image", "HeroProperty", "Hero",
          compositionComponentName, compositionNodeName, experienceDataName, "Landing"] := rfl
  rw [hc] at hvalue
  have hnames : c.fragments.map Fragment.name = _ := Option.some.inj hvalue
  obtain ⟨log, state, hruns, haccounted, hentered⟩ := calls_accounted _ _ _ hfree hc
  have hroot := hruns.visit_mem
  have hadded := (haccounted _ (.call hroot)).2
  obtain ⟨-, needed, hneeded, hcollects⟩ := hentered _ hroot "Landing" false rfl List.not_mem_nil
  refine ⟨c, log, hc, fun r hr => (haccounted r hr).2, _, hroot, rfl, ?_, hnames, needed, hneeded,
    ?_, hcollects⟩
  · rw [hadded.names, List.toFinset_card_of_nodup hadded.nodup, hnames]
    rfl
  · obtain ⟨own, within, inner, -, -, -, hfragments⟩ := hneeded
    have hlength := congrArg List.length hnames
    rw [hcollects.firsts_eq] at hfragments
    simp only at hfragments
    simpa [hfragments] using hlength

end ContentQuery.Compile
