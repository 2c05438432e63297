import ContentQuery.Proofs.Threshold

/-!
What form elements change. Whether they count is asked only where a composition is made, so that a
compilation without one goes the same way with them, `walkOf_formElements`. Where there is a
composition the two compilations part, but they follow the same graph of spreads up to the types
that a composition may hold. As long as names tell nodes apart, form elements only add to it,
`form_elements_enlarge`.
-/

namespace ContentQuery.Compile

variable {α β : Type} {name : String}

/-- As far as the first step succeeds and does not visit the name, the second one does the same. -/
def Replays (name : String) (step step' : Walk α) : Prop :=
  ∀ ⦃state a out⦄, step.run state = (.ok a, out) →
    state.visited ⊆ out.visited ∧ (name ∉ out.visited → step'.run state = (.ok a, out))

theorem Replays.self {step step' : Walk α} (h : Replays name step step') :
    Replays name step step :=
  fun _ _ _ hrun => ⟨(h hrun).1, fun _ => hrun⟩

theorem Replays.of_visited {step : Walk α}
    (h : ∀ state, (step.run state).2.visited = state.visited) : Replays name step step := by
  intro state a out hrun
  have hvisited := h state
  rw [hrun] at hvisited
  exact ⟨fun _ => (hvisited ▸ ·), fun _ => hrun⟩

theorem Replays.bind {step step' : Walk α} {next next' : α → Walk β}
    (hstep : Replays name step step') (hnext : ∀ a, Replays name (next a) (next' a)) :
    Replays name (step >>= next) (step' >>= next') := by
  intro state b out hrun
  rw [run_bind] at hrun
  rcases hinner : step.run state with ⟨error | a, inner⟩
  · rw [hinner] at hrun
    cases hrun
  · rw [hinner] at hrun
    obtain ⟨hsub, hsame⟩ := hstep hinner
    obtain ⟨hsub', hsame'⟩ := hnext a hrun
    refine ⟨List.Subset.trans hsub hsub', fun hname => ?_⟩
    rw [run_bind, hsame fun hmem => hname (hsub' hmem)]
    exact hsame' hname

theorem Replays.mark (marked : String) :
    Replays name (Compile.mark marked) (Compile.mark marked) := by
  rintro state a out ⟨⟩
  exact ⟨List.subset_cons_self _ _, fun _ => rfl⟩

theorem Replays.of_mark {next : Unit → Walk β} {step' : Walk β}
    (hnext : Replays name (next ()) (next ())) :
    Replays name (Compile.mark name >>= next) step' := by
  intro state b out hrun
  rw [run_mark_bind] at hrun
  obtain ⟨hsub, -⟩ := hnext hrun
  refine ⟨List.Subset.trans (List.subset_cons_self _ _) hsub, fun hname => ?_⟩
  exact absurd (hsub List.mem_cons_self) hname

theorem compatible_replays (name : String) : Compatible (Replays name) where
  pure a := .of_visited fun _ => rfl
  throw error := by
    rintro state a out ⟨⟩
  bind := .bind
  isVisited other := .of_visited fun _ => rfl
  mark := .mark
  record _ := .of_visited fun _ => rfl

theorem checkFanOut_replays {ctx ctx' : Context} (hroot : ctx.root = ctx'.root)
    (hthreshold : ctx.settings.threshold = ctx'.settings.threshold) (property : String)
    (p : Property) (count : Nat) :
    Replays name (checkFanOut ctx property p count) (checkFanOut ctx' property p count) := by
  have hsame : checkFanOut ctx property p count = checkFanOut ctx' property p count := by
    rw [checkFanOut, checkFanOut, hroot, hthreshold]
  rw [hsame]
  refine .of_visited fun state => ?_
  rw [run_checkFanOut]
  dsimp only
  split <;> rfl

theorem visitComposition_replays {ctx ctx' : Context} {visit visit' : Visit}
    (hvisit : ∀ key suffixed,
      Replays experienceDataName (visit key (suffix suffixed)) (visit' key (suffix suffixed))) :
    Replays experienceDataName (visitComposition ctx visit) (visitComposition ctx' visit') := by
  have hrel := compatible_replays experienceDataName
  unfold visitComposition
  refine hrel.bind (hrel.isVisited _) fun seen => hrel.ite (fun _ => hrel.pure _) fun _ => ?_
  refine .of_mark ?_
  refine hrel.bind (hrel.mark _) fun _ => ?_
  refine hrel.bind (hrel.mark _) fun _ => ?_
  refine hrel.bind (hrel.record rfl) fun _ => ?_
  rw [visitAll_eq]
  exact hrel.map _ (hrel.visitNodes (fun key suffixed => (hvisit key suffixed).self) _)

section

variable (registry : Registry) (settings : Settings) (root : String)

/-- The context of a compilation with form elements or without them. -/
abbrev formContext (formElements : Bool) : Context :=
  contextOf registry (settings.withFormElements formElements) root

theorem sameView_formContext (formElements formElements' : Bool) :
    SameView (formContext registry settings root formElements)
      (formContext registry settings root formElements') :=
  ⟨rfl, rfl, fun _ => Iff.rfl⟩

theorem visitWithin_replays (formElements formElements' : Bool) (depth : Nat) (key : String)
    (suffixed : Bool) :
    Replays experienceDataName
      (visitWithin (formContext registry settings root formElements) depth key (suffix suffixed))
      (visitWithin (formContext registry settings root formElements') depth key
        (suffix suffixed)) := by
  induction depth generalizing key suffixed with
  | zero => exact (compatible_replays _).throw _
  | succ depth ih =>
      exact (compatible_replays _).visitWith_of_sameView ih
        (sameView_formContext registry settings root formElements formElements')
        (checkFanOut_replays rfl rfl) (visitComposition_replays ih) key (suffix suffixed)

end

section

variable {registry : Registry} {settings : Settings} {root : String}

/-- Without a composition the walk with form elements is the walk without them. -/
theorem walkOf_formElements {formElements formElements' : Bool} {c : Compilation}
    (h : (compile registry (settings.withFormElements formElements) root).value = .ok c)
    (hnone : experienceDataName ∉ c.fragments.map Fragment.name) :
    walkOf registry (settings.withFormElements formElements') root =
      walkOf registry (settings.withFormElements formElements) root := by
  have hfollows := visitWithin_follows (formContext registry settings root formElements)
    (maxDepth (Snapshot.capture registry)) root false (startOf registry root)
  rw [compile_eq] at h
  rcases hwalk : walkOf registry (settings.withFormElements formElements) root with
    ⟨error | fragments, state⟩
  · rw [hwalk] at h
    cases h
  · rw [hwalk] at h
    obtain rfl := Except.ok.inj h
    have hout : Outcome (formContext registry settings root formElements) _ [.type root false] []
        id (walkOf registry (settings.withFormElements formElements) root) := hfollows
    rw [hwalk] at hout
    obtain ⟨_, rfl, hvisits⟩ := hout
    refine (visitWithin_replays registry settings root formElements formElements' _ root false
      hwalk).2 ?_
    rw [hvisits.mem_visited_iff]
    simpa using hnone

end

namespace SameView

variable {ctx ctx' : Context} (h : SameView ctx ctx')
include h

theorem targets_type (key : String) (suffixed : Bool) :
    (Node.type key suffixed).targets ctx = (Node.type key suffixed).targets ctx' := by
  have htargets : ∀ t, declaredTargets ctx t = declaredTargets ctx' t := by
    intro t
    simp only [declaredTargets, propertyTargets, h.sameIndex.kindTargets]
  simp only [Node.targets, h.get?, htargets]

theorem fragment?_of_ne {v : Node} (hv : v ≠ .compositionComponent) :
    v.fragment? ctx = v.fragment? ctx' := by
  cases v with
  | type key suffixed => simp only [Node.fragment?, h.get?, h.sameIndex.declaredBody]
  | compositionComponent => exact absurd rfl hv
  | mediaMetadata | experienceData | compositionNode => rfl

theorem fragment?_eq_none_iff (v : Node) : v.fragment? ctx = none ↔ v.fragment? ctx' = none := by
  by_cases hv : v = .compositionComponent
  · subst hv
    simp [Node.fragment?]
  · rw [h.fragment?_of_ne hv]

end SameView

/-- The key is that of a form element. -/
def isFormKey (snapshot : Snapshot) (key : String) : Bool :=
  (snapshot.get? key).any ContentType.isFormElement

section

variable (registry : Registry) (settings : Settings) (root : String)

theorem eligibleKeys_formContext :
    eligibleKeys (formContext registry settings root false) =
      (eligibleKeys (formContext registry settings root true)).filter fun key =>
        !isFormKey (Snapshot.capture registry) key := by
  rw [eligibleKeys, eligibleKeys, List.filter_map, List.filter_filter]
  refine congrArg (List.map ContentType.key) (List.filter_congr fun t ht => ?_)
  have hget : (Snapshot.capture registry).get? t.key = some t := get?_eq_some_iff.mpr ⟨ht, rfl⟩
  simp [isFormKey, hget, Settings.withFormElements, Bool.and_comm]

theorem leads_formContext {v w : Node}
    (h : Leads (formContext registry settings root false) v w) :
    Leads (formContext registry settings root true) v w := by
  cases v with
  | type key suffixed =>
      rwa [Leads, (sameView_formContext registry settings root true false).targets_type]
  | compositionComponent =>
      obtain ⟨key, hkey, rfl⟩ := List.mem_map.mp h
      rw [eligibleKeys_formContext] at hkey
      exact List.mem_map_of_mem (List.mem_of_mem_filter hkey)
  | mediaMetadata | experienceData | compositionNode => exact h

theorem needed_formContext {v : Node}
    (h : Needed (formContext registry settings root false) v) :
    Needed (formContext registry settings root true) v :=
  Relation.ReflTransGen.mono (fun _ _ => leads_formContext registry settings root) _ _ h

end

/-- The second compilation has all fragments of the first one, and they are the same but for the
types that a composition may hold, of which the first one leaves out the form elements. -/
structure Enlarges (ctx : Context) (c c' : Compilation) : Prop where
  names : ∀ name, name ∈ c.fragments.map Fragment.name → name ∈ c'.fragments.map Fragment.name
  fragments : ∀ f ∈ c.fragments, ∀ f' ∈ c'.fragments, f.name = f'.name →
    f.name ≠ compositionComponentName → f = f'
  composition : ∀ f ∈ c.fragments, ∀ f' ∈ c'.fragments, f.name = f'.name →
    f.name = compositionComponentName →
      f'.body = typedBody ((eligibleKeys ctx).map spread) ∧
        f = { f' with
          body := typedBody (((eligibleKeys ctx).filter fun key =>
            !isFormKey ctx.snapshot key).map spread) }

section

variable {registry : Registry} {settings : Settings} {root : String}

/-- As form elements only add to what the root needs, nothing needed is missing without them. -/
theorem exists_ok_without_forms
    (hfree : CollisionFree (referencedKeys (formContext registry settings root true)))
    {c' : Compilation}
    (h : (compile registry (settings.withFormElements true) root).value = .ok c') :
    ∃ c, (compile registry (settings.withFormElements false) root).value = .ok c := by
  have hdistinct' : NamesDistinct (formContext registry settings root true) := hfree.namesDistinct
  have hdistinct : NamesDistinct (formContext registry settings root false) :=
    fun v w hv hw => hdistinct' v w (needed_formContext _ _ _ hv) (needed_formContext _ _ _ hw)
  refine hdistinct.exists_ok_iff.mpr fun v hv hnone => ?_
  refine hdistinct'.exists_ok_iff.mp ⟨c', h⟩ v (needed_formContext _ _ _ hv) ?_
  exact ((sameView_formContext _ _ _ false true).fragment?_eq_none_iff v).mp hnone

theorem enlarges_of_ok
    (hfree : CollisionFree (referencedKeys (formContext registry settings root true)))
    {c c' : Compilation}
    (h : (compile registry (settings.withFormElements false) root).value = .ok c)
    (h' : (compile registry (settings.withFormElements true) root).value = .ok c') :
    Enlarges (formContext registry settings root true) c c' := by
  have hdistinct : NamesDistinct (formContext registry settings root true) := hfree.namesDistinct
  have hnode : ∀ f ∈ c.fragments, ∃ v, Needed (formContext registry settings root true) v ∧
      v.name = f.name ∧ v.fragment? (formContext registry settings root false) = some f := by
    intro f hf
    obtain ⟨v, hv, hfragment⟩ := exists_needed_of_mem h hf
    exact ⟨v, needed_formContext _ _ _ hv, (Node.name_of_fragment? hfragment).symm, hfragment⟩
  constructor
  · intro name hname
    obtain ⟨f, hf, rfl⟩ := List.mem_map.mp hname
    obtain ⟨v, hv, hvname, -⟩ := hnode f hf
    exact (hdistinct.mem_names_iff h' f.name).mpr ⟨v, hv, hvname⟩
  · intro f hf f' hf' hname hother
    obtain ⟨v, hv, hvname, hfragment⟩ := hnode f hf
    have hfragment' := hdistinct.fragment?_of_name h' hv hf' (hname.symm.trans hvname.symm)
    have hne : v ≠ .compositionComponent := by
      rintro rfl
      exact hother hvname.symm
    rw [(sameView_formContext _ _ _ false true).fragment?_of_ne hne] at hfragment
    exact Option.some.inj (hfragment.symm.trans hfragment')
  · intro f hf f' hf' hname hcomponent
    obtain ⟨v, hv, hvname, hfragment⟩ := hnode f hf
    have hfragment' := hdistinct.fragment?_of_name h' hv hf' (hname.symm.trans hvname.symm)
    obtain rfl := hfree.name_inj (w := .compositionComponent) (reached_of_needed hv).known trivial
      (hvname.trans hcomponent)
    obtain rfl := Option.some.inj hfragment
    obtain rfl := Option.some.inj hfragment'
    rw [compositionComponent_eq (nodup_keys registry),
      compositionComponent_eq (nodup_keys registry), eligibleKeys_formContext]
    exact ⟨rfl, rfl⟩

end

/-- Form elements only enlarge the composition. A compilation without a composition is the same with
them. Without collisions, one that succeeds with form elements succeeds without them, and all of its
fragments stay as they are but for the types that a composition may hold. -/
theorem form_elements_enlarge (registry : Registry) (settings : Settings) (root : String) :
    (∀ c, (compile registry (settings.withFormElements false) root).value = .ok c →
        experienceDataName ∉ c.fragments.map Fragment.name →
          compile registry (settings.withFormElements true) root =
            compile registry (settings.withFormElements false) root) ∧
      (CollisionFree
          (referencedKeys (contextOf registry (settings.withFormElements true) root)) →
        ∀ c', (compile registry (settings.withFormElements true) root).value = .ok c' →
          ∃ c, (compile registry (settings.withFormElements false) root).value = .ok c ∧
            Enlarges (contextOf registry (settings.withFormElements true) root) c c') := by
  constructor
  · intro c h hnone
    rw [compile_eq, compile_eq, walkOf_formElements h hnone]
  · intro hfree c' h'
    obtain ⟨c, h⟩ := exists_ok_without_forms hfree h'
    exact ⟨c, h, enlarges_of_ok hfree h h'⟩

/-- A page whose composition may hold banners, and forms if they count. -/
def signupTypes : ContentTypes :=
  .ofList [
    (ContentType.ofKey "Signup" .experience).withProperty "banner"
      (.ofKind (.component (.key "Banner"))),
    (ContentType.ofKey "Form" .component).withBehavior .elementEnabled
      |>.withBehavior .formsElementEnabled,
    (ContentType.ofKey "Banner" .component).withBehavior .elementEnabled]

theorem form_elements_enlarge_signup :
    (∃ c c', (compile signupTypes.registry (.withFormElements false .initial) "Signup").value =
          .ok c ∧
        (compile signupTypes.registry (.withFormElements true .initial) "Signup").value = .ok c' ∧
        "Form" ∉ c.fragments.map Fragment.name ∧ "Form" ∈ c'.fragments.map Fragment.name ∧
        Enlarges (contextOf signupTypes.registry (.withFormElements true .initial) "Signup") c c') ∧
      compile signupTypes.registry (.withFormElements true .initial) "Banner" =
        compile signupTypes.registry (.withFormElements false .initial) "Banner" := by
  constructor
  · have hwith : ((compile signupTypes.registry (.withFormElements true .initial)
        "Signup").value.toOption.map fun c => c.fragments.map Fragment.name) = some
          ["BannerProperty", "Form", "Banner", compositionComponentName, compositionNodeName,
            experienceDataName, "Signup"] := rfl
    have hwithout : ((compile signupTypes.registry (.withFormElements false .initial)
        "Signup").value.toOption.map fun c => c.fragments.map Fragment.name) = some
          ["BannerProperty", "Banner", compositionComponentName, compositionNodeName,
            experienceDataName, "Signup"] := rfl
    obtain ⟨c', hc'⟩ := exists_ok_of_isSome
      (show (compile signupTypes.registry (.withFormElements true .initial)
        "Signup").value.toOption.isSome = true from rfl)
    obtain ⟨c, hc, henlarges⟩ :=
      (form_elements_enlarge signupTypes.registry .initial "Signup").2 (by decide) c' hc'
    rw [hc'] at hwith
    rw [hc] at hwithout
    have hnames' : c'.fragments.map Fragment.name = _ := Option.some.inj hwith
    have hnames : c.fragments.map Fragment.name = _ := Option.some.inj hwithout
    exact ⟨c, c', hc, hc', hnames ▸ by decide, hnames' ▸ by decide, henlarges⟩
  · have hvalue : ((compile signupTypes.registry (.withFormElements false .initial)
        "Banner").value.toOption.map fun c => c.fragments.map Fragment.name) =
          some ["Banner"] := rfl
    obtain ⟨c, hc⟩ := exists_ok_of_isSome
      (show (compile signupTypes.registry (.withFormElements false .initial)
        "Banner").value.toOption.isSome = true from rfl)
    rw [hc] at hvalue
    have hnames : c.fragments.map Fragment.name = _ := Option.some.inj hvalue
    exact (form_elements_enlarge signupTypes.registry .initial "Banner").1 c hc
      (hnames ▸ by decide)

end ContentQuery.Compile
