import ContentQuery.Proofs.Threshold

/-!
The calls of a compilation. `Runs` says which calls are made one after another from one state to
another, what they return, and in which order they and the calls that they make return. A visit that
succeeds makes its calls like this, each carried out by the steps of the compilation,
`visitWithin_made`.
-/

namespace ContentQuery.Compile

/-- What a compilation is busy with at one point. -/
inductive Call where
  /-- The fragment of a node is asked for. -/
  | visit (v : Node)
  /-- A property is expanded, for the fragment of the type that has it. -/
  | property (own : Fragment) (name : String) (p : Property)

namespace Call

/-- The nodes that a call asks for itself, one after another. -/
def nodes (ctx : Context) : Call → List Node
  | .visit v => [v]
  | .property _ _ p => if p.isDisabled then [] else kindTargets ctx p.kind

/-- What a call carries out if further visits go through `visit`. -/
def step (ctx : Context) (visit : Visit) : Call → Walk (List Fragment)
  | .visit (.type key suffixed) => visit key (suffix suffixed)
  | .visit .mediaMetadata => visitMetadata
  | .visit .experienceData => visitComposition ctx visit
  | .visit _ => return []
  | .property _ name p => do
      let expansion ← expand ctx visit name p.kind
      return expansion.fragments

end Call

/-- A call that returned: the state before it, what it returned, and the state after it. -/
structure Returned where
  call : Call
  before : State
  fragments : List Fragment
  after : State

/-- The steps of the compilation come from the one state to the other with these fragments. -/
def Returned.Ran (ctx : Context) (r : Returned) : Prop :=
  ∃ depth, (r.call.step ctx (visitWithin ctx depth)).run r.before = (.ok r.fragments, r.after)

namespace State

def marked (names : List String) (state : State) : State :=
  { state with visited := names ++ state.visited }

def told (event : Event) (state : State) : State :=
  { state with events := state.events ++ [event] }

/-- Only declared types tell that their fragments are made. -/
def emitted (key : String) (event : Event) (state : State) : State :=
  match builtin? key with
  | some _ => state
  | none => state.told event

/-- The state after the check for fan-out. -/
def checked (ctx : Context) (name : String) (p : Property) (count : Nat) (state : State) : State :=
  if ctx.settings.threshold < count && FanOut.isUnconstrained p
    then state.warn ctx.settings.threshold ⟨ctx.root, name, count⟩ else state

@[simp]
theorem visited_marked (names : List String) (state : State) :
    (state.marked names).visited = names ++ state.visited := rfl

@[simp]
theorem visited_emitted (key : String) (event : Event) (state : State) :
    (state.emitted key event).visited = state.visited := by
  unfold emitted
  split <;> rfl

@[simp]
theorem visited_checked (ctx : Context) (name : String) (p : Property) (count : Nat)
    (state : State) : (state.checked ctx name p count).visited = state.visited := by
  unfold checked
  split <;> rfl

end State

/-- The calls for what the fragment of a declared type needs. -/
def declaredCalls (own : Fragment) (t : ContentType) : List Call :=
  (metadataTargets t.baseType).map .visit ++
    t.properties.map (fun property => .property own property.1 property.2) ++
      (compositionTargets t.baseType).map .visit

/-- The calls for what the fragment of a type needs. -/
def typeCalls (ctx : Context) (own : Fragment) (key : String) : List Call :=
  match builtin? key with
  | some base => (metadataTargets base).map .visit
  | none =>
      match ctx.snapshot.get? key with
      | some t => declaredCalls own t
      | none => []

/-- The calls are made one after another, from one state to another, and return the fragments. The
log has every call that returned meanwhile, each after those that it made itself. -/
inductive Runs (ctx : Context) :
    List Call → State → List Fragment → List Returned → State → Prop
  | nil {state : State} : Runs ctx [] state [] [] state
  | seen {v : Node} {calls : List Call} {state state' : State} {fragments : List Fragment}
      {log : List Returned} (hseen : v.name ∈ state.visited)
      (tail : Runs ctx calls state fragments log state') :
      Runs ctx (.visit v :: calls) state fragments (⟨.visit v, state, [], state⟩ :: log) state'
  | metadata {calls : List Call} {state state' : State} {fragments : List Fragment}
      {log : List Returned} (hnew : mediaMetadataName ∉ state.visited)
      (tail : Runs ctx calls (state.marked [mediaMetadataName]) fragments log state') :
      Runs ctx (.visit .mediaMetadata :: calls) state (mediaMetadata :: fragments)
        (⟨.visit .mediaMetadata, state, [mediaMetadata], state.marked [mediaMetadataName]⟩ :: log)
        state'
  | type {key : String} {suffixed : Bool} {calls : List Call} {state inner state' : State}
      {own : Fragment} {needed fragments : List Fragment} {within log : List Returned}
      (hnew : (Node.type key suffixed).name ∉ state.visited)
      (hown : (Node.type key suffixed).fragment? ctx = some own)
      (needs : Runs ctx (typeCalls ctx own key) (state.marked [own.name]) needed within inner)
      (tail : Runs ctx calls (inner.emitted key (.fragmentEmitted own.name
        (Keyed.firsts Fragment.name needed).length)) fragments log state') :
      Runs ctx (.visit (.type key suffixed) :: calls) state
        (Keyed.firsts Fragment.name needed ++ own :: fragments)
        (within ++ ⟨.visit (.type key suffixed), state, Keyed.firsts Fragment.name needed ++ [own],
          inner.emitted key (.fragmentEmitted own.name
            (Keyed.firsts Fragment.name needed).length)⟩ :: log)
        state'
  | composition {calls : List Call} {state inner state' : State}
      {needed fragments : List Fragment} {within log : List Returned}
      (hnew : experienceDataName ∉ state.visited)
      (needs : Runs ctx ((eligibleNodes ctx).map .visit)
        ((state.marked compositionNames).told
          (.compositionStarted (eligibleKeys ctx).length ctx.settings.formElements))
        needed within inner)
      (tail : Runs ctx calls inner fragments log state') :
      Runs ctx (.visit .experienceData :: calls) state
        (needed ++ compositionFragments ctx ++ fragments)
        (within ++ ⟨.visit .experienceData, state, needed ++ compositionFragments ctx, inner⟩ ::
          log)
        state'
  | disabled {own : Fragment} {name : String} {p : Property} {calls : List Call}
      {state state' : State} {fragments : List Fragment} {log : List Returned}
      (hp : p.isDisabled = true)
      (tail : Runs ctx calls (state.told (.disabledSkipped own.typeCondition name)) fragments log
        state') :
      Runs ctx (.property own name p :: calls) state fragments log state'
  | property {own : Fragment} {name : String} {p : Property} {calls : List Call}
      {state inner state' : State} {needed fragments : List Fragment}
      {within log : List Returned} (hp : p.isDisabled = false)
      (needs : Runs ctx ((kindTargets ctx p.kind).map .visit) state needed within inner)
      (tail : Runs ctx calls (inner.checked ctx name p needed.length) fragments log state') :
      Runs ctx (.property own name p :: calls) state (needed ++ fragments)
        (within ++ ⟨.property own name p, state, needed, inner⟩ :: log) state'

variable {ctx : Context} {calls calls' : List Call} {state inner state' : State}
  {fragments needed : List Fragment} {log log' : List Returned}

theorem Runs.append (h : Runs ctx calls state needed log inner)
    (h' : Runs ctx calls' inner fragments log' state') :
    Runs ctx (calls ++ calls') state (needed ++ fragments) (log ++ log') state' := by
  induction h with
  | nil => exact h'
  | seen hseen _ ih => exact .seen hseen (ih h')
  | metadata hnew _ ih => exact .metadata hnew (ih h')
  | type hnew hown needs _ _ ih =>
      simp only [List.append_assoc, List.cons_append]
      exact .type hnew hown needs (ih h')
  | composition hnew needs _ _ ih =>
      rw [List.append_assoc, List.append_assoc _ _ log', List.cons_append]
      exact .composition hnew needs (ih h')
  | disabled hp _ ih => exact .disabled hp (ih h')
  | property hp needs _ _ ih =>
      rw [List.append_assoc, List.append_assoc, List.cons_append]
      exact .property hp needs (ih h')

theorem flatMap_nodes_visit (vs : List Node) :
    (vs.map Call.visit).flatMap (Call.nodes ctx) = vs := by
  simp [List.flatMap_map, Call.nodes]

theorem typeCalls_builtin {own : Fragment} {key : String} {base : BaseType}
    (h : builtin? key = some base) :
    typeCalls ctx own key = (metadataTargets base).map .visit := by
  rw [typeCalls, h]

theorem typeCalls_declared {own : Fragment} {key : String} {t : ContentType}
    (h : Declared ctx key t) : typeCalls ctx own key = declaredCalls own t := by
  rw [typeCalls, h.1, h.2]

theorem flatMap_nodes_properties (own : Fragment) (properties : List (String × Property)) :
    (properties.map fun property => Call.property own property.1 property.2).flatMap
      (Call.nodes ctx) = propertyTargets ctx properties := by
  induction properties with
  | nil => rfl
  | cons property rest ih =>
      rw [List.map_cons, List.flatMap_cons, ih]
      cases hp : property.2.isDisabled <;> simp [Call.nodes, propertyTargets, enabled, hp]

theorem flatMap_nodes_typeCalls {own : Fragment} {key : String} {suffixed : Bool}
    (hown : (Node.type key suffixed).fragment? ctx = some own) :
    (typeCalls ctx own key).flatMap (Call.nodes ctx) = (Node.type key suffixed).targets ctx := by
  rcases Node.eq_of_fragment?_type hown with ⟨base, hb, -⟩ | ⟨t, ht, -⟩
  · rw [typeCalls_builtin hb, flatMap_nodes_visit, Node.targets_builtin hb]
  · rw [typeCalls_declared ht, Node.targets_declared ht]
    simp only [declaredCalls, List.flatMap_append, flatMap_nodes_visit, flatMap_nodes_properties,
      declaredTargets]

theorem Runs.visits (h : Runs ctx calls state fragments log state') :
    Visits ctx (calls.flatMap (Call.nodes ctx)) state.visited fragments state'.visited := by
  induction h with
  | nil => exact .nil
  | seen hseen _ ih => exact .seen hseen ih
  | metadata hnew _ ih => exact .metadata hnew ih
  | type hnew hown _ _ ihNeeds ih =>
      rw [flatMap_nodes_typeCalls hown, State.visited_marked,
        Node.name_of_fragment? hown] at ihNeeds
      rw [State.visited_emitted] at ih
      exact .type hnew hown ihNeeds ih
  | composition hnew _ _ ihNeeds ih =>
      rw [flatMap_nodes_visit] at ihNeeds
      exact .composition hnew ihNeeds ih
  | disabled hp _ ih =>
      rw [List.flatMap_cons, Call.nodes, if_pos hp]
      exact ih
  | property hp _ _ ihNeeds ih =>
      rw [flatMap_nodes_visit] at ihNeeds
      rw [State.visited_checked] at ih
      rw [List.flatMap_cons, Call.nodes, hp]
      exact ihNeeds.append ih

/-- The calls are made as a run has them, and each on the way is carried out by the compilation. -/
def Made (ctx : Context) (calls : List Call) (state : State) (fragments : List Fragment)
    (state' : State) : Prop :=
  ∃ log, Runs ctx calls state fragments log state' ∧ ∀ r ∈ log, r.Ran ctx

theorem Made.nil : Made ctx [] state [] state :=
  ⟨[], .nil, by simp⟩

theorem Made.append (h : Made ctx calls state needed inner)
    (h' : Made ctx calls' inner fragments state') :
    Made ctx (calls ++ calls') state (needed ++ fragments) state' := by
  obtain ⟨log, hruns, hran⟩ := h
  obtain ⟨log', hruns', hran'⟩ := h'
  exact ⟨log ++ log', hruns.append hruns', List.forall_mem_append.mpr ⟨hran, hran'⟩⟩

theorem Made.type {key : String} {suffixed : Bool} {own : Fragment}
    (hnew : (Node.type key suffixed).name ∉ state.visited)
    (hown : (Node.type key suffixed).fragment? ctx = some own)
    (hneeds : Made ctx (typeCalls ctx own key) (state.marked [own.name]) needed inner)
    (hran : Returned.Ran ctx ⟨.visit (.type key suffixed), state,
      Keyed.firsts Fragment.name needed ++ [own], inner.emitted key (.fragmentEmitted own.name
        (Keyed.firsts Fragment.name needed).length)⟩) :
    Made ctx [.visit (.type key suffixed)] state (Keyed.firsts Fragment.name needed ++ [own])
      (inner.emitted key (.fragmentEmitted own.name
        (Keyed.firsts Fragment.name needed).length)) := by
  obtain ⟨log, hruns, hlog⟩ := hneeds
  exact ⟨_, .type hnew hown hruns .nil,
    List.forall_mem_append.mpr ⟨hlog, List.forall_mem_singleton.mpr hran⟩⟩

section

variable {α β : Type}

theorem exists_run_of_bind {step : Walk α} {next : α → Walk β} {b : β}
    (h : (step >>= next).run state = (.ok b, state')) :
    ∃ a inner, step.run state = (.ok a, inner) ∧ (next a).run inner = (.ok b, state') := by
  rw [run_bind] at h
  rcases hstep : step.run state with ⟨error | a, inner⟩
  · rw [hstep] at h
    cases h
  · rw [hstep] at h
    exact ⟨a, inner, rfl, h⟩

theorem exists_run_of_bindIte {c : Prop} [Decidable c] {first second : Walk α} {next : α → Walk β}
    {b : β} (h : (if c then first >>= next else second >>= next).run state = (.ok b, state')) :
    ∃ a inner, (if c then first else second).run state = (.ok a, inner) ∧
      (next a).run inner = (.ok b, state') := by
  -- What follows a conditional stands in both of its branches once it is elaborated.
  by_cases hc : c
  · rw [if_pos hc] at h ⊢
    exact exists_run_of_bind h
  · rw [if_neg hc] at h ⊢
    exact exists_run_of_bind h

theorem visitMetadata_made (h : visitMetadata.run state = (.ok fragments, state')) :
    Made ctx [.visit .mediaMetadata] state fragments state' := by
  have hran : (⟨.visit .mediaMetadata, state, fragments, state'⟩ : Returned).Ran ctx := ⟨0, h⟩
  rw [visitMetadata, run_isVisited_bind] at h
  by_cases hseen : mediaMetadataName ∈ state.visited
  · rw [List.contains_iff_mem.mpr hseen] at h
    cases h
    exact ⟨_, .seen hseen .nil, List.forall_mem_singleton.mpr hran⟩
  · rw [show state.visited.contains mediaMetadataName = false by simpa using hseen] at h
    cases h
    exact ⟨_, .metadata hseen .nil, List.forall_mem_singleton.mpr hran⟩

theorem metadataTargets_made {base : BaseType}
    (h : (if base.isMedia then visitMetadata else pure []).run state = (.ok fragments, state')) :
    Made ctx ((metadataTargets base).map .visit) state fragments state' := by
  unfold metadataTargets
  split at h
  · rename_i hmedia
    rw [if_pos hmedia]
    exact visitMetadata_made h
  · rename_i hmedia
    rw [if_neg hmedia]
    cases h
    exact .nil

variable (ctx) in
theorem visitBase_made {base : BaseType} {name : String}
    (h : (visitBase base name).run state = (.ok fragments, state')) :
    ∃ needed, Made ctx ((metadataTargets base).map .visit) state needed state' ∧
      fragments = Keyed.firsts Fragment.name needed ++ [⟨name, base.graphType, baseBody base⟩] := by
  unfold visitBase baseBody at *
  by_cases hmedia : base.isMedia
  · rw [if_pos hmedia] at h
    obtain ⟨needed, inner, hmetadata, hrest⟩ := exists_run_of_bind h
    cases hrest
    have hmade : Made ctx ((metadataTargets base).map .visit) state needed state' := by
      apply metadataTargets_made
      rwa [if_pos hmedia]
    refine ⟨needed, hmade, ?_⟩
    obtain ⟨log, hruns, -⟩ := hmade
    have hvisits := hruns.visits
    rw [flatMap_nodes_visit] at hvisits
    rw [firsts_of_visits_metadata hvisits, if_pos hmedia]
  · rw [if_neg hmedia] at h
    cases h
    refine ⟨[], metadataTargets_made ?_, by rw [if_neg hmedia]; rfl⟩
    rw [if_neg hmedia]
    rfl

theorem exists_type_of_mem_kindTargets {kind : PropertyKind} {v : Node}
    (h : v ∈ kindTargets ctx kind) : ∃ key suffixed, v = .type key suffixed := by
  rcases kindTargets_cases kind h with ⟨key, suffixed, rfl, -⟩ | ⟨base, rfl⟩
  · exact ⟨key, suffixed, rfl⟩
  · exact ⟨base.tag, false, rfl⟩

section

variable {depth : Nat} (hvisit : ∀ {key : String} {suffixed : Bool} {state : State}
  {fragments : List Fragment} {state' : State},
    (visitWithin ctx depth key (suffix suffixed)).run state = (.ok fragments, state') →
      Made ctx [.visit (.type key suffixed)] state fragments state')
include hvisit

theorem visitNodes_made {vs : List Node} (hvs : ∀ v ∈ vs, ∃ key suffixed, v = .type key suffixed)
    (h : (visitNodes (visitWithin ctx depth) vs).run state = (.ok fragments, state')) :
    Made ctx (vs.map .visit) state fragments state' := by
  induction vs generalizing state fragments with
  | nil =>
      cases h
      exact .nil
  | cons v vs ih =>
      obtain ⟨key, suffixed, rfl⟩ := hvs v List.mem_cons_self
      obtain ⟨needed, inner, hhead, hrest⟩ := exists_run_of_bind h
      obtain ⟨more, inner', htail, hpure⟩ := exists_run_of_bind hrest
      cases hpure
      exact (hvisit hhead).append (ih (fun v hv => hvs v (List.mem_cons_of_mem _ hv)) htail)

theorem visitAll_made {keys : List String}
    (h : (visitAll (visitWithin ctx depth) keys).run state = (.ok fragments, state')) :
    Made ctx ((keys.map (.type · false)).map .visit) state fragments state' := by
  rw [visitAll_eq] at h
  refine visitNodes_made hvisit ?_ h
  rintro v hv
  obtain ⟨key, -, rfl⟩ := List.mem_map.mp hv
  exact ⟨key, false, rfl⟩

theorem expand_made {name : String} {kind : PropertyKind} {e : Expansion}
    (h : (expand ctx (visitWithin ctx depth) name kind).run state = (.ok e, state')) :
    e.field = field ctx name kind ∧
      Made ctx ((kindTargets ctx kind).map .visit) state e.fragments state' := by
  rw [expand_eq] at h
  obtain ⟨fragments, inner, hnodes, hpure⟩ := exists_run_of_bind h
  cases hpure
  exact ⟨rfl, visitNodes_made hvisit (fun _ hv => exists_type_of_mem_kindTargets hv) hnodes⟩

theorem expandProperties_made {t : ContentType} (own : Fragment) (hown : own.typeCondition = t.key)
    {properties : List (String × Property)} {result : List String × List Fragment}
    (h : (expandProperties ctx (visitWithin ctx depth) t properties).run state =
      (.ok result, state')) :
    result.1 = fields ctx t properties ∧
      Made ctx (properties.map fun property => .property own property.1 property.2) state result.2
        state' := by
  induction properties generalizing state result with
  | nil =>
      cases h
      exact ⟨rfl, .nil⟩
  | cons property rest ih =>
      obtain ⟨name, p⟩ := property
      unfold expandProperties at h
      cases hp : p.isDisabled with
      | true =>
          rw [if_pos hp] at h
          obtain ⟨_, inner, hrecord, hrest⟩ := exists_run_of_bind h
          cases hrecord
          obtain ⟨hfields, log, hruns, hran⟩ := ih hrest
          refine ⟨by simp [hfields, fields, enabled, hp], log, .disabled hp ?_, hran⟩
          rw [hown]
          exact hruns
      | false =>
          rw [hp, if_neg Bool.false_ne_true] at h
          obtain ⟨e, inner, hexpand, hrest⟩ := exists_run_of_bind h
          obtain ⟨_, checked, hcheck, hrest⟩ := exists_run_of_bind hrest
          obtain ⟨⟨texts, fragments⟩, inner', hrest, hpure⟩ := exists_run_of_bind hrest
          cases hpure
          rw [run_checkFanOut] at hcheck
          cases hcheck
          obtain ⟨hfield, within, hneeds, hran⟩ := expand_made hvisit hexpand
          obtain ⟨hfields, log, hruns, hran'⟩ := ih hrest
          refine ⟨?_, _, .property hp hneeds hruns, ?_⟩
          · simp only at hfields
            simp [hfield, hfields, fields, enabled, hp]
          · have hstep : Returned.Ran ctx ⟨.property own name p, state, e.fragments, inner⟩ := by
              refine ⟨depth, ?_⟩
              rw [Call.step, run_bind, hexpand]
              rfl
            exact List.forall_mem_append.mpr ⟨hran, List.forall_mem_cons.mpr ⟨hstep, hran'⟩⟩

theorem visitComposition_made
    (h : (visitComposition ctx (visitWithin ctx depth)).run state = (.ok fragments, state')) :
    Made ctx [.visit .experienceData] state fragments state' := by
  have hran : (⟨.visit .experienceData, state, fragments, state'⟩ : Returned).Ran ctx :=
    ⟨depth, h⟩
  rw [visitComposition, run_isVisited_bind] at h
  by_cases hseen : experienceDataName ∈ state.visited
  · rw [List.contains_iff_mem.mpr hseen] at h
    cases h
    exact ⟨_, .seen hseen .nil, List.forall_mem_singleton.mpr hran⟩
  · rw [show state.visited.contains experienceDataName = false by simpa using hseen,
      if_neg Bool.false_ne_true, run_mark_bind, run_mark_bind, run_mark_bind] at h
    obtain ⟨_, started, hrecord, hrest⟩ := exists_run_of_bind h
    obtain ⟨needed, inner, hall, hpure⟩ := exists_run_of_bind hrest
    cases hrecord
    cases hpure
    obtain ⟨log, hruns, hlog⟩ := visitAll_made hvisit hall
    have hcomposition := Runs.composition hseen hruns .nil
    rw [List.append_nil] at hcomposition
    exact ⟨_, hcomposition,
      List.forall_mem_append.mpr ⟨hlog, List.forall_mem_singleton.mpr hran⟩⟩

theorem compositionTargets_made {base : BaseType}
    (h : (if base = .experience then visitComposition ctx (visitWithin ctx depth)
      else pure []).run state = (.ok fragments, state')) :
    Made ctx ((compositionTargets base).map .visit) state fragments state' := by
  unfold compositionTargets
  split at h
  · rename_i hbase
    rw [if_pos hbase]
    exact visitComposition_made hvisit h
  · rename_i hbase
    rw [if_neg hbase]
    cases h
    exact .nil

theorem visitDeclared_made {t : ContentType} {name : String}
    (h : (visitDeclared ctx (visitWithin ctx depth) t name).run state = (.ok fragments, state')) :
    ∃ needed inner,
      Made ctx (declaredCalls ⟨name, t.key, declaredBody ctx t⟩ t) state needed inner ∧
      fragments = Keyed.firsts Fragment.name needed ++ [⟨name, t.key, declaredBody ctx t⟩] ∧
      state' = inner.told (.fragmentEmitted name (Keyed.firsts Fragment.name needed).length) := by
  unfold visitDeclared at h
  obtain ⟨metadata, _, hmetadata, h⟩ := exists_run_of_bindIte h
  obtain ⟨⟨texts, expanded⟩, _, hproperties, h⟩ := exists_run_of_bind h
  obtain ⟨composition, inner, hcomposition, h⟩ := exists_run_of_bindIte h
  obtain ⟨_, _, hrecord, hpure⟩ := exists_run_of_bind h
  cases hrecord
  cases hpure
  obtain ⟨hfields, hexpanded⟩ := expandProperties_made hvisit
    ⟨name, t.key, declaredBody ctx t⟩ rfl hproperties
  refine ⟨metadata ++ expanded ++ composition, inner, ?_, ?_, rfl⟩
  · exact ((metadataTargets_made hmetadata).append hexpanded).append
      (compositionTargets_made hvisit hcomposition)
  · rw [declaredBody, ← hfields]

theorem visitWith_made {key : String} {suffixed : Bool}
    (h : (visitWithin ctx (depth + 1) key (suffix suffixed)).run state = (.ok fragments, state')) :
    Made ctx [.visit (.type key suffixed)] state fragments state' := by
  have hran : (⟨.visit (.type key suffixed), state, fragments, state'⟩ : Returned).Ran ctx :=
    ⟨depth + 1, h⟩
  rw [visitWithin, visitWith, run_isVisited_bind] at h
  by_cases hseen : (Node.type key suffixed).name ∈ state.visited
  · rw [show state.visited.contains (key ++ suffix suffixed) = true from
      List.contains_iff_mem.mpr hseen] at h
    cases h
    exact ⟨_, .seen hseen .nil, List.forall_mem_singleton.mpr hran⟩
  · rw [show state.visited.contains (key ++ suffix suffixed) = false by
      simpa [Node.name] using hseen, if_neg Bool.false_ne_true, run_mark_bind] at h
    rcases Node.type_cases ctx key with ⟨base, hb⟩ | ⟨t, ht⟩ | ⟨hb, hg⟩
    · simp only [hb] at h
      obtain ⟨needed, hneeds, rfl⟩ := visitBase_made ctx h
      have hstate : state' = state'.emitted key (.fragmentEmitted (key ++ suffix suffixed)
          (Keyed.firsts Fragment.name needed).length) := by rw [State.emitted, hb]
      rw [hstate] at hran ⊢
      refine .type hseen (Node.fragment?_builtin hb suffixed) ?_ hran
      rw [typeCalls_builtin hb]
      exact hneeds
    · simp only [ht.1, ht.2] at h
      obtain ⟨needed, inner, hneeds, rfl, hstate⟩ := visitDeclared_made hvisit h
      have hemitted : state' = inner.emitted key (.fragmentEmitted (key ++ suffix suffixed)
          (Keyed.firsts Fragment.name needed).length) := by rw [State.emitted, ht.1, hstate]
      rw [hemitted] at hran ⊢
      refine .type hseen (Node.fragment?_declared ht suffixed) ?_ hran
      rw [typeCalls_declared ht]
      exact hneeds
    · simp only [hb, hg] at h
      cases h

end

/-- A visit that succeeds makes its calls as they are listed. -/
theorem visitWithin_made {depth : Nat} {key : String} {suffixed : Bool}
    (h : (visitWithin ctx depth key (suffix suffixed)).run state = (.ok fragments, state')) :
    Made ctx [.visit (.type key suffixed)] state fragments state' := by
  induction depth generalizing key suffixed state fragments state' with
  | zero => cases h
  | succ depth ih => exact visitWith_made ih h

end

section

variable {registry : Registry} {settings : Settings} {root : String} {c : Compilation}

/-- A compilation that succeeds makes its calls from the visit of the root on, and tells at last that
it is done. -/
theorem exists_runs_of_compile (h : (compile registry settings root).value = .ok c) :
    ∃ log state, Runs (contextOf registry settings root) [.visit (.type root false)]
        (startOf registry root) c.fragments log state ∧
      (∀ r ∈ log, r.Ran (contextOf registry settings root)) ∧
      c.diagnostics = state.diagnostics ∧
      (compile registry settings root).events = state.events ++
        [.compiled root c.fragments.length c.diagnostics.warningCount] := by
  rw [compile_eq] at h ⊢
  rcases hwalk : walkOf registry settings root with ⟨error | fragments, state⟩
  · rw [hwalk] at h
    cases h
  · rw [hwalk] at h
    cases h
    have hmade : Made (contextOf registry settings root) [.visit (.type root false)]
        (startOf registry root) fragments state := visitWithin_made hwalk
    obtain ⟨log, hruns, hran⟩ := hmade
    exact ⟨log, state, hruns, hran, rfl, rfl⟩

end

end ContentQuery.Compile
