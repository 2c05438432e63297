import ContentQuery.Proofs.SpreadGraph

/-!
A compilation as a depth-first walk over the graph of spreads. `Visits` says what a walk that
succeeds makes of a list of visited names, and `Fails` where one of bounded depth ends early. The
main statement is that the steps of a compilation follow the graph: `visitWithin_follows`.
-/

namespace ContentQuery.Compile

/-- The names that a composition marks before its fragments exist, the last one first. -/
def compositionNames : List String :=
  [compositionComponentName, compositionNodeName, experienceDataName]

/-- The fragments that a composition ends with. -/
def compositionFragments (ctx : Context) : List Fragment :=
  [compositionComponent ctx, compositionNode, experienceData]

/-- A walk over a list of nodes, from some visited names to more of them, and the fragments made on
the way. A node whose name is visited is passed over, whatever the name was visited for. -/
inductive Visits (ctx : Context) :
    List Node → List String → List Fragment → List String → Prop
  | nil {visited : List String} : Visits ctx [] visited [] visited
  | seen {v : Node} {vs : List Node} {visited visited' : List String} {fragments : List Fragment}
      (hseen : v.name ∈ visited) (tail : Visits ctx vs visited fragments visited') :
      Visits ctx (v :: vs) visited fragments visited'
  | metadata {vs : List Node} {visited visited' : List String} {fragments : List Fragment}
      (hnew : mediaMetadataName ∉ visited)
      (tail : Visits ctx vs (mediaMetadataName :: visited) fragments visited') :
      Visits ctx (.mediaMetadata :: vs) visited (mediaMetadata :: fragments) visited'
  | type {key : String} {suffixed : Bool} {vs : List Node} {visited inner visited' : List String}
      {own : Fragment} {needed fragments : List Fragment}
      (hnew : (Node.type key suffixed).name ∉ visited)
      (hown : (Node.type key suffixed).fragment? ctx = some own)
      (needs : Visits ctx ((Node.type key suffixed).targets ctx)
        ((Node.type key suffixed).name :: visited) needed inner)
      (tail : Visits ctx vs inner fragments visited') :
      Visits ctx (.type key suffixed :: vs) visited
        (Keyed.firsts Fragment.name needed ++ own :: fragments) visited'
  | composition {vs : List Node} {visited inner visited' : List String}
      {needed fragments : List Fragment}
      (hnew : experienceDataName ∉ visited)
      (needs : Visits ctx (eligibleNodes ctx) (compositionNames ++ visited) needed inner)
      (tail : Visits ctx vs inner fragments visited') :
      Visits ctx (.experienceData :: vs) visited
        (needed ++ compositionFragments ctx ++ fragments) visited'

/-- Where a walk whose visits are nested at most `depth` deep ends with an error. -/
inductive Fails (ctx : Context) : Nat → List Node → List String → CompileError → Prop
  | unfinished {key : String} {suffixed : Bool} {vs : List Node} {visited : List String} :
      Fails ctx 0 (.type key suffixed :: vs) visited .unfinished
  | missing {depth : Nat} {key : String} {suffixed : Bool} {vs : List Node}
      {visited : List String} (hnew : (Node.type key suffixed).name ∉ visited)
      (hbuiltin : builtin? key = none) (hget : ctx.snapshot.get? key = none) :
      Fails ctx (depth + 1) (.type key suffixed :: vs) visited (.missingContentType key)
  | type {depth : Nat} {key : String} {suffixed : Bool} {t : ContentType} {vs : List Node}
      {visited : List String} {error : CompileError}
      (hnew : (Node.type key suffixed).name ∉ visited) (ht : Declared ctx key t)
      (needs : Fails ctx depth (declaredTargets ctx t)
        ((Node.type key suffixed).name :: visited) error) :
      Fails ctx (depth + 1) (.type key suffixed :: vs) visited error
  | composition {depth : Nat} {vs : List Node} {visited : List String} {error : CompileError}
      (hnew : experienceDataName ∉ visited)
      (needs : Fails ctx depth (eligibleNodes ctx) (compositionNames ++ visited) error) :
      Fails ctx depth (.experienceData :: vs) visited error
  | later {depth : Nat} {v : Node} {vs : List Node} {visited inner : List String}
      {fragments : List Fragment} {error : CompileError}
      (head : Visits ctx [v] visited fragments inner) (tail : Fails ctx depth vs inner error) :
      Fails ctx depth (v :: vs) visited error

variable {ctx : Context} {depth : Nat} {us vs : List Node} {error : CompileError}

theorem Visits.append {visited inner visited' : List String} {needed fragments : List Fragment}
    (h : Visits ctx us visited needed inner) (hvs : Visits ctx vs inner fragments visited') :
    Visits ctx (us ++ vs) visited (needed ++ fragments) visited' := by
  induction h with
  | nil => exact hvs
  | seen hseen _ ih => exact .seen hseen (ih hvs)
  | metadata hnew _ ih => exact .metadata hnew (ih hvs)
  | type hnew hown needs _ _ ih =>
      rw [List.append_assoc, List.cons_append]
      exact .type hnew hown needs (ih hvs)
  | composition hnew needs _ _ ih =>
      rw [List.append_assoc]
      exact .composition hnew needs (ih hvs)

theorem Fails.append_right {visited : List String} (h : Fails ctx depth us visited error) :
    Fails ctx depth (us ++ vs) visited error := by
  induction h with
  | unfinished => exact .unfinished
  | missing hnew hbuiltin hget => exact .missing hnew hbuiltin hget
  | type hnew ht needs _ => exact .type hnew ht needs
  | composition hnew needs _ => exact .composition hnew needs
  | later head _ ih => exact .later head ih

theorem Fails.append_left {visited inner : List String} {needed : List Fragment}
    (h : Visits ctx us visited needed inner) (hvs : Fails ctx depth vs inner error) :
    Fails ctx depth (us ++ vs) visited error := by
  induction h with
  | nil => exact hvs
  | seen hseen _ ih => exact .later (.seen hseen .nil) (ih hvs)
  | metadata hnew _ ih => exact .later (.metadata hnew .nil) (ih hvs)
  | type hnew hown needs _ _ ih => exact .later (.type hnew hown needs .nil) (ih hvs)
  | composition hnew needs _ _ ih => exact .later (.composition hnew needs .nil) (ih hvs)

/-- What a step may come to that is to follow a walk over the given nodes: the value that the
fragments of the walk determine, or the error that a walk of bounded depth ends with. -/
def Outcome {α : Type} (ctx : Context) (depth : Nat) (vs : List Node) (visited : List String)
    (value : List Fragment → α) : Except CompileError α × State → Prop
  | (.ok a, state) =>
      ∃ fragments, a = value fragments ∧ Visits ctx vs visited fragments state.visited
  | (.error error, _) => Fails ctx depth vs visited error

/-- The step follows a walk over the given nodes, from every state. -/
def Follows {α : Type} (ctx : Context) (depth : Nat) (vs : List Node)
    (value : List Fragment → α) (step : Walk α) : Prop :=
  ∀ state, Outcome ctx depth vs state.visited value (step.run state)

section Steps

variable {α β : Type}

theorem run_bind (step : Walk α) (next : α → Walk β) (state : State) :
    (step >>= next).run state =
      match step.run state with
      | (.ok a, state') => (next a).run state'
      | (.error error, state') => (.error error, state') := by
  simp only [ExceptT.run_bind]
  rcases h : step.run state with ⟨_ | a, state'⟩
  · simp [bind, StateT.bind, h]
    rfl
  · simp [bind, StateT.bind, h]

theorem run_isVisited_bind (name : String) (next : Bool → Walk β) (state : State) :
    (isVisited name >>= next).run state =
      (next (state.visited.contains name)).run state := rfl

theorem run_mark_bind (name : String) (next : Unit → Walk β) (state : State) :
    (mark name >>= next).run state =
      (next ()).run { state with visited := name :: state.visited } := rfl

theorem Follows.pure (a : α) :
    Follows ctx depth [] (fun _ => a) (Pure.pure a) :=
  fun _ => ⟨[], rfl, .nil⟩

theorem Follows.record (event : Event) :
    Follows ctx depth [] (fun _ => ()) (record event) :=
  fun _ => ⟨[], rfl, .nil⟩

theorem Follows.report (diagnostic : Diagnostic) :
    Follows ctx depth [] (fun _ => ()) (report diagnostic) :=
  fun _ => ⟨[], rfl, .nil⟩

theorem Follows.bind {step : Walk α} {next : α → Walk β} {value : List Fragment → α}
    {value' : List Fragment → β} (hstep : Follows ctx depth us value step)
    (hnext : ∀ {visited inner : List String} {needed : List Fragment},
      Visits ctx us visited needed inner →
        Follows ctx depth vs (fun fragments => value' (needed ++ fragments))
          (next (value needed))) :
    Follows ctx depth (us ++ vs) value' (step >>= next) := by
  intro state
  have h := hstep state
  rw [run_bind]
  rcases hrun : step.run state with ⟨error | a, state'⟩
  · rw [hrun] at h
    exact Fails.append_right h
  · rw [hrun] at h
    obtain ⟨needed, rfl, hvisits⟩ := h
    have h' := hnext hvisits state'
    change Outcome ctx depth (us ++ vs) state.visited value' ((next (value needed)).run state')
    rcases hrun' : (next (value needed)).run state' with ⟨error | b, state''⟩
    · rw [hrun'] at h'
      exact Fails.append_left hvisits h'
    · rw [hrun'] at h'
      obtain ⟨fragments, rfl, hvisits'⟩ := h'
      exact ⟨needed ++ fragments, rfl, hvisits.append hvisits'⟩

theorem Follows.bindIte {c : Prop} [Decidable c] {first second : Walk α} {next : α → Walk β}
    {value : List Fragment → α} {value' : List Fragment → β}
    (hstep : Follows ctx depth us value (if c then first else second))
    (hnext : ∀ {visited inner : List String} {needed : List Fragment},
      Visits ctx us visited needed inner →
        Follows ctx depth vs (fun fragments => value' (needed ++ fragments))
          (next (value needed))) :
    Follows ctx depth (us ++ vs) value' (if c then first >>= next else second >>= next) := by
  have h := Follows.bind hstep hnext
  by_cases hc : c
  · rw [if_pos hc] at h ⊢
    exact h
  · rw [if_neg hc] at h ⊢
    exact h

theorem Follows.skip {step : Walk Unit} {next : Unit → Walk β} {value : List Fragment → β}
    (hstep : Follows ctx depth [] (fun _ => ()) step)
    (hnext : Follows ctx depth vs value (next ())) :
    Follows ctx depth vs value (step >>= next) := by
  rw [← List.nil_append vs]
  refine Follows.bind hstep ?_
  intro visited inner needed h
  cases h
  exact hnext

theorem Follows.map {step : Walk α} {value : List Fragment → α} (f : α → β)
    (hstep : Follows ctx depth vs value step) :
    Follows ctx depth vs (fun fragments => f (value fragments))
      (step >>= fun a => Pure.pure (f a)) := by
  rw [← List.append_nil vs]
  refine Follows.bind hstep ?_
  intro visited inner needed _ state
  exact ⟨[], by simp, .nil⟩

theorem visitMetadata_follows : Follows ctx depth [.mediaMetadata] id visitMetadata := by
  intro state
  rw [visitMetadata, run_isVisited_bind]
  by_cases h : mediaMetadataName ∈ state.visited
  · rw [List.contains_iff_mem.mpr h]
    exact ⟨[], rfl, .seen h .nil⟩
  · rw [show state.visited.contains mediaMetadataName = false by simpa using h]
    exact ⟨[mediaMetadata], rfl, .metadata h .nil⟩

theorem visitAll_follows {visit : Visit}
    (hvisit : ∀ key, Follows ctx depth [.type key false] id (visit key "")) (keys : List String) :
    Follows ctx depth (keys.map (.type · false)) id (visitAll visit keys) := by
  induction keys with
  | nil => exact fun _ => ⟨[], rfl, .nil⟩
  | cons key keys ih =>
      rw [List.map_cons, ← List.singleton_append]
      refine Follows.bind (hvisit key) ?_
      intro visited inner needed _
      exact Follows.map (needed ++ ·) ih

theorem checkFanOut_follows (name : String) (p : Property) (count : Nat) :
    Follows ctx depth [] (fun _ => ()) (checkFanOut ctx name p count) := by
  unfold checkFanOut
  split
  · exact Follows.pure ()
  · exact Follows.skip (Follows.record _) (Follows.report _)

variable {visit : Visit}
  (hvisit : ∀ key suffixed, Follows ctx depth [.type key suffixed] id (visit key (suffix suffixed)))
include hvisit

theorem expand_follows (name : String) : ∀ kind : PropertyKind,
    Follows ctx depth (kindTargets ctx kind) (fun fragments => ⟨field ctx name kind, fragments⟩)
      (expand ctx visit name kind)
  | .component _ => Follows.map _ (hvisit _ true)
  | .content _ _ => Follows.map _ (visitAll_follows (fun key => hvisit key false) _)
  | .array ⟨kind, _⟩ => expand_follows name kind
  | .string | .boolean | .integer | .float | .binary | .json | .dateTime | .richText | .url
  | .link | .contentReference => fun _ => ⟨[], rfl, .nil⟩

theorem expandProperties_follows (t : ContentType) (properties : List (String × Property)) :
    Follows ctx depth (propertyTargets ctx properties)
      (fun fragments => (fields ctx t properties, fragments))
      (expandProperties ctx visit t properties) := by
  induction properties with
  | nil => exact fun _ => ⟨[], rfl, .nil⟩
  | cons property rest ih =>
      obtain ⟨name, p⟩ := property
      unfold expandProperties
      by_cases hp : p.isDisabled
      · rw [if_pos hp, show propertyTargets ctx ((name, p) :: rest) = propertyTargets ctx rest by
            simp [propertyTargets, enabled, hp],
          show fields ctx t ((name, p) :: rest) = fields ctx t rest by
            simp [fields, enabled, hp]]
        exact Follows.skip (Follows.record _) ih
      · rw [if_neg hp, show propertyTargets ctx ((name, p) :: rest) =
            kindTargets ctx p.kind ++ propertyTargets ctx rest by
            simp [propertyTargets, enabled, hp],
          show fields ctx t ((name, p) :: rest) =
            aliased t name (field ctx name p.kind) :: fields ctx t rest by
            simp [fields, enabled, hp]]
        refine Follows.bind (expand_follows hvisit name p.kind) ?_
        intro visited inner needed _
        refine Follows.skip (checkFanOut_follows name p _) ?_
        exact Follows.map (fun result => (aliased t name (field ctx name p.kind) :: result.1,
          needed ++ result.2)) ih

theorem visitComposition_follows :
    Follows ctx depth [.experienceData] id (visitComposition ctx visit) := by
  intro state
  rw [visitComposition, run_isVisited_bind]
  by_cases h : experienceDataName ∈ state.visited
  · rw [List.contains_iff_mem.mpr h]
    exact ⟨[], rfl, .seen h .nil⟩
  · rw [show state.visited.contains experienceDataName = false by simpa using h]
    -- After the three marks the rest follows a walk over the eligible types.
    let rest : Walk (List Fragment) := do
      record (.compositionStarted (eligibleKeys ctx).length ctx.settings.formElements)
      let fragments ← visitAll visit (eligibleKeys ctx)
      return fragments ++ compositionFragments ctx
    have hrest : Follows ctx depth (eligibleNodes ctx)
        (fun fragments => fragments ++ compositionFragments ctx) rest :=
      Follows.skip (Follows.record _) (Follows.map (· ++ compositionFragments ctx)
        (visitAll_follows (fun key => hvisit key false) (eligibleKeys ctx)))
    have hout := hrest { state with visited := compositionNames ++ state.visited }
    change Outcome ctx depth [.experienceData] state.visited id
      (rest.run { state with visited := compositionNames ++ state.visited })
    rcases hrun : rest.run { state with visited := compositionNames ++ state.visited } with
      ⟨error | a, state'⟩
    · rw [hrun] at hout
      exact .composition h hout
    · rw [hrun] at hout
      obtain ⟨needed, rfl, hneeds⟩ := hout
      exact ⟨_, (List.append_nil _).symm, .composition h hneeds .nil⟩

omit hvisit in
theorem firsts_of_visits_metadata {base : BaseType} {visited inner : List String}
    {needed : List Fragment} (h : Visits ctx (metadataTargets base) visited needed inner) :
    Keyed.firsts Fragment.name needed = needed := by
  -- The metadata fragment stands alone, so that nothing is dropped from the fragments before it.
  unfold metadataTargets at h
  split at h
  · cases h with
    | seen _ tail =>
        cases tail
        rfl
    | metadata _ tail =>
        cases tail
        rfl
  · cases h
    rfl

omit hvisit in
theorem visitBase_follows (base : BaseType) (name : String) :
    Follows ctx depth (metadataTargets base)
      (fun fragments => Keyed.firsts Fragment.name fragments ++
        [⟨name, base.graphType, baseBody base⟩])
      (visitBase base name) := by
  unfold visitBase baseBody
  by_cases hb : base.isMedia
  · rw [if_pos hb, if_pos hb]
    rw [← List.append_nil (metadataTargets base)]
    have hmetadata : Follows ctx depth (metadataTargets base) id visitMetadata := by
      simpa [metadataTargets, hb] using visitMetadata_follows
    refine Follows.bind hmetadata ?_
    intro visited inner needed h state
    exact ⟨[], by simp [firsts_of_visits_metadata h], .nil⟩
  · rw [if_neg hb, if_neg hb]
    simp only [metadataTargets, hb]
    exact fun _ => ⟨[], rfl, .nil⟩

theorem visitDeclared_follows (t : ContentType) (name : String) :
    Follows ctx depth (declaredTargets ctx t)
      (fun fragments => Keyed.firsts Fragment.name fragments ++
        [⟨name, t.key, declaredBody ctx t⟩])
      (visitDeclared ctx visit t name) := by
  have hmetadata : Follows ctx depth (metadataTargets t.baseType) id
      (if t.baseType.isMedia then visitMetadata else pure []) := by
    unfold metadataTargets
    split
    · exact visitMetadata_follows
    · exact fun _ => ⟨[], rfl, .nil⟩
  have hcomposition : Follows ctx depth (compositionTargets t.baseType) id
      (if t.baseType = .experience then visitComposition ctx visit else pure []) := by
    unfold compositionTargets
    split
    · exact visitComposition_follows hvisit
    · exact fun _ => ⟨[], rfl, .nil⟩
  unfold visitDeclared declaredTargets
  rw [List.append_assoc]
  refine Follows.bindIte hmetadata ?_
  intro _ _ metadata _
  refine Follows.bind (expandProperties_follows hvisit t t.properties) ?_
  intro _ _ fragments _
  rw [← List.append_nil (compositionTargets t.baseType)]
  refine Follows.bindIte hcomposition ?_
  intro _ _ composition _
  refine Follows.skip (Follows.record _) ?_
  intro state
  exact ⟨[], by simp [declaredBody], .nil⟩

omit hvisit in
theorem not_fails_metadata {base : BaseType} {visited : List String} :
    ¬ Fails ctx depth (metadataTargets base) visited error := by
  intro h
  unfold metadataTargets at h
  split at h
  · cases h with
    | later _ tail => cases tail
  · cases h

omit hvisit in
theorem Outcome.enter {key : String} {suffixed : Bool} {visited : List String} {own : Fragment}
    {out : Except CompileError (List Fragment) × State}
    (hnew : (Node.type key suffixed).name ∉ visited)
    (hown : (Node.type key suffixed).fragment? ctx = some own)
    (hfails : ∀ error, Fails ctx depth ((Node.type key suffixed).targets ctx)
      ((Node.type key suffixed).name :: visited) error →
        Fails ctx (depth + 1) [.type key suffixed] visited error)
    (h : Outcome ctx depth ((Node.type key suffixed).targets ctx)
      ((Node.type key suffixed).name :: visited)
      (fun fragments => Keyed.firsts Fragment.name fragments ++ [own]) out) :
    Outcome ctx (depth + 1) [.type key suffixed] visited id out := by
  rcases out with ⟨error | a, state⟩
  · exact hfails error h
  · obtain ⟨needed, rfl, hneeds⟩ := h
    exact ⟨Keyed.firsts Fragment.name needed ++ [own], rfl, .type hnew hown hneeds .nil⟩

/-- One visit deeper than `visit` follows the node of the type. -/
theorem visitWith_follows (key : String) (suffixed : Bool) :
    Follows ctx (depth + 1) [.type key suffixed] id
      (visitWith ctx visit key (suffix suffixed)) := by
  intro state
  rw [visitWith, run_isVisited_bind]
  by_cases h : (Node.type key suffixed).name ∈ state.visited
  · rw [show state.visited.contains (key ++ suffix suffixed) = true from
      List.contains_iff_mem.mpr h]
    exact ⟨[], rfl, .seen h .nil⟩
  · rw [show state.visited.contains (key ++ suffix suffixed) = false by
      simpa [Node.name] using h]
    simp only [Bool.false_eq_true, if_false, run_mark_bind]
    rcases Node.type_cases ctx key with ⟨base, hb⟩ | ⟨t, ht⟩ | ⟨hb, hg⟩
    · simp only [hb]
      refine Outcome.enter h (Node.fragment?_builtin hb suffixed) ?_ ?_
      · intro error hfails
        rw [Node.targets_builtin hb] at hfails
        exact absurd hfails not_fails_metadata
      · rw [Node.targets_builtin hb]
        exact visitBase_follows base (key ++ suffix suffixed) _
    · simp only [ht.1, ht.2]
      refine Outcome.enter h (Node.fragment?_declared ht suffixed) ?_ ?_
      · intro error hfails
        rw [Node.targets_declared ht] at hfails
        exact .type h ht hfails
      · rw [Node.targets_declared ht]
        exact visitDeclared_follows hvisit t (key ++ suffix suffixed) _
    · simp only [hb, hg]
      exact .missing h hb hg

omit hvisit in
theorem visitWithin_follows (ctx : Context) (depth : Nat) (key : String) (suffixed : Bool) :
    Follows ctx depth [.type key suffixed] id (visitWithin ctx depth key (suffix suffixed)) := by
  induction depth generalizing key suffixed with
  | zero => exact fun _ => .unfinished
  | succ depth ih => exact visitWith_follows ih key suffixed

end Steps

/-- What one compilation of the root works with. -/
abbrev contextOf (registry : Registry) (settings : Settings) (root : String) : Context :=
  ⟨root, Snapshot.capture registry, settings⟩

variable {registry : Registry} {settings : Settings} {root : String}

def startOf (registry : Registry) (root : String) : State :=
  ⟨[], .empty, [.snapshotCaptured (Snapshot.capture registry).types.length, .compileStarted root]⟩

theorem compile_value (registry : Registry) (settings : Settings) (root : String) :
    (compile registry settings root).value =
      match (visitWithin (contextOf registry settings root) (maxDepth (Snapshot.capture registry))
        root "").run (startOf registry root) with
      | (.error error, _) => .error error
      | (.ok fragments, state) => .ok ⟨fragments, state.diagnostics⟩ := by
  unfold compile
  dsimp only
  split
  · rename_i error state hrun
    rw [startOf, hrun]
  · rename_i fragments state hrun
    rw [startOf, hrun]

/-- A compilation is a walk from the root, or fails like one. -/
theorem outcome_of_compile (registry : Registry) (settings : Settings) (root : String) :
    match (compile registry settings root).value with
    | .ok c => ∃ visited,
        Visits (contextOf registry settings root) [.type root false] [] c.fragments visited
    | .error error =>
        Fails (contextOf registry settings root) (maxDepth (Snapshot.capture registry))
          [.type root false] [] error := by
  have h := visitWithin_follows (contextOf registry settings root)
    (maxDepth (Snapshot.capture registry)) root false (startOf registry root)
  rw [suffix_false] at h
  rw [compile_value]
  rcases hrun : (visitWithin (contextOf registry settings root)
    (maxDepth (Snapshot.capture registry)) root "").run (startOf registry root) with
    ⟨error | fragments, state⟩
  · rw [hrun] at h
    exact h
  · rw [hrun] at h
    obtain ⟨_, rfl, hvisits⟩ := h
    exact ⟨state.visited, hvisits⟩

theorem visits_of_compile {c : Compilation} (h : (compile registry settings root).value = .ok c) :
    ∃ visited,
      Visits (contextOf registry settings root) [.type root false] [] c.fragments visited := by
  have hout := outcome_of_compile registry settings root
  rw [h] at hout
  exact hout

theorem fails_of_compile {error : CompileError}
    (h : (compile registry settings root).value = .error error) :
    Fails (contextOf registry settings root) (maxDepth (Snapshot.capture registry))
      [.type root false] [] error := by
  have hout := outcome_of_compile registry settings root
  rw [h] at hout
  exact hout

end ContentQuery.Compile
