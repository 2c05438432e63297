import ContentQuery.Proofs.FanOut

namespace ContentQuery

namespace Event

/-- The name of the fragment that an event tells of. -/
def emitted? : Event → Option String
  | .fragmentEmitted fragment _ => some fragment
  | _ => none

/-- Whether an event tells of the start of a compilation. -/
def isOpening : Event → Bool
  | .snapshotCaptured _ | .compileStarted _ => true
  | _ => false

end Event

def emittedNames (events : List Event) : List String := events.filterMap Event.emitted?

def Warned.event (threshold : Nat) (w : Warned) : Event :=
  .fanOut w.root w.property w.count threshold

namespace Compile

variable {ctx : Context}

def declaredNodes (ctx : Context) : List Node :=
  (ctx.snapshot.types.filter fun t => builtin? t.key = none).flatMap fun t =>
    [.type t.key false, .type t.key true]

theorem exists_madeFor_iff {f : Fragment} :
    (∃ t, MadeFor ctx t f) ↔ ∃ v ∈ declaredNodes ctx, v.fragment? ctx = some f := by
  simp only [declaredNodes, List.mem_flatMap, List.mem_filter, decide_eq_true_eq]
  constructor
  · rintro ⟨t, key, suffixed, ht, hf⟩
    refine ⟨.type key suffixed, ⟨t, ⟨ht.mem_types, ?_⟩, ?_⟩, hf⟩
    · rw [ht.key_eq]
      exact ht.1
    · rw [ht.key_eq]
      cases suffixed <;> simp
  · rintro ⟨v, ⟨t, ⟨-, hbuiltin⟩, hv⟩, hf⟩
    obtain ⟨suffixed, rfl⟩ : ∃ suffixed, v = .type t.key suffixed := by
      simp only [List.mem_cons, List.not_mem_nil, or_false] at hv
      exact hv.elim (fun hv => ⟨false, hv⟩) fun hv => ⟨true, hv⟩
    rcases Node.eq_of_fragment?_type hf with ⟨base, hb, -⟩ | ⟨t', ht', -⟩
    · rw [hbuiltin] at hb
      cases hb
    · exact ⟨t', t.key, suffixed, ht', hf⟩

instance (ctx : Context) (f : Fragment) : Decidable (∃ t, MadeFor ctx t f) :=
  decidable_of_iff _ exists_madeFor_iff.symm

/-- The names of the fragments of declared types, without those of base types, of media metadata and
of compositions. -/
def declaredFragmentNames (ctx : Context) (fragments : List Fragment) : List String :=
  (fragments.filter fun f => ∃ t, MadeFor ctx t f).map Fragment.name

theorem declaredFragmentNames_append (fragments fragments' : List Fragment) :
    declaredFragmentNames ctx (fragments ++ fragments') =
      declaredFragmentNames ctx fragments ++ declaredFragmentNames ctx fragments' := by
  rw [declaredFragmentNames, List.filter_append, List.map_append]
  rfl

theorem declaredFragmentNames_of_forall {fragments : List Fragment}
    (h : ∀ f ∈ fragments, ∀ t, ¬ MadeFor ctx t f) : declaredFragmentNames ctx fragments = [] := by
  rw [declaredFragmentNames, List.map_eq_nil_iff, List.filter_eq_nil_iff]
  intro f hf hmade
  obtain ⟨t, ht⟩ := of_decide_eq_true hmade
  exact h f hf t ht

/-- What is told together with the fragments and the warnings. -/
structure Tells (ctx : Context) (fragments : List Fragment) (ws : List Warned)
    (told : List Event) : Prop where
  emitted : emittedNames told = declaredFragmentNames ctx fragments
  warnings : told.filter (·.level = .warn) = ws.map (Warned.event ctx.settings.threshold)
  roots : ∀ w ∈ ws, w.root = ctx.root
  inside : ∀ event ∈ told, event.isOpening = false

/-- The events and messages between two states tell of the fragments. -/
def Told (ctx : Context) (fragments : List Fragment) (state state' : State) : Prop :=
  ∃ told ws, Tells ctx fragments ws told ∧ state'.events = state.events ++ told ∧
    state'.diagnostics.toList =
      state.diagnostics.toList ++ ws.map (Warned.diagnostic ctx.settings.threshold)

namespace Told

variable {needed fragments : List Fragment} {state inner state' : State}

theorem trans (h : Told ctx needed state inner) (h' : Told ctx fragments inner state') :
    Told ctx (needed ++ fragments) state state' := by
  obtain ⟨told, ws, htells, hevents, hdiagnostics⟩ := h
  obtain ⟨told', ws', htells', hevents', hdiagnostics'⟩ := h'
  refine ⟨told ++ told', ws ++ ws', ⟨?_, ?_, ?_, ?_⟩, ?_, ?_⟩
  · rw [declaredFragmentNames_append, ← htells.emitted, ← htells'.emitted]
    exact List.filterMap_append
  · rw [List.filter_append, htells.warnings, htells'.warnings, List.map_append]
  · exact List.forall_mem_append.mpr ⟨htells.roots, htells'.roots⟩
  · exact List.forall_mem_append.mpr ⟨htells.inside, htells'.inside⟩
  · rw [hevents', hevents, List.append_assoc]
  · rw [hdiagnostics', hdiagnostics, List.map_append, List.append_assoc]

theorem of_forall (h : ∀ f ∈ fragments, ∀ t, ¬ MadeFor ctx t f) (state : State) :
    Told ctx fragments state state := by
  refine ⟨[], [], ⟨?_, rfl, by simp, by simp⟩, by simp, by simp⟩
  rw [declaredFragmentNames_of_forall h]
  rfl

theorem of_event {event : Event} (hlevel : event.level ≠ .warn) (hinside : event.isOpening = false)
    (hnames : emittedNames [event] = declaredFragmentNames ctx fragments) (state : State) :
    Told ctx fragments state (state.told event) :=
  ⟨[event], [], ⟨hnames, by simp [hlevel], by simp, by simpa using hinside⟩, rfl,
    by simp [State.told]⟩

theorem skipped (contentType name : String) (state : State) :
    Told ctx [] state (state.told (.disabledSkipped contentType name)) :=
  of_event (by simp [Event.level]) rfl rfl state

theorem composition (eligible : Nat) (includeForms : Bool) (names : List String) (state : State) :
    Told ctx [] state ((state.marked names).told (.compositionStarted eligible includeForms)) :=
  of_event (by simp [Event.level]) rfl rfl (state.marked names)

theorem checked (name : String) (p : Property) (count : Nat) (state : State) :
    Told ctx [] state (state.checked ctx name p count) := by
  unfold State.checked
  split
  · exact ⟨[_], [⟨ctx.root, name, count⟩], ⟨rfl, rfl, by simp, by simp [Event.isOpening]⟩, rfl, rfl⟩
  · exact of_forall (List.forall_mem_nil _) state

theorem emitted {key : String} {suffixed : Bool} {own : Fragment}
    (hown : (Node.type key suffixed).fragment? ctx = some own) (dependencies : Nat)
    (state : State) :
    Told ctx [own] state (state.emitted key (.fragmentEmitted own.name dependencies)) := by
  rcases Node.eq_of_fragment?_type hown with ⟨base, hb, -⟩ | ⟨t, ht, -⟩
  · have hbase : ∀ t, ¬ MadeFor ctx t own := by
      rintro t ⟨key', suffixed', ht, hkey'⟩
      obtain ⟨rfl, -⟩ := Node.type.inj (Node.eq_of_fragment? hown hkey')
      exact absurd (ht.1.symm.trans hb) (by simp)
    rw [State.emitted, hb]
    exact of_forall (List.forall_mem_singleton.mpr hbase) state
  · have hmade : ∃ t, MadeFor ctx t own := ⟨t, key, suffixed, ht, hown⟩
    rw [State.emitted, ht.1]
    refine of_event (by simp [Event.level]) rfl ?_ state
    simp [declaredFragmentNames, hmade, emittedNames, Event.emitted?]

end Told

theorem not_madeFor_mediaMetadata (t : ContentType) : ¬ MadeFor ctx t mediaMetadata :=
  fun h => h.ne_of_fixed (v := .mediaMetadata) (by decide) rfl rfl

variable {calls : List Call} {state state' : State} {fragments : List Fragment}
  {log : List Returned}

/-- Calls tell of the fragments that they return, in the order in which they return them. -/
theorem Runs.told (h : Runs ctx calls state fragments log state') (hfree : UnguardedFree ctx)
    (htogether : MarkedTogether state.visited) : Told ctx fragments state state' := by
  induction h with
  | nil => exact .of_forall (List.forall_mem_nil _) _
  | seen _ _ ih => exact ih htogether
  | @metadata _ state _ _ _ _ _ ih =>
      have hmetadata : Told ctx [mediaMetadata] state (state.marked [mediaMetadataName]) :=
        .of_forall (List.forall_mem_singleton.mpr not_madeFor_mediaMetadata) state
      exact hmetadata.trans (ih (htogether.cons (by decide)))
  | @type key suffixed _ state inner _ own needed _ _ _ _ hown needs _ ihNeeds ih =>
      have htogether' : MarkedTogether (state.marked [own.name]).visited :=
        htogether.cons (Node.name_of_fragment? hown ▸ hfree.type_name_not_mem hown)
      have hneeds : Told ctx needed state inner := ihNeeds htogether'
      rw [State.visited_emitted] at ih
      -- No name is needed twice, so that nothing that is told of is dropped.
      rw [Keyed.firsts_of_nodup _ (needs.visits.nodup hfree htogether')]
      exact hneeds.trans ((Told.emitted hown _ inner).trans
        (ih (needs.visits.markedTogether hfree htogether')))
  | @composition _ state inner _ needed _ _ _ _ needs _ ihNeeds ih =>
      have htogether' := markedTogether_compositionNames state.visited
      have hneeds := (Told.composition _ _ compositionNames state).trans (ihNeeds htogether')
      have hmade : Told ctx (compositionFragments ctx) inner inner :=
        .of_forall (fun _ hf _ ht => ht.not_mem_compositionFragments hf) inner
      exact (hneeds.trans hmade).trans (ih (needs.visits.markedTogether hfree htogether'))
  | disabled _ _ ih => exact (Told.skipped _ _ _).trans (ih htogether)
  | property _ needs _ ihNeeds ih =>
      rw [State.visited_checked] at ih
      exact (ihNeeds htogether).trans ((Told.checked _ _ _ _).trans
        (ih (needs.visits.markedTogether hfree htogether)))

/-- The log of a compilation replays its result, if no type is registered under an unguarded name.
It opens with the captured snapshot and the root, and neither comes again. The fragments that it
tells of are those of declared types, in the order of the result. The events of level WARN and the
messages of the result are pairs in their order, of the same root, property, count and threshold. -/
theorem log_replays (registry : Registry) (settings : Settings) (root : String)
    (hfree : ∀ t ∈ registry.all, t.key ∉ unguardedNames) {c : Compilation}
    (h : (compile registry settings root).value = .ok c) :
    ∃ told : List Event,
      (compile registry settings root).events =
          .snapshotCaptured (Snapshot.capture registry).types.length :: .compileStarted root ::
            told ∧
        (∀ event ∈ told, event.isOpening = false) ∧
        emittedNames told = declaredFragmentNames (contextOf registry settings root) c.fragments ∧
        List.Forall₂ (fun event d => ∃ property count,
            event = .fanOut root property count settings.threshold ∧
              d.kind = .fragmentFanOut ∧ d.root = some root ∧
              d.message = "too many fragments generated: content type `" ++ root ++
                "` generated " ++ toString count ++ " fragments for property `" ++ property ++
                "` (threshold " ++ toString settings.threshold ++ ")" ∧
              d.hints = [DiagnosticKind.hint .fragmentFanOut])
          (told.filter (·.level = .warn)) c.diagnostics.toList := by
  obtain ⟨log, state, hruns, -, hdiagnostics, hevents⟩ := exists_runs_of_compile h
  obtain ⟨told, ws, htells, htold, hmessages⟩ :=
    hruns.told (unguardedFree_of_keys hfree) (markedTogether_start registry root)
  have hrecorded : c.diagnostics.toList = ws.map (Warned.diagnostic settings.threshold) := by
    rw [hdiagnostics, hmessages]
    rfl
  refine ⟨told ++ [.compiled root c.fragments.length c.diagnostics.warningCount], ?_, ?_, ?_, ?_⟩
  · rw [hevents, htold]
    rfl
  · exact List.forall_mem_append.mpr ⟨htells.inside, by simp [Event.isOpening]⟩
  · rw [← htells.emitted]
    simp [emittedNames, Event.emitted?]
  · have hclosing : [Event.compiled root c.fragments.length c.diagnostics.warningCount].filter
        (·.level = .warn) = [] := rfl
    rw [List.filter_append, htells.warnings, hclosing, List.append_nil, hrecorded,
      List.forall₂_map_left_iff, List.forall₂_map_right_iff, List.forall₂_same]
    intro w hw
    obtain rfl : w.root = root := htells.roots w hw
    exact ⟨w.property, w.count, rfl, rfl, rfl, rfl, rfl⟩

theorem log_replays_feed :
    ∃ c, (compile feedTypes.registry (.withThreshold 0 .initial) "Feed").value = .ok c ∧
      declaredFragmentNames (contextOf feedTypes.registry (.withThreshold 0 .initial) "Feed")
        c.fragments = ["Note", "Post", "Feed"] ∧
      (compile feedTypes.registry (.withThreshold 0 .initial) "Feed").events.filter
        (·.level = .warn) = [.fanOut "Feed" "replies" 1 0, .fanOut "Feed" "items" 2 0] ∧
      c.diagnostics.toList.map (fun d => (d.kind, d.root, d.message)) =
        [(.fragmentFanOut, some "Feed", "too many fragments generated: content type `Feed` " ++
            "generated 1 fragments for property `replies` (threshold 0)"),
          (.fragmentFanOut, some "Feed", "too many fragments generated: content type `Feed` " ++
            "generated 2 fragments for property `items` (threshold 0)")] := by
  have hfree : ∀ t ∈ feedTypes.registry.all, t.key ∉ unguardedNames := by decide
  obtain ⟨c, hc⟩ := exists_ok_of_isSome (show
    (compile feedTypes.registry (.withThreshold 0 .initial) "Feed").value.toOption.isSome = true
    from rfl)
  obtain ⟨told, hevents, -, hemitted, hpairs⟩ := log_replays _ _ _ hfree hc
  have hvalue : (compile feedTypes.registry (.withThreshold 0 .initial) "Feed").events =
      [.snapshotCaptured 3, .compileStarted "Feed", .fragmentEmitted "Note" 0,
        .fanOut "Feed" "replies" 1 0, .fragmentEmitted "Post" 1, .fanOut "Feed" "items" 2 0,
        .fragmentEmitted "Feed" 2, .compiled "Feed" 3 2] := rfl
  obtain ⟨-, htold⟩ := List.cons.inj (hvalue.symm.trans hevents)
  obtain ⟨-, rfl⟩ := List.cons.inj htold
  have hwarnings : List.filter (fun event : Event => event.level = .warn)
      [.fragmentEmitted "Note" 0, .fanOut "Feed" "replies" 1 0, .fragmentEmitted "Post" 1,
        .fanOut "Feed" "items" 2 0, .fragmentEmitted "Feed" 2, .compiled "Feed" 3 2] =
      [.fanOut "Feed" "replies" 1 0, .fanOut "Feed" "items" 2 0] := rfl
  rw [hwarnings] at hpairs
  obtain ⟨_, _, ⟨_, _, ⟨⟩, hkind, hroot, hmessage, -⟩, hrest, hmessages⟩ :=
    List.forall₂_cons_left_iff.mp hpairs
  obtain ⟨_, _, ⟨_, _, ⟨⟩, hkind', hroot', hmessage', -⟩, hnone, rfl⟩ :=
    List.forall₂_cons_left_iff.mp hrest
  obtain rfl := List.forall₂_nil_left_iff.mp hnone
  refine ⟨c, hc, hemitted.symm, rfl, ?_⟩
  simp only [hmessages, List.map_cons, List.map_nil, hkind, hroot, hmessage, hkind', hroot',
    hmessage']
  rfl

end Compile

end ContentQuery
