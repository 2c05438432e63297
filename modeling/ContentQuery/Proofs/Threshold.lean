import ContentQuery.Proofs.Finiteness

namespace ContentQuery

/-- What a warning about fan-out tells of. -/
structure Warned where
  root : String
  property : String
  count : Nat
  deriving DecidableEq, Repr

/-- The message about a warning, word for word. -/
def Warned.diagnostic (threshold : Nat) (w : Warned) : Diagnostic where
  kind := .fragmentFanOut
  root := some w.root
  message :=
    "too many fragments generated: content type `" ++ w.root ++ "` generated " ++
      toString w.count ++ " fragments for property `" ++ w.property ++ "` (threshold " ++
      toString threshold ++ ")"
  hints :=
    ["add `allowedTypes` or `restrictedTypes` to the property to limit the generated fragments"]

theorem FanOut.warning_eq (root name : String) (count threshold : Nat) :
    FanOut.warning root name count threshold =
      Warned.diagnostic threshold ⟨root, name, count⟩ := by
  have hmessage : (FanOut.warning root name count threshold).message =
      DiagnosticKind.fallback .fragmentFanOut ++ ": " ++ ("content type `" ++ root ++
        "` generated " ++ toString count ++ " fragments for property `" ++ name ++
        "` (threshold " ++ toString threshold ++ ")") := DiagnosticKind.text_some ..
  have hopening : DiagnosticKind.fallback .fragmentFanOut ++ ": " ++ "content type `" =
      "too many fragments generated: content type `" := rfl
  simp only [← String.append_assoc] at hmessage
  rw [hopening] at hmessage
  exact congrArg (Diagnostic.mk .fragmentFanOut (some root) · _) hmessage

def Event.warned? : Event → Option Warned
  | .fanOut root property count _ => some ⟨root, property, count⟩
  | _ => none

/-- The warnings in a log. -/
def warned (events : List Event) : List Warned := events.filterMap Event.warned?

theorem warned_append_trace (events : List Event) {event : Event} (h : event.level = .trace) :
    warned (events ++ [event]) = warned events := by
  have hnone : event.warned? = none := by
    cases event with
    | fanOut => exact absurd h (by simp [Event.level])
    | _ => rfl
  simp [warned, hnone]

namespace Compile

/-- The messages so far are the warnings in the log. -/
def Reported (threshold : Nat) (state : State) : Prop :=
  state.diagnostics.toList = (warned state.events).map (Warned.diagnostic threshold)

/-- The second state is one of a compilation under the higher threshold. -/
structure Filtered (lower upper : Nat) (state state' : State) : Prop where
  visited : state.visited = state'.visited
  warned : warned state'.events = (warned state.events).filter (upper < ·.count)
  reported_lower : Reported lower state
  reported_upper : Reported upper state'

variable {lower upper : Nat} {state state' : State}

theorem steady_filtered : Steady (Filtered lower upper) where
  visited := fun h => h.visited
  mark := fun name h =>
    ⟨congrArg (name :: ·) h.visited, h.warned, h.reported_lower, h.reported_upper⟩
  record := by
    intro state state' event hevent h
    refine ⟨h.visited, ?_, ?_, ?_⟩
    · rw [warned_append_trace _ hevent, warned_append_trace _ hevent]
      exact h.warned
    · rw [Reported, warned_append_trace _ hevent]
      exact h.reported_lower
    · rw [Reported, warned_append_trace _ hevent]
      exact h.reported_upper

/-- The state after a warning. -/
def State.warn (state : State) (threshold : Nat) (w : Warned) : State :=
  { state with
    events := state.events ++ [.fanOut w.root w.property w.count threshold]
    diagnostics := state.diagnostics.report (w.diagnostic threshold) }

theorem warned_warn (state : State) (threshold : Nat) (w : Warned) :
    warned (state.warn threshold w).events = warned state.events ++ [w] := by
  simp [State.warn, warned, Event.warned?]

theorem Reported.warn {threshold : Nat} (h : Reported threshold state) (w : Warned) :
    Reported threshold (state.warn threshold w) := by
  rw [Reported, warned_warn, List.map_append, ← h]
  rfl

theorem run_checkFanOut (ctx : Context) (name : String) (p : Property) (count : Nat)
    (state : State) :
    (checkFanOut ctx name p count).run state =
      (.ok (), if ctx.settings.threshold < count && FanOut.isUnconstrained p
        then state.warn ctx.settings.threshold ⟨ctx.root, name, count⟩ else state) := by
  unfold checkFanOut FanOut.finding?
  rw [FanOut.warning_eq]
  cases ctx.settings.threshold < count && FanOut.isUnconstrained p with
  | true => rfl
  | false => rfl

theorem Filtered.check (hle : lower ≤ upper) (h : Filtered lower upper state state')
    (unconstrained : Bool) (w : Warned) :
    Filtered lower upper
      (if lower < w.count && unconstrained then state.warn lower w else state)
      (if upper < w.count && unconstrained then state'.warn upper w else state') := by
  cases unconstrained with
  | false => simpa using h
  | true =>
      -- The count is above both thresholds, between them, or above none.
      by_cases hupper : upper < w.count
      · have hlower : lower < w.count := hle.trans_lt hupper
        simp only [hlower, hupper, decide_true, Bool.and_self, if_true]
        refine ⟨h.visited, ?_, h.reported_lower.warn w, h.reported_upper.warn w⟩
        rw [warned_warn, warned_warn, List.filter_append, h.warned]
        simp [hupper]
      · by_cases hlower : lower < w.count
        · simp only [hlower, hupper, decide_true, decide_false, Bool.and_self, Bool.and_true,
            if_true, Bool.false_eq_true, if_false]
          refine ⟨h.visited, ?_, h.reported_lower.warn w, h.reported_upper⟩
          rw [warned_warn, List.filter_append, h.warned]
          simp [hupper]
        · simpa [hlower, hupper] using h

theorem checkFanOut_lockstep {ctx ctx' : Context} (hroot : ctx.root = ctx'.root)
    (hlower : ctx.settings.threshold = lower) (hupper : ctx'.settings.threshold = upper)
    (hle : lower ≤ upper) (name : String) (p : Property) (count : Nat) :
    Lockstep (Filtered lower upper) (checkFanOut ctx name p count)
      (checkFanOut ctx' name p count) := by
  intro state state' h
  rw [run_checkFanOut, run_checkFanOut, ← hroot, hlower, hupper]
  exact Or.inr ⟨rfl, h.check hle (FanOut.isUnconstrained p) ⟨ctx.root, name, count⟩⟩

/-- The walk of a compilation from its start. -/
def walkOf (registry : Registry) (settings : Settings) (root : String) :
    Except CompileError (List Fragment) × State :=
  (visitWithin (contextOf registry settings root) (maxDepth (Snapshot.capture registry)) root
    "").run (startOf registry root)

theorem compile_eq (registry : Registry) (settings : Settings) (root : String) :
    compile registry settings root =
      match walkOf registry settings root with
      | (.error error, state) => ⟨.error error, state.events⟩
      | (.ok fragments, state) =>
          ⟨.ok ⟨fragments, state.diagnostics⟩, state.events ++
            [.compiled root fragments.length state.diagnostics.warningCount]⟩ := rfl

section

variable (registry : Registry) (settings : Settings) (root : String)

theorem warned_compile :
    warned (compile registry settings root).events =
      warned (walkOf registry settings root).2.events := by
  rw [compile_eq]
  rcases walkOf registry settings root with ⟨error | fragments, state⟩
  · rfl
  · simp [warned, Event.warned?]

theorem map_fragments_compile :
    (compile registry settings root).value.map Compilation.fragments =
      (walkOf registry settings root).1 := by
  rw [compile_eq]
  rcases walkOf registry settings root with ⟨error | fragments, state⟩ <;> rfl

variable {registry settings root} in
theorem diagnostics_compile {c : Compilation}
    (h : (compile registry settings root).value = .ok c) :
    c.diagnostics = (walkOf registry settings root).2.diagnostics := by
  rw [compile_eq] at h
  rcases hwalk : walkOf registry settings root with ⟨error | fragments, state⟩
  · simp [hwalk] at h
  · rw [hwalk] at h
    exact (congrArg Compilation.diagnostics (Except.ok.inj h)).symm

/-- Compilations under two thresholds end the same. -/
theorem filtered_walkOf (hle : lower ≤ upper) :
    (walkOf registry (settings.withThreshold lower) root).1 =
        (walkOf registry (settings.withThreshold upper) root).1 ∧
      Filtered lower upper (walkOf registry (settings.withThreshold lower) root).2
        (walkOf registry (settings.withThreshold upper) root).2 := by
  have hstart : Filtered lower upper (startOf registry root) (startOf registry root) :=
    ⟨rfl, rfl, rfl, rfl⟩
  have hcheck : ∀ name p count, Lockstep (Filtered lower upper)
      (checkFanOut (contextOf registry (settings.withThreshold lower) root) name p count)
      (checkFanOut (contextOf registry (settings.withThreshold upper) root) name p count) :=
    checkFanOut_lockstep rfl rfl rfl hle
  have hctx : SameButThreshold (contextOf registry (settings.withThreshold lower) root)
      (contextOf registry (settings.withThreshold upper) root) := ⟨rfl, rfl, rfl⟩
  rcases visitWithin_lockstep hctx steady_filtered hcheck (maxDepth (Snapshot.capture registry))
    root "" hstart with hunfinished | hsame
  · exact absurd hunfinished (visitWithin_ne_unfinished _ le_rfl root false _)
  · exact hsame

theorem reported_walkOf (threshold : Nat) :
    Reported threshold (walkOf registry (settings.withThreshold threshold) root).2 :=
  (filtered_walkOf registry settings root le_rfl).2.reported_lower

end

theorem severity_warning (threshold : Nat) (w : Warned) :
    (w.diagnostic threshold).isError = false := rfl

/-- The threshold is advice only, and a filter. Under any two thresholds a compilation ends with the
same error or makes the same fragments, and the warnings under the higher one are those under the
lower one whose counts exceed it. The messages of a compilation are the warnings in its log, and
none of them is an error. -/
theorem threshold_filters (registry : Registry) (settings : Settings) (root : String) :
    (∀ lower upper, lower ≤ upper →
        (compile registry (settings.withThreshold lower) root).value.map Compilation.fragments =
            (compile registry (settings.withThreshold upper) root).value.map
              Compilation.fragments ∧
          warned (compile registry (settings.withThreshold upper) root).events =
            (warned (compile registry (settings.withThreshold lower) root).events).filter
              (upper < ·.count)) ∧
      ∀ threshold c, (compile registry (settings.withThreshold threshold) root).value = .ok c →
        c.diagnostics.toList =
            (warned (compile registry (settings.withThreshold threshold) root).events).map
              (Warned.diagnostic threshold) ∧
          c.diagnostics.hasErrors = false := by
  constructor
  · intro lower upper hle
    obtain ⟨hvalue, hfiltered⟩ := filtered_walkOf registry settings root hle
    rw [map_fragments_compile, map_fragments_compile, warned_compile, warned_compile]
    exact ⟨hvalue, hfiltered.warned⟩
  · intro threshold c h
    have hreported : c.diagnostics.toList =
        (warned (compile registry (settings.withThreshold threshold) root).events).map
          (Warned.diagnostic threshold) := by
      rw [diagnostics_compile h, warned_compile]
      exact reported_walkOf registry settings root threshold
    refine ⟨hreported, ?_⟩
    rw [Diagnostics.hasErrors, hreported]
    simp [severity_warning]

/-- A feed of items of any type, of which posts have replies of any type. -/
def feedTypes : ContentTypes :=
  .ofList [
    (ContentType.ofKey "Feed" .component).withProperty "items" (.ofKind (.content none none)),
    (ContentType.ofKey "Post" .component).withProperty "replies"
      (.ofKind (.array (.ofKind (.content none none)))),
    .ofKey "Note" .page]

theorem threshold_filters_feed :
    warned (compile feedTypes.registry (.withThreshold 1 .initial) "Feed").events =
        [⟨"Feed", "items", 2⟩] ∧
      ∃ c, (compile feedTypes.registry (.withThreshold 1 .initial) "Feed").value = .ok c ∧
        c.diagnostics.toList = [Warned.diagnostic 1 ⟨"Feed", "items", 2⟩] ∧
        c.diagnostics.hasErrors = false := by
  obtain ⟨hthresholds, hmessages⟩ := threshold_filters feedTypes.registry .initial "Feed"
  have hlower : warned (compile feedTypes.registry (.withThreshold 0 .initial) "Feed").events =
      [⟨"Feed", "replies", 1⟩, ⟨"Feed", "items", 2⟩] := rfl
  have hupper : warned (compile feedTypes.registry (.withThreshold 1 .initial) "Feed").events =
      [⟨"Feed", "items", 2⟩] := by
    rw [(hthresholds 0 1 (by decide)).2, hlower]
    rfl
  obtain ⟨c, hc⟩ := exists_ok_of_isSome (show
    (compile feedTypes.registry (.withThreshold 1 .initial) "Feed").value.toOption.isSome = true
    from rfl)
  obtain ⟨hdiagnostics, herrors⟩ := hmessages 1 c hc
  rw [hupper] at hdiagnostics
  exact ⟨hupper, c, hc, hdiagnostics, herrors⟩

end Compile

end ContentQuery
