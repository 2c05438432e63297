import ContentQuery.Proofs.SideBySide

/-!
Compilations that cannot be told apart by where they end. Steps that are in lockstep, from states
that are alike, come to the same value or the same error and leave states behind that are alike
again. All steps of two compilations are in lockstep as soon as their checks for fan-out are,
`visitWithin_lockstep`. Where the first one gives up for its depth, nothing is said about the
second.
-/

namespace ContentQuery.Compile

variable {α β : Type} {alike : State → State → Prop}

/-- The ends of two runs, unless the first run gave up for its depth. -/
def SameEnd (alike : State → State → Prop) (out out' : Except CompileError α × State) : Prop :=
  out.1 = .error .unfinished ∨ (out.1 = out'.1 ∧ alike out.2 out'.2)

def Lockstep (alike : State → State → Prop) (step step' : Walk α) : Prop :=
  ∀ ⦃state state' : State⦄, alike state state' → SameEnd alike (step.run state) (step'.run state')

/-- Marks and the events of a walk keep states alike, and names are visited in both or in none. -/
structure Steady (alike : State → State → Prop) : Prop where
  visited : ∀ {state state' : State}, alike state state' → state.visited = state'.visited
  mark : ∀ {state state' : State} (name : String), alike state state' →
    alike { state with visited := name :: state.visited }
      { state' with visited := name :: state'.visited }
  record : ∀ {state state' : State} {event : Event}, event.level = .trace → alike state state' →
    alike { state with events := state.events ++ [event] }
      { state' with events := state'.events ++ [event] }

theorem Lockstep.pure (a : α) : Lockstep alike (Pure.pure a) (Pure.pure a) :=
  fun _ _ h => Or.inr ⟨rfl, h⟩

theorem Lockstep.throw (error : CompileError) :
    Lockstep (α := α) alike (MonadExcept.throw error) (MonadExcept.throw error) :=
  fun _ _ h => Or.inr ⟨rfl, h⟩

theorem Lockstep.bind {step step' : Walk α} {next next' : α → Walk β}
    (hstep : Lockstep alike step step') (hnext : ∀ a, Lockstep alike (next a) (next' a)) :
    Lockstep alike (step >>= next) (step' >>= next') := by
  intro state state' hstate
  have hend := hstep hstate
  rw [run_bind, run_bind]
  rcases hrun : step.run state with ⟨value, inner⟩
  rcases hrun' : step'.run state' with ⟨value', inner'⟩
  rw [hrun, hrun'] at hend
  rcases hend with hunfinished | ⟨hvalue, hinner⟩
  · obtain rfl : value = .error .unfinished := hunfinished
    exact Or.inl rfl
  · obtain rfl : value = value' := hvalue
    cases value with
    | error error => exact Or.inr ⟨rfl, hinner⟩
    | ok a => exact hnext a hinner

namespace Steady

variable (halike : Steady alike)
include halike

theorem isVisited_lockstep (name : String) : Lockstep alike (isVisited name) (isVisited name) := by
  intro state state' h
  refine Or.inr ⟨?_, h⟩
  change Except.ok (state.visited.contains name) = .ok (state'.visited.contains name)
  rw [halike.visited h]

theorem mark_lockstep (name : String) : Lockstep alike (Compile.mark name) (Compile.mark name) :=
  fun _ _ h => Or.inr ⟨rfl, halike.mark name h⟩

theorem record_lockstep {event : Event} (hevent : event.level = .trace) :
    Lockstep alike (Compile.record event) (Compile.record event) :=
  fun _ _ h => Or.inr ⟨rfl, halike.record hevent h⟩

theorem compatible : Compatible (Lockstep alike) where
  pure := .pure
  throw := .throw
  bind := .bind
  isVisited := halike.isVisited_lockstep
  mark := halike.mark_lockstep
  record := halike.record_lockstep

end Steady

/-- The contexts differ at most in the threshold. -/
structure SameButThreshold (ctx ctx' : Context) : Prop where
  root : ctx.root = ctx'.root
  snapshot : ctx.snapshot = ctx'.snapshot
  formElements : ctx.settings.formElements = ctx'.settings.formElements

theorem SameButThreshold.view {ctx ctx' : Context} (h : SameButThreshold ctx ctx') :
    SameView ctx ctx' :=
  ⟨h.root, congrArg Snapshot.types h.snapshot, fun _ => by rw [h.snapshot]⟩

section

variable {ctx ctx' : Context} (hctx : SameButThreshold ctx ctx') (halike : Steady alike)
  (hcheck : ∀ name p count,
    Lockstep alike (checkFanOut ctx name p count) (checkFanOut ctx' name p count))
include hctx halike hcheck

/-- Visits are in lockstep if those that they go through are. -/
theorem visitWith_lockstep {visit visit' : Visit}
    (hvisit : ∀ key suffix, Lockstep alike (visit key suffix) (visit' key suffix))
    (key suffix : String) :
    Lockstep alike (visitWith ctx visit key suffix) (visitWith ctx' visit' key suffix) := by
  have hnodes : ∀ key suffixed,
      Lockstep alike (visit key (Compile.suffix suffixed)) (visit' key (Compile.suffix suffixed)) :=
    fun key suffixed => hvisit key (Compile.suffix suffixed)
  exact halike.compatible.visitWith_of_sameView hnodes hctx.view hcheck
    (halike.compatible.visitComposition hnodes (hctx.view.eligibleKeys hctx.formElements)
      hctx.formElements) key suffix

theorem visitWithin_lockstep (depth : Nat) (key suffix : String) :
    Lockstep alike (visitWithin ctx depth key suffix) (visitWithin ctx' depth key suffix) := by
  induction depth generalizing key suffix with
  | zero => exact .throw _
  | succ depth ih => exact visitWith_lockstep hctx halike hcheck ih key suffix

end

end ContentQuery.Compile
