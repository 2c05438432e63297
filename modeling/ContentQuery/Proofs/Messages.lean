import ContentQuery.Proofs.Report

namespace ContentQuery

namespace Diagnostic

/-- What may be asked of a message before it is recorded. -/
inductive Request where
  | root (key : String)
  | detail (text : String)
  | hint (text : String)
  deriving DecidableEq, Repr

namespace Request

def apply (d : Diagnostic) : Request → Diagnostic
  | root key => d.withRoot key
  | detail text => d.withDetail text
  | hint text => d.withHint text

def root? : Request → Option String
  | root key => some key
  | _ => none

def detail? : Request → Option String
  | detail text => some text
  | _ => none

def hint? : Request → Option String
  | hint text => some text
  | _ => none

end Request

/-- A message that is not recorded yet: its kind, and what was asked of it in turn. -/
structure Draft where
  kind : DiagnosticKind
  requests : List Request
  deriving DecidableEq, Repr

namespace Draft

def toDiagnostic (draft : Draft) : Diagnostic :=
  draft.requests.foldl Request.apply (.ofKind draft.kind)

def roots (draft : Draft) : List String := draft.requests.filterMap Request.root?

def details (draft : Draft) : List String := draft.requests.filterMap Request.detail?

def hints (draft : Draft) : List String := draft.requests.filterMap Request.hint?

/-- The message says what the draft asks for. -/
structure AnsweredBy (draft : Draft) (d : Diagnostic) : Prop where
  kind : d.kind = draft.kind
  root : d.root = draft.roots.getLast?
  hints : d.hints = draft.kind.hint :: draft.hints
  message_plain : draft.details = [] → d.message = draft.kind.fallback
  message_detail : ∀ detail, draft.details.getLast? = some detail →
    d.message = draft.kind.fallback ++ ": " ++ detail

end Draft

theorem getLast?_filterMap_cons_or {α β : Type} (f : α → Option β) (x : α) (xs : List α)
    (o : Option β) :
    ((x :: xs).filterMap f).getLast?.or o = (xs.filterMap f).getLast?.or ((f x).or o) := by
  cases hx : f x with
  | none => rw [List.filterMap_cons_none hx, Option.none_or]
  | some y =>
      rw [List.filterMap_cons_some hx, List.getLast?_cons]
      cases (xs.filterMap f).getLast? <;> rfl

section

variable (request : Request) (requests : List Request) (d : Diagnostic)

theorem kind_apply : (request.apply d).kind = d.kind := by
  cases request <;> rfl

theorem root_apply : (request.apply d).root = request.root?.or d.root := by
  cases request <;> rfl

theorem hints_apply : (request.apply d).hints = d.hints ++ request.hint?.toList := by
  cases request with
  | hint text => rfl
  | root _ | detail _ => exact (List.append_nil d.hints).symm

theorem message_apply {detail? : Option String} (h : d.message = d.kind.text detail?) :
    (request.apply d).message = d.kind.text (request.detail?.or detail?) := by
  cases request with
  | detail text => rfl
  | root _ | hint _ => exact h

theorem kind_foldl : (requests.foldl Request.apply d).kind = d.kind := by
  induction requests generalizing d with
  | nil => rfl
  | cons request requests ih => rw [List.foldl_cons, ih, kind_apply]

theorem root_foldl :
    (requests.foldl Request.apply d).root =
      (requests.filterMap Request.root?).getLast?.or d.root := by
  induction requests generalizing d with
  | nil => rfl
  | cons request requests ih =>
      rw [List.foldl_cons, ih, root_apply, getLast?_filterMap_cons_or]

theorem hints_foldl :
    (requests.foldl Request.apply d).hints = d.hints ++ requests.filterMap Request.hint? := by
  induction requests generalizing d with
  | nil => exact (List.append_nil d.hints).symm
  | cons request requests ih =>
      rw [List.foldl_cons, ih, hints_apply, List.append_assoc]
      cases hhint : request.hint? with
      | none => rw [List.filterMap_cons_none hhint]; rfl
      | some hint => rw [List.filterMap_cons_some hhint]; rfl

/-- The text is always that of the kind with some detail, which the last one replaces. -/
theorem message_foldl {detail? : Option String} (h : d.message = d.kind.text detail?) :
    (requests.foldl Request.apply d).message =
      d.kind.text ((requests.filterMap Request.detail?).getLast?.or detail?) := by
  induction requests generalizing d detail? with
  | nil => exact h
  | cons request requests ih =>
      have hrequest := message_apply request d h
      rw [← kind_apply request d] at hrequest
      rw [List.foldl_cons, ih _ hrequest, kind_apply, getLast?_filterMap_cons_or]

end

theorem Draft.answeredBy_toDiagnostic (draft : Draft) : draft.AnsweredBy draft.toDiagnostic := by
  have hmessage : draft.toDiagnostic.message = draft.kind.text draft.details.getLast? := by
    rw [← Option.or_none (o := draft.details.getLast?)]
    exact message_foldl draft.requests (.ofKind draft.kind) rfl
  refine ⟨kind_foldl _ _, ?_, hints_foldl _ _, fun hnone => ?_, fun detail hdetail => ?_⟩
  · exact (root_foldl _ _).trans Option.or_none
  · rw [hmessage, hnone]
    rfl
  · rw [hmessage, hdetail, DiagnosticKind.text_some]

example : (⟨.fragmentFanOut, [.detail "3 fragments", .root "Home", .hint "see the manifest",
      .detail "\x7b\x7d", .root "Card"]⟩ : Draft).toDiagnostic =
    ⟨.fragmentFanOut, some "Card", "too many fragments generated: \x7b\x7d",
      [DiagnosticKind.hint .fragmentFanOut, "see the manifest"]⟩ := by decide

end Diagnostic

open Diagnostic (Draft)

/-- The message about a missing type is that of a draft. -/
def CompileError.draft (root name : String) : Draft :=
  ⟨.missingContentType, [.root root, .detail ("`" ++ name ++ "`")]⟩

namespace Diagnostics

/-- What may be done with a log of messages. A log that extends another one is made by steps too. -/
inductive Step where
  | report (draft : Draft)
  | missing (root name : String)
  | extend (steps : List Step)

mutual

def Step.run (ds : Diagnostics) : Step → Diagnostics
  | .report draft => ds.report draft.toDiagnostic
  | .missing root name => ds.report ((CompileError.missingContentType name).diagnostic root)
  | .extend steps => ds.append (runAll .empty steps)

def runAll (ds : Diagnostics) : List Step → Diagnostics
  | [] => ds
  | step :: steps => runAll (step.run ds) steps

end

mutual

/-- The drafts that a step records, those of a log that extends another one in their order. -/
def Step.drafts : Step → List Draft
  | .report draft => [draft]
  | .missing root name => [CompileError.draft root name]
  | .extend steps => draftsOf steps

def draftsOf : List Step → List Draft
  | [] => []
  | step :: steps => step.drafts ++ draftsOf steps

end

/-- The second log is the first one, and after it a message for each draft. -/
def Records (drafts : List Draft) (ds ds' : Diagnostics) : Prop :=
  ∃ messages, ds'.toList = ds.toList ++ messages ∧
    List.Forall₂ Draft.AnsweredBy drafts messages

namespace Records

variable {drafts drafts' : List Draft} {ds ds' ds'' : Diagnostics}

theorem refl (ds : Diagnostics) : Records [] ds ds :=
  ⟨[], (List.append_nil _).symm, .nil⟩

theorem report {draft : Draft} {d : Diagnostic} (ds : Diagnostics) (h : draft.AnsweredBy d) :
    Records [draft] ds (ds.report d) :=
  ⟨[d], rfl, .cons h .nil⟩

theorem trans (h : Records drafts ds ds') (h' : Records drafts' ds' ds'') :
    Records (drafts ++ drafts') ds ds'' := by
  obtain ⟨messages, hds', hmessages⟩ := h
  obtain ⟨messages', hds'', hmessages'⟩ := h'
  refine ⟨messages ++ messages', ?_, List.rel_append hmessages hmessages'⟩
  rw [hds'', hds', List.append_assoc]

theorem append (ds : Diagnostics) (h : Records drafts .empty ds') :
    Records drafts ds (ds.append ds') := by
  obtain ⟨messages, hds', hmessages⟩ := h
  refine ⟨messages, ?_, hmessages⟩
  rw [Diagnostics.append, hds']
  rfl

theorem isPrefix (h : Records drafts ds ds') : ds.toList <+: ds'.toList := by
  obtain ⟨messages, hds', -⟩ := h
  exact ⟨messages, hds'.symm⟩

end Records

mutual

/-- A step records its drafts, whatever was recorded before it. -/
theorem records_step (ds : Diagnostics) : ∀ step : Step, Records step.drafts ds (step.run ds)
  | .report draft => by
      rw [Step.drafts, Step.run]
      exact .report ds draft.answeredBy_toDiagnostic
  | .missing root name => by
      rw [Step.drafts, Step.run]
      exact .report ds (CompileError.draft root name).answeredBy_toDiagnostic
  | .extend steps => by
      rw [Step.drafts, Step.run]
      exact .append ds (records_runAll .empty steps)

theorem records_runAll (ds : Diagnostics) :
    ∀ steps : List Step, Records (draftsOf steps) ds (runAll ds steps)
  | [] => by
      rw [draftsOf, runAll]
      exact .refl ds
  | step :: steps => by
      rw [draftsOf, runAll]
      exact (records_step ds step).trans (records_runAll (step.run ds) steps)

end

theorem runAll_append (ds : Diagnostics) (steps steps' : List Step) :
    runAll ds (steps ++ steps') = runAll (runAll ds steps) steps' := by
  induction steps generalizing ds with
  | nil => rw [List.nil_append, runAll]
  | cons step steps ih => rw [List.cons_append, runAll, runAll, ih]

theorem isPrefix_runAll_take (ds : Diagnostics) (steps : List Step) (n : Nat) :
    (runAll ds (steps.take n)).toList <+: (runAll ds steps).toList := by
  have hsplit : runAll ds steps = runAll (runAll ds (steps.take n)) (steps.drop n) := by
    rw [← runAll_append, List.take_append_drop]
  rw [hsplit]
  exact (records_runAll _ (steps.drop n)).isPrefix

/-- The numbers that a log tells of its messages fit together. -/
structure Counted (ds : Diagnostics) : Prop where
  size : ds.errorCount + ds.warningCount = ds.size
  hasErrors : ds.hasErrors = true ↔ 0 < ds.errorCount
  hasWarnings : ds.hasWarnings = true ↔ 0 < ds.warningCount

theorem counted (ds : Diagnostics) : ds.Counted where
  size := by
    have hwarnings : Diagnostic.isWarning = fun d => !d.isError := funext Diagnostic.isWarning_eq
    rw [errorCount, warningCount, Diagnostics.size, hwarnings]
    simpa using (List.length_eq_countP_add_countP Diagnostic.isError (l := ds.toList)).symm
  hasErrors := by rw [hasErrors, errorCount, List.countP_pos_iff, List.any_eq_true]
  hasWarnings := by rw [hasWarnings, warningCount, List.countP_pos_iff, List.any_eq_true]

theorem render_append (ds others : Diagnostics) :
    (ds.append others).render = ds.render ++ others.render := by
  rw [render, append, List.map_append, String.join_append]
  rfl

/-- Whatever is done with a log of messages, those that it has stay as they are and where they are.
After them stands one message for each draft that was recorded on the way, however deep within logs
that extend one another, and it says what the draft asks for. The numbers that the log tells fit
together, and a log that extends it is shown after it. -/
theorem steps_recorded (ds : Diagnostics) (steps : List Step) :
    Records (draftsOf steps) ds (runAll ds steps) ∧
      (∀ n, (runAll ds (steps.take n)).toList <+: (runAll ds steps).toList) ∧
      (runAll ds steps).Counted ∧
      ∀ others, ((runAll ds steps).append others).render =
        (runAll ds steps).render ++ others.render :=
  ⟨records_runAll ds steps, isPrefix_runAll_take ds steps, counted _, render_append _⟩

end Diagnostics

end ContentQuery
