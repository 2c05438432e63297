import ContentQuery.Proofs.Capture
import ContentQuery.Report

namespace ContentQuery

theorem CompileError.message_diagnostic (key name : String) :
    ((missingContentType name).diagnostic key).message = (missingContentType name).message := by
  simp only [diagnostic, Diagnostic.withDetail, DiagnosticKind.text_some]
  rfl

namespace Diagnostics

variable (ds : Diagnostics)

theorem hasErrors_eq_false_iff :
    ds.hasErrors = false ↔ ∀ d ∈ ds.toList, d.isError = false := by
  simp [hasErrors]

theorem toList_eq_nil_iff : ds.toList = [] ↔ ds.hasErrors = false ∧ ds.hasWarnings = false := by
  constructor
  · intro hnil
    simp [hasErrors, hasWarnings, hnil]
  · rintro ⟨herrors, hwarnings⟩
    simp only [hasErrors, hasWarnings, Diagnostic.isWarning_eq, List.any_eq_false]
      at herrors hwarnings
    refine List.eq_nil_iff_forall_not_mem.mpr fun d hd => hwarnings d hd ?_
    simp [herrors d hd]

end Diagnostics

/-- The messages of a compilation are warnings. -/
theorem hasErrors_compile {registry : Registry} {settings : Settings} {root : String}
    {c : Compilation} (h : (compile registry settings root).value = .ok c) :
    c.diagnostics.hasErrors = false := by
  have hreported : Compile.Reported settings.threshold
      (Compile.walkOf registry settings root).2 :=
    Compile.reported_walkOf registry settings root settings.threshold
  rw [Diagnostics.hasErrors_eq_false_iff, Compile.diagnostics_compile h, hreported]
  intro d hd
  obtain ⟨w, -, rfl⟩ := List.mem_map.mp hd
  exact Compile.severity_warning settings.threshold w

/-- A type that was compiled, by its key, and what came of it. -/
abbrev Compiled := String × Except CompileError Compilation

namespace Compiled

def failure? : Compiled → Option (String × CompileError)
  | (_, .ok _) => none
  | (key, .error error) => some (key, error)

/-- What a report says about the type. -/
def messages : Compiled → List Diagnostic
  | (_, .ok c) => c.diagnostics.toList
  | (key, .error error) => [error.diagnostic key]

def OnlyWarns (result : Compiled) : Prop :=
  ∀ c, result.2 = .ok c → c.diagnostics.hasErrors = false

theorem isError_diagnostic (key : String) (error : CompileError) :
    (error.diagnostic key).isError = true := by
  cases error <;> rfl

variable {result : Compiled} {results : List Compiled}

theorem OnlyWarns.forall_isError_iff (h : result.OnlyWarns) :
    (∀ d ∈ result.messages, d.isError = false) ↔ ∃ c, result.2 = .ok c := by
  obtain ⟨key, error | c⟩ := result
  · simp [messages, isError_diagnostic]
  · simpa [messages] using c.diagnostics.hasErrors_eq_false_iff.mp (h c rfl)

theorem OnlyWarns.messages_eq_nil_iff (h : result.OnlyWarns) :
    result.messages = [] ↔ ∃ c, result.2 = .ok c ∧ c.diagnostics.hasWarnings = false := by
  obtain ⟨key, error | c⟩ := result
  · simp [messages]
  · simp [messages, Diagnostics.toList_eq_nil_iff, h c rfl]

theorem OnlyWarns.countP_messages (h : result.OnlyWarns) :
    result.messages.countP Diagnostic.isError = result.failure?.toList.length := by
  obtain ⟨key, error | c⟩ := result
  · simp [messages, failure?, isError_diagnostic]
  · simpa [messages, failure?] using c.diagnostics.hasErrors_eq_false_iff.mp (h c rfl)

theorem countP_flatMap_messages (h : ∀ result ∈ results, result.OnlyWarns) :
    (results.flatMap messages).countP Diagnostic.isError =
      (results.filterMap failure?).length := by
  induction results with
  | nil => rfl
  | cons result results ih =>
      rw [List.flatMap_cons, List.countP_append, (h result List.mem_cons_self).countP_messages,
        ih fun other hother => h other (List.mem_cons_of_mem _ hother), List.filterMap_cons]
      cases result.failure? with
      | none => simp
      | some failure => simp [Nat.add_comm]

end Compiled

namespace Report

variable (results : List Compiled) (report : Report)

theorem failures_foldl_add :
    (results.foldl add report).failures =
      report.failures ++ results.filterMap Compiled.failure? := by
  induction results generalizing report with
  | nil => simp
  | cons result results ih =>
      rw [List.foldl_cons, ih]
      obtain ⟨key, error | c⟩ := result <;> simp [add, List.filterMap_cons, Compiled.failure?]

theorem diagnostics_foldl_add :
    (results.foldl add report).diagnostics.toList =
      report.diagnostics.toList ++ results.flatMap Compiled.messages := by
  induction results generalizing report with
  | nil => simp
  | cons result results ih =>
      rw [List.foldl_cons, ih]
      obtain ⟨key, error | c⟩ := result <;>
        simp [add, Compiled.messages, Diagnostics.append, Diagnostics.report]

theorem compiled_foldl_add :
    (results.foldl add report).compiled + (results.foldl add report).failures.length =
      report.compiled + report.failures.length + results.length := by
  induction results generalizing report with
  | nil => rfl
  | cons result results ih =>
      rw [List.foldl_cons, ih]
      obtain ⟨key, error | c⟩ := result
      · simp only [add, List.length_append, List.length_cons, List.length_nil]
        omega
      · simp only [add, List.length_cons]
        omega

end Report

/-- What comes of each type of a registry. -/
def resultsOf (types : ContentTypes) (settings : Settings) : List Compiled :=
  types.keys.map fun key => (key, (compile types.registry settings key).value)

section

variable (declarations : List ContentType) (settings : Settings)

theorem ContentTypes.nodup_keys_ofList : (ofList declarations).keys.Nodup := by
  rw [keys, toList_ofList]
  exact Keyed.nodup_map_lasts ContentType.key declarations

theorem value_compileAll :
    (compileAll (ContentTypes.ofList declarations).registry settings).value =
      resultsOf (ContentTypes.ofList declarations) settings := by
  have hresults : (compileAll (ContentTypes.ofList declarations).registry settings).value =
      Keyed.lasts Prod.fst (resultsOf (ContentTypes.ofList declarations) settings) := by
    simp only [compileAll, resultsOf, ContentTypes.keys, List.map_map]
    rfl
  rw [hresults]
  -- Registered types have keys of their own, so that no result replaces another.
  apply Keyed.lasts_of_nodup
  rw [resultsOf, List.map_map]
  simpa [Function.comp_def] using ContentTypes.nodup_keys_ofList declarations

theorem value_check :
    (check (ContentTypes.ofList declarations) settings).value =
      (resultsOf (ContentTypes.ofList declarations) settings).foldl Report.add .empty := by
  rw [check, ← value_compileAll]

theorem onlyWarns_of_mem_resultsOf {types : ContentTypes} {settings : Settings} {result : Compiled}
    (h : result ∈ resultsOf types settings) : result.OnlyWarns := by
  obtain ⟨key, -, rfl⟩ := List.mem_map.mp h
  exact fun _ => hasErrors_compile

theorem diagnostics_check (declarations : List ContentType) (settings : Settings) :
    (check (ContentTypes.ofList declarations) settings).value.diagnostics.toList =
      (resultsOf (ContentTypes.ofList declarations) settings).flatMap Compiled.messages := by
  rw [value_check, Report.diagnostics_foldl_add]
  rfl

theorem isValid_check_iff (declarations : List ContentType) (settings : Settings) :
    let types := ContentTypes.ofList declarations
    (check types settings).value.isValid false = true ↔
      ∀ key ∈ types.keys, ∃ c, (compile types.registry settings key).value = .ok c := by
  intro types
  calc (check types settings).value.isValid false = true
    _ ↔ ∀ d ∈ (check types settings).value.diagnostics.toList, d.isError = false := by
      rw [← Diagnostics.hasErrors_eq_false_iff]
      simp [Report.isValid]
    _ ↔ ∀ result ∈ resultsOf types settings, ∀ d ∈ result.messages, d.isError = false := by
      rw [diagnostics_check, List.forall_mem_flatMap]
    _ ↔ ∀ result ∈ resultsOf types settings, ∃ c, result.2 = .ok c :=
      forall₂_congr fun result h => (onlyWarns_of_mem_resultsOf h).forall_isError_iff
    _ ↔ _ := List.forall_mem_map

theorem isValid_strict_check_iff (declarations : List ContentType) (settings : Settings) :
    let types := ContentTypes.ofList declarations
    (check types settings).value.isValid true = true ↔
      ∀ key ∈ types.keys, ∃ c, (compile types.registry settings key).value = .ok c ∧
        c.diagnostics.hasWarnings = false := by
  intro types
  calc (check types settings).value.isValid true = true
    _ ↔ (check types settings).value.diagnostics.toList = [] := by
      rw [Diagnostics.toList_eq_nil_iff]
      simp [Report.isValid]
    _ ↔ ∀ result ∈ resultsOf types settings, result.messages = [] := by
      rw [diagnostics_check, List.flatMap_eq_nil_iff]
    _ ↔ ∀ result ∈ resultsOf types settings,
          ∃ c, result.2 = .ok c ∧ c.diagnostics.hasWarnings = false :=
      forall₂_congr fun result h => (onlyWarns_of_mem_resultsOf h).messages_eq_nil_iff
    _ ↔ _ := List.forall_mem_map

end

/-- The report on a registry is faithful. Its failures are the errors of the types that do not
compile, and its messages are those of all types, in order; the messages of a type that compiles are
warnings, and that of another one is an error about it, with the text of the failure. The report is
valid exactly if every type compiles, and strictly valid if none of them has warnings either. -/
theorem check_reports_results (declarations : List ContentType) (settings : Settings) :
    let types := ContentTypes.ofList declarations
    let results := resultsOf types settings
    let report := (check types settings).value
    (report.compiled + report.failures.length = types.keys.length ∧
        report.failures = results.filterMap Compiled.failure? ∧
        report.diagnostics.toList = results.flatMap Compiled.messages) ∧
      (∀ result ∈ results,
        (∀ c, result.2 = .ok c → ∀ d ∈ c.diagnostics.toList, d.isWarning = true) ∧
          ∀ error, result.2 = .error error →
            (error.diagnostic result.1).isError = true ∧
              (error.diagnostic result.1).root = some result.1 ∧
              (error.diagnostic result.1).message = error.message) ∧
      report.diagnostics.errorCount = report.failures.length ∧
      (report.isValid false = true ↔
        ∀ key ∈ types.keys, ∃ c, (compile types.registry settings key).value = .ok c) ∧
      (report.isValid true = true ↔
        ∀ key ∈ types.keys, ∃ c, (compile types.registry settings key).value = .ok c ∧
          c.diagnostics.hasWarnings = false) := by
  intro types results report
  have hreport : report = results.foldl Report.add .empty := value_check declarations settings
  have hwarns : ∀ result ∈ results, result.OnlyWarns := fun _ => onlyWarns_of_mem_resultsOf
  have hfailures : report.failures = results.filterMap Compiled.failure? := by
    rw [hreport, Report.failures_foldl_add]
    rfl
  have hmessages : report.diagnostics.toList = results.flatMap Compiled.messages :=
    diagnostics_check declarations settings
  refine ⟨⟨?_, hfailures, hmessages⟩, ?_, ?_, ?_, ?_⟩
  · rw [hreport, Report.compiled_foldl_add]
    simp [Report.empty, results, resultsOf]
  · intro result hresult
    obtain ⟨key, -, rfl⟩ := List.mem_map.mp hresult
    constructor
    · intro c hc d hd
      have herror := c.diagnostics.hasErrors_eq_false_iff.mp (hasErrors_compile hc) d hd
      rw [Diagnostic.isWarning_eq, herror]
      rfl
    · intro error herror
      obtain ⟨name, rfl⟩ := Compile.exists_missing_of_error herror
      exact ⟨rfl, rfl, CompileError.message_diagnostic key name⟩
  · rw [Diagnostics.errorCount, hmessages, hfailures, Compiled.countP_flatMap_messages hwarns]
  · exact isValid_check_iff declarations settings
  · exact isValid_strict_check_iff declarations settings

/-- A feed of items of any type but one, and a card with a reference that leads nowhere. -/
def brokenDeclarations : List ContentType := [
  (ContentType.ofKey "Feed" .component).withProperty "items"
    (.ofKind (.array (.ofKind (.content none (some [.key "Card"]))))),
  (ContentType.ofKey "Card" .component).withProperty "link"
    (.ofKind (.component (.key "Ghost"))),
  .ofKey "Note" .page]

theorem check_reports_results_broken :
    let report := (check (.ofList brokenDeclarations) (.withThreshold 0 .initial)).value
    report.compiled = 2 ∧ report.failures = [("Card", .missingContentType "Ghost")] ∧
      report.diagnostics.toList = [Warned.diagnostic 0 ⟨"Feed", "items", 1⟩,
        CompileError.diagnostic "Card" (.missingContentType "Ghost")] ∧
      report.isValid false = false ∧
      (check (.ofList (brokenDeclarations.eraseIdx 1)) (.withThreshold 0 .initial)).value.isValid
        false = true := by
  intro report
  obtain ⟨⟨hcount, hfailures, hmessages⟩, -, -, hvalid, -⟩ :=
    check_reports_results brokenDeclarations (.withThreshold 0 .initial)
  obtain ⟨-, -, -, hmended, -⟩ :=
    check_reports_results (brokenDeclarations.eraseIdx 1) (.withThreshold 0 .initial)
  have hcard : report.failures = [("Card", .missingContentType "Ghost")] := hfailures.trans rfl
  refine ⟨?_, hcard, hmessages.trans rfl, ?_, ?_⟩
  · have hsize : report.compiled + report.failures.length = 3 := hcount
    rw [hcard] at hsize
    simpa using hsize
  · rw [Bool.eq_false_iff, Ne, hvalid]
    intro hall
    obtain ⟨c, hc⟩ := hall "Card" (by decide)
    cases hc
  · rw [hmended]
    intro key hkey
    refine Compile.exists_ok_of_isSome ?_
    revert hkey key
    decide

end ContentQuery
