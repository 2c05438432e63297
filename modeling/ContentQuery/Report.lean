import ContentQuery.Compile

namespace ContentQuery

structure Report where
  compiled : Nat
  failures : List (String × CompileError)
  diagnostics : Diagnostics
  deriving DecidableEq, Repr

namespace Report

def empty : Report := ⟨0, [], .empty⟩

/-- Adds the result of one type. An error becomes a message about it. -/
def add (report : Report) : String × Except CompileError Compilation → Report
  | (_, .ok compilation) =>
      { report with
        compiled := report.compiled + 1
        diagnostics := report.diagnostics.append compilation.diagnostics }
  | (key, .error error) =>
      { report with
        failures := report.failures ++ [(key, error)]
        diagnostics := report.diagnostics.report (error.diagnostic key) }

/-- Whether there are no errors and, if it is strict, no warnings. -/
def isValid (strict : Bool) (report : Report) : Bool :=
  !report.diagnostics.hasErrors && !(strict && report.diagnostics.hasWarnings)

end Report

/-- Compiles every type and reports on all of them. -/
def check (types : ContentTypes) (settings : Settings) : Traced Report :=
  let runs := compileAll types.registry settings
  let report := runs.value.foldl Report.add .empty
  ⟨report, runs.events ++
    [.manifestChecked report.compiled report.diagnostics.errorCount
      report.diagnostics.warningCount]⟩

end ContentQuery
