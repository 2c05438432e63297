import ContentQuery.Text.Basic

namespace ContentQuery

inductive Severity where
  | error
  | warning
  deriving DecidableEq, Repr, Inhabited

def Severity.name : Severity → String
  | .error => "error"
  | .warning => "warning"

inductive DiagnosticKind where
  | fragmentFanOut
  | missingContentType
  deriving DecidableEq, Repr

namespace DiagnosticKind

def all : List DiagnosticKind := [.fragmentFanOut, .missingContentType]

def severity : DiagnosticKind → Severity
  | .fragmentFanOut => .warning
  | .missingContentType => .error

/-- The hint that every message of the kind begins with. -/
def hint : DiagnosticKind → String
  | .fragmentFanOut =>
      "add `allowedTypes` or `restrictedTypes` to the property to limit the generated fragments"
  | .missingContentType => "register the content type or fix the reference"

/-- The text of a message without detail. -/
def fallback : DiagnosticKind → String
  | .fragmentFanOut => "too many fragments generated"
  | .missingContentType => "missing content type"

/-- The text of a message with a detail in place of the braces. -/
def template (kind : DiagnosticKind) : String := kind.fallback ++ ": \x7b\x7d"

def text (kind : DiagnosticKind) : Option String → String
  | none => kind.fallback
  | some detail => Text.fill kind.template detail

/-- A text with a detail ends with the detail as it is, whatever the detail holds. -/
theorem text_some (kind : DiagnosticKind) (detail : String) :
    kind.text (some detail) = kind.fallback ++ ": " ++ detail := by
  have htemplate : kind.template.toList = (kind.fallback ++ ": ").toList ++ ['\x7b', '\x7d'] := by
    cases kind <;> rfl
  have hfree : '\x7b' ∉ (kind.fallback ++ ": ").toList := by
    cases kind <;> decide
  apply String.toList_inj.mp
  simp only [text, Text.fill]
  rw [htemplate, Text.fillChars_append _ hfree, String.toList_append]
  simp [Text.fillChars]

end DiagnosticKind

/-- A message; its root is the content type whose compilation it is about. -/
structure Diagnostic where
  kind : DiagnosticKind
  root : Option String
  message : String
  hints : List String
  deriving DecidableEq, Repr

namespace Diagnostic

def ofKind (kind : DiagnosticKind) : Diagnostic := ⟨kind, none, kind.text none, [kind.hint]⟩

def withRoot (root : String) (d : Diagnostic) : Diagnostic := { d with root := some root }

def withDetail (detail : String) (d : Diagnostic) : Diagnostic :=
  { d with message := d.kind.text (some detail) }

def withHint (hint : String) (d : Diagnostic) : Diagnostic := { d with hints := d.hints ++ [hint] }

def severity (d : Diagnostic) : Severity := d.kind.severity

def isError (d : Diagnostic) : Bool := d.severity = .error

def isWarning (d : Diagnostic) : Bool := d.severity = .warning

theorem isWarning_eq (d : Diagnostic) : d.isWarning = !d.isError := by
  unfold isWarning isError
  cases d.severity <;> rfl

/-- The message on one line: severity, root, text and hints. -/
def render (d : Diagnostic) : String :=
  d.severity.name ++
    (match d.root with
      | none => ""
      | some root => " in `" ++ root ++ "`") ++
    ": " ++ d.message ++ String.join (d.hints.map fun hint => " (hint: " ++ hint ++ ")")

end Diagnostic

structure Diagnostics where
  toList : List Diagnostic
  deriving DecidableEq, Repr

namespace Diagnostics

def empty : Diagnostics := ⟨[]⟩

def report (ds : Diagnostics) (d : Diagnostic) : Diagnostics := ⟨ds.toList ++ [d]⟩

def append (ds others : Diagnostics) : Diagnostics := ⟨ds.toList ++ others.toList⟩

def size (ds : Diagnostics) : Nat := ds.toList.length

def isEmpty (ds : Diagnostics) : Bool := ds.toList.isEmpty

def errorCount (ds : Diagnostics) : Nat := ds.toList.countP Diagnostic.isError

def warningCount (ds : Diagnostics) : Nat := ds.toList.countP Diagnostic.isWarning

def hasErrors (ds : Diagnostics) : Bool := ds.toList.any Diagnostic.isError

def hasWarnings (ds : Diagnostics) : Bool := ds.toList.any Diagnostic.isWarning

/-- One line for each message. -/
def render (ds : Diagnostics) : String := String.join (ds.toList.map fun d => d.render ++ "\n")

end Diagnostics

end ContentQuery
