import ContentQuery.Event
import ContentQuery.Text.Basic

namespace ContentQuery

/-- The number of fragments above which a property without constraints is reported, and whether
form elements join the composition of experiences. -/
structure Settings where
  threshold : Nat
  formElements : Bool
  deriving DecidableEq, Repr

namespace Settings

def defaultThreshold : Nat := 100

def initial : Settings := ⟨defaultThreshold, false⟩

def withThreshold (threshold : Nat) (s : Settings) : Settings := { s with threshold }

def withFormElements (formElements : Bool) (s : Settings) : Settings := { s with formElements }

/-- The threshold that a text gives: a decimal number between white space. -/
def readThreshold (text : String) : Except Decimal.Fault Nat :=
  Decimal.read Decimal.wordMax (Text.trimBlanks text.toList)

/-- Sets the threshold from a text, if there is one. A text that is no number changes nothing. -/
def overrideThreshold (text? : Option String) (s : Settings) : Traced Settings :=
  match text? with
  | none => ⟨s, []⟩
  | some text =>
      match readThreshold text with
      | .ok threshold => ⟨s.withThreshold threshold, []⟩
      | .error fault => ⟨s, [.invalidThreshold text fault]⟩

/-- The initial settings under the value of the environment variable. -/
def ofEnvironment (value? : Option String) : Traced Settings := initial.overrideThreshold value?

end Settings

end ContentQuery
