import ContentQuery.ContentType
import ContentQuery.Diagnostic
import ContentQuery.Event

namespace ContentQuery.FanOut

def isUnset (references : Option (List Reference)) : Bool := (references.getD []).isEmpty

/-- Whether nothing bounds the candidates of a property: a content property without allowed and
restricted types, or an array of content items without allowed types or with an empty list of
restricted ones. -/
def isUnconstrained (p : Property) : Bool :=
  match p.kind with
  | .content allowed restricted => isUnset allowed && isUnset restricted
  | .array item =>
      match item.kind with
      | .content allowed restricted =>
          isUnset allowed || (restricted.map List.isEmpty).getD false
      | _ => false
  | _ => false

def warning (root name : String) (count threshold : Nat) : Diagnostic :=
  ((Diagnostic.ofKind .fragmentFanOut).withRoot root).withDetail
    ("content type `" ++ root ++ "` generated " ++ toString count ++ " fragments for property `" ++
      name ++ "` (threshold " ++ toString threshold ++ ")")

/-- What is said about a property without constraints that was expanded into more fragments than
the threshold. -/
def finding? (root name : String) (p : Property) (count threshold : Nat) :
    Option (Event × Diagnostic) :=
  if threshold < count && isUnconstrained p then
    some (.fanOut root name count threshold, warning root name count threshold)
  else none

end ContentQuery.FanOut
