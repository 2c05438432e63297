import ContentQuery.Candidates
import ContentQuery.Compile.Walk
import ContentQuery.FanOut

namespace ContentQuery.Compile

structure Expansion where
  field : String
  fragments : List Fragment
  deriving DecidableEq, Repr

/-- The types that a content property selects on: each candidate, and after a media type the tag of
its base type. -/
def contentTargets (ctx : Context) (allowed restricted : Option (List Reference)) : List String :=
  (Candidates.resolve ctx.snapshot.registry (canonicalKeys ctx.root allowed)
    (canonicalKeys ctx.root restricted)).flatMap fun candidate =>
      match ctx.snapshot.mediaBase? candidate with
      | none => [candidate]
      | some base => [candidate, base.tag]

def spreads (names : List String) : List String := Keyed.firsts id (names.map spread)

/-- The field of a property that refers to no other type. -/
def plainField (name : String) : PropertyKind → String
  | .richText => name ++ " " ++ braced "html json"
  | .url => name ++ " " ++ urlShape
  | .link => name ++ " " ++ braced ("text title target url " ++ urlShape)
  | .contentReference => name ++ " " ++ braced ("url " ++ urlShape)
  | _ => name

/-- The expansion of a property of the given kind. An array is selected like its items. -/
def expand (ctx : Context) (visit : Visit) (name : String) : PropertyKind → Walk Expansion
  | .component type => do
      let key := resolveSelf ctx.root type.typeKey
      let fragments ← visit key componentSuffix
      return ⟨name ++ " " ++ braced (spread (key ++ componentSuffix)), fragments⟩
  | .content allowed restricted => do
      let targets := contentTargets ctx allowed restricted
      let fragments ← visitAll visit targets
      return ⟨name ++ " " ++ braced (typedBody (spreads targets)), fragments⟩
  | .array ⟨kind, _⟩ => expand ctx visit name kind
  | kind => return ⟨plainField name kind, []⟩

/-- Reports an expansion that has more fragments than the threshold allows. -/
def checkFanOut (ctx : Context) (name : String) (p : Property) (count : Nat) : Walk Unit :=
  match FanOut.finding? ctx.root name p count ctx.settings.threshold with
  | none => return
  | some (event, diagnostic) => do
      record event
      report diagnostic

/-- The field as it stands in the fragment of the type: with an alias that begins with the key of
the type, unless the type is a component or an experience. -/
def aliased (t : ContentType) (name field : String) : String :=
  if t.baseType.isComponentHierarchy then field else t.key ++ "__" ++ name ++ ": " ++ field

/-- The fields of a type's properties in order of declaration, and the fragments made for them.
Disabled properties are left out. -/
def expandProperties (ctx : Context) (visit : Visit) (t : ContentType) :
    List (String × Property) → Walk (List String × List Fragment)
  | [] => return ([], [])
  | (name, p) :: rest => do
      if p.isDisabled then
        record (.disabledSkipped t.key name)
        expandProperties ctx visit t rest
      else
        let expansion ← expand ctx visit name p.kind
        checkFanOut ctx name p expansion.fragments.length
        let (fields, fragments) ← expandProperties ctx visit t rest
        return (aliased t name expansion.field :: fields, expansion.fragments ++ fragments)

end ContentQuery.Compile
