import ContentQuery.Compile.Expansion

namespace ContentQuery.Compile

/-- The types that may be placed in a composition. Form elements count only if they are asked for. -/
def eligibleKeys (ctx : Context) : List String :=
  (ctx.snapshot.types.filter fun t =>
    t.isCompositionEligible && (ctx.settings.formElements || !t.isFormElement)).map ContentType.key

/-- The instances that a component of a composition may hold. -/
def compositionComponent (ctx : Context) : Fragment :=
  ⟨compositionComponentName, BaseType.component.graphType, typedBody (spreads (eligibleKeys ctx))⟩

/-- What an experience holds beside its own properties. -/
def experienceData : Fragment :=
  ⟨experienceDataName, BaseType.experience.graphType,
    "composition " ++ braced (spread compositionNodeName)⟩

/-- The fragments that every experience shares, after those of all eligible types. They are made
once. -/
def visitComposition (ctx : Context) (visit : Visit) : Walk (List Fragment) := do
  if ← isVisited experienceDataName then return []
  mark experienceDataName
  mark compositionNodeName
  mark compositionComponentName
  let eligible := eligibleKeys ctx
  record (.compositionStarted eligible.length ctx.settings.formElements)
  let fragments ← visitAll visit eligible
  return fragments ++ [compositionComponent ctx, compositionNode, experienceData]

end ContentQuery.Compile
