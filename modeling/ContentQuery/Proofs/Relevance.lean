import Mathlib.Data.List.Forall2
import Mathlib.Data.Option.Basic
import Mathlib.Logic.Relation
import ContentQuery.Proofs.Threshold

/-!
Only what is declared as relevant is read. Relevant of a type are its key, its base type, its
enabled properties with the keys that their references stand for, whether it may be placed in a
composition, and whether it is a form element. A compilation goes the same way over the relevant
parts of the types, `visitWithin_relevant`, so that the result stays the same however the rest is
rewritten, `compile_rewritten`.
-/

namespace ContentQuery

section

variable (root : String)

/-- A reference by key alone, with the root in place of the self key. -/
def Reference.relevant (reference : Reference) : Reference :=
  .key (resolveSelf root reference.typeKey)

/-- How the items of an array are indexed is not relevant. -/
def PropertyKind.relevant : PropertyKind → PropertyKind
  | .component type => .component (type.relevant root)
  | .content allowed restricted =>
      .content (allowed.map (List.map (Reference.relevant root)))
        (restricted.map (List.map (Reference.relevant root)))
  | .array ⟨kind, _⟩ => .array ⟨kind.relevant, none⟩
  | kind => kind

def relevantProperty (property : String × Property) : String × Property :=
  (property.1, .ofKind (property.2.kind.relevant root))

/-- Behaviors that are as many as are needed to tell the same. -/
def relevantBehaviors (behaviors : List Behavior) : List Behavior :=
  if behaviors.contains .formsElementEnabled then [.formsElementEnabled]
  else if behaviors.isEmpty then [] else [.elementEnabled]

def ContentType.relevant (t : ContentType) : ContentType where
  key := t.key
  baseType := t.baseType
  displayName := none
  properties := (Compile.enabled t.properties).map (relevantProperty root)
  behaviors := relevantBehaviors t.behaviors
  mayContain := []

/-- Rewritings of a reference: an inline declaration becomes its key or any other declaration of
that key, and the self key becomes the root. -/
inductive Reference.Rewrites : Reference → Reference → Prop
  | refl (reference : Reference) : Rewrites reference reference
  | key (declaration : ContentType) : Rewrites (.inline declaration) (.key declaration.key)
  | body {declaration declaration' : ContentType} (h : declaration.key = declaration'.key) :
      Rewrites (.inline declaration) (.inline declaration')
  | self : Rewrites (.key selfKey) (.key root)

/-- Rewritings of the references of a property, within arrays too, and of how the items of arrays
are indexed. -/
inductive PropertyKind.Rewrites : PropertyKind → PropertyKind → Prop
  | refl (kind : PropertyKind) : Rewrites kind kind
  | component {type type' : Reference} (h : type.Rewrites root type') :
      Rewrites (.component type) (.component type')
  | content {allowed allowed' restricted restricted' : Option (List Reference)}
      (hallowed : Option.Rel (List.Forall₂ (Reference.Rewrites root)) allowed allowed')
      (hrestricted : Option.Rel (List.Forall₂ (Reference.Rewrites root)) restricted restricted') :
      Rewrites (.content allowed restricted) (.content allowed' restricted')
  | array {kind kind' : PropertyKind} (h : Rewrites kind kind')
      (indexing indexing' : Option Indexing) :
      Rewrites (.array ⟨kind, indexing⟩) (.array ⟨kind', indexing'⟩)

/-- Rewritings of a declared type. Disabled properties come and go. Enabled ones are rewritten one
by one and stay enabled, however they are indexed. Behaviors stay none or some, with or without the
one of form elements. The display name and what the type may contain are free. -/
structure ContentType.Rewrites (t t' : ContentType) : Prop where
  key : t.key = t'.key
  baseType : t.baseType = t'.baseType
  properties : List.Forall₂
    (fun property property' =>
      property.1 = property'.1 ∧ property.2.kind.Rewrites root property'.2.kind)
    (Compile.enabled t.properties) (Compile.enabled t'.properties)
  isEmpty : t.behaviors.isEmpty = t'.behaviors.isEmpty
  formsElement :
    t.behaviors.contains .formsElementEnabled = t'.behaviors.contains .formsElementEnabled

/-- A registry with each type rewritten, any number of times and in either direction. -/
structure Registry.Rewritten (registry registry' : Registry) : Prop where
  types : List.Forall₂ (Relation.EqvGen (ContentType.Rewrites root)) registry.all registry'.all
  mediaKeys : registry.mediaKeys = registry'.mediaKeys

end

section

variable {root : String}

theorem resolveSelf_root (root : String) : resolveSelf root root = root := ite_self root

theorem resolveSelf_idem (root key : String) :
    resolveSelf root (resolveSelf root key) = resolveSelf root key := by
  by_cases hkey : key = selfKey
  · subst hkey
    exact resolveSelf_root root
  · have hresolve : resolveSelf root key = key := if_neg hkey
    rw [hresolve, hresolve]

theorem canonicalKeys_relevant (root : String) (references : Option (List Reference)) :
    canonicalKeys root (references.map (List.map (Reference.relevant root))) =
      canonicalKeys root references := by
  cases references with
  | none => rfl
  | some references =>
      rw [canonicalKeys, Option.map_some, Option.getD_some, List.map_map]
      exact List.map_congr_left fun reference _ => resolveSelf_idem root reference.typeKey

theorem isUnset_map (f : Reference → Reference) (references : Option (List Reference)) :
    FanOut.isUnset (references.map (List.map f)) = FanOut.isUnset references := by
  cases references <;> simp [FanOut.isUnset]

theorem isUnconstrained_relevant (root : String) (p : Property) :
    FanOut.isUnconstrained (.ofKind (p.kind.relevant root)) = FanOut.isUnconstrained p := by
  obtain ⟨kind, indexing⟩ := p
  cases kind with
  | content allowed restricted =>
      simp only [Property.ofKind, PropertyKind.relevant, FanOut.isUnconstrained, isUnset_map]
  | array item =>
      obtain ⟨kind, indexing⟩ := item
      cases kind with
      | content allowed restricted =>
          simp only [Property.ofKind, PropertyKind.relevant, FanOut.isUnconstrained, isUnset_map]
          cases restricted <;> simp
      | array item => rcases item with ⟨_, _⟩; rfl
      | _ => rfl
  | _ => rfl

theorem isFormElement_relevant (t : ContentType) :
    (t.relevant root).isFormElement = t.isFormElement := by
  unfold ContentType.isFormElement ContentType.relevant relevantBehaviors
  dsimp only
  split
  · rename_i hforms
    rw [hforms]
    rfl
  · rename_i hforms
    rw [Bool.eq_false_iff.mpr hforms]
    split <;> rfl

theorem isCompositionEligible_relevant (t : ContentType) :
    (t.relevant root).isCompositionEligible = t.isCompositionEligible := by
  unfold ContentType.isCompositionEligible ContentType.relevant relevantBehaviors
  dsimp only
  split
  · rename_i hforms
    cases hbehaviors : t.behaviors with
    | nil => simp [hbehaviors] at hforms
    | cons => rfl
  · split
    · rename_i hempty
      rw [hempty]
      rfl
    · rename_i hempty
      rw [Bool.eq_false_iff.mpr hempty]
      rfl

theorem Reference.Rewrites.relevant_eq {reference reference' : Reference}
    (h : reference.Rewrites root reference') :
    reference.relevant root = reference'.relevant root := by
  cases h with
  | refl => rfl
  | key => rfl
  | body h => rw [Reference.relevant, Reference.relevant, typeKey, typeKey, h]
  | self =>
      rw [Reference.relevant, Reference.relevant, typeKey, typeKey, resolveSelf_root]
      rfl

theorem map_eq_of_forall₂ {α β : Type} {rel : α → α → Prop} {f : α → β}
    (hrel : ∀ x y, rel x y → f x = f y) {xs ys : List α} (h : List.Forall₂ rel xs ys) :
    xs.map f = ys.map f := by
  have hmap : List.Forall₂ Eq (xs.map f) (ys.map f) := by
    rw [List.forall₂_map_left_iff, List.forall₂_map_right_iff]
    exact h.imp hrel
  rwa [List.forall₂_eq_eq_eq] at hmap

theorem relevantReferences_eq {references references' : Option (List Reference)}
    (h : Option.Rel (List.Forall₂ (Reference.Rewrites root)) references references') :
    references.map (List.map (Reference.relevant root)) =
      references'.map (List.map (Reference.relevant root)) := by
  cases h with
  | none => rfl
  | some h => exact congrArg some (map_eq_of_forall₂ (fun _ _ hrefs => hrefs.relevant_eq) h)

theorem PropertyKind.Rewrites.relevant_eq {kind kind' : PropertyKind}
    (h : kind.Rewrites root kind') : kind.relevant root = kind'.relevant root := by
  induction h with
  | refl => rfl
  | component h => rw [PropertyKind.relevant, PropertyKind.relevant, h.relevant_eq]
  | content hallowed hrestricted =>
      rw [PropertyKind.relevant, PropertyKind.relevant, relevantReferences_eq hallowed,
        relevantReferences_eq hrestricted]
  | array h indexing indexing' ih => rw [PropertyKind.relevant, PropertyKind.relevant, ih]

theorem ContentType.Rewrites.relevant_eq {t t' : ContentType} (h : t.Rewrites root t') :
    t.relevant root = t'.relevant root := by
  have hproperties : (Compile.enabled t.properties).map (relevantProperty root) =
      (Compile.enabled t'.properties).map (relevantProperty root) := by
    refine map_eq_of_forall₂ (fun property property' hproperty => ?_) h.properties
    rw [relevantProperty, relevantProperty, hproperty.1, hproperty.2.relevant_eq]
  have hbehaviors : relevantBehaviors t.behaviors = relevantBehaviors t'.behaviors := by
    rw [relevantBehaviors, relevantBehaviors, h.formsElement, h.isEmpty]
  rw [ContentType.relevant, ContentType.relevant, h.key, h.baseType, hproperties, hbehaviors]

theorem relevant_eq_of_eqvGen {t t' : ContentType}
    (h : Relation.EqvGen (ContentType.Rewrites root) t t') :
    t.relevant root = t'.relevant root := by
  induction h with
  | rel _ _ h => exact h.relevant_eq
  | refl => rfl
  | symm _ _ _ ih => exact ih.symm
  | trans _ _ _ _ _ ih ih' => exact ih.trans ih'

end

namespace Compile

/-- The context in which only the relevant parts of the types are declared. -/
def Context.relevant (ctx : Context) : Context :=
  { ctx with
    snapshot := ⟨ctx.snapshot.types.map (ContentType.relevant ctx.root), ctx.snapshot.mediaKeys⟩ }

@[simp]
theorem Context.root_relevant (ctx : Context) : ctx.relevant.root = ctx.root := rfl

@[simp]
theorem Context.settings_relevant (ctx : Context) : ctx.relevant.settings = ctx.settings := rfl

section

variable (ctx : Context)

theorem sameIndex_relevant : SameIndex ctx ctx.relevant := by
  refine ⟨rfl, ?_, fun _ => Iff.rfl⟩
  rw [index, index, Context.relevant, List.map_map]
  rfl

theorem get?_relevant (key : String) :
    ctx.relevant.snapshot.get? key =
      (ctx.snapshot.get? key).map (ContentType.relevant ctx.root) := by
  rw [Snapshot.get?, Context.relevant, Keyed.find?, List.find?_map]
  rfl

theorem contentTargets_relevant (allowed restricted : Option (List Reference)) :
    contentTargets ctx (allowed.map (List.map (Reference.relevant ctx.root)))
        (restricted.map (List.map (Reference.relevant ctx.root))) =
      contentTargets ctx allowed restricted := by
  rw [contentTargets, contentTargets, canonicalKeys_relevant, canonicalKeys_relevant]

theorem field_relevant (name : String) : ∀ kind : PropertyKind,
    field ctx name (kind.relevant ctx.root) = field ctx name kind
  | .component type => by
      rw [PropertyKind.relevant, field, field, Reference.relevant, Reference.typeKey,
        resolveSelf_idem]
  | .content allowed restricted => by
      rw [PropertyKind.relevant, field, field, contentTargets_relevant]
  | .array ⟨kind, _⟩ => field_relevant name kind
  | .string | .boolean | .integer | .float | .binary | .json | .dateTime | .richText | .url
  | .link | .contentReference => rfl

theorem kindTargets_relevant : ∀ kind : PropertyKind,
    kindTargets ctx (kind.relevant ctx.root) = kindTargets ctx kind
  | .component type => by
      rw [PropertyKind.relevant, kindTargets, kindTargets, Reference.relevant, Reference.typeKey,
        resolveSelf_idem]
  | .content allowed restricted => by
      rw [PropertyKind.relevant, kindTargets, kindTargets, contentTargets_relevant]
  | .array ⟨kind, _⟩ => kindTargets_relevant kind
  | .string | .boolean | .integer | .float | .binary | .json | .dateTime | .richText | .url
  | .link | .contentReference => rfl

theorem eligibleKeys_relevant : eligibleKeys ctx = eligibleKeys ctx.relevant := by
  rw [eligibleKeys, eligibleKeys, Context.relevant, List.filter_map, List.map_map]
  simp only [Function.comp_def, isCompositionEligible_relevant, isFormElement_relevant]
  rfl

end

/-- States that differ at most in their events. -/
structure SameButEvents (state state' : State) : Prop where
  visited : state.visited = state'.visited
  diagnostics : state.diagnostics = state'.diagnostics

theorem steady_sameButEvents : Steady SameButEvents where
  visited := fun h => h.visited
  mark := fun name h => ⟨congrArg (name :: ·) h.visited, h.diagnostics⟩
  record := fun _ h => ⟨h.visited, h.diagnostics⟩

theorem Lockstep.record_left {α : Type} {step step' : Walk α}
    (h : Lockstep SameButEvents step step') (event : Event) :
    Lockstep SameButEvents (record event >>= fun _ => step) step' := by
  intro state state' hstate
  exact h ⟨hstate.visited, hstate.diagnostics⟩

theorem checkFanOut_relevant (ctx : Context) (name : String) (p : Property) (count : Nat) :
    Lockstep SameButEvents (checkFanOut ctx name p count)
      (checkFanOut ctx.relevant name (.ofKind (p.kind.relevant ctx.root)) count) := by
  intro state state' h
  rw [run_checkFanOut, run_checkFanOut, isUnconstrained_relevant, Context.settings_relevant,
    Context.root_relevant]
  refine Or.inr ⟨rfl, ?_⟩
  by_cases hwarn : (ctx.settings.threshold < count && FanOut.isUnconstrained p) = true
  · rw [if_pos hwarn, if_pos hwarn]
    exact ⟨h.visited, congrArg (Diagnostics.report · _) h.diagnostics⟩
  · rw [if_neg hwarn, if_neg hwarn]
    exact h

section

variable {ctx : Context} {visit visit' : Visit}
  (hvisit : ∀ key suffixed,
    Lockstep SameButEvents (visit key (suffix suffixed)) (visit' key (suffix suffixed)))
include hvisit

/-- Disabled properties are passed over, and the others expand like their relevant parts. -/
theorem expandProperties_relevant (t : ContentType) (properties : List (String × Property)) :
    Lockstep SameButEvents (expandProperties ctx visit t properties)
      (expandProperties ctx.relevant visit' (t.relevant ctx.root)
        ((enabled properties).map (relevantProperty ctx.root))) := by
  have hrel := steady_sameButEvents.compatible
  induction properties with
  | nil => exact hrel.pure _
  | cons property rest ih =>
      obtain ⟨name, p⟩ := property
      by_cases hdisabled : p.isDisabled = true
      · have henabled : enabled ((name, p) :: rest) = enabled rest := by simp [enabled, hdisabled]
        rw [henabled, expandProperties, if_pos hdisabled]
        exact ih.record_left _
      · have henabled : enabled ((name, p) :: rest) = (name, p) :: enabled rest := by
          simp [enabled, hdisabled]
        have hfield : field ctx name p.kind =
            field ctx.relevant name (p.kind.relevant ctx.root) := by
          rw [← (sameIndex_relevant ctx).field, field_relevant]
        have htargets : kindTargets ctx p.kind =
            kindTargets ctx.relevant (p.kind.relevant ctx.root) := by
          rw [← (sameIndex_relevant ctx).kindTargets, kindTargets_relevant]
        rw [henabled, expandProperties, if_neg hdisabled]
        refine hrel.bind (hrel.expand hvisit hfield htargets) fun expansion => ?_
        refine hrel.bind (checkFanOut_relevant ctx name p _) fun _ => ?_
        exact hrel.map _ ih

theorem visitWith_relevant (key suffix : String) :
    Lockstep SameButEvents (visitWith ctx visit key suffix)
      (visitWith ctx.relevant visit' key suffix) := by
  have hrel := steady_sameButEvents.compatible
  refine hrel.visitWith (fun other => ?_) key suffix
  rw [get?_relevant]
  cases ctx.snapshot.get? other with
  | none => exact .none
  | some t =>
      refine .some fun name => ?_
      apply hrel.visitDeclared
      · rfl
      · rfl
      · exact expandProperties_relevant hvisit t t.properties
      · exact hrel.visitComposition hvisit (eligibleKeys_relevant ctx) rfl

end

theorem visitWithin_relevant (ctx : Context) (depth : Nat) (key : String) (suffixed : Bool) :
    Lockstep SameButEvents (visitWithin ctx depth key (suffix suffixed))
      (visitWithin ctx.relevant depth key (suffix suffixed)) := by
  induction depth generalizing key suffixed with
  | zero => exact .throw _
  | succ depth ih => exact visitWith_relevant ih key (suffix suffixed)

/-- What a compilation gives when its walk comes to the end. -/
def resultOf : Except CompileError (List Fragment) × State → Except CompileError Compilation
  | (.error error, _) => .error error
  | (.ok fragments, state) => .ok ⟨fragments, state.diagnostics⟩

theorem resultOf_congr {out out' : Except CompileError (List Fragment) × State}
    (hvalue : out.1 = out'.1) (hstate : SameButEvents out.2 out'.2) :
    resultOf out = resultOf out' := by
  obtain ⟨value, state⟩ := out
  obtain ⟨value', state'⟩ := out'
  obtain rfl : value = value' := hvalue
  have hdiagnostics : state.diagnostics = state'.diagnostics := hstate.diagnostics
  cases value with
  | error error => rfl
  | ok fragments => rw [resultOf, resultOf, hdiagnostics]

theorem compile_value_relevant (registry : Registry) (settings : Settings) (root : String) :
    (compile registry settings root).value =
      resultOf ((visitWithin (contextOf registry settings root).relevant
        (maxDepth (Snapshot.capture registry)) root "").run (startOf registry root)) := by
  have hvalue : (compile registry settings root).value =
      resultOf (walkOf registry settings root) := by
    rw [compile_eq]
    rcases walkOf registry settings root with ⟨error | fragments, state⟩ <;> rfl
  have hstart : SameButEvents (startOf registry root) (startOf registry root) := ⟨rfl, rfl⟩
  rw [hvalue]
  rcases visitWithin_relevant (contextOf registry settings root)
    (maxDepth (Snapshot.capture registry)) root false hstart with hunfinished | ⟨hsame, hstate⟩
  · exact absurd hunfinished (visitWithin_ne_unfinished _ le_rfl root false _)
  · exact resultOf_congr hsame hstate

theorem types_relevant_eq {registry registry' : Registry} {root : String}
    (h : Registry.Rewritten root registry registry') :
    (Snapshot.capture registry).types.map (ContentType.relevant root) =
      (Snapshot.capture registry').types.map (ContentType.relevant root) := by
  have hall : registry.all.map (ContentType.relevant root) =
      registry'.all.map (ContentType.relevant root) :=
    map_eq_of_forall₂ (fun _ _ hrewritten => relevant_eq_of_eqvGen hrewritten) h.types
  have hkey : ContentType.key ∘ ContentType.relevant root = ContentType.key := rfl
  have hlasts := Keyed.lasts_map ContentType.key (ContentType.relevant root)
  rw [hkey] at hlasts
  exact (hlasts registry.all).symm.trans ((congrArg _ hall).trans (hlasts registry'.all))

/-- Only what is declared as relevant is read. Disabled properties, the bodies of inline
declarations, display names, what a type may contain, how enabled properties and the items of arrays
are indexed, and behaviors beyond those that are asked for make no difference to a compilation, and
the root stands for the self key. -/
theorem compile_rewritten {registry registry' : Registry} {root : String}
    (h : Registry.Rewritten root registry registry') (settings : Settings) :
    (compile registry settings root).value = (compile registry' settings root).value := by
  have htypes := types_relevant_eq h
  have hlength : (Snapshot.capture registry).types.length =
      (Snapshot.capture registry').types.length := by
    simpa using congrArg List.length htypes
  have hmedia : (Snapshot.capture registry).mediaKeys = (Snapshot.capture registry').mediaKeys :=
    congrArg (Keyed.firsts id) h.mediaKeys
  have hcontext : (contextOf registry settings root).relevant =
      (contextOf registry' settings root).relevant := by
    rw [Context.relevant, Context.relevant, htypes, hmedia]
  rw [compile_value_relevant, compile_value_relevant, hcontext, maxDepth, maxDepth, startOf,
    startOf, hlength]

/-- A story that tells its relations to other stories, and its drafts, in full. -/
def verboseStory : ContentType where
  key := "Story"
  baseType := .experience
  displayName := some "A story"
  properties := [
    ("draft", ⟨.content none none, some .disabled⟩),
    ("author", ⟨.component (.inline (.ofKey "Person" .component)), some .searchable⟩),
    ("related",
      ⟨.array ⟨.content (some [.key selfKey, .key "Person"]) none, some .disabled⟩, none⟩)]
  behaviors := [.sectionEnabled, .elementEnabled]
  mayContain := [.key selfKey]

/-- The same story, as far as it is compiled. -/
def terseStory : ContentType where
  key := "Story"
  baseType := .experience
  displayName := none
  properties := [
    ("author", ⟨.component (.key "Person"), none⟩),
    ("related", ⟨.array ⟨.content (some [.key "Story", .key "Person"]) none, none⟩, none⟩)]
  behaviors := [.sectionEnabled]
  mayContain := []

def storyRegistry (story : ContentType) : Registry :=
  (ContentTypes.ofList [story, .ofKey "Person" .component]).registry

theorem compile_rewritten_story :
    (compile (storyRegistry verboseStory) .initial "Story").value =
        (compile (storyRegistry terseStory) .initial "Story").value ∧
      ((compile (storyRegistry terseStory) .initial "Story").value.toOption.map fun c =>
        c.fragments.map Fragment.name) = some ["PersonProperty", "Person", compositionComponentName,
          compositionNodeName, experienceDataName, "Story"] := by
  have hallowed : List.Forall₂ (Reference.Rewrites "Story") [.key selfKey, .key "Person"]
      [.key "Story", .key "Person"] := .cons .self (.cons (.refl _) .nil)
  have hrewrites : verboseStory.Rewrites "Story" terseStory := by
    refine ⟨rfl, rfl, .cons ⟨rfl, ?_⟩ (.cons ⟨rfl, ?_⟩ .nil), rfl, rfl⟩
    · exact .component (.key _)
    · exact .array (.content (.some hallowed) .none) _ _
  have hregistry : Registry.Rewritten "Story" (storyRegistry verboseStory)
      (storyRegistry terseStory) :=
    ⟨.cons (.rel _ _ hrewrites) (.cons (.refl _) .nil), rfl⟩
  exact ⟨compile_rewritten hregistry .initial, rfl⟩

end Compile

end ContentQuery
