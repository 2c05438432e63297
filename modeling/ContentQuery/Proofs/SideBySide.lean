import ContentQuery.Proofs.Contents

/-!
Two compilations side by side. A relation between steps that is kept from one step to the next, and
holds where both compilations do the same, holds between all their visits, as far as the
compilations read the same of their types. What the compilations read of a property is the field
that it has and the nodes that the field spreads, `expand_eq`.
-/

namespace ContentQuery.Compile

/-- A relation between the steps of two walks that relates a step to itself, and one step after
another to steps related to them. -/
structure Compatible (rel : ∀ {α : Type}, Walk α → Walk α → Prop) : Prop where
  pure : ∀ {α : Type} (a : α), rel (Pure.pure a) (Pure.pure a)
  throw : ∀ error : CompileError,
    rel (α := List Fragment) (MonadExcept.throw error) (MonadExcept.throw error)
  bind : ∀ {α β : Type} {step step' : Walk α} {next next' : α → Walk β}, rel step step' →
    (∀ a, rel (next a) (next' a)) → rel (step >>= next) (step' >>= next')
  isVisited : ∀ name, rel (isVisited name) (isVisited name)
  mark : ∀ name, rel (mark name) (mark name)
  record : ∀ {event : Event}, event.level = .trace → rel (record event) (record event)

/-- Visits of the nodes of types, one after another. -/
def visitNodes (visit : Visit) : List Node → Walk (List Fragment)
  | [] => return []
  | .type key suffixed :: nodes => do
      let fragments ← visit key (suffix suffixed)
      let more ← visitNodes visit nodes
      return fragments ++ more
  | _ :: nodes => visitNodes visit nodes

theorem visitAll_eq (visit : Visit) (keys : List String) :
    visitAll visit keys = visitNodes visit (keys.map (.type · false)) := by
  induction keys with
  | nil => rfl
  | cons key keys ih => rw [visitAll, List.map_cons, visitNodes, ih, suffix_false]

theorem expand_eq (ctx : Context) (visit : Visit) (name : String) : ∀ kind : PropertyKind,
    expand ctx visit name kind = do
      let fragments ← visitNodes visit (kindTargets ctx kind)
      return ⟨field ctx name kind, fragments⟩
  | .component _ => by simp [expand, kindTargets, visitNodes, field]
  | .content _ _ => by rw [expand, visitAll_eq, kindTargets, field]
  | .array ⟨kind, _⟩ => by rw [expand, kindTargets, field, expand_eq ctx visit name kind]
  | .string | .boolean | .integer | .float | .binary | .json | .dateTime | .richText | .url
  | .link | .contentReference => by simp [expand, kindTargets, visitNodes, field]

namespace Compatible

variable {rel : ∀ {α : Type}, Walk α → Walk α → Prop} (hrel : Compatible rel) {α β : Type}
include hrel

theorem map {step step' : Walk α} (f : α → β) (h : rel step step') :
    rel (step >>= fun a => Pure.pure (f a)) (step' >>= fun a => Pure.pure (f a)) :=
  hrel.bind h fun a => hrel.pure (f a)

omit hrel in
theorem ite (_ : Compatible rel) {c : Prop} [Decidable c]
    {first second first' second' : Walk α}
    (hfirst : c → rel first first') (hsecond : ¬ c → rel second second') :
    rel (if c then first else second) (if c then first' else second') := by
  by_cases hc : c
  · rw [if_pos hc, if_pos hc]
    exact hfirst hc
  · rw [if_neg hc, if_neg hc]
    exact hsecond hc

theorem bindIte {c : Prop} [Decidable c] {first second first' second' : Walk α}
    {next next' : α → Walk β}
    (hstep : rel (if c then first else second) (if c then first' else second'))
    (hnext : ∀ a, rel (next a) (next' a)) :
    rel (if c then first >>= next else second >>= next)
      (if c then first' >>= next' else second' >>= next') := by
  have h := hrel.bind hstep hnext
  by_cases hc : c
  · rw [if_pos hc, if_pos hc] at h ⊢
    exact h
  · rw [if_neg hc, if_neg hc] at h ⊢
    exact h

theorem visitMetadata : rel visitMetadata visitMetadata := by
  refine hrel.bind (hrel.isVisited _) fun seen => hrel.ite (fun _ => hrel.pure _) fun _ => ?_
  exact hrel.bind (hrel.mark _) fun _ => hrel.pure _

theorem visitBase (base : BaseType) (name : String) :
    rel (visitBase base name) (visitBase base name) :=
  hrel.ite (fun _ => hrel.map _ hrel.visitMetadata) fun _ => hrel.pure _

section

variable {ctx ctx' : Context} {visit visit' : Visit}
  (hvisit : ∀ key suffixed, rel (visit key (suffix suffixed)) (visit' key (suffix suffixed)))

include hvisit in
theorem visitNodes (nodes : List Node) :
    rel (visitNodes visit nodes) (visitNodes visit' nodes) := by
  induction nodes with
  | nil => exact hrel.pure _
  | cons v nodes ih =>
      cases v with
      | type key suffixed =>
          exact hrel.bind (hvisit key suffixed) fun fragments => hrel.map (fragments ++ ·) ih
      | mediaMetadata | experienceData | compositionNode | compositionComponent => exact ih

include hvisit in
theorem expand {name : String} {kind kind' : PropertyKind}
    (hfield : field ctx name kind = field ctx' name kind')
    (htargets : kindTargets ctx kind = kindTargets ctx' kind') :
    rel (expand ctx visit name kind) (expand ctx' visit' name kind') := by
  rw [expand_eq, expand_eq, hfield, htargets]
  exact hrel.map _ (hrel.visitNodes hvisit _)

include hvisit in
theorem visitComposition (heligible : eligibleKeys ctx = eligibleKeys ctx')
    (hforms : ctx.settings.formElements = ctx'.settings.formElements) :
    rel (visitComposition ctx visit) (visitComposition ctx' visit') := by
  unfold Compile.visitComposition
  refine hrel.bind (hrel.isVisited _) fun seen => hrel.ite (fun _ => hrel.pure _) fun _ => ?_
  refine hrel.bind (hrel.mark _) fun _ => ?_
  refine hrel.bind (hrel.mark _) fun _ => ?_
  refine hrel.bind (hrel.mark _) fun _ => ?_
  rw [compositionComponent, compositionComponent, heligible, hforms]
  refine hrel.bind (hrel.record rfl) fun _ => ?_
  rw [visitAll_eq, visitAll_eq]
  exact hrel.map _ (hrel.visitNodes hvisit _)

theorem visitDeclared {t t' : ContentType} (hkey : t.key = t'.key)
    (hbase : t.baseType = t'.baseType)
    (hproperties : rel (expandProperties ctx visit t t.properties)
      (expandProperties ctx' visit' t' t'.properties))
    (hcomposition : rel (Compile.visitComposition ctx visit) (Compile.visitComposition ctx' visit'))
    (name : String) :
    rel (visitDeclared ctx visit t name) (visitDeclared ctx' visit' t' name) := by
  unfold Compile.visitDeclared
  rw [← hkey, ← hbase]
  refine hrel.bindIte (hrel.ite (fun _ => hrel.visitMetadata) fun _ => hrel.pure _)
    fun metadata => ?_
  refine hrel.bind hproperties fun expanded => ?_
  refine hrel.bindIte (hrel.ite (fun _ => hcomposition) fun _ => hrel.pure _) fun composition => ?_
  exact hrel.bind (hrel.record rfl) fun _ => hrel.pure _

theorem visitWith
    (hdeclared : ∀ key, Option.Rel
      (fun t t' => ∀ name, rel (Compile.visitDeclared ctx visit t name)
        (Compile.visitDeclared ctx' visit' t' name))
      (ctx.snapshot.get? key) (ctx'.snapshot.get? key))
    (key suffix : String) :
    rel (visitWith ctx visit key suffix) (visitWith ctx' visit' key suffix) := by
  unfold Compile.visitWith
  refine hrel.bind (hrel.isVisited _) fun seen => hrel.ite (fun _ => hrel.pure _) fun _ => ?_
  refine hrel.bind (hrel.mark _) fun _ => ?_
  cases builtin? key with
  | some base => exact hrel.visitBase base _
  | none =>
      have hget := hdeclared key
      cases hfound : ctx.snapshot.get? key <;> cases hfound' : ctx'.snapshot.get? key <;>
        rw [hfound, hfound'] at hget <;> cases hget
      · exact hrel.throw _
      · rename_i h
        exact h _

section

variable (hview : SameView ctx ctx')
  (hcheck : ∀ name p count, rel (checkFanOut ctx name p count) (checkFanOut ctx' name p count))
include hview hcheck hvisit

theorem expandProperties (t : ContentType) (properties : List (String × Property)) :
    rel (expandProperties ctx visit t properties) (expandProperties ctx' visit' t properties) := by
  induction properties with
  | nil => exact hrel.pure _
  | cons property rest ih =>
      obtain ⟨name, p⟩ := property
      unfold Compile.expandProperties
      refine hrel.ite (fun _ => ?_) fun _ => ?_
      · exact hrel.bind (hrel.record rfl) fun _ => ih
      · have hexpand := hrel.expand hvisit (hview.sameIndex.field name p.kind)
          (hview.sameIndex.kindTargets p.kind)
        refine hrel.bind hexpand fun expansion => ?_
        refine hrel.bind (hcheck name p _) fun _ => ?_
        exact hrel.map _ ih

/-- Contexts with the same view visit alike, if they make compositions alike. -/
theorem visitWith_of_sameView
    (hcomposition : rel (Compile.visitComposition ctx visit) (Compile.visitComposition ctx' visit'))
    (key suffix : String) :
    rel (Compile.visitWith ctx visit key suffix) (Compile.visitWith ctx' visit' key suffix) := by
  refine hrel.visitWith (fun other => ?_) key suffix
  rw [hview.get? other]
  cases ctx'.snapshot.get? other with
  | none => exact .none
  | some t =>
      exact .some fun name => hrel.visitDeclared rfl rfl
        (hrel.expandProperties hvisit hview hcheck t t.properties) hcomposition name

end

end

end Compatible

end ContentQuery.Compile
