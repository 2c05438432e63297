import ContentQuery.Proofs.Candidates
import ContentQuery.Proofs.Uniqueness

namespace ContentQuery.Compile

variable {ctx ctx' : Context}

theorem spread_injective : Function.Injective spread :=
  fun _ _ h => (String.append_right_inj "...").mp h

theorem spreads_of_nodup {names : List String} (h : names.Nodup) :
    spreads names = names.map spread :=
  Keyed.firsts_of_nodup id (by simpa using h.map spread_injective)

theorem nodup_eligibleKeys (h : (ctx.snapshot.types.map ContentType.key).Nodup) :
    (eligibleKeys ctx).Nodup :=
  h.sublist (List.filter_sublist.map ContentType.key)

theorem compositionComponent_eq (h : (ctx.snapshot.types.map ContentType.key).Nodup) :
    compositionComponent ctx = ⟨compositionComponentName, BaseType.component.graphType,
      typedBody ((eligibleKeys ctx).map spread)⟩ := by
  rw [compositionComponent, spreads_of_nodup (nodup_eligibleKeys h)]

/-- The keys of a snapshot with their base types. -/
def index (snapshot : Snapshot) : List (String × BaseType) :=
  snapshot.types.map fun t => (t.key, t.baseType)

theorem map_fst_index (snapshot : Snapshot) :
    (index snapshot).map Prod.fst = snapshot.types.map ContentType.key := by
  rw [index, List.map_map]
  rfl

theorem keysOf_eq_index (snapshot : Snapshot) (base : BaseType) :
    Candidates.keysOf snapshot.registry base =
      ((index snapshot).filter fun entry => entry.2 = base).map Prod.fst := by
  rw [index, List.filter_map, List.map_map]
  rfl

theorem mediaBase?_eq_index (snapshot : Snapshot) (key : String) :
    snapshot.mediaBase? key =
      if key ∈ snapshot.mediaKeys then (Keyed.find? Prod.fst key (index snapshot)).map Prod.snd
      else none := by
  rw [Snapshot.mediaBase?, index, Keyed.find?, List.find?_map, Option.map_map]
  rfl

/-- The contexts list the same keys with the same base types, and the same keys as media. -/
structure SameIndex (ctx ctx' : Context) : Prop where
  root : ctx.root = ctx'.root
  index : index ctx.snapshot = index ctx'.snapshot
  mediaKeys : ∀ key, key ∈ ctx.snapshot.mediaKeys ↔ key ∈ ctx'.snapshot.mediaKeys

namespace SameIndex

variable {ctx ctx' : Context} (h : SameIndex ctx ctx')
include h

theorem mediaBase? (key : String) :
    ctx.snapshot.mediaBase? key = ctx'.snapshot.mediaBase? key := by
  rw [mediaBase?_eq_index, mediaBase?_eq_index, h.index]
  exact if_congr (h.mediaKeys key) rfl rfl

theorem resolve :
    Candidates.resolve ctx.snapshot.registry = Candidates.resolve ctx'.snapshot.registry := by
  apply Candidates.resolve_congr
  · exact (map_fst_index _).symm.trans ((congrArg _ h.index).trans (map_fst_index _))
  · intro base
    rw [keysOf_eq_index, keysOf_eq_index, h.index]

theorem contentTargets (allowed restricted : Option (List Reference)) :
    contentTargets ctx allowed restricted = Compile.contentTargets ctx' allowed restricted := by
  unfold Compile.contentTargets
  rw [h.root, h.resolve]
  simp only [h.mediaBase?]

theorem field (name : String) : ∀ kind : PropertyKind,
    field ctx name kind = Compile.field ctx' name kind
  | .component _ => by rw [Compile.field, Compile.field, h.root]
  | .content allowed restricted => by
      rw [Compile.field, Compile.field, h.contentTargets allowed restricted]
  | .array ⟨kind, _⟩ => field name kind
  | .string | .boolean | .integer | .float | .binary | .json | .dateTime | .richText | .url
  | .link | .contentReference => rfl

theorem kindTargets : ∀ kind : PropertyKind,
    kindTargets ctx kind = Compile.kindTargets ctx' kind
  | .component _ => by rw [Compile.kindTargets, Compile.kindTargets, h.root]
  | .content allowed restricted => by
      rw [Compile.kindTargets, Compile.kindTargets, h.contentTargets allowed restricted]
  | .array ⟨kind, _⟩ => kindTargets kind
  | .string | .boolean | .integer | .float | .binary | .json | .dateTime | .richText | .url
  | .link | .contentReference => rfl

theorem declaredBody (t : ContentType) : declaredBody ctx t = Compile.declaredBody ctx' t := by
  have hfields : fields ctx t t.properties = fields ctx' t t.properties :=
    List.map_congr_left fun property _ => by rw [h.field property.1 property.2.kind]
  rw [Compile.declaredBody, Compile.declaredBody, hfields]

end SameIndex

/-- The contexts show the same declarations, and the same keys as media. -/
structure SameView (ctx ctx' : Context) : Prop where
  root : ctx.root = ctx'.root
  types : ctx.snapshot.types = ctx'.snapshot.types
  mediaKeys : ∀ key, key ∈ ctx.snapshot.mediaKeys ↔ key ∈ ctx'.snapshot.mediaKeys

namespace SameView

variable {ctx ctx' : Context} (h : SameView ctx ctx')
include h

theorem sameIndex : SameIndex ctx ctx' :=
  ⟨h.root, by rw [index, index, h.types], h.mediaKeys⟩

theorem get? (key : String) : ctx.snapshot.get? key = ctx'.snapshot.get? key := by
  rw [Snapshot.get?, Snapshot.get?, h.types]

theorem eligibleKeys (hforms : ctx.settings.formElements = ctx'.settings.formElements) :
    eligibleKeys ctx = Compile.eligibleKeys ctx' := by
  rw [Compile.eligibleKeys, Compile.eligibleKeys, h.types, hforms]

end SameView

end ContentQuery.Compile
