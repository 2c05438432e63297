import ContentQuery.Proofs.RegistrationOrder
import ContentQuery.Proofs.Threshold

namespace ContentQuery

/-- The declaration that comes last under a key. -/
def lastDeclared? (declarations : List ContentType) (key : String) : Option ContentType :=
  Keyed.find? ContentType.key key declarations.reverse

/-- Whatever is declared as media under a key, its last declaration is media too. -/
def MediaKept (declarations : List ContentType) : Prop :=
  ∀ t ∈ declarations, t.baseType.isMedia = true →
    ∃ last, lastDeclared? declarations t.key = some last ∧ last.baseType.isMedia = true

theorem Snapshot.capture_registry (registry : Registry) :
    capture (capture registry).registry = capture registry := by
  have htypes := Keyed.lasts_of_nodup ContentType.key (Keyed.nodup_map_lasts _ registry.all)
  have hmedia := Keyed.firsts_of_nodup id (Keyed.nodup_map_firsts id registry.mediaKeys)
  simp only [capture, Snapshot.registry, htypes, hmedia]

theorem ContentTypes.capture_types (declarations : List ContentType) :
    (Snapshot.capture (ofList declarations).registry).types =
      Keyed.lasts ContentType.key declarations := by
  have htypes : (Snapshot.capture (ofList declarations).registry).types =
      Keyed.lasts ContentType.key (ofList declarations).toList := rfl
  rw [htypes, toList_ofList, Keyed.lasts_of_nodup _ (Keyed.nodup_map_lasts _ declarations)]

theorem MediaKept.mem_mediaKeys_iff {declarations : List ContentType} (h : MediaKept declarations)
    (find? : String → Option ContentType) (key : String) :
    key ∈ Registry.mediaKeys { all := declarations, find? := find? } ↔
      key ∈ (ContentTypes.ofList declarations).registry.mediaKeys := by
  have hregistered : (ContentTypes.ofList declarations).registry.mediaKeys =
      ((Keyed.lasts ContentType.key declarations).filter fun t => t.baseType.isMedia).map
        ContentType.key := by
    rw [← ContentTypes.toList_ofList]
    rfl
  rw [hregistered]
  constructor
  · intro hkey
    obtain ⟨t, ht, rfl⟩ := List.mem_map.mp hkey
    obtain ⟨hdeclared, hmedia⟩ := List.mem_filter.mp ht
    obtain ⟨last, hlast, hlastMedia⟩ := h t hdeclared hmedia
    rw [lastDeclared?, ← Keyed.find?_lasts] at hlast
    obtain ⟨hmem, hlastKey⟩ := Keyed.mem_of_find? _ hlast
    exact List.mem_map.mpr ⟨last, List.mem_filter.mpr ⟨hmem, hlastMedia⟩, hlastKey⟩
  · intro hkey
    obtain ⟨t, ht, rfl⟩ := List.mem_map.mp hkey
    obtain ⟨hmem, hmedia⟩ := List.mem_filter.mp ht
    exact List.mem_map_of_mem (List.mem_filter.mpr ⟨Keyed.mem_of_mem_lasts _ hmem, hmedia⟩)

namespace Compile

theorem compatible_eq : Compatible (fun step step' => step = step') where
  pure _ := rfl
  throw _ := rfl
  bind := by
    rintro α β step _ next next' rfl hnext
    rw [funext hnext]
  isVisited _ := rfl
  mark _ := rfl
  record _ := rfl

theorem visitWithin_congr {ctx ctx' : Context} (hview : SameView ctx ctx')
    (hsettings : ctx.settings = ctx'.settings) (depth : Nat) (key : String) (suffixed : Bool) :
    visitWithin ctx depth key (suffix suffixed) = visitWithin ctx' depth key (suffix suffixed) := by
  have hforms := congrArg Settings.formElements hsettings
  induction depth generalizing key suffixed with
  | zero => rfl
  | succ depth ih =>
      refine compatible_eq.visitWith_of_sameView ih hview ?_ ?_ key (suffix suffixed)
      · intro name p count
        rw [checkFanOut, checkFanOut, hview.root, hsettings]
      · exact compatible_eq.visitComposition ih (hview.eligibleKeys hforms) hforms

theorem walkOf_congr {registry registry' : Registry}
    (htypes : (Snapshot.capture registry).types = (Snapshot.capture registry').types)
    (hmedia : ∀ key, key ∈ registry.mediaKeys ↔ key ∈ registry'.mediaKeys)
    (settings : Settings) (root : String) :
    walkOf registry settings root = walkOf registry' settings root := by
  have hview : SameView (contextOf registry settings root) (contextOf registry' settings root) := by
    refine ⟨rfl, htypes, fun key => ?_⟩
    calc key ∈ Keyed.firsts id registry.mediaKeys ↔ key ∈ registry.mediaKeys := Keyed.mem_firsts_id
      _ ↔ key ∈ registry'.mediaKeys := hmedia key
      _ ↔ key ∈ Keyed.firsts id registry'.mediaKeys := Keyed.mem_firsts_id.symm
  have hvisit := visitWithin_congr hview rfl (maxDepth (Snapshot.capture registry)) root false
  rw [suffix_false] at hvisit
  rw [walkOf, walkOf, hvisit, maxDepth, maxDepth, startOf, startOf, htypes]

end Compile

/-- A compilation sees the types that are captured, and which keys are media. -/
theorem compile_congr {registry registry' : Registry}
    (htypes : (Snapshot.capture registry).types = (Snapshot.capture registry').types)
    (hmedia : ∀ key, key ∈ registry.mediaKeys ↔ key ∈ registry'.mediaKeys)
    (settings : Settings) (root : String) :
    compile registry settings root = compile registry' settings root := by
  rw [Compile.compile_eq, Compile.compile_eq, Compile.walkOf_congr htypes hmedia]

/-- A compilation sees exactly the captured snapshot. The snapshot of a snapshot is the snapshot,
and to compile against it is to compile against the registry. A registry that lists declarations,
with some keys again and again, compiles like the one in which they are registered one after
another, unless a key that was declared as media has a last declaration that is not. -/
theorem compile_sees_capture (settings : Settings) (root : String) :
    (∀ registry : Registry,
        Snapshot.capture (Snapshot.capture registry).registry = Snapshot.capture registry ∧
          compile (Snapshot.capture registry).registry settings root =
            compile registry settings root) ∧
      ∀ (declarations : List ContentType) (find? : String → Option ContentType),
        MediaKept declarations →
          compile { all := declarations, find? := find? } settings root =
            compile (ContentTypes.ofList declarations).registry settings root := by
  constructor
  · intro registry
    have hcapture := Snapshot.capture_registry registry
    have htypes := congrArg Snapshot.types hcapture
    exact ⟨hcapture, compile_congr htypes (fun _ => Keyed.mem_firsts_id) settings root⟩
  · intro declarations find? hkept
    refine compile_congr ?_ (hkept.mem_mediaKeys_iff find?) settings root
    exact (ContentTypes.capture_types declarations).symm

/-- Declarations of which one is made again, as another kind of media with other properties. -/
def retakenDeclarations : List ContentType := [
  (ContentType.ofKey "Photo" .image).withProperty "credit" (.ofKind .string),
  (ContentType.ofKey "Album" .page).withProperty "items" (.ofKind (.content none none)),
  (ContentType.ofKey "Photo" .video).withProperty "poster" (.ofKind .url)]

theorem compile_sees_capture_retaken :
    compile { all := retakenDeclarations, find? := fun _ => none } .initial "Album" =
        compile (ContentTypes.ofList retakenDeclarations).registry .initial "Album" ∧
      ((compile { all := retakenDeclarations, find? := fun _ => none } .initial
        "Album").value.toOption.map fun c => c.fragments.map Fragment.name) =
          some [mediaMetadataName, "Photo", "_video", "Album"] := by
  refine ⟨(compile_sees_capture .initial "Album").2 retakenDeclarations _ ?_, rfl⟩
  intro t ht hmedia
  simp only [retakenDeclarations, List.mem_cons, List.not_mem_nil, or_false] at ht
  rcases ht with rfl | rfl | rfl
  · exact ⟨_, rfl, rfl⟩
  · exact absurd hmedia (by decide)
  · exact ⟨_, rfl, rfl⟩

end ContentQuery
