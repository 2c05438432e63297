import Mathlib.Data.Finset.Card
import ContentQuery.Proofs.Calls

namespace ContentQuery.Compile

variable {ctx : Context} {vs : List Node} {visited visited' : List String}
  {fragments : List Fragment}

theorem Visits.added_eq (h : Visits ctx vs visited fragments visited')
    (htogether : MarkedTogether visited) :
    visited'.toFinset \ visited.toFinset = (fragments.map Fragment.name).toFinset := by
  ext name
  rw [Finset.mem_sdiff, List.mem_toFinset, List.mem_toFinset, List.mem_toFinset, h.mem_visited_iff]
  constructor
  · rintro ⟨hvisited | hname, hnew⟩
    · exact absurd hvisited hnew
    · exact hname
  · intro hname
    refine ⟨Or.inr hname, ?_⟩
    obtain ⟨f, hf, rfl⟩ := List.mem_map.mp hname
    exact h.name_not_mem htogether hf

theorem unguardedFree_of_keys {registry : Registry} {settings : Settings} {root : String}
    (h : ∀ t ∈ registry.all, t.key ∉ unguardedNames) :
    UnguardedFree (contextOf registry settings root) :=
  fun t ht => h t (Keyed.mem_of_mem_lasts ContentType.key ht)

theorem markedTogether_start (registry : Registry) (root : String) :
    MarkedTogether (startOf registry root).visited :=
  fun _ _ hname => absurd hname List.not_mem_nil

theorem card_eq_countP {names : Finset String} (hnodup : (fragments.map Fragment.name).Nodup)
    (hsub : names ⊆ (fragments.map Fragment.name).toFinset) :
    names.card = fragments.countP (·.name ∈ names) := by
  have hfilter : ((fragments.map Fragment.name).filter (· ∈ names)).toFinset = names := by
    rw [List.toFinset_filter]
    simpa [Finset.filter_mem_eq_inter] using hsub
  rw [← hfilter, List.toFinset_card_of_nodup (hnodup.filter _), ← List.countP_eq_length_filter,
    List.countP_map, hfilter]
  rfl

/-- The fragment of a declared type. -/
def MadeFor (ctx : Context) (t : ContentType) (f : Fragment) : Prop :=
  ∃ key suffixed, Declared ctx key t ∧ (Node.type key suffixed).fragment? ctx = some f

/-- A property is expanded only for the fragment of a declared type whose name is visited. -/
def Call.Begun (ctx : Context) (visited : List String) : Call → Prop
  | .visit _ => True
  | .property own _ _ => own.name ∈ visited ∧ ∃ t, MadeFor ctx t own

/-- The names that a call visited. -/
def Returned.added (r : Returned) : Finset String :=
  r.after.visited.toFinset \ r.before.visited.toFinset

/-- The call was made between the visits of these names. -/
structure Returned.Within (ctx : Context) (visited visited' : List String) (r : Returned) :
    Prop where
  visits : Visits ctx (r.call.nodes ctx) r.before.visited r.fragments r.after.visited
  before : visited ⊆ r.before.visited
  after : r.after.visited ⊆ visited'
  together : MarkedTogether r.before.visited
  begun : r.call.Begun ctx r.before.visited

namespace Returned.Within

variable {r : Returned} (h : r.Within ctx visited visited')
include h

theorem mono {outer outer' : List String} (hbefore : outer ⊆ visited)
    (hafter : visited' ⊆ outer') : r.Within ctx outer outer' :=
  ⟨h.visits, List.Subset.trans hbefore h.before, List.Subset.trans h.after hafter, h.together,
    h.begun⟩

theorem added_eq : r.added = (r.fragments.map Fragment.name).toFinset :=
  h.visits.added_eq h.together

theorem card_added (hfree : UnguardedFree ctx) : r.added.card = r.fragments.length := by
  rw [h.added_eq, List.toFinset_card_of_nodup (h.visits.nodup hfree h.together), List.length_map]

theorem added_subset : r.added ⊆ visited'.toFinset := by
  intro name hname
  exact List.mem_toFinset.mpr (h.after (List.mem_toFinset.mp (Finset.mem_sdiff.mp hname).1))

end Returned.Within

variable {calls : List Call} {state state' : State} {log : List Returned}

theorem begun_visits (ctx : Context) (visited : List String) (vs : List Node) :
    ∀ call ∈ vs.map Call.visit, call.Begun ctx visited := by
  intro call hcall
  obtain ⟨v, -, rfl⟩ := List.mem_map.mp hcall
  exact trivial

theorem Call.Begun.mono {call : Call} (h : call.Begun ctx visited) (hvisited : visited ⊆ visited') :
    call.Begun ctx visited' := by
  cases call with
  | visit => exact trivial
  | property own name p => exact ⟨hvisited h.1, h.2⟩

theorem begun_typeCalls {key : String} {suffixed : Bool} {own : Fragment}
    (hown : (Node.type key suffixed).fragment? ctx = some own) (hvisited : own.name ∈ visited) :
    ∀ call ∈ typeCalls ctx own key, call.Begun ctx visited := by
  rcases Node.eq_of_fragment?_type hown with ⟨base, hb, -⟩ | ⟨t, ht, -⟩
  · rw [typeCalls_builtin hb]
    exact begun_visits ctx visited _
  · rw [typeCalls_declared ht]
    refine List.forall_mem_append.mpr ⟨List.forall_mem_append.mpr ⟨begun_visits ctx visited _, ?_⟩,
      begun_visits ctx visited _⟩
    intro call hcall
    obtain ⟨property, -, rfl⟩ := List.mem_map.mp hcall
    exact ⟨hvisited, t, key, suffixed, ht, hown⟩

theorem forall_begun_mono (h : ∀ call ∈ calls, call.Begun ctx visited)
    (hvisited : visited ⊆ visited') : ∀ call ∈ calls, call.Begun ctx visited' :=
  fun call hcall => (h call hcall).mono hvisited

theorem forall_within {entered inner : List String} {r : Returned} {within : List Returned}
    (hwithin : ∀ x ∈ within, x.Within ctx entered inner) (hentered : visited ⊆ entered)
    (hr : r.Within ctx visited inner) (hlog : ∀ x ∈ log, x.Within ctx inner visited')
    (hinner : inner ⊆ visited') :
    ∀ x ∈ within ++ r :: log, x.Within ctx visited visited' := by
  have hself := List.Subset.refl visited
  have hsubset := List.Subset.trans hr.before (List.Subset.trans hr.visits.subset hr.after)
  refine List.forall_mem_append.mpr ⟨?_, List.forall_mem_cons.mpr ⟨hr.mono hself hinner, ?_⟩⟩
  · exact fun x hx => (hwithin x hx).mono hentered hinner
  · exact fun x hx => (hlog x hx).mono hsubset (List.Subset.refl _)

/-- Every call on the way is made between the visits of a run. -/
theorem Runs.within (h : Runs ctx calls state fragments log state') (hfree : UnguardedFree ctx)
    (htogether : MarkedTogether state.visited)
    (hbegun : ∀ call ∈ calls, call.Begun ctx state.visited) :
    ∀ r ∈ log, r.Within ctx state.visited state'.visited := by
  induction h with
  | nil => simp
  | seen hseen tail ih =>
      obtain ⟨hcall, hcalls⟩ := List.forall_mem_cons.mp hbegun
      refine List.forall_mem_cons.mpr ⟨?_, ih htogether hcalls⟩
      exact ⟨.seen hseen .nil, List.Subset.refl _, tail.visits.subset, htogether, hcall⟩
  | @metadata _ state _ _ _ hnew tail ih =>
      obtain ⟨hcall, hcalls⟩ := List.forall_mem_cons.mp hbegun
      have hmarked : state.visited ⊆ mediaMetadataName :: state.visited :=
        List.subset_cons_self _ _
      have htail := ih (htogether.cons (by decide)) (forall_begun_mono hcalls hmarked)
      have hr : Returned.Within ctx state.visited (mediaMetadataName :: state.visited)
          ⟨.visit .mediaMetadata, state, [mediaMetadata], state.marked [mediaMetadataName]⟩ :=
        ⟨.metadata hnew .nil, List.Subset.refl _, List.Subset.refl _, htogether, hcall⟩
      exact forall_within (List.forall_mem_nil _) hmarked hr htail tail.visits.subset
  | @type key suffixed _ state inner _ own _ _ _ _ hnew hown needs tail ihNeeds ih =>
      obtain ⟨hcall, hcalls⟩ := List.forall_mem_cons.mp hbegun
      have hmarked : state.visited ⊆ own.name :: state.visited := List.subset_cons_self _ _
      have htogether' : MarkedTogether (own.name :: state.visited) :=
        htogether.cons (Node.name_of_fragment? hown ▸ hfree.type_name_not_mem hown)
      have hcallVisits : Runs ctx [.visit (.type key suffixed)] state _ _ _ :=
        .type hnew hown needs .nil
      have hinner := tail.visits.subset
      have hsubset := List.Subset.trans hmarked needs.visits.subset
      rw [State.visited_emitted] at ih hinner
      refine forall_within (ihNeeds htogether' (begun_typeCalls hown List.mem_cons_self)) hmarked
        ?_ (ih (needs.visits.markedTogether hfree htogether') (forall_begun_mono hcalls hsubset))
        hinner
      exact ⟨hcallVisits.visits, List.Subset.refl _, by simp, htogether, hcall⟩
  | @composition _ state inner _ _ _ _ _ hnew needs tail ihNeeds ih =>
      obtain ⟨hcall, hcalls⟩ := List.forall_mem_cons.mp hbegun
      have hmarked : state.visited ⊆ compositionNames ++ state.visited :=
        List.subset_append_right _ _
      have htogether' := markedTogether_compositionNames state.visited
      have hvisits := (Runs.composition hnew needs .nil).visits
      have hsubset := List.Subset.trans hmarked needs.visits.subset
      rw [List.append_nil] at hvisits
      refine forall_within (ihNeeds htogether' (begun_visits ctx _ _)) hmarked ?_
        (ih (needs.visits.markedTogether hfree htogether') (forall_begun_mono hcalls hsubset))
        tail.visits.subset
      exact ⟨hvisits, List.Subset.refl _, List.Subset.refl _, htogether, hcall⟩
  | disabled _ _ ih => exact ih htogether (List.forall_mem_cons.mp hbegun).2
  | @property own name p _ state inner _ _ _ _ _ hp needs tail ihNeeds ih =>
      obtain ⟨hcall, hcalls⟩ := List.forall_mem_cons.mp hbegun
      -- The check for fan-out visits nothing.
      have hvisits := needs.visits
      have hinner := tail.visits.subset
      rw [State.visited_checked] at ih hinner
      rw [flatMap_nodes_visit] at hvisits
      refine forall_within (ihNeeds htogether (begun_visits ctx _ _)) (List.Subset.refl _) ?_
        (ih (hvisits.markedTogether hfree htogether) (forall_begun_mono hcalls hvisits.subset))
        hinner
      refine ⟨?_, List.Subset.refl _, List.Subset.refl _, htogether, hcall⟩
      simpa [Call.nodes, hp] using hvisits

end ContentQuery.Compile
