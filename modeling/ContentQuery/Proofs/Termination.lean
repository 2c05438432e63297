import Mathlib.Data.Finset.Card
import ContentQuery.Proofs.Closure

namespace ContentQuery.Compile

/-- The names under which registered types are entered. -/
def declaredNames (ctx : Context) : List String :=
  ctx.snapshot.types.flatMap fun t => [t.key, t.key ++ componentSuffix]

/-- The names under which registered types may still be entered. -/
def unvisited (ctx : Context) (visited : List String) : Finset String :=
  (declaredNames ctx).toFinset \ visited.toFinset

variable {ctx : Context} {visited visited' : List String}

theorem Declared.name_mem {key : String} {t : ContentType} (ht : Declared ctx key t)
    (suffixed : Bool) : (Node.type key suffixed).name ∈ declaredNames ctx := by
  refine List.mem_flatMap.mpr ⟨t, ht.mem_types, ?_⟩
  cases suffixed <;> simp [Node.name, ht.key_eq]

theorem card_unvisited_start (ctx : Context) :
    (unvisited ctx []).card ≤ 2 * ctx.snapshot.types.length := by
  calc (unvisited ctx []).card
    _ ≤ (declaredNames ctx).toFinset.card := Finset.card_le_card Finset.sdiff_subset
    _ ≤ (declaredNames ctx).length := List.toFinset_card_le _
    _ = 2 * ctx.snapshot.types.length := by simp [declaredNames, Nat.mul_comm]

theorem card_unvisited_mono (h : visited ⊆ visited') :
    (unvisited ctx visited').card ≤ (unvisited ctx visited).card := by
  refine Finset.card_le_card (Finset.sdiff_subset_sdiff (Finset.Subset.refl _) ?_)
  intro name hname
  exact List.mem_toFinset.mpr (h (List.mem_toFinset.mp hname))

theorem card_unvisited_cons_lt {name : String} (hname : name ∈ declaredNames ctx)
    (hnew : name ∉ visited) :
    (unvisited ctx (name :: visited)).card < (unvisited ctx visited).card := by
  refine Finset.card_lt_card (Finset.ssubset_iff_of_subset ?_ |>.mpr ⟨name, ?_, ?_⟩)
  · exact Finset.sdiff_subset_sdiff (Finset.Subset.refl _) (by simp)
  · simp [unvisited, hname, hnew]
  · simp [unvisited]

/-- A walk that fails for its depth alone has at least as many names left to enter. -/
theorem Fails.depth_le {depth : Nat} {vs : List Node} {error : CompileError}
    (h : Fails ctx depth vs visited error) (herror : error = .unfinished) :
    depth ≤ (unvisited ctx visited).card := by
  induction h with
  | unfinished => exact Nat.zero_le _
  | missing => exact absurd herror (by simp)
  | type hnew ht _ ih =>
      exact (ih herror).trans_lt (card_unvisited_cons_lt (ht.name_mem _) hnew)
  | composition _ _ ih =>
      exact (ih herror).trans (card_unvisited_mono (List.subset_append_right _ _))
  | later head _ ih => exact (ih herror).trans (card_unvisited_mono head.subset)

/-- The only error of a compilation is a missing type. -/
theorem exists_missing_of_error {registry : Registry} {settings : Settings} {root : String}
    {error : CompileError} (h : (compile registry settings root).value = .error error) :
    ∃ name, error = .missingContentType name := by
  cases error with
  | missingContentType name => exact ⟨name, rfl⟩
  | unfinished =>
      have hdepth := (fails_of_compile h).depth_le rfl
      have hstart := card_unvisited_start (contextOf registry settings root)
      simp only [maxDepth] at hdepth hstart
      omega

end ContentQuery.Compile
