import Mathlib.Data.List.Forall2
import Mathlib.Data.List.Induction
import Mathlib.Data.List.Nodup
import ContentQuery.Keyed

namespace ContentQuery.Keyed

variable {α κ : Type} [DecidableEq κ]

theorem mem_map_put (key : α → κ) (x : α) (xs : List α) (k : κ) :
    k ∈ (put key x xs).map key ↔ k = key x ∨ k ∈ xs.map key := by
  by_cases h : key x ∈ xs.map key
  · rw [map_put_of_mem key x xs h]
    constructor
    · exact Or.inr
    · rintro (rfl | hk)
      · exact h
      · exact hk
  · rw [put_of_not_mem key x xs h]
    simp [or_comm]

theorem mem_map_putNew (key : α → κ) (x : α) (xs : List α) (k : κ) :
    k ∈ (putNew key x xs).map key ↔ k = key x ∨ k ∈ xs.map key := by
  by_cases h : key x ∈ xs.map key
  · rw [putNew_of_mem key x xs h]
    constructor
    · exact Or.inr
    · rintro (rfl | hk)
      · exact h
      · exact hk
  · rw [putNew_of_not_mem key x xs h]
    simp [or_comm]

theorem mem_of_mem_put (key : α → κ) {x y : α} {xs : List α} (h : y ∈ put key x xs) :
    y = x ∨ y ∈ xs := by
  induction xs with
  | nil => exact Or.inl (List.mem_singleton.mp h)
  | cons z zs ih =>
      rw [put] at h
      split at h
      · rcases List.mem_cons.mp h with hy | hy
        · exact Or.inl hy
        · exact Or.inr (List.mem_cons_of_mem z hy)
      · rcases List.mem_cons.mp h with hy | hy
        · exact Or.inr (hy ▸ List.mem_cons_self)
        · exact (ih hy).imp_right (List.mem_cons_of_mem z)

theorem mem_of_mem_putNew (key : α → κ) {x y : α} {xs : List α} (h : y ∈ putNew key x xs) :
    y = x ∨ y ∈ xs := by
  by_cases hx : key x ∈ xs.map key
  · rw [putNew_of_mem key x xs hx] at h
    exact Or.inr h
  · rw [putNew_of_not_mem key x xs hx] at h
    simpa [or_comm] using h

omit [DecidableEq κ] in
theorem mem_map_foldl (key : α → κ) (step : List α → α → List α)
    (hstep : ∀ x kept k, k ∈ (step kept x).map key ↔ k = key x ∨ k ∈ kept.map key)
    (xs kept : List α) (k : κ) :
    k ∈ (xs.foldl step kept).map key ↔ k ∈ kept.map key ∨ k ∈ xs.map key := by
  induction xs generalizing kept with
  | nil => simp
  | cons x xs ih =>
      rw [List.foldl_cons, ih, hstep, List.map_cons, List.mem_cons]
      simp only [or_assoc, or_left_comm]

omit [DecidableEq κ] in
theorem mem_of_mem_foldl (step : List α → α → List α)
    (hstep : ∀ x kept y, y ∈ step kept x → y = x ∨ y ∈ kept)
    {y : α} (xs : List α) {kept : List α} (h : y ∈ xs.foldl step kept) : y ∈ kept ∨ y ∈ xs := by
  induction xs generalizing kept with
  | nil => exact Or.inl h
  | cons x xs ih =>
      rcases ih h with hy | hy
      · rcases hstep x kept y hy with rfl | hy
        · exact Or.inr List.mem_cons_self
        · exact Or.inl hy
      · exact Or.inr (List.mem_cons_of_mem x hy)

theorem mem_map_lasts (key : α → κ) (xs : List α) (k : κ) :
    k ∈ (lasts key xs).map key ↔ k ∈ xs.map key := by
  rw [lasts, mem_map_foldl key _ (fun x kept k => mem_map_put key x kept k)]
  simp

theorem mem_map_firsts (key : α → κ) (xs : List α) (k : κ) :
    k ∈ (firsts key xs).map key ↔ k ∈ xs.map key := by
  rw [firsts, mem_map_foldl key _ (fun x kept k => mem_map_putNew key x kept k)]
  simp

theorem mem_firsts_id {x : α} [DecidableEq α] {xs : List α} : x ∈ firsts id xs ↔ x ∈ xs := by
  simpa using mem_map_firsts id xs x

theorem mem_of_mem_lasts (key : α → κ) {y : α} {xs : List α} (h : y ∈ lasts key xs) :
    y ∈ xs := by
  simpa using mem_of_mem_foldl _ (fun _ _ _ hy => mem_of_mem_put key hy) xs h

theorem mem_of_mem_firsts (key : α → κ) {y : α} {xs : List α} (h : y ∈ firsts key xs) :
    y ∈ xs := by
  simpa using mem_of_mem_foldl _ (fun _ _ _ hy => mem_of_mem_putNew key hy) xs h

theorem nodup_map_put (key : α → κ) (x : α) {xs : List α} (h : (xs.map key).Nodup) :
    ((put key x xs).map key).Nodup := by
  by_cases hx : key x ∈ xs.map key
  · rwa [map_put_of_mem key x xs hx]
  · rw [put_of_not_mem key x xs hx, List.map_append]
    exact List.Nodup.append h (List.nodup_singleton _) (by simpa using hx)

theorem nodup_map_putNew (key : α → κ) (x : α) {xs : List α} (h : (xs.map key).Nodup) :
    ((putNew key x xs).map key).Nodup := by
  by_cases hx : key x ∈ xs.map key
  · rwa [putNew_of_mem key x xs hx]
  · rw [putNew_of_not_mem key x xs hx, List.map_append]
    exact List.Nodup.append h (List.nodup_singleton _) (by simpa using hx)

omit [DecidableEq κ] in
theorem nodup_map_foldl (key : α → κ) (step : List α → α → List α)
    (hstep : ∀ x kept, (kept.map key).Nodup → ((step kept x).map key).Nodup)
    (xs : List α) {kept : List α} (h : (kept.map key).Nodup) :
    ((xs.foldl step kept).map key).Nodup := by
  induction xs generalizing kept with
  | nil => exact h
  | cons x xs ih => exact ih (hstep x kept h)

theorem nodup_map_lasts (key : α → κ) (xs : List α) : ((lasts key xs).map key).Nodup :=
  nodup_map_foldl key _ (fun x _ h => nodup_map_put key x h) xs List.nodup_nil

theorem nodup_map_firsts (key : α → κ) (xs : List α) : ((firsts key xs).map key).Nodup :=
  nodup_map_foldl key _ (fun x _ h => nodup_map_putNew key x h) xs List.nodup_nil

theorem lasts_concat (key : α → κ) (xs : List α) (x : α) :
    lasts key (xs ++ [x]) = put key x (lasts key xs) := by
  rw [lasts, List.foldl_append]
  rfl

theorem firsts_concat (key : α → κ) (xs : List α) (x : α) :
    firsts key (xs ++ [x]) = putNew key x (firsts key xs) := by
  rw [firsts, List.foldl_append]
  rfl

theorem firsts_sublist (key : α → κ) (xs : List α) : (firsts key xs).Sublist xs := by
  induction xs using List.reverseRecOn with
  | nil => exact List.Sublist.refl []
  | append_singleton xs x ih =>
      rw [firsts_concat]
      by_cases hx : key x ∈ (firsts key xs).map key
      · rw [putNew_of_mem key x _ hx]
        exact ih.trans (List.sublist_append_left xs [x])
      · rw [putNew_of_not_mem key x _ hx]
        exact ih.append_right [x]

theorem firsts_id_eq_eraseDups [DecidableEq α] (xs : List α) : firsts id xs = xs.eraseDups := by
  induction xs using List.reverseRecOn with
  | nil => rfl
  | append_singleton xs x ih =>
      rw [firsts_concat, List.eraseDups_append, ih]
      by_cases hx : x ∈ xs
      · rw [putNew_of_mem id x _ (by simpa using hx)]
        simp [List.removeAll, hx]
      · rw [putNew_of_not_mem id x _ (by simpa using hx)]
        simp only [List.removeAll, hx, List.elem_eq_mem, decide_false, Bool.not_false,
          List.filter_cons_of_pos, List.filter_nil]
        rfl

theorem map_lasts (key : α → κ) (xs : List α) :
    (lasts key xs).map key = (xs.map key).eraseDups := by
  rw [← firsts_id_eq_eraseDups]
  induction xs using List.reverseRecOn with
  | nil => rfl
  | append_singleton xs x ih =>
      rw [lasts_concat, List.map_append, List.map_singleton, firsts_concat, ← ih]
      by_cases hx : key x ∈ (lasts key xs).map key
      · rw [map_put_of_mem key x _ hx, putNew_of_mem id _ _ (by simpa using hx)]
      · rw [put_of_not_mem key x _ hx, putNew_of_not_mem id _ _ (by simpa using hx),
          List.map_append, List.map_singleton]

theorem eraseDups_filter [DecidableEq α] (p : α → Bool) (xs : List α) :
    (xs.filter p).eraseDups = xs.eraseDups.filter p := by
  induction xs using List.reverseRecOn with
  | nil => rfl
  | append_singleton xs x ih =>
      have hsingleton : [x].eraseDups = [x] := rfl
      rw [List.filter_append, List.eraseDups_append, List.eraseDups_append, List.filter_append, ih]
      congr 1
      by_cases hx : x ∈ xs
      · cases hp : p x <;> simp [List.removeAll, List.mem_filter, hx, hp]
      · cases hp : p x <;> simp [List.removeAll, List.mem_filter, hx, hp, hsingleton]

theorem eraseDups_append_eq [DecidableEq α] (xs ys : List α) :
    (xs ++ ys).eraseDups = xs.eraseDups ++ ys.eraseDups.filter (· ∉ xs.eraseDups) := by
  have hrest : ys.removeAll xs = ys.filter (· ∉ xs.eraseDups) := by
    simp only [List.removeAll, List.mem_eraseDups, List.elem_eq_mem, decide_not]
  rw [List.eraseDups_append, hrest, eraseDups_filter]

theorem firsts_id_perm [DecidableEq α] {xs ys : List α} (h : ∀ x, x ∈ xs ↔ x ∈ ys) :
    (firsts id xs).Perm (firsts id ys) := by
  rw [List.perm_ext_iff_of_nodup (nodup_map_firsts id xs).of_map (nodup_map_firsts id ys).of_map]
  intro x
  rw [mem_firsts_id, mem_firsts_id, h]

omit [DecidableEq κ] in
theorem foldl_of_nodup (key : α → κ) (step : List α → α → List α)
    (hstep : ∀ x kept, key x ∉ kept.map key → step kept x = kept ++ [x])
    (xs kept : List α) (h : ((kept ++ xs).map key).Nodup) : xs.foldl step kept = kept ++ xs := by
  induction xs generalizing kept with
  | nil => simp
  | cons x xs ih =>
      have hx : key x ∉ kept.map key := by
        rw [List.map_append, List.map_cons] at h
        exact fun hmem => (List.nodup_append.mp h).2.2 _ hmem _ List.mem_cons_self rfl
      rw [List.foldl_cons, hstep x kept hx, ih _ (by simpa using h)]
      simp

theorem firsts_of_nodup (key : α → κ) {xs : List α} (h : (xs.map key).Nodup) :
    firsts key xs = xs :=
  foldl_of_nodup key _ (fun x kept => putNew_of_not_mem key x kept) xs [] h

theorem lasts_of_nodup (key : α → κ) {xs : List α} (h : (xs.map key).Nodup) :
    lasts key xs = xs :=
  foldl_of_nodup key _ (fun x kept => put_of_not_mem key x kept) xs [] h

section

variable {β : Type} (key : α → κ) (f : β → α)

theorem put_map (x : β) (kept : List β) :
    put key (f x) (kept.map f) = (put (key ∘ f) x kept).map f := by
  induction kept with
  | nil => rfl
  | cons y ys ih =>
      by_cases hy : key (f y) = key (f x)
      · simp [put, hy]
      · simp [put, hy, ih]

theorem putNew_map (x : β) (kept : List β) :
    putNew key (f x) (kept.map f) = (putNew (key ∘ f) x kept).map f := by
  induction kept with
  | nil => rfl
  | cons y ys ih =>
      by_cases hy : key (f y) = key (f x)
      · simp [putNew, hy]
      · simp [putNew, hy, ih]

theorem lasts_map (xs : List β) : lasts key (xs.map f) = (lasts (key ∘ f) xs).map f := by
  rw [lasts, lasts, List.foldl_map, ← List.map_nil]
  apply List.foldl_hom
  exact fun kept x => put_map key f x kept

theorem firsts_map (xs : List β) : firsts key (xs.map f) = (firsts (key ∘ f) xs).map f := by
  rw [firsts, firsts, List.foldl_map, ← List.map_nil]
  apply List.foldl_hom
  exact fun kept x => putNew_map key f x kept

end

theorem putNew_congr {key key' : α → κ} {x : α} {xs : List α}
    (h : ∀ y ∈ xs, key y = key x ↔ key' y = key' x) : putNew key x xs = putNew key' x xs := by
  induction xs with
  | nil => rfl
  | cons y ys ih =>
      rw [putNew, putNew, ih fun z hz => h z (List.mem_cons_of_mem y hz)]
      exact if_congr (h y List.mem_cons_self) rfl rfl

theorem firsts_congr {key key' : α → κ} {xs : List α}
    (h : ∀ x ∈ xs, ∀ y ∈ xs, key x = key y ↔ key' x = key' y) :
    firsts key xs = firsts key' xs := by
  have hfold : ∀ (rest kept : List α), kept ⊆ xs → rest ⊆ xs →
      rest.foldl (fun kept x => putNew key x kept) kept =
        rest.foldl (fun kept x => putNew key' x kept) kept := by
    intro rest
    induction rest with
    | nil => exact fun _ _ _ => rfl
    | cons x rest ih =>
        intro kept hkept hrest
        have hx : x ∈ xs := hrest List.mem_cons_self
        rw [List.foldl_cons, List.foldl_cons,
          putNew_congr fun y hy => h y (hkept hy) x hx]
        refine ih _ ?_ fun y hy => hrest (List.mem_cons_of_mem x hy)
        intro y hy
        rcases mem_of_mem_putNew key' hy with rfl | hy
        · exact hx
        · exact hkept hy
  exact hfold xs [] (List.nil_subset xs) (List.Subset.refl xs)

omit [DecidableEq κ] in
/-- Of two texts of each value that agree on which values are told apart, the same are kept. -/
theorem forall₂_firsts {β : Type} [DecidableEq α] {related : α → α → Prop} {f g : β → α}
    {xs : List β} (hrelated : ∀ x ∈ xs, related (f x) (g x))
    (hkeys : ∀ x ∈ xs, ∀ y ∈ xs, f x = f y ↔ g x = g y) :
    List.Forall₂ related (firsts id (xs.map f)) (firsts id (xs.map g)) := by
  have hfirsts : firsts (id ∘ f) xs = firsts (id ∘ g) xs := firsts_congr hkeys
  rw [firsts_map, firsts_map, ← hfirsts, List.forall₂_map_left_iff, List.forall₂_map_right_iff,
    List.forall₂_same]
  exact fun x hx => hrelated x (mem_of_mem_firsts _ hx)

theorem find?_eq_some_iff (key : α → κ) {xs : List α} (h : (xs.map key).Nodup) {k : κ} {x : α} :
    find? key k xs = some x ↔ x ∈ xs ∧ key x = k := by
  constructor
  · intro hfind
    exact ⟨List.mem_of_find?_eq_some hfind, by simpa using List.find?_some hfind⟩
  · rintro ⟨hx, rfl⟩
    induction xs with
    | nil => exact absurd hx List.not_mem_nil
    | cons y ys ih =>
        rw [List.map_cons, List.nodup_cons] at h
        rcases List.mem_cons.mp hx with rfl | hx
        · simp [find?]
        · have hne : key y ≠ key x := fun hy => h.1 (hy ▸ List.mem_map_of_mem hx)
          simpa [find?, hne] using ih h.2 hx

/-- Of the values that have a key the last one is kept. -/
theorem find?_lasts (key : α → κ) (k : κ) (xs : List α) :
    find? key k (lasts key xs) = find? key k xs.reverse := by
  induction xs using List.reverseRecOn with
  | nil => rfl
  | append_singleton xs x ih =>
      rw [lasts_concat, List.reverse_append]
      by_cases hx : key x = k
      · subst hx
        rw [find?_put_self]
        simp [find?]
      · rw [find?_put_of_ne key x _ hx, ih]
        simp [find?, hx]

theorem exists_append_of_mem_lasts (key : α → κ) {x : α} {xs : List α} (h : x ∈ lasts key xs) :
    ∃ before after, xs = before ++ x :: after ∧ key x ∉ after.map key := by
  have hfind : find? key (key x) xs.reverse = some x := by
    rw [← find?_lasts, find?_eq_some_iff key (nodup_map_lasts key xs)]
    exact ⟨h, rfl⟩
  obtain ⟨-, after, before, hreverse, hafter⟩ := List.find?_eq_some_iff_append.mp hfind
  refine ⟨before.reverse, after.reverse, ?_, ?_⟩
  · simpa using congrArg List.reverse hreverse
  · intro hx
    obtain ⟨y, hy, hkey⟩ := List.mem_map.mp hx
    simpa [hkey] using hafter y (List.mem_reverse.mp hy)

theorem find?_eq_none_iff (key : α → κ) (k : κ) (xs : List α) :
    find? key k xs = none ↔ k ∉ xs.map key := by
  simp [find?]

theorem mem_of_find? (key : α → κ) {k : κ} {xs : List α} {x : α}
    (h : find? key k xs = some x) : x ∈ xs ∧ key x = k := by
  refine ⟨List.mem_of_find?_eq_some h, ?_⟩
  simpa using List.find?_some h

end ContentQuery.Keyed
