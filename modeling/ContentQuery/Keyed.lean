namespace ContentQuery.Keyed

variable {α κ : Type} [DecidableEq κ]

/-- Puts a value in the place of the one with the same key, or at the end. -/
def put (key : α → κ) (x : α) : List α → List α
  | [] => [x]
  | y :: ys => if key y = key x then x :: ys else y :: put key x ys

/-- Puts a value at the end unless its key is taken. -/
def putNew (key : α → κ) (x : α) : List α → List α
  | [] => [x]
  | y :: ys => if key y = key x then y :: ys else y :: putNew key x ys

/-- The last value of each key, at the place of the first. -/
def lasts (key : α → κ) (xs : List α) : List α :=
  xs.foldl (fun kept x => put key x kept) []

def firsts (key : α → κ) (xs : List α) : List α :=
  xs.foldl (fun kept x => putNew key x kept) []

def find? (key : α → κ) (k : κ) (xs : List α) : Option α :=
  xs.find? fun x => key x = k

theorem map_put_of_mem (key : α → κ) (x : α) (xs : List α) (h : key x ∈ xs.map key) :
    (put key x xs).map key = xs.map key := by
  induction xs with
  | nil => simp at h
  | cons y ys ih =>
      by_cases hy : key y = key x
      · simp [put, hy]
      · have hys : key x ∈ ys.map key := by
          rcases List.mem_cons.mp h with h | h
          · exact absurd h.symm hy
          · exact h
        simp [put, hy, ih hys]

theorem put_of_not_mem (key : α → κ) (x : α) (xs : List α) (h : key x ∉ xs.map key) :
    put key x xs = xs ++ [x] := by
  induction xs with
  | nil => rfl
  | cons y ys ih =>
      have hy : key y ≠ key x := fun hy => h (by simp [hy])
      have hys : key x ∉ ys.map key := fun hys => h (by simp [hys])
      simp [put, hy, ih hys]

theorem putNew_of_mem (key : α → κ) (x : α) (xs : List α) (h : key x ∈ xs.map key) :
    putNew key x xs = xs := by
  induction xs with
  | nil => simp at h
  | cons y ys ih =>
      by_cases hy : key y = key x
      · simp [putNew, hy]
      · have hys : key x ∈ ys.map key := by
          rcases List.mem_cons.mp h with h | h
          · exact absurd h.symm hy
          · exact h
        simp [putNew, hy, ih hys]

theorem putNew_of_not_mem (key : α → κ) (x : α) (xs : List α) (h : key x ∉ xs.map key) :
    putNew key x xs = xs ++ [x] := by
  induction xs with
  | nil => rfl
  | cons y ys ih =>
      have hy : key y ≠ key x := fun hy => h (by simp [hy])
      have hys : key x ∉ ys.map key := fun hys => h (by simp [hys])
      simp [putNew, hy, ih hys]

theorem find?_put_self (key : α → κ) (x : α) (xs : List α) :
    find? key (key x) (put key x xs) = some x := by
  induction xs with
  | nil => simp [put, find?]
  | cons y ys ih =>
      by_cases hy : key y = key x
      · simp [put, find?, hy]
      · simpa [put, find?, hy] using ih

theorem find?_put_of_ne (key : α → κ) (x : α) (xs : List α) {k : κ} (hk : key x ≠ k) :
    find? key k (put key x xs) = find? key k xs := by
  induction xs with
  | nil => simp [put, find?, hk]
  | cons y ys ih =>
      by_cases hy : key y = key x
      · simp [put, find?, hy, hk]
      · by_cases hyk : key y = k
        · have hkx : k ≠ key x := fun h => hk h.symm
          simp [put, find?, hyk, hkx]
        · simpa [put, find?, hy, hyk] using ih

end ContentQuery.Keyed
