import Mathlib.Data.List.Perm.Basic
import Mathlib.Data.List.Sort
import ContentQuery.ContentType.Equality
import ContentQuery.Proofs.PropertyNames

namespace ContentQuery

/-- Properties in the order of their names. -/
def byName (properties : List (String × Property)) : List (String × Property) :=
  properties.insertionSort fun p q => p.1 ≤ q.1

mutual

/-- The reference with the properties of each declaration in it sorted by name. -/
def Reference.sorted : Reference → Reference
  | .key name => .key name
  | .inline declaration => .inline declaration.sorted
termination_by structural r => r

def sortedReferences : List Reference → List Reference
  | [] => []
  | reference :: rest => reference.sorted :: sortedReferences rest
termination_by structural rs => rs

def sortedOptionalReferences : Option (List Reference) → Option (List Reference)
  | none => none
  | some references => some (sortedReferences references)
termination_by structural rs => rs

def PropertyKind.sorted : PropertyKind → PropertyKind
  | .component type => .component type.sorted
  | .content allowed restricted =>
      .content (sortedOptionalReferences allowed) (sortedOptionalReferences restricted)
  | .array item => .array item.sorted
  | kind => kind
termination_by structural k => k

def Property.sorted : Property → Property
  | ⟨kind, indexing⟩ => ⟨kind.sorted, indexing⟩
termination_by structural p => p

def eachPropertySorted : List (String × Property) → List (String × Property)
  | [] => []
  | (name, p) :: rest => (name, p.sorted) :: eachPropertySorted rest
termination_by structural ps => ps

/-- The declaration with its properties, and those of each declaration in it, sorted by name. -/
def ContentType.sorted : ContentType → ContentType
  | ⟨key, baseType, displayName, properties, behaviors, mayContain⟩ =>
      ⟨key, baseType, displayName, byName (eachPropertySorted properties), behaviors,
        sortedReferences mayContain⟩
termination_by structural t => t

end

mutual

/-- References that differ at most in the order of properties inside them. -/
inductive Reference.Reordered : Reference → Reference → Prop
  | key (name : String) : Reference.Reordered (.key name) (.key name)
  | inline {t u : ContentType} (h : ContentType.Reordered t u) :
      Reference.Reordered (.inline t) (.inline u)

inductive PropertyKind.Reordered : PropertyKind → PropertyKind → Prop
  | refl (kind : PropertyKind) : PropertyKind.Reordered kind kind
  | component {type type' : Reference} (h : Reference.Reordered type type') :
      PropertyKind.Reordered (.component type) (.component type')
  | content {allowed allowed' restricted restricted' : Option (List Reference)}
      (hallowed : Option.Rel (List.Forall₂ Reference.Reordered) allowed allowed')
      (hrestricted : Option.Rel (List.Forall₂ Reference.Reordered) restricted restricted') :
      PropertyKind.Reordered (.content allowed restricted) (.content allowed' restricted')
  | array {item item' : Property} (h : Property.Reordered item item') :
      PropertyKind.Reordered (.array item) (.array item')

inductive Property.Reordered : Property → Property → Prop
  | mk {kind kind' : PropertyKind} (h : PropertyKind.Reordered kind kind')
      (indexing : Option Indexing) : Property.Reordered ⟨kind, indexing⟩ ⟨kind', indexing⟩

inductive EntryReordered : String × Property → String × Property → Prop
  | mk (name : String) {p q : Property} (h : Property.Reordered p q) :
      EntryReordered (name, p) (name, q)

/-- Declarations that differ at most in the order of properties, at any depth. -/
inductive ContentType.Reordered : ContentType → ContentType → Prop
  | mk (key : String) (baseType : BaseType) (displayName : Option String)
      (behaviors : List Behavior) {properties inPlace properties' : List (String × Property)}
      {mayContain mayContain' : List Reference}
      (heach : List.Forall₂ EntryReordered properties inPlace)
      (horder : inPlace.Perm properties')
      (hmayContain : List.Forall₂ Reference.Reordered mayContain mayContain') :
      ContentType.Reordered ⟨key, baseType, displayName, properties, behaviors, mayContain⟩
        ⟨key, baseType, displayName, properties', behaviors, mayContain'⟩

end

/-- A declaration that has each property once, at every level. -/
abbrev Declaration := { t : ContentType // t.propertiesDiffer }

variable {ps qs : List (String × Property)}

theorem byName_perm (ps : List (String × Property)) : (byName ps).Perm ps :=
  List.perm_insertionSort _ ps

/-- Sorting by name forgets the order, and nothing else, if no name stands twice. -/
theorem byName_eq_iff (hnames : (ps.map Prod.fst).Nodup) :
    byName ps = byName qs ↔ ps.Perm qs := by
  constructor
  · intro h
    exact (byName_perm ps).symm.trans (h ▸ byName_perm qs)
  · intro h
    have : Std.Total fun p q : String × Property => p.1 ≤ q.1 :=
      ⟨fun p q => String.le_total p.1 q.1⟩
    have : IsTrans (String × Property) fun p q => p.1 ≤ q.1 :=
      ⟨fun _ _ _ => String.le_trans⟩
    refine List.Perm.eq_of_pairwise ?_ (List.pairwise_insertionSort _ ps)
      (List.pairwise_insertionSort _ qs) ((byName_perm ps).trans (h.trans (byName_perm qs).symm))
    -- Only names are compared, so that entries are told apart by them or not at all.
    intro p q hp hq hle hge
    have hpmem : p ∈ ps := (byName_perm ps).mem_iff.mp hp
    have hqmem : q ∈ ps := h.mem_iff.mpr ((byName_perm qs).mem_iff.mp hq)
    exact List.inj_on_of_nodup_map hnames hpmem hqmem (String.le_antisymm hle hge)

theorem map_fst_map_entry (form : Property → Property) (ps : List (String × Property)) :
    (ps.map fun p => (p.1, form p.2)).map Prod.fst = ps.map Prod.fst := by
  rw [List.map_map]
  rfl

theorem eachPropertySorted_eq_map (ps : List (String × Property)) :
    eachPropertySorted ps = ps.map fun p => (p.1, p.2.sorted) := by
  induction ps with
  | nil => rfl
  | cons p ps ih => rw [eachPropertySorted, ih, List.map_cons]

theorem map_fst_eachPropertySorted (ps : List (String × Property)) :
    (eachPropertySorted ps).map Prod.fst = ps.map Prod.fst := by
  rw [eachPropertySorted_eq_map, map_fst_map_entry]

/-! ### Look-up and sorting -/

theorem propertiesWithin_iff (ps others : List (String × Property)) :
    propertiesWithin ps others ↔
      ∀ p ∈ ps, ∃ q, Keyed.find? Prod.fst p.1 others = some q ∧ p.2.same q.2 := by
  induction ps with
  | nil => simp [propertiesWithin]
  | cons p ps ih =>
      obtain ⟨name, property⟩ := p
      rw [propertiesWithin, Bool.and_eq_true, ih, List.forall_mem_cons]
      refine and_congr_left' ?_
      cases Keyed.find? Prod.fst name others with
      | none => simp
      | some q => simp

/-- Where a property is the same as another exactly if they have one form, lists of one length in
which the second has each property of the first have the same forms in some order. -/
theorem propertiesWithin_iff_perm {form : Property → Property}
    (hnames : (ps.map Prod.fst).Nodup)
    (hsame : ∀ p ∈ ps, ∀ q, p.2.same q ↔ form p.2 = form q) :
    ps.length = qs.length ∧ propertiesWithin ps qs ↔
      (ps.map fun p => (p.1, form p.2)).Perm (qs.map fun q => (q.1, form q.2)) := by
  rw [propertiesWithin_iff]
  constructor
  · rintro ⟨hlength, hwithin⟩
    have hnodup : (ps.map fun p => (p.1, form p.2)).Nodup :=
      List.Nodup.of_map Prod.fst (by rw [map_fst_map_entry]; exact hnames)
    have hsubset : (ps.map fun p => (p.1, form p.2)) ⊆ qs.map fun q => (q.1, form q.2) := by
      intro _ hmem
      obtain ⟨p, hp, rfl⟩ := List.mem_map.mp hmem
      obtain ⟨q, hfind, hpq⟩ := hwithin p hp
      obtain ⟨hq, hname⟩ := Keyed.mem_of_find? Prod.fst hfind
      exact List.mem_map.mpr ⟨q, hq, by rw [hname, (hsame p hp q.2).mp hpq]⟩
    refine (List.subperm_of_subset hnodup hsubset).perm_of_length_le ?_
    rw [List.length_map, List.length_map, hlength]
  · intro hperm
    have hnames' : (qs.map Prod.fst).Nodup := by
      have hfsts := hperm.map Prod.fst
      rw [map_fst_map_entry, map_fst_map_entry] at hfsts
      exact hfsts.nodup_iff.mp hnames
    refine ⟨by simpa using hperm.length_eq, fun p hp => ?_⟩
    obtain ⟨q, hq, heq⟩ := List.mem_map.mp (hperm.subset (List.mem_map_of_mem hp))
    obtain ⟨hname, hform⟩ := Prod.mk.inj heq
    exact ⟨q, (Keyed.find?_eq_some_iff Prod.fst hnames').mpr ⟨hq, hname⟩,
      (hsame p hp q.2).mpr hform.symm⟩

-- The recursion is on the first argument, at whose every level no name stands twice.
mutual

theorem Reference.same_iff (a b : Reference) (ha : a.propertiesDiffer) :
    a.same b ↔ a.sorted = b.sorted := by
  match a, b with
  | .key _, .key _ => simp [Reference.same, Reference.sorted]
  | .inline t, .inline u =>
      simpa [Reference.same, Reference.sorted] using
        ContentType.same_iff t u ha
  | .key _, .inline _ | .inline _, .key _ => simp [Reference.same, Reference.sorted]

theorem sameReferences_iff (as bs : List Reference) (has : referencesDiffer as) :
    sameReferences as bs ↔ sortedReferences as = sortedReferences bs := by
  match as, bs with
  | [], [] => simp [sameReferences]
  | a :: as, b :: bs =>
      rw [referencesDiffer, Bool.and_eq_true] at has
      rw [sameReferences, Bool.and_eq_true, sortedReferences, sortedReferences,
        List.cons.injEq, Reference.same_iff a b has.1, sameReferences_iff as bs has.2]
  | [], _ :: _ | _ :: _, [] => simp [sameReferences, sortedReferences]

theorem sameOptionalReferences_iff (as? bs? : Option (List Reference))
    (has : optionalReferencesDiffer as?) :
    sameOptionalReferences as? bs? ↔
      sortedOptionalReferences as? = sortedOptionalReferences bs? := by
  match as?, bs? with
  | none, none => simp [sameOptionalReferences]
  | some as, some bs =>
      rw [sameOptionalReferences, sortedOptionalReferences, sortedOptionalReferences,
        Option.some.injEq, sameReferences_iff as bs has]
  | none, some _ | some _, none => simp [sameOptionalReferences, sortedOptionalReferences]

theorem PropertyKind.same_iff (a b : PropertyKind) (ha : a.propertiesDiffer) :
    a.same b ↔ a.sorted = b.sorted := by
  match a with
  | .component type =>
      cases b with
      | component type' =>
          rw [PropertyKind.same, PropertyKind.sorted, PropertyKind.sorted,
            PropertyKind.component.injEq, Reference.same_iff type type' ha]
      | _ => simp [PropertyKind.same, PropertyKind.sorted]
  | .content allowed restricted =>
      cases b with
      | content allowed' restricted' =>
          rw [PropertyKind.propertiesDiffer, Bool.and_eq_true] at ha
          rw [PropertyKind.same, PropertyKind.sorted, PropertyKind.sorted,
            PropertyKind.content.injEq, Bool.and_eq_true,
            sameOptionalReferences_iff allowed allowed' ha.1,
            sameOptionalReferences_iff restricted restricted' ha.2]
      | _ => simp [PropertyKind.same, PropertyKind.sorted]
  | .array item =>
      cases b with
      | array item' =>
          rw [PropertyKind.same, PropertyKind.sorted, PropertyKind.sorted,
            PropertyKind.array.injEq, Property.same_iff item item' ha]
      | _ => simp [PropertyKind.same, PropertyKind.sorted]
  | .string | .boolean | .integer | .float | .binary | .json | .dateTime | .richText | .url
  | .link | .contentReference => cases b <;> simp [PropertyKind.same, PropertyKind.sorted]

theorem Property.same_iff (a b : Property) (ha : a.propertiesDiffer) :
    a.same b ↔ a.sorted = b.sorted := by
  match a, b with
  | ⟨kind, indexing⟩, ⟨kind', indexing'⟩ =>
      rw [Property.same, Property.sorted, Property.sorted, Property.mk.injEq,
        Bool.and_eq_true, decide_eq_true_iff, PropertyKind.same_iff kind kind' ha]

theorem eachProperty_same_iff (ps : List (String × Property)) (hps : eachPropertyDiffers ps) :
    ∀ p ∈ ps, ∀ q, p.2.same q ↔ p.2.sorted = q.sorted := by
  match ps with
  | [] => simp
  | (name, p) :: ps =>
      rw [eachPropertyDiffers, Bool.and_eq_true] at hps
      rw [List.forall_mem_cons]
      exact ⟨fun q => Property.same_iff p q hps.1, eachProperty_same_iff ps hps.2⟩

theorem ContentType.same_iff (a b : ContentType) (ha : a.propertiesDiffer) :
    a.same b ↔ a.sorted = b.sorted := by
  match a, b with
  | ⟨key, baseType, displayName, properties, behaviors, mayContain⟩,
    ⟨key', baseType', displayName', properties', behaviors', mayContain'⟩ =>
      obtain ⟨hnames, heach, hmayContain⟩ := (ContentType.propertiesDiffer_iff _).mp ha
      have hproperties : properties.length = properties'.length ∧
          propertiesWithin properties properties' ↔
            byName (eachPropertySorted properties) =
              byName (eachPropertySorted properties') := by
        rw [byName_eq_iff (by rw [map_fst_eachPropertySorted]; exact hnames),
          eachPropertySorted_eq_map, eachPropertySorted_eq_map]
        exact propertiesWithin_iff_perm hnames (eachProperty_same_iff properties heach)
      simp only [ContentType.same, ContentType.sorted, Bool.and_eq_true,
        decide_eq_true_iff, ContentType.mk.injEq, hproperties,
        sameReferences_iff mayContain mayContain' hmayContain, and_assoc]

end

/-! ### Reordering -/

theorem map_perm_map_iff_exists {α β : Type} (f : α → β) (xs ys : List α) :
    (xs.map f).Perm (ys.map f) ↔ ∃ zs : List α, xs.map f = zs.map f ∧ zs.Perm ys := by
  constructor
  · intro h
    have hvalues : List.Forall₂ (fun z y => z = f y) (ys.map f) ys := by
      rw [List.forall₂_map_left_iff, List.forall₂_same]
      exact fun _ _ => rfl
    obtain ⟨zs, hzs, hperm⟩ := List.perm_comp_forall₂ h hvalues
    refine ⟨zs, ?_, hperm⟩
    rwa [← List.forall₂_eq_eq_eq, List.forall₂_map_right_iff]
  · rintro ⟨zs, heq, hperm⟩
    rw [heq]
    exact hperm.map f

mutual

theorem Reference.reordered_iff (a b : Reference) (ha : a.propertiesDiffer) :
    a.Reordered b ↔ a.sorted = b.sorted := by
  match a, b with
  | .key name, .key name' =>
      rw [Reference.sorted, Reference.sorted, Reference.key.injEq]
      constructor
      · rintro ⟨⟩
        rfl
      · rintro rfl
        exact .key name
  | .inline t, .inline u =>
      rw [Reference.sorted, Reference.sorted, Reference.inline.injEq,
        ← ContentType.reordered_iff t u ha]
      constructor
      · intro h
        cases h with
        | inline h => exact h
      · exact .inline
  | .key _, .inline _ | .inline _, .key _ =>
      refine iff_of_false ?_ (by simp [Reference.sorted])
      rintro ⟨⟩

theorem forall₂_reordered_iff (as bs : List Reference) (has : referencesDiffer as) :
    List.Forall₂ Reference.Reordered as bs ↔ sortedReferences as = sortedReferences bs := by
  match as, bs with
  | [], [] => simp
  | a :: as, b :: bs =>
      rw [referencesDiffer, Bool.and_eq_true] at has
      rw [List.forall₂_cons, sortedReferences, sortedReferences, List.cons.injEq,
        Reference.reordered_iff a b has.1, forall₂_reordered_iff as bs has.2]
  | [], _ :: _ | _ :: _, [] => simp [sortedReferences]

theorem rel_reordered_iff (as? bs? : Option (List Reference)) (has : optionalReferencesDiffer as?) :
    Option.Rel (List.Forall₂ Reference.Reordered) as? bs? ↔
      sortedOptionalReferences as? = sortedOptionalReferences bs? := by
  match as?, bs? with
  | none, none => simp
  | some as, some bs =>
      rw [Option.rel_some_some, sortedOptionalReferences, sortedOptionalReferences,
        Option.some.injEq, forall₂_reordered_iff as bs has]
  | none, some _ | some _, none => simp [sortedOptionalReferences]

theorem PropertyKind.reordered_iff (a b : PropertyKind) (ha : a.propertiesDiffer) :
    a.Reordered b ↔ a.sorted = b.sorted := by
  match a with
  | .component type =>
      constructor
      · intro h
        cases h with
        | refl => rfl
        | component h =>
            exact congrArg PropertyKind.component ((Reference.reordered_iff type _ ha).mp h)
      · intro h
        cases b with
        | component type' =>
            exact .component ((Reference.reordered_iff type type' ha).mpr
              (PropertyKind.component.inj h))
        | _ => simp [PropertyKind.sorted] at h
  | .content allowed restricted =>
      rw [PropertyKind.propertiesDiffer, Bool.and_eq_true] at ha
      constructor
      · intro h
        cases h with
        | refl => rfl
        | content hallowed hrestricted =>
            exact congrArg₂ PropertyKind.content ((rel_reordered_iff allowed _ ha.1).mp hallowed)
              ((rel_reordered_iff restricted _ ha.2).mp hrestricted)
      · intro h
        cases b with
        | content allowed' restricted' =>
            obtain ⟨hallowed, hrestricted⟩ := PropertyKind.content.inj h
            exact .content ((rel_reordered_iff allowed allowed' ha.1).mpr hallowed)
              ((rel_reordered_iff restricted restricted' ha.2).mpr hrestricted)
        | _ => simp [PropertyKind.sorted] at h
  | .array item =>
      constructor
      · intro h
        cases h with
        | refl => rfl
        | array h => exact congrArg PropertyKind.array ((Property.reordered_iff item _ ha).mp h)
      · intro h
        cases b with
        | array item' =>
            exact .array ((Property.reordered_iff item item' ha).mpr (PropertyKind.array.inj h))
        | _ => simp [PropertyKind.sorted] at h
  | .string | .boolean | .integer | .float | .binary | .json | .dateTime | .richText | .url
  | .link | .contentReference =>
      constructor
      · rintro ⟨⟩
        rfl
      · intro h
        cases b <;> first | exact .refl _ | simp [PropertyKind.sorted] at h

theorem Property.reordered_iff (a b : Property) (ha : a.propertiesDiffer) :
    a.Reordered b ↔ a.sorted = b.sorted := by
  match a, b with
  | ⟨kind, indexing⟩, ⟨kind', indexing'⟩ =>
      rw [Property.sorted, Property.sorted, Property.mk.injEq,
        ← PropertyKind.reordered_iff kind kind' ha]
      constructor
      · rintro ⟨h, _⟩
        exact ⟨h, rfl⟩
      · rintro ⟨h, rfl⟩
        exact .mk h indexing

theorem forall₂_entryReordered_iff (ps qs : List (String × Property))
    (hps : eachPropertyDiffers ps) :
    List.Forall₂ EntryReordered ps qs ↔ eachPropertySorted ps = eachPropertySorted qs := by
  match ps, qs with
  | [], [] => simp
  | (name, p) :: ps, (name', q) :: qs =>
      rw [eachPropertyDiffers, Bool.and_eq_true] at hps
      have hentry : EntryReordered (name, p) (name', q) ↔ name = name' ∧ p.sorted = q.sorted := by
        rw [← Property.reordered_iff p q hps.1]
        constructor
        · rintro ⟨_, h⟩
          exact ⟨rfl, h⟩
        · rintro ⟨rfl, h⟩
          exact .mk name h
      rw [List.forall₂_cons, eachPropertySorted, eachPropertySorted, List.cons.injEq,
        Prod.mk.injEq, hentry, forall₂_entryReordered_iff ps qs hps.2]
  | [], _ :: _ | _ :: _, [] => simp [eachPropertySorted]

theorem ContentType.reordered_iff (a b : ContentType) (ha : a.propertiesDiffer) :
    a.Reordered b ↔ a.sorted = b.sorted := by
  match a, b with
  | ⟨key, baseType, displayName, properties, behaviors, mayContain⟩,
    ⟨key', baseType', displayName', properties', behaviors', mayContain'⟩ =>
      obtain ⟨hnames, heach, hmayContain⟩ := (ContentType.propertiesDiffer_iff _).mp ha
      have hproperties :
          byName (eachPropertySorted properties) = byName (eachPropertySorted properties') ↔
            ∃ inPlace, List.Forall₂ EntryReordered properties inPlace ∧
              inPlace.Perm properties' := by
        rw [byName_eq_iff (by rw [map_fst_eachPropertySorted]; exact hnames),
          eachPropertySorted_eq_map, eachPropertySorted_eq_map, map_perm_map_iff_exists]
        simp only [← eachPropertySorted_eq_map, forall₂_entryReordered_iff properties _ heach]
      rw [ContentType.sorted, ContentType.sorted, ContentType.mk.injEq, hproperties,
        ← forall₂_reordered_iff mayContain mayContain' hmayContain]
      constructor
      · rintro ⟨_, _, _, _, heach, horder, hmayContain⟩
        exact ⟨rfl, rfl, rfl, ⟨_, heach, horder⟩, rfl, hmayContain⟩
      · rintro ⟨rfl, rfl, rfl, ⟨inPlace, heach, horder⟩, rfl, hmayContain⟩
        exact .mk key baseType displayName behaviors heach horder hmayContain

end

/-! ### Comparison -/

theorem ContentType.same_equivalence :
    Equivalence fun a b : Declaration => a.1.same b.1 = true := by
  have hsame : (fun a b : Declaration => a.1.same b.1 = true) =
      fun a b => a.1.sorted = b.1.sorted := by
    funext a b
    exact propext (ContentType.same_iff a.1 b.1 a.2)
  rw [hsame]
  exact ⟨fun _ => rfl, Eq.symm, Eq.trans⟩

theorem sameReferences_iff_forall₂ (as bs : List Reference) :
    sameReferences as bs ↔ List.Forall₂ (fun a b => a.same b) as bs := by
  induction as generalizing bs with
  | nil => cases bs <;> simp [sameReferences]
  | cons a as ih => cases bs <;> simp [sameReferences, ih]

theorem sameOptionalReferences_iff_rel (as? bs? : Option (List Reference)) :
    sameOptionalReferences as? bs? ↔
      Option.Rel (List.Forall₂ fun a b => a.same b) as? bs? := by
  cases as? <;> cases bs? <;> simp [sameOptionalReferences, sameReferences_iff_forall₂]

theorem ContentType.lists_of_same {a b : ContentType} (h : a.same b) :
    a.behaviors = b.behaviors ∧
      List.Forall₂ (fun r s => r.same s) a.mayContain b.mayContain := by
  obtain ⟨key, baseType, displayName, properties, behaviors, mayContain⟩ := a
  simp only [ContentType.same, Bool.and_eq_true, decide_eq_true_iff] at h
  exact ⟨h.1.2, (sameReferences_iff_forall₂ _ _).mp h.2⟩

/-- Declarations are the same exactly if sorting their properties by name at every level makes them
equal, that is if they differ at most in the order of properties. Being the same is an equivalence.
It minds the order of behaviors and references, tells an absent list from an empty one, and tells a
key from the declaration that it stands for. -/
theorem ContentType.same_iff_sorted_eq :
    (∀ a b : Declaration, a.1.same b.1 ↔ a.1.sorted = b.1.sorted) ∧
      (∀ a b : Declaration, a.1.same b.1 ↔ a.1.Reordered b.1) ∧
      Equivalence (fun a b : Declaration => a.1.same b.1 = true) ∧
      (∀ a b : Declaration, a.1.same b.1 → a.1.behaviors = b.1.behaviors ∧
        List.Forall₂ (fun r s => r.same s) a.1.mayContain b.1.mayContain) ∧
      (∀ allowed restricted allowed' restricted',
        (PropertyKind.content allowed restricted).same (.content allowed' restricted') ↔
          Option.Rel (List.Forall₂ fun r s => r.same s) allowed allowed' ∧
            Option.Rel (List.Forall₂ fun r s => r.same s) restricted restricted') ∧
      ∀ name declaration, Reference.same (.key name) (.inline declaration) = false ∧
        Reference.same (.inline declaration) (.key name) = false := by
  refine ⟨fun a b => ContentType.same_iff a.1 b.1 a.2, fun a b => ?_, ContentType.same_equivalence,
    fun a b => ContentType.lists_of_same, ?_, fun _ _ => ⟨rfl, rfl⟩⟩
  · rw [ContentType.same_iff a.1 b.1 a.2, ContentType.reordered_iff a.1 b.1 a.2]
  · intro allowed restricted allowed' restricted'
    rw [PropertyKind.same, Bool.and_eq_true, sameOptionalReferences_iff_rel,
      sameOptionalReferences_iff_rel]

/-- A page with teasers, whose properties are declared in its place. -/
def teaserPage (teaserProperties : List (String × Property)) : ContentType :=
  (ContentType.ofKey "Page" .page).withProperty "teasers"
    (.ofKind (.array (.ofKind (.content
      (some [.inline { ContentType.ofKey "Teaser" .component with
        properties := teaserProperties }]) none))))

theorem ContentType.propertiesDiffer_teaserPage {teaserProperties : List (String × Property)}
    (hnames : (teaserProperties.map Prod.fst).Nodup) (heach : eachPropertyDiffers teaserProperties) :
    (teaserPage teaserProperties).propertiesDiffer := by
  refine propertiesDiffer_withProperty "teasers" (by decide) ?_
  simp [Property.ofKind, Property.propertiesDiffer, PropertyKind.propertiesDiffer,
    optionalReferencesDiffer, referencesDiffer, Reference.propertiesDiffer, propertiesDiffer_iff,
    hnames, heach, ContentType.ofKey]

/-- Two orders of a teaser's properties make one page. -/
theorem ContentType.sorted_teaserPage :
    (teaserPage [("title", .ofKind .string), ("text", .ofKind .richText)]).sorted =
      (teaserPage [("text", .ofKind .richText), ("title", .ofKind .string)]).sorted :=
  (same_iff_sorted_eq.1 ⟨_, propertiesDiffer_teaserPage (by decide) (by decide)⟩
    ⟨_, propertiesDiffer_teaserPage (by decide) (by decide)⟩).mp (by decide)

end ContentQuery
