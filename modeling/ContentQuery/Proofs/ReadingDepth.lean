import ContentQuery.Manifest.Parse
import ContentQuery.Proofs.JsonText

namespace ContentQuery

namespace Json

/-- If the first outcome is a value that fits, the other one is the same. -/
def Kept {α : Type} (fits : α → Prop) (outcome outcome' : Except Fault α) : Prop :=
  ∀ a, outcome = .ok a → fits a → outcome' = .ok a

namespace Kept

variable {α β : Type} {fits : α → Prop} {fits' : β → Prop} {outcome outcome' : Except Fault α}

theorem refl (fits : α → Prop) (outcome : Except Fault α) : Kept fits outcome outcome :=
  fun _ h _ => h

theorem bind {next next' : α → Except Fault β} (h : Kept fits outcome outcome')
    (hfits : ∀ a b, next a = .ok b → fits' b → fits a)
    (hnext : ∀ a, Kept fits' (next a) (next' a)) :
    Kept fits' (outcome >>= next) (outcome' >>= next') := by
  intro b hb hfit
  cases houtcome : outcome with
  | error fault =>
      rw [houtcome] at hb
      cases hb
  | ok a =>
      rw [houtcome] at hb
      rw [h a houtcome (hfits a b hb hfit)]
      exact hnext a b hb hfit

theorem map {f : α → β} (h : Kept fits outcome outcome') (hfits : ∀ a, fits' (f a) → fits a) :
    Kept fits' (outcome >>= fun a => return f a) (outcome' >>= fun a => return f a) := by
  refine h.bind ?_ fun a => .refl _ _
  intro a b hb hfit
  obtain rfl := Except.ok.inj hb
  exact hfits a hfit

end Kept

/-- The values that fit and that the first reader takes off are taken off by the other one. -/
def Keeps {α : Type} (fits : α → Prop) (item item' : Reader α) : Prop :=
  ∀ cs, Kept (fun taken => fits taken.1) (item cs) (item' cs)

section Lists

variable {α : Type} {fits : α → Prop}

theorem mem_of_more {more : Except Fault (List α × List Char)} {a : α}
    {taken : List α × List Char}
    (h : (more >>= fun found => return (a :: found.1, found.2)) = .ok taken) : a ∈ taken.1 := by
  cases more with
  | error fault => cases h
  | ok found =>
      obtain rfl := Except.ok.inj h
      exact List.mem_cons_self

theorem Kept.cons {first first' : Except Fault (α × List Char)} {more more' : Reader (List α)}
    (hfirst : Kept (fun taken => fits taken.1) first first')
    (hmore : Keeps (fun found => ∀ a ∈ found, fits a) more more') :
    Kept (fun taken => ∀ a ∈ taken.1, fits a)
      (do
        let (a, rest) ← first
        let (found, rest) ← more rest
        return (a :: found, rest))
      (do
        let (a, rest) ← first'
        let (found, rest) ← more' rest
        return (a :: found, rest)) := by
  refine hfirst.bind ?_ ?_
  · exact fun first taken htaken hfits => hfits first.1 (mem_of_more htaken)
  · rintro ⟨a, rest⟩
    exact (hmore rest).map fun found hfits => (List.forall_mem_cons.mp hfits).2

theorem Keeps.gather {step step' : Reader (Option α)}
    (h : Keeps (fun found => ∀ a ∈ found, fits a) step step') (n : Nat) :
    Keeps (fun found => ∀ a ∈ found, fits a) (gather step n) (gather step' n) := by
  induction n with
  | zero => exact fun cs => .refl _ _
  | succ n ih =>
      intro cs
      refine (h cs).bind ?_ ?_
      · rintro ⟨_ | a, rest⟩ taken htaken hfits
        · simp
        · simpa using hfits a (mem_of_more htaken)
      · rintro ⟨_ | a, rest⟩
        · exact .refl _ _
        · exact (ih rest).map fun found hfits => (List.forall_mem_cons.mp hfits).2

end Lists

section Parts

variable {item item' : Reader Json} {fits : Json → Prop}

theorem Keeps.nextItem (h : Keeps fits item item') :
    Keeps (fun found => ∀ v ∈ found, fits v) (readNextItem item) (readNextItem item') := by
  intro cs
  unfold readNextItem
  split
  case h_3 =>
    split
    case h_3 => exact (h _).map fun taken hfits => hfits taken.1 rfl
    all_goals exact .refl _ _
  all_goals exact .refl _ _

theorem Keeps.items (h : Keeps fits item item') :
    Keeps (fun items => ∀ v ∈ items, fits v) (readItems item) (readItems item') := by
  intro cs
  unfold readItems
  split
  case h_3 => exact (h _).cons fun rest => h.nextItem.gather _ rest
  all_goals exact .refl _ _

theorem Keeps.member (h : Keeps fits item item') :
    Keeps (fun member => fits member.2) (readMember item) (readMember item') := by
  intro cs
  unfold readMember
  split
  · refine (Kept.refl (fun _ => True) _).bind (fun _ _ _ _ => trivial) ?_
    rintro ⟨name, rest⟩
    dsimp only
    split
    case h_2 => exact (h _).map fun taken hfits => hfits
    all_goals exact .refl _ _
  · exact .refl _ _

theorem Keeps.nextMember (h : Keeps fits item item') :
    Keeps (fun found => ∀ member ∈ found, fits member.2) (readNextMember item)
      (readNextMember item') := by
  intro cs
  unfold readNextMember
  split
  case h_3 =>
    split
    case h_3 => exact (h.member _).map fun taken hfits => hfits taken.1 rfl
    all_goals exact .refl _ _
  all_goals exact .refl _ _

theorem Keeps.members (h : Keeps fits item item') :
    Keeps (fun members => ∀ member ∈ members, fits member.2) (readMembers item)
      (readMembers item') := by
  intro cs
  unfold readMembers
  split
  case h_3 => exact (h.member _).cons fun rest => h.nextMember.gather _ rest
  all_goals exact .refl _ _

/-- The parts of a list or an object, if there is a reader for them. -/
def readParts {α : Type} (read : Reader Json → Except Fault (α × List Char)) (make : α → Json)
    (fault : Fault) : Option (Reader Json) → Except Fault (Json × List Char)
  | none => .error fault
  | some part => do
      let (a, rest) ← read part
      return (make a, rest)

variable {part? part'? : Option (Reader Json)} {depth : Nat}

theorem Kept.parts {α : Type} (read : Reader Json → Except Fault (α × List Char))
    (make : α → Json) (fault : Fault) (hpos : ∀ a, 0 < (make a).nesting)
    (hparts : ∀ part, part? = some part → 0 < depth →
      ∃ part', part'? = some part' ∧ Keeps (fun v => v.nesting < depth) part part')
    (hread : ∀ part part', Keeps (fun v => v.nesting < depth) part part' →
      Kept (fun taken => (make taken.1).nesting ≤ depth) (read part) (read part')) :
    Kept (fun taken => taken.1.nesting ≤ depth) (readParts read make fault part?)
      (readParts read make fault part'?) := by
  cases part? with
  | none => exact fun taken htaken => nomatch htaken
  | some part =>
      rcases Nat.eq_zero_or_pos depth with rfl | hdepth
      · -- No list or object fits.
        intro taken htaken hfits
        cases hresult : read part with
        | error fault =>
            rw [readParts, hresult] at htaken
            cases htaken
        | ok a =>
            rw [readParts, hresult] at htaken
            obtain rfl := Except.ok.inj htaken
            exact absurd hfits (Nat.not_le.mpr (hpos a.1))
      · obtain ⟨part', rfl, hkeeps⟩ := hparts part rfl hdepth
        exact (hread part part' hkeeps).map fun taken hfits => hfits

theorem Keeps.value (h : ∀ part, part? = some part → 0 < depth →
      ∃ part', part'? = some part' ∧ Keeps (fun v => v.nesting < depth) part part') :
    Keeps (fun v => v.nesting ≤ depth) (readWith part?) (readWith part'?) := by
  intro cs
  unfold readWith
  split
  · exact .refl _ _
  · dsimp only
    split
    case h_5 =>
      refine Kept.parts (readItems · _) .array _ (fun _ => Nat.succ_pos _) h
        fun part part' hkeeps taken htaken hfits => ?_
      exact hkeeps.items _ _ htaken fun v hv =>
        Nat.lt_of_le_of_lt (nestingItems_le_iff.mp (Nat.le_refl _) v hv) hfits
    case h_6 =>
      refine Kept.parts (readMembers · _) .object _ (fun _ => Nat.succ_pos _) h
        fun part part' hkeeps taken htaken hfits => ?_
      exact hkeeps.members _ _ htaken fun member hmember =>
        Nat.lt_of_le_of_lt (nestingMembers_le_iff.mp (Nat.le_refl _) member hmember) hfits
    all_goals exact .refl _ _

theorem readValue_of_nesting_le (depth depth' : Nat) :
    Keeps (fun v : Json => v.nesting ≤ depth') (readValue depth) (readValue depth') := by
  induction depth generalizing depth' with
  | zero => cases depth' <;> exact Keeps.value nofun
  | succ depth ih =>
      cases depth' with
      | zero => exact .value fun _ _ hpos => absurd hpos (Nat.lt_irrefl 0)
      | succ depth' =>
          refine .value ?_
          rintro part ⟨⟩ -
          exact ⟨_, rfl, fun cs taken htaken hfits =>
            ih depth' cs taken htaken (Nat.le_of_lt_succ hfits)⟩

end Parts

/-- Whether a text is that of a value, for a reader that goes deep enough. A text with a number that
is out of range is that of no value. -/
def IsSpelled (value : Json) (text : String) : Prop :=
  ∃ depth rest, readValue depth text.toList = .ok (value, rest) ∧ skipSpace rest = []

theorem isSpelled_write {value : Json} (h : value.isNumberless) : value.IsSpelled value.write := by
  refine ⟨value.nesting, [], ?_, rfl⟩
  simpa [write] using readValue_writeChars value value.nesting h (Nat.le_refl _) []

end Json

namespace Manifest

/-- A text is parsed by decoding the value that it spells. -/
theorem parse_of_isSpelled {text : String} {value : Json} (h : value.IsSpelled text)
    (hdepth : value.nesting ≤ Json.maxNesting) :
    parse text = (decodeManifest value).elim (.error .shape) .ok := by
  obtain ⟨depth, rest, hread, hspace⟩ := h
  have hread := Json.readValue_of_nesting_le depth Json.maxNesting text.toList (value, rest) hread
    hdepth
  rw [parse, parseChars, Json.read, hread]
  cases hdecode : decodeManifest value with
  | none => simp [hdecode]
  | some declarations => simp [hdecode, hspace]

end Manifest

end ContentQuery
