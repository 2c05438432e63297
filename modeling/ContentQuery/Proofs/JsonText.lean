import Mathlib.Data.List.Basic
import ContentQuery.Json.Reader
import ContentQuery.Json.Writer

namespace ContentQuery.Json

mutual

/-- How deep lists and objects are nested in a value. -/
def nesting : Json → Nat
  | .array items => nestingItems items + 1
  | .object members => nestingMembers members + 1
  | _ => 0

def nestingItems : List Json → Nat
  | [] => 0
  | item :: rest => max (nesting item) (nestingItems rest)

def nestingMembers : List (String × Json) → Nat
  | [] => 0
  | (_, value) :: rest => max (nesting value) (nestingMembers rest)

end

mutual

/-- Whether no number stands in a value. -/
def isNumberless : Json → Bool
  | .number _ => false
  | .array items => areNumberless items
  | .object members => membersNumberless members
  | _ => true

def areNumberless : List Json → Bool
  | [] => true
  | item :: rest => isNumberless item && areNumberless rest

def membersNumberless : List (String × Json) → Bool
  | [] => true
  | (_, value) :: rest => isNumberless value && membersNumberless rest

end

theorem nestingItems_le_iff {items : List Json} {depth : Nat} :
    nestingItems items ≤ depth ↔ ∀ v ∈ items, v.nesting ≤ depth := by
  induction items with
  | nil => simp [nestingItems]
  | cons item items ih => rw [nestingItems, Nat.max_le, ih, List.forall_mem_cons]

theorem nestingMembers_le_iff {members : List (String × Json)} {depth : Nat} :
    nestingMembers members ≤ depth ↔ ∀ member ∈ members, member.2.nesting ≤ depth := by
  induction members with
  | nil => simp [nestingMembers]
  | cons member members ih => rw [nestingMembers, Nat.max_le, ih, List.forall_mem_cons]

theorem lt_nestingItems_iff {items : List Json} {depth : Nat} :
    depth < nestingItems items ↔ ∃ v ∈ items, depth < v.nesting := by
  rw [← Nat.not_le, nestingItems_le_iff]
  simp only [not_forall, Nat.not_le, exists_prop]

theorem lt_nestingMembers_iff {members : List (String × Json)} {depth : Nat} :
    depth < nestingMembers members ↔ ∃ member ∈ members, depth < member.2.nesting := by
  rw [← Nat.not_le, nestingMembers_le_iff]
  simp only [not_forall, Nat.not_le, exists_prop]

/-- The reading stops because lists and objects are nested deeper than the reader goes. -/
def StopsAtLimit {α : Type} (outcome : Except Fault α) : Prop :=
  ∃ left, outcome = .error ⟨.nestingLimit, left⟩

theorem StopsAtLimit.bind {α β : Type} {outcome : Except Fault α} (h : StopsAtLimit outcome)
    (next : α → Except Fault β) : StopsAtLimit (outcome >>= next) := by
  obtain ⟨left, rfl⟩ := h
  exact ⟨left, rfl⟩

/-! ### Repetition -/

section Gather

variable {α : Type} {step : Reader (Option α)} {piece : α → List Char} {close rest : List Char}

theorem gather_pieces {xs : List α}
    (hpiece : ∀ x ∈ xs, ∀ after, step (piece x ++ after) = .ok (some x, after))
    (hclose : step (close ++ rest) = .ok (none, rest)) {n : Nat} (hn : xs.length < n) :
    gather step n (xs.flatMap piece ++ (close ++ rest)) = .ok (xs, rest) := by
  induction xs generalizing n with
  | nil =>
      cases n with
      | zero => exact absurd hn (Nat.not_lt_zero _)
      | succ n =>
          rw [List.flatMap_nil, List.nil_append, gather, hclose]
          rfl
  | cons x xs ih =>
      cases n with
      | zero => exact absurd hn (Nat.not_lt_zero _)
      | succ n =>
          have hmore := ih (fun y hy => hpiece y (List.mem_cons_of_mem x hy))
            (Nat.lt_of_succ_lt_succ hn)
          rw [List.flatMap_cons, List.append_assoc, gather, hpiece x List.mem_cons_self]
          simp only [bind, Except.bind, hmore]
          rfl

theorem length_le_flatMap {xs : List α} (hne : ∀ x ∈ xs, piece x ≠ []) :
    xs.length ≤ (xs.flatMap piece).length := by
  induction xs with
  | nil => exact Nat.zero_le _
  | cons x xs ih =>
      have hx := List.length_pos_of_ne_nil (hne x List.mem_cons_self)
      have hxs := ih fun y hy => hne y (List.mem_cons_of_mem x hy)
      rw [List.flatMap_cons, List.length_append, List.length_cons]
      omega

theorem gatherAll_pieces {xs : List α} (hne : ∀ x ∈ xs, piece x ≠ [])
    (hpiece : ∀ x ∈ xs, ∀ after, step (piece x ++ after) = .ok (some x, after))
    (hclose : step (close ++ rest) = .ok (none, rest)) :
    gatherAll step (xs.flatMap piece ++ (close ++ rest)) = .ok (xs, rest) := by
  refine gather_pieces hpiece hclose ?_
  have hlength := length_le_flatMap hne
  rw [List.length_append]
  omega

theorem gather_stops {xs : List α} {tail : List Char}
    (hpiece : ∀ x ∈ xs, (∀ after, step (piece x ++ after) = .ok (some x, after)) ∨
      ∀ after, StopsAtLimit (step (piece x ++ after)))
    (hstop : ∃ x ∈ xs, ∀ after, StopsAtLimit (step (piece x ++ after))) {n : Nat}
    (hn : xs.length < n) : StopsAtLimit (gather step n (xs.flatMap piece ++ tail)) := by
  induction xs generalizing n with
  | nil => simp at hstop
  | cons x xs ih =>
      cases n with
      | zero => exact absurd hn (Nat.not_lt_zero _)
      | succ n =>
          rw [List.flatMap_cons, List.append_assoc, gather]
          rw [List.forall_mem_cons] at hpiece
          rw [List.exists_mem_cons_iff] at hstop
          rcases hstop with hstops | hlater
          · exact (hstops _).bind _
          rcases hpiece.1 with hread | hstops
          · rw [hread]
            exact (ih hpiece.2 hlater (Nat.lt_of_succ_lt_succ hn)).bind _
          · exact (hstops _).bind _

theorem gatherAll_stops {xs : List α} {tail : List Char} (hne : ∀ x ∈ xs, piece x ≠ [])
    (hpiece : ∀ x ∈ xs, (∀ after, step (piece x ++ after) = .ok (some x, after)) ∨
      ∀ after, StopsAtLimit (step (piece x ++ after)))
    (hstop : ∃ x ∈ xs, ∀ after, StopsAtLimit (step (piece x ++ after))) :
    StopsAtLimit (gatherAll step (xs.flatMap piece ++ tail)) := by
  refine gather_stops hpiece hstop ?_
  have hlength := length_le_flatMap hne
  rw [List.length_append]
  omega

end Gather

/-! ### Strings -/

theorem length_le_byteCount (cs : List Char) : cs.length ≤ byteCount cs := by
  induction cs with
  | nil => exact Nat.zero_le _
  | cons c cs ih =>
      have hc := c.utf8Size_pos
      simp only [byteCount, List.map_cons, List.foldr_cons, List.length_cons] at ih ⊢
      omega

theorem readHexQuad_hexPair {n : Nat} (hn : n < 0x100) (rest : List Char) :
    readHexQuad ('0' :: '0' :: (Text.hexPair n ++ rest)) = .ok (n, rest) := by
  have hzero : Text.hexValue? '0' = some 0 := rfl
  have hhigh := Text.hexValue?_digitChar (n / 16 % 16) (Nat.mod_lt _ (by decide))
  have hlow := Text.hexValue?_digitChar (n % 16) (Nat.mod_lt _ (by decide))
  have hdigits : (('0' :: '0' :: (Text.hexPair n ++ rest)).take 4).mapM Text.hexValue? =
      some [0, 0, n / 16 % 16, n % 16] := by
    simp [Text.hexPair, hzero, hhigh, hlow]
  have hvalue : [0, 0, n / 16 % 16, n % 16].foldl (fun n d => n * 16 + d) 0 = n := by
    simp only [List.foldl_cons, List.foldl_nil]
    omega
  have hcount : 4 ≤ byteCount (('0' :: '0' :: (Text.hexPair n ++ rest)).take 4) := by
    refine Nat.le_trans (Nat.le_of_eq ?_) (length_le_byteCount _)
    simp [Text.hexPair]
  rw [readHexQuad, if_neg (Nat.not_lt.mpr hcount), hdigits]
  simp only [hvalue]
  rfl

theorem readEscape_code {c : Char} (hc : c.toNat < 0x20) (rest : List Char) :
    readEscape ('u' :: '0' :: '0' :: (Text.hexPair c.toNat ++ rest)) = .ok (c, rest) := by
  have hquad := readHexQuad_hexPair (n := c.toNat) (by omega) rest
  have hlow : isLowSurrogate c.toNat = false := by
    simp only [isLowSurrogate, Bool.and_eq_false_iff, decide_eq_false_iff_not]
    omega
  have hhigh : isHighSurrogate c.toNat = false := by
    simp only [isHighSurrogate, Bool.and_eq_false_iff, decide_eq_false_iff_not]
    omega
  rw [readEscape, if_pos rfl, readCode, hquad]
  simp [bind, Except.bind, hlow, hhigh, pure, Except.pure]

theorem eq_ofNat_of_toNat {c : Char} {n : Nat} (h : c.toNat = n) : c = Char.ofNat n :=
  (Char.ofNat_toNat c).symm.trans (congrArg Char.ofNat h)

theorem readStringStep_writeChar (c : Char) (rest : List Char) :
    readStringStep (writeChar c ++ rest) = .ok (some c, rest) := by
  unfold writeChar
  split
  · subst_vars
    rfl
  split
  · subst_vars
    rfl
  split
  · rename_i hc
    rw [eq_ofNat_of_toNat hc]
    rfl
  split
  · rename_i hc
    rw [eq_ofNat_of_toNat hc]
    rfl
  split
  · subst_vars
    rfl
  split
  · subst_vars
    rfl
  split
  · subst_vars
    rfl
  split
  · rename_i hc
    have hescape := readEscape_code hc rest
    change readStringStep ('\\' :: 'u' :: '0' :: '0' :: (Text.hexPair c.toNat ++ rest)) = _
    rw [readStringStep, if_neg (by decide), if_pos rfl, hescape]
    rfl
  · -- What needs no escape stands for itself.
    rename_i hquote hbackslash _ _ _ _ _ hcontrol
    rw [List.singleton_append, readStringStep, if_neg hquote, if_neg hbackslash, if_neg hcontrol]

theorem writeChar_ne_nil (c : Char) : writeChar c ≠ [] := by
  unfold writeChar
  repeat' split
  all_goals simp

theorem readString_writeString (s : String) (rest : List Char) :
    readString (s.toList.flatMap writeChar ++ ('"' :: rest)) = .ok (s, rest) := by
  have hchars : gatherAll readStringStep (s.toList.flatMap writeChar ++ (['"'] ++ rest)) =
      .ok (s.toList, rest) :=
    gatherAll_pieces (fun c _ => writeChar_ne_nil c)
      (fun c _ after => readStringStep_writeChar c after) rfl
  rw [readString, show '"' :: rest = ['"'] ++ rest from rfl, hchars]
  simp [bind, Except.bind, pure, Except.pure]

/-! ### Lists and objects -/

theorem intercalate_cons {α : Type} (separator part : List α) (parts : List (List α)) :
    List.intercalate separator (part :: parts) =
      part ++ parts.flatMap fun part => separator ++ part := by
  induction parts generalizing part with
  | nil => simp
  | cons next parts ih =>
      rw [List.intercalate_cons_cons, ih, List.flatMap_cons]
      simp only [List.append_assoc]

theorem writeItems_eq_map (items : List Json) : writeItems items = items.map writeChars := by
  induction items with
  | nil => rfl
  | cons item rest ih => rw [writeItems, ih, List.map_cons]

def writeMember (member : String × Json) : List Char :=
  writeString member.1 ++ ':' :: writeChars member.2

theorem writeMembers_eq_map (members : List (String × Json)) :
    writeMembers members = members.map writeMember := by
  induction members with
  | nil => rfl
  | cons member rest ih => rw [writeMembers, ih, List.map_cons, writeMember]

theorem skipSpace_cons {c : Char} (h : isSpace c = false) (cs : List Char) :
    skipSpace (c :: cs) = c :: cs := by
  simp [skipSpace, h]

theorem exists_head_writeChars {v : Json} (h : v.isNumberless) :
    ∃ c cs, writeChars v = c :: cs ∧ isSpace c = false ∧ c ≠ ']' := by
  cases v with
  | null => exact ⟨'n', _, rfl, rfl, by decide⟩
  | bool value => cases value <;> exact ⟨_, _, rfl, rfl, by decide⟩
  | number lexeme => exact absurd h (by simp [isNumberless])
  | string value => exact ⟨'"', _, rfl, rfl, by decide⟩
  | array items => exact ⟨'[', _, rfl, rfl, by decide⟩
  | object members => exact ⟨'\x7b', _, rfl, rfl, by decide⟩

theorem exists_writeMember (member : String × Json) :
    ∃ cs, writeMember member = '"' :: cs := ⟨_, rfl⟩

section Steps

variable (item : Reader Json)

theorem readNextItem_writeChars {v : Json} (h : v.isNumberless) (rest : List Char) :
    readNextItem item ([','] ++ writeChars v ++ rest) = (do
      let (value, left) ← item (writeChars v ++ rest)
      return (some value, left)) := by
  obtain ⟨c, cs, hcs, hspace, hclose⟩ := exists_head_writeChars h
  rw [hcs]
  change readNextItem item (',' :: c :: (cs ++ rest)) = _
  unfold readNextItem
  simp only [skipSpace_cons (show isSpace ',' = false from rfl), skipSpace_cons hspace]
  split
  · rename_i he
    exact absurd he (by simp)
  · rename_i he
    exact absurd (List.cons.inj he).1 hclose
  · rfl

theorem readItems_writeChars {v : Json} (h : v.isNumberless) (rest : List Char) :
    readItems item (writeChars v ++ rest) = (do
      let (first, left) ← item (writeChars v ++ rest)
      let (more, left) ← gatherAll (readNextItem item) left
      return (first :: more, left)) := by
  obtain ⟨c, cs, hcs, hspace, hclose⟩ := exists_head_writeChars h
  rw [hcs, List.cons_append]
  unfold readItems
  rw [skipSpace_cons hspace]
  split
  · rename_i he
    exact absurd he (by simp)
  · rename_i he
    exact absurd (List.cons.inj he).1 hclose
  · rfl

theorem readMember_writeMember (member : String × Json) (rest : List Char) :
    readMember item (writeMember member ++ rest) = (do
      let (value, left) ← item (writeChars member.2 ++ rest)
      return ((member.1, value), left)) := by
  obtain ⟨name, value⟩ := member
  have hname := readString_writeString name (':' :: (writeChars value ++ rest))
  have htext : writeMember (name, value) ++ rest =
      '"' :: (name.toList.flatMap writeChar ++ '"' :: ':' :: (writeChars value ++ rest)) := by
    simp [writeMember, writeString]
  rw [htext, readMember, hname]
  simp only [bind, Except.bind, skipSpace_cons (show isSpace ':' = false from rfl)]

theorem readNextMember_writeMember (member : String × Json) (rest : List Char) :
    readNextMember item ([','] ++ writeMember member ++ rest) = (do
      let (value, left) ← readMember item (writeMember member ++ rest)
      return (some value, left)) := by
  obtain ⟨cs, hcs⟩ := exists_writeMember member
  rw [hcs]
  change readNextMember item (',' :: '"' :: (cs ++ rest)) = _
  unfold readNextMember
  simp only [skipSpace_cons (show isSpace ',' = false from rfl),
    skipSpace_cons (show isSpace '"' = false from rfl)]
  split
  · rename_i he
    exact absurd he (by simp)
  · rename_i he
    exact absurd (List.cons.inj he).1 (by decide)
  · rfl

theorem readMembers_writeMember (member : String × Json) (rest : List Char) :
    readMembers item (writeMember member ++ rest) = (do
      let (first, left) ← readMember item (writeMember member ++ rest)
      let (more, left) ← gatherAll (readNextMember item) left
      return (first :: more, left)) := by
  obtain ⟨cs, hcs⟩ := exists_writeMember member
  rw [hcs, List.cons_append]
  unfold readMembers
  rw [skipSpace_cons (show isSpace '"' = false from rfl)]
  split
  · rename_i he
    exact absurd he (by simp)
  · rename_i he
    exact absurd (List.cons.inj he).1 (by decide)
  · rfl

end Steps

/-- The reader takes the value off the front of its text. -/
def ReadsBack (item : Reader Json) (v : Json) : Prop :=
  v.isNumberless ∧ ∀ rest, item (writeChars v ++ rest) = .ok (v, rest)

/-- The reader stops at its limit inside the value. -/
def TooDeep (item : Reader Json) (v : Json) : Prop :=
  v.isNumberless ∧ ∀ rest, StopsAtLimit (item (writeChars v ++ rest))

section Parts

variable {item : Reader Json}

theorem ReadsBack.nextItem {v : Json} (h : ReadsBack item v) (rest : List Char) :
    readNextItem item ([','] ++ writeChars v ++ rest) = .ok (some v, rest) := by
  rw [readNextItem_writeChars item h.1, h.2]
  rfl

theorem TooDeep.nextItem {v : Json} (h : TooDeep item v) (rest : List Char) :
    StopsAtLimit (readNextItem item ([','] ++ writeChars v ++ rest)) := by
  rw [readNextItem_writeChars item h.1]
  exact (h.2 rest).bind _

theorem ReadsBack.member {member : String × Json} (h : ReadsBack item member.2)
    (rest : List Char) : readMember item (writeMember member ++ rest) = .ok (member, rest) := by
  rw [readMember_writeMember, h.2]
  rfl

theorem TooDeep.member {member : String × Json} (h : TooDeep item member.2)
    (rest : List Char) : StopsAtLimit (readMember item (writeMember member ++ rest)) := by
  rw [readMember_writeMember]
  exact (h.2 rest).bind _

theorem ReadsBack.nextMember {member : String × Json} (h : ReadsBack item member.2)
    (rest : List Char) :
    readNextMember item ([','] ++ writeMember member ++ rest) = .ok (some member, rest) := by
  rw [readNextMember_writeMember, h.member]
  rfl

theorem TooDeep.nextMember {member : String × Json} (h : TooDeep item member.2)
    (rest : List Char) :
    StopsAtLimit (readNextMember item ([','] ++ writeMember member ++ rest)) := by
  rw [readNextMember_writeMember]
  exact (h.member rest).bind _

theorem readItems_writeItems {items : List Json} (h : ∀ v ∈ items, ReadsBack item v)
    (rest : List Char) :
    readItems item (List.intercalate [','] (writeItems items) ++ ([']'] ++ rest)) =
      .ok (items, rest) := by
  rw [writeItems_eq_map]
  cases items with
  | nil => rfl
  | cons v items =>
      have hv := h v List.mem_cons_self
      have hmore : gatherAll (readNextItem item)
          (items.flatMap (fun v => [','] ++ writeChars v) ++ ([']'] ++ rest)) = .ok (items, rest) :=
        gatherAll_pieces (by simp)
          (fun v hv after => (h v (List.mem_cons_of_mem _ hv)).nextItem after) rfl
      rw [List.map_cons, intercalate_cons, List.flatMap_map, List.append_assoc,
        readItems_writeChars item hv.1, hv.2]
      simp only [bind, Except.bind, hmore]
      rfl

theorem readItems_stops {items : List Json}
    (h : ∀ v ∈ items, ReadsBack item v ∨ TooDeep item v) (hdeep : ∃ v ∈ items, TooDeep item v)
    (rest : List Char) :
    StopsAtLimit (readItems item (List.intercalate [','] (writeItems items) ++ rest)) := by
  rw [writeItems_eq_map]
  cases items with
  | nil => simp at hdeep
  | cons v items =>
      rw [List.forall_mem_cons] at h
      rw [List.exists_mem_cons_iff] at hdeep
      rw [List.map_cons, intercalate_cons, List.flatMap_map, List.append_assoc]
      have hfirst (hv : TooDeep item v) (after : List Char) :
          StopsAtLimit (readItems item (writeChars v ++ after)) := by
        rw [readItems_writeChars item hv.1]
        exact (hv.2 after).bind _
      rcases hdeep with hv | ⟨w, hw, hdeep⟩
      · exact hfirst hv _
      rcases h.1 with hv | hv
      · rw [readItems_writeChars item hv.1, hv.2]
        refine StopsAtLimit.bind (gatherAll_stops (by simp) ?_ ⟨w, hw, hdeep.nextItem⟩) _
        exact fun u hu => (h.2 u hu).imp ReadsBack.nextItem TooDeep.nextItem
      · exact hfirst hv _

theorem readMembers_writeMembers {members : List (String × Json)}
    (h : ∀ member ∈ members, ReadsBack item member.2) (rest : List Char) :
    readMembers item (List.intercalate [','] (writeMembers members) ++ (['\x7d'] ++ rest)) =
      .ok (members, rest) := by
  rw [writeMembers_eq_map]
  cases members with
  | nil => rfl
  | cons member members =>
      have hmore : gatherAll (readNextMember item)
          (members.flatMap (fun member => [','] ++ writeMember member) ++ (['\x7d'] ++ rest)) =
            .ok (members, rest) :=
        gatherAll_pieces (by simp)
          (fun member hm after => (h member (List.mem_cons_of_mem _ hm)).nextMember after) rfl
      rw [List.map_cons, intercalate_cons, List.flatMap_map, List.append_assoc,
        readMembers_writeMember, (h member List.mem_cons_self).member]
      simp only [bind, Except.bind, hmore]
      rfl

theorem readMembers_stops {members : List (String × Json)}
    (h : ∀ member ∈ members, ReadsBack item member.2 ∨ TooDeep item member.2)
    (hdeep : ∃ member ∈ members, TooDeep item member.2) (rest : List Char) :
    StopsAtLimit (readMembers item (List.intercalate [','] (writeMembers members) ++ rest)) := by
  rw [writeMembers_eq_map]
  cases members with
  | nil => simp at hdeep
  | cons member members =>
      rw [List.forall_mem_cons] at h
      rw [List.exists_mem_cons_iff] at hdeep
      rw [List.map_cons, intercalate_cons, List.flatMap_map, List.append_assoc,
        readMembers_writeMember]
      rcases hdeep with hmember | ⟨w, hw, hdeep⟩
      · exact (hmember.member _).bind _
      rcases h.1 with hmember | hmember
      · rw [hmember.member]
        refine StopsAtLimit.bind (gatherAll_stops (by simp) ?_ ⟨w, hw, hdeep.nextMember⟩) _
        exact fun u hu => (h.2 u hu).imp ReadsBack.nextMember TooDeep.nextMember
      · exact (hmember.member _).bind _

end Parts

/-! ### Values -/

theorem readWith_array {part : Reader Json} {items : List Json}
    (h : ∀ v ∈ items, ReadsBack part v) (rest : List Char) :
    readWith (some part) (writeChars (.array items) ++ rest) = .ok (.array items, rest) := by
  have hitems := readItems_writeItems h rest
  rw [writeChars, List.cons_append, List.append_assoc, readWith,
    skipSpace_cons (show isSpace '[' = false from rfl)]
  simp only [bind, Except.bind, hitems]
  rfl

theorem readWith_object {part : Reader Json} {members : List (String × Json)}
    (h : ∀ member ∈ members, ReadsBack part member.2) (rest : List Char) :
    readWith (some part) (writeChars (.object members) ++ rest) = .ok (.object members, rest) := by
  have hmembers := readMembers_writeMembers h rest
  rw [writeChars, List.cons_append, List.append_assoc, readWith,
    skipSpace_cons (show isSpace '\x7b' = false from rfl)]
  simp only [bind, Except.bind, hmembers]
  rfl

theorem readWith_string (part? : Option (Reader Json)) (s : String) (rest : List Char) :
    readWith part? (writeChars (.string s) ++ rest) = .ok (.string s, rest) := by
  have hstring := readString_writeString s rest
  have htext : writeChars (.string s) ++ rest =
      '"' :: (s.toList.flatMap writeChar ++ '"' :: rest) := by
    simp [writeChars, writeString]
  rw [htext, readWith, skipSpace_cons (show isSpace '"' = false from rfl)]
  simp only [bind, Except.bind, hstring]
  rfl

theorem readWith_array_stops {part : Reader Json} {items : List Json}
    (h : ∀ v ∈ items, ReadsBack part v ∨ TooDeep part v) (hdeep : ∃ v ∈ items, TooDeep part v)
    (rest : List Char) :
    StopsAtLimit (readWith (some part) (writeChars (.array items) ++ rest)) := by
  rw [writeChars, List.cons_append, List.append_assoc, readWith,
    skipSpace_cons (show isSpace '[' = false from rfl)]
  exact (readItems_stops h hdeep _).bind _

theorem readWith_object_stops {part : Reader Json} {members : List (String × Json)}
    (h : ∀ member ∈ members, ReadsBack part member.2 ∨ TooDeep part member.2)
    (hdeep : ∃ member ∈ members, TooDeep part member.2) (rest : List Char) :
    StopsAtLimit (readWith (some part) (writeChars (.object members) ++ rest)) := by
  rw [writeChars, List.cons_append, List.append_assoc, readWith,
    skipSpace_cons (show isSpace '\x7b' = false from rfl)]
  exact (readMembers_stops h hdeep _).bind _

mutual

/-- A value without numbers that is nested at most as deep as the reader goes is read back from its
text, and what stands after it is left. -/
theorem readValue_writeChars (v : Json) (depth : Nat) (hv : v.isNumberless)
    (hdepth : v.nesting ≤ depth) (rest : List Char) :
    readValue depth (writeChars v ++ rest) = .ok (v, rest) := by
  match v with
  | .null => cases depth <;> rfl
  | .bool value => cases value <;> cases depth <;> rfl
  | .number lexeme => exact absurd hv (by simp [isNumberless])
  | .string value => cases depth <;> exact readWith_string _ value rest
  | .array items =>
      cases depth with
      | zero => exact absurd hdepth (by simp [nesting])
      | succ depth =>
          have hle := nestingItems_le_iff.mp (Nat.le_of_succ_le_succ hdepth)
          exact readWith_array (fun u hu => (items_read_or_stop items depth hv u hu).1 (hle u hu))
            rest
  | .object members =>
      cases depth with
      | zero => exact absurd hdepth (by simp [nesting])
      | succ depth =>
          have hle := nestingMembers_le_iff.mp (Nat.le_of_succ_le_succ hdepth)
          exact readWith_object
            (fun u hu => (members_read_or_stop members depth hv u hu).1 (hle u hu)) rest

/-- On the text of a value that is nested deeper than the reader goes, it stops at its limit. -/
theorem stops_of_lt_nesting (v : Json) (depth : Nat) (hv : v.isNumberless)
    (hdepth : depth < v.nesting) (rest : List Char) :
    StopsAtLimit (readValue depth (writeChars v ++ rest)) := by
  match v with
  | .null | .bool _ | .number _ | .string _ => exact absurd hdepth (by simp [nesting])
  | .array items =>
      cases depth with
      -- The first bracket is one too many.
      | zero => exact ⟨_, rfl⟩
      | succ depth =>
          have hitems := items_read_or_stop items depth hv
          obtain ⟨w, hw, hdeep⟩ := lt_nestingItems_iff.mp (Nat.lt_of_succ_lt_succ hdepth)
          refine readWith_array_stops (fun u hu => ?_) ⟨w, hw, (hitems w hw).2 hdeep⟩ rest
          exact (Nat.lt_or_ge depth u.nesting).symm.imp (hitems u hu).1 (hitems u hu).2
  | .object members =>
      cases depth with
      | zero => exact ⟨_, rfl⟩
      | succ depth =>
          have hmembers := members_read_or_stop members depth hv
          obtain ⟨w, hw, hdeep⟩ := lt_nestingMembers_iff.mp (Nat.lt_of_succ_lt_succ hdepth)
          refine readWith_object_stops (fun u hu => ?_) ⟨w, hw, (hmembers w hw).2 hdeep⟩ rest
          exact (Nat.lt_or_ge depth u.2.nesting).symm.imp (hmembers u hu).1 (hmembers u hu).2

theorem items_read_or_stop (items : List Json) (depth : Nat) (hitems : areNumberless items) :
    ∀ v ∈ items, (v.nesting ≤ depth → ReadsBack (readValue depth) v) ∧
      (depth < v.nesting → TooDeep (readValue depth) v) := by
  match items with
  | [] => simp
  | item :: items =>
      simp only [areNumberless, Bool.and_eq_true] at hitems
      rw [List.forall_mem_cons]
      refine ⟨⟨fun hle => ?_, fun hlt => ?_⟩, items_read_or_stop items depth hitems.2⟩
      · exact ⟨hitems.1, readValue_writeChars item depth hitems.1 hle⟩
      · exact ⟨hitems.1, stops_of_lt_nesting item depth hitems.1 hlt⟩

theorem members_read_or_stop (members : List (String × Json)) (depth : Nat)
    (hmembers : membersNumberless members) :
    ∀ member ∈ members, (member.2.nesting ≤ depth → ReadsBack (readValue depth) member.2) ∧
      (depth < member.2.nesting → TooDeep (readValue depth) member.2) := by
  match members with
  | [] => simp
  | (name, value) :: members =>
      simp only [membersNumberless, Bool.and_eq_true] at hmembers
      rw [List.forall_mem_cons]
      refine ⟨⟨fun hle => ?_, fun hlt => ?_⟩, members_read_or_stop members depth hmembers.2⟩
      · exact ⟨hmembers.1, readValue_writeChars value depth hmembers.1 hle⟩
      · exact ⟨hmembers.1, stops_of_lt_nesting value depth hmembers.1 hlt⟩

end

end ContentQuery.Json
