import Mathlib.Data.List.TakeWhile
import ContentQuery.Command.Line

namespace ContentQuery

namespace Text

def AllBlank (cs : List Char) : Prop := ∀ c ∈ cs, isBlank c = true

/-- The text is the given part between white space. -/
def Padded (part text : List Char) : Prop :=
  ∃ before after, AllBlank before ∧ AllBlank after ∧ text = before ++ part ++ after

theorem exists_dropWhile_isBlank (cs : List Char) :
    ∃ before, AllBlank before ∧ cs = before ++ cs.dropWhile isBlank :=
  ⟨cs.takeWhile isBlank, fun _ hc => List.mem_takeWhile_imp hc, List.takeWhile_append_dropWhile.symm⟩

theorem padded_trimBlanks (text : List Char) : Padded (trimBlanks text) text := by
  obtain ⟨before, hbefore, htext⟩ := exists_dropWhile_isBlank text
  obtain ⟨after, hafter, hrest⟩ := exists_dropWhile_isBlank (text.dropWhile isBlank).reverse
  refine ⟨before, after.reverse, hbefore, fun c hc => hafter c (List.mem_reverse.mp hc), ?_⟩
  have hreverse := congrArg List.reverse hrest
  rw [List.reverse_reverse, List.reverse_append] at hreverse
  rw [List.append_assoc, trimBlanks, ← hreverse, ← htext]

theorem dropWhile_isBlank_append {blanks part : List Char} (hblanks : AllBlank blanks)
    (hpart : ∀ c ∈ part, isBlank c = false) (hne : part ≠ []) (rest : List Char) :
    (blanks ++ (part ++ rest)).dropWhile isBlank = part ++ rest := by
  rw [List.dropWhile_append_of_pos hblanks]
  cases part with
  | nil => exact absurd rfl hne
  | cons c cs => simp [hpart c List.mem_cons_self]

theorem Padded.trimBlanks_eq {part text : List Char} (h : Padded part text)
    (hpart : ∀ c ∈ part, isBlank c = false) (hne : part ≠ []) : trimBlanks text = part := by
  obtain ⟨before, after, hbefore, hafter, rfl⟩ := h
  have hafter' : AllBlank after.reverse := fun c hc => hafter c (List.mem_reverse.mp hc)
  have hend := dropWhile_isBlank_append hafter'
    (fun c hc => hpart c (List.mem_reverse.mp hc)) (List.reverse_ne_nil_iff.mpr hne) []
  rw [List.append_nil] at hend
  rw [trimBlanks, List.append_assoc, dropWhile_isBlank_append hbefore hpart hne after,
    List.reverse_append, hend, List.reverse_reverse]

end Text

namespace Decimal

/-- The text spells the number: one or more digits, with a plus sign in front or without one. -/
inductive Spells : List Char → Nat → Prop
  | plain {digits : List Char} (hne : digits ≠ []) (hdigits : ∀ c ∈ digits, c.isDigit = true) :
      Spells digits (Nat.ofDigitChars 10 digits 0)
  | signed {digits : List Char} (hne : digits ≠ []) (hdigits : ∀ c ∈ digits, c.isDigit = true) :
      Spells ('+' :: digits) (Nat.ofDigitChars 10 digits 0)

theorem le_ofDigitChars (cs : List Char) (value : Nat) : value ≤ Nat.ofDigitChars 10 cs value := by
  rw [Nat.ofDigitChars_eq_ofDigitChars_zero]
  calc value = 1 * value := (Nat.one_mul value).symm
    _ ≤ 10 ^ cs.length * value := Nat.mul_le_mul_right value (Nat.one_le_pow _ _ (by decide))
    _ ≤ 10 ^ cs.length * value + Nat.ofDigitChars 10 cs 0 := Nat.le_add_right _ _

theorem ofDigitChars_cons (c : Char) (cs : List Char) (value : Nat) :
    Nat.ofDigitChars 10 (c :: cs) value = Nat.ofDigitChars 10 cs (value * 10 + digitValue c) := by
  rw [Nat.ofDigitChars_cons, Nat.mul_comm]
  rfl

theorem readDigits_eq_ok_iff {limit value result : Nat} {cs : List Char} (hvalue : value ≤ limit) :
    readDigits limit value cs = .ok result ↔
      (∀ c ∈ cs, c.isDigit = true) ∧ Nat.ofDigitChars 10 cs value = result ∧ result ≤ limit := by
  induction cs generalizing value with
  | nil =>
      rw [readDigits, Nat.ofDigitChars_nil, Except.ok.injEq]
      constructor
      · rintro rfl
        exact ⟨List.forall_mem_nil _, rfl, hvalue⟩
      · exact fun h => h.2.1
  | cons c cs ih =>
      rw [readDigits, List.forall_mem_cons, ofDigitChars_cons]
      by_cases hdigit : c.isDigit = true
      · by_cases hlimit : value * 10 + digitValue c ≤ limit
        · rw [if_pos hdigit, if_pos hlimit, ih hlimit]
          simp only [hdigit, true_and]
        · rw [if_pos hdigit, if_neg hlimit]
          constructor
          · intro h
            contradiction
          · rintro ⟨-, rfl, hle⟩
            exact absurd ((le_ofDigitChars cs _).trans hle) hlimit
      · rw [if_neg hdigit]
        constructor
        · intro h
          contradiction
        · exact fun h => absurd h.1.1 hdigit

section

variable {digits : List Char} (hne : digits ≠ []) (hdigits : ∀ c ∈ digits, c.isDigit = true)
include hne hdigits

theorem read_plain (limit : Nat) : read limit digits = readDigits limit 0 digits := by
  have hsign : ∀ c cs, digits = c :: cs → c ≠ '+' ∧ c ≠ '-' := by
    rintro c cs rfl
    have hdigit := hdigits c List.mem_cons_self
    constructor <;> rintro rfl <;> contradiction
  unfold read
  split
  case h_1 => exact absurd rfl hne
  case h_2 => exact absurd rfl (hsign '+' [] rfl).1
  case h_3 => exact absurd rfl (hsign '-' [] rfl).2
  case h_4 cs _ => exact absurd rfl (hsign '+' cs rfl).1
  case h_5 => rfl

omit hdigits in
theorem read_signed (limit : Nat) : read limit ('+' :: digits) = readDigits limit 0 digits := by
  cases digits with
  | nil => exact absurd rfl hne
  | cons c cs => rfl

end

/-- A text is read as a number exactly if it spells one that is within the limit. -/
theorem read_eq_ok_iff {limit result : Nat} {cs : List Char} :
    read limit cs = .ok result ↔ Spells cs result ∧ result ≤ limit := by
  constructor
  · intro h
    unfold read at h
    split at h
    case h_1 | h_2 | h_3 => contradiction
    case h_4 digits hsign =>
      obtain ⟨hdigits, rfl, hle⟩ := (readDigits_eq_ok_iff (Nat.zero_le limit)).mp h
      refine ⟨.signed ?_ hdigits, hle⟩
      rintro rfl
      exact hsign rfl
    case h_5 hne _ _ _ =>
      obtain ⟨hdigits, rfl, hle⟩ := (readDigits_eq_ok_iff (Nat.zero_le limit)).mp h
      exact ⟨.plain hne hdigits, hle⟩
  · rintro ⟨hspells, hle⟩
    cases hspells with
    | plain hne hdigits =>
        rw [read_plain hne hdigits, readDigits_eq_ok_iff (Nat.zero_le limit)]
        exact ⟨hdigits, rfl, hle⟩
    | signed hne hdigits =>
        rw [read_signed hne, readDigits_eq_ok_iff (Nat.zero_le limit)]
        exact ⟨hdigits, rfl, hle⟩

theorem Spells.not_blank {cs : List Char} {value : Nat} (h : Spells cs value) :
    ∀ c ∈ cs, Text.isBlank c = false := by
  have hdigit : ∀ c : Char, c.isDigit = true → Text.isBlank c = false := by
    intro c hc
    simp only [Char.isDigit, Bool.and_eq_true, decide_eq_true_eq, ge_iff_le,
      UInt32.le_iff_toNat_le] at hc
    have hlow : 48 ≤ c.toNat := hc.1
    have hhigh : c.toNat ≤ 57 := hc.2
    simp [Text.isBlank]
    omega
  cases h with
  | plain hne hdigits => exact fun c hc => hdigit c (hdigits c hc)
  | signed hne hdigits =>
      rw [List.forall_mem_cons]
      exact ⟨rfl, fun c hc => hdigit c (hdigits c hc)⟩

theorem Spells.ne_nil {cs : List Char} {value : Nat} (h : Spells cs value) : cs ≠ [] := by
  cases h with
  | plain hne => exact hne
  | signed => exact List.cons_ne_nil _ _

theorem spells_toString (zeros value : Nat) :
    Spells (List.replicate zeros '0' ++ (toString value).toList) value := by
  have htext : (toString value).toList = Nat.toDigits 10 value := Nat.toList_repr
  have hvalue : Nat.ofDigitChars 10 (List.replicate zeros '0' ++ Nat.toDigits 10 value) 0 =
      value := by
    rw [Nat.ofDigitChars_append, Nat.ofDigitChars_replicate_zero, Nat.mul_zero,
      Nat.ofDigitChars_ten_toDigits]
  rw [htext]
  conv => arg 2; rw [← hvalue]
  refine .plain ?_ ?_
  · exact fun h => Nat.toDigits_ne_nil (List.append_eq_nil_iff.mp h).2
  · intro c hc
    rcases List.mem_append.mp hc with hc | hc
    · rw [List.eq_of_mem_replicate hc]
      rfl
    · exact Nat.isDigit_of_mem_toDigits (b := 10) (by decide) (by decide) hc

end Decimal

namespace Settings

/-- The texts that set the threshold: between white space they spell a number of 64 bits. -/
def Gives (text : String) (threshold : Nat) : Prop :=
  ∃ part, Text.Padded part text.toList ∧ Decimal.Spells part threshold ∧
    threshold < Nat.pow 2 64

/-- Where the threshold of a request comes from: the command line before the environment, and the
environment before the default. -/
inductive Resolves : (option : Option Nat) → (environment : Option String) → Nat → Prop
  | option (threshold : Nat) (environment : Option String) :
      Resolves (some threshold) environment threshold
  | environment {text : String} {threshold : Nat} (h : Gives text threshold) :
      Resolves none (some text) threshold
  | default {environment : Option String}
      (h : ∀ text ∈ environment, ∀ threshold, ¬ Gives text threshold) :
      Resolves none environment defaultThreshold

variable {text : String} {threshold : Nat}

theorem readThreshold_eq_ok_iff : readThreshold text = .ok threshold ↔ Gives text threshold := by
  have hlimit : threshold ≤ Decimal.wordMax ↔ threshold < Nat.pow 2 64 :=
    Nat.le_pred_iff_lt (Nat.two_pow_pos 64)
  rw [readThreshold, Decimal.read_eq_ok_iff, hlimit]
  constructor
  · rintro ⟨hspells, hlt⟩
    exact ⟨_, Text.padded_trimBlanks text.toList, hspells, hlt⟩
  · rintro ⟨part, hpadded, hspells, hlt⟩
    rw [hpadded.trimBlanks_eq hspells.not_blank hspells.ne_nil]
    exact ⟨hspells, hlt⟩

theorem overrideThreshold_of_gives (s : Settings) (h : Gives text threshold) :
    s.overrideThreshold (some text) = ⟨s.withThreshold threshold, []⟩ := by
  simp only [overrideThreshold, readThreshold_eq_ok_iff.mpr h]

theorem overrideThreshold_of_not_gives (s : Settings) (h : ∀ threshold, ¬ Gives text threshold) :
    ∃ fault, s.overrideThreshold (some text) = ⟨s, [.invalidThreshold text fault]⟩ := by
  cases hread : readThreshold text with
  | ok threshold => exact absurd (readThreshold_eq_ok_iff.mp hread) (h threshold)
  | error fault =>
      refine ⟨fault, ?_⟩
      simp only [overrideThreshold, hread]

theorem resolves_ofEnvironment (environment : Option String) :
    Resolves none environment (ofEnvironment environment).value.threshold := by
  cases environment with
  | none => exact .default fun text htext => absurd htext (Option.not_mem_none text)
  | some text =>
      by_cases h : ∃ threshold, Gives text threshold
      · obtain ⟨threshold, hgives⟩ := h
        rw [ofEnvironment, overrideThreshold_of_gives initial hgives]
        exact .environment hgives
      · have hnone : ∀ threshold, ¬ Gives text threshold := not_exists.mp h
        obtain ⟨fault, hoverride⟩ := overrideThreshold_of_not_gives initial hnone
        rw [ofEnvironment, hoverride]
        refine .default fun text' htext' => ?_
        obtain rfl := Option.mem_some.mp htext'
        exact hnone

theorem resolves_settings (r : Command.Request) (environment : Option String) :
    Resolves r.maxFragments environment (r.settings environment).value.threshold := by
  obtain ⟨action, manifest, verbosity, formElements, maxFragments⟩ := r
  cases maxFragments with
  | none => exact resolves_ofEnvironment environment
  | some threshold => exact .option threshold environment

theorem Gives.unique {threshold' : Nat} (h : Gives text threshold) (h' : Gives text threshold') :
    threshold = threshold' := by
  have hread := readThreshold_eq_ok_iff.mpr h
  rw [readThreshold_eq_ok_iff.mpr h'] at hread
  exact (Except.ok.inj hread).symm

theorem Resolves.unique {option : Option Nat} {environment : Option String} {threshold' : Nat}
    (h : Resolves option environment threshold) (h' : Resolves option environment threshold') :
    threshold = threshold' := by
  cases h with
  | option =>
      cases h'
      rfl
  | environment h =>
      cases h' with
      | environment h' => exact h.unique h'
      | default h' => exact absurd h (h' _ rfl _)
  | default h =>
      cases h' with
      | environment h' => exact absurd h' (h _ rfl _)
      | default => rfl

/-- A text that gives a threshold sets it, changes nothing else and is not reported. Any other text
changes nothing, and it is reported as it stands in one warning. So the decimal text of a number of
64 bits sets the threshold to it, with white space around it and zeros in front. The threshold of a
request is the one of the command line, else that of the environment, else the default. -/
theorem threshold_overridden :
    (∀ (s : Settings) (text : String) (threshold : Nat), Gives text threshold →
        s.overrideThreshold (some text) = ⟨⟨threshold, s.formElements⟩, []⟩) ∧
      (∀ (s : Settings) (text : String), (∀ threshold, ¬ Gives text threshold) →
        ∃ event, s.overrideThreshold (some text) = ⟨s, [event]⟩ ∧ event.level = .warn ∧
          ("value", .quoted text) ∈ event.fields) ∧
      (∀ (s : Settings) (threshold zeros : Nat) (before after : List Char),
        threshold < Nat.pow 2 64 → Text.AllBlank before → Text.AllBlank after →
          s.overrideThreshold (some (String.ofList (before ++
              (List.replicate zeros '0' ++ (toString threshold).toList) ++ after))) =
            ⟨⟨threshold, s.formElements⟩, []⟩) ∧
      ∀ (r : Command.Request) (environment : Option String) (threshold : Nat),
        (r.settings environment).value.threshold = threshold ↔
          Resolves r.maxFragments environment threshold := by
  refine ⟨?_, ?_, ?_, ?_⟩
  · exact fun s _ _ h => overrideThreshold_of_gives s h
  · intro s text h
    obtain ⟨fault, hoverride⟩ := overrideThreshold_of_not_gives s h
    exact ⟨_, hoverride, rfl, by simp [Event.fields]⟩
  · intro s threshold zeros before after hlt hbefore hafter
    refine overrideThreshold_of_gives s ⟨_, ⟨before, after, hbefore, hafter, ?_⟩,
      Decimal.spells_toString zeros threshold, hlt⟩
    exact String.toList_ofList
  · intro r environment threshold
    constructor
    · rintro rfl
      exact resolves_settings r environment
    · exact fun h => (resolves_settings r environment).unique h

/-- The first number that is too large, and one with white space and zeros that is not. -/
theorem threshold_overridden_word :
    (Settings.withFormElements true initial).overrideThreshold (some "\u00a0+0250\n") =
        ⟨⟨250, true⟩, []⟩ ∧
      (∃ event, initial.overrideThreshold (some "18446744073709551616") = ⟨initial, [event]⟩ ∧
        event.level = .warn ∧ ("value", .quoted "18446744073709551616") ∈ event.fields) ∧
      initial.overrideThreshold (some " 00018446744073709551615") =
        ⟨⟨18446744073709551615, false⟩, []⟩ ∧
      ((Command.Request.settings ⟨.check true, "types.json", 0, false, none⟩
        (some "lots")).value.threshold = 100) := by
  obtain ⟨haccepted, hrefused, hpadded, hresolved⟩ := threshold_overridden
  refine ⟨?_, ?_, ?_, ?_⟩
  · exact haccepted _ _ _ (readThreshold_eq_ok_iff.mp rfl)
  · refine hrefused initial _ fun threshold h => ?_
    have hread : readThreshold "18446744073709551616" = .error .tooLarge := rfl
    exact absurd (hread.symm.trans (readThreshold_eq_ok_iff.mpr h)) (by simp)
  · exact hpadded initial 18446744073709551615 3 [' '] [] (by decide)
      (List.forall_mem_singleton.mpr rfl) (List.forall_mem_nil _)
  · rw [hresolved]
    refine .default fun text htext threshold h => ?_
    obtain rfl := Option.mem_some.mp htext
    have hread : readThreshold "lots" = .error .invalidDigit := rfl
    exact absurd (hread.symm.trans (readThreshold_eq_ok_iff.mpr h)) (by simp)

end Settings

end ContentQuery
