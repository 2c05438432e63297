import Mathlib.Data.List.Forall2
import ContentQuery.Document

namespace ContentQuery

inductive Token where
  | name (text : String)
  | braceOpen
  | braceClose
  | parenOpen
  | parenClose
  | colon
  | dollar
  | atSign
  | ellipsis
  deriving DecidableEq, Repr

namespace Token

def isInitial (c : Char) : Bool := c.isAlpha || c = '_'

def isNamed (c : Char) : Bool := isInitial c || c.isDigit

/-- Names begin with a letter or an underscore, and go on with these and digits. -/
def isName (text : String) : Bool :=
  match text.toList with
  | [] => false
  | c :: cs => isInitial c && cs.all isNamed

/-- The token of a character that belongs to no name and no ellipsis, and none for a separator. -/
def ofChar? : Char → Option (List Token)
  | ' ' | '\n' => some []
  | '\x7b' => some [.braceOpen]
  | '\x7d' => some [.braceClose]
  | '(' => some [.parenOpen]
  | ')' => some [.parenClose]
  | ':' => some [.colon]
  | '$' => some [.dollar]
  | '@' => some [.atSign]
  | _ => none

def ofWord (word : List Char) : List Token :=
  if word.isEmpty then [] else [.name (String.ofList word)]

/-- The beginning of a name that was read, or how many dots were. -/
structure Pending where
  word : List Char
  dots : Nat

def Pending.idle : Pending := ⟨[], 0⟩

/-- The tokens that end with a character or before it, and what is pending after it. -/
def step (pending : Pending) (c : Char) : Option (List Token × Pending) :=
  if c = '.' then
    if pending.dots = 2 then some ([.ellipsis], .idle)
    else some (ofWord pending.word, ⟨[], pending.dots + 1⟩)
  else if pending.dots ≠ 0 then none
  else if isInitial c || (isNamed c && !pending.word.isEmpty) then
    some ([], ⟨pending.word ++ [c], 0⟩)
  else (ofChar? c).map fun tokens => (ofWord pending.word ++ tokens, .idle)

def scan : Pending → List Char → Option (List Token)
  | pending, [] => if pending.dots = 0 then some (ofWord pending.word) else none
  | pending, c :: cs =>
      match step pending c with
      | none => none
      | some (tokens, next) => (scan next cs).map (tokens ++ ·)

/-- The tokens of a text, unless it holds anything else. -/
def lex (text : String) : Option (List Token) := scan .idle text.toList

theorem scan_cons (pending : Pending) (c : Char) (cs : List Char) :
    scan pending (c :: cs) =
      (step pending c).bind fun out => (scan out.2 cs).map (out.1 ++ ·) := by
  rw [scan]
  cases step pending c <;> rfl

section

variable {word : List Char} {c : Char}

theorem ne_dot_of_isNamed (h : isNamed c = true) : c ≠ '.' := by
  rintro rfl
  exact absurd h (by decide)

theorem step_named (h : (isInitial c || (isNamed c && !word.isEmpty)) = true) :
    step ⟨word, 0⟩ c = some ([], ⟨word ++ [c], 0⟩) := by
  have hnamed : isNamed c = true := by
    rcases Bool.or_eq_true_iff.mp h with h | h
    · simp [isNamed, h]
    · exact (Bool.and_eq_true_iff.mp h).1
  simp [step, ne_dot_of_isNamed hnamed, h]

theorem step_of_not_isNamed (h : isNamed c = false) :
    step ⟨word, 0⟩ c = (step .idle c).map fun out => (ofWord word ++ out.1, out.2) := by
  have hinitial : isInitial c = false := (Bool.or_eq_false_iff.mp h).1
  by_cases hdot : c = '.'
  · simp [step, hdot, Pending.idle, ofWord]
  · cases hchar : ofChar? c <;> simp [step, hdot, h, hinitial, hchar, Pending.idle, ofWord]

/-- The text does not go on with what a name before it would take up. -/
def Parted (cs : List Char) : Prop := ∀ c ∈ cs.head?, isNamed c = false

theorem scan_of_parted {cs : List Char} (h : Parted cs) (word : List Char) :
    scan ⟨word, 0⟩ cs = (scan .idle cs).map (ofWord word ++ ·) := by
  cases cs with
  | nil => simp [scan, ofWord, Pending.idle]
  | cons c cs =>
      rw [scan_cons, scan_cons, step_of_not_isNamed (h c rfl)]
      cases step .idle c with
      | none => rfl
      | some out => simp [Function.comp_def]

/-- The tokens of a text are read to its end before those of what follows. -/
theorem scan_append {a b : List Char} (hb : Parted b) {pending : Pending} {tokens : List Token}
    (ha : scan pending a = some tokens) :
    scan pending (a ++ b) = (scan .idle b).map (tokens ++ ·) := by
  induction a generalizing pending tokens with
  | nil =>
      rw [scan] at ha
      split at ha
      · rename_i hdots
        obtain ⟨word, _⟩ := pending
        obtain rfl := hdots
        obtain rfl := Option.some.inj ha
        exact scan_of_parted hb word
      · cases ha
  | cons c cs ih =>
      rw [scan_cons] at ha
      obtain ⟨⟨before, next⟩, hstep, hscan⟩ := Option.bind_eq_some_iff.mp ha
      obtain ⟨rest, hrest, rfl⟩ := Option.map_eq_some_iff.mp hscan
      rw [List.cons_append, scan_cons, hstep, Option.bind_some, ih hrest]
      simp [Function.comp_def]

theorem scan_name {cs : List Char} (h : cs.all isNamed = true) (hword : word ≠ []) :
    scan ⟨word, 0⟩ cs = some [.name (String.ofList (word ++ cs))] := by
  induction cs generalizing word with
  | nil => simp [scan, ofWord, hword]
  | cons c cs ih =>
      obtain ⟨hc, hcs⟩ := Bool.and_eq_true_iff.mp h
      have hnext : scan ⟨word ++ [c], 0⟩ cs = some [.name (String.ofList (word ++ [c] ++ cs))] :=
        ih hcs (by simp)
      rw [scan_cons, step_named (by simp [hc, hword]), Option.bind_some, hnext]
      simp

end

section

variable {text a b : String}

theorem exists_cons_of_isName (h : isName text = true) :
    ∃ c cs, text.toList = c :: cs ∧ isInitial c = true ∧ cs.all isNamed = true := by
  unfold isName at h
  split at h
  · cases h
  · rename_i c cs htext
    obtain ⟨hc, hcs⟩ := Bool.and_eq_true_iff.mp h
    exact ⟨c, cs, htext, hc, hcs⟩

theorem lex_name (h : isName text = true) : lex text = some [.name text] := by
  obtain ⟨c, cs, htext, hc, hcs⟩ := exists_cons_of_isName h
  have hscan : scan ⟨[c], 0⟩ cs = some [.name (String.ofList ([c] ++ cs))] :=
    scan_name hcs (List.cons_ne_nil c [])
  have hstep : step .idle c = some ([], ⟨[c], 0⟩) := step_named (by simp [hc])
  rw [lex, htext, scan_cons, hstep, Option.bind_some, hscan]
  simp [← htext]

theorem all_isNamed_of_isName (h : isName text = true) : text.toList.all isNamed = true := by
  obtain ⟨c, cs, htext, hc, hcs⟩ := exists_cons_of_isName h
  rw [htext]
  simp [isNamed, hc, hcs]

theorem isName_append (ha : isName a = true) (hb : b.toList.all isNamed = true) :
    isName (a ++ b) = true := by
  obtain ⟨c, cs, htext, hc, hcs⟩ := exists_cons_of_isName ha
  rw [isName, String.toList_append, htext]
  simp [hc, hcs, hb]

theorem name_not_mem_of_ofChar? {c : Char} {tokens : List Token} (h : ofChar? c = some tokens)
    (text : String) : .name text ∉ tokens := by
  unfold ofChar? at h
  split at h <;> cases h <;> simp

/-- What is pending is no name, or the beginning of one. -/
def Pending.Named (pending : Pending) : Prop :=
  pending.word ≠ [] → isName (String.ofList pending.word) = true

theorem Pending.Named.of_mem {pending : Pending} (h : pending.Named)
    (htext : .name text ∈ ofWord pending.word) : isName text = true := by
  unfold ofWord at htext
  split at htext
  · exact absurd htext List.not_mem_nil
  · rename_i hne
    obtain rfl := Token.name.inj (List.mem_singleton.mp htext)
    exact h (by simpa using hne)

theorem Pending.Named.idle : Pending.idle.Named := fun h => absurd rfl h

theorem Pending.Named.snoc {pending : Pending} {c : Char} (h : pending.Named)
    (hc : (isInitial c || (isNamed c && !pending.word.isEmpty)) = true) :
    Pending.Named ⟨pending.word ++ [c], 0⟩ := by
  intro _
  obtain ⟨word, dots⟩ := pending
  cases word with
  | nil =>
      have hinitial : isInitial c = true := by simpa using hc
      simp [isName, hinitial]
  | cons first word =>
      have hnamed : isNamed c = true := by
        rcases Bool.or_eq_true_iff.mp hc with hc | hc
        · simp [isNamed, hc]
        · exact (Bool.and_eq_true_iff.mp hc).1
      rw [String.ofList_append]
      exact isName_append (h (List.cons_ne_nil first word)) (by simp [hnamed])

theorem Pending.Named.step {pending next : Pending} {c : Char} {tokens : List Token}
    (h : pending.Named) (hstep : Token.step pending c = some (tokens, next)) :
    next.Named ∧ ∀ text, .name text ∈ tokens → isName text = true := by
  unfold Token.step at hstep
  split at hstep
  · split at hstep
    · cases hstep
      exact ⟨.idle, by simp⟩
    · cases hstep
      exact ⟨fun hne => absurd rfl hne, fun text => h.of_mem⟩
  · split at hstep
    · cases hstep
    · split at hstep
      · rename_i hc
        cases hstep
        exact ⟨h.snoc hc, by simp⟩
      · obtain ⟨rest, hrest, hout⟩ := Option.map_eq_some_iff.mp hstep
        cases hout
        refine ⟨.idle, fun text htext => ?_⟩
        rcases List.mem_append.mp htext with htext | htext
        · exact h.of_mem htext
        · exact absurd htext (name_not_mem_of_ofChar? hrest text)

theorem Pending.Named.scan {pending : Pending} {cs : List Char} {tokens : List Token}
    (h : pending.Named) (hscan : Token.scan pending cs = some tokens)
    (htext : .name text ∈ tokens) : isName text = true := by
  induction cs generalizing pending tokens with
  | nil =>
      rw [Token.scan] at hscan
      split at hscan
      · obtain rfl := Option.some.inj hscan
        exact h.of_mem htext
      · cases hscan
  | cons c cs ih =>
      rw [scan_cons] at hscan
      obtain ⟨⟨before, next⟩, hstep, hnext⟩ := Option.bind_eq_some_iff.mp hscan
      obtain ⟨rest, hrest, rfl⟩ := Option.map_eq_some_iff.mp hnext
      obtain ⟨hnamed, hbefore⟩ := h.step hstep
      rcases List.mem_append.mp htext with htext | htext
      · exact hbefore text htext
      · exact ih hnamed hrest htext

variable {separator : String} {tokens tokens' : List Token}

theorem isName_of_mem_lex (h : lex a = some tokens) (htext : .name text ∈ tokens) :
    isName text = true :=
  Pending.Named.idle.scan h htext

theorem lex_append (ha : lex a = some tokens) (hb : Parted b.toList) :
    lex (a ++ b) = (lex b).map (tokens ++ ·) := by
  rw [lex, String.toList_append]
  exact scan_append hb ha

def isSeparator (c : Char) : Bool := c = ' ' || c = '\n'

/-- The text separates tokens and stands for none. -/
def isBlank (text : String) : Bool := text.toList.all isSeparator

theorem eq_of_isSeparator {c : Char} (h : isSeparator c = true) : c = ' ' ∨ c = '\n' :=
  (Bool.or_eq_true_iff.mp h).imp of_decide_eq_true of_decide_eq_true

theorem lex_indented (hblank : isBlank separator = true) (h : lex a = some tokens) :
    lex (separator ++ a) = some tokens := by
  have hskip : ∀ cs : List Char, cs.all isSeparator = true →
      scan .idle (cs ++ a.toList) = some tokens := by
    intro cs hcs
    induction cs with
    | nil => exact h
    | cons c cs ih =>
        obtain ⟨hc, hcs⟩ := Bool.and_eq_true_iff.mp hcs
        have hstep : step .idle c = some ([], .idle) := by
          rcases eq_of_isSeparator hc with rfl | rfl <;> rfl
        rw [List.cons_append, scan_cons, hstep, Option.bind_some, ih hcs]
        rfl
  rw [lex, String.toList_append]
  exact hskip separator.toList hblank

theorem parted_of_isBlank (hblank : isBlank separator = true) (hne : separator ≠ "")
    (b : String) : Parted (separator ++ b).toList := by
  unfold isBlank at hblank
  rw [String.toList_append]
  cases htext : separator.toList with
  | nil => exact absurd (String.toList_eq_nil_iff.mp htext) hne
  | cons c cs =>
      rw [htext] at hblank
      rintro _ ⟨⟩
      rcases eq_of_isSeparator (Bool.and_eq_true_iff.mp hblank).1 with rfl | rfl <;> rfl

theorem lex_separated (hblank : isBlank separator = true) (hne : separator ≠ "")
    (ha : lex a = some tokens) (hb : lex b = some tokens') :
    lex (a ++ separator ++ b) = some (tokens ++ tokens') := by
  rw [String.append_assoc, lex_append ha (parted_of_isBlank hblank hne b),
    lex_indented hblank hb]
  rfl

theorem lex_lines {lines : List String} {readings : List (List Token)} (ha : lex a = some tokens)
    (h : List.Forall₂ (fun line reading => lex line = some reading) lines readings) :
    lex (lines.foldl (fun text line => text ++ "\n" ++ line) a) =
      some (tokens ++ readings.flatten) := by
  induction h generalizing a tokens with
  | nil => simpa using ha
  | cons hline _ ih =>
      rw [List.foldl_cons, ih (lex_separated rfl (by decide) ha hline), List.flatten_cons,
        List.append_assoc]

theorem lex_spread (h : isName text = true) :
    lex (spread text) = some [.ellipsis, .name text] := by
  have hscan : scan .idle text.toList = some [.name text] := lex_name h
  rw [lex, spread, String.toList_append]
  change (((scan .idle text.toList).map ([.ellipsis] ++ ·)).map ([] ++ ·)).map ([] ++ ·) = _
  rw [hscan]
  rfl

theorem lex_braced (h : lex a = some tokens) :
    lex (braced a) = some (.braceOpen :: (tokens ++ [.braceClose])) := by
  have hopen : lex ("\x7b " ++ a) = some (.braceOpen :: tokens) := by
    have hscan : scan .idle a.toList = some tokens := h
    rw [lex, String.toList_append]
    change ((scan .idle a.toList).map ([] ++ ·)).map ([.braceOpen] ++ ·) = _
    rw [hscan]
    rfl
  have hclose : Parted " \x7d".toList := by
    rintro _ ⟨⟩
    rfl
  rw [braced, lex_append hopen hclose]
  rfl

end

end Token

end ContentQuery
