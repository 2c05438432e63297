import ContentQuery.Proofs.Closure
import ContentQuery.Proofs.Tokens

/-!
Documents are well formed. Their text is read as tokens, and these are a sequence of the fragments'
definitions and one query, by a grammar of selections in which no selection set is empty. The text
is glued from parts, each of which is read on its own: names, spreads, fields and sets, `Parses`.
-/

namespace ContentQuery

open Token

/-- What selection sets are made of. -/
inductive Symbol where
  | selection
  | selections
  | set
  | optionalSet

def labelTokens : Option String → List Token
  | none => []
  | some label => [.name label, .colon]

def argumentTokens : Option (String × String) → List Token
  | none => []
  | some (argument, input) =>
      [.parenOpen, .name argument, .colon, .dollar, .name input, .parenClose]

def directiveTokens : Option String → List Token
  | none => []
  | some directive => [.atSign, .name directive]

/-- What a field is before its selection set: `[Name :] Name [(Name : $Name)] [@Name]`. -/
def fieldTokens (label? : Option String) (name : String) (argument? : Option (String × String))
    (directive? : Option String) : List Token :=
  labelTokens label? ++ .name name :: (argumentTokens argument? ++ directiveTokens directive?)

/-- The derivations of the grammar. A set has at least one selection. -/
inductive Derives : Symbol → List Token → Prop
  | spread {name : String} (h : name ≠ "on") : Derives .selection [.ellipsis, .name name]
  | inline (type : String) {tokens : List Token} (h : Derives .set tokens) :
      Derives .selection ([.ellipsis, .name "on", .name type] ++ tokens)
  | field (label? : Option String) (name : String) (argument? : Option (String × String))
      (directive? : Option String) {tokens : List Token} (h : Derives .optionalSet tokens) :
      Derives .selection (fieldTokens label? name argument? directive? ++ tokens)
  | noSet : Derives .optionalSet []
  | someSet {tokens : List Token} (h : Derives .set tokens) : Derives .optionalSet tokens
  | one {tokens : List Token} (h : Derives .selection tokens) : Derives .selections tokens
  | more {tokens tokens' : List Token} (h : Derives .selections tokens)
      (h' : Derives .selection tokens') : Derives .selections (tokens ++ tokens')
  | braced {tokens : List Token} (h : Derives .selections tokens) :
      Derives .set (.braceOpen :: (tokens ++ [.braceClose]))

/-- A fragment's definition, under its name and on its type: `fragment Name on Name Set`. -/
def IsDefinition (f : Fragment) (tokens : List Token) : Prop :=
  f.name ≠ "on" ∧ ∃ set, Derives .set set ∧
    tokens = [.name "fragment", .name f.name, .name "on", .name f.typeCondition] ++ set

/-- A query with one variable: `query Name ($Name : Name) Set`. -/
def IsQuery (tokens : List Token) : Prop :=
  ∃ name input type set, Derives .set set ∧
    tokens = [.name "query", .name name, .parenOpen, .dollar, .name input, .colon, .name type,
      .parenClose] ++ set

/-- The definitions of the fragments in order, then a query. -/
def IsDocument (fragments : List Fragment) (tokens : List Token) : Prop :=
  ∃ definitions query, List.Forall₂ IsDefinition fragments definitions ∧ IsQuery query ∧
    tokens = definitions.flatten ++ query

/-- How many braces are open after the tokens, unless one is closed that was not opened, or one is
closed right after it was opened. -/
def nesting : Nat → List Token → Option Nat
  | depth, [] => some depth
  | _, .braceOpen :: .braceClose :: _ => none
  | depth, .braceOpen :: tokens => nesting (depth + 1) tokens
  | 0, .braceClose :: _ => none
  | depth + 1, .braceClose :: tokens => nesting depth tokens
  | depth, _ :: tokens => nesting depth tokens

section

variable {symbol : Symbol} {tokens rest : List Token}

theorem nesting_braceOpen (depth : Nat) (h : ∀ token ∈ tokens.head?, token ≠ .braceClose) :
    nesting depth (.braceOpen :: tokens) = nesting (depth + 1) tokens := by
  rw [nesting]
  rintro rest rfl
  exact h _ rfl rfl

theorem nesting_fieldTokens (depth : Nat) (label? : Option String) (name : String)
    (argument? : Option (String × String)) (directive? : Option String) (rest : List Token) :
    nesting depth (fieldTokens label? name argument? directive? ++ rest) = nesting depth rest := by
  cases label? <;> cases argument? <;> cases directive? <;>
    simp [fieldTokens, labelTokens, argumentTokens, directiveTokens, nesting]

theorem Derives.head_ne_braceClose (h : Derives symbol tokens)
    (hsymbol : symbol = .selection ∨ symbol = .selections) :
    ∃ token tail, tokens = token :: tail ∧ token ≠ .braceClose := by
  induction h with
  | spread | inline => exact ⟨_, _, rfl, by simp⟩
  | field label? =>
      cases label? with
      | none => exact ⟨_, _, rfl, by simp⟩
      | some label => exact ⟨_, _, rfl, by simp⟩
  | one _ ih => exact ih (Or.inl rfl)
  | more _ _ ih =>
      obtain ⟨token, tail, rfl, htoken⟩ := ih (Or.inr rfl)
      exact ⟨token, _, rfl, htoken⟩
  | noSet | someSet | braced => simp at hsymbol

theorem Derives.nesting_append (h : Derives symbol tokens) (depth : Nat) (rest : List Token) :
    nesting depth (tokens ++ rest) = nesting depth rest := by
  induction h generalizing depth rest with
  | spread => simp [nesting]
  | inline _ _ ih => simpa [nesting] using ih depth rest
  | field label? name argument? directive? _ ih =>
      rw [List.append_assoc, nesting_fieldTokens, ih]
  | noSet => rfl
  | someSet _ ih => exact ih depth rest
  | one _ ih => exact ih depth rest
  | more _ _ ih ih' => rw [List.append_assoc, ih, ih']
  | braced h ih =>
      obtain ⟨token, tail, rfl, htoken⟩ := h.head_ne_braceClose (Or.inr rfl)
      rw [List.cons_append, List.append_assoc, nesting_braceOpen, ih]
      · rfl
      · rintro _ ⟨⟩
        exact htoken

theorem IsDefinition.nesting_append {f : Fragment} (h : IsDefinition f tokens) (depth : Nat)
    (rest : List Token) : nesting depth (tokens ++ rest) = nesting depth rest := by
  obtain ⟨-, set, hset, rfl⟩ := h
  rw [List.append_assoc]
  simpa [nesting] using hset.nesting_append depth rest

theorem IsQuery.nesting_append (h : IsQuery tokens) (depth : Nat) (rest : List Token) :
    nesting depth (tokens ++ rest) = nesting depth rest := by
  obtain ⟨_, _, _, set, hset, rfl⟩ := h
  rw [List.append_assoc]
  simpa [nesting] using hset.nesting_append depth rest

/-- In a document each brace that is opened is closed, and not at once. -/
theorem IsDocument.nesting_eq {fragments : List Fragment} (h : IsDocument fragments tokens) :
    nesting 0 tokens = some 0 := by
  obtain ⟨definitions, query, hdefinitions, hquery, rfl⟩ := h
  induction hdefinitions with
  | nil => simpa [nesting] using hquery.nesting_append 0 []
  | cons hdefinition _ ih =>
      rw [List.flatten_cons, List.append_assoc, hdefinition.nesting_append]
      exact ih

end

/-- The text is read as what the symbol stands for. -/
def Parses (symbol : Symbol) (text : String) : Prop :=
  ∃ tokens, lex text = some tokens ∧ Derives symbol tokens

/-- The text is read as a field of the name without a label. -/
def IsField (name text : String) : Prop :=
  ∃ set, lex text = some (.name name :: set) ∧ Derives .optionalSet set

/-- The text may be the name of a fragment. -/
structure IsFragmentName (text : String) : Prop where
  isName : isName text = true
  ne_on : text ≠ "on"

instance (text : String) : Decidable (IsFragmentName text) :=
  decidable_of_iff (isName text = true ∧ text ≠ "on") ⟨fun h => ⟨h.1, h.2⟩, fun h => ⟨h.1, h.2⟩⟩

section

variable {name a b : String} {fields : List String}

theorem IsFragmentName.parses_spread (h : IsFragmentName name) : Parses .selection (spread name) :=
  ⟨_, lex_spread h.isName, .spread h.ne_on⟩

theorem isField_name (h : isName name = true) : IsField name name := ⟨[], lex_name h, .noSet⟩

theorem IsField.of_set (h : isName name = true) (hset : Parses .set a) :
    IsField name (name ++ " " ++ a) := by
  obtain ⟨set, hlex, hderives⟩ := hset
  exact ⟨set, lex_separated rfl (by decide) (lex_name h) hlex, .someSet hderives⟩

theorem IsField.parses (h : IsField name a) : Parses .selection a := by
  obtain ⟨set, hlex, hderives⟩ := h
  exact ⟨_, hlex, .field none name none none hderives⟩

theorem IsField.parses_labelled {label : String} (h : IsField name a)
    (hlabel : isName label = true) : Parses .selection (label ++ ": " ++ a) := by
  obtain ⟨set, hlex, hderives⟩ := h
  have hcolon : Parted ":".toList := by
    rintro _ ⟨⟩
    rfl
  have hlabelled : lex (label ++ ":") = some [.name label, .colon] :=
    lex_append (lex_name hlabel) hcolon
  have htext : label ++ ":" ++ " " = label ++ ": " := String.append_assoc
  refine ⟨[.name label, .colon] ++ .name name :: set, ?_,
    .field (some label) name none none hderives⟩
  rw [← htext]
  exact lex_separated rfl (by decide) hlabelled hlex

theorem parses_name (h : isName name = true) : Parses .selection name := (isField_name h).parses

theorem Parses.one (h : Parses .selection a) : Parses .selections a := by
  obtain ⟨tokens, hlex, hderives⟩ := h
  exact ⟨tokens, hlex, .one hderives⟩

theorem Parses.append (h : Parses .selections a) (h' : Parses .selection b) :
    Parses .selections (a ++ " " ++ b) := by
  obtain ⟨tokens, hlex, hderives⟩ := h
  obtain ⟨tokens', hlex', hderives'⟩ := h'
  exact ⟨_, lex_separated rfl (by decide) hlex hlex', .more hderives hderives'⟩

theorem Parses.foldl (h : Parses .selections a)
    (hfields : ∀ field ∈ fields, Parses .selection field) :
    Parses .selections (fields.foldl (fun body field => body ++ " " ++ field) a) := by
  induction fields generalizing a with
  | nil => exact h
  | cons field fields ih =>
      exact ih (h.append (hfields field List.mem_cons_self)) fun other hother =>
        hfields other (List.mem_cons_of_mem field hother)

theorem Parses.braced (h : Parses .selections a) : Parses .set (braced a) := by
  obtain ⟨tokens, hlex, hderives⟩ := h
  exact ⟨_, lex_braced hlex, .braced hderives⟩

theorem Parses.inline {head type : String}
    (hhead : lex head = some [.ellipsis, .name "on", .name type]) (h : Parses .set a) :
    Parses .selection (head ++ " " ++ a) := by
  obtain ⟨tokens, hlex, hderives⟩ := h
  exact ⟨_, lex_separated rfl (by decide) hhead hlex, .inline type hderives⟩

theorem parses_list {first : String} (h : ∀ field ∈ first :: fields, Parses .selection field) :
    Parses .selections (fields.foldl (fun body field => body ++ " " ++ field) first) := by
  obtain ⟨hfirst, hfields⟩ := List.forall_mem_cons.mp h
  exact hfirst.one.foldl hfields

theorem parses_names (h : fields.all isName = true) : ∀ field ∈ fields, Parses .selection field :=
  fun field hfield => parses_name (List.all_eq_true.mp h field hfield)

theorem parses_typedBody (h : ∀ field ∈ fields, Parses .selection field) :
    Parses .selections (typedBody fields) :=
  parses_list (List.forall_mem_cons.mpr ⟨parses_name rfl, h⟩)

theorem parses_words (first : String) (rest : List String)
    (h : (first :: rest).all isName = true) :
    Parses .selections (rest.foldl (fun body field => body ++ " " ++ field) first) :=
  parses_list (parses_names h)

theorem parses_urlShape : Parses .set urlShape := (parses_words "type" ["default"] rfl).braced

theorem parses_url : Parses .selection ("url " ++ urlShape) :=
  (IsField.of_set rfl parses_urlShape : IsField "url" ("url" ++ " " ++ urlShape)).parses

theorem isField_plainField (h : isName name = true) (kind : PropertyKind) :
    IsField name (Compile.plainField name kind) := by
  cases kind with
  | richText => exact .of_set h (parses_words "html" ["json"] rfl).braced
  | url => exact .of_set h parses_urlShape
  | link =>
      have hwords : Parses .selections "text title target" :=
        parses_words "text" ["title", "target"] rfl
      have htext : "text title target url " = "text title target" ++ " " ++ "url " := rfl
      have hlink := hwords.append parses_url
      rw [← String.append_assoc, ← htext] at hlink
      exact .of_set h hlink.braced
  | contentReference => exact .of_set h parses_url.one.braced
  | _ => exact isField_name h

end

theorem exists_definition {f : Fragment} (hname : IsFragmentName f.name)
    (htype : isName f.typeCondition = true) (hbody : Parses .selections f.body) :
    ∃ tokens, lex f.render = some tokens ∧ IsDefinition f tokens := by
  obtain ⟨set, hset, hderives⟩ := hbody.braced
  have htext : f.render = "fragment" ++ " " ++ f.name ++ " " ++ "on" ++ " " ++ f.typeCondition ++
      " " ++ braced f.body := by
    have hstart : "fragment " = "fragment" ++ " " := rfl
    have hon : " on " = " " ++ ("on" ++ " ") := rfl
    rw [Fragment.render, hstart, hon]
    simp only [String.append_assoc]
  have hfragment : lex "fragment" = some [.name "fragment"] := rfl
  have hspace : isBlank " " = true := rfl
  have hne : " " ≠ "" := by decide
  refine ⟨[.name "fragment", .name f.name, .name "on", .name f.typeCondition] ++ set, ?_,
    hname.ne_on, set, hderives, rfl⟩
  rw [htext]
  have hhead := lex_separated hspace hne hfragment (lex_name hname.isName)
  exact lex_separated hspace hne (lex_separated hspace hne (lex_separated hspace hne hhead
    (lex_name rfl)) (lex_name htype)) hset

theorem exists_query {root : String} (h : IsFragmentName root) :
    ∃ tokens, lex (String.intercalate "\n" (Document.queryLines root)) = some tokens ∧
      IsQuery tokens := by
  have htext : String.intercalate "\n" (Document.queryLines root) =
      (Document.queryLines root).tail.foldl (fun text line => text ++ "\n" ++ line)
        ("query " ++ queryName ++ "($where: _ContentWhereInput) \x7b") := rfl
  have hquery : lex ("query " ++ queryName ++ "($where: _ContentWhereInput) \x7b") =
      some [.name "query", .name queryName, .parenOpen, .dollar, .name "where", .colon,
        .name "_ContentWhereInput", .parenClose, .braceOpen] := rfl
  have hcontent : lex "  _Content(where: $where) \x7b" =
      some [.name "_Content", .parenOpen, .name "where", .colon, .dollar, .name "where",
        .parenClose, .braceOpen] := rfl
  have hitem : lex "    item \x7b" = some [.name "item", .braceOpen] := rfl
  have htypename : lex "      __typename" = some [.name "__typename"] := rfl
  have hspread : lex ("      " ++ spread root) = some [.ellipsis, .name root] :=
    lex_indented rfl (lex_spread h.isName)
  have hclose : lex "    \x7d" = some [.braceClose] := rfl
  have hclose' : lex "  \x7d" = some [.braceClose] := rfl
  have hend : lex "\x7d" = some [.braceClose] := rfl
  have hlex := lex_lines hquery (.cons hcontent (.cons hitem (.cons htypename (.cons hspread
    (.cons hclose (.cons hclose' (.cons hend .nil)))))))
  have hset : Derives .set [.braceOpen, .name "__typename", .ellipsis, .name root, .braceClose] :=
    .braced (.more (.one (.field none "__typename" none none .noSet)) (.spread h.ne_on))
  have hselection :=
    Derives.field none "_Content" (some ("where", "where")) none (.someSet (.braced (.one
      (.field none "item" none none (.someSet hset)))))
  exact ⟨_, htext ▸ hlex, queryName, "where", "_ContentWhereInput", _,
    .braced (.one hselection), rfl⟩

theorem exists_definitions {fragments : List Fragment}
    (h : ∀ f ∈ fragments, ∃ tokens, lex f.render = some tokens ∧ IsDefinition f tokens)
    {text : String} {tokens : List Token} (htext : lex text = some tokens) :
    ∃ definitions, List.Forall₂ IsDefinition fragments definitions ∧
      lex (Fragment.lines fragments ++ text) = some (definitions.flatten ++ tokens) := by
  induction fragments with
  | nil => exact ⟨[], .nil, by simpa [Fragment.lines] using htext⟩
  | cons f fragments ih =>
      obtain ⟨⟨definition, hlex, hdefinition⟩, hrest⟩ := List.forall_mem_cons.mp h
      obtain ⟨definitions, hdefinitions, hlines⟩ := ih hrest
      have hcons : Fragment.lines (f :: fragments) ++ text =
          f.render ++ "\n" ++ (Fragment.lines fragments ++ text) := by
        rw [Fragment.lines, List.map_cons, String.join_cons, String.append_assoc]
        rfl
      refine ⟨definition :: definitions, .cons hdefinition hdefinitions, ?_⟩
      rw [hcons, lex_separated rfl (by decide) hlex hlines, List.flatten_cons, List.append_assoc]

/-- The text of a document is read as one if each of its fragments is read as its definition. -/
theorem exists_document (d : Document) (hroot : IsFragmentName d.root)
    (h : ∀ f ∈ d.fragments, ∃ tokens, lex f.render = some tokens ∧ IsDefinition f tokens) :
    ∃ tokens, lex d.render = some tokens ∧ IsDocument d.fragments tokens := by
  obtain ⟨query, hlex, hquery⟩ := exists_query hroot
  obtain ⟨definitions, hdefinitions, hlines⟩ := exists_definitions h hlex
  exact ⟨_, hlines, definitions, query, hdefinitions, hquery, rfl⟩

end ContentQuery
