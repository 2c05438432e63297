namespace ContentQuery.Text

/-- Whether a number is in one of the ranges, which have both ends and are in increasing order. The
first range that does not end below the number decides. -/
def inRanges (n : Nat) : List (Nat × Nat) → Bool
  | [] => false
  | (first, last) :: ranges => if n ≤ last then first ≤ n else inRanges n ranges

/-- The characters with the Unicode property White_Space. -/
def isBlank (c : Char) : Bool :=
  let n := c.toNat
  (0x09 ≤ n && n ≤ 0x0D) || n == 0x20 || n == 0x85 || n == 0xA0 || n == 0x1680 ||
    (0x2000 ≤ n && n ≤ 0x200A) || n == 0x2028 || n == 0x2029 || n == 0x202F || n == 0x205F ||
    n == 0x3000

def trimBlanks (cs : List Char) : List Char :=
  ((cs.dropWhile isBlank).reverse.dropWhile isBlank).reverse

/-- The parts between the separators, in order; there is one more of them than of separators. -/
def parts (separator : Char) : List Char → List (List Char)
  | [] => [[]]
  | c :: cs =>
      match parts separator cs with
      | [] => [[c]]
      | part :: rest => if c = separator then [] :: part :: rest else (c :: part) :: rest

/-- The template with the detail in place of every pair of braces. What the detail itself holds is
left alone. -/
def fillChars (detail : List Char) : List Char → List Char
  | '\x7b' :: '\x7d' :: cs => detail ++ fillChars detail cs
  | c :: cs => c :: fillChars detail cs
  | [] => []

theorem fillChars_append (detail : List Char) {text : List Char} (h : '\x7b' ∉ text)
    (rest : List Char) : fillChars detail (text ++ rest) = text ++ fillChars detail rest := by
  induction text with
  | nil => rfl
  | cons c cs ih =>
      rw [List.mem_cons, not_or] at h
      have hstep : fillChars detail (c :: (cs ++ rest)) = c :: fillChars detail (cs ++ rest) := by
        rw [fillChars]
        rintro tail rfl
        exact absurd rfl h.1
      rw [List.cons_append, hstep, ih h.2]
      rfl

def fill (template detail : String) : String :=
  String.ofList (fillChars detail.toList template.toList)

def hexDigits (n : Nat) : List Char := Nat.toDigits 16 n

/-- The last two digits of a number. -/
def hexPair (n : Nat) : List Char := [Nat.digitChar (n / 16 % 16), Nat.digitChar (n % 16)]

def hexValue? (c : Char) : Option Nat :=
  if '0' ≤ c && c ≤ '9' then some (c.toNat - '0'.toNat)
  else if 'a' ≤ c && c ≤ 'f' then some (c.toNat - 'a'.toNat + 10)
  else if 'A' ≤ c && c ≤ 'F' then some (c.toNat - 'A'.toNat + 10)
  else none

theorem hexValue?_digitChar : ∀ d, d < 16 → hexValue? (Nat.digitChar d) = some d := by
  decide

end ContentQuery.Text
