import Mathlib.Data.List.Basic
import Mathlib.Data.Nat.Notation

/-!
# JSON values and their text

A value is spelled as Python's `json.dumps` does: characters outside the printable ASCII range
are escaped by their UTF-16 units, and members keep their order. The blanks behind a comma and
a colon are a parameter. Reading is Python's `json.loads`: it skips blanks, takes a number with
a fraction or an exponent for a float, and keeps the members of an object in their order.

What floats are is left open, and so is their text but for what `repr` documents: it reads back,
and is not the text of an integer. Reading undoes spelling whatever follows; so spelling is
injective.
-/

namespace KvCache.Json

/-- The values of JSON, over the floats `φ`. Members are listed with their keys. -/
inductive Json (φ : Type) where
  | null
  | bool (value : Bool)
  | int (value : Int)
  | float (value : φ)
  | str (value : String)
  | arr (items : List (Json φ))
  | obj (members : List (String × Json φ))

/-! ## Characters of strings -/

/-- The UTF-16 units of a character. -/
def units (char : Char) : List Nat :=
  if char.toNat < 0x10000 then [char.toNat]
  else [0xD800 + (char.toNat - 0x10000) / 0x400, 0xDC00 + (char.toNat - 0x10000) % 0x400]

/-- The characters that units spell. -/
def combine : List Nat → Option (List Char)
  | [] => some []
  | [unit] => if 0xD800 ≤ unit ∧ unit < 0xE000 then none else some [Char.ofNat unit]
  | unit :: next :: rest =>
    if 0xD800 ≤ unit ∧ unit < 0xDC00 then
      if 0xDC00 ≤ next ∧ next < 0xE000 then
        (combine rest).map
          (Char.ofNat (0x10000 + (unit - 0xD800) * 0x400 + (next - 0xDC00)) :: ·)
      else none
    else if 0xDC00 ≤ unit ∧ unit < 0xE000 then none
    else (combine (next :: rest)).map (Char.ofNat unit :: ·)

theorem combine_cons {unit : Nat} (rest : List Nat) (plain : unit < 0xD800 ∨ 0xE000 ≤ unit) :
    combine (unit :: rest) = (combine rest).map (Char.ofNat unit :: ·) := by
  cases rest with
  | nil =>
    have plain : ¬ (0xD800 ≤ unit ∧ unit < 0xE000) := by omega
    simp [combine, plain]
  | cons next rest => rw [combine, if_neg (by omega), if_neg (by omega)]

/-- Characters are read back from their units. -/
theorem combine_units (chars : List Char) : combine (chars.flatMap units) = some chars := by
  induction chars with
  | nil => rfl
  | cons char rest inductionHypothesis =>
    have valid : char.toNat < 0xD800 ∨ 0xDFFF < char.toNat ∧ char.toNat < 0x110000 := char.valid
    rw [List.flatMap_cons, units]
    split
    · rw [List.singleton_append, combine_cons _ (by omega), inductionHypothesis, Char.ofNat_toNat]
      rfl
    · have whole : 0x10000 + (0xD800 + (char.toNat - 0x10000) / 0x400 - 0xD800) * 0x400 +
          (0xDC00 + (char.toNat - 0x10000) % 0x400 - 0xDC00) = char.toNat := by omega
      rw [List.cons_append, List.singleton_append, combine, if_pos (by omega), if_pos (by omega),
        whole, inductionHypothesis, Char.ofNat_toNat]
      rfl

theorem units_lt {char : Char} {unit : Nat} (member : unit ∈ units char) : unit < 0x10000 := by
  have valid : char.toNat < 0xD800 ∨ 0xDFFF < char.toNat ∧ char.toNat < 0x110000 := char.valid
  rw [units] at member
  split at member
  · next small => exact (List.mem_singleton.mp member) ▸ small
  · rcases List.mem_cons.mp member with high | low
    · omega
    · rw [List.mem_singleton.mp low]
      omega

/-- Four hexadecimal digits. -/
def hex (unit : Nat) : List Char :=
  [Nat.digitChar (unit / 0x1000), Nat.digitChar (unit / 0x100 % 0x10),
    Nat.digitChar (unit / 0x10 % 0x10), Nat.digitChar (unit % 0x10)]

/-- The value of a hexadecimal digit. -/
def hexValue (char : Char) : Option Nat :=
  if char.isDigit then some (char.toNat - 0x30)
  else if 'a' ≤ char ∧ char ≤ 'f' then some (char.toNat - 0x57)
  else if 'A' ≤ char ∧ char ≤ 'F' then some (char.toNat - 0x37)
  else none

theorem hexValue_digitChar : ∀ digit < 0x10, hexValue (Nat.digitChar digit) = some digit := by
  decide

/-- The unit that four digits spell. -/
def readHex (a b c d : Char) : Option Nat := do
  let a ← hexValue a
  let b ← hexValue b
  let c ← hexValue c
  let d ← hexValue d
  some (a * 0x1000 + b * 0x100 + c * 0x10 + d)

theorem readHex_hex {unit : Nat} (small : unit < 0x10000) :
    readHex (Nat.digitChar (unit / 0x1000)) (Nat.digitChar (unit / 0x100 % 0x10))
      (Nat.digitChar (unit / 0x10 % 0x10)) (Nat.digitChar (unit % 0x10)) = some unit := by
  rw [readHex, hexValue_digitChar _ (by omega), hexValue_digitChar _ (by omega),
    hexValue_digitChar _ (by omega), hexValue_digitChar _ (by omega)]
  simp only [bind, Option.bind]
  rw [Option.some.injEq]
  omega

/-- The letter of a short escape and the unit that it stands for. -/
def shorthands : List (Char × Nat) :=
  [('\x22', 0x22), ('\x5c', 0x5C), ('n', 0x0A), ('r', 0x0D), ('t', 0x09), ('f', 0x0C),
    ('b', 0x08), ('/', 0x2F)]

/-- The text of a unit. A solidus is not escaped. -/
def escape (unit : Nat) : List Char :=
  match shorthands.find? fun (letter, short) => short == unit && letter != '/' with
  | some (letter, _) => ['\x5c', letter]
  | none => if 0x20 ≤ unit ∧ unit ≤ 0x7E then [Char.ofNat unit] else '\x5c' :: 'u' :: hex unit

/-- What an escape stands for, behind its solidus. -/
def readEscape : List Char → Option (Nat × List Char)
  | [] => none
  | letter :: rest =>
    if letter = 'u' then
      match rest with
      | a :: b :: c :: d :: rest => (readHex a b c d).map (·, rest)
      | _ => none
    else (shorthands.find? (·.1 == letter)).map fun (_, unit) => (unit, rest)

/-- The first unit of a string. -/
def readUnit : List Char → Option (Nat × List Char)
  | [] => none
  | char :: rest =>
    if char = '\x5c' then readEscape rest
    else if char.toNat < 0x20 then none
    else some (char.toNat, rest)

theorem toNat_ofNat_ascii : ∀ unit < 0x7F, (Char.ofNat unit).toNat = unit := by
  decide

/-- Where a unit is not escaped it is a printable character other than quote and solidus. -/
theorem plain_of_unescaped {unit : Nat} (printable : 0x20 ≤ unit ∧ unit ≤ 0x7E)
    (unescaped : shorthands.find? (fun (letter, short) => short == unit && letter != '/') = none) :
    (Char.ofNat unit).toNat = unit ∧ Char.ofNat unit ≠ '\x22' ∧ Char.ofNat unit ≠ '\x5c' := by
  have value : (Char.ofNat unit).toNat = unit := toNat_ofNat_ascii unit (by omega)
  refine ⟨value, fun quote => ?_, fun solidus => ?_⟩
  · rw [quote] at value
    subst value
    exact absurd unescaped (by decide)
  · rw [solidus] at value
    subst value
    exact absurd unescaped (by decide)

/-- A unit is read back from its text. -/
theorem readUnit_escape {unit : Nat} (small : unit < 0x10000) (rest : List Char) :
    readUnit (escape unit ++ rest) = some (unit, rest) := by
  rw [escape]
  split
  · next letter short found =>
    have chosen := List.find?_some found
    have same : short = unit := beq_iff_eq.mp (Bool.and_eq_true_iff.mp chosen).1
    have member := List.mem_of_find?_eq_some found
    subst same
    simp only [shorthands, List.mem_cons, Prod.mk.injEq, List.not_mem_nil, or_false] at member
    rcases member with ⟨rfl, rfl⟩ | ⟨rfl, rfl⟩ | ⟨rfl, rfl⟩ | ⟨rfl, rfl⟩ | ⟨rfl, rfl⟩ | ⟨rfl, rfl⟩ |
      ⟨rfl, rfl⟩ | ⟨rfl, rfl⟩ <;> rfl
  · next unescaped =>
    split
    · next printable =>
      obtain ⟨value, _, solidus⟩ := plain_of_unescaped printable unescaped
      rw [List.singleton_append, readUnit, if_neg solidus, value, if_neg (by omega)]
    · change (readHex _ _ _ _).map (·, rest) = _
      rw [readHex_hex small]
      rfl

/-- The text of a unit is not a closing quote. -/
theorem escape_head (unit : Nat) : ∃ head tail, escape unit = head :: tail ∧ head ≠ '\x22' := by
  rw [escape]
  split
  · exact ⟨_, _, rfl, by decide⟩
  · next unescaped =>
    split
    · next printable => exact ⟨_, _, rfl, (plain_of_unescaped printable unescaped).2.1⟩
    · exact ⟨_, _, rfl, by decide⟩

/-- The units of a string up to its closing quote, and what follows. -/
def readUnits : Nat → List Char → Option (List Nat × List Char)
  | 0, _ => none
  | _ + 1, [] => none
  | fuel + 1, char :: rest =>
    if char = '\x22' then some ([], rest)
    else do
      let (unit, rest) ← readUnit (char :: rest)
      let (later, rest) ← readUnits fuel rest
      some (unit :: later, rest)

theorem readUnits_escape {chars : List Nat} (small : ∀ unit ∈ chars, unit < 0x10000)
    {fuel : Nat} (enough : chars.length < fuel) (rest : List Char) :
    readUnits fuel (chars.flatMap escape ++ '\x22' :: rest) = some (chars, rest) := by
  induction chars generalizing fuel with
  | nil =>
    obtain ⟨fuel, rfl⟩ := Nat.exists_eq_succ_of_ne_zero (Nat.ne_of_gt enough)
    rfl
  | cons unit later inductionHypothesis =>
    obtain ⟨fuel, rfl⟩ := Nat.exists_eq_succ_of_ne_zero (Nat.ne_of_gt (Nat.zero_lt_of_lt enough))
    obtain ⟨head, tail, spelled, unquoted⟩ := escape_head unit
    have first := readUnit_escape (small unit List.mem_cons_self)
      (later.flatMap escape ++ '\x22' :: rest)
    have others := inductionHypothesis (fun other member => small other (List.mem_cons_of_mem unit member))
      (Nat.lt_of_succ_lt_succ enough)
    rw [List.flatMap_cons, List.append_assoc, spelled, List.cons_append] at *
    rw [readUnits, if_neg unquoted, first]
    simp only [bind, Option.bind, others]

/-- The text of a string, with its quotes. -/
def spellString (string : String) : List Char :=
  '\x22' :: ((string.toList.flatMap units).flatMap escape ++ ['\x22'])

/-- The string whose opening quote was read. -/
def readString (fuel : Nat) (text : List Char) : Option (String × List Char) := do
  let (spelled, rest) ← readUnits fuel text
  let chars ← combine spelled
  some (String.ofList chars, rest)

theorem flatMap_length_le (chars : List Nat) : chars.length ≤ (chars.flatMap escape).length := by
  induction chars with
  | nil => exact Nat.le_refl 0
  | cons unit later inductionHypothesis =>
    obtain ⟨head, tail, spelled, _⟩ := escape_head unit
    rw [List.flatMap_cons, spelled, List.length_append, List.length_cons, List.length_cons]
    omega

/-- A string is read back. -/
theorem readString_spellString {string : String} {fuel : Nat}
    (enough : (spellString string).length ≤ fuel + 1) (rest : List Char) :
    ∃ text, spellString string ++ rest = '\x22' :: text ∧
      readString fuel text = some (string, rest) := by
  refine ⟨(string.toList.flatMap units).flatMap escape ++ '\x22' :: rest, by simp [spellString], ?_⟩
  have counted := flatMap_length_le (string.toList.flatMap units)
  rw [spellString, List.length_cons, List.length_append, List.length_singleton] at enough
  have small : ∀ unit ∈ string.toList.flatMap units, unit < 0x10000 := by
    intro unit member
    obtain ⟨char, _, spelled⟩ := List.mem_flatMap.mp member
    exact units_lt spelled
  rw [readString, readUnits_escape small (by omega)]
  simp only [bind, Option.bind, combine_units, String.ofList_toList]

/-! ## Numbers and names -/

/-- The characters of numbers and names. -/
def wordChar (char : Char) : Bool :=
  char.isAlphanum || char == '+' || char == '-' || char == '.'

def spellInt : Int → List Char
  | .ofNat value => Nat.toDigits 10 value
  | .negSucc value => '-' :: Nat.toDigits 10 (value + 1)

/-- Decimal digits without a needless zero in front. -/
def readNat (digits : List Char) : Option Nat :=
  if digits ≠ [] ∧ digits.all Char.isDigit ∧ (digits = ['0'] ∨ digits.head? ≠ some '0') then
    some (Nat.ofDigitChars 10 digits 0)
  else none

def readInt : List Char → Option Int
  | [] => none
  | char :: rest =>
    if char = '-' then (readNat rest).map fun value => -(value : Int)
    else (readNat (char :: rest)).map fun value => (value : Int)

/-- The digits of a positive number do not begin with a zero. -/
theorem head_toDigits {value : Nat} (positive : 0 < value) :
    (Nat.toDigits 10 value).head? ≠ some '0' := by
  induction value using Nat.strongRecOn with
  | ind value inductionHypothesis =>
    rcases Nat.lt_or_ge value 10 with small | large
    · rw [Nat.toDigits_of_lt_base small, List.head?_cons, Ne, Option.some.injEq,
        Nat.digitChar_eq_zero]
      omega
    · have shorter := inductionHypothesis (value / 10) (by omega) (by omega)
      rw [Nat.toDigits_of_base_le (by decide) large, List.head?_append]
      cases first : (Nat.toDigits 10 (value / 10)).head? with
      | none => exact absurd (List.head?_eq_none_iff.mp first) Nat.toDigits_ne_nil
      | some char => simpa [first] using shorter

theorem readNat_toDigits (value : Nat) : readNat (Nat.toDigits 10 value) = some value := by
  have digits : (Nat.toDigits 10 value).all Char.isDigit = true :=
    List.all_eq_true.mpr fun _ member => Nat.isDigit_of_mem_toDigits (by decide) (by decide) member
  rw [readNat, if_pos, Nat.ofDigitChars_ten_toDigits]
  refine ⟨Nat.toDigits_ne_nil, digits, ?_⟩
  rcases Nat.eq_zero_or_pos value with rfl | positive
  · exact Or.inl (Nat.toDigits_zero 10)
  · exact Or.inr (head_toDigits positive)

theorem readInt_spellInt (value : Int) : readInt (spellInt value) = some value := by
  cases value with
  | ofNat value =>
    have back := readNat_toDigits value
    rw [spellInt]
    cases spelled : Nat.toDigits 10 value with
    | nil => exact absurd spelled Nat.toDigits_ne_nil
    | cons char rest =>
      have digit : char.isDigit = true :=
        Nat.isDigit_of_mem_toDigits (by decide) (by decide) (spelled ▸ List.mem_cons_self)
      have unsigned : char ≠ '-' := by
        rintro rfl
        exact absurd digit (by decide)
      rw [readInt, if_neg unsigned, ← spelled, back]
      rfl
  | negSucc value =>
    rw [spellInt, readInt, if_pos rfl, readNat_toDigits]
    rfl

theorem wordChar_of_digit {char : Char} (digit : char.isDigit = true) : wordChar char = true := by
  simp [wordChar, Char.isAlphanum, digit]

theorem spellInt_word (value : Int) :
    spellInt value ≠ [] ∧ ∀ char ∈ spellInt value, wordChar char = true := by
  have digits : ∀ natural : Nat, ∀ char ∈ Nat.toDigits 10 natural, wordChar char = true :=
    fun _ _ member =>
      wordChar_of_digit (Nat.isDigit_of_mem_toDigits (by decide) (by decide) member)
  cases value with
  | ofNat value => exact ⟨Nat.toDigits_ne_nil, digits value⟩
  | negSucc value =>
    refine ⟨List.cons_ne_nil _ _, fun char member => ?_⟩
    rcases List.mem_cons.mp member with rfl | digit
    · decide
    · exact digits (value + 1) char digit

/-- The names of JSON. -/
def names : List (List Char) := ["null".toList, "true".toList, "false".toList]

theorem names_word : ∀ name ∈ names, name ≠ [] ∧ ∀ char ∈ name, wordChar char = true := by
  simp [names, wordChar]


/-- The text of floats, as `repr` documents it. -/
structure FloatText (φ : Type) where
  spell : φ → List Char
  read : List Char → Option φ
  word : ∀ value, spell value ≠ [] ∧ ∀ char ∈ spell value, wordChar char = true
  fractional : ∀ value, readInt (spell value) = none
  unnamed : ∀ value, spell value ∉ names
  read_spell : ∀ value, read (spell value) = some value

section Text

variable {φ : Type} (floats : FloatText φ) (gap : List Char)

/-! ## Values -/

mutual

/-- The text of a value. -/
def spell : Json φ → List Char
  | .null => "null".toList
  | .bool true => "true".toList
  | .bool false => "false".toList
  | .int value => spellInt value
  | .float value => floats.spell value
  | .str value => spellString value
  | .arr [] => ['\x5b', '\x5d']
  | .arr (item :: items) => '\x5b' :: (spell item ++ spellItems items)
  | .obj [] => ['\x7b', '\x7d']
  | .obj ((key, value) :: members) =>
    '\x7b' :: (spellString key ++ ':' :: (gap ++ (spell value ++ spellMembers members)))

/-- The text of the further items of an array, with the bracket. -/
def spellItems : List (Json φ) → List Char
  | [] => ['\x5d']
  | item :: items => ',' :: (gap ++ (spell item ++ spellItems items))

/-- The text of the further members of an object, with the brace. -/
def spellMembers : List (String × Json φ) → List Char
  | [] => ['\x7d']
  | (key, value) :: members =>
    ',' :: (gap ++ (spellString key ++ ':' :: (gap ++ (spell value ++ spellMembers members))))

end

theorem spell_null : spell floats gap .null = "null".toList := rfl

theorem spell_true : spell floats gap (.bool true) = "true".toList := rfl

theorem spell_false : spell floats gap (.bool false) = "false".toList := rfl

theorem spell_int (value : Int) : spell floats gap (.int value) = spellInt value := rfl

theorem spell_float (value : φ) : spell floats gap (.float value) = floats.spell value := rfl

theorem spell_str (value : String) : spell floats gap (.str value) = spellString value := rfl

theorem spell_arr_nil : spell floats gap (.arr []) = ['\x5b', '\x5d'] := rfl

theorem spell_arr_cons (item : Json φ) (items : List (Json φ)) :
    spell floats gap (.arr (item :: items)) =
      '\x5b' :: (spell floats gap item ++ spellItems floats gap items) := rfl

theorem spell_obj_nil : spell floats gap (.obj []) = ['\x7b', '\x7d'] := rfl

theorem spell_obj_cons (key : String) (value : Json φ) (members : List (String × Json φ)) :
    spell floats gap (.obj ((key, value) :: members)) =
      '\x7b' :: (spellString key ++
        ':' :: (gap ++ (spell floats gap value ++ spellMembers floats gap members))) := rfl

def isBlank (char : Char) : Bool := char == ' ' || char == '\t' || char == '\n' || char == '\r'

/-- The text behind blanks. -/
def skip (text : List Char) : List Char := text.dropWhile isBlank

/-- What a name or a number means. -/
def readWord (word : List Char) : Option (Json φ) :=
  if word = "null".toList then some .null
  else if word = "true".toList then some (.bool true)
  else if word = "false".toList then some (.bool false)
  else match readInt word with
    | some value => some (.int value)
    | none => (floats.read word).map .float

/-- What a character leads to, behind blanks. -/
def expect (char : Char) (text : List Char) : Option (List Char) :=
  match skip text with
  | [] => none
  | first :: rest => if first = char then some rest else none

mutual

/-- The first value of a text, and what follows. The fuel bounds the length of the text. -/
def readValue : Nat → List Char → Option (Json φ × List Char)
  | 0, _ => none
  | fuel + 1, text =>
    match skip text with
    | [] => none
    | char :: rest =>
      if char = '\x22' then (readString fuel rest).map fun (value, rest) => (.str value, rest)
      else if char = '\x5b' then
        match expect '\x5d' rest with
        | some rest => some (.arr [], rest)
        | none => do
          let (item, rest) ← readValue fuel rest
          let (items, rest) ← readItems fuel rest
          some (.arr (item :: items), rest)
      else if char = '\x7b' then
        match expect '\x7d' rest with
        | some rest => some (.obj [], rest)
        | none => do
          let (member, rest) ← readMember fuel rest
          let (members, rest) ← readMembers fuel rest
          some (.obj (member :: members), rest)
      else
        (readWord floats ((char :: rest).takeWhile wordChar)).map
          (·, (char :: rest).dropWhile wordChar)

/-- The further items of an array. -/
def readItems : Nat → List Char → Option (List (Json φ) × List Char)
  | 0, _ => none
  | fuel + 1, text =>
    match expect '\x5d' text with
    | some rest => some ([], rest)
    | none => do
      let rest ← expect ',' text
      let (item, rest) ← readValue fuel rest
      let (items, rest) ← readItems fuel rest
      some (item :: items, rest)

/-- A key, a colon and a value. -/
def readMember : Nat → List Char → Option ((String × Json φ) × List Char)
  | 0, _ => none
  | fuel + 1, text => do
    let rest ← expect '\x22' text
    let (key, rest) ← readString fuel rest
    let rest ← expect ':' rest
    let (value, rest) ← readValue fuel rest
    some ((key, value), rest)

/-- The further members of an object. -/
def readMembers : Nat → List Char → Option (List (String × Json φ) × List Char)
  | 0, _ => none
  | fuel + 1, text =>
    match expect '\x7d' text with
    | some rest => some ([], rest)
    | none => do
      let rest ← expect ',' text
      let (member, rest) ← readMember fuel rest
      let (members, rest) ← readMembers fuel rest
      some (member :: members, rest)

end

/-- The value of a text that has nothing else but blanks. -/
def loads (text : List Char) : Option (Json φ) :=
  match readValue floats (text.length + 1) text with
  | some (value, rest) => if skip rest = [] then some value else none
  | none => none

/-! ## Reading what was spelled -/

variable {floats gap}

/-- A word ends where the text does, or at a character of no word. -/
def Ends (text : List Char) : Prop := ∀ char, text.head? = some char → wordChar char = false

/-- A text whose first character is not blank, and none of those given. -/
def Starts (others : List Char) (text : List Char) : Prop :=
  ∃ char rest, text = char :: rest ∧ isBlank char = false ∧ char ∉ others

theorem Starts.append {others text : List Char} (starts : Starts others text) (rest : List Char) :
    Starts others (text ++ rest) := by
  obtain ⟨char, tail, rfl, solid, other⟩ := starts
  exact ⟨char, tail ++ rest, rfl, solid, other⟩

theorem skip_starts {others text : List Char} (starts : Starts others text) : skip text = text := by
  obtain ⟨char, rest, rfl, solid, _⟩ := starts
  rw [skip, List.dropWhile_cons, if_neg (by simp [solid])]

theorem skip_solid {char : Char} (solid : isBlank char = false) (rest : List Char) :
    skip (char :: rest) = char :: rest := by
  rw [skip, List.dropWhile_cons, if_neg (by simp [solid])]

theorem skip_gap {others text : List Char} (blank : ∀ char ∈ gap, isBlank char = true)
    (starts : Starts others text) : skip (gap ++ text) = text := by
  induction gap with
  | nil => exact skip_starts starts
  | cons char rest inductionHypothesis =>
    rw [skip, List.cons_append, List.dropWhile_cons, if_pos (blank char List.mem_cons_self)]
    exact inductionHypothesis fun other member => blank other (List.mem_cons_of_mem char member)

theorem expect_eq {char : Char} (rest : List Char) (solid : isBlank char = false) :
    expect char (char :: rest) = some rest := by
  rw [expect, skip_solid solid]
  exact if_pos rfl

/-- Characters of words are not blank and no punctuation. -/
theorem wordChar_solid {char : Char} (inWord : wordChar char = true) :
    isBlank char = false ∧ char ∉ ['\x22', '\x5b', '\x5d', '\x7b', '\x7d', ',', ':'] := by
  constructor
  · rw [Bool.eq_false_iff]
    intro blank
    simp only [isBlank, Bool.or_eq_true, beq_iff_eq] at blank
    rcases blank with ((rfl | rfl) | rfl) | rfl <;> exact absurd inWord (by decide)
  · simp only [List.mem_cons, List.not_mem_nil, or_false]
    rintro (rfl | rfl | rfl | rfl | rfl | rfl | rfl) <;> exact absurd inWord (by decide)

theorem starts_word {word : List Char}
    (valid : word ≠ [] ∧ ∀ char ∈ word, wordChar char = true) :
    Starts ['\x22', '\x5b', '\x5d', '\x7b', '\x7d', ',', ':'] word := by
  cases word with
  | nil => exact absurd rfl valid.1
  | cons char rest =>
    obtain ⟨solid, other⟩ := wordChar_solid (valid.2 char List.mem_cons_self)
    exact ⟨char, rest, rfl, solid, other⟩

/-- A word is read whole where it ends. -/
theorem readValue_word {word : List Char} {value : Json φ}
    (valid : word ≠ [] ∧ ∀ char ∈ word, wordChar char = true)
    (meant : readWord floats word = some value) {fuel : Nat} (enough : word.length ≤ fuel)
    {rest : List Char} (ends : Ends rest) :
    readValue floats fuel (word ++ rest) = some (value, rest) := by
  have taken : (word ++ rest).takeWhile wordChar = word ∧
      (word ++ rest).dropWhile wordChar = rest := by
    rw [List.takeWhile_append_of_pos valid.2, List.dropWhile_append_of_pos valid.2]
    cases rest with
    | nil => simp
    | cons char tail =>
      have outside := ends char rfl
      simp [outside]
  obtain ⟨char, tail, same, solid, other⟩ := (starts_word valid).append rest
  simp only [List.mem_cons, List.not_mem_nil, or_false, not_or] at other
  obtain ⟨fuel, rfl⟩ : ∃ less, fuel = less + 1 := by
    refine ⟨fuel - 1, ?_⟩
    have some_char := List.length_pos_iff.mpr valid.1
    omega
  rw [readValue, skip_starts ((starts_word valid).append rest)]
  rw [same] at taken ⊢
  simp only
  rw [if_neg other.1, if_neg other.2.1, if_neg other.2.2.2.1, taken.1, taken.2, meant]
  rfl

variable (floats gap)

/-- What a text of a value begins with. -/
theorem spell_starts (value : Json φ) :
    Starts ['\x5d', '\x7d', ',', ':'] (spell floats gap value) := by
  have word : ∀ {text : List Char}, (text ≠ [] ∧ ∀ char ∈ text, wordChar char = true) →
      Starts ['\x5d', '\x7d', ',', ':'] text := by
    intro text valid
    obtain ⟨char, rest, same, solid, other⟩ := starts_word valid
    simp only [List.mem_cons, List.not_mem_nil, or_false, not_or] at other
    exact ⟨char, rest, same, solid, by simp [other]⟩
  cases value with
  | null => exact word (names_word _ (by simp [spell_null, names]))
  | bool value =>
    cases value with
    | false => exact word (names_word _ (by simp [spell_false, names]))
    | true => exact word (names_word _ (by simp [spell_true, names]))
  | int value => exact word (by rw [spell_int]; exact spellInt_word value)
  | float value => exact word (by rw [spell_float]; exact floats.word value)
  | str value => exact ⟨'\x22', _, by rw [spell_str, spellString], by decide, by decide⟩
  | arr items =>
    cases items with
    | nil => exact ⟨'\x5b', _, by rw [spell_arr_nil], by decide, by decide⟩
    | cons item items => exact ⟨'\x5b', _, by rw [spell_arr_cons], by decide, by decide⟩
  | obj members =>
    cases members with
    | nil => exact ⟨'\x7b', _, by rw [spell_obj_nil], by decide, by decide⟩
    | cons member members => exact ⟨'\x7b', _, by rw [spell_obj_cons], by decide, by decide⟩

variable {floats gap}

/-- Blanks in front of a value do not matter. -/
theorem readValue_gap (blank : ∀ char ∈ gap, isBlank char = true) {others text : List Char}
    (starts : Starts others text) (fuel : Nat) :
    readValue floats fuel (gap ++ text) = readValue floats fuel text := by
  cases fuel with
  | zero => rw [readValue, readValue]
  | succ fuel => rw [readValue, readValue, skip_gap blank starts, skip_starts starts]

theorem expect_none {char : Char} {text : List Char}
    (starts : Starts [char] text) : expect char text = none := by
  obtain ⟨first, rest, rfl, solid, other⟩ := starts
  rw [expect, skip_solid solid]
  exact if_neg fun same => other (List.mem_singleton.mpr same)

theorem Starts.fewer {others text : List Char} (starts : Starts others text) (fewer : List Char)
    (less : ∀ char ∈ fewer, char ∈ others) : Starts fewer text := by
  obtain ⟨char, rest, same, solid, other⟩ := starts
  exact ⟨char, rest, same, solid, fun member => other (less char member)⟩

/-- A key, a colon and a value are read back, where the value is. -/
theorem readMember_spell (blank : ∀ char ∈ gap, isBlank char = true) (key : String)
    {value : Json φ} {fuel : Nat} {rest : List Char}
    (read : readValue floats fuel (spell floats gap value ++ rest) = some (value, rest))
    (enough : (spellString key).length ≤ fuel + 1) :
    readMember floats (fuel + 1)
        (spellString key ++ ':' :: (gap ++ (spell floats gap value ++ rest))) =
      some ((key, value), rest) := by
  obtain ⟨text, quoted, string⟩ := readString_spellString enough
    (':' :: (gap ++ (spell floats gap value ++ rest)))
  rw [readMember, quoted, expect_eq _ (by decide)]
  simp only [bind, Option.bind, string]
  rw [expect_eq _ (by decide)]
  simp only [readValue_gap blank ((spell_starts floats gap value).append rest), read]

/-- Blanks in front of a member do not matter. -/
theorem readMember_gap (blank : ∀ char ∈ gap, isBlank char = true) (key : String)
    (rest : List Char) (fuel : Nat) :
    readMember floats fuel (gap ++ (spellString key ++ rest)) =
      readMember floats fuel (spellString key ++ rest) := by
  have starts : Starts [] (spellString key ++ rest) :=
    ⟨'\x22', _, by rw [spellString, List.cons_append], by decide, List.not_mem_nil⟩
  cases fuel with
  | zero => rw [readMember, readMember]
  | succ fuel =>
    rw [readMember, readMember, expect, expect, skip_gap blank starts, skip_starts starts]

theorem ends_punctuation {char : Char} (outside : wordChar char = false) (rest : List Char) :
    Ends (char :: rest) := by
  intro first same
  rw [List.head?_cons, Option.some.injEq] at same
  exact same ▸ outside

variable (floats gap)

theorem ends_spellItems (items : List (Json φ)) (rest : List Char) :
    Ends (spellItems floats gap items ++ rest) := by
  cases items with
  | nil =>
    rw [spellItems]
    exact ends_punctuation (by decide) rest
  | cons item items =>
    rw [spellItems, List.cons_append]
    exact ends_punctuation (by decide) _

theorem ends_spellMembers (members : List (String × Json φ)) (rest : List Char) :
    Ends (spellMembers floats gap members ++ rest) := by
  cases members with
  | nil =>
    rw [spellMembers]
    exact ends_punctuation (by decide) rest
  | cons member members =>
    rw [spellMembers, List.cons_append]
    exact ends_punctuation (by decide) _

variable {gap}

mutual

/-- Reading undoes spelling, whatever follows that ends a word.

Proof: by the structure of the value. The fuel is at least the length of the text, and each
part is shorter than the whole by at least its punctuation. -/
theorem readValue_spell (blank : ∀ char ∈ gap, isBlank char = true) (value : Json φ)
    {fuel : Nat} (enough : (spell floats gap value).length ≤ fuel) {rest : List Char}
    (ends : Ends rest) :
    readValue floats fuel (spell floats gap value ++ rest) = some (value, rest) := by
  match value with
  | .null =>
    rw [spell_null] at enough ⊢
    exact readValue_word (names_word _ (by simp [names])) rfl enough ends
  | .bool true =>
    rw [spell_true] at enough ⊢
    exact readValue_word (names_word _ (by simp [names])) rfl enough ends
  | .bool false =>
    rw [spell_false] at enough ⊢
    exact readValue_word (names_word _ (by simp [names])) rfl enough ends
  | .int value =>
    rw [spell_int] at enough ⊢
    refine readValue_word (spellInt_word value) ?_ enough ends
    have unread : ∀ name ∈ names, readInt name = none := by decide
    have unnamed : ∀ name ∈ names, spellInt value ≠ name := by
      rintro name member rfl
      exact absurd ((readInt_spellInt value).symm.trans (unread _ member)) (Option.some_ne_none _)
    rw [readWord, if_neg (unnamed _ (by decide)), if_neg (unnamed _ (by decide)),
      if_neg (unnamed _ (by decide)), readInt_spellInt]
  | .float value =>
    rw [spell_float] at enough ⊢
    refine readValue_word (floats.word value) ?_ enough ends
    have unnamed := floats.unnamed value
    simp only [names, List.mem_cons, List.not_mem_nil, or_false, not_or] at unnamed
    rw [readWord, if_neg unnamed.1, if_neg unnamed.2.1, if_neg unnamed.2.2, floats.fractional]
    simp only [floats.read_spell, Option.map_some]
  | .str value =>
    rw [spell_str] at enough ⊢
    obtain ⟨fuel, rfl⟩ : ∃ less, fuel = less + 1 := ⟨fuel - 1, by
      rw [spellString, List.length_cons] at enough
      omega⟩
    obtain ⟨text, quoted, string⟩ := readString_spellString enough rest
    rw [readValue, quoted, skip_solid (by decide)]
    simp only [if_true, string, Option.map_some]
  | .arr [] =>
    rw [spell_arr_nil] at enough ⊢
    obtain ⟨fuel, rfl⟩ : ∃ less, fuel = less + 1 := ⟨fuel - 1, by
      rw [List.length_cons] at enough
      omega⟩
    rfl
  | .arr (item :: items) =>
    rw [spell_arr_cons, List.length_cons, List.length_append] at enough
    obtain ⟨fuel, rfl⟩ : ∃ less, fuel = less + 1 := ⟨fuel - 1, by omega⟩
    have first := readValue_spell blank item (by omega : _ ≤ fuel) (ends_spellItems floats gap items rest)
    have others := readItems_spell blank items (by omega : _ ≤ fuel) rest
    have unclosed := expect_none (((spell_starts floats gap item).append
      (spellItems floats gap items ++ rest)).fewer ['\x5d'] (by simp))
    rw [spell_arr_cons, List.cons_append, List.append_assoc, readValue,
      skip_solid (by decide)]
    simp only [unclosed, bind, Option.bind, first, others]
    rfl
  | .obj [] =>
    rw [spell_obj_nil] at enough ⊢
    obtain ⟨fuel, rfl⟩ : ∃ less, fuel = less + 1 := ⟨fuel - 1, by
      rw [List.length_cons] at enough
      omega⟩
    rfl
  | .obj ((key, value) :: members) =>
    rw [spell_obj_cons, List.length_cons, List.length_append, List.length_cons, List.length_append,
      List.length_append] at enough
    obtain ⟨fuel, rfl⟩ : ∃ less, fuel = less + 2 := ⟨fuel - 2, by omega⟩
    have first := readValue_spell blank value (by omega : _ ≤ fuel) (ends_spellMembers floats gap members rest)
    have member := readMember_spell blank key first (by omega)
    have others := readMembers_spell blank members (by omega : _ ≤ fuel + 1) rest
    have unclosed : expect '\x7d' (spellString key ++ ':' ::
        (gap ++ (spell floats gap value ++ (spellMembers floats gap members ++ rest)))) = none :=
      expect_none ⟨'\x22', _, by rw [spellString, List.cons_append], by decide, by decide⟩
    rw [spell_obj_cons, List.cons_append, List.append_assoc, List.cons_append, List.append_assoc,
      List.append_assoc, readValue,
      skip_solid (by decide)]
    simp only [unclosed, bind, Option.bind, member, others]
    rfl

theorem readItems_spell (blank : ∀ char ∈ gap, isBlank char = true) (items : List (Json φ))
    {fuel : Nat} (enough : (spellItems floats gap items).length ≤ fuel) (rest : List Char) :
    readItems floats fuel (spellItems floats gap items ++ rest) = some (items, rest) := by
  match items with
  | [] =>
    rw [spellItems] at enough ⊢
    obtain ⟨fuel, rfl⟩ : ∃ less, fuel = less + 1 := ⟨fuel - 1, by
      rw [List.length_cons] at enough
      omega⟩
    rfl
  | item :: items =>
    rw [spellItems, List.length_cons, List.length_append, List.length_append] at enough
    obtain ⟨fuel, rfl⟩ : ∃ less, fuel = less + 1 := ⟨fuel - 1, by omega⟩
    have first := readValue_spell blank item (by omega : _ ≤ fuel) (ends_spellItems floats gap items rest)
    have others := readItems_spell blank items (by omega : _ ≤ fuel) rest
    rw [spellItems, List.cons_append, List.append_assoc, List.append_assoc, readItems,
      expect_none ⟨',', _, rfl, by decide, by decide⟩]
    simp only [expect_eq _ (by decide : isBlank ',' = false), bind, Option.bind,
      readValue_gap blank ((spell_starts floats gap item).append _), first, others]

theorem readMembers_spell (blank : ∀ char ∈ gap, isBlank char = true)
    (members : List (String × Json φ)) {fuel : Nat}
    (enough : (spellMembers floats gap members).length ≤ fuel) (rest : List Char) :
    readMembers floats fuel (spellMembers floats gap members ++ rest) = some (members, rest) := by
  match members with
  | [] =>
    rw [spellMembers] at enough ⊢
    obtain ⟨fuel, rfl⟩ : ∃ less, fuel = less + 1 := ⟨fuel - 1, by
      rw [List.length_cons] at enough
      omega⟩
    rfl
  | (key, value) :: members =>
    rw [spellMembers, List.length_cons, List.length_append, List.length_append, List.length_cons,
      List.length_append, List.length_append] at enough
    obtain ⟨fuel, rfl⟩ : ∃ less, fuel = less + 2 := ⟨fuel - 2, by omega⟩
    have first := readValue_spell blank value (by omega : _ ≤ fuel) (ends_spellMembers floats gap members rest)
    have member := readMember_spell blank key first (by omega)
    have others := readMembers_spell blank members (by omega : _ ≤ fuel + 1) rest
    rw [spellMembers, List.cons_append, List.append_assoc, List.append_assoc, List.cons_append,
      List.append_assoc, List.append_assoc, readMembers,
      expect_none ⟨',', _, rfl, by decide, by decide⟩]
    simp only [expect_eq _ (by decide : isBlank ',' = false), bind, Option.bind,
      readMember_gap blank, member, others]

end

/-- A value comes back from its text, with any blanks behind commas and colons. -/
theorem loads_spell (blank : ∀ char ∈ gap, isBlank char = true) (value : Json φ) :
    loads floats (spell floats gap value) = some value := by
  have ends : Ends [] := nofun
  have read := readValue_spell floats blank value (Nat.le_succ _) ends
  rw [List.append_nil] at read
  rw [loads, read]
  rfl

/-- Different values have different texts. -/
theorem spell_injective (blank : ∀ char ∈ gap, isBlank char = true) {one other : Json φ}
    (same : spell floats gap one = spell floats gap other) : one = other := by
  have read := loads_spell floats blank one
  rw [same, loads_spell floats blank other] at read
  exact (Option.some.inj read).symm

end Text

end KvCache.Json
