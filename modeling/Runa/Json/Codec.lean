import Mathlib.Data.Nat.Digits.Defs
import Runa.Json.Value

/-!
# JSON text

A reader and a compact printer for JSON as `serde_json` has them, except that
numbers with a fraction or an exponent, and whole ones outside of `u64` and
`i64`, are not read.  A plain value reads back as itself.
-/

namespace Runa.Json.Codec

open Runa.Stream.Utf8
open Runa.Store

/-! ## Printing -/

def hexDigits : Text := "0123456789abcdef".toList

def hexDigit (digit : Nat) : Char := hexDigits.getD digit '0'

/-- The escapes of one letter, with what they stand for. -/
def shortEscapes : List (Char × Char) :=
  [('"', '"'), ('\\', '\\'), ('/', '/'), ('b', '\x08'), ('f', '\x0c'),
    ('n', '\n'), ('r', '\r'), ('t', '\t')]

def escape (char : Char) : Text :=
  if char = '"' then ['\\', '"']
  else if char = '\\' then ['\\', '\\']
  else if char = '\x08' then ['\\', 'b']
  else if char = '\x0c' then ['\\', 'f']
  else if char = '\n' then ['\\', 'n']
  else if char = '\r' then ['\\', 'r']
  else if char = '\t' then ['\\', 't']
  else if char < ' ' then
    ['\\', 'u', '0', '0', hexDigit (char.toNat / 16),
      hexDigit (char.toNat % 16)]
  else [char]

def quote (text : Text) : Text :=
  '"' :: (text.flatMap escape ++ ['"'])

/-- A float is not printed; `null` is what is printed for one that is not
finite. -/
def printNumber : Number → Text
  | .nat value => Nat.toDigits 10 value
  | .neg below => '-' :: Nat.toDigits 10 (below + 1)
  | .float _ => "null".toList

mutual

def print : Value → Text
  | .null => "null".toList
  | .bool true => "true".toList
  | .bool false => "false".toList
  | .number value => printNumber value
  | .string value => quote value
  | .array [] => "[]".toList
  | .array (item :: later) => '[' :: (print item ++ printItems later)
  | .object [] => "{}".toList
  | .object ((key, value) :: later) =>
    '{' :: (quote key ++ ':' :: (print value ++ printMembers later))

/-- The items behind the first, and the closing bracket. -/
def printItems : List Value → Text
  | [] => [']']
  | item :: later => ',' :: (print item ++ printItems later)

/-- The members behind the first, and the closing brace. -/
def printMembers : List (Text × Value) → Text
  | [] => ['}']
  | (key, value) :: later =>
    ',' :: (quote key ++ ':' :: (print value ++ printMembers later))

end

theorem print_string (text : Text) : print (.string text) = quote text := rfl

theorem print_number (value : Number) :
    print (.number value) = printNumber value := rfl

theorem print_array (item : Value) (later : List Value) :
    print (.array (item :: later)) =
      '[' :: (print item ++ printItems later) := rfl

theorem print_object (key : Text) (value : Value)
    (later : List (Text × Value)) :
    print (.object ((key, value) :: later)) =
      '{' :: (quote key ++ ':' :: (print value ++ printMembers later)) := rfl

theorem printItems_cons (item : Value) (later : List Value) :
    printItems (item :: later) = ',' :: (print item ++ printItems later) := rfl

theorem printMembers_cons (key : Text) (value : Value)
    (later : List (Text × Value)) :
    printMembers ((key, value) :: later) =
      ',' :: (quote key ++ ':' :: (print value ++ printMembers later)) := rfl

/-! ## Reading -/

def isSpace (char : Char) : Bool :=
  char = ' ' || char = '\n' || char = '\t' || char = '\r'

def skipSpace (text : Text) : Text :=
  text.dropWhile isSpace

/-- The value of a hexadecimal digit in either case. -/
def hexValue (char : Char) : Option Nat :=
  hexDigits.findIdx? fun digit => digit = char.toLower

def readHex : Text → Option (Nat × Text)
  | a :: b :: c :: d :: rest => do
    let a ← hexValue a
    let b ← hexValue b
    let c ← hexValue c
    let d ← hexValue d
    return (((a * 16 + b) * 16 + c) * 16 + d, rest)
  | _ => none

/-- The characters behind `\u`; a high surrogate needs a low one. -/
def readUnicode (text : Text) : Option (Char × Text) := do
  let (code, rest) ← readHex text
  if 0xD800 ≤ code ∧ code < 0xDC00 then
    match rest with
    | '\\' :: 'u' :: rest =>
      let (low, rest) ← readHex rest
      if 0xDC00 ≤ low ∧ low < 0xE000 then
        return (.ofNat
          (0x10000 + (code - 0xD800) * 0x400 + (low - 0xDC00)), rest)
      else none
    | _ => none
  else if 0xDC00 ≤ code ∧ code < 0xE000 then none
  else return (.ofNat code, rest)

/-- The characters behind a backslash. -/
def readEscape : Text → Option (Char × Text)
  | [] => none
  | letter :: rest =>
    match shortEscapes.find? fun entry => entry.1 = letter with
    | some entry => some (entry.2, rest)
    | none => if letter = 'u' then readUnicode rest else none

/-- A string behind its opening quote. -/
def readString : Nat → Text → Option (Text × Text)
  | 0, _ => none
  | _ + 1, [] => none
  | fuel + 1, char :: rest =>
    if char = '"' then some ([], rest)
    else if char = '\\' then do
      let (char, rest) ← readEscape rest
      let (text, rest) ← readString fuel rest
      return (char :: text, rest)
    else if char < ' ' then none
    else do
      let (text, rest) ← readString fuel rest
      return (char :: text, rest)

/-- Digits without a zero in front, and nothing behind them that makes a
fraction or an exponent. -/
def readDigits (text : Text) : Option (Nat × Text) :=
  let digits := text.takeWhile Char.isDigit
  let rest := text.dropWhile Char.isDigit
  if digits = [] ∨ (digits.head? = some '0' ∧ 1 < digits.length) then none
  else if rest.head?.any (· ∈ ['.', 'e', 'E']) then none
  else some (Nat.ofDigitChars 10 digits 0, rest)

def readNumber (text : Text) : Option (Number × Text) :=
  match text with
  | '-' :: rest => do
    let (value, rest) ← readDigits rest
    if 0 < value ∧ value ≤ 2 ^ 63 then return (.neg (value - 1), rest)
    else none
  | _ => do
    let (value, rest) ← readDigits text
    if value < 2 ^ 64 then return (.nat value, rest) else none

/-- A fixed word. -/
def readWord (word : String) (value : Value) (text : Text) :
    Option (Value × Text) :=
  if word.toList <+: text then some (value, text.drop word.length)
  else none

mutual

def readValue : Nat → Nat → Text → Option (Value × Text)
  | 0, _, _ => none
  | fuel + 1, depth, text =>
    match skipSpace text with
    | [] => none
    | char :: rest =>
      if char = '"' then do
        let (text, rest) ← readString fuel rest
        return (.string text, rest)
      else if char = '[' then
        if depth = 0 then none
        else if (skipSpace rest).head? = some ']' then
          some (.array [], (skipSpace rest).tail)
        else do
          let (item, rest) ← readValue fuel (depth - 1) rest
          let (later, rest) ← readItems fuel (depth - 1) rest
          return (.array (item :: later), rest)
      else if char = '{' then
        if depth = 0 then none
        else if (skipSpace rest).head? = some '}' then
          some (.object [], (skipSpace rest).tail)
        else do
          let (member, rest) ← readMember fuel (depth - 1) rest
          let (later, rest) ← readMembers fuel (depth - 1) rest
          return (.ofMembers (member :: later), rest)
      else if char = 'n' then readWord "null" .null (char :: rest)
      else if char = 't' then readWord "true" (.bool true) (char :: rest)
      else if char = 'f' then readWord "false" (.bool false) (char :: rest)
      else do
        let (number, rest) ← readNumber (char :: rest)
        return (.number number, rest)

def readItems : Nat → Nat → Text → Option (List Value × Text)
  | 0, _, _ => none
  | fuel + 1, depth, text =>
    match skipSpace text with
    | [] => none
    | char :: rest =>
      if char = ']' then some ([], rest)
      else if char = ',' then do
        let (item, rest) ← readValue fuel depth rest
        let (later, rest) ← readItems fuel depth rest
        return (item :: later, rest)
      else none

def readMember : Nat → Nat → Text → Option ((Text × Value) × Text)
  | 0, _, _ => none
  | fuel + 1, depth, text =>
    match skipSpace text with
    | [] => none
    | char :: rest =>
      if char = '"' then do
        let (key, rest) ← readString fuel rest
        if (skipSpace rest).head? = some ':' then
          let (value, rest) ← readValue fuel depth (skipSpace rest).tail
          return ((key, value), rest)
        else none
      else none

def readMembers : Nat → Nat → Text → Option (List (Text × Value) × Text)
  | 0, _, _ => none
  | fuel + 1, depth, text =>
    match skipSpace text with
    | [] => none
    | char :: rest =>
      if char = '}' then some ([], rest)
      else if char = ',' then do
        let (member, rest) ← readMember fuel depth rest
        let (later, rest) ← readMembers fuel depth rest
        return (member :: later, rest)
      else none

end

/-- How the reader goes on from a first character. -/
theorem readValue_visible {char : Char} (visible : isSpace char = false)
    (fuel depth : Nat) (rest : Text) :
    readValue (fuel + 1) depth (char :: rest) =
      if char = '"' then do
        let (text, rest) ← readString fuel rest
        return (.string text, rest)
      else if char = '[' then
        if depth = 0 then none
        else if (skipSpace rest).head? = some ']' then
          some (.array [], (skipSpace rest).tail)
        else do
          let (item, rest) ← readValue fuel (depth - 1) rest
          let (later, rest) ← readItems fuel (depth - 1) rest
          return (.array (item :: later), rest)
      else if char = '{' then
        if depth = 0 then none
        else if (skipSpace rest).head? = some '}' then
          some (.object [], (skipSpace rest).tail)
        else do
          let (member, rest) ← readMember fuel (depth - 1) rest
          let (later, rest) ← readMembers fuel (depth - 1) rest
          return (.ofMembers (member :: later), rest)
      else if char = 'n' then readWord "null" .null (char :: rest)
      else if char = 't' then readWord "true" (.bool true) (char :: rest)
      else if char = 'f' then readWord "false" (.bool false) (char :: rest)
      else do
        let (number, rest) ← readNumber (char :: rest)
        return (.number number, rest) := by
  have visible' : skipSpace (char :: rest) = char :: rest :=
    List.dropWhile_cons_of_neg (by simp [visible])
  rw [readValue, visible']

/-- A whole text as one value, with nothing but spaces behind it. -/
def parse (text : Text) : Except Text Value :=
  match readValue (text.length + 1) 127 text with
  | some (value, rest) =>
    if skipSpace rest = [] then .ok value
    else .error "trailing characters".toList
  | none => .error "invalid JSON".toList

def serde : Serde := ⟨parse, print⟩

/-! ## Reading what was printed -/

/-- Nothing a number could go on with. -/
def EndsNumber (rest : Text) : Prop :=
  ∀ char, rest.head? = some char →
    char.isDigit = false ∧ char ∉ ['.', 'e', 'E']

theorem endsNumber_nil : EndsNumber [] := nofun

theorem endsNumber_cons {char : Char} (other : char.isDigit = false)
    (mark : char ∉ ['.', 'e', 'E']) (rest : Text) :
    EndsNumber (char :: rest) := by
  intro first same
  cases same
  exact ⟨other, mark⟩

theorem skipSpace_cons {char : Char} (visible : isSpace char = false)
    (rest : Text) : skipSpace (char :: rest) = char :: rest := by
  rw [skipSpace, List.dropWhile_cons_of_neg (by simp [visible])]

theorem readWord_append (word : String) (value : Value) (rest : Text) :
    readWord word value (word.toList ++ rest) = some (value, rest) := by
  rw [readWord, if_pos (List.prefix_append _ _), ← String.length_toList,
    List.drop_left]

theorem toDigits_isDigit (value : Nat) {char : Char}
    (member : char ∈ Nat.toDigits 10 value) : char.isDigit = true :=
  Nat.isDigit_of_mem_toDigits (by decide) (by decide) member

theorem takeDigits {digits rest : Text}
    (all : ∀ char ∈ digits, char.isDigit = true) (ends : EndsNumber rest) :
    (digits ++ rest).takeWhile Char.isDigit = digits ∧
      (digits ++ rest).dropWhile Char.isDigit = rest := by
  induction digits with
  | nil =>
      cases rest with
      | nil => exact ⟨rfl, rfl⟩
      | cons char more =>
          have other := (ends char rfl).1
          simp [other]
  | cons digit more ih =>
      have here := all digit List.mem_cons_self
      have there := ih fun char member =>
        all char (List.mem_cons_of_mem _ member)
      simp [here, there.1, there.2]

/-- Only zero is printed with a zero in front. -/
theorem eq_zero_of_head {value : Nat}
    (front : (Nat.toDigits 10 value).head? = some '0') : value = 0 := by
  induction value using Nat.strong_induction_on with
  | h value ih =>
      by_cases small : value < 10
      · rw [Nat.toDigits_of_lt_base small] at front
        have only : ∀ digit < 10,
            [Nat.digitChar digit].head? = some '0' → digit = 0 := by
          decide
        exact only value small front
      · have large : 10 ≤ value := Nat.le_of_not_lt small
        have some : Nat.toDigits 10 (value / 10) ≠ [] :=
          Nat.toDigits_ne_nil
        rw [Nat.toDigits_of_base_le (by decide) large,
          List.head?_append_of_ne_nil _ some] at front
        have none := ih (value / 10)
          (Nat.div_lt_self (by omega) (by decide)) front
        omega

theorem readDigits_toDigits (value : Nat) {rest : Text}
    (ends : EndsNumber rest) :
    readDigits (Nat.toDigits 10 value ++ rest) = some (value, rest) := by
  obtain ⟨taken, left⟩ :=
    takeDigits (fun _ => toDigits_isDigit value) ends
  have notEmpty : Nat.toDigits 10 value ≠ [] := Nat.toDigits_ne_nil
  have noZero :
      ¬ ((Nat.toDigits 10 value).head? = some '0' ∧
        1 < (Nat.toDigits 10 value).length) := by
    rintro ⟨front, long⟩
    rw [eq_zero_of_head front] at long
    exact absurd long (by decide)
  have noMark : ¬ rest.head?.any (· ∈ ['.', 'e', 'E']) := by
    cases rest with
    | nil => simp
    | cons char more => simpa using (ends char rfl).2
  rw [readDigits, taken, left, if_neg (not_or.mpr ⟨notEmpty, noZero⟩),
    if_neg noMark, Nat.ofDigitChars_ten_toDigits]

theorem hexValue_hexDigit :
    ∀ digit < 16, hexValue (hexDigit digit) = some digit := by
  decide

theorem readHex_low {code : Nat} (low : code < 32) (rest : Text) :
    readHex
        ('0' :: '0' :: hexDigit (code / 16) :: hexDigit (code % 16) ::
          rest) =
      some (code, rest) := by
  have zero : hexValue '0' = some 0 := hexValue_hexDigit 0 (by decide)
  have high := hexValue_hexDigit (code / 16) (by omega)
  have unit := hexValue_hexDigit (code % 16) (by omega)
  have whole : code / 16 * 16 + code % 16 = code := by omega
  simp [readHex, zero, high, unit, whole]

/-- A character that stands for itself in a string. -/
def Bare (char : Char) : Prop :=
  char ≠ '"' ∧ char ≠ '\\' ∧ ¬ char < ' '

instance (char : Char) : Decidable (Bare char) :=
  inferInstanceAs (Decidable (_ ∧ _ ∧ _))

/-- What a string may hold for a character. -/
inductive Stands (char : Char) : Text → Prop where
  | bare (bare : Bare char) : Stands char [char]
  | escaped {letter : Char} {tail : Text} (visible : ¬ letter < ' ')
      (bare : ∀ char ∈ tail, Bare char)
      (reads : ∀ rest,
        readEscape (letter :: (tail ++ rest)) = some (char, rest)) :
      Stands char ('\\' :: letter :: tail)

/-- What stands between the quotes of a string: a quote only behind a
backslash, and no control character. -/
inductive Body : Text → Prop where
  | nil : Body []
  | bare {char : Char} {rest : Text} :
      Bare char → Body rest → Body (char :: rest)
  | escaped {letter : Char} {rest : Text} :
      ¬ letter < ' ' → Body rest → Body ('\\' :: letter :: rest)

theorem Body.visible {text : Text} (body : Body text) :
    ∀ char ∈ text, ¬ char < ' ' := by
  induction body with
  | nil => exact nofun
  | bare bare _ ih => exact List.forall_mem_cons.mpr ⟨bare.2.2, ih⟩
  | escaped visible _ ih =>
      exact List.forall_mem_cons.mpr
        ⟨by decide, List.forall_mem_cons.mpr ⟨visible, ih⟩⟩

theorem Body.append {front rest : Text} (bare : ∀ char ∈ front, Bare char)
    (body : Body rest) : Body (front ++ rest) := by
  induction front with
  | nil => exact body
  | cons char front ih =>
      rcases List.forall_mem_cons.mp bare with ⟨here, there⟩
      exact .bare here (ih there)

section

variable {char : Char} {piece rest : Text}

theorem Stands.body (stands : Stands char piece) (body : Body rest) :
    Body (piece ++ rest) := by
  cases stands with
  | bare bare => exact .bare bare body
  | escaped visible bare => exact .escaped visible (body.append bare)

theorem Stands.length_pos (stands : Stands char piece) :
    0 < piece.length := by
  cases stands <;> exact Nat.succ_pos _

/-- It is read as the character. -/
theorem Stands.readString (stands : Stands char piece) (fuel : Nat) :
    readString (fuel + 1) (piece ++ rest) =
      (readString fuel rest).map fun found =>
        (char :: found.1, found.2) := by
  cases stands with
  | bare bare =>
      rw [List.singleton_append, Codec.readString, if_neg bare.1,
        if_neg bare.2.1, if_neg bare.2.2]
      cases Codec.readString fuel rest <;> rfl
  | escaped visible bare reads =>
      rw [List.cons_append, List.cons_append, Codec.readString,
        if_neg (by decide), if_pos rfl, reads]
      cases read : Codec.readString fuel rest <;> simp [read]

end

section

variable {pieces : Char → Text}

theorem body_pieces
    (stands : ∀ char, Stands char (pieces char)) (text : Text) :
    Body (text.flatMap pieces) := by
  induction text with
  | nil => exact .nil
  | cons char more ih =>
      rw [List.flatMap_cons]
      exact (stands char).body ih

/-- A string is read up to its closing quote. -/
theorem readString_pieces
    (stands : ∀ char, Stands char (pieces char)) {fuel : Nat} (text : Text)
    (enough : text.length < fuel) (rest : Text) :
    readString fuel (text.flatMap pieces ++ '"' :: rest) =
      some (text, rest) := by
  induction text generalizing fuel with
  | nil =>
      cases fuel with
      | zero => exact absurd enough (Nat.not_lt_zero _)
      | succ fuel => rfl
  | cons char more ih =>
      cases fuel with
      | zero => exact absurd enough (Nat.not_lt_zero _)
      | succ fuel =>
          rw [List.flatMap_cons, List.append_assoc, (stands char).readString,
            ih (Nat.lt_of_succ_lt_succ enough)]
          rfl

end

theorem bare_hexDigit : ∀ digit < 16, Bare (hexDigit digit) := by
  decide

/-- A control character by its number. -/
theorem stands_low {char : Char} (low : char < ' ') :
    Stands char
      ['\\', 'u', '0', '0', hexDigit (char.toNat / 16),
        hexDigit (char.toNat % 16)] := by
  have code : char.toNat < 32 := low
  apply Stands.escaped
  · decide
  · simp only [List.forall_mem_cons]
    exact ⟨by decide, by decide, bare_hexDigit _ (by omega),
      bare_hexDigit _ (by omega), nofun⟩
  · intro rest
    have notHigh : ¬ (0xD800 ≤ char.toNat ∧ char.toNat < 0xDC00) := by
      omega
    have notLow : ¬ (0xDC00 ≤ char.toNat ∧ char.toNat < 0xE000) := by
      omega
    have letter :
        shortEscapes.find? (fun entry => entry.1 = 'u') = none := by
      decide
    simp only [List.cons_append, List.nil_append, readEscape, letter,
      if_pos, readUnicode, readHex_low code, Option.bind_eq_bind,
      Option.bind_some, if_neg notHigh, if_neg notLow, Option.pure_def,
      Char.ofNat_toNat]

/-- A letter behind a backslash. -/
theorem stands_short {letter char : Char}
    (known : (letter, char) ∈ shortEscapes) :
    Stands char ['\\', letter] := by
  simp only [shortEscapes, List.mem_cons, Prod.mk.injEq, List.not_mem_nil,
    or_false] at known
  rcases known with ⟨rfl, rfl⟩ | ⟨rfl, rfl⟩ | ⟨rfl, rfl⟩ | ⟨rfl, rfl⟩ |
      ⟨rfl, rfl⟩ | ⟨rfl, rfl⟩ | ⟨rfl, rfl⟩ | ⟨rfl, rfl⟩
  all_goals exact .escaped (by decide) nofun fun _ => rfl

/-- A character is escaped with a backslash, or it is printed as it is. -/
theorem stands_escape (char : Char) : Stands char (escape char) := by
  rw [escape]
  split
  · next same => subst same; exact stands_short (by decide)
  split
  · next same => subst same; exact stands_short (by decide)
  split
  · next same => subst same; exact stands_short (by decide)
  split
  · next same => subst same; exact stands_short (by decide)
  split
  · next same => subst same; exact stands_short (by decide)
  split
  · next same => subst same; exact stands_short (by decide)
  split
  · next same => subst same; exact stands_short (by decide)
  split
  · next low => exact stands_low low
  · next noQuote noSlash _ _ _ _ _ visible =>
      exact .bare ⟨noQuote, noSlash, visible⟩

theorem readString_quote {fuel : Nat} (text : Text)
    (enough : text.length < fuel) (rest : Text) :
    readString fuel (text.flatMap escape ++ '"' :: rest) =
      some (text, rest) :=
  readString_pieces stands_escape text enough rest

theorem length_quote (text : Text) :
    text.length + 2 ≤ (quote text).length := by
  have escaped : text.length ≤ (text.flatMap escape).length := by
    induction text with
    | nil => exact Nat.le_refl _
    | cons char more ih =>
        have here := (stands_escape char).length_pos
        rw [List.flatMap_cons, List.length_append, List.length_cons]
        omega
  simp only [quote, List.length_cons, List.length_append,
    List.length_nil]
  omega

/-- What the reader makes of a value in its place. -/
def Reads (depth : Nat) (value : Value) : Prop :=
  ∀ fuel rest, (print value).length ≤ fuel → EndsNumber rest →
    readValue fuel depth (print value ++ rest) = some (value, rest)

theorem digit_begins (value : Nat) :
    ∃ char more, Nat.toDigits 10 value = char :: more ∧
      char.isDigit = true := by
  cases printed : Nat.toDigits 10 value with
  | nil => exact absurd printed Nat.toDigits_ne_nil
  | cons char more =>
      refine ⟨char, more, rfl, toDigits_isDigit value ?_⟩
      rw [printed]
      exact List.mem_cons_self

/-- A digit starts nothing but a number. -/
theorem isDigit_apart {char : Char} (digit : char.isDigit = true)
    {other : Char} (apart : other.isDigit = false) : char ≠ other := by
  rintro rfl
  rw [digit] at apart
  cases apart

theorem isSpace_digit {char : Char} (digit : char.isDigit = true) :
    isSpace char = false := by
  have apart : ∀ other ∈ [' ', '\n', '\t', '\r'], char ≠ other := by
    simp only [List.forall_mem_cons]
    exact ⟨isDigit_apart digit (by decide),
      isDigit_apart digit (by decide), isDigit_apart digit (by decide),
      isDigit_apart digit (by decide), nofun⟩
  simp only [List.forall_mem_cons] at apart
  simp [isSpace, apart]

/-- What a printed value begins with. -/
theorem print_begins (value : Value) :
    ∃ char more, print value = char :: more ∧ isSpace char = false ∧
      char ≠ ']' := by
  cases value with
  | null => exact ⟨'n', _, rfl, by decide, by decide⟩
  | bool value =>
      cases value
      · exact ⟨'f', _, rfl, by decide, by decide⟩
      · exact ⟨'t', _, rfl, by decide, by decide⟩
  | number value =>
      cases value with
      | nat value =>
          obtain ⟨char, more, printed, digit⟩ := digit_begins value
          exact ⟨char, more, printed, isSpace_digit digit,
            isDigit_apart digit (by decide)⟩
      | neg below => exact ⟨'-', _, rfl, by decide, by decide⟩
      | float bits => exact ⟨'n', _, rfl, by decide, by decide⟩
  | string text => exact ⟨'"', _, rfl, by decide, by decide⟩
  | array items =>
      cases items <;> exact ⟨'[', _, rfl, by decide, by decide⟩
  | object members =>
      rcases members with _ | ⟨⟨key, value⟩, later⟩ <;>
        exact ⟨'{', _, rfl, by decide, by decide⟩

/-- The reader takes what starts a number for one. -/
theorem readValue_number {char : Char} (visible : isSpace char = false)
    (plainChar : char ∉ ['"', '[', '{', 'n', 't', 'f']) (fuel depth : Nat)
    (rest : Text) :
    readValue (fuel + 1) depth (char :: rest) =
      (readNumber (char :: rest)).map fun found =>
        (.number found.1, found.2) := by
  simp only [List.mem_cons, List.not_mem_nil, or_false, not_or]
    at plainChar
  obtain ⟨noQuote, noArray, noObject, noNull, noTrue, noFalse⟩ := plainChar
  rw [readValue_visible visible]
  simp only [if_neg noQuote, if_neg noArray, if_neg noObject,
    if_neg noNull, if_neg noTrue, if_neg noFalse]
  cases readNumber (char :: rest) <;> rfl

theorem reads_nat {depth value : Nat} (fits : value < 2 ^ 64) :
    Reads depth (.number (.nat value)) := by
  intro fuel rest enough ends
  obtain ⟨char, more, printed, digit⟩ := digit_begins value
  rw [print_number, printNumber] at enough ⊢
  cases fuel with
  | zero =>
      rw [printed] at enough
      exact absurd enough (Nat.not_succ_le_zero _)
  | succ fuel =>
      have apart : ∀ other : Char, other.isDigit = false → char ≠ other :=
        fun other => isDigit_apart digit
      have read :
          readNumber (Nat.toDigits 10 value ++ rest) =
            some (.nat value, rest) := by
        have whole := readDigits_toDigits value ends
        rw [printed, List.cons_append] at whole ⊢
        unfold readNumber
        split
        · next same =>
            cases same
            exact absurd digit (by decide)
        · rw [whole]
          simp only [Option.bind_eq_bind, Option.bind_some, if_pos fits]
          rfl
      rw [printed, List.cons_append] at read ⊢
      rw [readValue_number (isSpace_digit digit), read]
      · rfl
      · simp [apart]

theorem reads_neg {depth below : Nat} (fits : below < 2 ^ 63) :
    Reads depth (.number (.neg below)) := by
  intro fuel rest enough ends
  rw [print_number, printNumber] at enough ⊢
  cases fuel with
  | zero => exact absurd enough (Nat.not_succ_le_zero _)
  | succ fuel =>
      have bound : 0 < below + 1 ∧ below + 1 ≤ 2 ^ 63 :=
        ⟨Nat.succ_pos _, fits⟩
      rw [List.cons_append, readValue_number (by decide) (by decide),
        readNumber, readDigits_toDigits _ ends]
      simp only [Option.bind_eq_bind, Option.bind_some, if_pos bound,
        Nat.add_sub_cancel]
      rfl

theorem reads_string (depth : Nat) (text : Text) :
    Reads depth (.string text) := by
  intro fuel rest enough _
  have long := length_quote text
  cases fuel with
  | zero =>
      rw [print_string] at enough
      omega
  | succ fuel =>
      rw [print_string] at enough ⊢
      rw [quote, List.cons_append, readValue_visible (by decide)]
      simp only [if_pos, List.append_assoc, List.singleton_append]
      rw [readString_quote text (by omega)]
      rfl

theorem endsNumber_printItems (items : List Value) (rest : Text) :
    EndsNumber (printItems items ++ rest) := by
  cases items with
  | nil => exact endsNumber_cons (by decide) (by decide) _
  | cons item later => exact endsNumber_cons (by decide) (by decide) _

theorem endsNumber_printMembers (members : List (Text × Value))
    (rest : Text) : EndsNumber (printMembers members ++ rest) := by
  rcases members with _ | ⟨⟨key, value⟩, later⟩
  · exact endsNumber_cons (by decide) (by decide) _
  · exact endsNumber_cons (by decide) (by decide) _

theorem readItems_print {depth : Nat} {items : List Value}
    (each : ∀ item ∈ items, Reads depth item) (fuel : Nat) (rest : Text)
    (enough : (printItems items).length ≤ fuel) :
    readItems fuel depth (printItems items ++ rest) =
      some (items, rest) := by
  induction items generalizing fuel with
  | nil =>
      cases fuel with
      | zero => exact absurd enough (Nat.not_succ_le_zero _)
      | succ fuel =>
          show readItems (fuel + 1) depth (']' :: rest) = _
          rw [readItems, skipSpace_cons (by decide)]
          rfl
  | cons item later ih =>
      cases fuel with
      | zero => exact absurd enough (Nat.not_succ_le_zero _)
      | succ fuel =>
          have here := each item List.mem_cons_self
          have there := ih fun other member =>
            each other (List.mem_cons_of_mem _ member)
          simp only [printItems_cons, List.length_cons, List.length_append]
            at enough
          rw [printItems_cons, List.cons_append, List.append_assoc, readItems,
            skipSpace_cons (by decide)]
          simp only [if_neg (show ',' ≠ ']' by decide), if_pos]
          rw [here fuel _ (by omega) (endsNumber_printItems later rest)]
          simp [there fuel (by omega)]

theorem readMember_print {depth : Nat} {key : Text} {value : Value}
    (reads : Reads depth value) (fuel : Nat) (rest : Text)
    (enough : (quote key).length + (print value).length ≤ fuel)
    (ends : EndsNumber rest) :
    readMember fuel depth (quote key ++ ':' :: (print value ++ rest)) =
      some ((key, value), rest) := by
  have long := length_quote key
  cases fuel with
  | zero => omega
  | succ fuel =>
      rw [quote, List.cons_append, readMember, skipSpace_cons (by decide)]
      simp only [if_pos, List.append_assoc, List.singleton_append]
      rw [readString_quote key (by omega)]
      simp only [Option.bind_eq_bind, Option.bind_some,
        skipSpace_cons (show isSpace ':' = false by decide),
        List.head?_cons, List.tail_cons, if_pos]
      rw [reads fuel rest (by omega) ends]
      rfl

theorem readMembers_print {depth : Nat} {members : List (Text × Value)}
    (each : ∀ member ∈ members, Reads depth member.2) (fuel : Nat)
    (rest : Text) (enough : (printMembers members).length ≤ fuel) :
    readMembers fuel depth (printMembers members ++ rest) =
      some (members, rest) := by
  induction members generalizing fuel with
  | nil =>
      cases fuel with
      | zero => exact absurd enough (Nat.not_succ_le_zero _)
      | succ fuel =>
          show readMembers (fuel + 1) depth ('}' :: rest) = _
          rw [readMembers, skipSpace_cons (by decide)]
          rfl
  | cons member later ih =>
      rcases member with ⟨key, value⟩
      cases fuel with
      | zero => exact absurd enough (Nat.not_succ_le_zero _)
      | succ fuel =>
          have here : Reads depth value :=
            each (key, value) List.mem_cons_self
          have there := ih fun other member =>
            each other (List.mem_cons_of_mem _ member)
          simp only [printMembers_cons, List.length_cons,
            List.length_append] at enough
          rw [printMembers_cons, List.cons_append, List.append_assoc,
            List.cons_append, List.append_assoc, readMembers,
            skipSpace_cons (by decide)]
          simp only [if_neg (show ',' ≠ '}' by decide), if_pos]
          rw [readMember_print here fuel _ (by omega)
            (endsNumber_printMembers later rest)]
          simp [there fuel (by omega)]

theorem ofMembers_ascending {members : List (Text × Value)}
    (ascending : Ordered.Ascending members) :
    Value.ofMembers members = .object members := by
  rw [Value.ofMembers, Ordered.puts_ascending
    (by simpa using ascending), List.nil_append]

theorem reads_array {depth : Nat} {items : List Value}
    (each : ∀ item ∈ items, Reads depth item) :
    Reads (depth + 1) (.array items) := by
  intro fuel rest enough ends
  cases fuel with
  | zero =>
      cases items <;> exact absurd enough (Nat.not_succ_le_zero _)
  | succ fuel =>
      cases items with
      | nil =>
          show readValue (fuel + 1) _ ('[' :: ']' :: rest) = _
          rw [readValue_visible (by decide)]
          simp [skipSpace_cons (show isSpace ']' = false by decide)]
      | cons item later =>
          have here := each item List.mem_cons_self
          have there := readItems_print fun other member =>
            each other (List.mem_cons_of_mem _ member)
          obtain ⟨char, more, printed, visible, noEnd⟩ :=
            print_begins item
          have goesOn :
              (skipSpace (print item ++ (printItems later ++ rest))).head? ≠
                some ']' := by
            rw [printed, List.cons_append, skipSpace_cons visible]
            simpa using noEnd
          simp only [print_array, List.length_cons, List.length_append]
            at enough
          rw [print_array, List.cons_append, List.append_assoc,
            readValue_visible (by decide)]
          simp only [if_neg (show '[' ≠ '"' by decide), if_pos,
            if_neg (Nat.succ_ne_zero depth), if_neg goesOn,
            Nat.add_sub_cancel]
          rw [here fuel _ (by omega) (endsNumber_printItems later rest)]
          simp [there fuel rest (by omega)]

/-- Members in any order are read into an object. -/
theorem readValue_members {depth : Nat} {key : Text} {value : Value}
    {later : List (Text × Value)}
    (each : ∀ member ∈ (key, value) :: later, Reads depth member.2)
    (fuel : Nat) (rest : Text)
    (enough : (quote key).length + (print value).length +
      (printMembers later).length ≤ fuel) :
    readValue (fuel + 1) (depth + 1)
        ('{' :: (quote key ++
          ':' :: (print value ++ (printMembers later ++ rest)))) =
      some (.ofMembers ((key, value) :: later), rest) := by
  have here : Reads depth value := each (key, value) List.mem_cons_self
  have there := readMembers_print fun other member =>
    each other (List.mem_cons_of_mem _ member)
  have goesOn :
      (skipSpace
        (quote key ++
          ':' :: (print value ++
            (printMembers later ++ rest)))).head? ≠ some '}' := by
    rw [quote, List.cons_append, skipSpace_cons (by decide)]
    exact fun same => absurd (Option.some.inj same) (by decide)
  rw [readValue_visible (by decide)]
  simp only [if_neg (show '{' ≠ '"' by decide),
    if_neg (show '{' ≠ '[' by decide), if_pos,
    if_neg (Nat.succ_ne_zero depth), if_neg goesOn,
    Nat.add_sub_cancel]
  rw [readMember_print here fuel _ (by omega)
    (endsNumber_printMembers later rest)]
  simp [there fuel rest (by omega)]

theorem reads_object {depth : Nat} {members : List (Text × Value)}
    (ascending : Ordered.Ascending members)
    (each : ∀ member ∈ members, Reads depth member.2) :
    Reads (depth + 1) (.object members) := by
  intro fuel rest enough ends
  cases fuel with
  | zero =>
      rcases members with _ | ⟨⟨key, value⟩, later⟩ <;>
        exact absurd enough (Nat.not_succ_le_zero _)
  | succ fuel =>
      rcases members with _ | ⟨⟨key, value⟩, later⟩
      · show readValue (fuel + 1) _ ('{' :: '}' :: rest) = _
        rw [readValue_visible (by decide)]
        simp [skipSpace_cons (show isSpace '}' = false by decide)]
      · simp only [print_object, List.length_cons, List.length_append]
          at enough
        rw [print_object, List.cons_append, List.append_assoc, List.cons_append,
          List.append_assoc, readValue_members each fuel rest (by omega),
          ofMembers_ascending ascending]

theorem reads_null (depth : Nat) : Reads depth .null := by
  intro fuel rest enough _
  cases fuel with
  | zero => exact absurd enough (Nat.not_succ_le_zero _)
  | succ fuel =>
      have read := readWord_append "null" .null rest
      show readValue (fuel + 1) depth ('n' :: ("ull".toList ++ rest)) = _
      rw [readValue_visible (by decide)]
      exact read

theorem reads_bool (depth : Nat) (value : Bool) :
    Reads depth (.bool value) := by
  intro fuel rest enough _
  cases fuel with
  | zero => cases value <;> exact absurd enough (Nat.not_succ_le_zero _)
  | succ fuel =>
      cases value
      · have read := readWord_append "false" (.bool false) rest
        show readValue (fuel + 1) depth ('f' :: ("alse".toList ++ rest)) = _
        rw [readValue_visible (by decide)]
        exact read
      · have read := readWord_append "true" (.bool true) rest
        show readValue (fuel + 1) depth ('t' :: ("rue".toList ++ rest)) = _
        rw [readValue_visible (by decide)]
        exact read

/-- A plain value reads back as itself. -/
theorem reads_plain {depth : Nat} {value : Value}
    (plain : Plain depth value) : Reads depth value := by
  induction plain with
  | null => exact reads_null _
  | bool value => exact reads_bool _ value
  | nat fits => exact reads_nat fits
  | neg fits => exact reads_neg fits
  | string value => exact reads_string _ value
  | array plain ih => exact reads_array ih
  | object ascending plain ih => exact reads_object ascending ih

theorem parse_print (value : Value) (plain : Plain 127 value) :
    parse (print value) = .ok value := by
  have read := reads_plain plain ((print value).length + 1) []
    (Nat.le_succ _) endsNumber_nil
  rw [List.append_nil] at read
  rw [parse, read]
  rfl

/-! ## What is printed is visible -/

def Visible (text : Text) : Prop :=
  ∀ char ∈ text, ' ' ≤ char

theorem visible_nil : Visible [] := nofun

theorem visible_cons {char : Char} {text : Text} (here : ' ' ≤ char)
    (there : Visible text) : Visible (char :: text) :=
  List.forall_mem_cons.mpr ⟨here, there⟩

theorem visible_of_all {text : Text}
    (all : (text.all fun char => decide (' ' ≤ char)) = true) :
    Visible text := by
  simpa [Visible] using all

theorem visible_append {one other : Text} (here : Visible one)
    (there : Visible other) : Visible (one ++ other) :=
  List.forall_mem_append.mpr ⟨here, there⟩

theorem visible_digits (value : Nat) : Visible (Nat.toDigits 10 value) := by
  intro char member
  have digit := toDigits_isDigit value member
  rw [Char.isDigit, Bool.and_eq_true, decide_eq_true_eq] at digit
  exact Nat.le_trans (by decide : 32 ≤ 48) digit.1

theorem visible_hexDigit : ∀ digit < 16, ' ' ≤ hexDigit digit := by
  decide

theorem visible_escape (char : Char) : Visible (escape char) := by
  have pair : ∀ letter : Char, ' ' ≤ letter → Visible ['\\', letter] :=
    fun letter here =>
      visible_cons (by decide) (visible_cons here visible_nil)
  rw [escape]
  split
  · exact pair _ (by decide)
  split
  · exact pair _ (by decide)
  split
  · exact pair _ (by decide)
  split
  · exact pair _ (by decide)
  split
  · exact pair _ (by decide)
  split
  · exact pair _ (by decide)
  split
  · exact pair _ (by decide)
  split
  · next low =>
      have code : char.toNat < 32 := low
      apply visible_cons (by decide)
      apply visible_cons (by decide)
      apply visible_cons (by decide)
      apply visible_cons (by decide)
      apply visible_cons (visible_hexDigit _ (by omega))
      exact visible_cons (visible_hexDigit _ (by omega)) visible_nil
  · next visible => exact visible_cons (not_lt.mp visible) visible_nil

theorem visible_quote (text : Text) : Visible (quote text) := by
  apply visible_cons (by decide)
  apply visible_append
  · intro char member
    rcases List.mem_flatMap.mp member with ⟨source, _, printed⟩
    exact visible_escape source char printed
  · exact visible_cons (by decide) visible_nil

theorem visible_number (value : Number) : Visible (printNumber value) := by
  cases value with
  | nat value => exact visible_digits value
  | neg below => exact visible_cons (by decide) (visible_digits _)
  | float bits =>
      show Visible "null".toList
      exact visible_of_all (by decide)

mutual

theorem visible_print : ∀ value : Value, Visible (print value)
  | .null => by
    show Visible "null".toList
    exact visible_of_all (by decide)
  | .bool true => by
    show Visible "true".toList
    exact visible_of_all (by decide)
  | .bool false => by
    show Visible "false".toList
    exact visible_of_all (by decide)
  | .number value => visible_number value
  | .string text => visible_quote text
  | .array [] => by
    show Visible "[]".toList
    exact visible_of_all (by decide)
  | .array (item :: later) => by
    rw [print_array]
    exact visible_cons (by decide)
      (visible_append (visible_print item) (visible_printItems later))
  | .object [] => by
    show Visible "\x7b\x7d".toList
    exact visible_of_all (by decide)
  | .object ((key, value) :: later) => by
    rw [print_object]
    exact visible_cons (by decide)
      (visible_append (visible_quote key)
        (visible_cons (by decide)
          (visible_append (visible_print value)
            (visible_printMembers later))))

theorem visible_printItems : ∀ items : List Value,
    Visible (printItems items)
  | [] => visible_cons (by decide) visible_nil
  | item :: later => by
    rw [printItems_cons]
    exact visible_cons (by decide)
      (visible_append (visible_print item) (visible_printItems later))

theorem visible_printMembers : ∀ members : List (Text × Value),
    Visible (printMembers members)
  | [] => visible_cons (by decide) visible_nil
  | (key, value) :: later => by
    rw [printMembers_cons]
    exact visible_cons (by decide)
      (visible_append (visible_quote key)
        (visible_cons (by decide)
          (visible_append (visible_print value)
            (visible_printMembers later))))

end

/-- A text that reads as a value is not blank. -/
theorem skipSpace_ne_nil {text : Text} {value : Value}
    (read : parse text = .ok value) : skipSpace text ≠ [] := by
  intro blank
  rw [parse, readValue, blank] at read
  cases read

theorem lawful : serde.Lawful where
  parse_print := parse_print
  print_visible := visible_print
  print_object members := by
    rcases members with _ | ⟨⟨key, value⟩, later⟩ <;> exact ⟨_, rfl⟩
  print_empty := rfl
  trailing text value read := by
    refine ⟨"trailing characters".toList, ?_⟩
    have first :
        readValue (("{}".toList ++ text).length + 1) 127
            ("{}".toList ++ text) =
          some (.object [], text) := by
      show readValue _ _ ('{' :: '}' :: text) = _
      rw [readValue_visible (by decide)]
      simp [skipSpace_cons (show isSpace '}' = false by decide)]
    show parse _ = _
    rw [parse, first]
    exact if_neg (skipSpace_ne_nil read)

end Runa.Json.Codec
