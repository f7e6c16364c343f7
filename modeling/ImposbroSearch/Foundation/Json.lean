import ImposbroSearch.Foundation.Utf8

/-!
# JSON texts

The values that Python's `json` module prints and reads: besides the values of JSON, the
constants that are no numbers, integers of any size, and strings with lone surrogates.
The fields of an object are kept in their order; nothing makes their keys unique here.

The printer comes in the layouts that `json.dumps` is asked for: with or without escapes
beyond ASCII, and with or without blanks behind the separators. The reader is the one of
`json.loads`, which may be told to refuse the constants.
-/

namespace ImposbroSearch.Foundation

inductive Json (F : Type) where
  | null
  | bool (value : Bool)
  | int (value : ℤ)
  | float (value : F)
  | nan
  | infinity (negative : Bool)
  | str (text : Text)
  | list (items : List (Json F))
  | object (fields : List (Text × Json F))

/-- What a value is made of. -/
inductive JsonPart (F : Type) where
  | int (value : ℤ)
  | float (value : F)
  | constant
  | text (text : Text)
  | keys (keys : List Text)

/-- The code points of a text in ASCII. -/
def chars (text : String) : Text := text.toList.map Char.toNat

namespace Json

variable {F : Type}

mutual

/-- The parts of a value, at every depth. -/
def parts : Json F → List (JsonPart F)
  | .null => []
  | .bool _ => []
  | .int n => [.int n]
  | .float x => [.float x]
  | .nan => [.constant]
  | .infinity _ => [.constant]
  | .str text => [.text text]
  | .list items => partsOfItems items
  | .object fields => .keys (fields.map Prod.fst) :: partsOfFields fields

def partsOfItems : List (Json F) → List (JsonPart F)
  | [] => []
  | item :: items => parts item ++ partsOfItems items

def partsOfFields : List (Text × Json F) → List (JsonPart F)
  | [] => []
  | (key, value) :: fields => .text key :: (parts value ++ partsOfFields fields)

end

/-- No object has a key twice. -/
def Unique (v : Json F) : Prop := ∀ keys, .keys keys ∈ v.parts → keys.Nodup

/-- A value of JSON proper: without the constants. -/
def Finite (v : Json F) : Prop := .constant ∉ v.parts

end Json

/-! ## Strings -/

def hexDigit (n : ℕ) : ℕ := if n < 10 then 48 + n else 87 + n

def hexValue (c : ℕ) : Option ℕ :=
  if isDigit c then some (c - 48)
  else if 97 ≤ c ∧ c ≤ 102 then some (c - 87)
  else if 65 ≤ c ∧ c ≤ 70 then some (c - 55)
  else none

/-- `\uXXXX` -/
def unicodeEscape (n : ℕ) : Text :=
  [92, 117, hexDigit (n / 4096 % 16), hexDigit (n / 256 % 16), hexDigit (n / 16 % 16),
    hexDigit (n % 16)]

/-- The letter of an escape without a number. -/
def escapeLetter (c : ℕ) : Option ℕ :=
  if c = 34 then some 34
  else if c = 92 then some 92
  else if c = 8 then some 98
  else if c = 12 then some 102
  else if c = 10 then some 110
  else if c = 13 then some 114
  else if c = 9 then some 116
  else none

/-- One character of a printed string. Beyond the basic plane an escape is a pair. -/
def escapeChar (ensureAscii : Bool) (c : ℕ) : Text :=
  match escapeLetter c with
  | some letter => [92, letter]
  | none =>
    if c < 32 then unicodeEscape c
    else if c < 127 ∨ ensureAscii = false then [c]
    else if c < 0x10000 then unicodeEscape c
    else unicodeEscape (0xd800 + (c - 0x10000) / 1024) ++
      unicodeEscape (0xdc00 + (c - 0x10000) % 1024)

def stringText (ensureAscii : Bool) (text : Text) : Text :=
  34 :: (text.flatMap (escapeChar ensureAscii) ++ [34])

/-- The character of an escape without a number. -/
def unescapeLetter (letter : ℕ) : Option ℕ :=
  if letter = 34 then some 34
  else if letter = 92 then some 92
  else if letter = 47 then some 47
  else if letter = 98 then some 8
  else if letter = 102 then some 12
  else if letter = 110 then some 10
  else if letter = 114 then some 13
  else if letter = 116 then some 9
  else none

def hexNumber (a b c d : ℕ) : Option ℕ :=
  match hexValue a, hexValue b, hexValue c, hexValue d with
  | some a, some b, some c, some d => some (4096 * a + 256 * b + 16 * c + d)
  | _, _, _, _ => none

/-- A string up to its closing quote: its code units, and whether they were escaped by
number. -/
def scanString : Text → Option (List (Bool × ℕ) × Text)
  | [] => none
  | 34 :: rest => some ([], rest)
  | 92 :: 117 :: a :: b :: c :: d :: rest =>
    match hexNumber a b c d with
    | none => none
    | some unit => (scanString rest).map fun scanned => ((true, unit) :: scanned.1, scanned.2)
  | 92 :: letter :: rest =>
    match unescapeLetter letter with
    | none => none
    | some unit => (scanString rest).map fun scanned => ((false, unit) :: scanned.1, scanned.2)
  | c :: rest =>
    if c < 32 ∨ c = 92 then none
    else (scanString rest).map fun scanned => ((false, c) :: scanned.1, scanned.2)

/-- Two escapes that make up a pair are one character. -/
def joinPairs : List (Bool × ℕ) → Text
  | [] => []
  | (true, high) :: (true, low) :: units =>
    if (0xd800 ≤ high ∧ high ≤ 0xdbff) ∧ 0xdc00 ≤ low ∧ low ≤ 0xdfff then
      (0x10000 + (high - 0xd800) * 1024 + (low - 0xdc00)) :: joinPairs units
    else high :: joinPairs ((true, low) :: units)
  | (_, c) :: units => c :: joinPairs units

/-! ## Printing -/

/-- The layout of a text. -/
structure JsonStyle where
  ensureAscii : Bool
  spaced : Bool

def JsonStyle.itemSeparator (style : JsonStyle) : Text := if style.spaced then [44, 32] else [44]

def JsonStyle.keySeparator (style : JsonStyle) : Text := if style.spaced then [58, 32] else [58]

namespace Json

variable {F : Type} [PyFloat F] (style : JsonStyle)

mutual

/-- `json.dumps`, of a value whose numbers can be printed. -/
def print : Json F → Text
  | .null => chars "null"
  | .bool true => chars "true"
  | .bool false => chars "false"
  | .int n => (intLiteral n).text
  | .float x => (floatLiteral (PyFloat.decimal x)).text
  | .nan => chars "NaN"
  | .infinity false => chars "Infinity"
  | .infinity true => chars "-Infinity"
  | .str text => stringText style.ensureAscii text
  | .list [] => [91, 93]
  | .list (item :: items) => 91 :: (print item ++ printItems items)
  | .object [] => [123, 125]
  | .object ((key, value) :: fields) =>
    123 :: (stringText style.ensureAscii key ++
      (style.keySeparator ++ (print value ++ printFields fields)))

/-- The items behind the first one. -/
def printItems : List (Json F) → Text
  | [] => [93]
  | item :: items => style.itemSeparator ++ (print item ++ printItems items)

/-- The fields behind the first one. -/
def printFields : List (Text × Json F) → Text
  | [] => [125]
  | (key, value) :: fields => style.itemSeparator ++ (stringText style.ensureAscii key ++
      (style.keySeparator ++ (print value ++ printFields fields)))

end

end Json

/-! ## Reading -/

/-- Why a text is not read. -/
inductive JsonError where
  | malformed
  | tooManyDigits
  deriving DecidableEq, Repr

/-- Python refuses to convert integers beyond this many digits. -/
def maxStrDigits : ℕ := 4300

def isSpace (c : ℕ) : Bool := c = 32 || c = 9 || c = 10 || c = 13

def skipSpace (text : Text) : Text := text.dropWhile isSpace

/-- The text behind a word. -/
def textBehind (word text : Text) : Option Text :=
  if word.isPrefixOf text then some (text.drop word.length) else none

namespace Json

variable {F : Type}

/-- A word that stands for a value. -/
def scanWord (constants : Bool) (text : Text) : Option (Json F × Text) :=
  let words : List (Text × Json F) :=
    [(chars "null", .null), (chars "true", .bool true), (chars "false", .bool false)] ++
      if constants then
        [(chars "NaN", .nan), (chars "Infinity", .infinity false),
          (chars "-Infinity", .infinity true)]
      else []
  words.findSome? fun word => (textBehind word.1 text).map fun rest => (word.2, rest)

variable [PyFloat F]

/-- The value of a numeral. -/
def ofLiteral (literal : NumberLiteral) : Except JsonError (Json F) :=
  if literal.isInteger then
    if literal.whole.length ≤ maxStrDigits then
      .ok (.int (if literal.negative then -(digitsValue literal.whole : ℤ)
        else digitsValue literal.whole))
    else .error .tooManyDigits
  else
    match PyFloat.nearest literal.decimal with
    | some x => .ok (.float x)
    | none => .ok (.infinity literal.negative)

mutual

/-- One value, and the text behind it. -/
def scanValue (constants : Bool) : ℕ → Text → Except JsonError (Json F × Text)
  | 0, _ => .error .malformed
  | _ + 1, [] => .error .malformed
  | fuel + 1, c :: rest =>
    if c = 34 then
      match scanString rest with
      | none => .error .malformed
      | some (units, rest) => .ok (.str (joinPairs units), rest)
    else if c = 91 then
      match skipSpace rest with
      | 93 :: rest => .ok (.list [], rest)
      | other =>
        match scanItems constants fuel other with
        | .error error => .error error
        | .ok (items, rest) => .ok (.list items, rest)
    else if c = 123 then
      match skipSpace rest with
      | 125 :: rest => .ok (.object [], rest)
      | other =>
        match scanFields constants fuel other with
        | .error error => .error error
        | .ok (fields, rest) => .ok (.object fields, rest)
    else
      match scanWord constants (c :: rest) with
      | some (value, rest) => .ok (value, rest)
      | none =>
        match scanNumber (c :: rest) with
        | none => .error .malformed
        | some (literal, rest) =>
          match ofLiteral literal with
          | .error error => .error error
          | .ok value => .ok (value, rest)

/-- The items of a list, up to its closing bracket. -/
def scanItems (constants : Bool) : ℕ → Text → Except JsonError (List (Json F) × Text)
  | 0, _ => .error .malformed
  | fuel + 1, text =>
    match scanValue constants fuel text with
    | .error error => .error error
    | .ok (item, rest) =>
      match skipSpace rest with
      | 93 :: rest => .ok ([item], rest)
      | 44 :: rest =>
        match scanItems constants fuel (skipSpace rest) with
        | .error error => .error error
        | .ok (items, rest) => .ok (item :: items, rest)
      | _ => .error .malformed

/-- The fields of an object, up to its closing brace. -/
def scanFields (constants : Bool) : ℕ → Text → Except JsonError (List (Text × Json F) × Text)
  | 0, _ => .error .malformed
  | fuel + 1, text =>
    match text with
    | 34 :: rest =>
      match scanString rest with
      | none => .error .malformed
      | some (units, rest) =>
        match skipSpace rest with
        | 58 :: rest =>
          match scanValue constants fuel (skipSpace rest) with
          | .error error => .error error
          | .ok (value, rest) =>
            match skipSpace rest with
            | 125 :: rest => .ok ([(joinPairs units, value)], rest)
            | 44 :: rest =>
              match scanFields constants fuel (skipSpace rest) with
              | .error error => .error error
              | .ok (fields, rest) => .ok ((joinPairs units, value) :: fields, rest)
            | _ => .error .malformed
        | _ => .error .malformed
    | _ => .error .malformed

end

/-- The one value of a text. -/
def read (constants : Bool) (text : Text) : Except JsonError (Json F) :=
  match scanValue constants (2 * text.length + 2) (skipSpace text) with
  | .error error => .error error
  | .ok (value, rest) => if skipSpace rest = [] then .ok value else .error .malformed

end Json

end ImposbroSearch.Foundation
