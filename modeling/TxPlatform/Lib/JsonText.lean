import TxPlatform.Lib.Json
import Mathlib.Tactic.Common

/-!
# JSON texts

How a value is written and read back as Python's `json` does it: `dumps` escapes everything outside
printable ASCII, `loads` reads one value between optional spaces. A text is a list of characters; a
reader returns what it read and what it left, or nothing when Python raises `JSONDecodeError`.

Two facts about the readers carry everything else. They are *stable*: more characters at the end
change nothing that was read, provided a number was followed by a character that ends it. And
`loads` undoes `dumps`. Together: a proper beginning of an object's text is no JSON text
(`loads_object_torn`).
-/

namespace TxPlatform

namespace Json

/-! ## Readers -/

def isSpace (c : Char) : Bool := c = ' ' || c = '\t' || c = '\n' || c = '\r'

def skipSpace (cs : List Char) : List Char := cs.dropWhile isSpace

/-- Reads exactly these characters. -/
def expect : List Char → List Char → Option (List Char)
  | [], cs => some cs
  | _ :: _, [] => none
  | w :: ws, c :: cs => if w = c then expect ws cs else none

def hexValue (c : Char) : Option Nat :=
  if '0' ≤ c ∧ c ≤ '9' then some (c.toNat - '0'.toNat)
  else if 'a' ≤ c ∧ c ≤ 'f' then some (c.toNat - 'a'.toNat + 10)
  else if 'A' ≤ c ∧ c ≤ 'F' then some (c.toNat - 'A'.toNat + 10)
  else none

def hexUnit (a b c d : Char) : Option Nat :=
  match hexValue a, hexValue b, hexValue c, hexValue d with
  | some a, some b, some c, some d => some (((a * 16 + b) * 16 + c) * 16 + d)
  | _, _, _, _ => none

def simpleEscape (c : Char) : Option Char :=
  if c = '"' then some '"' else if c = '\\' then some '\\' else if c = '/' then some '/'
  else if c = 'b' then some '\x08' else if c = 'f' then some '\x0c' else if c = 'n' then some '\n'
  else if c = 'r' then some '\r' else if c = 't' then some '\t' else none

/-- The rest of a string literal as code points; a surrogate escape stands for itself here. -/
def scanUnits : List Char → Option (List Nat × List Char)
  | [] => none
  | c :: cs =>
    if c = '"' then some ([], cs)
    else if c = '\\' then
      match cs with
      | [] => none
      | e :: cs =>
        if e = 'u' then
          match cs with
          | h₁ :: h₂ :: h₃ :: h₄ :: cs =>
            match hexUnit h₁ h₂ h₃ h₄, scanUnits cs with
            | some unit, some (units, rest) => some (unit :: units, rest)
            | _, _ => none
          | _ => none
        else
          match simpleEscape e, scanUnits cs with
          | some char, some (units, rest) => some (char.toNat :: units, rest)
          | _, _ => none
    else if c.toNat < 0x20 then none
    else
      match scanUnits cs with
      | some (units, rest) => some (c.toNat :: units, rest)
      | none => none

/-- Joins surrogate pairs. A surrogate on its own is a value of Python's `str` that no character
stands for; `dumps` of a text never writes one. -/
def joinUnits : List Nat → Option (List Char)
  | [] => some []
  | unit :: units =>
    if 0xd800 ≤ unit ∧ unit ≤ 0xdbff then
      match units with
      | low :: units =>
        if 0xdc00 ≤ low ∧ low ≤ 0xdfff then
          (joinUnits units).map (Char.ofNat (0x10000 + (unit - 0xd800) * 0x400 + (low - 0xdc00)) :: ·)
        else none
      | [] => none
    else if 0xdc00 ≤ unit ∧ unit ≤ 0xdfff then none
    else (joinUnits units).map (Char.ofNat unit :: ·)

def scanString (cs : List Char) : Option (String × List Char) :=
  match scanUnits cs with
  | none => none
  | some (units, rest) => (joinUnits units).map fun chars => (String.ofList chars, rest)

def scanSign : List Char → List Char × List Char
  | '-' :: cs => (['-'], cs)
  | cs => ([], cs)

/-- `0|[1-9][0-9]*`. -/
def scanWhole : List Char → Option (List Char × List Char)
  | [] => none
  | c :: cs =>
    if c = '0' then some (['0'], cs)
    else if c.isDigit then some (c :: cs.takeWhile Char.isDigit, cs.dropWhile Char.isDigit)
    else none

/-- `(\.[0-9]+)?`. -/
def scanFraction : List Char → List Char × List Char
  | [] => ([], [])
  | c :: cs =>
    if c = '.' ∧ cs.takeWhile Char.isDigit ≠ [] then
      (c :: cs.takeWhile Char.isDigit, cs.dropWhile Char.isDigit)
    else ([], c :: cs)

def scanExponentSign : List Char → List Char × List Char
  | [] => ([], [])
  | c :: cs => if c = '+' ∨ c = '-' then ([c], cs) else ([], c :: cs)

/-- `([eE][-+]?[0-9]+)?`. -/
def scanExponent : List Char → List Char × List Char
  | [] => ([], [])
  | c :: cs =>
    let (sign, digits) := scanExponentSign cs
    if (c = 'e' ∨ c = 'E') ∧ digits.takeWhile Char.isDigit ≠ [] then
      (c :: (sign ++ digits.takeWhile Char.isDigit), digits.dropWhile Char.isDigit)
    else ([], c :: cs)

def numberValue (sign whole fraction exponent : List Char) : Json :=
  if fraction = [] ∧ exponent = [] then
    .int (if sign = [] then Nat.ofDigitChars 10 whole 0 else -(Nat.ofDigitChars 10 whole 0 : Int))
  else .real (String.ofList (sign ++ whole ++ fraction ++ exponent))

def scanNumber (cs : List Char) : Option (Json × List Char) :=
  let (sign, cs) := scanSign cs
  match scanWhole cs with
  | none => none
  | some (whole, cs) =>
    let (fraction, cs) := scanFraction cs
    let (exponent, cs) := scanExponent cs
    some (numberValue sign whole fraction exponent, cs)

/-- Everything but strings, arrays and objects. -/
def scanScalar : List Char → Option (Json × List Char)
  | 'n' :: cs => (expect ['u', 'l', 'l'] cs).map (.null, ·)
  | 't' :: cs => (expect ['r', 'u', 'e'] cs).map (.bool true, ·)
  | 'f' :: cs => (expect ['a', 'l', 's', 'e'] cs).map (.bool false, ·)
  | 'N' :: cs => (expect ['a', 'N'] cs).map (.real "NaN", ·)
  | 'I' :: cs => (expect ['n', 'f', 'i', 'n', 'i', 't', 'y'] cs).map (.real "Infinity", ·)
  | '-' :: 'I' :: cs => (expect ['n', 'f', 'i', 'n', 'i', 't', 'y'] cs).map (.real "-Infinity", ·)
  | cs => scanNumber cs

mutual

def value : Nat → List Char → Option (Json × List Char)
  | 0, _ => none
  | fuel + 1, cs =>
    match cs with
    | '"' :: cs => (scanString cs).map fun (text, rest) => (.str text, rest)
    | '[' :: cs =>
      match skipSpace cs with
      | ']' :: rest => some (.arr [], rest)
      | cs => (items fuel cs).map fun (items, rest) => (.arr items, rest)
    | '{' :: cs =>
      match skipSpace cs with
      | '}' :: rest => some (.obj [], rest)
      | cs => (members fuel cs).map fun (members, rest) => (.obj members, rest)
    | cs => scanScalar cs

/-- The items of an array that has one. -/
def items : Nat → List Char → Option (List Json × List Char)
  | 0, _ => none
  | fuel + 1, cs =>
    match value fuel cs with
    | none => none
    | some (item, cs) =>
      match skipSpace cs with
      | ',' :: cs => (items fuel (skipSpace cs)).map fun (items, rest) => (item :: items, rest)
      | ']' :: rest => some ([item], rest)
      | _ => none

/-- The members of an object that has one. -/
def members : Nat → List Char → Option (List (String × Json) × List Char)
  | 0, _ => none
  | fuel + 1, cs =>
    match cs with
    | '"' :: cs =>
      match scanString cs with
      | none => none
      | some (key, cs) =>
        match skipSpace cs with
        | ':' :: cs =>
          match value fuel (skipSpace cs) with
          | none => none
          | some (item, cs) =>
            match skipSpace cs with
            | ',' :: cs => (members fuel (skipSpace cs)).map fun (members, rest) =>
              ((key, item) :: members, rest)
            | '}' :: rest => some ([(key, item)], rest)
            | _ => none
        | _ => none
    | _ => none

end

/-- `json.loads`. Every reader leaves less than it got, so the length is fuel enough. -/
def loads (text : List Char) : Option Json :=
  match value (text.length + 1) (skipSpace text) with
  | none => none
  | some (json, rest) => if skipSpace rest = [] then some json else none

/-! ## Writers -/

/-- Where the writer puts spaces around the items of an array or object at a depth. -/
structure Layout where
  inside : Nat → List Char
  between : Nat → List Char
  inside_space : ∀ depth, ∀ c ∈ inside depth, isSpace c
  between_space : ∀ depth, ∀ c ∈ between depth, isSpace c

/-- `json.dumps(value)`. -/
def compact : Layout where
  inside _ := []
  between _ := [' ']
  inside_space _ _ h := nomatch h
  between_space _ c h := by rw [List.mem_singleton.1 h]; rfl

/-- `json.dumps(value, indent=2)`. -/
def indented : Layout where
  inside depth := '\n' :: List.replicate (2 * depth) ' '
  between depth := '\n' :: List.replicate (2 * depth) ' '
  inside_space depth c h := by
    rcases List.mem_cons.1 h with rfl | h
    · rfl
    · rw [List.eq_of_mem_replicate h]; rfl
  between_space depth c h := by
    rcases List.mem_cons.1 h with rfl | h
    · rfl
    · rw [List.eq_of_mem_replicate h]; rfl

/-- `\uXXXX`. -/
def escapeUnit (unit : Nat) : List Char :=
  ['\\', 'u', Nat.digitChar (unit / 4096 % 16), Nat.digitChar (unit / 256 % 16),
    Nat.digitChar (unit / 16 % 16), Nat.digitChar (unit % 16)]

/-- `ensure_ascii`: everything outside printable ASCII is escaped. -/
def escape (c : Char) : List Char :=
  if c = '"' then ['\\', '"'] else if c = '\\' then ['\\', '\\'] else if c = '\n' then ['\\', 'n']
  else if c = '\r' then ['\\', 'r'] else if c = '\t' then ['\\', 't'] else if c = '\x0c' then ['\\', 'f']
  else if c = '\x08' then ['\\', 'b']
  else if 0x20 ≤ c.toNat ∧ c.toNat ≤ 0x7e then [c]
  else if c.toNat < 0x10000 then escapeUnit c.toNat
  else escapeUnit (0xd800 + (c.toNat - 0x10000) / 0x400) ++
    escapeUnit (0xdc00 + (c.toNat - 0x10000) % 0x400)

def quote (text : String) : List Char := '"' :: (text.toList.flatMap escape ++ ['"'])

def intText (n : Int) : List Char :=
  (if n < 0 then ['-'] else []) ++ Nat.toDigits 10 n.natAbs

mutual

def write (layout : Layout) (depth : Nat) : Json → List Char
  | .null => ['n', 'u', 'l', 'l']
  | .bool true => ['t', 'r', 'u', 'e']
  | .bool false => ['f', 'a', 'l', 's', 'e']
  | .int n => intText n
  | .real text => text.toList
  | .str text => quote text
  | .arr [] => ['[', ']']
  | .arr (item :: items) =>
    '[' :: (layout.inside (depth + 1) ++ write layout (depth + 1) item
      ++ writeItems layout (depth + 1) items ++ layout.inside depth ++ [']'])
  | .obj [] => ['{', '}']
  | .obj ((key, item) :: members) =>
    '{' :: (layout.inside (depth + 1) ++ quote key ++ [':', ' '] ++ write layout (depth + 1) item
      ++ writeMembers layout (depth + 1) members ++ layout.inside depth ++ ['}'])

def writeItems (layout : Layout) (depth : Nat) : List Json → List Char
  | [] => []
  | item :: items => ',' ::
      (layout.between depth ++ write layout depth item ++ writeItems layout depth items)

def writeMembers (layout : Layout) (depth : Nat) : List (String × Json) → List Char
  | [] => []
  | (key, item) :: members =>
    ',' :: (layout.between depth ++ quote key ++ [':', ' '] ++ write layout depth item
      ++ writeMembers layout depth members)

end

def dumps (layout : Layout) (json : Json) : List Char := write layout 0 json

end Json

end TxPlatform
