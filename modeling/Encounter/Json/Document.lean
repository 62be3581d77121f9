import Encounter.Json.Basic
import Encounter.Text.Numeral

/-!
# JSON text

`Document.parse` reads a text into its syntax tree. The tree keeps what a later reading decides
about: every entry of a record in order, numbers as they are written, and whether the escapes of a
string form characters. `Document.toJson?` turns the tree into a value.
-/

set_option autoImplicit false

namespace Encounter.Json

/-- A piece of JSON text. A string whose escapes hold half of a surrogate pair has no value. -/
inductive Token where
  | openRecord
  | closeRecord
  | openList
  | closeList
  | colon
  | comma
  | null
  | bool (value : Bool)
  | number (text : List Char)
  | string (value : Option String)
  deriving DecidableEq

/-- The syntax tree of a JSON text. -/
inductive Document where
  | null
  | bool (value : Bool)
  | number (text : List Char)
  | string (value : Option String)
  | list (items : List Document)
  | record (entries : List (Option String × Document))
  deriving Inhabited

/-! ## Numbers -/

/-- A number literal cut into its parts, each a run of digits; the exponent carries its sign. -/
structure NumberParts where
  negative : Bool
  whole : List Char
  fraction : Option (List Char)
  exponent : Option Int

/-- The digits at the start of a text, and what follows them. -/
def spanDigits (s : List Char) : List Char × List Char :=
  (s.takeWhile Text.isDigit, s.dropWhile Text.isDigit)

/-- Reads the exponent of a number, which ends it. -/
def exponent? : List Char → Option (Option Int)
  | [] => some none
  | c :: rest => if c = 'e' ∨ c = 'E' then (Text.signed? rest).map some else none

/-- Reads a number literal: no leading zero before another digit, and digits on both sides of a
point. -/
def numberParts? (text : List Char) : Option NumberParts :=
  let (negative, rest) := match text with
    | '-' :: rest => (true, rest)
    | rest => (false, rest)
  let (whole, rest) := spanDigits rest
  if whole.isEmpty ∨ (whole.head? = some '0' ∧ 1 < whole.length) then none
  else match rest with
    | '.' :: rest =>
      let (fraction, rest) := spanDigits rest
      if fraction.isEmpty then none
      else (exponent? rest).map fun e => ⟨negative, whole, some fraction, e⟩
    | rest => (exponent? rest).map fun e => ⟨negative, whole, none, e⟩

/-- The value of the digits after those that `value` stands for, up to the first one that would take
it out of 64 bits, and how many digits are left. -/
def takeDigits (value : Nat) : List Char → Nat × Nat
  | [] => (value, 0)
  | c :: rest =>
    let next := 10 * value + Text.digitValue c
    if next < 0x10000000000000000 then takeDigits next rest else (value, rest.length + 1)

/-- The number that the literal stands for with the digits that 64 bits hold; those left out of the
whole part count as zeros. None if it is too large. -/
def NumberParts.toBinary64? (parts : NumberParts) : Option Binary64 :=
  let fraction := parts.fraction.getD []
  let (whole, wholeLeft) := takeDigits 0 parts.whole
  let (digits, fractionLeft) := takeDigits whole fraction
  let exponent := parts.exponent.getD 0 + wholeLeft + fractionLeft - fraction.length
  Binary64.ofDecimal? parts.negative digits exponent

/-- The value of a number literal. Without point and exponent it is whole if it is in range; the
negative zero and all others are `Binary64`. None if it is too large for that. -/
def NumberParts.toJson? (parts : NumberParts) : Option Json :=
  let whole := Text.digitsValue parts.whole
  let isWhole := parts.fraction.isNone && parts.exponent.isNone
  if isWhole ∧ parts.negative ∧ 0 < whole ∧ whole ≤ 0x8000000000000000 then some (.int (-whole))
  else if isWhole ∧ !parts.negative ∧ whole < 0x10000000000000000 then some (.int whole)
  else parts.toBinary64?.map .float

/-! ## Strings -/

/-- Joins surrogate pairs; none if half of a pair stands alone. -/
def joinUnits : List Nat → Option (List Char)
  | [] => some []
  | u :: rest =>
    if 0xd800 ≤ u ∧ u < 0xdc00 then
      match rest with
      | v :: rest' =>
        if 0xdc00 ≤ v ∧ v < 0xe000 then
          (joinUnits rest').map (Char.ofNat (0x10000 + (u - 0xd800) * 0x400 + (v - 0xdc00)) :: ·)
        else none
      | [] => none
    else if 0xdc00 ≤ u ∧ u < 0xe000 then none
    else (joinUnits rest).map (Char.ofNat u :: ·)

/-- The value of a hexadecimal digit. -/
def hexValue? (c : Char) : Option Nat :=
  if Text.isDigit c then some (Text.digitValue c)
  else if 'a' ≤ c ∧ c ≤ 'f' then some (c.toNat - 'a'.toNat + 10)
  else if 'A' ≤ c ∧ c ≤ 'F' then some (c.toNat - 'A'.toNat + 10)
  else none

/-- The character that a backslash and the given letter stand for. -/
def simpleEscape? : Char → Option Char
  | '"' => some '"'
  | '\\' => some '\\'
  | '/' => some '/'
  | 'b' => some '\x08'
  | 'f' => some '\x0c'
  | 'n' => some '\n'
  | 'r' => some '\r'
  | 't' => some '\t'
  | _ => none

/-! ## Tokens -/

/-- Where in the text a scan stands. The units of a string and the characters of a word are
collected in reverse. -/
inductive ScanMode where
  | between
  | word (reversed : List Char)
  | string (reversed : List Nat)
  | escape (reversed : List Nat)
  | hex (reversed : List Nat) (digits value : Nat)

/-- The state of a scan: its mode, and the tokens found so far in reverse. -/
structure Scan where
  mode : ScanMode
  tokens : List Token

/-- The token that a word forms: a literal or a number. -/
def wordToken? (word : List Char) : Option Token :=
  if word = ['n', 'u', 'l', 'l'] then some .null
  else if word = ['t', 'r', 'u', 'e'] then some (.bool true)
  else if word = ['f', 'a', 'l', 's', 'e'] then some (.bool false)
  else (numberParts? word).map fun _ => .number word

/-- Is the character part of a literal or a number? -/
def isWordChar (c : Char) : Bool :=
  c.isAlphanum || c == '+' || c == '-' || c == '.'

/-- One character between tokens. -/
def scanBetween (tokens : List Token) (c : Char) : Option Scan :=
  if c = ' ' ∨ c = '\t' ∨ c = '\n' ∨ c = '\r' then some ⟨.between, tokens⟩
  else if c = '\x7b' then some ⟨.between, .openRecord :: tokens⟩
  else if c = '\x7d' then some ⟨.between, .closeRecord :: tokens⟩
  else if c = '[' then some ⟨.between, .openList :: tokens⟩
  else if c = ']' then some ⟨.between, .closeList :: tokens⟩
  else if c = ':' then some ⟨.between, .colon :: tokens⟩
  else if c = ',' then some ⟨.between, .comma :: tokens⟩
  else if c = '"' then some ⟨.string [], tokens⟩
  else if isWordChar c then some ⟨.word [c], tokens⟩
  else none

/-- One character of the text; none where the text is not JSON. -/
def Scan.step (scan : Scan) (c : Char) : Option Scan :=
  match scan.mode with
  | .between => scanBetween scan.tokens c
  | .word reversed =>
    if isWordChar c then some ⟨.word (c :: reversed), scan.tokens⟩
    else (wordToken? reversed.reverse).bind fun token => scanBetween (token :: scan.tokens) c
  | .string reversed =>
    if c = '"' then
      some ⟨.between, .string ((joinUnits reversed.reverse).map String.ofList) :: scan.tokens⟩
    else if c = '\\' then some ⟨.escape reversed, scan.tokens⟩
    else if c.toNat < 0x20 then none
    else some ⟨.string (c.toNat :: reversed), scan.tokens⟩
  | .escape reversed =>
    if c = 'u' then some ⟨.hex reversed 0 0, scan.tokens⟩
    else (simpleEscape? c).map fun e => ⟨.string (e.toNat :: reversed), scan.tokens⟩
  | .hex reversed digits value =>
    (hexValue? c).map fun digit =>
      let value := 16 * value + digit
      if digits = 3 then ⟨.string (value :: reversed), scan.tokens⟩
      else ⟨.hex reversed (digits + 1) value, scan.tokens⟩

/-- The tokens of a scan that has reached the end of the text. -/
def Scan.finish (scan : Scan) : Option (List Token) :=
  match scan.mode with
  | .between => some scan.tokens.reverse
  | .word reversed => (wordToken? reversed.reverse).map fun token => (token :: scan.tokens).reverse
  | _ => none

/-- The tokens of a text. -/
def tokens? (text : String) : Option (List Token) :=
  (text.toList.foldlM Scan.step ⟨.between, []⟩).bind Scan.finish

/-! ## Trees -/

mutual

/-- Reads one document off the front of the tokens. -/
def Document.value? : Nat → List Token → Option (Document × List Token)
  | 0, _ => none
  | _ + 1, [] => none
  | fuel + 1, token :: rest =>
    match token with
    | .null => some (.null, rest)
    | .bool b => some (.bool b, rest)
    | .number text => some (.number text, rest)
    | .string s => some (.string s, rest)
    | .openList =>
      match rest with
      | .closeList :: rest => some (.list [], rest)
      | rest => (Document.items? fuel rest []).map fun (items, rest) => (.list items, rest)
    | .openRecord =>
      match rest with
      | .closeRecord :: rest => some (.record [], rest)
      | rest => (Document.entries? fuel rest []).map fun (entries, rest) => (.record entries, rest)
    | _ => none

/-- Reads the items of a list up to its end; those read so far are in reverse. -/
def Document.items? : Nat → List Token → List Document → Option (List Document × List Token)
  | 0, _, _ => none
  | fuel + 1, tokens, reversed =>
    match Document.value? fuel tokens with
    | some (item, .comma :: rest) => Document.items? fuel rest (item :: reversed)
    | some (item, .closeList :: rest) => some ((item :: reversed).reverse, rest)
    | _ => none

/-- Reads the entries of a record up to its end; those read so far are in reverse. -/
def Document.entries? : Nat → List Token → List (Option String × Document) →
    Option (List (Option String × Document) × List Token)
  | 0, _, _ => none
  | fuel + 1, tokens, reversed =>
    match tokens with
    | .string key :: .colon :: rest =>
      match Document.value? fuel rest with
      | some (value, .comma :: rest) => Document.entries? fuel rest ((key, value) :: reversed)
      | some (value, .closeRecord :: rest) => some (((key, value) :: reversed).reverse, rest)
      | _ => none
    | _ => none

end

/-- The syntax tree of a text; none if the text is not JSON. Each level of nesting and each item
takes a token, so the number of tokens bounds the reading. -/
def Document.parse (text : String) : Option Document :=
  match tokens? text with
  | none => none
  | some tokens =>
    match Document.value? (2 * tokens.length + 1) tokens with
    | some (document, []) => some document
    | _ => none

mutual

/-- The value of a document; none if it holds a number that is too large or a string with half of
a surrogate pair. -/
def Document.toJson? : Document → Option Json
  | .null => some .null
  | .bool b => some (.bool b)
  | .number text => (numberParts? text).bind NumberParts.toJson?
  | .string s => s.map .string
  | .list items => (Document.toItems? items).map .list
  | .record entries => (Document.toEntries? entries).map ofEntries

/-- The values of the items of a list. -/
def Document.toItems? : List Document → Option (List Json)
  | [] => some []
  | item :: rest =>
    match Document.toJson? item, Document.toItems? rest with
    | some value, some values => some (value :: values)
    | _, _ => none

/-- The values of the entries of a record, in the order of the text. -/
def Document.toEntries? : List (Option String × Document) → Option (List (String × Json))
  | [] => some []
  | (key, item) :: rest =>
    match key, Document.toJson? item, Document.toEntries? rest with
    | some key, some value, some values => some ((key, value) :: values)
    | _, _, _ => none

end

/-- Reads a value from its text. -/
def parse (text : String) : Option Json :=
  (Document.parse text).bind Document.toJson?

end Encounter.Json
