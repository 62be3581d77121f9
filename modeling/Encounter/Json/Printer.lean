import Encounter.Json.Basic
import Encounter.Number.Shortest

/-!
# Compact JSON text

`Json.render` writes a value without white space. Only the quote, the backslash and the controls
below the blank are escaped.
-/

set_option autoImplicit false

namespace Encounter.Json

/-- How JSON text writes one character of a string. -/
def escapeChar (c : Char) : String :=
  match c with
  | '"' => "\\\""
  | '\\' => "\\\\"
  | '\x08' => "\\b"
  | '\t' => "\\t"
  | '\n' => "\\n"
  | '\x0c' => "\\f"
  | '\r' => "\\r"
  | c =>
    if c.toNat < 0x20 then
      let digits := Nat.toDigits 16 c.toNat
      "\\u" ++ String.ofList (List.replicate (4 - digits.length) '0' ++ digits)
    else c.toString

/-- A string as JSON text. -/
def renderString (s : String) : String :=
  "\"" ++ String.join (s.toList.map escapeChar) ++ "\""

mutual

/-- The value as compact JSON text. -/
def render : Json → String
  | .null => "null"
  | .bool true => "true"
  | .bool false => "false"
  | .int i => toString i
  | .float x => x.text
  | .string s => renderString s
  | .list items => "[" ++ ",".intercalate (renderItems items) ++ "]"
  | .record entries => "\x7b" ++ ",".intercalate (renderEntries entries) ++ "\x7d"

/-- The texts of the items of a list. -/
def renderItems : List Json → List String
  | [] => []
  | item :: rest => render item :: renderItems rest

/-- The texts of the entries of a record. -/
def renderEntries : List (String × Json) → List String
  | [] => []
  | (key, value) :: rest => (renderString key ++ ":" ++ render value) :: renderEntries rest

end

end Encounter.Json
