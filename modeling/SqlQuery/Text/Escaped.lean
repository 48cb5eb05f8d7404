import SqlQuery.Text.Hex
import SqlQuery.Text.Printable

/-!
Two ways of writing a text between double quotes: for a person who reads a description, and as a
JSON string.
-/

namespace SqlQuery.Text

/-- A character inside a description: the usual escapes, and the code point of a character
that cannot be seen or that would change the look of its neighbour. -/
def describeChar (c : Char) : String :=
  match c with
  | '\x00' => "\\0"
  | '\t' => "\\t"
  | '\r' => "\\r"
  | '\n' => "\\n"
  | '\\' => "\\\\"
  | '"' => "\\\""
  | c =>
      if (0x20 ≤ c.toNat && c.toNat < 0x7F) || (isPrintable c && !isExtending c) then
        c.toString
      else
        "\\u\x7b" ++ hexDigits c.toNat ++ "\x7d"

def described (text : String) : String :=
  "\"" ++ String.join (text.toList.map describeChar) ++ "\""

def jsonChar (c : Char) : String :=
  match c with
  | '"' => "\\\""
  | '\\' => "\\\\"
  | '\x08' => "\\b"
  | '\t' => "\\t"
  | '\n' => "\\n"
  | '\x0c' => "\\f"
  | '\r' => "\\r"
  | c =>
      if c.toNat < 0x10 then "\\u000" ++ hexDigits c.toNat
      else if c.toNat < 0x20 then "\\u00" ++ hexDigits c.toNat
      else c.toString

def jsonString (text : String) : String :=
  "\"" ++ String.join (text.toList.map jsonChar) ++ "\""

end SqlQuery.Text
