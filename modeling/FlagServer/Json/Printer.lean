import FlagServer.Json.Double
import FlagServer.Text.Quoted
import FlagServer.Text.Utf8

/-!
# Writing a JSON value

The compact text of a value: no space, members in the order of their keys, and in strings only
what has to be escaped. Non-ASCII characters, the slash and the delete character stand as they
are.
-/

namespace FlagServer.Json

/-- One character of a string. -/
def escapeChar (c : Char) : List Char :=
  if c == '"' then ['\\', '"']
  else if c == '\\' then ['\\', '\\']
  else if c == '\x08' then ['\\', 'b']
  else if c == '\x0c' then ['\\', 'f']
  else if c == '\n' then ['\\', 'n']
  else if c == '\r' then ['\\', 'r']
  else if c == '\t' then ['\\', 't']
  else if c.toNat < 0x20 then
    ['\\', 'u', '0', '0', Text.Quoted.hexDigit (c.toNat / 16), Text.Quoted.hexDigit (c.toNat % 16)]
  else [c]

/-- A string between quotation marks. -/
def renderString (s : String) : List Char :=
  '"' :: s.toList.flatMap escapeChar ++ ['"']

/-- A number. -/
def renderNumber : Number → List Char
  | .int n => Text.Decimal.intDigits n
  | .real x => x.render

mutual

/-- The compact text of a value. -/
def render : Json → List Char
  | .null => ['n', 'u', 'l', 'l']
  | .bool true => ['t', 'r', 'u', 'e']
  | .bool false => ['f', 'a', 'l', 's', 'e']
  | .num n => renderNumber n
  | .str s => renderString s
  | .arr items => '[' :: renderItems items ++ [']']
  | .obj members => '\x7b' :: renderMembers members ++ ['\x7d']

/-- The items with commas between them. -/
def renderItems : List Json → List Char
  | [] => []
  | [v] => render v
  | v :: vs => render v ++ ',' :: renderItems vs

/-- The members with commas between them. -/
def renderMembers : List (String × Json) → List Char
  | [] => []
  | [(k, v)] => renderString k ++ ':' :: render v
  | (k, v) :: ms => renderString k ++ ':' :: render v ++ ',' :: renderMembers ms

end

/-- The compact text of a value as a string. -/
def renderText (v : Json) : String :=
  String.ofList v.render

/-- The bytes of the compact text. -/
def renderBytes (v : Json) : List UInt8 :=
  Text.Utf8.encode v.render

end FlagServer.Json
