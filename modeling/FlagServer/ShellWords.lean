import FlagServer.Text.Basic

/-!
# Words of a command line

A command that is one string is cut into words the way a shell would, without expansion:

* white space separates words;
* a backslash takes the next character as it is;
* between apostrophes everything stands for itself;
* between quotation marks a backslash is an escape only before `"`, `\`, `$` and the backquote,
  and stands for itself before anything else;
* quoted and bare pieces that touch make one word, so `''` is an empty word.

A quotation that is not closed ends with the text, and so does an escape: a last backslash
between quotation marks stands for itself, and a bare one for nothing.
-/

namespace FlagServer.ShellWords

/-- Where in a command the reader stands. -/
inductive Mode where
  /-- Outside quotations. -/
  | bare
  /-- Between apostrophes. -/
  | single
  /-- Between quotation marks. -/
  | double
  deriving DecidableEq

/-- The characters that a backslash escapes between quotation marks. -/
def isEscapable (c : Char) : Bool :=
  c == '"' || c == '\\' || c == '$' || c == '\x60'

/-- The words of the rest of a command, `current` being the word that is open, if `begun`. -/
def words (begun : Bool) (current : List Char) : Mode → List Char → List (List Char)
  | .bare, [] => if begun then [current] else []
  | .bare, c :: cs =>
    if Text.isBlank c then
      if begun then current :: words false [] .bare cs else words false [] .bare cs
    else if c == '\x27' then words true current .single cs
    else if c == '"' then words true current .double cs
    else if c == '\\' then
      match cs with
      | e :: cs => words true (current ++ [e]) .bare cs
      | [] => [current]
    else words true (current ++ [c]) .bare cs
  | .single, [] => [current]
  | .single, c :: cs =>
    if c == '\x27' then words true current .bare cs else words true (current ++ [c]) .single cs
  | .double, [] => [current]
  | .double, c :: cs =>
    if c == '"' then words true current .bare cs
    else if c == '\\' then
      match cs with
      | e :: cs =>
        if isEscapable e then words true (current ++ [e]) .double cs
        else words true (current ++ ['\\', e]) .double cs
      | [] => [current ++ ['\\']]
    else words true (current ++ [c]) .double cs

/-- The words of a command. -/
def split (cs : List Char) : List (List Char) :=
  words false [] .bare cs

/-- The words of a command as strings. -/
def splitString (command : String) : List String :=
  (split command.toList).map String.ofList

end FlagServer.ShellWords
