import Folio.Json.Value

/-!
# Writing values

A value is written either without any blanks or with each part of a container on a line of its own,
indented by two spaces for each container around it. Only quotes, backslashes and control characters
are escaped.
-/

namespace Folio.Json

/-- The blanks of a written value. -/
inductive Spacing where
  /-- No blanks. -/
  | compact
  /-- A line for each part, and a space after a colon. -/
  | pretty
  deriving DecidableEq

/-- The blanks before a part that lies in `level` containers. -/
def Spacing.lineBreak : Spacing → Nat → List Char
  | .compact, _ => []
  | .pretty, level => '\n' :: List.replicate (2 * level) ' '

/-- What stands between a name and its value. -/
def Spacing.colon : Spacing → List Char
  | .compact => [':']
  | .pretty => [':', ' ']

namespace Value

/-- The hexadecimal digit of a number below sixteen. -/
def hexDigit (n : Nat) : Char := if n < 10 then Char.ofNat (48 + n) else Char.ofNat (87 + n)

/-- A character of a string literal. -/
def escapeChar (c : Char) : List Char :=
  if c = '"' then ['\\', '"']
  else if c = '\\' then ['\\', '\\']
  else if c = '\x08' then ['\\', 'b']
  else if c = '\x0c' then ['\\', 'f']
  else if c = '\n' then ['\\', 'n']
  else if c = '\r' then ['\\', 'r']
  else if c = '\t' then ['\\', 't']
  else if c.toNat < 0x20 then
    ['\\', 'u', '0', '0', hexDigit (c.toNat / 16), hexDigit (c.toNat % 16)]
  else [c]

/-- A string literal. -/
def quote (s : String) : List Char := '"' :: (s.toList.flatMap escapeChar ++ ['"'])

mutual

/-- The text of a value that lies in `level` containers; a part without a value is written as
`null`. -/
def render (spacing : Spacing) (level : Nat) : Value → List Char
  | .null => ['n', 'u', 'l', 'l']
  | .bool true => ['t', 'r', 'u', 'e']
  | .bool false => ['f', 'a', 'l', 's', 'e']
  | .number n => n.text
  | .text s => quote s
  | .array [] => ['[', ']']
  | .array (v :: rest) =>
    '[' :: (spacing.lineBreak (level + 1) ++ (render spacing (level + 1) v ++
      (renderItems spacing (level + 1) rest ++ (spacing.lineBreak level ++ [']']))))
  | .object [] => ['\x7b', '\x7d']
  | .object ((name, v) :: rest) =>
    '\x7b' :: (spacing.lineBreak (level + 1) ++ (quote name ++ (spacing.colon ++
      (render spacing (level + 1) v ++ (renderMembers spacing (level + 1) rest ++
        (spacing.lineBreak level ++ ['\x7d']))))))
  | .unreadable => ['n', 'u', 'l', 'l']

/-- The text of the items after the first, each after a comma. -/
def renderItems (spacing : Spacing) (level : Nat) : List Value → List Char
  | [] => []
  | v :: rest =>
    ',' :: (spacing.lineBreak level ++ (render spacing level v ++ renderItems spacing level rest))

/-- The text of the members after the first, each after a comma. -/
def renderMembers (spacing : Spacing) (level : Nat) : List (String × Value) → List Char
  | [] => []
  | (name, v) :: rest =>
    ',' :: (spacing.lineBreak level ++ (quote name ++ (spacing.colon ++
      (render spacing level v ++ renderMembers spacing level rest))))

end

/-- The text of a value. -/
def print (spacing : Spacing) (v : Value) : String := String.ofList (render spacing 0 v)

end Value

end Folio.Json
