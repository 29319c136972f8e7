import Folio.Json.Numeral

/-!
# Tokens

The first stage of reading a JSON text: brackets, commas, colons and literals, with blanks between
them dropped. The scanner is a machine that takes one character at a time. A string literal may
hold an escape for one half of a surrogate pair only; it is then no text, but it can still be
skipped.
-/

namespace Folio.Json

/-- A lexical unit of a JSON text. -/
inductive Token where
  | openArray
  | closeArray
  | openObject
  | closeObject
  | comma
  | colon
  | null
  | bool (b : Bool)
  | number (n : Numeral)
  /-- A string literal; one with an unpaired surrogate has no text. -/
  | text (s : Option String)
  deriving DecidableEq

namespace Token

/-- The blanks that may stand between tokens. -/
def isSpace (c : Char) : Bool := c == ' ' || c == '\t' || c == '\n' || c == '\r'

/-- The characters of which numerals consist. -/
def isNumeralChar (c : Char) : Bool :=
  Numeral.isDigit c || c == '-' || c == '+' || c == '.' || c == 'e' || c == 'E'

/-- The letters of which the words `null`, `true` and `false` consist. -/
def isWordChar (c : Char) : Bool := 'a' ≤ c && c ≤ 'z'

/-- The token that stands for itself as one character. -/
def ofMark? (c : Char) : Option Token :=
  match c with
  | '[' => some .openArray
  | ']' => some .closeArray
  | '\x7b' => some .openObject
  | '\x7d' => some .closeObject
  | ',' => some .comma
  | ':' => some .colon
  | _ => none

/-- The token that a word is. -/
def ofWord? (word : List Char) : Option Token :=
  if word = ['n', 'u', 'l', 'l'] then some .null
  else if word = ['t', 'r', 'u', 'e'] then some (.bool true)
  else if word = ['f', 'a', 'l', 's', 'e'] then some (.bool false)
  else none

/-- The number that a hexadecimal digit stands for. -/
def hexValue? (c : Char) : Option Nat :=
  if '0' ≤ c ∧ c ≤ '9' then some (c.toNat - 48)
  else if 'a' ≤ c ∧ c ≤ 'f' then some (c.toNat - 87)
  else if 'A' ≤ c ∧ c ≤ 'F' then some (c.toNat - 55)
  else none

/-- The character that a one-letter escape stands for. -/
def ofEscape? (c : Char) : Option Char :=
  match c with
  | '"' => some '"'
  | '\\' => some '\\'
  | '/' => some '/'
  | 'b' => some '\x08'
  | 'f' => some '\x0c'
  | 'n' => some '\n'
  | 'r' => some '\r'
  | 't' => some '\t'
  | _ => none

/-- The part of a string literal that has been read. -/
structure Literal where
  /-- Its characters, the last first. -/
  chars : List Char
  /-- The first half of a surrogate pair, when its second half has to come next. -/
  half : Option Nat
  /-- Whether a half of a surrogate pair stood alone. -/
  broken : Bool
  deriving DecidableEq

namespace Literal

/-- A literal before its first character. -/
def start : Literal := ⟨[], none, false⟩

/-- Takes one character. -/
def push (l : Literal) (c : Char) : Literal :=
  if l.half.isSome then { l with broken := true } else { l with chars := c :: l.chars }

/-- Takes one 16-bit unit; two halves of a pair make one character. -/
def pushUnit (l : Literal) (unit : Nat) : Literal :=
  if 0xd800 ≤ unit ∧ unit < 0xdc00 then
    if l.half.isSome then { l with broken := true } else { l with half := some unit }
  else if 0xdc00 ≤ unit ∧ unit < 0xe000 then
    match l.half with
    | some first =>
      { l with
        chars := Char.ofNat (0x10000 + (first - 0xd800) * 0x400 + (unit - 0xdc00)) :: l.chars
        half := none }
    | none => { l with broken := true }
  else l.push (Char.ofNat unit)

/-- The text of a finished literal. -/
def text? (l : Literal) : Option String :=
  if l.broken || l.half.isSome then none else some (String.ofList l.chars.reverse)

end Literal

/-- What the scanner is in the middle of. -/
inductive Mode where
  /-- Between two tokens. -/
  | between
  /-- In a string literal. -/
  | text (l : Literal)
  /-- After a backslash in a string literal. -/
  | escape (l : Literal)
  /-- In the four digits of a numeric escape: how many are left and what the others count. -/
  | unit (l : Literal) (left : Nat) (value : Nat)
  /-- In a numeral, whose characters are kept last first. -/
  | number (chars : List Char)
  /-- In a word, whose characters are kept last first. -/
  | word (chars : List Char)
  deriving DecidableEq

/-- A scanner: what it is in the middle of, and the tokens so far, the last first. -/
structure Scanner where
  /-- What the scanner is in the middle of. -/
  mode : Mode
  /-- The tokens that are complete, the last first. -/
  done : List Token
  deriving DecidableEq

namespace Scanner

/-- A scanner before the first character. -/
def start : Scanner := ⟨.between, []⟩

/-- Adds a token after which a new one may begin. -/
def emit (s : Scanner) (t : Token) : Scanner := ⟨.between, t :: s.done⟩

/-- Begins a token, or skips a blank. -/
def begin (done : List Token) (c : Char) : Option Scanner :=
  if isSpace c then some ⟨.between, done⟩
  else if c = '"' then some ⟨.text .start, done⟩
  else if isNumeralChar c then some ⟨.number [c], done⟩
  else if isWordChar c then some ⟨.word [c], done⟩
  else (ofMark? c).map fun t => ⟨.between, t :: done⟩

/-- Ends a numeral or a word, which have no mark at their end. -/
def finishOpen (s : Scanner) : Option Scanner :=
  match s.mode with
  | .between => some s
  | .number chars => (Numeral.ofText? chars.reverse).map fun n => s.emit (.number n)
  | .word chars => (ofWord? chars.reverse).map s.emit
  | _ => none

/-- Takes one character. -/
def step (s : Scanner) (c : Char) : Option Scanner :=
  match s.mode with
  | .between => begin s.done c
  | .text l =>
    if c = '"' then some (s.emit (.text l.text?))
    else if c = '\\' then some ⟨.escape l, s.done⟩
    else if c.toNat < 0x20 then none
    else some ⟨.text (l.push c), s.done⟩
  | .escape l =>
    if c = 'u' then some ⟨.unit l 4 0, s.done⟩
    else (ofEscape? c).map fun e => ⟨.text (l.push e), s.done⟩
  | .unit l left value =>
    (hexValue? c).map fun d =>
      if left ≤ 1 then ⟨.text (l.pushUnit (16 * value + d)), s.done⟩
      else ⟨.unit l (left - 1) (16 * value + d), s.done⟩
  | .number chars =>
    if isNumeralChar c then some ⟨.number (c :: chars), s.done⟩
    else s.finishOpen.bind fun s => begin s.done c
  | .word chars =>
    if isWordChar c then some ⟨.word (c :: chars), s.done⟩
    else s.finishOpen.bind fun s => begin s.done c

end Scanner

/-- The tokens of a text. -/
def scan? (text : List Char) : Option (List Token) := do
  let s ← text.foldlM Scanner.step Scanner.start
  let s ← s.finishOpen
  return s.done.reverse

end Token

end Folio.Json
