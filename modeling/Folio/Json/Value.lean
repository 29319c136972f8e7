import Folio.Json.Token

/-!
# Values

The second stage of reading a JSON text: tokens to a tree, by a machine that takes one token at a
time and keeps the open containers on a stack. A text can be well formed and still hold parts that
have no value: numbers beyond binary64, strings with half a surrogate pair, and containers nested
deeper than the limit. Such a part is kept as unreadable, since a reader that has no use for it
may skip it.
-/

namespace Folio.Json

/-- A JSON value. -/
inductive Value where
  | null
  | bool (b : Bool)
  | number (n : Numeral)
  | text (s : String)
  | array (items : List Value)
  | object (members : List (String × Value))
  /-- A well formed part of a text that may be skipped but not read. -/
  | unreadable
  deriving Inhabited

namespace Value

/-- How deep arrays and objects may be nested. -/
def nestingLimit : Nat := 127

/-- A container that has been opened and not yet closed; its parts stand in it the last first. -/
inductive Frame where
  | array (items : List Value)
  /-- The members so far, whether each name was a text, and the name whose value is being read. -/
  | object (members : List (String × Value)) (named : Bool) (name : Option String)

/-- What has to come next. -/
inductive Expect where
  | value
  /-- A value, or the end of an array just opened. -/
  | item
  /-- A name, or the end of an object just opened. -/
  | member
  | name
  | colon
  /-- A comma, the end of a container or the end of the text. -/
  | after (v : Value)

/-- A tree under construction. -/
structure Builder where
  /-- What has to come next. -/
  expect : Expect
  /-- The open containers, the innermost first. -/
  stack : List Frame

namespace Builder

/-- A builder before the first token. -/
def start : Builder := ⟨.value, []⟩

/-- The value of a literal. -/
def literal? : Token → Option Value
  | .null => some .null
  | .bool b => some (.bool b)
  | .number n => some (if n.inRange then .number n else .unreadable)
  | .text (some s) => some (.text s)
  | .text none => some .unreadable
  | _ => none

/-- Begins a value. -/
def beginValue (stack : List Frame) (t : Token) : Option Builder :=
  match t with
  | .openArray => some ⟨.item, .array [] :: stack⟩
  | .openObject => some ⟨.member, .object [] true none :: stack⟩
  | t => (literal? t).map fun v => ⟨.after v, stack⟩

/-- Whether a list is shorter than a limit; no more elements than that are counted. -/
def isShorter {α : Type} : Nat → List α → Bool
  | 0, _ => false
  | _ + 1, [] => true
  | limit + 1, _ :: rest => isShorter limit rest

/-- Whether a list is shorter than a limit is found out without going through all of it. -/
theorem isShorter_iff {α : Type} {limit : Nat} {l : List α} :
    isShorter limit l = true ↔ l.length < limit := by
  induction limit generalizing l with
  | zero => simp [isShorter]
  | succ limit ih => cases l <;> simp [isShorter, ih]

/-- Ends a container, which has a value when few enough others enclose it. -/
def close (stack : List Frame) (v : Value) : Builder :=
  ⟨.after (if isShorter nestingLimit stack then v else .unreadable), stack⟩

/-- Ends an object, which has no value when one of its names is no text. -/
def closeObject (stack : List Frame) (members : List (String × Value)) (named : Bool) : Builder :=
  close stack (if named then .object members.reverse else .unreadable)

/-- Takes the name of a member. -/
def takeName (stack : List Frame) (t : Token) : Option Builder :=
  match stack, t with
  | .object members named _ :: stack, .text name =>
    some ⟨.colon, .object members (named && name.isSome) name :: stack⟩
  | _, _ => none

/-- Takes what follows a value. -/
def takeAfter (stack : List Frame) (v : Value) (t : Token) : Option Builder :=
  match stack with
  | [] => none
  | .array items :: stack =>
    match t with
    | .comma => some ⟨.value, .array (v :: items) :: stack⟩
    | .closeArray => some (close stack (.array (v :: items).reverse))
    | _ => none
  | .object members named name :: stack =>
    let members := (name.getD "", v) :: members
    match t with
    | .comma => some ⟨.name, .object members named none :: stack⟩
    | .closeObject => some (closeObject stack members named)
    | _ => none

/-- Takes one token. -/
def step (b : Builder) (t : Token) : Option Builder :=
  match b.expect with
  | .value => beginValue b.stack t
  | .item =>
    match t, b.stack with
    | .closeArray, _ :: stack => some (close stack (.array []))
    | t, stack => beginValue stack t
  | .member =>
    match t, b.stack with
    | .closeObject, _ :: stack => some (close stack (.object []))
    | t, stack => takeName stack t
  | .name => takeName b.stack t
  | .colon => if t = .colon then some { b with expect := .value } else none
  | .after v => takeAfter b.stack v t

/-- The finished value, when nothing is missing. -/
def value? (b : Builder) : Option Value :=
  match b.expect, b.stack with
  | .after v, [] => some v
  | _, _ => none

end Builder

/-- The value that a list of tokens spells. -/
def ofTokens? (tokens : List Token) : Option Value :=
  (tokens.foldlM Builder.step Builder.start).bind Builder.value?

/-- The value of a text. -/
def parse? (text : String) : Option Value := (Token.scan? text.toList).bind ofTokens?

mutual

/-- Whether a value and all its parts can be read. -/
def isReadable : Value → Bool
  | .array items => allReadable items
  | .object members => membersReadable members
  | .unreadable => false
  | _ => true

/-- Whether all values of a list can be read. -/
def allReadable : List Value → Bool
  | [] => true
  | v :: rest => v.isReadable && allReadable rest

/-- Whether the values of all members can be read. -/
def membersReadable : List (String × Value) → Bool
  | [] => true
  | (_, v) :: rest => v.isReadable && membersReadable rest

end

mutual

/-- How many containers a value nests, itself included. -/
def depth : Value → Nat
  | .array items => depthAll items + 1
  | .object members => depthMembers members + 1
  | _ => 0

/-- The greatest depth in a list of values. -/
def depthAll : List Value → Nat
  | [] => 0
  | v :: rest => max v.depth (depthAll rest)

/-- The greatest depth among the values of members. -/
def depthMembers : List (String × Value) → Nat
  | [] => 0
  | (_, v) :: rest => max v.depth (depthMembers rest)

end

end Value

end Folio.Json
