import Folio.Dict
import Folio.Json.Printer

/-!
# Records

How typed data is read from values and written to them. A record is an object with one member for
each field, or an array of the fields in their order; unknown members are ignored and a field
given twice is refused. A choice between kinds of records carries the name of the kind in a member
`type`, or as the first item of an array.

The parts of a record that carries its kind are read less strictly than others: there a choice of
a name may also be bound to an empty object, and a kind may be given by its position.
-/

namespace Folio.Json

/-- How strictly names and kinds are read. -/
inductive Strictness where
  /-- A kind is given by its name, and a name stands alone or is bound to null. -/
  | strict
  /-- A kind may be given by its position, and a name may be bound to an empty object. -/
  | lenient
  deriving DecidableEq

namespace Value

/-- A natural number below a bound. -/
def natBelow? (bound : Nat) : Value → Option Nat
  | .number n => n.toNat?.bind fun value => if value < bound then some value else none
  | _ => none

/-- An integer of 8 bits. -/
def uint8? (v : Value) : Option UInt8 := (v.natBelow? UInt8.size).map UInt8.ofNat

/-- An integer of 32 bits. -/
def uint32? (v : Value) : Option UInt32 := (v.natBelow? UInt32.size).map UInt32.ofNat

/-- A length. -/
def float32? : Value → Option Float32
  | .number n => n.toFloat32?
  | _ => none

/-- A truth value. -/
def bool? : Value → Option Bool
  | .bool b => some b
  | _ => none

/-- A text. -/
def text? : Value → Option String
  | .text s => some s
  | _ => none

/-- A list of values that are all read alike. -/
def list? {α : Type} (read : Value → Option α) : Value → Option (List α)
  | .array items => items.mapM read
  | _ => none

/-- A dictionary; of two members with one name the later counts, and both have to be readable. -/
def dict? {α : Type} (read : Value → Option α) : Value → Option (Dict α)
  | .object members =>
    (members.mapM fun (m : String × Value) => (read m.2).map fun a => (m.1, a)).map Dict.ofList
  | _ => none

/-- One of several names: the name itself, or an object with that name alone and nothing in it. -/
def choice? {α : Type} (mode : Strictness) (choices : List (String × α)) : Value → Option α
  | .text name => choices.lookup name
  | .object [(name, .null)] => choices.lookup name
  | .object [(name, .object [])] => if mode = .lenient then choices.lookup name else none
  | _ => none

/-- A value beside its kind: an object with one member, the kind. -/
def variant? : Value → Option (String × Value)
  | .object [(kind, v)] => some (kind, v)
  | _ => none

/-- The one value that a list of members binds to a field, if any; none of two. -/
def slot? (members : List (String × Value)) (field : String) : Option (Option Value) :=
  match members.filter (·.1 == field) with
  | [] => some none
  | [(_, v)] => some (some v)
  | _ => none

/-- The values of the fields of a record, in the order of the fields. -/
def slots? (fields : List String) : Value → Option (List (Option Value))
  | .object members => fields.mapM (slot? members)
  | .array items =>
    if items.length ≤ fields.length then
      some (items.map some ++ List.replicate (fields.length - items.length) none)
    else none
  | _ => none

/-- A field that has to be there. -/
def required {α : Type} (read : Value → Option α) (slot : Option Value) : Option α :=
  slot.bind read

/-- A field that may be left out or null. -/
def optional {α : Type} (read : Value → Option α) : Option Value → Option (Option α)
  | none => some none
  | some .null => some none
  | some v => (read v).map some

/-- A field that has a value when it is left out. -/
def orElse {α : Type} (read : Value → Option α) (default : α) : Option Value → Option α
  | none => some default
  | some v => read v

/-- The kind that a value names among several. -/
def kind? (mode : Strictness) (kinds : List String) : Value → Option String
  | .text kind => some kind
  | .number n => if mode = .lenient then n.toNat?.bind fun position => kinds[position]? else none
  | _ => none

/-- The kind of a record and its other fields. All of it has to be readable, known or not. -/
def tagged? (mode : Strictness) (kinds : List String) (v : Value) : Option (String × Value) :=
  if v.isReadable then
    match v with
    | .object members =>
      match slot? members "type" with
      | some (some tag) => (kind? mode kinds tag).map fun kind =>
        (kind, .object (members.filter (·.1 != "type")))
      | _ => none
    | .array (tag :: rest) => (kind? mode kinds tag).map fun kind => (kind, .array rest)
    | _ => none
  else none

/-- A record without fields. -/
def noFields? : Value → Option Unit
  | .object _ => some ()
  | .array [] => some ()
  | _ => none

/-- A length; one that is not finite has no numeral. -/
def ofFloat32 (x : Float32) : Value :=
  match Numeral.ofFloat32? x with
  | some n => .number n
  | none => .null

/-- A natural number. -/
def ofNat (n : Nat) : Value := .number (.ofNat n)

/-- A list of values that are all written alike. -/
def ofList {α : Type} (write : α → Value) (items : List α) : Value := .array (items.map write)

/-- A dictionary, in the order of its names. -/
def ofDict {α : Type} (write : α → Value) (d : Dict α) : Value :=
  .object (d.entries.map fun e => (e.1, write e.2))

/-- The members of a record: those of its fields that have a value, in the order of the fields. -/
def members (fields : List String) (slots : List (Option Value)) : List (String × Value) :=
  (fields.zip slots).filterMap fun (field, slot) => slot.map fun v => (field, v)

/-- A record. -/
def record (fields : List String) (slots : List (Option Value)) : Value :=
  .object (members fields slots)

/-- A record of one kind among several. -/
def tagged (kind : String) (fields : List String) (slots : List (Option Value)) : Value :=
  .object (("type", .text kind) :: members fields slots)

/-- A value beside its kind. -/
def variant (kind : String) (v : Value) : Value := .object [(kind, v)]

/-- A field that is left out unless a condition holds. -/
def onlyIf (condition : Bool) (v : Value) : Option Value := if condition then some v else none

end Value

end Folio.Json
