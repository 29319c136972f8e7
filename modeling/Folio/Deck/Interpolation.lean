import Folio.Deck.Card

/-!
# Interpolation

Texts on a card are filled with the values of its item. In a template a name in braces stands for
the value under that name; everything else stands for itself, a brace that is never closed among
it. Values are taken as they are, so braces in them have no meaning.
-/

namespace Folio

/-- The value of an item under a name; its label goes by the name `label`. -/
def GridItem.lookup (item : GridItem) (name : String) : Except BuildError String :=
  if name = "label" then .ok item.label
  else
    match item.get? name with
    | some value => .ok value
    | none => .error (.missingField item.index name)

namespace Template

/-- The name up to the brace that closes it, and the text behind that brace. -/
def closing? : List Char → Option (List Char × List Char)
  | [] => none
  | c :: rest =>
    if c = '\x7d' then some ([], rest)
    else (closing? rest).map fun (name, rest) => (c :: name, rest)

/-- What follows a closing brace is shorter than the text before it. -/
theorem length_lt_of_closing? {text name rest : List Char}
    (h : closing? text = some (name, rest)) : rest.length < text.length := by
  induction text generalizing name rest with
  | nil => simp [closing?] at h
  | cons c text ih =>
    simp only [closing?] at h
    split at h
    · cases h
      exact Nat.lt_succ_self _
    · obtain ⟨⟨n, r⟩, hr, he⟩ := Option.map_eq_some_iff.mp h
      cases he
      exact Nat.lt_succ_of_lt (ih hr)

/-- Fills a template with the values of an item; the first name without a value is an error. -/
def fill (item : GridItem) : List Char → Except BuildError (List Char)
  | [] => .ok []
  | c :: rest =>
    if c = '\x7b' then
      match _h : closing? rest with
      | some (name, rest) => do
        let value ← item.lookup (String.ofList name)
        return value.toList ++ (← fill item rest)
      | none => .ok (c :: rest)
    else do
      return c :: (← fill item rest)
termination_by text => text.length
decreasing_by
  · exact Nat.lt_succ_of_lt (length_lt_of_closing? _h)
  · exact Nat.lt_succ_self _

end Template

/-- A template filled with the values of an item. -/
def GridItem.interpolate (item : GridItem) (template : String) : Except BuildError String := do
  return String.ofList (← Template.fill item template.toList)

/-- The text that a slot shows for an item; a shape shows none. -/
def Slot.textFor (slot : Slot) (item : GridItem) : Except BuildError (Option String) :=
  match slot.content with
  | .label => .ok (some item.label)
  | .field name => return some (← item.lookup name)
  | .literal text => .ok (some text)
  | .template text => return some (← item.interpolate text)
  | .shape _ _ => .ok none

end Folio
