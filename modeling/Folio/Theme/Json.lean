import Folio.Json.Record
import Folio.Theme.Basic

/-!
# Themes as data

A colour is written as its text; a reference to a colour or a font as an object with one member that
says whether a role follows.
-/

namespace Folio

open Json

namespace Color

/-- Reads a colour. -/
def ofJson? (v : Value) : Option Color := v.text?.bind ofHex?

/-- Writes a colour. -/
def toJson (c : Color) : Value := .text c.toHex

end Color

namespace ColorRef

/-- Reads a reference to a colour. -/
def ofJson? (v : Value) : Option ColorRef :=
  match v.variant? with
  | some ("role", v) => v.text?.map .role
  | some ("literal", v) => (Color.ofJson? v).map .literal
  | _ => none

/-- Writes a reference to a colour. -/
def toJson : ColorRef → Value
  | .role name => .variant "role" (.text name)
  | .literal c => .variant "literal" c.toJson

end ColorRef

namespace FontRef

/-- Reads a reference to a font. -/
def ofJson? (v : Value) : Option FontRef :=
  match v.variant? with
  | some ("role", v) => v.text?.map .role
  | some ("face", v) => v.text?.map .face
  | _ => none

/-- Writes a reference to a font. -/
def toJson : FontRef → Value
  | .role name => .variant "role" (.text name)
  | .face name => .variant "face" (.text name)

end FontRef

/-- Reads the draft of a theme; each of its fields may be left out. -/
def ThemeDraft.ofJson? (v : Value) : Option ThemeDraft := do
  let [name, colors, fonts] ← v.slots? ["name", "colors", "fonts"] | none
  return {
    name := ← Value.orElse Value.text? "" name
    colors := ← Value.orElse (Value.dict? Color.ofJson?) .empty colors
    fonts := ← Value.orElse (Value.dict? Value.text?) .empty fonts }

namespace Theme

/-- The theme that a text describes. -/
def parse (text : String) : Except BuildError Theme :=
  match (Value.parse? text).bind ThemeDraft.ofJson? with
  | some draft => draft.toTheme
  | none => .error .malformedText

/-- Writes a theme. -/
def toJson (theme : Theme) : Value :=
  .record ["name", "colors", "fonts"]
    [some (.text theme.name), some (.ofDict Color.toJson theme.colors),
      some (.ofDict .text theme.fonts)]

end Theme

end Folio
