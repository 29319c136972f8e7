import Folio.BuildError
import Folio.Dict
import Folio.Text.Blank
import Folio.Theme.Color

/-!
# Themes

A theme binds the names of roles to colours and to font faces. It is drafted role by role; a draft
becomes a theme if it has no blank role, no role of both kinds and no font without a name. Styles
refer to roles, and a reference to a role that the theme lacks is an error.
-/

namespace Folio

/-- Colours and font faces by role. -/
structure Theme where
  /-- The name of the theme. -/
  name : String
  /-- The colour of each colour role. -/
  colors : Dict Color
  /-- The face of each font role. -/
  fonts : Dict String

/-- What a role is bound to. -/
inductive ThemeValue where
  | color (c : Color)
  | font (face : String)
  deriving DecidableEq

namespace Theme

/-- The colour of a role. -/
def color (theme : Theme) (role : String) : Except BuildError Color :=
  match theme.colors.get? role with
  | some c => .ok c
  | none => .error (.unknownRole role)

/-- The font face of a role. -/
def font (theme : Theme) (role : String) : Except BuildError String :=
  match theme.fonts.get? role with
  | some face => .ok face
  | none => .error (.unknownRole role)

/-- What a role is bound to, a colour before a font. -/
def lookup (theme : Theme) (role : String) : Except BuildError ThemeValue :=
  match theme.colors.get? role, theme.fonts.get? role with
  | some c, _ => .ok (.color c)
  | none, some face => .ok (.font face)
  | none, none => .error (.unknownRole role)

/-- The names of all roles: those of colours first, each kind in ascending order. -/
def roles (theme : Theme) : List String := theme.colors.names ++ theme.fonts.names

end Theme

/-- A theme under construction. -/
structure ThemeDraft where
  /-- The name of the theme. -/
  name : String
  /-- The colours bound so far. -/
  colors : Dict Color
  /-- The font faces bound so far. -/
  fonts : Dict String

namespace ThemeDraft

/-- A draft without roles. -/
def new (name : String) : ThemeDraft := ⟨name, .empty, .empty⟩

/-- Binds a role to a colour, in place of the colour it had. -/
def color (draft : ThemeDraft) (role : String) (c : Color) : ThemeDraft :=
  { draft with colors := draft.colors.insert role c }

/-- Binds a role to a font face, in place of the face it had. -/
def font (draft : ThemeDraft) (role face : String) : ThemeDraft :=
  { draft with fonts := draft.fonts.insert role face }

/-- The first fault of a draft: a blank role before a role of both kinds before a font without a
name, and of each kind the one with the least role. -/
def fault? (draft : ThemeDraft) : Option ThemeFault :=
  if (draft.colors.names ++ draft.fonts.names).any Text.isBlank then some .blankRole
  else
    match draft.colors.names.find? draft.fonts.contains with
    | some role => some (.ambiguousRole role)
    | none => (draft.fonts.entries.find? (Text.isBlank ·.2)).map fun e => .blankFace e.1

/-- The theme of a draft without faults. -/
def toTheme (draft : ThemeDraft) : Except BuildError Theme :=
  match draft.fault? with
  | some fault => .error (.badTheme fault)
  | none => .ok ⟨draft.name, draft.colors, draft.fonts⟩

end ThemeDraft

/-- A colour, given by its role or by itself. -/
inductive ColorRef where
  | role (name : String)
  | literal (c : Color)
  deriving DecidableEq

/-- The colour that is meant. -/
def ColorRef.resolve (theme : Theme) : ColorRef → Except BuildError Color
  | .role name => theme.color name
  | .literal c => .ok c

/-- A font face, given by its role or by its name. -/
inductive FontRef where
  | role (name : String)
  | face (name : String)
  deriving DecidableEq

/-- The face that is meant. -/
def FontRef.resolve (theme : Theme) : FontRef → Except BuildError String
  | .role name => theme.font name
  | .face name => .ok name

end Folio
