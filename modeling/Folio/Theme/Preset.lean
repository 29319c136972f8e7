import Folio.Theme.Basic

/-!
# Built-in themes

Two themes with the same roles: a teal palette for the screen and a grey one for print.
-/

namespace Folio.Theme

/-- The theme of a table of colour digits and a table of font faces. -/
def ofTables (name : String) (colors : List (String × String)) (fonts : List (String × String)) :
    Theme where
  name := name
  colors := Dict.ofList (colors.filterMap fun (role, digits) =>
    (Color.ofHex? digits).map fun c => (role, c))
  fonts := Dict.ofList fonts

/-- The teal palette. -/
def cloudscript : Theme :=
  ofTables "cloudscript"
    [("primary", "028090"), ("secondary", "00A896"), ("accent", "02C39A"), ("dark", "065A82"),
      ("white", "FFFFFF"), ("background", "F5F9FC"), ("text", "2C3E50"), ("muted", "7F8C8D"),
      ("success", "27AE60"), ("code_background", "1E1E1E"), ("code_text", "00FF00"),
      ("ink", "000000")]
    [("heading", "Arial Black"), ("body", "Arial"), ("mono", "Courier New"),
      ("serif", "Times New Roman")]

/-- The grey palette. -/
def print : Theme :=
  ofTables "print"
    [("primary", "333333"), ("secondary", "555555"), ("accent", "777777"), ("dark", "111111"),
      ("white", "FFFFFF"), ("background", "F2F2F2"), ("text", "000000"), ("muted", "666666"),
      ("success", "222222"), ("code_background", "FFFFFF"), ("code_text", "000000"),
      ("ink", "000000")]
    [("heading", "Times New Roman"), ("body", "Times New Roman"), ("mono", "Courier New"),
      ("serif", "Times New Roman")]

/-- The built-in theme of a name. -/
def preset? (name : String) : Option Theme :=
  if name = "cloudscript" ∨ name = "teal" then some cloudscript
  else if name = "print" then some print
  else none

end Folio.Theme
