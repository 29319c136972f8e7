import Folio.Style.Stylesheet

/-!
# Styling

A stylesheet bound to a theme resolves properties in layers, from below: base values, the defaults
of the stylesheet, the chain of a named style, and local overrides. Binding resolves every style
once, so that a parent that is not registered or a role that the theme lacks is found before
anything is built.
-/

namespace Folio

/-- The font role of text for which no font is declared. -/
def baseFontRole : String := "body"

/-- The colour role of text for which no colour is declared. -/
def baseColorRole : String := "text"

/-- The size of text for which no size is declared. -/
def baseSizePt : Float32 := 12

/-- A stylesheet and the theme that it is resolved against. -/
structure Styling where
  /-- The theme that roles are looked up in. -/
  theme : Theme
  /-- The styles and the defaults. -/
  sheet : Stylesheet

namespace Styling

/-- What is declared for an element: its overrides above its style, if it has one. -/
def declared (styling : Styling) (style : Option String) (overrides : StyleProperties) :
    Except BuildError StyleProperties :=
  match style with
  | none => .ok overrides
  | some id => return overrides.above (← styling.sheet.declared id)

/-- The properties in effect: what is declared above the defaults of the stylesheet, and base values
where neither decides. -/
def settle (styling : Styling) (declared : StyleProperties) : Except BuildError EffectiveStyle := do
  let p := declared.above styling.sheet.defaults
  let font ← (p.run.font.getD (.role baseFontRole)).resolve styling.theme
  let color ← (p.run.color.getD (.role baseColorRole)).resolve styling.theme
  return {
    run := {
      font
      sizePt := p.run.sizePt.getD baseSizePt
      bold := p.run.bold.getD false
      italic := p.run.italic.getD false
      underline := p.run.underline.getD false
      color }
    paragraph := {
      alignment := p.paragraph.alignment.getD .left
      spacingBeforePt := p.paragraph.spacingBeforePt.getD 0
      spacingAfterPt := p.paragraph.spacingAfterPt.getD 0
      outlineLevel := p.paragraph.outlineLevel } }

/-- The properties in effect for a style with overrides. -/
def resolve (styling : Styling) (id : String) (overrides : StyleProperties) :
    Except BuildError EffectiveStyle := do
  styling.settle (← styling.declared (some id) overrides)

/-- The properties in effect for a run whose surroundings declare `around`. -/
def resolveRun (styling : Styling) (around : StyleProperties) (style : Option String)
    (overrides : StyleProperties) : Except BuildError EffectiveStyle := do
  let own ← styling.declared style overrides
  styling.settle (own.above around)

/-- The styles in ascending order of their ids. -/
def definitions (styling : Styling) : List StyleDefinition := styling.sheet.styles.values

end Styling

/-- Checks that something succeeds for every element of a list; the first failure counts. -/
def checkAll {α β : Type} (check : α → Except BuildError β) : List α → Except BuildError Unit
  | [] => .ok ()
  | a :: rest => do
    let _ ← check a
    checkAll check rest

/-- Binds a stylesheet to a theme. First every chain has to end at a style without a parent, then
the defaults and last every style have to resolve; styles are taken in the order of their ids. -/
def Stylesheet.bind (sheet : Stylesheet) (theme : Theme) : Except BuildError Styling := do
  let styling : Styling := ⟨theme, sheet⟩
  checkAll sheet.chain sheet.styles.names
  let _ ← styling.settle {}
  checkAll (fun id => styling.resolve id {}) sheet.styles.names
  return styling

end Folio
