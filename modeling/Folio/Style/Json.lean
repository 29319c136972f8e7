import Folio.Style.Styling
import Folio.Theme.Json

/-!
# Styles as data

Every declared property is an optional field. A style definition holds its properties beside its own
fields, so it has to be an object, all of it has to be readable, and its properties are read
leniently.
-/

namespace Folio

open Json

namespace Alignment

/-- The names of the alignments. -/
def choices : List (String × Alignment) :=
  [("left", .left), ("center", .center), ("right", .right), ("justify", .justify)]

/-- Reads an alignment. -/
def ofJson? (mode : Strictness) (v : Value) : Option Alignment := v.choice? mode choices

/-- The name of an alignment. -/
def name : Alignment → String
  | .left => "left"
  | .center => "center"
  | .right => "right"
  | .justify => "justify"

/-- Writes an alignment. -/
def toJson (a : Alignment) : Value := .text a.name

end Alignment

namespace RunProperties

/-- The names of the properties. -/
def fields : List String := ["font", "size_pt", "bold", "italic", "underline", "color"]

/-- Reads declared properties of characters. -/
def ofJson? (v : Value) : Option RunProperties := do
  let [font, sizePt, bold, italic, underline, color] ← v.slots? fields | none
  return {
    font := ← Value.optional FontRef.ofJson? font
    sizePt := ← Value.optional Value.float32? sizePt
    bold := ← Value.optional Value.bool? bold
    italic := ← Value.optional Value.bool? italic
    underline := ← Value.optional Value.bool? underline
    color := ← Value.optional ColorRef.ofJson? color }

/-- Writes declared properties of characters. -/
def toJson (p : RunProperties) : Value :=
  .record fields
    [p.font.map FontRef.toJson, p.sizePt.map .ofFloat32, p.bold.map .bool, p.italic.map .bool,
      p.underline.map .bool, p.color.map ColorRef.toJson]

end RunProperties

namespace ParagraphProperties

/-- The names of the properties. -/
def fields : List String :=
  ["alignment", "spacing_before_pt", "spacing_after_pt", "outline_level"]

/-- Reads declared properties of paragraphs. -/
def ofJson? (mode : Strictness) (v : Value) : Option ParagraphProperties := do
  let [alignment, before, after, level] ← v.slots? fields | none
  return {
    alignment := ← Value.optional (Alignment.ofJson? mode) alignment
    spacingBeforePt := ← Value.optional Value.float32? before
    spacingAfterPt := ← Value.optional Value.float32? after
    outlineLevel := ← Value.optional Value.uint8? level }

/-- Writes declared properties of paragraphs. -/
def toJson (p : ParagraphProperties) : Value :=
  .record fields
    [p.alignment.map Alignment.toJson, p.spacingBeforePt.map .ofFloat32,
      p.spacingAfterPt.map .ofFloat32, p.outlineLevel.map fun level => .ofNat level.toNat]

end ParagraphProperties

namespace StyleProperties

/-- The names of the two kinds of properties. -/
def fields : List String := ["run", "paragraph"]

/-- The two kinds of properties as fields, each left out when it declares nothing. -/
def slots (p : StyleProperties) : List (Option Value) :=
  [Value.onlyIf (!p.run.isEmpty) p.run.toJson,
    Value.onlyIf (!p.paragraph.isEmpty) p.paragraph.toJson]

/-- Reads the two kinds of properties from their fields. -/
def ofSlots? (mode : Strictness) (run paragraph : Option Value) : Option StyleProperties := do
  return {
    run := ← Value.orElse RunProperties.ofJson? {} run
    paragraph := ← Value.orElse (ParagraphProperties.ofJson? mode) {} paragraph }

/-- Reads declared properties. -/
def ofJson? (mode : Strictness) (v : Value) : Option StyleProperties := do
  let [run, paragraph] ← v.slots? fields | none
  ofSlots? mode run paragraph

/-- Writes declared properties. -/
def toJson (p : StyleProperties) : Value := .record fields p.slots

/-- Declared properties as a field that is left out when they declare nothing. -/
def slot (p : StyleProperties) : Option Value := Value.onlyIf (!p.isEmpty) p.toJson

end StyleProperties

namespace StyleDefinition

/-- The names of the fields, those of the properties among them. -/
def fields : List String := ["id", "name", "based_on", "next", "run", "paragraph"]

/-- Reads a style definition. -/
def ofJson? (v : Value) : Option StyleDefinition :=
  match v with
  | .object _ => do
    if !v.isReadable then none
    let [id, name, basedOn, next, run, paragraph] ← v.slots? fields | none
    return {
      id := ← Value.required Value.text? id
      name := ← Value.optional Value.text? name
      basedOn := ← Value.optional Value.text? basedOn
      next := ← Value.optional Value.text? next
      properties := ← StyleProperties.ofSlots? .lenient run paragraph }
  | _ => none

/-- Writes a style definition. -/
def toJson (d : StyleDefinition) : Value :=
  .record fields
    ([some (.text d.id), d.name.map .text, d.basedOn.map .text, d.next.map .text] ++
      d.properties.slots)

end StyleDefinition

namespace RunStyle

/-- The names of the properties. -/
def fields : List String := RunProperties.fields

/-- Reads effective properties of characters from their fields. -/
def ofSlots? : List (Option Value) → Option RunStyle
  | [font, sizePt, bold, italic, underline, color] => do
    return {
      font := ← Value.required Value.text? font
      sizePt := ← Value.required Value.float32? sizePt
      bold := ← Value.required Value.bool? bold
      italic := ← Value.required Value.bool? italic
      underline := ← Value.required Value.bool? underline
      color := ← Value.required Color.ofJson? color }
  | _ => none

/-- Reads effective properties of characters. -/
def ofJson? (v : Value) : Option RunStyle := (v.slots? fields).bind ofSlots?

/-- Effective properties of characters as fields. -/
def slots (s : RunStyle) : List (Option Value) :=
  [some (.text s.font), some (.ofFloat32 s.sizePt), some (.bool s.bold), some (.bool s.italic),
    some (.bool s.underline), some s.color.toJson]

/-- Writes effective properties of characters. -/
def toJson (s : RunStyle) : Value := .record fields s.slots

end RunStyle

namespace ParagraphStyle

/-- The names of the properties. -/
def fields : List String := ParagraphProperties.fields

/-- Reads effective properties of paragraphs. -/
def ofJson? (mode : Strictness) (v : Value) : Option ParagraphStyle := do
  let [alignment, before, after, level] ← v.slots? fields | none
  return {
    alignment := ← Value.required (Alignment.ofJson? mode) alignment
    spacingBeforePt := ← Value.required Value.float32? before
    spacingAfterPt := ← Value.required Value.float32? after
    outlineLevel := ← Value.optional Value.uint8? level }

/-- Writes effective properties of paragraphs. -/
def toJson (s : ParagraphStyle) : Value :=
  .record fields
    [some s.alignment.toJson, some (.ofFloat32 s.spacingBeforePt),
      some (.ofFloat32 s.spacingAfterPt), s.outlineLevel.map fun level => .ofNat level.toNat]

end ParagraphStyle

namespace EffectiveStyle

/-- The names of the two kinds of properties. -/
def fields : List String := StyleProperties.fields

/-- Reads effective properties. -/
def ofJson? (mode : Strictness) (v : Value) : Option EffectiveStyle := do
  let [run, paragraph] ← v.slots? fields | none
  return {
    run := ← Value.required RunStyle.ofJson? run
    paragraph := ← Value.required (ParagraphStyle.ofJson? mode) paragraph }

/-- Writes effective properties. -/
def toJson (s : EffectiveStyle) : Value :=
  .record fields [some s.run.toJson, some s.paragraph.toJson]

end EffectiveStyle

/-- The stylesheet that a text describes by its defaults and its styles, either of which may be left
out. -/
def Stylesheet.parse (text : String) : Except BuildError Stylesheet :=
  let parts : Option (StyleProperties × List StyleDefinition) := do
    let v ← Value.parse? text
    let [defaults, styles] ← v.slots? ["defaults", "styles"] | none
    return (← Value.orElse (StyleProperties.ofJson? .strict) {} defaults,
      ← Value.orElse (Value.list? StyleDefinition.ofJson?) [] styles)
  match parts with
  | some (defaults, styles) => (withDefaults defaults).registerAll styles
  | none => .error .malformedText

end Folio
