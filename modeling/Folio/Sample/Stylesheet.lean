import Folio.Style.Json

/-!
# The sample stylesheet

One stylesheet for the sample report and the sample deck, as a text.
-/

namespace Folio.Sample

/-- The lines of the stylesheet. -/
def stylesheetLines : List String :=
  ["\x7b",
    "  \"defaults\": \x7b",
    "    \"run\": \x7b \"font\": \x7b \"role\": \"serif\" \x7d, \"size_pt\": 12 \x7d",
    "  \x7d,",
    "  \"styles\": [",
    "    \x7b \"id\": \"Normal\", \"name\": \"Normal\" \x7d,",
    "    \x7b",
    "      \"id\": \"Heading1\", \"name\": \"Heading 1\", \"based_on\": \"Normal\", " ++
      "\"next\": \"Normal\",",
    "      \"run\": \x7b \"size_pt\": 16, \"bold\": true \x7d,",
    "      \"paragraph\": \x7b \"alignment\": \"center\", \"spacing_before_pt\": 24, " ++
      "\"spacing_after_pt\": 12, \"outline_level\": 0 \x7d",
    "    \x7d,",
    "    \x7b",
    "      \"id\": \"Heading2\", \"name\": \"Heading 2\", \"based_on\": \"Normal\", " ++
      "\"next\": \"Normal\",",
    "      \"run\": \x7b \"size_pt\": 14, \"bold\": true \x7d,",
    "      \"paragraph\": \x7b \"spacing_before_pt\": 18, \"spacing_after_pt\": 9, " ++
      "\"outline_level\": 1 \x7d",
    "    \x7d,",
    "    \x7b",
    "      \"id\": \"Heading3\", \"name\": \"Heading 3\", \"based_on\": \"Normal\", " ++
      "\"next\": \"Normal\",",
    "      \"run\": \x7b \"size_pt\": 13, \"bold\": true \x7d,",
    "      \"paragraph\": \x7b \"spacing_before_pt\": 12, \"spacing_after_pt\": 6, " ++
      "\"outline_level\": 2 \x7d",
    "    \x7d,",
    "    \x7b \"id\": \"TOCHeading\", \"name\": \"TOC Heading\", \"based_on\": \"Heading1\" \x7d,",
    "    \x7b \"id\": \"TOC1\", \"name\": \"toc 1\", \"based_on\": \"Normal\", " ++
      "\"run\": \x7b \"bold\": true \x7d, " ++
      "\"paragraph\": \x7b \"spacing_before_pt\": 6 \x7d \x7d,",
    "    \x7b \"id\": \"TOC2\", \"name\": \"toc 2\", \"based_on\": \"Normal\" \x7d,",
    "    \x7b \"id\": \"TOC3\", \"name\": \"toc 3\", \"based_on\": \"Normal\", " ++
      "\"run\": \x7b \"italic\": true \x7d \x7d,",
    "    \x7b \"id\": \"BodyText\", \"name\": \"Body Text\", \"based_on\": \"Normal\", " ++
      "\"paragraph\": \x7b \"alignment\": \"justify\", \"spacing_before_pt\": 6, " ++
      "\"spacing_after_pt\": 6 \x7d \x7d,",
    "    \x7b \"id\": \"Code\", \"name\": \"Code\", \"based_on\": \"Normal\", " ++
      "\"run\": \x7b \"font\": \x7b \"role\": \"mono\" \x7d, \"size_pt\": 10 \x7d \x7d,",
    "    \x7b \"id\": \"TableGrid\", \"name\": \"Table Grid\", \"based_on\": \"Normal\", " ++
      "\"run\": \x7b \"size_pt\": 11 \x7d \x7d,",
    "",
    "    \x7b \"id\": \"DeckBody\", \"name\": \"Deck Body\", " ++
      "\"run\": \x7b \"font\": \x7b \"role\": \"body\" \x7d, \"size_pt\": 14, " ++
      "\"color\": \x7b \"role\": \"text\" \x7d \x7d \x7d,",
    "    \x7b",
    "      \"id\": \"DeckTitle\", \"name\": \"Deck Title\", \"based_on\": \"DeckBody\",",
    "      \"run\": \x7b \"font\": \x7b \"role\": \"heading\" \x7d, \"size_pt\": 54, " ++
      "\"bold\": true, \"color\": \x7b \"role\": \"white\" \x7d \x7d,",
    "      \"paragraph\": \x7b \"alignment\": \"center\" \x7d",
    "    \x7d,",
    "    \x7b",
    "      \"id\": \"DeckSubtitle\", \"name\": \"Deck Subtitle\", \"based_on\": \"DeckBody\",",
    "      \"run\": \x7b \"size_pt\": 20, \"color\": \x7b \"role\": \"secondary\" \x7d \x7d,",
    "      \"paragraph\": \x7b \"alignment\": \"center\" \x7d",
    "    \x7d,",
    "    \x7b",
    "      \"id\": \"DeckHeader\", \"name\": \"Deck Header\", \"based_on\": \"DeckBody\",",
    "      \"run\": \x7b \"font\": \x7b \"role\": \"heading\" \x7d, \"size_pt\": 28, " ++
      "\"bold\": true, \"color\": \x7b \"role\": \"dark\" \x7d \x7d",
    "    \x7d,",
    "    \x7b \"id\": \"DeckCaption\", \"name\": \"Deck Caption\", \"based_on\": \"DeckBody\", " ++
      "\"run\": \x7b \"size_pt\": 10, \"color\": \x7b \"role\": \"muted\" \x7d \x7d \x7d,",
    "    \x7b \"id\": \"DeckCode\", \"name\": \"Deck Code\", \"based_on\": \"DeckBody\", " ++
      "\"run\": \x7b \"font\": \x7b \"role\": \"mono\" \x7d, \"size_pt\": 11, " ++
      "\"color\": \x7b \"role\": \"code_text\" \x7d \x7d \x7d,",
    "    \x7b \"id\": \"CardTitle\", \"name\": \"Card Title\", \"based_on\": \"DeckBody\", " ++
      "\"run\": \x7b \"bold\": true \x7d, " ++
      "\"paragraph\": \x7b \"alignment\": \"center\" \x7d \x7d,",
    "    \x7b \"id\": \"CardText\", \"name\": \"Card Text\", \"based_on\": \"DeckBody\", " ++
      "\"run\": \x7b \"color\": \x7b \"role\": \"white\" \x7d \x7d, " ++
      "\"paragraph\": \x7b \"alignment\": \"center\" \x7d \x7d",
    "  ]",
    "\x7d"]

/-- The text of the stylesheet. -/
def stylesheetText : String := "\n".intercalate stylesheetLines

/-- The stylesheet. -/
def stylesheet : Except BuildError Stylesheet := Stylesheet.parse stylesheetText

end Folio.Sample
