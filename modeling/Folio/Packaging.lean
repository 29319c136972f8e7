import Folio.Deck.Json
import Folio.Document.Json

/-!
# Packaging

Where styled documents and placed decks leave: as the text of their data, with or without blanks.
-/

namespace Folio

open Json

/-- How texts are spaced unless someone asks for another way. -/
def defaultSpacing : Spacing := .pretty

/-- The text of a styled document. -/
def StyledDocument.package (spacing : Spacing) (doc : StyledDocument) : String :=
  doc.toJson.print spacing

/-- The text of a placed deck. -/
def PlacedDeck.package (spacing : Spacing) (deck : PlacedDeck) : String :=
  deck.toJson.print spacing

end Folio
