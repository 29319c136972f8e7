import Folio.Deck.Json
import Folio.Deck.Placement
import Folio.Document.Draft
import Folio.Document.Json
import Folio.Main
import Folio.Packaging
import Folio.Proofs.Document.Layers
import Folio.Style.Json
import Folio.Theme.Json
import Folio.Theme.Preset
import Folio.Proofs.Document.References
import Folio.Proofs.Checks
import Folio.Proofs.Deck.Demands
import Folio.Proofs.Alike
import Folio.Proofs.Theme.Themeless
import Folio.Proofs.Theme.Independence
import Folio.Proofs.Json.Numerals
import Folio.Proofs.Json.Scanning
import Folio.Proofs.Json.RoundTrip
import Folio.Proofs.Theme.Hex
import Folio.Proofs.Theme.Spelling
import Folio.Proofs.Json.Records
import Folio.Proofs.Deck.RoundTrip
import Folio.Proofs.Json.Depth
import Folio.Proofs.Document.RoundTrip
import Folio.Proofs.Document.StyledRoundTrip
import Folio.Proofs.Deck.SourceRoundTrip
import Folio.Proofs.RoundTrip
import Folio.Proofs.Deck.Mirror
import Folio.Proofs.Style.Locality
import Folio.Proofs.Deck.Agreement
import Folio.Proofs.Style.Order
import Folio.Proofs.Deck.Finiteness
import Folio.Proofs.Document.Contents
import Folio.Proofs.Document.Writing
import Folio.Proofs.Deck.Reading
import Folio.Proofs.Deck.Neighbours
import Folio.Proofs.Deck.Edits
import Folio.Proofs.Grid.Tiling
import Folio.Proofs.Theme.Drafts
import Folio.Proofs.Deck.Naming
import Folio.Proofs.Grid.Filling
import Folio.Proofs.Validation
