import Folio.Deck.Basic

/-!
# The sample deck

Ten slides that present a project, with cards in grids of several kinds.
-/

namespace Folio.Sample

/-- The heading of a slide. -/
def slideHeader (text : String) : TextFrame :=
  .ofText ⟨0.5, 0.5, 9, 0.7⟩ "DeckHeader" text

/-- Text of a size, in the middle of its lines. -/
def centeredText (size : Float32) : StyleProperties :=
  (StyleProperties.size {} size).align .center

/-- Bold text of a size. -/
def boldText (size : Float32) : StyleProperties := (StyleProperties.size {} size).bold true

/-- Text in the middle of its lines. -/
def centered : StyleProperties := StyleProperties.align {} .center

/-- The first slide. -/
def titleSlide : Slide where
  background := some (.role "dark")
  elements :=
    [.text (.ofText ⟨0.5, 2, 9, 1.5⟩ "DeckTitle" "CloudScript"),
      .text (.ofText ⟨0.5, 3.5, 9, 0.6⟩ "DeckSubtitle"
        "Domain-Specific Language for Cloud Microservices"),
      .text {
        frame := ⟨0.5, 5, 9, 0.8⟩
        styleId := some "DeckBody"
        overrides := centered
        runs :=
          [(Run.size { text := "Theory of Programming Languages\n" } 14).colorRole "white",
            (Run.size { text := "Course Project 2025" } 14).colorRole "secondary"] }]

/-- Four problems, one in each row. -/
def problemSlide : Slide :=
  let item (index : Nat) (icon label desc : String) : GridItem :=
    (GridItem.field { index, label } "icon" icon).field "desc" desc
  let card : CardTemplate := {
    slots :=
      [(((Slot.shape .oval (some (.role "primary")) 0.5).placed 0 0).ofWidth 0.5),
        ((((Slot.field "icon" 0.5).placed 0 0).ofWidth 0.5).override (centeredText 20)).aligned
          .middle,
        ((((Slot.label 0.3).placed 0.7 0).ofWidth 7.6).style "DeckBody").override (boldText 16),
        ((((Slot.field "desc" 0.3).placed 0.7 0.35).ofWidth 7.6).style "DeckCaption").override
          (StyleProperties.size {} 12)] }
  { elements :=
      [.text (slideHeader "The Problem"),
        .grid {
          items :=
            [item 0 "❌" "Complex Configuration" "Docker, K8s, OpenAPI - too many files to manage",
              item 1 "⚠️" "Repetitive Boilerplate" "Same patterns repeated across services",
              item 2 "🔧" "Maintenance Burden" "Updates require changes in multiple places",
              item 3 "📚" "Steep Learning Curve"
                "Developers need expertise in many technologies"]
          spec := (GridSpec.ofCells 1 8.3 1.2).origin 0.7 1.5
          card }] }

/-- The lines of code that the third slide shows. -/
def solutionCode : String :=
  "\n".intercalate
    ["service UserService \x7b",
      "    endpoint /users \x7b",
      "        method: GET",
      "        response: User[]",
      "        cache: 5m",
      "    \x7d",
      "",
      "    deploy on: kubernetes",
      "    port: 8080",
      "\x7d"]

/-- Text about the language above a piece of code. -/
def solutionSlide : Slide where
  elements :=
    [.text (slideHeader "Our Solution: CloudScript"),
      .text {
        frame := ⟨0.5, 1.4, 9, 2⟩
        styleId := some "DeckBody"
        overrides := ((StyleProperties.size {} 16).colorRole "text").align .center
        runs :=
          [(Run.bold { text := "One Language. " }).colorRole "primary",
            { text := "Multiple Outputs.\n\n" },
            { text :=
                "CloudScript is a DSL that lets you define microservices in a simple, " ++
                "declarative syntax. " },
            { text :=
                "Our compiler automatically generates all deployment configurations, " ++
                "API docs, and containerization files." }]
        valign := .middle },
      .shape {
        frame := ⟨1.5, 3.6, 7, 2⟩
        kind := .rectangle
        fill := some (.role "code_background")
        line := some ⟨.role "primary", 2⟩ },
      .text ((TextFrame.ofText ⟨1.7, 3.8, 6.6, 1.6⟩ "DeckCode" solutionCode).aligned .middle)]

/-- Three cards joined by arrows. -/
def architectureSlide : Slide :=
  let item (index : Nat) (label icon desc : String) : GridItem :=
    (GridItem.field { index, label } "icon" icon).field "desc" desc
  let card : CardTemplate := {
    shape := some .roundedRectangle
    fill := some (.role "background")
    line := some ⟨.role "primary", 2⟩
    slots :=
      [((Slot.field "icon" 0.6).flowing 0.3).override (centeredText 40),
        ((Slot.label 0.5).flowing 0.3).style "CardTitle",
        ((Slot.field "desc" 0.6).style "DeckCaption").override (centeredText 11)]
    connector := some {
      kind := .rightArrow
      frame := ⟨2.5, 1, 0.5, 0.4⟩
      fill := some (.role "accent") } }
  { elements :=
      [.text (slideHeader "Compiler Architecture"),
        .grid {
          items :=
            [item 0 "Lexical Analysis" "📝" "Tokenization",
              item 1 "Syntax Analysis" "🌳" "Parse & Build AST",
              item 2 "Code Generation" "⚙️" "Docker, K8s, OpenAPI"]
          spec := ((GridSpec.ofCells 3 2.4 2.5).origin 1 2).gaps 0.4 0
          card }] }

/-- Six features in two columns. -/
def featuresSlide : Slide :=
  let card : CardTemplate := {
    shape := some .roundedRectangle
    fill := some (.role "primary")
    slots := [(((Slot.label 0.9).style "CardText").override (boldText 16)).aligned .middle] }
  { elements :=
      [.text (slideHeader "Key Features"),
        .grid {
          items := GridItem.ofLabels
            ["🔤 Simple Syntax", "🚀 Multi-Platform", "📚 Auto-Documentation", "✅ Type-Safe",
              "🔌 Protocol Support", "💾 Database Integration"]
          spec := ((GridSpec.ofCells 2 3.6 0.9).origin 1 1.7).gaps 0.6 0.5
          card }] }

/-- Three kinds of output, one in each row. -/
def outputsSlide : Slide :=
  let item (index : Nat) (label : String) (files : List String) : GridItem :=
    GridItem.field { index, label } "items" ("• " ++ "  • ".intercalate files)
  let card : CardTemplate := {
    slots :=
      [((((Slot.label 0.4).placed 0 0).ofWidth 2).style "DeckBody").override
          ((boldText 16).colorRole "primary"),
        ((((Slot.field "items" 0.4).placed 2.3 0).ofWidth 6.5).style "DeckBody").override
          (StyleProperties.size {} 13)] }
  { elements :=
      [.text (slideHeader "What CloudScript Generates"),
        .grid {
          items :=
            [item 0 "Docker" ["Dockerfile", "docker-compose.yml", "requirements.txt", "app.py"],
              item 1 "Kubernetes" ["Deployments", "Services", "Ingress", "HPA", "ConfigMaps"],
              item 2 "Documentation"
                ["OpenAPI 3.0 spec", "Swagger UI", "Request/Response schemas"]]
          spec := ((GridSpec.ofCells 1 8.8 0.4).origin 0.7 1.5).gaps 0 1.1
          card }] }

/-- Six services and their ports. -/
def serviceItems : List GridItem :=
  let item (index : Nat) (label port : String) : GridItem :=
    GridItem.field { index, label } "port" port
  [item 0 "UserService" "8001", item 1 "ProductService" "8002", item 2 "OrderService" "8003",
    item 3 "PaymentService" "8004", item 4 "InventoryService" "8005",
    item 5 "NotificationService" "8006"]

/-- The grid in which the services are shown. -/
def servicesGrid : GridSpec Float32 := ((GridSpec.ofCells 3 2.4 1).origin 1 1.7).gaps 0.4 0.6

/-- The services in three columns. -/
def servicesSlide : Slide :=
  let card : CardTemplate := {
    shape := some .roundedRectangle
    fill := some (.role "secondary")
    line := some ⟨.role "primary", 1⟩
    padding := ⟨0.2, 0, 0, 0⟩
    slots :=
      [((Slot.label 0.4).style "CardText").override (boldText 13),
        ((Slot.template "Port: \x7bport\x7d" 0.3).style "CardText").override
          (StyleProperties.size {} 10)] }
  { elements :=
      [.text (slideHeader "Example: E-commerce Platform"),
        .grid { items := serviceItems, spec := servicesGrid, card },
        .text ((TextFrame.ofText ⟨0.5, 5.2, 9, 0.4⟩ "DeckBody"
            "6 Services • 30+ Endpoints • Full Deployment Config").override
          (((StyleProperties.italic {} true).colorRole "primary").align .center))] }

/-- Four groups of tests, one in each row. -/
def testingSlide : Slide :=
  let item (index : Nat) (label count : String) : GridItem :=
    (GridItem.field { index, label } "count" count).field "status" "✓"
  let card : CardTemplate := {
    shape := some .roundedRectangle
    fill := some (.role "background")
    line := some ⟨.role "secondary", 1⟩
    slots :=
      [(((((Slot.field "status" 0.5).placed 0.2 0.1).ofWidth 0.5).style "DeckBody").override
          (((centeredText 24).bold true).colorRole "success")).aligned .middle,
        ((((Slot.label 0.4).placed 1 0.15).ofWidth 3).style "DeckBody").override (boldText 15),
        ((((Slot.field "count" 0.4).placed 4.3 0.15).ofWidth 2).style "DeckCaption").override
          ((StyleProperties.size {} 13).align .right)] }
  { elements :=
      [.text (slideHeader "Testing & Quality Assurance"),
        .grid {
          items :=
            [item 0 "Lexer Tests" "8 tests", item 1 "Parser Tests" "10 tests",
              item 2 "Generator Tests" "6 tests", item 3 "End-to-End Tests" "4 tests"]
          spec := ((GridSpec.ofCells 1 7 0.7).origin 1.5 1.8).gaps 0 0.3
          card }] }

/-- Three numbers, each on a colour of its own. -/
def resultsSlide : Slide :=
  let item (index : Nat) (label value color : String) : GridItem :=
    (GridItem.field { index, label } "value" value).field "color" color
  let card : CardTemplate := {
    shape := some .rectangle
    fillField := some "color"
    padding := ⟨0.5, 0, 0, 0⟩
    slots :=
      [((Slot.field "value" 0.8).style "CardText").override (boldText 48),
        (Slot.label 0.4).style "CardText"] }
  { elements :=
      [.text (slideHeader "Project Results"),
        .grid {
          items :=
            [item 0 "Lines of Code" "2000+" "primary", item 1 "Test Cases" "28" "secondary",
              item 2 "Code Generators" "3" "accent"]
          spec := ((GridSpec.ofCells 3 2.4 2).origin 1 2.2).gaps 0.4 0
          card }] }

/-- The last slide. -/
def conclusionSlide : Slide :=
  let line (text : String) : Run := (Run.size { text } 18).colorRole "white"
  { background := some (.role "dark")
    elements :=
      [.text ((TextFrame.ofText ⟨0.5, 1.5, 9, 0.8⟩ "DeckTitle" "Conclusion").override
          ((StyleProperties.size {} 36).fontRole "body")),
        .text {
          frame := ⟨0.5, 2.8, 9, 1.5⟩
          styleId := some "DeckBody"
          overrides := centered
          runs :=
            [line "CloudScript simplifies microservice development\n",
              line "by providing a declarative DSL that generates\n",
              line "production-ready deployment configurations."] },
        .shape {
          frame := ⟨2.5, 4.5, 5, 0.8⟩
          kind := .roundedRectangle
          fill := some (.role "primary") },
        .text (((TextFrame.ofText ⟨2.5, 4.5, 5, 0.8⟩ "CardText" "Thank You!").override
          (boldText 24)).aligned .middle)] }

/-- The deck. -/
def deck : Deck where
  title := "CloudScript"
  slides :=
    [titleSlide, problemSlide, solutionSlide, architectureSlide, featuresSlide, outputsSlide,
      servicesSlide, testingSlide, resultsSlide, conclusionSlide]

end Folio.Sample
