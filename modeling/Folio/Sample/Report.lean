import Folio.Document.Draft

/-!
# The sample report

A short report with a title page, a table of contents, four chapters and a table.
-/

namespace Folio.Sample

/-- A line of the title page, with the space above and below it. -/
def titleLine (text : String) (size : Float32) (bold : Bool) (before after : Float32) : DraftStep :=
  let run := Run.size { text } size
  .paragraph <|
    ((Paragraph.style {} "Normal").align .center |>.spacing before after).run
      (if bold then run.bold else run)

/-- A line of the title page at the right edge. -/
def signatureLine (text : String) (before : Float32) : DraftStep :=
  .paragraph <| ((Paragraph.ofText text).style "Normal").align .right |>.spacing before 0

/-- A paragraph of the body whose first words are bold. -/
def leadParagraph (lead rest : String) : DraftStep :=
  .paragraph <| ((Paragraph.style {} "BodyText").run (Run.bold { text := lead })).text rest

/-- A paragraph of the body. -/
def bodyParagraph (text : String) : DraftStep :=
  .paragraph ((Paragraph.ofText text).style "BodyText")

/-- A paragraph of code. -/
def codeParagraph (text : String) : DraftStep := .paragraph ((Paragraph.ofText text).style "Code")

/-- A cell of the first row of the table of test results. -/
def headerCell (text : String) : Cell Block ColorRef where
  blocks := [.paragraph (Paragraph.run {} (Run.bold { text }))]
  shading := some (.role "background")

/-- A row of the table of test results. -/
def resultRow (name count : String) : Row Block ColorRef where
  cells := [.ofText name, .ofText count, .ofText "✓"]

/-- The table of test results. -/
def resultTable : Table Block ColorRef where
  styleId := some "TableGrid"
  rows :=
    [{ cells := [headerCell "Компонент", headerCell "Тестов", headerCell "Статус"]
       header := true },
      resultRow "Лексический анализатор" "8",
      resultRow "Синтаксический анализатор" "10",
      resultRow "Генераторы кода" "6",
      resultRow "Сквозные тесты" "4"]

/-- The title page. -/
def titlePage : List DraftStep :=
  [titleLine "УНИВЕРСИТЕТ" 14 true 72 0,
    titleLine "Факультет компьютерных наук" 12 false 6 0,
    titleLine "Кафедра теоретической информатики" 12 false 3 0,
    titleLine "КУРСОВАЯ РАБОТА" 16 true 72 72,
    titleLine "по дисциплине" 12 false 0 12,
    titleLine "«Теория построения языков программирования»" 13 true 0 24,
    titleLine "на тему:" 12 false 0 6,
    titleLine
      "«Разработка языка программирования для облачных сервисов и микросервисной архитектуры»"
      14 true 0 48,
    signatureLine "Выполнил: студент группы ___________" 48,
    signatureLine "Научный руководитель:" 12,
    titleLine "2025" 14 true 72 0,
    .pageBreak]

/-- The table of contents and the introduction. -/
def frontMatter : List DraftStep :=
  [.toc { title := some "СОДЕРЖАНИЕ" },
    .pageBreak,
    .heading 0 "ВВЕДЕНИЕ",
    leadParagraph "Актуальность темы. "
      ("Микросервисная архитектура стала стандартом для построения масштабируемых " ++
       "приложений, но её развертывание требует Docker-контейнеров, конфигураций " ++
       "Kubernetes и документации API."),
    leadParagraph "Цель работы: "
      ("разработка предметно-ориентированного языка для облачных сервисов и " ++
       "компилятора, генерирующего конфигурационные файлы и документацию."),
    .pageBreak]

/-- The chapters on languages and on services. -/
def theoryChapters : List DraftStep :=
  [.heading 0 "1. ТЕОРЕТИЧЕСКИЕ ОСНОВЫ ПОСТРОЕНИЯ ЯЗЫКОВ ПРОГРАММИРОВАНИЯ",
    .heading 1 "1.1. Классификация языков программирования",
    leadParagraph "Предметно-ориентированные языки (DSL) "
      "описывают задачи одной предметной области декларативно.",
    .heading 1 "1.2. Формальные грамматики и языки",
    .heading 1 "1.3. Этапы компиляции",
    leadParagraph "Лексический анализ (сканирование) " "разбивает текст на токены.",
    leadParagraph "Синтаксический анализ (парсинг) " "строит дерево разбора.",
    leadParagraph "Генерация кода " "порождает целевые артефакты.",
    .pageBreak,
    .heading 0 "2. МИКРОСЕРВИСНАЯ АРХИТЕКТУРА И ОБЛАЧНЫЕ ТЕХНОЛОГИИ",
    .heading 1 "2.1. Принципы микросервисной архитектуры",
    .heading 1 "2.2. Контейнеризация с использованием Docker",
    .heading 1 "2.3. Оркестрация контейнеров с Kubernetes",
    .heading 1 "2.4. Стандарты документирования API",
    .pageBreak]

/-- The chapters on the language and its compiler. -/
def practiceChapters : List DraftStep :=
  [.heading 0 "3. РАЗРАБОТКА ЯЗЫКА CLOUDSCRIPT",
    .heading 1 "3.1. Анализ требований и постановка задачи",
    .heading 1 "3.2. Разработка формальной грамматики",
    bodyParagraph "Фрагмент грамматики в форме EBNF:",
    codeParagraph "program     ::= service_def+",
    codeParagraph "service_def ::= 'service' IDENTIFIER '\x7b' service_body '\x7d'",
    .heading 1 "3.3. Проектирование абстрактного синтаксического дерева",
    .pageBreak,
    .heading 0 "4. РЕАЛИЗАЦИЯ КОМПИЛЯТОРА",
    .heading 1 "4.1. Лексический анализатор",
    .heading 1 "4.2. Синтаксический анализатор",
    .heading 1 "4.3. Генераторы кода",
    .heading 1 "4.4. Тестирование компилятора",
    .table resultTable,
    .heading 1 "4.5. Практические примеры использования",
    leadParagraph "Пример 2: Платформа электронной коммерции. "
      "Шесть сервисов, более тридцати конечных точек.",
    .pageBreak]

/-- The conclusion and the sources. -/
def backMatter : List DraftStep :=
  [.heading 0 "ЗАКЛЮЧЕНИЕ",
    bodyParagraph
      ("CloudScript упрощает разработку микросервисов за счёт декларативного описания " ++
       "и автоматической генерации конфигураций развертывания."),
    .pageBreak,
    .heading 0 "СПИСОК ИСПОЛЬЗОВАННЫХ ИСТОЧНИКОВ",
    bodyParagraph
      ("1. Ахо А., Лам М., Сети Р., Ульман Дж. Компиляторы: принципы, технологии и " ++
       "инструментарий. – 2-е изд. – М.: Вильямс, 2008.")]

/-- The steps in which the report is written. -/
def reportSteps : List DraftStep :=
  .beginSection .a4 ::
    (titlePage ++ frontMatter ++ theoryChapters ++ practiceChapters ++ backMatter)

/-- The report. -/
def report : Except BuildError Document :=
  Document.ofSteps "Разработка языка программирования для облачных сервисов" reportSteps

end Folio.Sample
