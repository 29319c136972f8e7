import Folio.Document.Draft
import Folio.Proofs.Document.Contents

/-!
# Documents written step by step

A step that begins a section takes all blocks that follow it up to the next such step; blocks that
come before the first one get a section of their own. A draft keeps this with every step, and keeps
the first error beside it. So the document of some steps can be read off the steps alone, and only a
heading that lies too deep stands in its way.
-/

namespace Folio

namespace DraftStep

/-- The level of a heading. -/
def level? : DraftStep → Option UInt8
  | .heading level _ => some level
  | .headingParagraph level _ => some level
  | _ => none

/-- Whether a step adds a block; all others begin a section. -/
def addsBlock : DraftStep → Bool
  | .beginSection _ => false
  | _ => true

/-- The block that a step adds. A heading keeps its level, and its style if it names one; otherwise
its style is that of its level, whose id counts from one. -/
inductive Adds : DraftStep → Block → Prop where
  | heading (level : UInt8) (text : String) :
    Adds (.heading level text) (.heading level
      { styleId := some ("Heading" ++ toString (level.toNat + 1)), runs := [{ text }] })
  | headingInStyle (level : UInt8) (p : Paragraph) (id : String) (h : p.styleId = some id) :
    Adds (.headingParagraph level p) (.heading level p)
  | headingWithoutStyle (level : UInt8) (p : Paragraph) (h : p.styleId = none) :
    Adds (.headingParagraph level p)
      (.heading level { p with styleId := some ("Heading" ++ toString (level.toNat + 1)) })
  | paragraph (p : Paragraph) : Adds (.paragraph p) (.paragraph p)
  | text (s : String) : Adds (.text s) (.paragraph { runs := [{ text := s }] })
  | run (r : Run) : Adds (.run r) (.run r)
  | table (t : Table Block ColorRef) : Adds (.table t) (.table t)
  | pageBreak : Adds .pageBreak .pageBreak
  | toc (request : TocRequest) : Adds (.toc request) (.toc request)

/-- What steps write: the blocks that they add before one of them begins a section, and the sections
that they begin, each with the blocks that are added before the next one begins. -/
inductive Writes : List DraftStep → List Block → List Section → Prop where
  | nil : Writes [] [] []
  | add {step : DraftStep} {b : Block} {steps : List DraftStep} {blocks : List Block}
      {sections : List Section} (hb : step.Adds b) (h : Writes steps blocks sections) :
    Writes (step :: steps) (b :: blocks) sections
  | beginSection (page : PageSetup) {steps : List DraftStep} {blocks : List Block}
      {sections : List Section} (h : Writes steps blocks sections) :
    Writes (.beginSection page :: steps) [] (⟨page, blocks⟩ :: sections)

/-- A step that adds a block adds one that is known. -/
theorem exists_adds {step : DraftStep} (h : step.addsBlock = true) : ∃ b, step.Adds b := by
  cases step with
  | beginSection page => cases h
  | heading level text => exact ⟨_, .heading level text⟩
  | headingParagraph level p =>
    cases hid : p.styleId with
    | none => exact ⟨_, .headingWithoutStyle level p hid⟩
    | some id => exact ⟨_, .headingInStyle level p id hid⟩
  | paragraph p => exact ⟨_, .paragraph p⟩
  | text s => exact ⟨_, .text s⟩
  | run r => exact ⟨_, .run r⟩
  | table t => exact ⟨_, .table t⟩
  | pageBreak => exact ⟨_, .pageBreak⟩
  | toc request => exact ⟨_, .toc request⟩

/-- Only steps that add a block add one. -/
theorem Adds.addsBlock {step : DraftStep} {b : Block} (h : step.Adds b) :
    step.addsBlock = true := by
  cases h <;> rfl

/-- A step that adds a heading is a heading of that level. -/
theorem Adds.level?_eq {step : DraftStep} {b : Block} (h : step.Adds b) :
    step.level? = b.heading?.map Prod.fst := by
  cases h <;> rfl

/-- All steps write something. -/
theorem exists_writes (steps : List DraftStep) : ∃ blocks sections, Writes steps blocks sections := by
  induction steps with
  | nil => exact ⟨[], [], .nil⟩
  | cons step steps ih =>
    obtain ⟨blocks, sections, h⟩ := ih
    cases hstep : step.addsBlock with
    | true =>
      obtain ⟨b, hb⟩ := exists_adds hstep
      exact ⟨b :: blocks, sections, .add hb h⟩
    | false =>
      cases step with
      | beginSection page => exact ⟨[], ⟨page, blocks⟩ :: sections, .beginSection page h⟩
      | _ => cases hstep

namespace Writes

variable {steps : List DraftStep} {blocks : List Block} {sections : List Section}

/-- The blocks that are written are those that the steps add, in their order. -/
theorem forall₂_adds (h : Writes steps blocks sections) :
    List.Forall₂ Adds (steps.filter (·.addsBlock)) (blocks ++ sections.flatMap (·.blocks)) := by
  induction h with
  | nil => exact .nil
  | add hb _ ih =>
    rw [List.filter_cons_of_pos hb.addsBlock]
    exact .cons hb ih
  | beginSection page _ ih => exact ih

/-- The headings that are written have the levels of the steps. -/
theorem levels_eq (h : Writes steps blocks sections) :
    (blocks ++ sections.flatMap (·.blocks)).filterMap (fun b => b.heading?.map Prod.fst) =
      steps.filterMap (·.level?) := by
  induction h with
  | nil => rfl
  | add hb _ ih => rw [List.cons_append, List.filterMap_cons, List.filterMap_cons, hb.level?_eq, ih]
  | beginSection page _ ih => exact ih

end Writes

end DraftStep

namespace Draft

/-- A block is added to the last section. -/
theorem addBlock_append (b : Block) (s : Section) (sections : List Section) :
    addBlock b (sections ++ [s]) = sections ++ [{ s with blocks := s.blocks ++ [b] }] := by
  induction sections with
  | nil => rfl
  | cons first rest ih =>
    have hrest : rest ++ [s] ≠ [] := List.append_ne_nil_of_right_ne_nil _ (List.cons_ne_nil _ _)
    rw [List.cons_append, addBlock.eq_3 _ _ _ hrest, ih]
    rfl

/-- Blocks in a row are added to the last section. -/
theorem foldl_addBlock_append (blocks : List Block) (s : Section) (sections : List Section) :
    blocks.foldl (fun sections b => addBlock b sections) (sections ++ [s]) =
      sections ++ [{ s with blocks := s.blocks ++ blocks }] := by
  induction blocks generalizing s with
  | nil => rw [List.append_nil, List.foldl_nil]
  | cons b blocks ih => rw [List.foldl_cons, addBlock_append, ih, List.append_assoc]; rfl

/-- Blocks in a row get a section of their own where there is none yet. -/
theorem foldl_addBlock_nil (blocks : List Block) :
    blocks.foldl (fun sections b => addBlock b sections) [] =
      if blocks.isEmpty then [] else [⟨.a4, blocks⟩] := by
  cases blocks with
  | nil => rfl
  | cons b blocks => exact foldl_addBlock_append blocks ⟨.a4, [b]⟩ []

/-- A step that adds a block pushes it, unless it is a heading that lies too deep. -/
theorem apply_of_adds {step : DraftStep} {b : Block} (h : step.Adds b)
    (hlevel : ∀ level, step.level? = some level → ¬2 < level) (draft : Draft) :
    draft.apply step = draft.push b := by
  cases h with
  | heading level text => exact if_neg (hlevel level rfl)
  | headingInStyle level p id hid =>
    have hstyle : { p with styleId := p.styleId.or (some (headingStyleId level)) } = p := by
      rw [hid, Option.some_or, ← hid]
    exact (if_neg (hlevel level rfl)).trans (by rw [hstyle])
  | headingWithoutStyle level p hid =>
    refine (if_neg (hlevel level rfl)).trans ?_
    rw [hid]
    rfl
  | _ => rfl

/-- A step keeps the title. -/
theorem title_apply (draft : Draft) (step : DraftStep) : (draft.apply step).title = draft.title := by
  have hheading (level : UInt8) (p : Paragraph) : (draft.heading level p).title = draft.title := by
    unfold heading
    split <;> rfl
  cases step with
  | heading level text => exact hheading level _
  | headingParagraph level p => exact hheading level p
  | _ => rfl

/-- A step records its error behind an earlier one. -/
theorem error_apply (draft : Draft) (step : DraftStep) :
    (draft.apply step).error =
      draft.error.or ((step.level?.filter (2 < ·)).map .headingTooDeep) := by
  have hheading (level : UInt8) (p : Paragraph) : (draft.heading level p).error =
      draft.error.or (((some level).filter (2 < ·)).map .headingTooDeep) := by
    unfold heading
    by_cases hdeep : 2 < level
    · rw [if_pos (show maxHeadingLevel < level from hdeep),
        Option.filter_some_pos (by simpa using hdeep)]
      rfl
    · rw [if_neg (show ¬maxHeadingLevel < level from hdeep),
        Option.filter_some_neg (by simpa using hdeep)]
      exact Option.or_none.symm
  cases step with
  | heading level text => exact hheading level _
  | headingParagraph level p => exact hheading level p
  | _ => exact Option.or_none.symm

section Run

variable {steps : List DraftStep}

/-- No steps change the title of a draft. -/
theorem title_foldl_apply (draft : Draft) : (steps.foldl apply draft).title = draft.title := by
  induction steps generalizing draft with
  | nil => rfl
  | cons step steps ih => rw [List.foldl_cons, ih, title_apply]

/-- The error of a draft is the first one, which is that of the first heading that lies too deep. -/
theorem error_foldl_apply (draft : Draft) :
    (steps.foldl apply draft).error =
      draft.error.or (((steps.filterMap (·.level?)).find? (2 < ·)).map .headingTooDeep) := by
  induction steps generalizing draft with
  | nil => exact Option.or_none.symm
  | cons step steps ih =>
    rw [List.foldl_cons, ih, error_apply, Option.or_assoc, List.filterMap_cons]
    cases step.level? with
    | none => rfl
    | some level =>
      by_cases hdeep : 2 < level
      · rw [Option.filter_some_pos (by simpa using hdeep),
          List.find?_cons_of_pos (by simpa using hdeep)]
        rfl
      · rw [Option.filter_some_neg (by simpa using hdeep),
          List.find?_cons_of_neg (by simpa using hdeep)]
        rfl

/-- Steps add blocks to the last section of a draft, and begin sections behind it. -/
theorem sections_foldl_apply {blocks : List Block} {sections : List Section}
    (h : DraftStep.Writes steps blocks sections)
    (hlevels : ∀ level ∈ steps.filterMap (·.level?), ¬2 < level) (draft : Draft) :
    (steps.foldl apply draft).sections =
      blocks.foldl (fun sections b => addBlock b sections) draft.sections ++ sections := by
  induction h generalizing draft with
  | nil => exact (List.append_nil _).symm
  | @add step b steps blocks sections hb _ ih =>
    have hfirst (level : UInt8) (hlevel : step.level? = some level) : ¬2 < level :=
      hlevels level (List.mem_filterMap.mpr ⟨step, List.mem_cons_self, hlevel⟩)
    have hrest (level : UInt8) (hlevel : level ∈ steps.filterMap (·.level?)) : ¬2 < level := by
      obtain ⟨later, hlater, hlevel⟩ := List.mem_filterMap.mp hlevel
      exact hlevels level (List.mem_filterMap.mpr ⟨later, List.mem_cons_of_mem _ hlater, hlevel⟩)
    rw [List.foldl_cons, apply_of_adds hb hfirst, ih hrest]
    rfl
  | @beginSection page steps blocks sections _ ih =>
    rw [List.foldl_cons, ih hlevels]
    -- the section begins without blocks, and what is added next goes into it
    have hbegun := foldl_addBlock_append blocks ⟨page, []⟩ draft.sections
    rw [List.nil_append] at hbegun
    change blocks.foldl _ (draft.sections ++ [⟨page, []⟩]) ++ sections = _
    rw [hbegun, List.append_assoc]
    rfl

end Run

end Draft

namespace Document

/-- The outline lists the levels of the headings. -/
theorem map_level_outline (doc : Document) :
    doc.outline.map (·.level) =
      (doc.sections.flatMap (·.blocks)).filterMap fun b => b.heading?.map Prod.fst := by
  have houtline := congrArg (List.map Prod.fst) (map_heading_outlineFrom 0 doc.sections)
  rw [List.map_map, List.map_filterMap] at houtline
  exact houtline

/-- What a document holds when steps have written it. -/
structure WrittenBy (doc : Document) (title : String) (steps : List DraftStep) : Prop where
  title_eq : doc.title = title
  /-- Each section holds the blocks that follow the step which begins it; blocks that come before
  any section are on A4 pages, and there is no section for them if there are none. -/
  sections_eq : ∃ leading begun, DraftStep.Writes steps leading begun ∧
    doc.sections = (if leading.isEmpty then [] else [⟨.a4, leading⟩]) ++ begun
  /-- All blocks stand in the order of the steps. -/
  forall₂_adds :
    List.Forall₂ DraftStep.Adds (steps.filter (·.addsBlock)) (doc.sections.flatMap (·.blocks))
  blockCount_eq : doc.blockCount = steps.countP (·.addsBlock)
  levels_eq : doc.outline.map (·.level) = steps.filterMap (·.level?)
  length_outline_eq : doc.outline.length = steps.countP (·.level?.isSome)

/-- Sections that steps write are those of a document written by the steps. -/
theorem writtenBy_of_writes {steps : List DraftStep} {leading : List Block} {begun : List Section}
    (h : DraftStep.Writes steps leading begun) (title : String) :
    WrittenBy ⟨title, (if leading.isEmpty then [] else [⟨.a4, leading⟩]) ++ begun⟩ title steps := by
  let doc : Document := ⟨title, (if leading.isEmpty then [] else [⟨.a4, leading⟩]) ++ begun⟩
  have hblocks : doc.sections.flatMap (·.blocks) = leading ++ begun.flatMap (·.blocks) := by
    change List.flatMap _ ((if leading.isEmpty then [] else [⟨.a4, leading⟩]) ++ begun) = _
    rw [List.flatMap_append]
    cases leading with
    | nil => rfl
    | cons b blocks => exact congrArg (· ++ _) (List.append_nil _)
  have hadds : List.Forall₂ DraftStep.Adds (steps.filter (·.addsBlock))
      (doc.sections.flatMap (·.blocks)) := by
    rw [hblocks]
    exact h.forall₂_adds
  have hlevels : doc.outline.map (·.level) = steps.filterMap (·.level?) := by
    rw [map_level_outline, hblocks, h.levels_eq]
  refine ⟨rfl, ⟨leading, begun, h, rfl⟩, hadds, ?_, hlevels, ?_⟩
  · exact hadds.length_eq.symm.trans List.countP_eq_length_filter.symm
  · rw [← List.length_filterMap_eq_countP, ← hlevels, List.length_map]

/-- Steps with a heading deeper than level two fail for the first of these, and all others write a
document: its blocks are those that the steps add, in their order and each in the section that was
begun last, and its outline has an entry for each heading. -/
theorem ofSteps_written (title : String) (steps : List DraftStep) :
    (∀ level, (steps.filterMap (·.level?)).find? (2 < ·) = some level →
        ofSteps title steps = .error (.headingTooDeep level)) ∧
      ((steps.filterMap (·.level?)).find? (2 < ·) = none →
        ∃ doc, ofSteps title steps = .ok doc ∧ doc.WrittenBy title steps) := by
  have herror := @Draft.error_foldl_apply steps (.new title)
  constructor
  · intro level hlevel
    rw [hlevel] at herror
    unfold ofSteps Draft.finish
    rw [herror]
    rfl
  · intro hnone
    rw [hnone] at herror
    obtain ⟨leading, begun, h⟩ := DraftStep.exists_writes steps
    have hlevels (level : UInt8) (hmem : level ∈ steps.filterMap (·.level?)) : ¬2 < level := by
      simpa using List.find?_eq_none.mp hnone level hmem
    have hsections := Draft.sections_foldl_apply h hlevels (.new title)
    rw [show (Draft.new title).sections = [] from rfl, Draft.foldl_addBlock_nil] at hsections
    refine ⟨_, ?_, writtenBy_of_writes h title⟩
    unfold ofSteps Draft.finish
    rw [herror, hsections, Draft.title_foldl_apply]
    rfl

/-- A memo that begins without a section, and has a section without blocks. -/
def memo : List DraftStep :=
  [.text "Preface", .heading 1 "Scope", .beginSection .a4Landscape, .beginSection .a4,
    .headingParagraph 2 ((Paragraph.ofText "Prices").style "Title"), .toc {}]

/-- The blocks in front of the memo get a section of their own, and of two headings too deep for it
the first is reported. -/
theorem ofSteps_written_memo :
    ofSteps "Memo" (memo ++ [.heading 7 "Rows", .heading 3 "Cells"]) = .error (.headingTooDeep 7) ∧
      ∃ doc, ofSteps "Memo" memo = .ok doc ∧ doc.WrittenBy "Memo" memo ∧
        doc.sections.map (fun s => (s.page, s.blocks.length)) =
          [(.a4, 2), (.a4Landscape, 0), (.a4, 2)] ∧
        doc.blockCount = 4 ∧ doc.outline.length = 2 := by
  have hdeep := (ofSteps_written "Memo" (memo ++ [.heading 7 "Rows", .heading 3 "Cells"])).1
  obtain ⟨doc, hdoc, hwritten⟩ := (ofSteps_written "Memo" memo).2 (by decide)
  refine ⟨hdeep 7 (by decide), doc, hdoc, hwritten, ?_, hwritten.blockCount_eq,
    hwritten.length_outline_eq⟩
  cases hdoc
  rfl

end Document

end Folio
