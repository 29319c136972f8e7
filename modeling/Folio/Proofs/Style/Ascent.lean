import Folio.Proofs.Outcome
import Folio.Style.Stylesheet

/-!
# Ways up the parents of styles

A way up passes styles, each the parent of the one before, and comes to where it stops. Ways from
one start are prefixes of each other, so the longest one is unique. Climbing is such a way; where no
way comes back to its own start, it finds every one that cannot be continued.
-/

namespace Folio

/-- Following parents from an optional id passes the styles of a path, the nearest first, and comes
to an optional id. -/
inductive Ascends (styles : Dict StyleDefinition) :
    Option String → List StyleDefinition → Option String → Prop
  | here (start : Option String) : Ascends styles start [] start
  | up {id : String} {d : StyleDefinition} {path : List StyleDefinition} {stop : Option String} :
      styles.get? id = some d → Ascends styles d.basedOn path stop →
      Ascends styles (some id) (d :: path) stop

/-- No style can be passed from here: there is no id, or it is not registered. -/
def Topmost (styles : Dict StyleDefinition) (stop : Option String) : Prop :=
  ∀ id, stop = some id → styles.get? id = none

/-- No way up comes back to its start. -/
def Acyclic (styles : Dict StyleDefinition) : Prop :=
  ∀ id path, Ascends styles (some id) path (some id) → path = []

variable {styles : Dict StyleDefinition}

theorem topmost_none : Topmost styles none := by
  intro id h
  cases h

theorem topmost_some {id : String} (h : styles.get? id = none) : Topmost styles (some id) := by
  intro other he
  cases he
  exact h

namespace Ascends

variable {start middle stop other : Option String} {path rest : List StyleDefinition}

/-- A way up can be continued. -/
theorem trans (h : Ascends styles start path middle) (h' : Ascends styles middle rest stop) :
    Ascends styles start (path ++ rest) stop := by
  induction h with
  | here => exact h'
  | up hd _ ih => exact .up hd (ih h')

/-- There is no way on from the top. -/
theorem of_topmost (htop : Topmost styles start) (h : Ascends styles start path stop) :
    path = [] ∧ stop = start := by
  cases h with
  | here => exact ⟨rfl, rfl⟩
  | up hd _ =>
    have hnone := htop _ rfl
    rw [hd] at hnone
    cases hnone

/-- Of two ways from one start, one goes on where the other stops. -/
theorem linear (h : Ascends styles start path stop) (h' : Ascends styles start rest other) :
    (∃ more, rest = path ++ more ∧ Ascends styles stop more other) ∨
      ∃ more, path = rest ++ more ∧ Ascends styles other more stop := by
  induction h generalizing rest with
  | here => exact .inl ⟨rest, rfl, h'⟩
  | @up id d path stop hd hup ih =>
    cases h' with
    | here => exact .inr ⟨d :: path, rfl, .up hd hup⟩
    | up hd' hup' =>
      rw [hd] at hd'
      cases hd'
      rcases ih hup' with ⟨more, rfl, hmore⟩ | ⟨more, rfl, hmore⟩
      · exact .inl ⟨more, rfl, hmore⟩
      · exact .inr ⟨more, rfl, hmore⟩

/-- The way to the top is unique, and every other way is a part of it. -/
theorem prefix_of_topmost (htop : Topmost styles stop) (h : Ascends styles start path stop)
    (h' : Ascends styles start rest other) :
    ∃ more, path = rest ++ more ∧ Ascends styles other more stop := by
  rcases h.linear h' with ⟨more, rfl, hmore⟩ | hmore
  · obtain ⟨rfl, rfl⟩ := hmore.of_topmost htop
    exact ⟨[], by simp only [List.append_nil], .here _⟩
  · exact hmore

/-- Of the ways from one start only one cannot be continued. -/
theorem unique (htop : Topmost styles stop) (htop' : Topmost styles other)
    (h : Ascends styles start path stop) (h' : Ascends styles start rest other) :
    path = rest ∧ stop = other := by
  obtain ⟨more, rfl, hmore⟩ := h.prefix_of_topmost htop h'
  obtain ⟨rfl, rfl⟩ := hmore.of_topmost htop'
  exact ⟨List.append_nil rest, rfl⟩

/-- A style without a parent ends only one way up, so what holds of some such way holds of it. -/
theorem exists_root_iff {P : List StyleDefinition → Prop} (h : Ascends styles start path none) :
    (∃ rest, Ascends styles start rest none ∧ P rest) ↔ P path := by
  constructor
  · rintro ⟨rest, hrest, hp⟩
    rwa [(h.unique topmost_none topmost_none hrest).1]
  · intro hp
    exact ⟨path, h, hp⟩

/-- A way up leads to every style that it passes, and on from it. -/
theorem split (h : Ascends styles start path stop) {d : StyleDefinition} (hd : d ∈ path) :
    ∃ id before after, path = before ++ d :: after ∧ styles.get? id = some d ∧
      Ascends styles start before (some id) ∧ Ascends styles (some id) (d :: after) stop := by
  induction h with
  | here => cases hd
  | @up id e path stop he hup ih =>
    rcases List.mem_cons.mp hd with rfl | hd
    · exact ⟨id, [], path, rfl, he, .here _, .up he hup⟩
    · obtain ⟨id', before, after, rfl, hid', hbefore, hafter⟩ := ih hd
      exact ⟨id', e :: before, after, rfl, hid', .up he hbefore, hafter⟩

/-- A way up passes only registered styles. -/
theorem registered (h : Ascends styles start path stop) {d : StyleDefinition} (hd : d ∈ path) :
    ∃ id, styles.get? id = some d := by
  obtain ⟨id, _, _, _, hid, _, _⟩ := h.split hd
  exact ⟨id, hid⟩

/-- The id that a way up from a registered style comes to is one that a style names as its
parent. -/
theorem exists_child {id p : String} {d : StyleDefinition} (hd : styles.get? id = some d)
    (htop : styles.get? p = none) (h : Ascends styles (some id) path (some p)) :
    ∃ id' child, styles.get? id' = some child ∧ child.basedOn = some p := by
  generalize hstop : some p = stop at h
  generalize hstart : some id = start at h
  induction h generalizing id d with
  | here =>
    subst hstop
    cases hstart
    rw [htop] at hd
    cases hd
  | @up id' e path stop he hup ih =>
    cases hb : e.basedOn with
    | none =>
      rw [hb] at hup
      obtain ⟨_, rfl⟩ := hup.of_topmost topmost_none
      cases hstop
    | some parent =>
      cases hp : styles.get? parent with
      | none =>
        rw [hb] at hup
        obtain ⟨_, rfl⟩ := hup.of_topmost (topmost_some hp)
        cases hstop
        exact ⟨id', e, he, hb⟩
      | some e' => exact ih hp hstop hb.symm

end Ascends

namespace Ascent

/-- The styles on the way. -/
def path : Ascent → List StyleDefinition
  | .root path | .dangling path _ | .loop path _ => path

/-- Where the way leads. -/
def stop : Ascent → Option String
  | .root _ => none
  | .dangling _ id | .loop _ id => some id

@[simp] theorem path_cons (d : StyleDefinition) (a : Ascent) : (a.cons d).path = d :: a.path := by
  cases a <;> rfl

@[simp] theorem stop_cons (d : StyleDefinition) (a : Ascent) : (a.cons d).stop = a.stop := by
  cases a <;> rfl

end Ascent

/-- Climbing is a way up. -/
theorem ascends_climb (styles : Dict StyleDefinition) (passed : List String)
    (start : Option String) :
    Ascends styles start (climb styles passed start).path (climb styles passed start).stop := by
  fun_induction climb styles passed start with
  | case1 => exact .here none
  | case2 => exact .here _
  | case3 => exact .here _
  | case4 passed id _ d hd ih =>
    rw [Ascent.path_cons, Ascent.stop_cons]
    exact .up hd ih

variable {passed : List String} {start stop : Option String} {path : List StyleDefinition}

/-- Climbing leaves off at an id only because that is neither registered nor passed before. -/
theorem climb_eq_dangling {missing : String}
    (h : climb styles passed start = .dangling path missing) :
    styles.get? missing = none ∧ missing ∉ passed := by
  fun_induction climb styles passed start generalizing path with
  | case1 => cases h
  | case2 => cases h
  | case3 passed id hp hnone =>
    cases h
    exact ⟨hnone, hp⟩
  | case4 passed id hp d hd ih =>
    cases hc : climb styles (id :: passed) d.basedOn with
    | root => rw [hc] at h; cases h
    | dangling rest m =>
      rw [hc] at h
      cases h
      obtain ⟨hnone, hm⟩ := ih hc
      exact ⟨hnone, fun hmem => hm (List.mem_cons_of_mem id hmem)⟩
    | loop => rw [hc] at h; cases h

/-- Climbing turns back at an id that was passed before or lies on a cycle. -/
theorem climb_eq_loop {again : String} (h : climb styles passed start = .loop path again) :
    again ∈ passed ∨ ∃ d rest, Ascends styles (some again) (d :: rest) (some again) := by
  fun_induction climb styles passed start generalizing path with
  | case1 => cases h
  | case2 passed id hp =>
    cases h
    exact .inl hp
  | case3 => cases h
  | case4 passed id hp d hd ih =>
    cases hc : climb styles (id :: passed) d.basedOn with
    | root => rw [hc] at h; cases h
    | dangling => rw [hc] at h; cases h
    | loop rest a =>
      rw [hc] at h
      cases h
      rcases ih hc with hmem | hcycle
      · rcases List.mem_cons.mp hmem with rfl | hmem
        · have hup := ascends_climb styles (again :: passed) d.basedOn
          rw [hc] at hup
          exact .inr ⟨d, rest, .up hd hup⟩
        · exact .inl hmem
      · exact .inr hcycle

namespace Acyclic

/-- A way up does not lead to where it began. -/
theorem ne_start (h : Acyclic styles) {id : String} {d : StyleDefinition}
    {rest : List StyleDefinition} (hup : Ascends styles (some id) (d :: rest) stop) :
    stop ≠ some id := by
  rintro rfl
  cases h id (d :: rest) hup

/-- Climbing turns back only at an id that was passed before it began. -/
theorem mem_of_climb_eq_loop (h : Acyclic styles) {again : String}
    (hc : climb styles passed start = .loop path again) : again ∈ passed := by
  rcases climb_eq_loop hc with hmem | ⟨d, rest, hcycle⟩
  · exact hmem
  · exact absurd rfl (h.ne_start hcycle)

/-- Climbing from anywhere comes to the top. -/
theorem topmost_climb (h : Acyclic styles) (start : Option String) :
    Topmost styles (climb styles [] start).stop := by
  cases hc : climb styles [] start with
  | root => exact topmost_none
  | dangling => exact topmost_some (climb_eq_dangling hc).1
  | loop => cases h.mem_of_climb_eq_loop hc

/-- Climbing finds the way to a style without a parent, if there is one. -/
theorem climb_eq_root_iff (h : Acyclic styles) :
    climb styles [] start = .root path ↔ Ascends styles start path none := by
  have hup := ascends_climb styles [] start
  constructor
  · intro hc
    rwa [hc] at hup
  · intro hway
    obtain ⟨hpath, hstop⟩ := hway.unique topmost_none (h.topmost_climb start) hup
    cases hc : climb styles [] start with
    | root p => rw [hpath, hc]; rfl
    | dangling => rw [hc] at hstop; cases hstop
    | loop => rw [hc] at hstop; cases hstop

/-- Climbing finds the way to an id that is not registered, if there is one. -/
theorem climb_eq_dangling_iff (h : Acyclic styles) {missing : String} :
    climb styles [] start = .dangling path missing ↔
      Ascends styles start path (some missing) ∧ styles.get? missing = none := by
  have hup := ascends_climb styles [] start
  constructor
  · intro hc
    rw [hc] at hup
    exact ⟨hup, (climb_eq_dangling hc).1⟩
  · rintro ⟨hway, hnone⟩
    obtain ⟨hpath, hstop⟩ := hway.unique (topmost_some hnone) (h.topmost_climb start) hup
    cases hc : climb styles [] start with
    | root => rw [hc] at hstop; cases hstop
    | dangling p m =>
      rw [hc] at hstop
      cases hstop
      rw [hpath, hc]
      rfl
    | loop => cases h.mem_of_climb_eq_loop hc

/-- Climbing past an id that is not registered turns back exactly where parents lead to that id. -/
theorem climb_eq_loop_iff (h : Acyclic styles) {id again : String} (hid : styles.get? id = none) :
    climb styles [id] start = .loop path again ↔
      again = id ∧ Ascends styles start path (some id) := by
  have hup := ascends_climb styles [id] start
  constructor
  · intro hc
    obtain rfl := List.mem_singleton.mp (h.mem_of_climb_eq_loop hc)
    rw [hc] at hup
    exact ⟨rfl, hup⟩
  · rintro ⟨rfl, hway⟩
    cases hc : climb styles [again] start with
    | root p =>
      rw [hc] at hup
      cases (hway.unique (topmost_some hid) topmost_none hup).2
    | dangling p m =>
      rw [hc] at hup
      obtain ⟨hnone, hm⟩ := climb_eq_dangling hc
      cases (hway.unique (topmost_some hid) (topmost_some hnone) hup).2
      exact absurd (List.mem_singleton.mpr rfl) hm
    | loop p a =>
      rw [hc] at hup
      obtain rfl := List.mem_singleton.mp (h.mem_of_climb_eq_loop hc)
      rw [(hway.unique (topmost_some hid) (topmost_some hid) hup).1]
      rfl

end Acyclic

theorem acyclic_empty : Acyclic .empty := by
  intro id path h
  exact (h.of_topmost fun _ _ => rfl).1

/-- A way up after a style was added either avoids it, or leads to it and on from its parent. -/
theorem Ascends.of_insert {id : String} {d : StyleDefinition}
    (h : Ascends (styles.insert id d) start path stop) :
    Ascends styles start path stop ∨
      ∃ before after, Ascends styles start before (some id) ∧
        Ascends (styles.insert id d) d.basedOn after stop := by
  induction h with
  | here start => exact .inl (.here start)
  | @up other e path stop he hup ih =>
    rw [Dict.get?_insert] at he
    split at he
    · rename_i heq
      subst heq
      cases he
      exact .inr ⟨[], path, .here _, hup⟩
    · rcases ih with ih | ⟨before, after, hbefore, hafter⟩
      · exact .inl (.up he ih)
      · exact .inr ⟨e :: before, after, .up he hbefore, hafter⟩

/-- A way up is still there after a style with a new id was added. -/
theorem Ascends.insert {start stop : Option String} {path : List StyleDefinition}
    {d : StyleDefinition} (hnew : styles.get? d.id = none) (h : Ascends styles start path stop) :
    Ascends (styles.insert d.id d) start path stop := by
  induction h with
  | here start => exact .here start
  | @up id e path stop he hup ih =>
    have hne : id ≠ d.id := by
      rintro rfl
      rw [hnew] at he
      cases he
    exact .up ((Dict.get?_insert _ _ _ _).trans ((if_neg hne).trans he)) ih

/-- A style whose parents do not lead to it closes no cycle. -/
theorem Acyclic.insert (h : Acyclic styles) {d : StyleDefinition}
    (hd : ∀ path, ¬Ascends styles d.basedOn path (some d.id)) :
    Acyclic (styles.insert d.id d) := by
  intro id path hcycle
  rcases hcycle.of_insert with hcycle | ⟨before, after, hbefore, hafter⟩
  · exact h id path hcycle
  · -- the cycle passes the new style, so the new style's parents lead back to it
    rcases hafter.of_insert with hafter | ⟨back, _, hback, _⟩
    · exact absurd (hafter.trans hbefore) (hd _)
    · exact absurd hback (hd _)

/-- Every style is registered under its own id. -/
def Keyed (styles : Dict StyleDefinition) : Prop :=
  ∀ id d, styles.get? id = some d → d.id = id

theorem keyed_empty : Keyed .empty := by
  intro id d h
  cases h

/-- A style that comes under its own id leaves every style under its own. -/
theorem Keyed.insert (h : Keyed styles) (d : StyleDefinition) : Keyed (styles.insert d.id d) := by
  intro id e he
  rw [Dict.get?_insert] at he
  split at he
  · rename_i heq
    cases he
    exact heq.symm
  · exact h id e he

/-- A way up passes no id twice and does not come to one that it has passed. -/
theorem Acyclic.nodup (h : Acyclic styles) (hk : Keyed styles)
    (hup : Ascends styles start path stop) :
    (path.map (·.id)).Nodup ∧ ∀ id, stop = some id → id ∉ path.map (·.id) := by
  induction hup with
  | here => exact ⟨.nil, fun _ _ hmem => nomatch hmem⟩
  | @up id d path stop hd hup ih =>
    have hid := hk id d hd
    rw [List.map_cons, List.nodup_cons]
    refine ⟨⟨fun hmem => ?_, ih.1⟩, fun again hagain hmem => ?_⟩
    · obtain ⟨e, he, heq⟩ := List.mem_map.mp hmem
      obtain ⟨id', before, _, _, hid', hbefore, _⟩ := hup.split he
      rw [hk id' e hid', hid] at heq
      exact h.ne_start (.up hd hbefore) (congrArg some heq)
    · rcases List.mem_cons.mp hmem with heq | hmem
      · exact h.ne_start (.up hd hup) (hagain.trans (congrArg some (heq.trans hid)))
      · exact ih.2 again hagain hmem

namespace Stylesheet

variable {sheet : Stylesheet} {id : String}

theorem contains_iff : sheet.contains id = true ↔ ∃ d, sheet.styles.get? id = some d :=
  Option.isSome_iff_exists

theorem contains_eq_false_iff : sheet.contains id = false ↔ sheet.styles.get? id = none :=
  Option.isSome_eq_false_iff.trans Option.isNone_iff_eq_none

/-- The chain of a style is the way from it to a style without a parent. -/
theorem chain_eq_ok_iff (h : Acyclic sheet.styles) :
    sheet.chain id = .ok path ↔ Ascends sheet.styles (some id) path none := by
  rw [← h.climb_eq_root_iff]
  unfold chain
  cases climb sheet.styles [] (some id) <;> simp

/-- A style has no chain exactly when the way from it leads to an id that is not registered. -/
theorem chain_eq_error_iff (h : Acyclic sheet.styles) {e : BuildError} :
    sheet.chain id = .error e ↔
      ∃ path missing, Ascends sheet.styles (some id) path (some missing) ∧
        sheet.styles.get? missing = none ∧ e = .unknownStyle missing := by
  unfold chain
  constructor
  · intro hc
    cases hclimb : climb sheet.styles [] (some id) with
    | root => rw [hclimb] at hc; cases hc
    | dangling path missing =>
      rw [hclimb] at hc
      cases hc
      obtain ⟨hway, hnone⟩ := h.climb_eq_dangling_iff.mp hclimb
      exact ⟨path, missing, hway, hnone, rfl⟩
    | loop => cases h.mem_of_climb_eq_loop hclimb
  · rintro ⟨path, missing, hway, hnone, rfl⟩
    rw [h.climb_eq_dangling_iff.mpr ⟨hway, hnone⟩]

/-- What a style declares is unknown for the same reason as its chain. -/
theorem declared_eq_error_iff {e : BuildError} :
    sheet.declared id = .error e ↔ sheet.chain id = .error e := by
  unfold declared
  rw [bind_eq_error_iff]
  constructor
  · rintro (h | ⟨path, _, h⟩)
    · exact h
    · cases h
  · exact .inl

end Stylesheet

end Folio
