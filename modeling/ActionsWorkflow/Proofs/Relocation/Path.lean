import ActionsWorkflow.Path

/-!
# Joined paths and their written form

Moving a path under another one writes the two side by side, with a dot between them if the
inner path starts with a key.  Only the empty path needs a written form of its own, and a
path can be mistaken for it in one way.
-/

namespace ActionsWorkflow.Path

def startsWithKey (path : Path) : Bool :=
  match path.segments with
  | .key _ :: _ => true
  | _ => false

/-- What stands between a path and the path it is moved under. -/
def joint (path : Path) : String := if path.startsWithKey then "." else ""

theorem isRoot_within (path outer : Path) :
    (path.within outer).isRoot = true ↔ path.isRoot = true ∧ outer.isRoot = true := by
  simp only [isRoot, within, List.isEmpty_iff, List.append_eq_nil_iff]
  exact and_comm

theorem render_key_cons (name : String) (rest : List Segment) :
    render ⟨.key name :: rest⟩ = name ++ renderSuffix rest := rfl

theorem render_index_cons (position : Nat) (rest : List Segment) :
    render ⟨.index position :: rest⟩ = renderSuffix (.index position :: rest) := rfl

theorem renderSuffix_append (front back : List Segment) :
    renderSuffix (front ++ back) = renderSuffix front ++ renderSuffix back := by
  induction front with
  | nil => simp [renderSuffix]
  | cons segment rest ih =>
      cases segment with
      | key name => simp only [List.cons_append, renderSuffix, ih, String.append_assoc]
      | index position => simp only [List.cons_append, renderSuffix, ih, String.append_assoc]

theorem renderSuffix_segments {path : Path} (h : path.isRoot = false) :
    renderSuffix path.segments = path.joint ++ path.render := by
  obtain ⟨segments⟩ := path
  cases segments with
  | nil => cases h
  | cons segment rest =>
      cases segment with
      | key name => exact String.append_assoc
      | index position => exact String.empty_append.symm

theorem render_within_eq_append_suffix {outer : Path} (h : outer.isRoot = false)
    (path : Path) : (path.within outer).render = outer.render ++ renderSuffix path.segments := by
  obtain ⟨segments⟩ := outer
  cases segments with
  | nil => cases h
  | cons segment rest =>
      cases segment with
      | key name =>
          rw [within, List.cons_append, render_key_cons, renderSuffix_append, render_key_cons,
            String.append_assoc]
      | index position => exact renderSuffix_append (.index position :: rest) path.segments

/-! ## The form of the empty path -/

theorem mark_mem_renderSuffix (segment : Segment) (rest : List Segment) :
    '.' ∈ (renderSuffix (segment :: rest)).toList ∨
      '[' ∈ (renderSuffix (segment :: rest)).toList := by
  cases segment with
  | key name => left; simp [renderSuffix]
  | index position => right; simp [renderSuffix]

theorem renderSuffix_ne_of_no_mark {text : String} (hdot : '.' ∉ text.toList)
    (hbracket : '[' ∉ text.toList) (before : String) (segment : Segment)
    (rest : List Segment) : before ++ renderSuffix (segment :: rest) ≠ text := by
  rintro rfl
  rw [String.toList_append, List.mem_append, not_or] at hdot hbracket
  rcases mark_mem_renderSuffix segment rest with hmark | hmark
  · exact hdot.2 hmark
  · exact hbracket.2 hmark

theorem render_eq_root_iff (path : Path) :
    path.render = "(root)" ↔ path = root ∨ path = root.key "(root)" := by
  constructor
  · intro h
    obtain ⟨segments⟩ := path
    cases segments with
    | nil => exact .inl rfl
    | cons segment rest =>
        cases segment with
        | index position =>
            rw [render_index_cons, ← String.empty_append (s := renderSuffix _)] at h
            exact absurd h (renderSuffix_ne_of_no_mark (by decide) (by decide) "" _ rest)
        | key name =>
            rw [render_key_cons] at h
            cases rest with
            | nil =>
                right
                have hname : name = "(root)" := String.append_empty.symm.trans h
                rw [hname]
                rfl
            | cons next rest =>
                exact absurd h
                  (renderSuffix_ne_of_no_mark (by decide) (by decide) name next rest)
  · rintro (rfl | rfl) <;> rfl

/-- Paths act on paths by joining, with the empty path as the unit, and only empty paths join
to the empty path.  A joined path reads as its parts one after the other, with a dot before
an inner path that starts with a key.  What reads as the empty path is empty, unless it is
a lone key spelt like that. -/
theorem within_composes (inner middle outer : Path) :
    (inner.within middle).within outer = inner.within (middle.within outer) ∧
    inner.within root = inner ∧ root.within inner = inner ∧
    ((inner.within outer).isRoot = true ↔ inner.isRoot = true ∧ outer.isRoot = true) ∧
    (inner.isRoot = false → outer.isRoot = false →
      (inner.within outer).render =
        outer.render ++ (if inner.startsWithKey then "." else "") ++ inner.render) ∧
    (inner.render = "(root)" ↔ inner = root ∨ inner = root.key "(root)") := by
  refine ⟨within_within inner middle outer, within_root inner, root_within inner,
    isRoot_within inner outer, ?_, render_eq_root_iff inner⟩
  intro hinner houter
  calc (inner.within outer).render
      = outer.render ++ renderSuffix inner.segments :=
        render_within_eq_append_suffix houter inner
    _ = outer.render ++ (inner.joint ++ inner.render) := by rw [renderSuffix_segments hinner]
    _ = outer.render ++ inner.joint ++ inner.render := String.append_assoc.symm

def thirdCommand : Path := ((root.key "steps").index 2).key "run"

def lintJob : Path := (root.key "jobs").key "lint"

theorem within_composes_thirdCommand :
    thirdCommand.isRoot = false ∧ lintJob.isRoot = false ∧
    (thirdCommand.within lintJob).render = "jobs.lint" ++ "." ++ "steps[2].run" := by
  obtain ⟨-, -, -, -, hrender, -⟩ := within_composes thirdCommand root lintJob
  exact ⟨rfl, rfl, hrender rfl rfl⟩

end ActionsWorkflow.Path
