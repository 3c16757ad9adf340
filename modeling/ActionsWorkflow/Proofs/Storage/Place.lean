import ActionsWorkflow.Proofs.Storage.FileSystem
import Mathlib.Data.List.Induction

/-!
# Where a path leads

The names in a path lead from directory to directory, down or up again.  What is made on the
way to the directory of a file stands where some of the names short of the last lead, and
that may be the place of the file itself if the path goes up.
-/

namespace ActionsWorkflow.Storage

/-- The parts of a path that lead from one directory to another. -/
def names (path : String) : List String := (parts path).filter (countsAt false)

theorem not_mem_of_mem_splitOn {separator : Char} {text piece : List Char}
    (h : piece ∈ text.splitOn separator) : separator ∉ piece := by
  induction text generalizing piece with
  | nil =>
      rw [List.splitOn_nil, List.mem_singleton] at h
      simp [h]
  | cons c rest ih =>
      rw [List.splitOn_cons_eq_if_modifyHead] at h
      split at h
      next =>
          rcases List.mem_cons.1 h with rfl | h
          · exact List.not_mem_nil
          · exact ih h
      next hc =>
          obtain ⟨first, others, hrest⟩ :=
            List.exists_cons_of_ne_nil (List.splitOn_ne_nil separator rest)
          rw [hrest, List.modifyHead_cons] at h
          rcases List.mem_cons.1 h with rfl | h
          · have hfirst : separator ∉ first := ih (by rw [hrest]; exact List.mem_cons_self)
            rw [List.mem_cons, not_or]
            exact ⟨fun heq => hc (beq_iff_eq.2 heq.symm), hfirst⟩
          · exact ih (by rw [hrest]; exact List.mem_cons_of_mem first h)

theorem slash_not_mem_of_mem_parts {path part : String} (h : part ∈ parts path) :
    '/' ∉ part.toList := by
  have hpieces : part ∈ (path.toList.splitOn '/').map String.ofList := by
    rw [parts] at h
    split at h
    · exact List.mem_of_mem_drop h
    · exact h
  obtain ⟨piece, hpiece, rfl⟩ := List.mem_map.1 hpieces
  rw [String.toList_ofList]
  exact not_mem_of_mem_splitOn hpiece

theorem ne_empty_of_relative {path part other : String} {rest : List String}
    (hrelative : isAbsolute path = false) (h : parts path = part :: other :: rest) :
    part ≠ "" := by
  rintro rfl
  simp only [parts, hrelative, Bool.false_eq_true, if_false] at h
  obtain ⟨first, others, hsplit, hfirst, hothers⟩ := List.map_eq_cons_iff.1 h
  obtain ⟨second, more, rfl, -, -⟩ := List.map_eq_cons_iff.1 hothers
  have hnil : first = [] := by simpa using congrArg String.toList hfirst
  have hjoined : ['/'].intercalate (path.toList.splitOn '/') = path.toList :=
    List.intercalate_splitOn '/'
  have htext : path.toList = '/' :: ['/'].intercalate (second :: more) := by
    rw [← hjoined, hsplit, hnil, List.intercalate_cons_of_ne_nil (List.cons_ne_nil second more)]
    rfl
  simp [isAbsolute, htext] at hrelative

theorem dropIdle_isPrefix (absolute : Bool) (given : List String) :
    dropIdle absolute given <+: given := by
  induction given generalizing absolute with
  | nil => exact List.prefix_refl []
  | cons part rest ih =>
      rw [dropIdle]
      split
      · split
        · exact List.prefix_append [part] rest
        · exact List.nil_prefix
      · exact List.cons_prefix_cons.2 ⟨rfl, ih true⟩

theorem countsAt_of_false {first : Bool} {part : String} (h : countsAt false part = true) :
    countsAt first part = true := by
  simp_all [countsAt]

theorem filter_dropIdle (absolute : Bool) (given : List String) :
    (dropIdle absolute given).filter (countsAt false) = given.filter (countsAt false) := by
  induction given generalizing absolute with
  | nil => rfl
  | cons part rest ih =>
      have hrest := ih true
      rw [dropIdle]
      split
      next hnil =>
          rw [hnil, List.filter_nil] at hrest
          by_cases hcounts : countsAt false part = true
          · rw [if_pos (countsAt_of_false hcounts), List.filter_cons, List.filter_cons, ← hrest,
              List.filter_nil]
          · split <;> simp [hcounts, ← hrest]
      next => rw [List.filter_cons, List.filter_cons, hrest]

theorem countsAt_last_of_dropIdle {given front : List String} {last : String}
    (h : dropIdle true given = front ++ [last]) : countsAt false last = true := by
  induction given generalizing front with
  | nil => simp [dropIdle] at h
  | cons part rest ih =>
      rw [dropIdle] at h
      split at h
      next =>
          split at h
          next hcounts =>
              have hlast : part = last := by simpa using congrArg List.getLast? h
              exact hlast ▸ hcounts
          next => simp at h
      next hkept =>
          cases front with
          | nil => exact absurd (List.cons_eq_cons.1 h).2 hkept
          | cons head front => exact ih (List.cons_eq_cons.1 h).2

theorem filter_dropLast_dropIdle (absolute : Bool) (given : List String) :
    (dropIdle absolute given).dropLast.filter (countsAt false) =
      (given.filter (countsAt false)).dropLast := by
  rw [← filter_dropIdle absolute given]
  cases given with
  | nil => rfl
  | cons part rest =>
      rw [dropIdle]
      split
      next => split <;> by_cases hcounts : countsAt false part = true <;> simp [hcounts]
      next hkept =>
          have hlast := List.dropLast_concat_getLast hkept
          have hcounts := countsAt_last_of_dropIdle hlast.symm
          rw [← hlast, ← List.cons_append, List.dropLast_concat, List.filter_append,
            List.filter_cons_of_pos hcounts, List.filter_nil, List.dropLast_concat]

theorem toList_ofParts (absolute : Bool) (kept : List String) :
    (ofParts absolute kept).toList =
      (if absolute then ['/'] else []) ++ ['/'].intercalate (kept.map String.toList) := by
  cases absolute <;> simp [ofParts, String.toList_intercalate]

section
variable {absolute : Bool} {kept : List String} (hkept : kept ≠ [])
  (hplain : ∀ part ∈ kept, '/' ∉ part.toList)
  (hfirst : absolute = false → kept.head? ≠ some "")

include hkept hplain hfirst

theorem isAbsolute_ofParts : isAbsolute (ofParts absolute kept) = absolute := by
  rw [isAbsolute, toList_ofParts]
  cases absolute with
  | true => rfl
  | false =>
      obtain ⟨part, rest, rfl⟩ := List.exists_cons_of_ne_nil hkept
      have hpart : part.toList ≠ [] := by simpa using hfirst rfl
      obtain ⟨c, others, hc⟩ := List.exists_cons_of_ne_nil hpart
      have hslash : c ≠ '/' := by
        rintro rfl
        exact hplain part List.mem_cons_self (by rw [hc]; exact List.mem_cons_self)
      cases rest <;> simp [hc, hslash]

theorem parts_ofParts : parts (ofParts absolute kept) = kept := by
  have hpieces : (['/'].intercalate (kept.map String.toList)).splitOn '/' =
      kept.map String.toList :=
    List.splitOn_intercalate '/' (by simpa using hplain) (by simpa using hkept)
  rw [parts, isAbsolute_ofParts hkept hplain hfirst, toList_ofParts]
  cases absolute <;>
    simp [hpieces, List.splitOn_cons_eq_if_modifyHead, Function.comp_def]

end

section
variable {path : String}

def kept (path : String) : List String := dropIdle (isAbsolute path) (parts path)

/-- The parts that name the directory of a file. -/
def stem (path : String) : List String := dropIdle (isAbsolute path) (kept path).dropLast

theorem filter_stem : (stem path).filter (countsAt false) = (names path).dropLast := by
  rw [stem, filter_dropIdle, kept, filter_dropLast_dropIdle, names]

theorem kept_ne_nil (h : stem path ≠ []) : kept path ≠ [] := by
  intro hkept
  simp [stem, hkept, dropIdle] at h

theorem exists_parts_eq_stem_append (h : stem path ≠ []) :
    ∃ last rest, parts path = stem path ++ last :: rest := by
  obtain ⟨more, hmore⟩ := dropIdle_isPrefix (isAbsolute path) (kept path).dropLast
  obtain ⟨others, hothers⟩ := dropIdle_isPrefix (isAbsolute path) (parts path)
  have hlast := List.dropLast_concat_getLast (kept_ne_nil h)
  obtain ⟨last, rest, hrest⟩ := List.exists_cons_of_ne_nil
    (List.append_ne_nil_of_right_ne_nil more (List.cons_ne_nil ((kept path).getLast _) others))
  refine ⟨last, rest, ?_⟩
  rw [← hrest, ← hothers]
  change kept path ++ others = _
  rw [← List.append_assoc, show stem path ++ more = _ from hmore, List.append_cons, hlast]

theorem slash_not_mem_of_mem_stem {part : String} (h : part ∈ stem path) :
    '/' ∉ part.toList := by
  obtain ⟨last, rest, hparts⟩ := exists_parts_eq_stem_append (List.ne_nil_of_mem h)
  exact slash_not_mem_of_mem_parts (hparts ▸ List.mem_append_left _ h)

theorem head?_stem_ne (h : stem path ≠ []) (hrelative : isAbsolute path = false) :
    (stem path).head? ≠ some "" := by
  obtain ⟨last, rest, hparts⟩ := exists_parts_eq_stem_append h
  obtain ⟨part, others, hstem⟩ := List.exists_cons_of_ne_nil h
  obtain ⟨other, more, hmore⟩ :=
    List.exists_cons_of_ne_nil
      (List.append_ne_nil_of_right_ne_nil others (List.cons_ne_nil last rest))
  rw [hstem, List.cons_append, hmore] at hparts
  rw [hstem, List.head?_cons, ne_eq, Option.some.injEq]
  exact ne_empty_of_relative hrelative hparts

theorem parent?_eq (path : String) :
    parent? path =
      if kept path = [] then none else some (ofParts (isAbsolute path) (stem path)) := by
  simp only [parent?, stem, kept]
  split <;> simp_all

theorem isAbsolute_stem (h : stem path ≠ []) :
    isAbsolute (ofParts (isAbsolute path) (stem path)) = isAbsolute path :=
  isAbsolute_ofParts h (fun _ => slash_not_mem_of_mem_stem) (head?_stem_ne h)

theorem parts_stem (h : stem path ≠ []) :
    parts (ofParts (isAbsolute path) (stem path)) = stem path :=
  parts_ofParts h (fun _ => slash_not_mem_of_mem_stem) (head?_stem_ne h)

theorem parentDirectory_eq_ofParts (h : stem path ≠ []) :
    parentDirectory path = ofParts (isAbsolute path) (stem path) := by
  have htext : ofParts (isAbsolute path) (stem path) ≠ "" := by
    intro hempty
    have hrelative := isAbsolute_stem h
    have hparts := parts_stem h
    rw [hempty] at hrelative hparts
    exact head?_stem_ne h hrelative.symm (hparts ▸ rfl)
  rw [parentDirectory, parent?_eq, if_neg (kept_ne_nil h)]
  exact if_neg htext

theorem parentDirectory_of_stem (h : stem path = []) :
    parentDirectory path = if isAbsolute path = true ∧ kept path ≠ [] then "/" else "." := by
  rw [parentDirectory, parent?_eq, h]
  by_cases hkept : kept path = []
  · simp [hkept]
  · cases habsolute : isAbsolute path <;> simp [hkept, ofParts]

theorem names_parentDirectory (path : String) :
    names (parentDirectory path) = (names path).dropLast := by
  rw [← filter_stem]
  by_cases h : stem path = []
  · rw [parentDirectory_of_stem h, h]
    split <;> rfl
  · rw [parentDirectory_eq_ofParts h, names, parts_stem h]

theorem isAbsolute_parentDirectory (h : names path ≠ []) :
    isAbsolute (parentDirectory path) = isAbsolute path := by
  have hkept : kept path ≠ [] := by
    intro hnil
    rw [names, ← filter_dropIdle (isAbsolute path)] at h
    exact h (congrArg (List.filter (countsAt false)) hnil)
  by_cases hstem : stem path = []
  · rw [parentDirectory_of_stem hstem]
    cases isAbsolute path <;> simp [hkept] <;> rfl
  · rw [parentDirectory_eq_ofParts hstem, isAbsolute_stem hstem]

end

/-! ## Places -/

namespace FileSystem

variable {system changed : FileSystem} {location next other : Location} {path part : String}

/-- Where a name leads from a directory. -/
def follow (location : Location) (name : String) : Location :=
  if name = ".." then location.dropLast else location ++ [name]

/-- Where a path leads if there are all the directories on its way. -/
def place (system : FileSystem) (path : String) : Location :=
  (names path).foldl follow (system.startOf path)

theorem enter_eq_some (h : system.enter location part = some next) :
    system.node? location = some .directory ∧
      next = if countsAt false part = true then follow location part else location := by
  have hdirectory : system.node? location = some .directory := by
    by_contra hnot
    simp [enter, hnot] at h
  refine ⟨hdirectory, ?_⟩
  have hcounts : countsAt false part = !(part = "" || part = ".") := by simp [countsAt]
  rw [enter, if_neg (not_not_intro hdirectory)] at h
  split at h
  next hidle => simpa [hcounts, hidle, eq_comm] using h
  next hidle =>
      rw [hcounts, Bool.eq_false_iff.2 hidle, Bool.not_false, if_pos rfl, follow]
      split at h
      next hup =>
          rw [if_pos hup]
          exact (Option.some.inj h).symm
      next hdown =>
          rw [if_neg hdown]
          split at h
          · cases h
          · exact (Option.some.inj h).symm

theorem foldlM_enter_eq {walked : List String}
    (h : walked.foldlM system.enter location = some next) :
    next = (walked.filter (countsAt false)).foldl follow location := by
  induction walked generalizing location with
  | nil => exact (Option.some.inj h).symm
  | cons part rest ih =>
      obtain ⟨middle, hmiddle, hrest⟩ := Option.bind_eq_some_iff.1 h
      obtain ⟨-, rfl⟩ := enter_eq_some hmiddle
      rw [ih hrest, List.filter_cons]
      split <;> rfl

theorem eq_place_of_locate? (h : system.locate? path = some location) :
    location = system.place path := by
  rw [locate?] at h
  split at h
  · exact foldlM_enter_eq h
  · cases h

/-- Some of the names, and one at least, lead from one location to another. -/
def Leads (names : List String) (location other : Location) : Prop :=
  ∃ front ≠ [], front <+: names ∧ front.foldl follow location = other

theorem Leads.of_enter {walked : List String} (hnext : system.enter location part = some next)
    (h : Leads (walked.filter (countsAt false)) next other) :
    Leads ((part :: walked).filter (countsAt false)) location other := by
  obtain ⟨-, rfl⟩ := enter_eq_some hnext
  obtain ⟨front, hne, hshort, hother⟩ := h
  rw [List.filter_cons]
  split at hother
  next hcounts =>
      rw [if_pos hcounts]
      exact ⟨part :: front, List.cons_ne_nil part front,
        List.cons_prefix_cons.2 ⟨rfl, hshort⟩, hother⟩
  next hidle =>
      rw [if_neg hidle]
      exact ⟨front, hne, hshort, hother⟩

theorem Leads.of_enter_vacant {walked : List String}
    (hnext : system.enter location part = some next) (hvacant : system.node? next = none) :
    Leads ((part :: walked).filter (countsAt false)) location next := by
  obtain ⟨hdirectory, hfollow⟩ := enter_eq_some hnext
  split at hfollow
  next hcounts =>
      rw [List.filter_cons_of_pos hcounts]
      exact ⟨[part], List.cons_ne_nil part [], List.prefix_append [part] _, hfollow.symm⟩
  next =>
      rw [hfollow, hdirectory] at hvacant
      cases hvacant

theorem leads_of_makeDirectoriesFrom {walked : List String}
    (h : (system.makeDirectoriesFrom location walked).2.node? other ≠ system.node? other) :
    Leads (walked.filter (countsAt false)) location other := by
  induction walked generalizing system location with
  | nil => exact absurd rfl h
  | cons part rest ih =>
      rw [makeDirectoriesFrom] at h
      split at h
      next => exact absurd rfl h
      next next hnext =>
        split at h
        next => exact (ih h).of_enter hnext
        next => exact absurd rfl h
        next hvacant =>
          by_cases hother : other = next
          · exact hother ▸ .of_enter_vacant hnext hvacant
          · have hroot := ne_root_of_node? (not_directory_of_vacant hvacant)
            have hsame : (system.put next .directory).node? other = system.node? other := by
              rw [node?_put hroot, if_neg hother]
            exact (ih (hsame ▸ h)).of_enter hnext

theorem leads_of_makeDirectoriesAlong {walked : List String} (hwalked : walked <+: parts path)
    (h : (system.makeDirectoriesAlong path walked).2.node? other ≠ system.node? other) :
    Leads (names path) (system.startOf path) other := by
  rw [makeDirectoriesAlong] at h
  split at h
  · obtain ⟨front, hne, hshort, hother⟩ := leads_of_makeDirectoriesFrom h
    exact ⟨front, hne, hshort.trans (hwalked.filter _), hother⟩
  · exact absurd rfl h

/-- On the way to its directory a path comes by a location. -/
def Passes (system : FileSystem) (path : String) (location : Location) : Prop :=
  Leads (names path).dropLast (system.startOf path) location

theorem passes_of_leads_parentDirectory
    (h : Leads (names (parentDirectory path)) (system.startOf (parentDirectory path)) location) :
    system.Passes path location := by
  rw [names_parentDirectory] at h
  have hnames : names path ≠ [] := by
    intro hnil
    obtain ⟨front, hne, hshort, -⟩ := h
    rw [hnil] at hshort
    exact hne (List.prefix_nil.1 hshort)
  rwa [startOf, isAbsolute_parentDirectory hnames] at h

/-! ## Paths that never go up -/

theorem foldl_follow_of_straight {names : List String} (h : ".." ∉ names)
    (location : Location) : names.foldl follow location = location ++ names := by
  induction names generalizing location with
  | nil => exact (List.append_nil location).symm
  | cons name rest ih =>
      rw [List.mem_cons, not_or] at h
      rw [List.foldl_cons, ih h.2, follow, if_neg (Ne.symm h.1), List.append_assoc,
        List.singleton_append]

theorem not_passes_place (h : ".." ∉ names path) : ¬ system.Passes path (system.place path) := by
  rintro ⟨front, hne, hshort, hplace⟩
  have hfront : ".." ∉ front :=
    fun hmem => h (List.dropLast_subset _ (hshort.subset hmem))
  rw [place, foldl_follow_of_straight h, foldl_follow_of_straight hfront] at hplace
  have hlength := hshort.length_le
  rw [List.append_cancel_left hplace, List.length_dropLast] at hlength
  have hpos : 0 < (names path).length :=
    List.length_pos_iff.2 (List.append_cancel_left hplace ▸ hne)
  omega

/-- Whatever there is, there is in a directory. -/
def Closed (system : FileSystem) : Prop :=
  ∀ location ≠ [], system.node? location ≠ none →
    system.node? location.dropLast = some .directory

theorem Closed.directory_above (hclosed : system.Closed) (habove : location <+: other)
    (hne : location ≠ other) (hthere : system.node? other ≠ none) :
    system.node? location = some .directory := by
  induction other using List.reverseRecOn with
  | nil => exact absurd (List.prefix_nil.1 habove) hne
  | append_singleton front name ih =>
      have hfront := hclosed _ (by simp) hthere
      rw [List.dropLast_concat] at hfront
      rcases List.prefix_concat_iff.1 habove with heq | habove
      · exact absurd heq hne
      · by_cases heq : location = front
        · rwa [heq]
        · exact ih habove heq (by simp [hfront])

theorem Closed.foldlM_enter (hclosed : system.Closed) {walked : List String}
    (hstraight : ".." ∉ walked.filter (countsAt false))
    (hplace : changed.node? other = system.node? other) (hthere : system.node? other ≠ none)
    (h : walked.foldlM changed.enter location = some other) :
    walked.foldlM system.enter location = some other := by
  induction walked generalizing location with
  | nil => exact h
  | cons part rest ih =>
      have habove := foldlM_enter_eq h
      rw [foldl_follow_of_straight hstraight] at habove
      obtain ⟨next, hnext, hrest⟩ := Option.bind_eq_some_iff.1 h
      have hdirectory := (enter_eq_some hnext).1
      have hlocation : system.node? location = some .directory := by
        by_cases heq : location = other
        · rw [heq, ← hplace, ← heq, hdirectory]
        · exact hclosed.directory_above ⟨_, habove.symm⟩ heq hthere
      have henter : system.enter location part = some next := by
        simpa only [enter, hlocation, hdirectory] using hnext
      refine Option.bind_eq_some_iff.2 ⟨next, henter, ih (fun hmem => hstraight ?_) hrest⟩
      exact ((List.sublist_cons_self part rest).filter _).subset hmem

theorem Closed.lookup?_eq (hclosed : system.Closed) (hstraight : ".." ∉ names path)
    (hworking : changed.workingDirectory = system.workingDirectory)
    (hplace : changed.node? (system.place path) = system.node? (system.place path))
    {node : Node} (h : changed.lookup? path = some node) : system.lookup? path = some node := by
  obtain ⟨location, hlocation, hnode⟩ := Option.bind_eq_some_iff.1 h
  have hstart : changed.startOf path = system.startOf path := by
    rw [startOf, startOf, hworking]
  obtain rfl : location = system.place path := by
    rw [eq_place_of_locate? hlocation, place, place, hstart]
  rw [hplace] at hnode
  refine Option.bind_eq_some_iff.2 ⟨system.place path, ?_, hnode⟩
  rw [locate?] at hlocation ⊢
  split at hlocation
  next husable =>
      rw [hstart] at hlocation
      rw [if_pos husable]
      exact hclosed.foldlM_enter hstraight hplace (by simp [hnode]) hlocation
  next => cases hlocation

end FileSystem

end ActionsWorkflow.Storage
