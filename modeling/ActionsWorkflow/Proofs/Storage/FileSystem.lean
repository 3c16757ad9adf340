import ActionsWorkflow.Storage.FileSystem
import Mathlib.Tactic.ByContra

/-!
# What changes in a file system

Where a path leads depends on the directories alone.  So a path leads to the same place
whatever files come, change and go, and a path that leads somewhere still does when more
directories are made.
-/

namespace ActionsWorkflow.Storage.FileSystem

variable {system changed later : FileSystem} {location : Location}

theorem ne_root_of_node? (h : system.node? location ≠ some .directory) : location ≠ [] := by
  rintro rfl
  exact h rfl

theorem not_directory_of_vacant (h : system.node? location = none) :
    system.node? location ≠ some .directory := by
  simp [h]

theorem node?_erase (h : location ≠ []) (other : Location) :
    (system.erase location).node? other =
      if other = location then none else system.node? other := by
  by_cases hother : other = location
  · subst hother
    simp [node?, erase, h]
  · simp only [node?, erase, List.find?_filter, hother, if_false]
    congr 3
    funext entry
    by_cases hentry : entry.1 = other <;> simp [hentry, hother]

theorem node?_put (h : location ≠ []) (node : Node) (other : Location) :
    (system.put location node).node? other =
      if other = location then some node else system.node? other := by
  by_cases hother : other = location
  · subst hother
    simp [node?, put, h]
  · have herase : (system.erase location).node? other = system.node? other := by
      rw [node?_erase h, if_neg hother]
    have hne : location ≠ other := fun heq => hother heq.symm
    rw [if_neg hother, ← herase]
    simp [node?, put, hne]

theorem put_put (location : Location) (first second : Node) :
    (system.put location first).put location second = system.put location second := by
  simp [put, erase, List.filter_filter]

theorem erase_put_of_vacant (h : system.node? location = none) (node : Node) :
    (system.put location node).erase location = system := by
  have hroot := ne_root_of_node? (not_directory_of_vacant h)
  have hkeys : ∀ entry ∈ system.nodes, entry.1 ≠ location := by
    simpa [node?, hroot] using h
  have hnodes : system.nodes.filter (fun entry => entry.1 ≠ location) = system.nodes :=
    List.filter_eq_self.2 (by simpa using hkeys)
  simp only [put, erase, hnodes, List.filter_cons, ne_eq, not_true_eq_false, decide_false,
    Bool.false_eq_true, if_false]

/-! ## Paths -/

structure SameDirectories (system changed : FileSystem) : Prop where
  workingDirectory : changed.workingDirectory = system.workingDirectory
  directories : ∀ location,
    changed.node? location = some .directory ↔ system.node? location = some .directory

theorem SameDirectories.locate?_eq (h : SameDirectories system changed) (path : String) :
    changed.locate? path = system.locate? path := by
  have henter : changed.enter = system.enter := by
    funext location part
    simp only [enter, ne_eq, h.directories]
  simp only [locate?, startOf, henter, h.workingDirectory]

theorem sameDirectories_put (h : system.node? location ≠ some .directory) (text : String) :
    SameDirectories system (system.put location (.file text)) := by
  refine ⟨rfl, fun other => ?_⟩
  rw [node?_put (ne_root_of_node? h)]
  split
  next heq =>
      subst heq
      simp [h]
  next => rfl

/-- What stood there still does, and nothing new stands there but a directory. -/
structure GrownAt (system changed : FileSystem) (location : Location) : Prop where
  keeps : ∀ node, system.node? location = some node → changed.node? location = some node
  files : ∀ text, changed.node? location = some (.file text) →
    system.node? location = some (.file text)

namespace GrownAt

theorem of_node?_eq (h : changed.node? location = system.node? location) :
    GrownAt system changed location :=
  ⟨fun _ => h.trans, fun _ => h.symm.trans⟩

theorem trans (first : GrownAt system changed location)
    (second : GrownAt changed later location) : GrownAt system later location :=
  ⟨fun node hnode => second.keeps node (first.keeps node hnode),
    fun text htext => first.files text (second.files text htext)⟩

end GrownAt

structure Grown (system changed : FileSystem) : Prop where
  workingDirectory : changed.workingDirectory = system.workingDirectory
  grownAt : ∀ location, GrownAt system changed location

namespace Grown

theorem refl (system : FileSystem) : Grown system system :=
  ⟨rfl, fun _ => .of_node?_eq rfl⟩

theorem trans (first : Grown system changed) (second : Grown changed later) :
    Grown system later :=
  ⟨second.workingDirectory.trans first.workingDirectory,
    fun location => (first.grownAt location).trans (second.grownAt location)⟩

theorem put_directory (h : system.node? location = none) :
    Grown system (system.put location .directory) := by
  have hroot := ne_root_of_node? (not_directory_of_vacant h)
  refine ⟨rfl, fun other => ?_⟩
  by_cases hother : other = location
  · subst hother
    exact ⟨fun node hnode => by simp [h] at hnode, fun text htext => by
      simp [node?_put hroot] at htext⟩
  · exact .of_node?_eq (by rw [node?_put hroot, if_neg hother])

theorem enter_eq_some (h : Grown system changed) {part : String} {next : Location}
    (hnext : system.enter location part = some next) :
    changed.enter location part = some next := by
  have hdirectory : system.node? location = some .directory := by
    by_contra hnot
    simp [enter, hnot] at hnext
  have hchanged := (h.grownAt location).keeps .directory hdirectory
  simpa only [enter, hdirectory, hchanged] using hnext

theorem foldlM_enter_eq_some (h : Grown system changed) {parts : List String}
    {target : Location} (htarget : parts.foldlM system.enter location = some target) :
    parts.foldlM changed.enter location = some target := by
  induction parts generalizing location with
  | nil => exact htarget
  | cons part rest ih =>
      obtain ⟨next, hnext, hrest⟩ := Option.bind_eq_some_iff.1 htarget
      exact Option.bind_eq_some_iff.2 ⟨next, h.enter_eq_some hnext, ih hrest⟩

theorem locate?_eq_some (h : Grown system changed) {path : String}
    (hlocation : system.locate? path = some location) :
    changed.locate? path = some location := by
  simp only [locate?, startOf, h.workingDirectory] at hlocation ⊢
  split at hlocation
  next husable =>
      rw [if_pos husable]
      exact h.foldlM_enter_eq_some hlocation
  next => cases hlocation

theorem lookup?_eq_some (h : Grown system changed) {path : String} {node : Node}
    (hnode : system.lookup? path = some node) : changed.lookup? path = some node := by
  obtain ⟨location, hlocation, hfound⟩ := Option.bind_eq_some_iff.1 hnode
  exact Option.bind_eq_some_iff.2
    ⟨location, h.locate?_eq_some hlocation, (h.grownAt location).keeps node hfound⟩

end Grown

theorem grown_makeDirectoriesFrom (system : FileSystem) (location : Location)
    (parts : List String) : Grown system (system.makeDirectoriesFrom location parts).2 := by
  induction parts generalizing system location with
  | nil => exact .refl system
  | cons part rest ih =>
      rw [makeDirectoriesFrom]
      split
      · exact .refl system
      next next _ =>
        split
        · exact ih system next
        · exact .refl system
        next hvacant => exact (Grown.put_directory hvacant).trans (ih _ next)

theorem grown_makeDirectoriesAlong (system : FileSystem) (path : String)
    (walked : List String) : Grown system (system.makeDirectoriesAlong path walked).2 := by
  rw [makeDirectoriesAlong]
  split
  · exact grown_makeDirectoriesFrom system _ walked
  · exact .refl system

end ActionsWorkflow.Storage.FileSystem
