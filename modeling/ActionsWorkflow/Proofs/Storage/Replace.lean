import ActionsWorkflow.Proofs.Storage.Place

/-!
# What replacing a file leaves behind

Apart from directories made for the target, a replacement that fails leaves no trace,
wherever it fails and whatever was done by then; one that succeeds leaves the new text at
the target and nothing else.
-/

namespace ActionsWorkflow.Storage

open FileSystem

variable {faults : List Fault} {system ready : FileSystem} {file target content : String}
  {place location : Location}

theorem Disk.bind_apply {α β : Type} (action : Disk α) (next : α → Disk β)
    (faults : List Fault) (system : FileSystem) :
    (action >>= next) faults system =
      next (action faults system).1 faults (action faults system).2 := rfl

theorem Disk.pure_apply {α : Type} (value : α) (faults : List Fault) (system : FileSystem) :
    (pure value : Disk α) faults system = (value, system) := rfl

/-- Directories may have been made on the way, unless `directory` was there. -/
structure Prepared (directory : String) (system ready : FileSystem) : Prop where
  grown : Grown system ready
  made : ∀ location, ready.node? location ≠ system.node? location →
    Leads (names directory) (system.startOf directory) location
  present : (system.lookup? directory).isSome = true → ready = system

theorem prepared_ensureDirectory (directory : String) (faults : List Fault)
    (system : FileSystem) :
    Prepared directory system (ensureDirectory (m := Disk) directory faults system).2 := by
  have hpresent : isPresent (m := Disk) directory faults system =
      ((system.lookup? directory).isSome, system) := rfl
  rw [ensureDirectory, Disk.bind_apply, hpresent]
  by_cases hlookup : (system.lookup? directory).isSome = true
  · rw [if_pos hlookup]
    exact ⟨.refl system, fun _ h => absurd rfl h, fun _ => rfl⟩
  · rw [if_neg hlookup]
    simp only [createDirectories, makeDirectories]
    split
    next walked _ =>
        exact ⟨grown_makeDirectoriesAlong system directory _,
          fun _ => leads_of_makeDirectoriesAlong (List.take_prefix walked _),
          fun h => absurd h hlookup⟩
    next =>
        exact ⟨grown_makeDirectoriesAlong system directory _,
          fun _ => leads_of_makeDirectoriesAlong (List.prefix_refl _),
          fun h => absurd h hlookup⟩

/-! ## The temporary file -/

theorem exists_place_of_makeTemporary {directory : String} {changed : FileSystem}
    (h : ready.makeTemporary directory = some (file, changed)) :
    ∃ place, ready.locate? file = some place ∧ ready.node? place = none ∧
      changed = ready.put place (.file "") := by
  obtain ⟨_, -, hopened⟩ := Option.bind_eq_some_iff.1 h
  obtain ⟨place, hplace, hopened⟩ := Option.bind_eq_some_iff.1 hopened
  split at hopened
  next hvacant =>
      obtain ⟨rfl, rfl⟩ := Prod.mk.inj (Option.some.inj hopened)
      exact ⟨place, hplace, hvacant, rfl⟩
  next => cases hopened

theorem createTemporary_outcome (directory : String) (faults : List Fault)
    (ready : FileSystem) :
    createTemporary (m := Disk) directory faults ready = (none, ready) ∨
    ∃ file place, ready.locate? file = some place ∧ ready.node? place = none ∧
      createTemporary (m := Disk) directory faults ready =
        (some file, ready.put place (.file "")) := by
  simp only [createTemporary]
  split
  · exact .inl rfl
  split
  · exact .inl rfl
  next file _ hopened =>
    obtain ⟨place, hplace, hvacant, rfl⟩ := exists_place_of_makeTemporary hopened
    exact .inr ⟨file, place, hplace, hvacant, rfl⟩

section
variable (hfile : ready.locate? file = some place) (hvacant : ready.node? place = none)

include hvacant in
theorem locate?_beside_temporary (text path : String) :
    (ready.put place (.file text)).locate? path = ready.locate? path :=
  (sameDirectories_put (not_directory_of_vacant hvacant) text).locate?_eq path

include hvacant in
theorem node?_temporary (text : String) :
    (ready.put place (.file text)).node? place = some (.file text) := by
  rw [node?_put (ne_root_of_node? (not_directory_of_vacant hvacant)), if_pos rfl]

include hfile hvacant in
theorem writeFile_temporary (text content : String) :
    (ready.put place (.file text)).writeFile file content =
      (true, ready.put place (.file content)) := by
  simp only [writeFile, locate?_beside_temporary hvacant, hfile, node?_temporary hvacant,
    put_put]

include hfile hvacant in
theorem removeFile_temporary (text : String) :
    (ready.put place (.file text)).removeFile file = ready := by
  simp only [removeFile, locate?_beside_temporary hvacant, hfile, erase_put_of_vacant hvacant]

include hfile hvacant in
theorem renameFile_temporary (htarget : ready.locate? target = some location)
    (hfree : ready.node? location ≠ some .directory) :
    (ready.put place (.file content)).renameFile file target =
      (true, ready.put location (.file content)) := by
  have hsame := sameDirectories_put (not_directory_of_vacant hvacant) content
  have hstill : (ready.put place (.file content)).node? location ≠ some .directory :=
    fun hdirectory => hfree ((hsame.directories location).1 hdirectory)
  simp only [renameFile, locate?_beside_temporary hvacant, hfile, htarget,
    node?_temporary hvacant, erase_put_of_vacant hvacant]

include hfile hvacant in
theorem renameFile_temporary_refused (text : String)
    (hblocked : ∀ location, ready.locate? target = some location →
      ready.node? location = some .directory) :
    (ready.put place (.file text)).renameFile file target =
      (false, ready.put place (.file text)) := by
  have hsame := sameDirectories_put (not_directory_of_vacant hvacant) text
  cases htarget : ready.locate? target with
  | none => simp only [renameFile, locate?_beside_temporary hvacant, hfile, htarget]
  | some location =>
      have hdirectory := (hsame.directories location).2 (hblocked location htarget)
      simp only [renameFile, locate?_beside_temporary hvacant, hfile, htarget, hdirectory]

theorem findSome?_written?_eq_none_iff :
    faults.findSome? Fault.written? = none ↔ ∀ written, .write written ∉ faults := by
  rw [List.findSome?_eq_none_iff]
  constructor
  · intro h written hmem
    exact absurd (h _ hmem) (by simp [Fault.written?])
  · intro h fault hmem
    cases fault with
    | write written => exact absurd hmem (h written)
    | _ => rfl

structure Installable (faults : List Fault) (ready : FileSystem) (target : String)
    (location : Location) : Prop where
  written : ∀ written, .write written ∉ faults
  synced : .sync ∉ faults
  renamed : .rename ∉ faults
  leads : ready.locate? target = some location
  free : ready.node? location ≠ some .directory

include hfile hvacant in
theorem write_temporary (h : ∀ written, .write written ∉ faults) (content : String) :
    write (m := Disk) file content faults (ready.put place (.file "")) =
      (true, ready.put place (.file content)) := by
  simp only [write, findSome?_written?_eq_none_iff.2 h, writeFile_temporary hfile hvacant]

theorem sync_apply (faults : List Fault) (system : FileSystem) :
    sync (m := Disk) file faults system = (!faults.contains .sync, system) := rfl

include hfile hvacant in
theorem install_eq (h : Installable faults ready target location) (content : String) :
    install (m := Disk) file target content faults (ready.put place (.file "")) =
      (true, ready.put location (.file content)) := by
  have hwrite := write_temporary hfile hvacant h.written content
  have hrename : rename (m := Disk) file target faults (ready.put place (.file content)) =
      (true, ready.put location (.file content)) := by
    simp [rename, h.renamed, renameFile_temporary hfile hvacant h.leads h.free]
  simp [install, Disk.bind_apply, hwrite, sync_apply, h.synced, hrename]

include hfile hvacant in
theorem install_stuck (h : ∀ location, ¬ Installable faults ready target location)
    (content : String) :
    ∃ text, install (m := Disk) file target content faults (ready.put place (.file "")) =
      (false, ready.put place (.file text)) := by
  cases hfault : faults.findSome? Fault.written? with
  | some written =>
      have hwrite : write (m := Disk) file content faults (ready.put place (.file "")) =
          (false, ready.put place (.file (String.ofList (content.toList.take written)))) := by
        simp only [write, hfault, writeFile_temporary hfile hvacant]
      refine ⟨String.ofList (content.toList.take written), ?_⟩
      simp [install, Disk.bind_apply, hwrite, Disk.pure_apply]
  | none =>
      have hwritten := findSome?_written?_eq_none_iff.1 hfault
      have hwrite := write_temporary hfile hvacant hwritten content
      refine ⟨content, ?_⟩
      by_cases hsync : .sync ∈ faults
      · simp [install, Disk.bind_apply, hwrite, sync_apply, hsync, Disk.pure_apply]
      have hrename : rename (m := Disk) file target faults (ready.put place (.file content)) =
          (false, ready.put place (.file content)) := by
        by_cases hrenamed : .rename ∈ faults
        · simp [rename, hrenamed]
        have hblocked : ∀ location, ready.locate? target = some location →
            ready.node? location = some .directory := by
          intro location hleads
          by_contra hfree
          exact h location ⟨hwritten, hsync, hrenamed, hleads, hfree⟩
        simp [rename, hrenamed, renameFile_temporary_refused hfile hvacant content hblocked]
      simp [install, Disk.bind_apply, hwrite, sync_apply, hsync, hrename]

end

/-! ## Replacing -/

/-- No step of replacing the file at `target` fails: its directory is there or is made, and
the temporary file next to it is opened, filled and moved. -/
structure Replaceable (faults : List Fault) (system ready : FileSystem) (target : String)
    (location : Location) : Prop where
  directory : ensureDirectory (m := Disk) (parentDirectory target) faults system = (true, ready)
  opened : (createTemporary (m := Disk) (parentDirectory target) faults ready).1.isSome = true
  installable : Installable faults ready target location

theorem replaceFile_eq (h : Replaceable faults system ready target location)
    (content : String) :
    replaceFile (m := Disk) target content faults system =
      (true, ready.put location (.file content)) := by
  rcases createTemporary_outcome (parentDirectory target) faults ready with hnone |
    ⟨file, place, hfile, hvacant, htemporary⟩
  · exact absurd h.opened (by simp [hnone])
  · simp [replaceFile, Disk.bind_apply, Disk.pure_apply, h.directory, htemporary,
      install_eq hfile hvacant h.installable]

theorem replaceFile_stuck
    (h : ∀ ready location, ¬ Replaceable faults system ready target location)
    (content : String) :
    replaceFile (m := Disk) target content faults system =
      (false, (ensureDirectory (m := Disk) (parentDirectory target) faults system).2) := by
  rw [replaceFile, Disk.bind_apply]
  cases hdirectory : ensureDirectory (m := Disk) (parentDirectory target) faults system with
  | mk made ready =>
      cases made with
      | false => rfl
      | true =>
          simp only [if_true, Disk.bind_apply]
          rcases createTemporary_outcome (parentDirectory target) faults ready with hnone |
            ⟨file, place, hfile, hvacant, htemporary⟩
          · simp [hnone, Disk.pure_apply]
          · have hstuck : ∀ location, ¬ Installable faults ready target location :=
              fun location hinstallable =>
                h ready location ⟨hdirectory, by simp [htemporary], hinstallable⟩
            obtain ⟨text, hinstall⟩ := install_stuck hfile hvacant hstuck content
            have hremove : remove (m := Disk) file faults (ready.put place (.file text)) =
                ((), ready) :=
              congrArg (Prod.mk ()) (removeFile_temporary hfile hvacant text)
            simp only [htemporary, Disk.bind_apply, hinstall, Bool.false_eq_true, if_false,
              hremove, Disk.pure_apply]

def CanReplace (faults : List Fault) (system : FileSystem) (target : String) : Prop :=
  ∃ ready location, Replaceable faults system ready target location

/-- What stood at a location still does.  Nothing new stands there but a directory, and that
only if the way to the directory of the target comes by. -/
structure KeptAt (target : String) (system after : FileSystem) (location : Location) : Prop
    extends GrownAt system after location where
  unpassed : ¬ system.Passes target location → after.node? location = system.node? location

structure Replaced (target content : String) (system after : FileSystem) : Prop where
  leads : after.locate? target = some (system.place target)
  holds : after.node? (system.place target) = some (.file content)
  elsewhere : ∀ location ≠ system.place target, KeptAt target system after location

/-- Nothing is new but directories, and if the directory of the target was there, nothing
is new at all.  The target leads to where it led before and holds what it held.  If nothing
stood at its place, nothing does unless the path itself comes by that place, and if the path
never goes up, it leads to what it led to before, be it something or nothing. -/
structure Kept (target : String) (system after : FileSystem) : Prop where
  everywhere : ∀ location, KeptAt target system after location
  leads : ∀ location, system.locate? target = some location →
    after.locate? target = some location
  holds : ∀ node, system.lookup? target = some node → after.lookup? target = some node
  absent : system.node? (system.place target) = none →
    ¬ system.Passes target (system.place target) →
      after.node? (system.place target) = none ∧ after.lookup? target = none
  straight : ".." ∉ names target →
    after.node? (system.place target) = system.node? (system.place target) ∧
      (system.Closed → after.lookup? target = system.lookup? target)
  present : (system.lookup? (parentDirectory target)).isSome = true → after = system

section
variable (h : Prepared (parentDirectory target) system ready)

include h

theorem Prepared.keptAt (location : Location) : KeptAt target system ready location where
  toGrownAt := h.grown.grownAt location
  unpassed := by
    intro hpasses
    by_contra hchanged
    exact hpasses (passes_of_leads_parentDirectory (h.made location hchanged))

theorem Prepared.eq_place (hlocation : ready.locate? target = some location) :
    location = system.place target := by
  rw [eq_place_of_locate? hlocation, place, place, startOf, startOf, h.grown.workingDirectory]

theorem Prepared.lookup?_eq_none (hvacant : ready.node? (system.place target) = none) :
    ready.lookup? target = none := by
  rw [lookup?, Option.bind_eq_none_iff]
  intro location hlocation
  rwa [h.eq_place hlocation]

theorem Prepared.lookup?_eq (hclosed : system.Closed) (hstraight : ".." ∉ names target)
    (hplace : ready.node? (system.place target) = system.node? (system.place target)) :
    ready.lookup? target = system.lookup? target := by
  cases hbefore : system.lookup? target with
  | some node => exact h.grown.lookup?_eq_some hbefore
  | none =>
      rw [Option.eq_none_iff_forall_ne_some]
      intro node hafter
      have hnode := hclosed.lookup?_eq hstraight h.grown.workingDirectory hplace hafter
      rw [hbefore] at hnode
      cases hnode

theorem Prepared.kept : Kept target system ready where
  everywhere := h.keptAt
  leads _ := h.grown.locate?_eq_some
  holds _ := h.grown.lookup?_eq_some
  absent hvacant hpasses := by
    have hplace := (h.keptAt _).unpassed hpasses
    rw [hvacant] at hplace
    exact ⟨hplace, h.lookup?_eq_none hplace⟩
  straight hstraight := by
    have hplace := (h.keptAt _).unpassed (not_passes_place hstraight)
    exact ⟨hplace, fun hclosed => h.lookup?_eq hclosed hstraight hplace⟩
  present := h.present

end

theorem Replaceable.replaced (h : Replaceable faults system ready target location)
    (content : String) :
    Replaced target content system (ready.put location (.file content)) := by
  have hfree := h.installable.free
  have hroot := ne_root_of_node? hfree
  have hprepared := prepared_ensureDirectory (parentDirectory target) faults system
  rw [h.directory] at hprepared
  obtain rfl := hprepared.eq_place h.installable.leads
  refine ⟨?leads, ?holds, fun other hother => ?elsewhere⟩
  case leads =>
    rw [(sameDirectories_put hfree content).locate?_eq]
    exact h.installable.leads
  case holds => rw [node?_put hroot, if_pos rfl]
  case elsewhere =>
    have hsame : (ready.put (system.place target) (.file content)).node? other =
        ready.node? other := by
      rw [node?_put hroot, if_neg hother]
    have hkept := hprepared.keptAt other
    exact ⟨hkept.toGrownAt.trans (.of_node?_eq hsame), fun hpasses =>
      hsame.trans (hkept.unpassed hpasses)⟩

theorem replaceFile_outcome (target content : String) (faults : List Fault)
    (system : FileSystem) :
    (CanReplace faults system target ∧ ∃ after,
      replaceFile (m := Disk) target content faults system = (true, after) ∧
      Replaced target content system after) ∨
    (¬ CanReplace faults system target ∧ ∃ after,
      replaceFile (m := Disk) target content faults system = (false, after) ∧
      Kept target system after) := by
  by_cases h : CanReplace faults system target
  · obtain ⟨ready, location, hreplaceable⟩ := h
    exact .inl ⟨⟨ready, location, hreplaceable⟩, _, replaceFile_eq hreplaceable content,
      hreplaceable.replaced content⟩
  · have hstuck : ∀ ready location, ¬ Replaceable faults system ready target location :=
      fun ready location hreplaceable => h ⟨ready, location, hreplaceable⟩
    exact .inr ⟨h, _, replaceFile_stuck hstuck content,
      (prepared_ensureDirectory (parentDirectory target) faults system).kept⟩

example : (replaceFile (m := Disk) "out/ci.yml" "name: CI" [] {}).2.nodes =
    [(["out", "ci.yml"], .file "name: CI"), (["out"], .directory)] := by decide +kernel

example : (replaceFile (m := Disk) "out/ci.yml" "name: CI" [.write 4] {}).2.nodes =
    [(["out"], .directory)] := by decide +kernel

end ActionsWorkflow.Storage
