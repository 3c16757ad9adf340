import ActionsWorkflow.Proofs.Decoding.Workflow
import ActionsWorkflow.Proofs.Text.Pattern

/-!
# Lists of names in documents

Wherever the document of an accepted workflow has a list of names, the list has some and none
of them is blank.  The labels beside a runner group are the one exception: they are written
as they are, so they list names exactly if the workflow came with labels that do.
-/

namespace ActionsWorkflow

theorem isWhiteSpace_eq_false_of_between {c : Char} (hlow : 'A' ≤ c) (hhigh : c ≤ 'z') :
    Text.isWhiteSpace c = false := by
  have hlow : 65 ≤ c.toNat := hlow
  have hhigh : c.toNat ≤ 122 := hhigh
  simp only [Text.isWhiteSpace, Bool.or_eq_false_iff, Bool.and_eq_false_iff,
    decide_eq_false_iff_not, beq_eq_false_iff_ne]
  omega

theorem exists_between_of_mem_jobIdStart {text : List Char}
    (h : text ∈ Format.jobIdStart.language) : ∃ c, text = [c] ∧ 'A' ≤ c ∧ c ≤ 'z' := by
  rcases h with ⟨c, rfl, hc⟩ | ⟨c, rfl, hc⟩ | ⟨c, rfl, hc⟩
  all_goals
    simp only [Text.CharClass.contains, List.contains_cons, List.contains_nil, Bool.or_false,
      beq_iff_eq, Bool.and_eq_true, decide_eq_true_eq] at hc
  · subst hc
    exact ⟨'_', rfl, by decide, by decide⟩
  · exact ⟨c, rfl, Char.le_trans (by decide) hc.1, hc.2⟩
  · exact ⟨c, rfl, hc.1, Char.le_trans hc.2 (by decide)⟩

theorem not_blank_of_accepts_jobId {text : String} (h : Format.jobId.accepts text = true) :
    ¬ Blank text := by
  rw [Format.accepts, Text.Pattern.accepts_iff_mem_language] at h
  obtain ⟨front, hfront, back, -, htext⟩ := Language.mem_mul.1 h
  obtain ⟨c, rfl, hlow, hhigh⟩ := exists_between_of_mem_jobIdStart hfront
  have hmem : c ∈ text.toList := htext ▸ List.mem_append_left back List.mem_cons_self
  intro hblank
  have hspace := hblank c hmem
  rw [isWhiteSpace_eq_false_of_between hlow hhigh] at hspace
  cases hspace

theorem JobSettings.Valid.validNames_needs {settings : JobSettings} (h : settings.Valid)
    (hneeds : settings.needs ≠ []) : ValidNames settings.needs :=
  ⟨hneeds, fun need hneed => not_blank_of_accepts_jobId (h.needs need hneed)⟩

theorem PullRequestActivity.not_blank_name (activity : PullRequestActivity) :
    ¬ Blank activity.name := by
  rw [← isBlank_iff]
  cases activity <;> decide

/-! ## Documents that list names -/

namespace Document

/-- A sequence has some items, all of them texts that are not blank. -/
def ListsNames : Document → Prop
  | .sequence items => items ≠ [] ∧ ∀ item ∈ items, ∃ name, item = .text name ∧ ¬ Blank name
  | _ => True

theorem listsNames_list_iff {α : Type} [ToDocument α] {values : List α} :
    (toDocument values).ListsNames ↔
      values ≠ [] ∧
        ∀ value ∈ values, ∃ name, toDocument value = .text name ∧ ¬ Blank name := by
  change (values.map toDocument ≠ [] ∧ ∀ item ∈ values.map toDocument, _) ↔ _
  rw [List.forall_mem_map, ne_eq, List.map_eq_nil_iff]

theorem listsNames_names_iff {names : List String} :
    (toDocument names).ListsNames ↔ ValidNames names := by
  rw [listsNames_list_iff, ValidNames]
  simp [toDocument]

def FieldsListNames (document : Document) : Prop :=
  ∀ name node, document.field? name = some node → node.ListsNames

def EntryListsNames (entry : String × Option Document) : Prop :=
  ∀ node ∈ entry.2, node.ListsNames

theorem fieldsListNames_record {fields : List (String × Option Document)}
    (h : ∀ field ∈ fields, EntryListsNames field) : (record fields).FieldsListNames := by
  intro name node hnode
  rw [field?_record] at hnode
  obtain ⟨field, hfield, hvalue⟩ := exists_field_of_valueOf? hnode
  exact h field hfield node hvalue

theorem entryListsNames_optionalEntry {α : Type} [ToDocument α] {name : String}
    {value? : Option α} (h : ∀ value ∈ value?, (toDocument value).ListsNames) :
    EntryListsNames (optionalEntry name value?) := by
  intro node hnode
  obtain ⟨value, hvalue, rfl⟩ := Option.map_eq_some_iff.1 hnode
  exact h value hvalue

theorem entryListsNames_names {name : String} {names? : Option (List String)}
    (h : ∀ names ∈ names?, ValidNames names) : EntryListsNames (optionalEntry name names?) :=
  entryListsNames_optionalEntry fun names hnames => listsNames_names_iff.2 (h names hnames)

theorem entryListsNames_table {α : Type} [ToDocument α] {name : String}
    {table? : Option (Table α)} : EntryListsNames (optionalEntry name table?) :=
  entryListsNames_optionalEntry fun _ _ => trivial

end Document

open Document

theorem NameFilter.Valid.entryListsNames {filter : NameFilter} (h : filter.Valid)
    {name : String} : ∀ field ∈ filter.fields name, EntryListsNames field := by
  rw [NameFilter.fields, List.forall_mem_cons, List.forall_mem_singleton]
  exact ⟨entryListsNames_names h.included, entryListsNames_names h.ignored⟩

theorem PushFilters.Valid.fieldsListNames {filters : PushFilters} (h : filters.Valid) :
    (toDocument filters).FieldsListNames := by
  refine fieldsListNames_record ?_
  rw [List.forall_mem_append, List.forall_mem_append]
  exact ⟨⟨h.branches.entryListsNames, h.tags.entryListsNames⟩, h.paths.entryListsNames⟩

theorem PullRequestFilters.Valid.fieldsListNames {filters : PullRequestFilters}
    (h : filters.Valid) : (toDocument filters).FieldsListNames := by
  have htypes : EntryListsNames (optionalEntry "types" filters.types) := by
    refine entryListsNames_optionalEntry fun types htypes => listsNames_list_iff.2 ?_
    exact ⟨h.types types htypes, fun activity _ => ⟨_, rfl, activity.not_blank_name⟩⟩
  refine fieldsListNames_record ?_
  rw [List.forall_mem_append, List.forall_mem_cons]
  exact ⟨⟨htypes, h.branches.entryListsNames⟩, h.paths.entryListsNames⟩

theorem Trigger.Valid.fieldsListNames {trigger : Trigger} (h : trigger.Valid) :
    (toDocument trigger).FieldsListNames := by
  cases trigger with
  | push filters => exact PushFilters.Valid.fieldsListNames h
  | pullRequest filters => exact PullRequestFilters.Valid.fieldsListNames h
  | pullRequestTarget filters => exact PullRequestFilters.Valid.fieldsListNames h
  | manual inputs =>
      exact fieldsListNames_record (List.forall_mem_singleton.2 entryListsNames_table)
  | schedule crons =>
      intro name node hnode
      cases hnode
  | workflowCall inputs secrets =>
      refine fieldsListNames_record ?_
      rw [List.forall_mem_cons, List.forall_mem_singleton]
      exact ⟨entryListsNames_table, entryListsNames_table⟩
  | activity event types workflows =>
      obtain ⟨htypes, -, hworkflows⟩ := h
      refine fieldsListNames_record ?_
      rw [List.forall_mem_cons, List.forall_mem_singleton]
      exact ⟨entryListsNames_names htypes, entryListsNames_names hworkflows⟩

def Trigger.inputs? : Trigger → Option (Table Input)
  | .manual inputs => inputs
  | .workflowCall inputs _ => inputs
  | _ => none

theorem field?_inputs_trigger (trigger : Trigger) :
    (toDocument trigger).field? "inputs" = trigger.inputs?.map toDocument := by
  cases trigger with
  | schedule crons => rfl
  | _ =>
      change (record _).field? "inputs" = _
      simp [Trigger.inputs?, NameFilter.fields]

theorem Trigger.Valid.inputs {trigger : Trigger} (h : trigger.Valid) :
    ∀ inputs ∈ trigger.inputs?, ValidInputs inputs := by
  cases trigger with
  | manual inputs => exact h
  | workflowCall inputs secrets => exact h.1
  | _ => exact fun _ hinputs => nomatch hinputs

theorem field?_options_input (input : Input) :
    (toDocument input).field? "options" = input.options.map toDocument := by
  change (record _).field? "options" = _
  simp

namespace RunsOn

def groupLabels? : RunsOn → Option (List String)
  | .group _ labels? => labels?
  | _ => none

theorem Valid.listsNames {runner : RunsOn} (h : runner.Valid) :
    (toDocument runner).ListsNames := by
  cases runner with
  | labels names => exact listsNames_names_iff.2 h
  | label => trivial
  | group => trivial

theorem field?_labels (runner : RunsOn) :
    (toDocument runner).field? "labels" = runner.groupLabels?.map toDocument := by
  cases runner with
  | group name labels =>
      change (record _).field? "labels" = _
      simp [groupLabels?]
  | _ => rfl

end RunsOn

namespace JobEntry

def runsOn? : JobEntry → Option RunsOn
  | .run job => some job.runsOn
  | .call _ => none

def groupLabels? (entry : JobEntry) : Option (List String) :=
  entry.runsOn?.bind RunsOn.groupLabels?

theorem Valid.runsOn {entry : JobEntry} (h : entry.Valid) :
    ∀ runner ∈ entry.runsOn?, runner.Valid := by
  cases entry with
  | run job =>
      rintro _ ⟨⟩
      exact Job.Valid.runsOn h
  | call => exact fun _ hrunner => nomatch hrunner

theorem field?_runsOn (entry : JobEntry) :
    (toDocument entry).field? "runs-on" = entry.runsOn?.map toDocument := by
  cases entry <;>
    change (record _).field? "runs-on" = _ <;> simp [JobSettings.startFields, runsOn?]

theorem field?_needs (entry : JobEntry) :
    (toDocument entry).field? "needs" =
      (if entry.needs.isEmpty then none else some entry.needs).map toDocument := by
  cases entry <;>
    change (record _).field? "needs" = _ <;>
    simp [JobSettings.startFields, needs, settings]

theorem Valid.listsNames_needs {entry : JobEntry} (h : entry.Valid) {node : Document}
    (hnode : (toDocument entry).field? "needs" = some node) : node.ListsNames := by
  rw [field?_needs] at hnode
  split at hnode
  next => cases hnode
  next hneeds =>
      cases hnode
      have hnonempty : entry.needs ≠ [] := by simpa using hneeds
      exact listsNames_names_iff.2 (h.settings.validNames_needs hnonempty)

theorem Valid.listsNames_runsOn {entry : JobEntry} (h : entry.Valid) {node : Document}
    (hnode : (toDocument entry).field? "runs-on" = some node) : node.ListsNames := by
  rw [field?_runsOn] at hnode
  obtain ⟨runner, hrunner, rfl⟩ := Option.map_eq_some_iff.1 hnode
  exact (h.runsOn runner hrunner).listsNames

theorem resolve_labels (entry : JobEntry) :
    (toDocument entry).resolve [.key "runs-on", .key "labels"] =
      entry.groupLabels?.map toDocument := by
  rw [groupLabels?, resolve, child?, field?_runsOn]
  cases entry.runsOn? <;> simp [resolve, child?, RunsOn.field?_labels]

end JobEntry

/-! ## Places of names -/

theorem Trigger.Valid.listsNames_options {trigger : Trigger} (h : trigger.Valid)
    {node : Document} {input : String}
    (hnode : (toDocument trigger).resolve [.key "inputs", .key input, .key "options"] =
      some node) : node.ListsNames := by
  simp only [resolve_key_eq_some_iff, field?_inputs_trigger, Option.map_eq_some_iff,
    resolve_nil] at hnode
  obtain ⟨_, ⟨inputs, hinputs, rfl⟩, _, hinput, _, hoptions, ⟨⟩⟩ := hnode
  rw [field?_table] at hinput
  obtain ⟨value, hvalue, rfl⟩ := Option.map_eq_some_iff.1 hinput
  rw [field?_options_input] at hoptions
  obtain ⟨options, hset, rfl⟩ := Option.map_eq_some_iff.1 hoptions
  have hvalid := (h.inputs inputs hinputs _ (inputs.get?_eq_some_iff.1 hvalue)).2
  exact listsNames_names_iff.2 (hvalid.options options hset)

namespace Workflow

variable {workflow : Workflow} {node : Document}

/-- Where a workflow may have a list of names, the labels beside a runner group apart.  Of the
fields of an event, each that is a sequence is a list of names. -/
inductive NamePlace : List Segment → Prop
  | needs (job : String) : NamePlace [.key "jobs", .key job, .key "needs"]
  | labels (job : String) : NamePlace [.key "jobs", .key job, .key "runs-on"]
  | filter (event name : String) : NamePlace [.key "on", .key event, .key name]
  | options (event input : String) :
      NamePlace [.key "on", .key event, .key "inputs", .key input, .key "options"]

def groupLabelsPlace (job : String) : List Segment :=
  [.key "jobs", .key job, .key "runs-on", .key "labels"]

theorem Valid.listsNames (h : workflow.Valid) {place : List Segment} (hplace : NamePlace place)
    (hnode : (toDocument workflow).resolve place = some node) : node.ListsNames := by
  cases hplace with
  | needs job =>
      obtain ⟨entry, hentry, hnode⟩ := resolve_jobs_eq_some_iff.1 hnode
      obtain ⟨_, hfield, ⟨⟩⟩ := resolve_key_eq_some_iff.1 hnode
      exact (h.jobs _ hentry).2.listsNames_needs hfield
  | labels job =>
      obtain ⟨entry, hentry, hnode⟩ := resolve_jobs_eq_some_iff.1 hnode
      obtain ⟨_, hfield, ⟨⟩⟩ := resolve_key_eq_some_iff.1 hnode
      exact (h.jobs _ hentry).2.listsNames_runsOn hfield
  | filter event name =>
      obtain ⟨trigger, htrigger, hnode⟩ := exists_trigger_of_resolve_on hnode
      obtain ⟨_, hfield, ⟨⟩⟩ := resolve_key_eq_some_iff.1 hnode
      exact (h.header.triggers trigger htrigger).fieldsListNames name _ hfield
  | options event input =>
      obtain ⟨trigger, htrigger, hnode⟩ := exists_trigger_of_resolve_on hnode
      exact (h.header.triggers trigger htrigger).listsNames_options hnode

theorem resolve_groupLabelsPlace_eq_some_iff {job : String} :
    (toDocument workflow).resolve (groupLabelsPlace job) = some node ↔
      ∃ entry, (job, entry) ∈ workflow.jobs.entries ∧
        ∃ labels ∈ entry.groupLabels?, toDocument labels = node := by
  simp only [groupLabelsPlace, resolve_jobs_eq_some_iff, JobEntry.resolve_labels,
    Option.map_eq_some_iff, Option.mem_def]

theorem listsNames_groupLabelsPlace_iff :
    (∀ job node, (toDocument workflow).resolve (groupLabelsPlace job) = some node →
      node.ListsNames) ↔
    ∀ job ∈ workflow.jobs.entries, ∀ labels ∈ job.2.groupLabels?, ValidNames labels := by
  simp only [resolve_groupLabelsPlace_eq_some_iff, ← listsNames_names_iff]
  constructor
  · intro h job hjob labels hlabels
    exact h job.1 _ ⟨job.2, hjob, labels, hlabels, rfl⟩
  · rintro h job _ ⟨entry, hentry, labels, hlabels, rfl⟩
    exact h (job, entry) hentry labels hlabels

/-- Every list of names in the document of an accepted workflow has some names and no blank
one, except that the labels beside a runner group are as good as they came. -/
theorem toYaml_listsNames {workflow : Workflow} {text : String}
    (haccepted : workflow.toYaml = .ok text) :
    (∀ place node, NamePlace place → (toDocument workflow).resolve place = some node →
      node.ListsNames) ∧
    ((∀ job node, (toDocument workflow).resolve (groupLabelsPlace job) = some node →
        node.ListsNames) ↔
      ∀ job ∈ workflow.jobs.entries, ∀ labels ∈ job.2.groupLabels?, ValidNames labels) := by
  obtain ⟨⟨plan, hplan⟩, -⟩ := toYaml_eq_ok_iff.1 haccepted
  exact ⟨fun _ _ hplace hnode => (valid_of_plan hplan).listsNames hplace hnode,
    listsNames_groupLabelsPlace_iff⟩

def testThenPackage : Workflow where
  name := "Package"
  on := [
    .push { branches := { included := some ["main"] } },
    .pullRequest { types := some [.opened], paths := { ignored := some ["docs/**"] } },
    .manual (some ⟨[("channel",
      { description := "Where to", type := some .choice, options := some ["beta"] })],
      by decide⟩),
    .activity .workflowRun (some ["completed"]) (some ["CI"])]
  jobs := ⟨[("test", .run
      { runsOn := .labels ["self-hosted", "linux"]
        steps := [{ action := .run "make test" none none }] }),
    ("package", .run
      { runsOn := .group "large" (some ["linux"])
        needs := ["test"]
        steps := [{ action := .run "make" none none }] })], by decide⟩

theorem toYaml_listsNames_testThenPackage :
    testThenPackage.toYaml = .ok (Yaml.render (toDocument testThenPackage)) ∧
    (toDocument testThenPackage).resolve (groupLabelsPlace "package") =
      some (.sequence [.text "linux"]) ∧
    (∀ place node, NamePlace place →
      (toDocument testThenPackage).resolve place = some node → node.ListsNames) ∧
    ∀ job node, (toDocument testThenPackage).resolve (groupLabelsPlace job) = some node →
      node.ListsNames := by
  have hplan : testThenPackage.plan = .ok ⟨1, ["test", "package"]⟩ := rfl
  have haccepted := toYaml_eq_ok_iff.2 ⟨⟨_, hplan⟩, rfl⟩
  obtain ⟨hplaces, hlabels⟩ := toYaml_listsNames haccepted
  refine ⟨haccepted, rfl, hplaces, hlabels.2 ?_⟩
  intro job hjob labels hset
  simp only [testThenPackage, List.mem_cons, List.not_mem_nil, or_false] at hjob
  rcases hjob with rfl | rfl
  · cases hset
  · cases hset
    have hchecked : checkNames .root ["linux"] = .ok () := rfl
    exact checkNames_eq_ok_iff.1 hchecked

def onLargeRunners : Workflow where
  name := "CI"
  on := [.push {}]
  jobs := ⟨[("test", .run
    { runsOn := .group "large" (some [])
      steps := [{ action := .run "make test" none none }] })], by decide⟩

theorem toYaml_accepts_empty_groupLabels :
    onLargeRunners.toYaml = .ok (Yaml.render (toDocument onLargeRunners)) ∧
    (toDocument onLargeRunners).resolve (groupLabelsPlace "test") = some (.sequence []) ∧
    ¬ (Document.sequence []).ListsNames := by
  have hplan : onLargeRunners.plan = .ok ⟨0, ["test"]⟩ := rfl
  refine ⟨toYaml_eq_ok_iff.2 ⟨⟨_, hplan⟩, rfl⟩, rfl, fun hlists => ?_⟩
  exact hlists.1 rfl

end Workflow

end ActionsWorkflow
