import ActionsWorkflow.Proofs.Text.Pattern
import ActionsWorkflow.Proofs.Validity.Rule

/-!
# Formats of text fields

Job ids, expressions, mounts and references to workflows are described once more, by what
their texts look like and without patterns.  The rule of each format accepts exactly these
texts and reports any other one where it stands.
-/

namespace ActionsWorkflow.Format

open Text.Pattern

def IsJobId (text : List Char) : Prop :=
  ∃ first rest, text = first :: rest ∧ (first.isAlpha = true ∨ first = '_') ∧
    ∀ c ∈ rest, c.isAlphanum = true ∨ c = '_' ∨ c = '-'

def IsExpression (text : List Char) : Prop :=
  "$\x7b\x7b".toList <+: text ∧ "\x7d\x7d".toList <:+ text.drop 3

def IsVolume (text : List Char) : Prop :=
  text.count ':' = 1 ∧ text.head? ≠ some ':' ∧ text.getLast? ≠ some ':'

def HasDirectory (text : List Char) : Prop :=
  ∃ front ≠ [], ∃ back ≠ [], front ++ '/' :: back = text

/-- A file below some directory, on one line and with an optional version behind it. -/
def IsWorkflowReference (text : List Char) : Prop :=
  '\n' ∉ text ∧ ∃ file ending version, HasDirectory file ∧
    ending ∈ [".yml".toList, ".yaml".toList] ∧
    (version = [] ∨ ∃ name ≠ [], version = '@' :: name) ∧ file ++ ending ++ version = text

variable {text : List Char}

theorem contains_between_iff {c low high : Char} :
    (Text.CharClass.between low high).contains c = true ↔ low ≤ c ∧ c ≤ high := by
  simp [Text.CharClass.contains]

theorem contains_anyOf_iff {c : Char} {chars : List Char} :
    (Text.CharClass.anyOf chars).contains c = true ↔ c ∈ chars := by
  simp [Text.CharClass.contains]

theorem contains_noneOf_iff {c : Char} {chars : List Char} :
    (Text.CharClass.noneOf chars).contains c = true ↔ c ∉ chars := by
  simp [Text.CharClass.contains]

theorem describesChars_asciiLetter :
    asciiLetter.DescribesChars fun c => c.isAlpha = true := by
  refine (describesChars_one.alt describesChars_one).congr fun c => ?_
  delta Char.isAlpha Char.isUpper Char.isLower
  simp [contains_between_iff, Char.le_def, or_comm]

theorem describesChars_jobIdStart :
    jobIdStart.DescribesChars fun c => c.isAlpha = true ∨ c = '_' := by
  refine (describesChars_one.alt describesChars_asciiLetter).congr fun c => ?_
  simp [contains_anyOf_iff, or_comm]

theorem describesChars_jobIdRest :
    jobIdRest.DescribesChars fun c => c.isAlphanum = true ∨ c = '_' ∨ c = '-' := by
  have hdigits : (Text.Pattern.one (.between '0' '9')).DescribesChars
      fun c => c.isDigit = true := describesChars_one.congr fun c => by
    simp [contains_between_iff, Char.isDigit, Char.le_def]
  refine (describesChars_asciiLetter.alt
    (hdigits.alt (describesChars_one.alt describesChars_never))).congr fun c => ?_
  simp [contains_anyOf_iff, Char.isAlphanum, or_assoc]

theorem mem_language_jobId_iff : text ∈ jobId.pattern.language ↔ IsJobId text := by
  rw [jobId, mem_language_seq_iff]
  constructor
  · rintro ⟨start, hstart, rest, hrest, rfl⟩
    obtain ⟨first, rfl, hfirst⟩ := (describesChars_jobIdStart start).1 hstart
    exact ⟨first, rest, rfl, hfirst, describesChars_jobIdRest.mem_language_star_iff.1 hrest⟩
  · rintro ⟨first, rest, rfl, hfirst, hrest⟩
    exact ⟨[first], (describesChars_jobIdStart _).2 ⟨first, rfl, hfirst⟩, rest,
      describesChars_jobIdRest.mem_language_star_iff.2 hrest, rfl⟩

theorem mem_language_expression_iff : text ∈ expression.pattern.language ↔ IsExpression text := by
  have hany (middle : List Char) : middle ∈ (Text.Pattern.star anyChar).language := by
    simp [anyChar, mem_language_star_one_iff, contains_noneOf_iff]
  simp only [expression, mem_language_sequence_cons_iff, mem_language_sequence_nil_iff,
    mem_language_literal_iff, hany, true_and]
  constructor
  · rintro ⟨_, rfl, _, ⟨middle, _, ⟨_, rfl, _, rfl, rfl⟩, rfl⟩, rfl⟩
    exact ⟨⟨_, rfl⟩, middle, by simp⟩
  · rintro ⟨⟨rest, rfl⟩, middle, hmiddle⟩
    have hrest : middle ++ "\x7d\x7d".toList = rest := hmiddle
    exact ⟨_, rfl, rest, ⟨middle, _, ⟨_, rfl, [], rfl, rfl⟩, by simpa using hrest⟩, rfl⟩

theorem isVolume_iff :
    IsVolume text ↔ ∃ front, (front ≠ [] ∧ ':' ∉ front) ∧ ∃ back, (back ≠ [] ∧ ':' ∉ back) ∧
      front ++ ':' :: back = text := by
  constructor
  · rintro ⟨hcount, hhead, hlast⟩
    have hmem : ':' ∈ text := List.count_pos_iff.1 (by omega)
    obtain ⟨front, back, rfl⟩ := List.append_of_mem hmem
    rw [List.count_append, List.count_cons_self] at hcount
    have hfront : front ≠ [] := by
      rintro rfl
      exact hhead rfl
    have hback : back ≠ [] := by
      rintro rfl
      exact hlast List.getLast?_concat
    exact ⟨front, ⟨hfront, List.count_eq_zero.1 (by omega)⟩, back,
      ⟨hback, List.count_eq_zero.1 (by omega)⟩, rfl⟩
  · rintro ⟨front, ⟨hfront, hleft⟩, back, ⟨hback, hright⟩, rfl⟩
    refine ⟨?_, ?_, ?_⟩
    · simp [List.count_eq_zero.2 hleft, List.count_eq_zero.2 hright]
    · rw [List.head?_append_of_ne_nil front hfront]
      exact fun hhead => hleft (List.mem_of_head? hhead)
    · rw [List.getLast?_append_of_ne_nil front (List.cons_ne_nil _ _),
        List.getLast?_cons_of_ne_nil hback]
      exact fun hlast => hright (List.mem_of_getLast? hlast)

theorem mem_language_without_iff {c : Char} :
    text ∈ (Text.Pattern.plus (.one (.noneOf [c]))).language ↔ text ≠ [] ∧ c ∉ text := by
  simp only [mem_language_plus_one_iff, contains_noneOf_iff, List.mem_singleton,
    List.forall_mem_ne']

theorem mem_language_volume_iff : text ∈ volume.pattern.language ↔ IsVolume text := by
  rw [isVolume_iff]
  simp only [volume, mem_language_sequence_cons_iff, mem_language_sequence_nil_iff,
    mem_language_literal_iff, mem_language_without_iff]
  simp

/-! ## References to workflows -/

abbrev directories : Text.Pattern := .plus (.seq visible (.literal "/"))

theorem exists_front_of_mem_directories (h : text ∈ directories.language) :
    ∃ front ≠ [], front ++ ['/'] = text := by
  obtain ⟨parts, hne, hparts, rfl⟩ := mem_language_plus_iff.1 h
  obtain ⟨earlier, last, rfl⟩ := List.eq_nil_or_concat' parts |>.resolve_left hne
  have hlast := hparts last (by simp)
  obtain ⟨name, hname, _, hslash, rfl⟩ := mem_language_seq_iff.1 hlast
  rw [mem_language_literal_iff] at hslash
  have hname := (mem_language_without_iff.1 hname).1
  exact ⟨earlier.flatten ++ name, by simp [hname], by simp [hslash]⟩

theorem mem_directories {front : List Char} (hne : front ≠ []) (hline : '\n' ∉ front) :
    front ++ ['/'] ∈ directories.language := by
  refine mem_language_plus_iff.2 ⟨[front ++ ['/']], by simp, ?_, by simp⟩
  rw [List.forall_mem_singleton, mem_language_seq_iff]
  exact ⟨front, mem_language_without_iff.2 ⟨hne, hline⟩, ['/'], mem_language_literal_iff.2 rfl,
    rfl⟩

theorem mem_language_version_iff {version : List Char} (hline : '\n' ∉ version) :
    version ∈ (Text.Pattern.optional (.seq (.literal "@") visible)).language ↔
      version = [] ∨ ∃ name ≠ [], version = '@' :: name := by
  rw [mem_language_optional_iff, mem_language_seq_iff, or_comm]
  simp only [mem_language_literal_iff, visible, mem_language_without_iff]
  refine or_congr_right ⟨?_, ?_⟩
  · rintro ⟨_, rfl, name, ⟨hname, -⟩, rfl⟩
    exact ⟨name, hname, rfl⟩
  · rintro ⟨name, hname, rfl⟩
    exact ⟨_, rfl, name, ⟨hname, List.not_mem_of_not_mem_cons hline⟩, rfl⟩

theorem exists_letter_iff {ending : List Char} :
    (∃ letter ∈ (Text.Pattern.optional (.literal "a")).language,
      ".y".toList ++ letter ++ "ml".toList = ending) ↔
      ending ∈ [".yml".toList, ".yaml".toList] := by
  simp [mem_language_optional_iff, mem_language_literal_iff, or_comm, eq_comm]

theorem mem_language_workflowReference_parts :
    text ∈ workflowReference.pattern.language ↔
      ∃ folder ∈ directories.language, ∃ name letter version, name ∈ visible.language ∧
        letter ∈ (Text.Pattern.optional (.literal "a")).language ∧
        version ∈ (Text.Pattern.optional (.seq (.literal "@") visible)).language ∧
        folder ++ (name ++ (".y".toList ++ letter ++ "ml".toList) ++ version) = text := by
  simp only [workflowReference, mem_language_sequence_cons_iff, mem_language_sequence_nil_iff,
    mem_language_literal_iff]
  simp [and_assoc]

theorem mem_language_workflowReference_iff :
    text ∈ workflowReference.pattern.language ↔ IsWorkflowReference text := by
  constructor
  · intro h
    have hline : '\n' ∉ text := not_mem_of_mem_language (by decide) h
    obtain ⟨_, hfolder, name, letter, version, hname, hletter, hversion, rfl⟩ :=
      mem_language_workflowReference_parts.1 h
    obtain ⟨front, hfront, rfl⟩ := exists_front_of_mem_directories hfolder
    have hname := (mem_language_without_iff.1 hname).1
    have hversion := (mem_language_version_iff fun hmem => hline (by simp [hmem])).1 hversion
    exact ⟨hline, front ++ '/' :: name, _, version, ⟨front, hfront, name, hname, rfl⟩,
      exists_letter_iff.1 ⟨letter, hletter, rfl⟩, hversion, by simp⟩
  · rintro ⟨hline, _, ending, version, ⟨front, hfront, name, hname, rfl⟩, hending, hversion, rfl⟩
    obtain ⟨letter, hletter, rfl⟩ := exists_letter_iff.2 hending
    simp only [List.mem_append, List.mem_cons, not_or] at hline
    obtain ⟨⟨⟨hfrontLine, -, hnameLine⟩, -⟩, hversionLine⟩ := hline
    exact mem_language_workflowReference_parts.2 ⟨front ++ ['/'],
      mem_directories hfront hfrontLine, name, letter, version,
      mem_language_without_iff.2 ⟨hname, hnameLine⟩, hletter,
      (mem_language_version_iff hversionLine).2 hversion, by simp⟩

/-! ## Rules -/

/-- The rule of the format accepts these texts and reports any other as a mismatch. -/
def Recognizes (format : Format) (described : List Char → Prop) : Prop :=
  ∀ path text,
    (checkFormat format path text = .ok () ↔ described text.toList) ∧
    (checkFormat format path text = .error ⟨path, .mismatch text format.shown⟩ ↔
      ¬ described text.toList)

theorem recognizes_of_mem_language_iff {format : Format} {described : List Char → Prop}
    (h : ∀ {text}, text ∈ format.pattern.language ↔ described text) :
    format.Recognizes described := by
  intro path text
  have haccepts : format.accepts text = true ↔ described text.toList := by
    rw [accepts, accepts_iff_mem_language, h]
  rw [checkFormat_eq_ok_iff, ← haccepts]
  by_cases h : format.accepts text = true <;> simp [checkFormat, h, violate]

/-- Four of the formats stand for the texts described above. -/
theorem formats_recognize :
    jobId.Recognizes IsJobId ∧ expression.Recognizes IsExpression ∧
      volume.Recognizes IsVolume ∧ workflowReference.Recognizes IsWorkflowReference :=
  ⟨recognizes_of_mem_language_iff mem_language_jobId_iff,
    recognizes_of_mem_language_iff mem_language_expression_iff,
    recognizes_of_mem_language_iff mem_language_volume_iff,
    recognizes_of_mem_language_iff mem_language_workflowReference_iff⟩

example : expression.accepts "$\x7b\x7b\x7d" = false := by decide

end ActionsWorkflow.Format
