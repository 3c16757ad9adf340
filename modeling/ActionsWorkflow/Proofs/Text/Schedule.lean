import ActionsWorkflow.Proofs.Text.Pattern
import ActionsWorkflow.Proofs.Validity.Rule

/-!
# Schedules

A schedule has five fields, and a space may stand behind each of them.  As it may be missing
too, what stands between two spaces need not be one field: any number of fields can be run
together there, and a text is accepted if it holds five of them in all.
-/

namespace ActionsWorkflow.Schedule

open Text.Pattern

def IsNumber (text : List Char) : Prop :=
  text ≠ [] ∧ ∀ c ∈ text, Text.isDecimalDigit c = true

/-- Two or more numbers with commas between them. -/
inductive IsNumberList : List Char → Prop
  | pair {first last : List Char} (hfirst : IsNumber first) (hlast : IsNumber last) :
      IsNumberList (first ++ ',' :: last)
  | cons {first rest : List Char} (hfirst : IsNumber first) (hrest : IsNumberList rest) :
      IsNumberList (first ++ ',' :: rest)

def IsStep (text : List Char) : Prop :=
  ∃ first, (IsNumber first ∨ first = ['*']) ∧ ∃ width, IsNumber width ∧
    first ++ '/' :: width = text

def IsNumberRange (text : List Char) : Prop :=
  ∃ first, IsNumber first ∧ ∃ last, IsNumber last ∧ first ++ '-' :: last = text

def IsNameOrRange (names : List String) (text : List Char) : Prop :=
  ∃ first ∈ names, text = first.toList ∨
    ∃ last ∈ names, text = first.toList ++ '-' :: last.toList

def months : List String :=
  ["JAN", "FEB", "MAR", "APR", "MAY", "JUN", "JUL", "AUG", "SEP", "OCT", "NOV", "DEC"]

def weekdays : List String := ["MON", "TUE", "WED", "THU", "FRI", "SAT", "SUN"]

inductive IsField (text : List Char) : Prop
  | numberList (h : IsNumberList text)
  | step (h : IsStep text)
  | months (h : IsNameOrRange months text)
  | numberRange (h : IsNumberRange text)
  | number (h : IsNumber text)
  | any (h : text = ['*'])
  | weekdays (h : IsNameOrRange weekdays text)

variable {text : List Char}

theorem mem_language_number_iff : text ∈ Format.scheduleNumber.language ↔ IsNumber text :=
  mem_language_plus_one_iff

theorem isNumberList_of_parts {parts : List (List Char)} {last : List Char} (hne : parts ≠ [])
    (hparts : ∀ part ∈ parts, ∃ number, IsNumber number ∧ number ++ [','] = part)
    (hlast : IsNumber last) : IsNumberList (parts.flatten ++ last) := by
  induction parts with
  | nil => exact absurd rfl hne
  | cons part parts ih =>
      obtain ⟨⟨number, hnumber, rfl⟩, hrest⟩ := List.forall_mem_cons.1 hparts
      rw [List.flatten_cons, List.append_assoc, List.append_assoc, List.singleton_append]
      by_cases hnil : parts = []
      · subst hnil
        exact .pair hnumber hlast
      · exact .cons hnumber (ih hnil hrest)

theorem IsNumberList.exists_parts (h : IsNumberList text) :
    ∃ parts ≠ [], (∀ part ∈ parts, ∃ number, IsNumber number ∧ number ++ [','] = part) ∧
      ∃ last, IsNumber last ∧ parts.flatten ++ last = text := by
  induction h with
  | @pair first last hfirst hlast =>
      exact ⟨[first ++ [',']], by simp, List.forall_mem_singleton.2 ⟨first, hfirst, rfl⟩,
        last, hlast, by simp⟩
  | @cons first rest hfirst hrest ih =>
      obtain ⟨parts, -, hparts, last, hlast, rfl⟩ := ih
      exact ⟨(first ++ [',']) :: parts, by simp,
        List.forall_mem_cons.2 ⟨⟨first, hfirst, rfl⟩, hparts⟩, last, hlast, by simp⟩

theorem mem_language_numberList_iff :
    text ∈ (Text.Pattern.seq (.plus (.seq Format.scheduleNumber (.literal ",")))
      Format.scheduleNumber).language ↔ IsNumberList text := by
  have hpart (part : List Char) :
      part ∈ (Text.Pattern.seq Format.scheduleNumber (.literal ",")).language ↔
        ∃ number, IsNumber number ∧ number ++ [','] = part := by
    simp [mem_language_seq_iff, mem_language_literal_iff, mem_language_number_iff]
  rw [mem_language_seq_iff]
  simp only [mem_language_plus_iff, hpart, mem_language_number_iff]
  constructor
  · rintro ⟨_, ⟨parts, hne, hparts, rfl⟩, last, hlast, rfl⟩
    exact isNumberList_of_parts hne hparts hlast
  · intro h
    obtain ⟨parts, hne, hparts, last, hlast, htext⟩ := h.exists_parts
    exact ⟨parts.flatten, ⟨parts, hne, hparts, rfl⟩, last, hlast, htext⟩

theorem mem_language_step_iff :
    text ∈ (Text.Pattern.sequence [.alt Format.scheduleNumber (.literal "*"), .literal "/",
      Format.scheduleNumber]).language ↔ IsStep text := by
  have hfirst (first : List Char) :
      first ∈ (Text.Pattern.alt Format.scheduleNumber (.literal "*")).language ↔
        IsNumber first ∨ first = ['*'] := by
    rw [language, Language.mem_add, mem_language_number_iff, mem_language_literal_iff]
    rfl
  simp only [mem_language_sequence_cons_iff, mem_language_sequence_nil_iff, hfirst,
    mem_language_literal_iff, mem_language_number_iff]
  simp [IsStep]

theorem mem_language_numberRange_iff :
    text ∈ (Text.Pattern.sequence [Format.scheduleNumber, .literal "-",
      Format.scheduleNumber]).language ↔ IsNumberRange text := by
  simp only [mem_language_sequence_cons_iff, mem_language_sequence_nil_iff,
    mem_language_literal_iff, mem_language_number_iff]
  simp [IsNumberRange]

theorem mem_language_nameOrRange_iff {names : List String} :
    text ∈ (Format.nameOrRange names).language ↔ IsNameOrRange names text := by
  have hname (word : List Char) :
      word ∈ (Text.Pattern.oneOf (names.map .literal)).language ↔
        ∃ name ∈ names, word = name.toList := by
    simp [mem_language_oneOf_iff, mem_language_literal_iff]
  simp only [Format.nameOrRange, mem_language_seq_iff, mem_language_optional_iff, hname,
    mem_language_literal_iff, IsNameOrRange]
  constructor
  · rintro ⟨_, ⟨first, hfirst, rfl⟩, _, ⟨_, rfl, _, ⟨last, hlast, rfl⟩, rfl⟩ | rfl, rfl⟩
    · exact ⟨first, hfirst, .inr ⟨last, hlast, rfl⟩⟩
    · exact ⟨first, hfirst, .inl (List.append_nil _)⟩
  · rintro ⟨first, hfirst, rfl | ⟨last, hlast, rfl⟩⟩
    · exact ⟨_, ⟨first, hfirst, rfl⟩, [], .inr rfl, List.append_nil _⟩
    · exact ⟨_, ⟨first, hfirst, rfl⟩, _, .inl ⟨_, rfl, _, ⟨last, hlast, rfl⟩, rfl⟩, rfl⟩

theorem mem_language_field_iff : text ∈ Format.scheduleField.language ↔ IsField text := by
  simp only [Format.scheduleField, mem_language_oneOf_iff, List.exists_mem_cons_iff,
    mem_language_numberList_iff, mem_language_step_iff, mem_language_nameOrRange_iff,
    mem_language_numberRange_iff, mem_language_number_iff, mem_language_literal_iff]
  constructor
  · rintro (h | h | h | h | h | h | h | ⟨_, hnil, _⟩)
    · exact .numberList h
    · exact .step h
    · exact .months h
    · exact .numberRange h
    · exact .number h
    · exact .any h
    · exact .weekdays h
    · cases hnil
  · intro h
    cases h with
    | numberList h => exact .inl h
    | step h => exact .inr (.inl h)
    | months h => exact .inr (.inr (.inl h))
    | numberRange h => exact .inr (.inr (.inr (.inl h)))
    | number h => exact .inr (.inr (.inr (.inr (.inl h))))
    | any h => exact .inr (.inr (.inr (.inr (.inr (.inl h)))))
    | weekdays h => exact .inr (.inr (.inr (.inr (.inr (.inr (.inl h))))))

instance : DecidablePred IsField := fun text =>
  decidable_of_iff (Format.scheduleField.accepts text = true) <| by
    rw [accepts_iff_mem_language, mem_language_field_iff]

theorem IsField.ne_nil (h : IsField text) : text ≠ [] := by
  rintro rfl
  have hnullable := nil_mem_language_iff.1 (mem_language_field_iff.2 h)
  cases hnullable

theorem IsField.space_not_mem (h : IsField text) : ' ' ∉ text :=
  not_mem_of_mem_language (by decide) (mem_language_field_iff.2 h)

/-! ## Fields between spaces -/

def withoutLastSpace (text : List Char) : List Char :=
  if text.getLast? = some ' ' then text.dropLast else text

/-- What stands between the spaces of a text, one space at its end left out. -/
def fields (text : List Char) : List (List Char) := (withoutLastSpace text).splitOn ' '

/-- `count` fields stand in the given places, one or more of them run together in each. -/
inductive Packed : Nat → List (List Char) → Prop
  | single {field : List Char} (hfield : IsField field) : Packed 1 [field]
  | apart {count : Nat} {field : List Char} {places : List (List Char)}
      (hfield : IsField field) (hplaces : Packed count places) :
      Packed (count + 1) (field :: places)
  | together {count : Nat} {field place : List Char} {places : List (List Char)}
      (hfield : IsField field) (hplaces : Packed count (place :: places)) :
      Packed (count + 1) ((field ++ place) :: places)

namespace Packed

variable {count : Nat} {places : List (List Char)}

theorem ne_nil (h : Packed count places) : places ≠ [] := by
  cases h <;> exact List.cons_ne_nil _ _

theorem place_ne_nil (h : Packed count places) : ∀ place ∈ places, place ≠ [] := by
  induction h with
  | single hfield => exact List.forall_mem_singleton.2 hfield.ne_nil
  | apart hfield hplaces ih => exact List.forall_mem_cons.2 ⟨hfield.ne_nil, ih⟩
  | together hfield hplaces ih =>
      refine List.forall_mem_cons.2 ⟨?_, (List.forall_mem_cons.1 ih).2⟩
      exact List.append_ne_nil_of_left_ne_nil hfield.ne_nil _

theorem length_le (h : Packed count places) : places.length ≤ count := by
  induction h with
  | single hfield => rfl
  | apart hfield hplaces ih => exact Nat.succ_le_succ ih
  | together hfield hplaces ih => exact Nat.le_succ_of_le ih

theorem isField_of_length_eq (h : Packed count places) (hlength : places.length = count) :
    ∀ place ∈ places, IsField place := by
  induction h with
  | single hfield => exact List.forall_mem_singleton.2 hfield
  | apart hfield hplaces ih =>
      exact List.forall_mem_cons.2 ⟨hfield, ih (Nat.succ.inj hlength)⟩
  | together hfield hplaces ih =>
      have hle := hplaces.length_le
      simp only [List.length_cons] at hle hlength
      omega

theorem of_isField (hne : places ≠ []) (hplaces : ∀ place ∈ places, IsField place) :
    Packed places.length places := by
  induction places with
  | nil => exact absurd rfl hne
  | cons field places ih =>
      obtain ⟨hfield, hrest⟩ := List.forall_mem_cons.1 hplaces
      by_cases hnil : places = []
      · subst hnil
        exact .single hfield
      · exact .apart hfield (ih hnil hrest)

end Packed

/-! ## Acceptance -/

section
variable {front rest : List Char}

theorem withoutLastSpace_append (hrest : rest ≠ []) :
    withoutLastSpace (front ++ rest) = front ++ withoutLastSpace rest := by
  rw [withoutLastSpace, withoutLastSpace, List.getLast?_append_of_ne_nil front hrest,
    List.dropLast_append_of_ne_nil hrest]
  split <;> rfl

theorem fields_append (hfront : ' ' ∉ front) (hrest : rest ≠ []) :
    fields (front ++ rest) = (fields rest).modifyHead (front ++ ·) := by
  rw [fields, fields, withoutLastSpace_append hrest]
  clear hrest
  induction front with
  | nil => exact (congrFun List.modifyHead_id _).symm
  | cons c front ih =>
      obtain ⟨hc, hfront⟩ := List.ne_and_not_mem_of_not_mem_cons hfront
      have hother : ¬ (c == ' ') = true := by simpa using hc.symm
      rw [List.cons_append, List.splitOn_cons_eq_if_modifyHead, if_neg hother, ih hfront,
        List.modifyHead_modifyHead]
      rfl

theorem fields_append_space (hfront : ' ' ∉ front) (hrest : rest ≠ []) :
    fields (front ++ ' ' :: rest) = front :: fields rest := by
  have hspace : withoutLastSpace ([' '] ++ rest) = [' '] ++ withoutLastSpace rest :=
    withoutLastSpace_append hrest
  rw [List.singleton_append, List.singleton_append] at hspace
  rw [fields, withoutLastSpace_append (List.cons_ne_nil _ _), hspace,
    List.splitOn_append_cons_self_of_not_mem hfront, fields]

theorem fields_of_space_not_mem (hfront : ' ' ∉ front) : fields front = [front] := by
  have hlast : front.getLast? ≠ some ' ' := fun hlast => hfront (List.mem_of_getLast? hlast)
  rw [fields, withoutLastSpace, if_neg hlast, List.splitOn_eq_singleton hfront]

theorem fields_concat_space (hfront : ' ' ∉ front) : fields (front ++ [' ']) = [front] := by
  rw [fields, withoutLastSpace, if_pos List.getLast?_concat, List.dropLast_concat,
    List.splitOn_eq_singleton hfront]

end

theorem exists_intercalate_fields (text : List Char) :
    ∃ last ∈ [[], [' ']], [' '].intercalate (fields text) ++ last = text := by
  rw [fields, List.intercalate_splitOn, withoutLastSpace]
  split
  next hlast => exact ⟨[' '], by simp, List.dropLast_append_getLast? ' ' hlast⟩
  next => exact ⟨[], by simp, List.append_nil text⟩

abbrev slot : Text.Pattern := .seq Format.scheduleField (.optional (.literal " "))

theorem mem_language_slot_iff :
    text ∈ slot.language ↔
      ∃ field, IsField field ∧ ∃ last ∈ [[], [' ']], field ++ last = text := by
  simp only [slot, mem_language_seq_iff, mem_language_optional_iff, mem_language_literal_iff,
    mem_language_field_iff]
  simp [or_comm]

theorem packed_of_mem_language {count : Nat}
    (h : text ∈ (Text.Pattern.times (count + 1) slot).language) :
    Packed (count + 1) (fields text) := by
  induction count generalizing text with
  | zero =>
      obtain ⟨part, hpart, _, rfl, rfl⟩ := mem_language_times_succ_iff.1 h
      obtain ⟨field, hfield, last, hlast, rfl⟩ := mem_language_slot_iff.1 hpart
      have hfields : fields (field ++ last ++ []) = [field] := by
        rw [List.append_nil]
        rcases List.mem_pair.1 hlast with rfl | rfl
        · rw [List.append_nil, fields_of_space_not_mem hfield.space_not_mem]
        · exact fields_concat_space hfield.space_not_mem
      exact hfields ▸ .single hfield
  | succ count ih =>
      obtain ⟨part, hpart, rest, hrest, rfl⟩ := mem_language_times_succ_iff.1 h
      obtain ⟨field, hfield, last, hlast, rfl⟩ := mem_language_slot_iff.1 hpart
      have hpacked := ih hrest
      have hne : rest ≠ [] := by
        rintro rfl
        exact hpacked.place_ne_nil [] (List.mem_singleton_self []) rfl
      rcases List.mem_pair.1 hlast with rfl | rfl
      · obtain ⟨place, places, hplaces⟩ := List.exists_cons_of_ne_nil hpacked.ne_nil
        rw [List.append_nil, fields_append hfield.space_not_mem hne, hplaces]
        exact .together hfield (hplaces ▸ hpacked)
      · rw [List.append_assoc, List.singleton_append,
          fields_append_space hfield.space_not_mem hne]
        exact .apart hfield hpacked

theorem Packed.mem_language {count : Nat} {places : List (List Char)}
    (h : Packed count places) {last : List Char} (hlast : last ∈ [[], [' ']]) :
    [' '].intercalate places ++ last ∈ (Text.Pattern.times count slot).language := by
  induction h with
  | @single field hfield =>
      rw [List.intercalate_singleton]
      refine mem_language_times_succ_iff.2 ⟨_, ?_, [], rfl, List.append_nil _⟩
      exact mem_language_slot_iff.2 ⟨field, hfield, last, hlast, rfl⟩
  | @apart count field places hfield hplaces ih =>
      refine mem_language_times_succ_iff.2 ⟨field ++ [' '], ?_, _, ih, ?_⟩
      · exact mem_language_slot_iff.2 ⟨field, hfield, [' '], by simp, rfl⟩
      · rw [List.intercalate_cons_of_ne_nil hplaces.ne_nil, List.append_assoc _ _ last]
  | @together count field place places hfield hplaces ih =>
      refine mem_language_times_succ_iff.2 ⟨field, ?_, _, ih, ?_⟩
      · exact mem_language_slot_iff.2 ⟨field, hfield, [], by simp, List.append_nil _⟩
      · cases places <;> simp

theorem mem_language_slots_iff {count : Nat} :
    text ∈ (Text.Pattern.times (count + 1) slot).language ↔ Packed (count + 1) (fields text) := by
  constructor
  · exact packed_of_mem_language
  · intro h
    obtain ⟨last, hlast, htext⟩ := exists_intercalate_fields text
    exact htext ▸ h.mem_language hlast

theorem accepts_schedule_iff {text : String} :
    Format.schedule.accepts text = true ↔ Packed 5 (fields text.toList) := by
  rw [Format.accepts, accepts_iff_mem_language]
  exact mem_language_slots_iff

/-- Fields are accepted with a space between any two of them, and one more may stand at the
end.  The forms of the fields do not matter, nor does their order. -/
theorem checkFormat_schedule_joined (path : Path) {values : List String}
    (hlength : values.length = 5) (hvalues : ∀ value ∈ values, IsField value.toList)
    {ending : String} (hending : ending ∈ ["", " "]) :
    checkFormat Format.schedule path (" ".intercalate values ++ ending) = .ok () := by
  have hplaces : Packed (values.map String.toList).length (values.map String.toList) := by
    refine .of_isField ?_ (by simpa using hvalues)
    exact List.ne_nil_of_length_eq_add_one (by simpa using hlength)
  have hlast : ending.toList ∈ [[], [' ']] := by
    rcases List.mem_pair.1 hending with rfl | rfl <;> simp
  have hmem := hplaces.mem_language hlast
  rw [List.length_map, hlength] at hmem
  rw [checkFormat_eq_ok_iff, Format.accepts, accepts_iff_mem_language, String.toList_append,
    String.toList_intercalate]
  exact hmem

def quarterHours : List String := ["*/15", "5,17", "1-15", "JAN-MAR", "MON"]

theorem checkFormat_schedule_joined_quarterHours :
    quarterHours.length = 5 ∧ (∀ value ∈ quarterHours, IsField value.toList) ∧
    " " ∈ ["", " "] ∧
    checkFormat Format.schedule .root (" ".intercalate quarterHours ++ " ") = .ok () := by
  have hvalues : ∀ value ∈ quarterHours, IsField value.toList := by decide
  have hending : " " ∈ ["", " "] := by decide
  exact ⟨rfl, hvalues, hending, checkFormat_schedule_joined .root rfl hvalues hending⟩

/-- Five fields, each in a place of its own. -/
def HasFiveFields (text : String) : Prop :=
  (fields text.toList).length = 5 ∧ ∀ field ∈ fields text.toList, IsField field

/-- A schedule is accepted if its places hold five fields in all; there are no more than five
places then and none is empty.  It has five fields in five places exactly if no two of them
are run together. -/
theorem checkFormat_schedule_outcome (path : Path) (text : String) :
    (checkFormat Format.schedule path text = .ok () ↔
      Packed 5 (fields text.toList) ∧ (fields text.toList).length ≤ 5 ∧
        ∀ place ∈ fields text.toList, place ≠ []) ∧
    (HasFiveFields text ↔
      checkFormat Format.schedule path text = .ok () ∧ (fields text.toList).length = 5) := by
  rw [checkFormat_eq_ok_iff, accepts_schedule_iff]
  refine ⟨⟨fun h => ⟨h, h.length_le, h.place_ne_nil⟩, And.left⟩, ?_⟩
  constructor
  · rintro ⟨hlength, hfields⟩
    have hne : fields text.toList ≠ [] := List.ne_nil_of_length_eq_add_one hlength
    exact ⟨hlength ▸ Packed.of_isField hne hfields, hlength⟩
  · rintro ⟨hpacked, hlength⟩
    exact ⟨hlength, hpacked.isField_of_length_eq hlength⟩

/-- Five fields are accepted with no space between them. -/
theorem checkFormat_schedule_accepts_runTogether :
    checkFormat Format.schedule .root "*****" = .ok () ∧ ¬ HasFiveFields "*****" := by
  refine ⟨rfl, ?_⟩
  rintro ⟨hlength, -⟩
  cases hlength

end ActionsWorkflow.Schedule
