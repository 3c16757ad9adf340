import ActionsWorkflow.Text.Pattern
import Mathlib.Computability.Language

/-!
# Languages of patterns

A pattern stands for a language.  What its derivatives describe together is what may follow
the character in a text of that language, and so the pattern accepts exactly the language.
The language of a composite pattern is put together from those of its parts.
-/

namespace ActionsWorkflow.Text.Pattern

open Computability

def language : Pattern → Language Char
  | .never => 0
  | .empty => 1
  | .one chars => {text | ∃ c, text = [c] ∧ chars.contains c = true}
  | .seq first second => first.language * second.language
  | .alt left right => left.language + right.language
  | .star repeated => repeated.language∗

section
variable {first second repeated : Language Char} {c : Char} {text : List Char}

theorem nil_mem_mul_iff : [] ∈ first * second ↔ [] ∈ first ∧ [] ∈ second := by
  rw [Language.mem_mul]
  constructor
  · rintro ⟨front, hfront, back, hback, hnil⟩
    obtain ⟨rfl, rfl⟩ := List.append_eq_nil_iff.1 hnil
    exact ⟨hfront, hback⟩
  · rintro ⟨hfirst, hsecond⟩
    exact ⟨[], hfirst, [], hsecond, rfl⟩

theorem cons_mem_mul_iff : c :: text ∈ first * second ↔
    (∃ front back, front ++ back = text ∧ c :: front ∈ first ∧ back ∈ second) ∨
      [] ∈ first ∧ c :: text ∈ second := by
  rw [Language.mem_mul]
  constructor
  · rintro ⟨front, hfront, back, hback, htext⟩
    cases front with
    | nil => exact .inr ⟨hfront, htext ▸ hback⟩
    | cons head front =>
        obtain ⟨rfl, rfl⟩ := List.cons.inj htext
        exact .inl ⟨front, back, rfl, hfront, hback⟩
  · rintro (⟨front, back, rfl, hfront, hback⟩ | ⟨hnil, htext⟩)
    · exact ⟨c :: front, hfront, back, hback, rfl⟩
    · exact ⟨[], hnil, c :: text, htext, rfl⟩

theorem cons_mem_kstar_iff : c :: text ∈ repeated∗ ↔
    ∃ front back, front ++ back = text ∧ c :: front ∈ repeated ∧ back ∈ repeated∗ := by
  constructor
  · rw [Language.mem_kstar_iff_exists_nonempty]
    rintro ⟨parts, htext, hparts⟩
    cases parts with
    | nil => cases htext
    | cons part parts =>
        obtain ⟨hpart, hnonempty⟩ := hparts part List.mem_cons_self
        obtain ⟨head, front, rfl⟩ := List.exists_cons_of_ne_nil hnonempty
        obtain ⟨rfl, rfl⟩ := List.cons.inj htext
        have hrest : parts.flatten ∈ repeated∗ := Language.join_mem_kstar fun other hother =>
          (hparts other (List.mem_cons_of_mem _ hother)).1
        exact ⟨front, parts.flatten, rfl, hpart, hrest⟩
  · rintro ⟨front, back, rfl, hfront, hback⟩
    rw [← Language.one_add_self_mul_kstar_eq_kstar]
    exact .inr (Language.append_mem_mul hfront hback)

end

/-! ## Derivatives -/

variable {pattern : Pattern} {text : List Char}

theorem mem_language_one_iff {chars : CharClass} :
    text ∈ (one chars).language ↔ ∃ c, text = [c] ∧ chars.contains c = true := Iff.rfl

theorem nil_mem_language_iff : [] ∈ pattern.language ↔ pattern.nullable = true := by
  induction pattern with
  | never => simp [language, nullable]
  | empty => simp [language, nullable]
  | one chars =>
      simp [mem_language_one_iff, nullable]
  | seq first second ihFirst ihSecond =>
      rw [language, nil_mem_mul_iff, ihFirst, ihSecond, nullable, Bool.and_eq_true]
  | alt left right ihLeft ihRight =>
      rw [language, Language.mem_add, ihLeft, ihRight, nullable, Bool.or_eq_true]
  | star repeated => simp [language, nullable, Language.nil_mem_kstar]

theorem language_andThen (first second : Pattern) :
    (first.andThen second).language = first.language * second.language := by
  rw [andThen]
  split
  next hempty => rw [hempty, language, one_mul]
  next => rfl

theorem exists_mem_map_andThen_iff {starts : List Pattern} {second : Pattern} :
    (∃ next ∈ starts.map (·.andThen second), text ∈ next.language) ↔
      ∃ front back, front ++ back = text ∧ (∃ next ∈ starts, front ∈ next.language) ∧
        back ∈ second.language := by
  simp only [List.mem_map, exists_exists_and_eq_and, language_andThen, Language.mem_mul]
  constructor
  · rintro ⟨next, hnext, front, hfront, back, hback, htext⟩
    exact ⟨front, back, htext, ⟨next, hnext, hfront⟩, hback⟩
  · rintro ⟨front, back, htext, ⟨next, hnext, hfront⟩, hback⟩
    exact ⟨next, hnext, front, hfront, back, hback, htext⟩

theorem cons_mem_language_iff {c : Char} :
    c :: text ∈ pattern.language ↔ ∃ next ∈ pattern.derivatives c, text ∈ next.language := by
  induction pattern generalizing text with
  | never => simp [language, derivatives]
  | empty => simp [language, derivatives]
  | one chars =>
      rw [mem_language_one_iff, derivatives]
      by_cases hcontains : chars.contains c = true
      · simp [hcontains, language, Language.mem_one]
      · simp [hcontains]
  | seq first second ihFirst ihSecond =>
      rw [language, cons_mem_mul_iff, nil_mem_language_iff, ihSecond]
      simp only [ihFirst, ← exists_mem_map_andThen_iff]
      by_cases hnullable : first.nullable = true <;>
        simp [derivatives, hnullable, or_and_right, exists_or]
  | alt left right ihLeft ihRight =>
      rw [language, Language.mem_add, ihLeft, ihRight]
      simp only [derivatives, List.mem_append, or_and_right, exists_or]
  | star repeated ih =>
      rw [derivatives, exists_mem_map_andThen_iff, language, cons_mem_kstar_iff]
      simp only [ih]

theorem any_nullable_foldl_step_iff {states : List Pattern} :
    (text.foldl step states).any nullable = true ↔
      ∃ state ∈ states, text ∈ state.language := by
  induction text generalizing states with
  | nil => simp [nil_mem_language_iff]
  | cons c text ih =>
      simp only [List.foldl_cons, ih, step, List.mem_eraseDups, List.mem_flatMap,
        cons_mem_language_iff]
      constructor
      · rintro ⟨next, ⟨state, hstate, hnext⟩, htext⟩
        exact ⟨state, hstate, next, hnext, htext⟩
      · rintro ⟨state, hstate, next, hnext, htext⟩
        exact ⟨next, ⟨state, hstate, hnext⟩, htext⟩

theorem accepts_iff_mem_language : pattern.accepts text = true ↔ text ∈ pattern.language := by
  rw [accepts, any_nullable_foldl_step_iff]
  simp

/-! ## Composite patterns -/

theorem mem_language_seq_iff {first second : Pattern} :
    text ∈ (seq first second).language ↔
      ∃ front ∈ first.language, ∃ back ∈ second.language, front ++ back = text :=
  Language.mem_mul

theorem mem_language_literal_iff {word : String} :
    text ∈ (literal word).language ↔ text = word.toList := by
  rw [literal]
  induction word.toList generalizing text with
  | nil => exact Iff.rfl
  | cons c rest ih =>
      simp only [List.foldr_cons, mem_language_seq_iff, mem_language_one_iff, ih,
        CharClass.contains, List.contains_cons, List.contains_nil, Bool.or_false, beq_iff_eq]
      constructor
      · rintro ⟨_, ⟨_, rfl, rfl⟩, _, rfl, rfl⟩
        rfl
      · rintro rfl
        exact ⟨[c], ⟨c, rfl, rfl⟩, rest, rfl, rfl⟩

theorem mem_language_optional_iff :
    text ∈ (optional pattern).language ↔ text ∈ pattern.language ∨ text = [] := Iff.rfl

theorem mem_language_oneOf_iff {patterns : List Pattern} :
    text ∈ (oneOf patterns).language ↔ ∃ choice ∈ patterns, text ∈ choice.language := by
  induction patterns with
  | nil => exact ⟨fun h => h.elim, fun ⟨_, hmem, _⟩ => nomatch hmem⟩
  | cons first rest ih =>
      rw [List.exists_mem_cons_iff, ← ih]
      exact Iff.rfl

theorem mem_language_sequence_nil_iff : text ∈ (sequence []).language ↔ text = [] := Iff.rfl

theorem mem_language_sequence_cons_iff {first : Pattern} {rest : List Pattern} :
    text ∈ (sequence (first :: rest)).language ↔
      ∃ front ∈ first.language, ∃ back ∈ (sequence rest).language, front ++ back = text :=
  Language.mem_mul

theorem mem_language_times_succ_iff {count : Nat} :
    text ∈ (times (count + 1) pattern).language ↔
      ∃ front ∈ pattern.language, ∃ back ∈ (times count pattern).language,
        front ++ back = text :=
  Language.mem_mul

theorem mem_language_plus_iff :
    text ∈ (plus pattern).language ↔
      ∃ parts ≠ [], (∀ part ∈ parts, part ∈ pattern.language) ∧ parts.flatten = text := by
  rw [plus, mem_language_seq_iff]
  constructor
  · rintro ⟨front, hfront, back, hback, rfl⟩
    obtain ⟨parts, rfl, hparts⟩ := Language.mem_kstar.1 hback
    exact ⟨front :: parts, by simp, List.forall_mem_cons.2 ⟨hfront, hparts⟩, rfl⟩
  · rintro ⟨parts, hne, hparts, rfl⟩
    obtain ⟨front, rest, rfl⟩ := List.exists_cons_of_ne_nil hne
    obtain ⟨hfront, hrest⟩ := List.forall_mem_cons.1 hparts
    exact ⟨front, hfront, rest.flatten, Language.join_mem_kstar hrest, rfl⟩

/-- The texts of the pattern are single characters, namely those that are accepted. -/
def DescribesChars (pattern : Pattern) (accepted : Char → Prop) : Prop :=
  ∀ text, text ∈ pattern.language ↔ ∃ c, text = [c] ∧ accepted c

section
variable {accepted : Char → Prop}

theorem describesChars_never : never.DescribesChars fun _ => False := by
  intro text
  simp [language]

theorem describesChars_one {chars : CharClass} :
    (one chars).DescribesChars fun c => chars.contains c = true :=
  fun _ => mem_language_one_iff

theorem DescribesChars.alt {left right : Pattern} {other : Char → Prop}
    (hleft : left.DescribesChars accepted) (hright : right.DescribesChars other) :
    (alt left right).DescribesChars fun c => accepted c ∨ other c := by
  intro text
  rw [language, Language.mem_add, hleft text, hright text]
  simp only [and_or_left, exists_or]

theorem DescribesChars.congr {other : Char → Prop} (h : pattern.DescribesChars accepted)
    (hsame : ∀ c, accepted c ↔ other c) : pattern.DescribesChars other := by
  intro text
  simp only [h text, hsame]

theorem DescribesChars.mem_language_star_iff (h : pattern.DescribesChars accepted) :
    text ∈ (star pattern).language ↔ ∀ c ∈ text, accepted c := by
  induction text with
  | nil => exact iff_of_true (Language.nil_mem_kstar _) (List.forall_mem_nil _)
  | cons c rest ih =>
      rw [language, cons_mem_kstar_iff, List.forall_mem_cons, ← ih]
      constructor
      · rintro ⟨front, back, rfl, hfront, hback⟩
        obtain ⟨_, heq, hc⟩ := (h _).1 hfront
        obtain ⟨rfl, rfl⟩ := List.cons.inj heq
        exact ⟨hc, hback⟩
      · rintro ⟨hc, hrest⟩
        exact ⟨[], rest, rfl, (h _).2 ⟨c, rfl, hc⟩, hrest⟩

end

theorem mem_language_star_one_iff {chars : CharClass} :
    text ∈ (star (one chars)).language ↔ ∀ c ∈ text, chars.contains c = true :=
  describesChars_one.mem_language_star_iff

theorem mem_language_plus_one_iff {chars : CharClass} :
    text ∈ (plus (one chars)).language ↔
      text ≠ [] ∧ ∀ c ∈ text, chars.contains c = true := by
  rw [plus, mem_language_seq_iff]
  constructor
  · rintro ⟨_, ⟨c, rfl, hc⟩, rest, hrest, rfl⟩
    exact ⟨by simp, List.forall_mem_cons.2 ⟨hc, mem_language_star_one_iff.1 hrest⟩⟩
  · rintro ⟨hne, htext⟩
    obtain ⟨c, rest, rfl⟩ := List.exists_cons_of_ne_nil hne
    obtain ⟨hc, hrest⟩ := List.forall_mem_cons.1 htext
    exact ⟨[c], ⟨c, rfl, hc⟩, rest, mem_language_star_one_iff.2 hrest, rfl⟩

def admits (c : Char) : Pattern → Bool
  | .never => false
  | .empty => false
  | .one chars => chars.contains c
  | .seq first second => first.admits c || second.admits c
  | .alt left right => left.admits c || right.admits c
  | .star repeated => repeated.admits c

theorem not_mem_of_mem_language {c : Char} (hadmits : pattern.admits c = false)
    (htext : text ∈ pattern.language) : c ∉ text := by
  induction pattern generalizing text with
  | never => exact htext.elim
  | empty => exact (Language.mem_one text).1 htext ▸ List.not_mem_nil
  | one chars =>
      obtain ⟨d, rfl, hd⟩ := htext
      rw [List.mem_singleton]
      rintro rfl
      rw [admits, hd] at hadmits
      cases hadmits
  | seq first second ihFirst ihSecond =>
      rw [admits, Bool.or_eq_false_iff] at hadmits
      obtain ⟨front, hfront, back, hback, rfl⟩ := htext
      rw [List.mem_append, not_or]
      exact ⟨ihFirst hadmits.1 hfront, ihSecond hadmits.2 hback⟩
  | alt left right ihLeft ihRight =>
      rw [admits, Bool.or_eq_false_iff] at hadmits
      rcases htext with hleft | hright
      · exact ihLeft hadmits.1 hleft
      · exact ihRight hadmits.2 hright
  | star repeated ih =>
      obtain ⟨parts, rfl, hparts⟩ := Language.mem_kstar.1 htext
      rw [List.mem_flatten]
      rintro ⟨part, hpart, hc⟩
      exact ih hadmits (hparts part hpart) hc

end ActionsWorkflow.Text.Pattern
