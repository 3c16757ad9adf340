import ActionsWorkflow.Yaml.ScalarText

/-!
# Numerals

The digits of a number in base ten read back as the number, and the hexadecimal digits of an
escape do so as far as their width goes.  Every integer that fits a word of 64 bits therefore
reads as an integer, and as that one only.
-/

namespace ActionsWorkflow.Yaml

theorem natural?_singleton {base digit : Nat} {c : Char} (hc : digitValue? base c = some digit) :
    natural? base [c] = some digit := by
  simp [natural?, hc]

theorem natural?_concat {base value digit : Nat} {digits : List Char} {c : Char}
    (hdigits : natural? base digits = some value) (hc : digitValue? base c = some digit) :
    natural? base (digits ++ [c]) = some (base * value + digit) := by
  rw [natural?] at hdigits
  split at hdigits
  next => cases hdigits
  next =>
      rw [natural?, if_neg (by simp), List.foldlM_append, hdigits]
      simp [hc]

theorem digitValue?_digitChar {digit : Nat} (h : digit < 10) :
    digitValue? 10 digit.digitChar = some digit := by
  revert digit
  decide

theorem digitValue?_hexDigit {digit : Nat} (h : digit < 16) :
    digitValue? 16 (hexDigit digit) = some digit := by
  revert digit
  decide

theorem natural?_toDigits (number : Nat) :
    natural? 10 (Nat.toDigits 10 number) = some number := by
  induction number using Nat.strongRecOn with
  | ind number ih =>
      rw [Nat.toDigits_eq_if (by decide)]
      split
      next hsmall => exact natural?_singleton (digitValue?_digitChar hsmall)
      next hlarge =>
          have hdigit : number % 10 < 10 := Nat.mod_lt number (by decide)
          have hfront := ih (number / 10) (Nat.div_lt_self (by omega) (by decide))
          rw [natural?_concat hfront (digitValue?_digitChar hdigit), Nat.div_add_mod]

theorem natural?_hexDigits (value width : Nat) :
    natural? 16 (hexDigits value (width + 1)) = some (value % Nat.pow 16 (width + 1)) := by
  have hdigit (number : Nat) : number % 16 < 16 := Nat.mod_lt number (by decide)
  induction width generalizing value with
  | zero =>
      have hpow : Nat.pow 16 (0 + 1) = 16 := rfl
      rw [hpow]
      exact natural?_singleton (digitValue?_hexDigit (hdigit value))
  | succ width ih =>
      have hpow : Nat.pow 16 (width + 1 + 1) = 16 * Nat.pow 16 (width + 1) := Nat.pow_succ'
      rw [hexDigits, natural?_concat (ih (value / 16)) (digitValue?_hexDigit (hdigit value)),
        hpow, Nat.mod_mul, Nat.add_comm]

theorem length_hexDigits (value width : Nat) : (hexDigits value width).length = width := by
  induction width generalizing value with
  | zero => rfl
  | succ width ih => rw [hexDigits, List.length_append, ih, List.length_singleton]

/-! ## Integers -/

theorem splitSign_of_isDigit {digits : List Char} (h : ∀ c ∈ digits, c.isDigit = true) :
    splitSign digits = (none, digits) := by
  fun_cases splitSign digits with
  | case1 rest => exact absurd (h '+' List.mem_cons_self) (by decide)
  | case2 rest => exact absurd (h '-' List.mem_cons_self) (by decide)
  | case3 => rfl

theorem magnitude?_of_isDigit {digits : List Char} (h : ∀ c ∈ digits, c.isDigit = true) :
    magnitude? digits = natural? 10 digits := by
  fun_cases magnitude? digits with
  | case1 rest => exact absurd (h 'x' (by simp)) (by decide)
  | case2 rest => exact absurd (h 'o' (by simp)) (by decide)
  | case3 rest => exact absurd (h 'b' (by simp)) (by decide)
  | case4 => rfl

theorem isDigit_of_mem_digits (number : Nat) :
    ∀ c ∈ Nat.toDigits 10 number, c.isDigit = true :=
  fun _ hc => Nat.isDigit_of_mem_toDigits (by decide) (by decide) hc

theorem splitSign_toString (number : Int) :
    splitSign (toString number).toList =
      (if number < 0 then some .minus else none, Nat.toDigits 10 number.natAbs) := by
  cases number with
  | ofNat number =>
      have hsign : ¬ Int.ofNat number < 0 := Int.not_lt.2 (Int.natCast_nonneg number)
      have htext : (toString (Int.ofNat number)).toList = Nat.toDigits 10 number :=
        Nat.toList_repr
      rw [if_neg hsign, htext]
      exact splitSign_of_isDigit (isDigit_of_mem_digits number)
  | negSucc number =>
      have hsign : Int.negSucc number < 0 := Int.negSucc_lt_zero number
      rw [if_pos hsign]
      have htext : (toString (Int.negSucc number)).toList =
          '-' :: Nat.toDigits 10 (number + 1) := by
        rw [← Nat.toList_repr]
        exact String.toList_append
      rw [htext]
      rfl

theorem toString_int_inj {number other : Int}
    (h : (toString number).toList = (toString other).toList) : number = other := by
  have hsplit := congrArg splitSign h
  rw [splitSign_toString, splitSign_toString, Prod.mk.injEq] at hsplit
  obtain ⟨hsign, hdigits⟩ := hsplit
  have habs : number.natAbs = other.natAbs := by
    have hread := congrArg (natural? 10) hdigits
    rw [natural?_toDigits, natural?_toDigits] at hread
    exact Option.some.inj hread
  split at hsign <;> split at hsign
  · omega
  · cases hsign
  · cases hsign
  · omega

def FitsWord (number : Int) : Prop :=
  Int64.minValue.toInt ≤ number ∧ number ≤ Int64.maxValue.toInt

theorem isInteger_toString {number : Int} (h : FitsWord number) :
    isInteger (toString number).toList = true := by
  have hmagnitude : magnitude? (Nat.toDigits 10 number.natAbs) = some number.natAbs := by
    rw [magnitude?_of_isDigit (isDigit_of_mem_digits number.natAbs), natural?_toDigits]
  have hfits : number.natAbs ≤ Nat.pow 2 63 := by
    obtain ⟨hlow, hhigh⟩ := h
    have hmin : Int64.minValue.toInt = -Nat.pow 2 63 := by decide
    have hmax : Int64.maxValue.toInt = Nat.pow 2 63 - 1 := by decide
    omega
  have hlimits : Nat.pow 2 63 ≤ Nat.pow 2 127 ∧ Nat.pow 2 63 ≤ Nat.pow 2 128 - 1 := by decide
  rw [isInteger, splitSign_toString]
  dsimp only
  rw [hmagnitude]
  dsimp only
  rw [decide_eq_true_iff]
  split
  next => exact Nat.le_trans hfits hlimits.1
  next => exact Nat.le_trans hfits hlimits.2

theorem digitChar_ne_zero {digit : Nat} (h : digit < 10) (hne : digit ≠ 0) :
    digit.digitChar ≠ '0' := by
  revert digit
  decide

theorem head?_toDigits_ne_zero {number : Nat} (h : number ≠ 0) :
    (Nat.toDigits 10 number).head? ≠ some '0' := by
  induction number using Nat.strongRecOn with
  | ind number ih =>
      rw [Nat.toDigits_eq_if (by decide)]
      split
      next hsmall =>
          rw [List.head?_cons, ne_eq, Option.some.injEq]
          exact digitChar_ne_zero hsmall h
      next hlarge =>
          have hfront := ih (number / 10) (by omega) (by omega)
          obtain ⟨c, rest, hdigits⟩ := List.exists_cons_of_ne_nil
            (Nat.toDigits_ne_nil : Nat.toDigits 10 (number / 10) ≠ [])
          rw [hdigits] at hfront ⊢
          exact hfront

theorem hasLeadingZero_toString (number : Int) :
    hasLeadingZero (toString number).toList = false := by
  rw [hasLeadingZero, splitSign_toString]
  by_cases hzero : number.natAbs = 0
  · rw [hzero]
    rfl
  · have hhead := head?_toDigits_ne_zero hzero
    dsimp only
    split
    next heq =>
        rw [heq] at hhead
        exact absurd rfl hhead
    next => rfl

theorem resolve_of_isInteger {text : List Char} (hinteger : isInteger text = true)
    (hzero : hasLeadingZero text = false) : resolve text = .integer := by
  have hwords : ∀ word ∈ nullWords ++ booleanWords, isInteger word.toList = false := by decide
  have hword {words : List String} (hsub : words ⊆ nullWords ++ booleanWords) :
      ¬ words.contains (String.ofList text) = true := by
    rw [List.contains_iff_mem]
    intro hmem
    have hnot := hwords _ (hsub hmem)
    rw [String.toList_ofList, hinteger] at hnot
    cases hnot
  rw [resolve, if_neg (hword (List.subset_append_left _ _)),
    if_neg (hword (List.subset_append_right _ _)), hinteger, hzero]
  rfl

theorem resolve_toString {number : Int} (h : FitsWord number) :
    resolve (toString number).toList = .integer :=
  resolve_of_isInteger (isInteger_toString h) (hasLeadingZero_toString number)

end ActionsWorkflow.Yaml
