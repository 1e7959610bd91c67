import EntityQuery.Number.Whole
import Mathlib.Data.List.Basic

namespace EntityQuery.Whole

/-!
# Whole numbers and their digits

The digits of a number that fits into a word are read back as that number, without a sign
(`parseUnsigned_toDigits`) and with one (`parseSigned_toString`).
-/

open Text

/-- A number is printed in digits. -/
theorem isAsciiDigit_of_mem_toDigits {n : Nat} {c : Char} (h : c ∈ Nat.toDigits 10 n) :
    isAsciiDigit c = true := by
  have hdigit : c.isDigit = true := Nat.isDigit_of_mem_toDigits (by decide) (by decide) h
  simpa only [Char.isDigit, isAsciiDigit, Char.le_def, ge_iff_le] using hdigit

/-- The digits of ASCII are decimal digits. -/
theorem isDecimalDigit_of_isAsciiDigit {c : Char} (h : isAsciiDigit c = true) :
    isDecimalDigit c = true := by
  simp only [isAsciiDigit, Bool.and_eq_true, decide_eq_true_eq, Char.le_def,
    UInt32.le_iff_toNat_le] at h
  have hlow : 0x30 ≤ c.toNat := h.1
  have hhigh : c.toNat ≤ 0x39 := h.2
  -- They are the first of the runs.
  have hrun : CodeRun.contains ⟨0x30, 0x39, 1⟩ c.toNat = true := by
    simp [CodeRun.contains, hlow, hhigh, Nat.mod_one]
  exact List.any_eq_true.2 ⟨_, List.mem_cons_self, hrun⟩

/-- Further digits make no number smaller. -/
theorem le_ofDigitChars (digits : List Char) (n : Nat) : n ≤ Nat.ofDigitChars 10 digits n := by
  rw [Nat.ofDigitChars_eq_ofDigitChars_zero]
  have hpos : 0 < 10 ^ digits.length := Nat.pow_pos (by decide)
  have hle : n ≤ 10 ^ digits.length * n := Nat.le_mul_of_pos_left n hpos
  omega

/-- Digits are read one by one as long as the number stays below the limit. -/
theorem foldlM_addDigit {limit : Nat} {overflow : WholeFault} {digits : List Char} {n : Nat}
    (hdigits : ∀ c ∈ digits, isAsciiDigit c = true) (h : Nat.ofDigitChars 10 digits n < limit) :
    digits.foldlM (addDigit limit overflow) n = .ok (Nat.ofDigitChars 10 digits n) := by
  induction digits generalizing n with
  | nil => rw [Nat.ofDigitChars_nil]; rfl
  | cons c digits ih =>
    obtain ⟨hc, hdigits⟩ := List.forall_mem_cons.1 hdigits
    rw [Nat.ofDigitChars_cons] at h ⊢
    have hnext : 10 * n + digitValue c < limit := Nat.lt_of_le_of_lt (le_ofDigitChars digits _) h
    have hadd : addDigit limit overflow n c = .ok (10 * n + digitValue c) := by
      rw [addDigit, hc, Bool.not_true, if_neg Bool.false_ne_true]
      exact if_pos hnext
    rw [List.foldlM_cons, hadd]
    exact ih hdigits h

/-- Only digits are read, and they are read to the number that they denote. -/
theorem digits_of_foldlM {limit : Nat} {overflow : WholeFault} {digits : List Char} {n m : Nat}
    (h : digits.foldlM (addDigit limit overflow) n = .ok m) :
    (∀ c ∈ digits, isAsciiDigit c = true) ∧
      m = digits.foldl (fun n c => 10 * n + digitValue c) n := by
  induction digits generalizing n with
  | nil =>
    cases h
    exact ⟨nofun, rfl⟩
  | cons c digits ih =>
    cases hadd : addDigit limit overflow n c with
    | error fault =>
      rw [List.foldlM_cons, hadd] at h
      cases h
    | ok next =>
      rw [List.foldlM_cons, hadd] at h
      obtain ⟨hdigits, hm⟩ := ih h
      -- A step that succeeds had a digit before it and stayed below the limit.
      unfold addDigit at hadd
      split at hadd
      · cases hadd
      rename_i hc
      dsimp only at hadd
      split at hadd
      · cases hadd
        exact ⟨List.forall_mem_cons.2 ⟨by simpa using hc, hdigits⟩, hm⟩
      · cases hadd

/-- The digits of a number below the limit are read back as that number. -/
theorem foldlM_toDigits {limit : Nat} {overflow : WholeFault} {n : Nat} (h : n < limit) :
    (Nat.toDigits 10 n).foldlM (addDigit limit overflow) 0 = .ok n := by
  have hvalue : Nat.ofDigitChars 10 (Nat.toDigits 10 n) 0 = n := Nat.ofDigitChars_ten_toDigits
  rw [foldlM_addDigit (fun c => isAsciiDigit_of_mem_toDigits) (by rwa [hvalue]), hvalue]

/-- Digits denote the number that they are the digits of. -/
theorem digitsValue_toDigits (n : Nat) : digitsValue (Nat.toDigits 10 n) = n :=
  have hread : (Nat.toDigits 10 n).foldlM (addDigit (n + 1) .tooLarge) 0 = .ok n :=
    foldlM_toDigits (Nat.lt_succ_self n)
  (digits_of_foldlM hread).2.symm

/-- **A number without a sign is read back from its digits.** -/
theorem parseUnsigned_toDigits {n : Nat} (h : n < wordLimit) :
    parseUnsigned (Nat.toDigits 10 n) = .ok n :=
  foldlM_toDigits h

/-- The text of a number is that of its digits, with a minus sign before them if it has one. -/
theorem toList_toString (n : Int) :
    (toString n).toList =
      if 0 ≤ n then Nat.toDigits 10 n.toNat else '-' :: Nat.toDigits 10 (-n).toNat := by
  rw [Int.toString_eq_repr, Int.repr_eq_if]
  split
  · exact Nat.toList_repr
  · rw [String.toList_append, Nat.toList_repr]
    rfl

/-- **A number with a sign is read back from its text.** -/
theorem parseSigned_toString (n : Int64) : parseSigned (toString n.toInt).toList = .ok n := by
  have hlower := Int64.le_toInt n
  have hupper := Int64.toInt_lt n
  rw [toList_toString]
  split
  · rename_i hsign
    have hfits : n.toInt.toNat < signedLimit := by
      simp only [signedLimit]
      omega
    have hfold : (Nat.toDigits 10 n.toInt.toNat).foldlM (addDigit signedLimit .tooLarge) 0 =
        .ok n.toInt.toNat := foldlM_toDigits hfits
    -- Digits do not begin with a minus sign, so the number is read as one without.
    obtain ⟨c, digits, hcons⟩ :=
      List.exists_cons_of_ne_nil (Nat.toDigits_ne_nil (b := 10) (n := n.toInt.toNat))
    have hc : c ≠ '-' := by
      rintro rfl
      have hdigit := isAsciiDigit_of_mem_toDigits (hcons ▸ List.mem_cons_self)
      exact absurd hdigit (by decide)
    rw [hcons] at hfold ⊢
    unfold parseSigned
    split
    · rename_i heq
      cases heq
      exact absurd rfl hc
    · rw [hfold]
      show Except.ok (Int64.ofNat n.toInt.toNat) = _
      rw [← Int64.ofInt_eq_ofNat, Int.toNat_of_nonneg hsign, Int64.ofInt_toInt]
  · rename_i hsign
    -- The least number is one further from zero than the greatest.
    have hfits : (-n.toInt).toNat < signedLimit + 1 := by
      simp only [signedLimit]
      omega
    have hfold : (Nat.toDigits 10 (-n.toInt).toNat).foldlM
        (addDigit (signedLimit + 1) .tooSmall) 0 = .ok (-n.toInt).toNat := foldlM_toDigits hfits
    rw [parseSigned, hfold]
    show Except.ok (Int64.ofInt (-((-n.toInt).toNat : Int))) = _
    rw [Int.toNat_of_nonneg (by omega), Int.neg_neg, Int64.ofInt_toInt]

end EntityQuery.Whole
