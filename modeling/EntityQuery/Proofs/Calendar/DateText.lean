import EntityQuery.Calendar.DateText
import EntityQuery.Proofs.Number.WholeText
import EntityQuery.Proofs.Outcome
import EntityQuery.Proofs.Text.Reading
import Mathlib.Algebra.Group.Nat.Defs

namespace EntityQuery.Date

open Text Text.Reader

/-!
# Dates and their texts

A date is read back from its text (`parse_text`), in whatever year it is.  The text is made of digits that
are padded to a width, so each number is found again as long as it ends where its digits end; only the
year may have more digits than its width, and then it has a sign.
-/

variable {width n : Nat} {s : List Char}

/-! ### Padded numbers -/

/-- A padded number is written in digits, the padding included. -/
theorem isAsciiDigit_of_mem_padded {c : Char} (h : c ∈ padded width n) : isAsciiDigit c = true := by
  rcases List.mem_append.1 h with h | h
  · rw [List.eq_of_mem_replicate h]
    decide
  · exact Whole.isAsciiDigit_of_mem_toDigits h

/-- Padding does not change what the digits stand for. -/
theorem digitsValue_padded (width n : Nat) : digitsValue (padded width n) = n := by
  show Nat.ofDigitChars 10 (padded width n) 0 = n
  rw [padded, Nat.ofDigitChars_append, Nat.ofDigitChars_replicate_zero, Nat.mul_zero,
    Nat.ofDigitChars_ten_toDigits]

/-- A number that is small enough takes no more digits than its width. -/
theorem length_padded_le (hwidth : 0 < width) (h : n < 10 ^ width) :
    (padded width n).length ≤ width := by
  have hdigits := (Nat.length_toDigits_le_iff (b := 10) (by decide) hwidth).2 h
  simp only [padded, List.length_append, List.length_replicate]
  omega

/-- The first character is a digit. -/
theorem exists_padded_append (width n : Nat) (s : List Char) :
    ∃ c rest, padded width n ++ s = c :: rest ∧ isAsciiDigit c = true := by
  obtain ⟨c, digits, hcons⟩ := List.exists_cons_of_ne_nil (l := padded width n)
    (List.append_ne_nil_of_right_ne_nil _ Nat.toDigits_ne_nil)
  exact ⟨c, digits ++ s, by rw [hcons]; rfl, isAsciiDigit_of_mem_padded (hcons ▸ List.mem_cons_self)⟩

/-- **A padded number is read back**, where its digits are no more than are read. -/
theorem scanNumber_padded {limit : Option Nat} (hlimit : ∀ l ∈ limit, (padded width n).length ≤ l)
    (hfits : n < signedLimit) (hs : Stops isAsciiDigit s) :
    scanNumber limit (padded width n ++ s) = .ok (n, s) := by
  obtain ⟨hall, _⟩ := takeWhile_append_of_stops (fun _ => isAsciiDigit_of_mem_padded) hs
    (a := padded width n)
  obtain ⟨c, rest, hcons, hc⟩ := exists_padded_append width n s
  rw [hcons] at hall
  unfold scanNumber
  rw [hcons]
  dsimp only
  rw [if_pos hc, hall]
  have hread : (do return (← number (padded width n), (c :: rest).drop (padded width n).length) :
      Except DateFault _) = .ok (n, s) := by
    rw [number, digitsValue_padded, if_pos hfits, ← hcons, List.drop_left]
    rfl
  -- Without a limit all digits are read; a limit that they keep changes nothing.
  cases limit with
  | none => exact hread
  | some l =>
    dsimp only
    rw [List.take_of_length_le (hlimit l rfl)]
    exact hread

/-! ### Dates -/

/-- A digit is no blank. -/
theorem isBlank_of_isAsciiDigit {c : Char} (h : isAsciiDigit c = true) : isBlank c = false := by
  have hrange : 48 ≤ c.toNat ∧ c.toNat ≤ 57 := by
    simp only [isAsciiDigit, Bool.and_eq_true, decide_eq_true_eq, Char.le_def,
      UInt32.le_iff_toNat_le] at h
    exact h
  have hruns : ∀ run ∈ blankRuns, run.last < 48 ∨ 57 < run.first := by decide
  rw [isBlank, CodeRun.anyContains, List.any_eq_false]
  intro run hrun hcontains
  simp only [CodeRun.contains, Bool.and_eq_true, decide_eq_true_eq] at hcontains
  have hrun := hruns run hrun
  omega

/-- So nothing is trimmed off a padded number. -/
theorem trimStart_padded (width n : Nat) (s : List Char) :
    trimStart (padded width n ++ s) = padded width n ++ s := by
  obtain ⟨c, rest, hcons, hc⟩ := exists_padded_append width n s
  rw [hcons]
  exact (takeWhile_of_stops (stops_cons (isBlank_of_isAsciiDigit hc))).2

/-- What is done with the number of a year once it is read. -/
theorem year_of_scanNumber {limit : Option Nat} {digits : List Char} {year : Int}
    (signed : Nat → Int) (hnumber : scanNumber limit digits = .ok (n, s)) (hvalue : signed n = year)
    (hword : -0x8000_0000 ≤ year ∧ year < 0x8000_0000) :
    (do
      let (n, rest) ← scanNumber limit digits
      let (year, rest) ← pure (signed n, rest)
      if -0x8000_0000 ≤ year ∧ year < 0x8000_0000 then return (year, rest) else throw .outOfRange) =
        (.ok (year, s) : Except DateFault _) := by
  subst hvalue
  rw [hnumber, ok_bind]
  exact if_pos hword

/-- **A year is read back**, with its sign if it has one. -/
theorem scanYear_yearText {year : Int} (hleast : leastYear ≤ year) (hgreatest : year ≤ greatestYear)
    (hs : Stops isAsciiDigit s) : scanYear (yearText year ++ s) = .ok (year, s) := by
  simp only [leastYear, greatestYear] at hleast hgreatest
  have hword : -0x8000_0000 ≤ year ∧ year < 0x8000_0000 := by omega
  have hfits : year.natAbs < signedLimit := by
    simp only [signedLimit]
    omega
  have hsigned : scanNumber none (padded 4 year.natAbs ++ s) = .ok (year.natAbs, s) :=
    scanNumber_padded (by simp) hfits hs
  by_cases hplain : 0 ≤ year ∧ year ≤ 9999
  · have hvalue : (year.toNat : Int) = year := Int.toNat_of_nonneg hplain.1
    have hnumber : scanNumber (some 4) (padded 4 year.toNat ++ s) = .ok (year.toNat, s) := by
      refine scanNumber_padded ?_ ?_ hs
      · rintro _ ⟨⟩
        exact length_padded_le (by decide) (by omega)
      · simp only [signedLimit]
        omega
    obtain ⟨c, rest, hcons, hc⟩ := exists_padded_append 4 year.toNat s
    rw [yearText, if_pos hplain, scanYear, trimStart_padded, hcons]
    rw [hcons] at hnumber
    -- A digit is no sign.
    split
    · rename_i heq
      cases heq
      exact absurd hc (by decide)
    · rename_i heq
      cases heq
      exact absurd hc (by decide)
    · exact year_of_scanNumber (fun n => n) hnumber hvalue hword
  · rw [yearText, if_neg hplain, scanYear]
    by_cases hsign : year < 0
    · have hvalue : -(year.natAbs : Int) = year := by omega
      have htrim : trimStart ('-' :: padded 4 year.natAbs ++ s) = '-' :: (padded 4 year.natAbs ++ s) :=
        rfl
      rw [if_pos hsign, htrim]
      split
      · rename_i heq
        cases heq
        exact year_of_scanNumber (fun n => -n) hsigned hvalue hword
      · rename_i heq
        cases heq
      · rename_i hminus _
        exact absurd rfl (hminus _)
    · have hvalue : (year.natAbs : Int) = year := by omega
      have htrim : trimStart ('+' :: padded 4 year.natAbs ++ s) = '+' :: (padded 4 year.natAbs ++ s) :=
        rfl
      rw [if_neg hsign, htrim]
      split
      · rename_i heq
        cases heq
      · rename_i heq
        cases heq
        exact year_of_scanNumber (fun n => n) hsigned hvalue hword
      · rename_i hplus
        exact absurd rfl (hplus _)

/-- A month or a day is read back. -/
theorem scanPart_padded {greatest : Nat} (hpositive : 1 ≤ n) (hgreatest : n ≤ greatest)
    (hsmall : greatest < 100) (hs : Stops isAsciiDigit s) :
    scanPart greatest (padded 2 n ++ s) = .ok (n, s) := by
  have hnumber : scanNumber (some 2) (padded 2 n ++ s) = .ok (n, s) := by
    refine scanNumber_padded ?_ ?_ hs
    · rintro _ ⟨⟩
      exact length_padded_le (by decide) (by omega)
    · simp only [signedLimit]
      omega
  unfold scanPart
  rw [trimStart_padded, hnumber, ok_bind]
  exact if_pos ⟨hpositive, hgreatest⟩

/-- No month has more than thirty-one days. -/
theorem monthLength_le (year : Int) (month : Nat) : monthLength year month ≤ 31 := by
  unfold monthLength
  split
  · split <;> decide
  · split <;> decide

/-- **A date is read back from its text.** -/
theorem parse_text (d : Date) : parse d.text = .ok d := by
  obtain ⟨hleast, hgreatest, hfirst, hlast, hday, hlength⟩ := d.isDate
  have hyphen (s : List Char) : Stops isAsciiDigit ('-' :: s) := stops_cons rfl
  -- Each part ends at the hyphen behind it, and the day at the end of the text.
  have hyear := scanYear_yearText hleast hgreatest (hyphen (padded 2 d.month ++ '-' :: padded 2 d.day))
  have hmonth := scanPart_padded hfirst hlast (by decide) (hyphen (padded 2 d.day))
  have hdayRead : scanPart 31 (padded 2 d.day ++ []) = .ok (d.day, []) :=
    scanPart_padded hday (Nat.le_trans hlength (monthLength_le d.year d.month)) (by decide) stops_nil
  have hof : of? d.year d.month d.day = some d := dif_pos d.isDate
  rw [List.append_nil] at hdayRead
  unfold parse text
  rw [String.toList_ofList, List.append_assoc, List.cons_append, hyear]
  simp only [ok_bind, scanHyphen, if_true, hmonth, hdayRead, hof, List.isEmpty_nil]
  rfl

example : (parse "-0044-03-15").toOption.map text = some "-0044-03-15" := by decide +kernel

end EntityQuery.Date
