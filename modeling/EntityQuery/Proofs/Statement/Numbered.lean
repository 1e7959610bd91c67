import EntityQuery.Proofs.Statement.Placeholders

namespace EntityQuery

/-!
# Numbers behind placeholders

A placeholder can be followed by a number (`Native.Writes`), which is meant to name the position of its
value, counted from one.  A number is usable if it is the position of an index: not zero, and no larger
than words can be (`Native.Usable`).

The slots of a statement stand in the order of its placeholders.  A placeholder with a usable number has
the slot of its number, and two of them share a slot exactly if their numbers are the same.  Every other
placeholder takes the next position of a count of its own, whether it has no number or one that cannot
be used, and then that number names another slot (`Native.numbers_name_slots`).
-/

namespace Native

open Text

variable {digits : List Char} {next index n : Nat}

/-! ### Written numbers -/

/-- These are digits of ASCII, one at least, that denote the number. -/
structure Writes (digits : List Char) (n : Nat) : Prop where
  nonempty : digits ≠ []
  ascii : ∀ c ∈ digits, isAsciiDigit c = true
  value : digitsValue digits = n

/-- A number is written that is the position of an index. -/
def Usable (digits : List Char) : Prop := ∃ n, Writes digits n ∧ 0 < n ∧ n < wordLimit

/-- Digits denote one number. -/
theorem Writes.unique {m : Nat} (h : Writes digits n) (h' : Writes digits m) : n = m :=
  h.value.symm.trans h'.value

/-- Digits number a slot exactly if they write a number above zero that is a word. -/
theorem numberedIndex?_eq_some_iff :
    numberedIndex? digits = some index ↔ Writes digits (index + 1) ∧ index + 1 < wordLimit := by
  unfold numberedIndex?
  dsimp only
  constructor
  · intro h
    split at h
    · rename_i hvalid
      simp only [Bool.and_eq_true, List.all_eq_true, decide_eq_true_eq] at hvalid
      obtain ⟨⟨hascii, hpos⟩, hlimit⟩ := hvalid
      cases h
      have hnumber : digitsValue digits - 1 + 1 = digitsValue digits := Nat.sub_add_cancel hpos
      rw [hnumber]
      refine ⟨⟨?_, hascii, rfl⟩, hlimit⟩
      -- No digits would write zero.
      rintro rfl
      exact Nat.lt_irrefl 0 hpos
    · cases h
  · rintro ⟨⟨_, hascii, hvalue⟩, hlimit⟩
    have hall : digits.all isAsciiDigit = true := List.all_eq_true.2 hascii
    rw [hvalue, hall]
    simp only [Bool.true_and, Nat.zero_lt_succ, decide_true, hlimit, if_true, Nat.add_sub_cancel]

/-- A number is usable exactly if it is used. -/
theorem usable_iff : Usable digits ↔ (numberedIndex? digits).isSome = true := by
  rw [Option.isSome_iff_exists]
  constructor
  · rintro ⟨n, hwrites, hpos, hlimit⟩
    obtain ⟨index, rfl⟩ := Nat.exists_eq_add_one_of_ne_zero hpos.ne'
    exact ⟨index, numberedIndex?_eq_some_iff.2 ⟨hwrites, hlimit⟩⟩
  · rintro ⟨index, h⟩
    obtain ⟨hwrites, hlimit⟩ := numberedIndex?_eq_some_iff.1 h
    exact ⟨index + 1, hwrites, Nat.succ_pos index, hlimit⟩

instance (digits : List Char) : Decidable (Usable digits) := decidable_of_iff _ usable_iff.symm

/-- A usable number gives the index before it. -/
theorem writes_indexOf (h : Usable digits) (next : Nat) : Writes digits (indexOf next digits + 1) := by
  obtain ⟨index, hindex⟩ := Option.isSome_iff_exists.1 (usable_iff.1 h)
  rw [indexOf, hindex]
  exact (numberedIndex?_eq_some_iff.1 hindex).1

/-- Usable digits number the slot they write. -/
theorem indexOf_add_one (h : Usable digits) (hwrites : Writes digits n) (next : Nat) :
    indexOf next digits + 1 = n :=
  (writes_indexOf h next).unique hwrites

/-- Without a usable number, the index is that of the count. -/
theorem indexOf_eq (h : ¬Usable digits) (next : Nat) : indexOf next digits = next := by
  rw [usable_iff, Option.not_isSome_iff_eq_none] at h
  rw [indexOf, h, Option.getD_none]

/-! ### Slots in the order of placeholders -/

/-- What is written behind the placeholders. -/
def placeholders : List Token → List (List Char)
  | [] => []
  | .text _ :: ts => placeholders ts
  | .placeholder digits :: ts => digits :: placeholders ts

/-- The indexes of placeholders, where `next` ones without a usable number came before. -/
def indexes (next : Nat) : List (List Char) → List Nat
  | [] => []
  | digits :: more => indexOf next digits :: indexes (countOn next digits) more

/-- Each placeholder has an index. -/
theorem length_indexes (next : Nat) (ds : List (List Char)) : (indexes next ds).length = ds.length := by
  induction ds generalizing next with
  | nil => rfl
  | cons digits more ih => rw [indexes, List.length_cons, List.length_cons, ih]

/-- There are no more placeholders than tokens. -/
theorem length_placeholders_le (ts : List Token) : (placeholders ts).length ≤ ts.length := by
  induction ts with
  | nil => exact le_rfl
  | cons t ts ih =>
    cases t with
    | text chars => exact Nat.le_succ_of_le ih
    | placeholder digits => exact Nat.succ_le_succ ih

/-- The holes of a layout are the slots of its placeholders. -/
theorem filter_isHole_layout (next : Nat) (text : List Char) (ts : List Token) :
    (layout next text ts).filter Fragment.isHole =
      (indexes next (placeholders ts)).map fun index => .slot ⟨index, none⟩ := by
  induction ts generalizing next text with
  | nil => rfl
  | cons t ts ih =>
    cases t with
    | text chars =>
      rw [layout, placeholders]
      exact ih next (text ++ chars)
    | placeholder digits =>
      rw [layout, placeholders, indexes, Fragment.filter_isHole_sql, List.filter_cons_of_pos rfl, ih,
        List.map_cons]

/-- **The index of a placeholder** depends on those before it only through the number of them that have no
    usable number. -/
theorem getElem?_indexes (next : Nat) (ds : List (List Char)) (i : Nat) :
    (indexes next ds)[i]? =
      ds[i]?.map (indexOf (next + (ds.take i).countP fun before => decide ¬Usable before)) := by
  -- The count starts anywhere, so that the first placeholder can be taken off: it moves the count of
  -- those behind it on by one if it has no usable number.
  induction ds generalizing next i with
  | nil => rfl
  | cons digits more ih =>
    cases i with
    | zero => rfl
    | succ i =>
      have hcount : countOn next digits = next + if Usable digits then 0 else 1 := by
        rw [countOn]
        by_cases h : Usable digits
        · rw [if_pos h, if_pos (usable_iff.1 h), Nat.add_zero]
        · rw [if_neg h, if_neg (usable_iff.not.1 h)]
      rw [indexes, List.getElem?_cons_succ, List.getElem?_cons_succ, ih, List.take_succ_cons,
        List.countP_cons, hcount]
      by_cases h : Usable digits
      · simp [h]
      · simp [h, Nat.add_assoc, Nat.add_comm 1]

variable {sql : String} {ts : List Token}

/-- The holes of a statement are the slots of the placeholders of its text. -/
theorem holes_statement (hts : Scanned sql.toList ts) :
    (statement sql).holes = (indexes 0 (placeholders ts)).map fun index => .slot ⟨index, none⟩ := by
  rw [Statement.holes, fragments_statement, ← scanned_iff.1 hts, filter_isHole_layout]

/-- The hole of a placeholder is the slot of its index. -/
theorem getElem?_holes (hts : Scanned sql.toList ts) {i : Nat}
    (hi : (placeholders ts)[i]? = some digits) :
    (statement sql).holes[i]? = some (.slot
      ⟨indexOf (((placeholders ts).take i).countP fun before => decide ¬Usable before) digits, none⟩) := by
  rw [holes_statement hts, List.getElem?_map, getElem?_indexes, hi, Nat.zero_add]
  rfl

/-- **Numbers name slots as far as they are usable.**  A statement has one slot for each placeholder of its
    text, in order.  A placeholder has the slot of the number behind it exactly if that number is usable.
    Otherwise it takes the next position among those without a usable number.  Usable numbers share a slot
    exactly if they are the same. -/
theorem numbers_name_slots (h : sql.length < wordLimit) :
    ∃ ts : List Token, (∀ other, Scanned sql.toList other ↔ other = ts) ∧
      (statement sql).holes.length = (placeholders ts).length ∧
      (∀ (i : Nat) digits, (placeholders ts)[i]? = some digits →
        ∃ index, (statement sql).holes[i]? = some (.slot ⟨index, none⟩) ∧
          (Writes digits (index + 1) ↔ Usable digits) ∧
          (¬Usable digits →
            index = ((placeholders ts).take i).countP fun before => decide ¬Usable before)) ∧
      ∀ (i j : Nat) first second n m,
        (placeholders ts)[i]? = some first → (placeholders ts)[j]? = some second →
        Writes first n → Writes second m → Usable first → Usable second →
        ((statement sql).holes[i]? = (statement sql).holes[j]? ↔ n = m) := by
  have hts := scanned_tokens sql.toList
  refine ⟨tokens sql.toList, fun other => scanned_iff, ?_, fun i digits hi => ?_, ?_⟩
  · rw [holes_statement hts, List.length_map, length_indexes]
  · refine ⟨_, getElem?_holes hts hi, ⟨fun hwrites => ?_, fun husable => writes_indexOf husable _⟩,
      fun hunusable => indexOf_eq hunusable _⟩
    -- The count goes no further than there are characters, and a number that cannot be used is either
    -- zero or larger than that.
    by_contra hunusable
    rw [indexOf_eq hunusable] at hwrites
    have hbefore := List.countP_le_length (l := (placeholders (tokens sql.toList)).take i)
      (p := fun before => decide ¬Usable before)
    have hi' := (List.getElem?_eq_some_iff.1 hi).1
    have hle := length_placeholders_le (tokens sql.toList)
    have hlength := hts.length_le
    rw [List.length_take] at hbefore
    rw [String.length_toList] at hlength
    exact hunusable ⟨_, hwrites, Nat.succ_pos _, by omega⟩
  · intro i j first second n m hi hj hfirst hsecond husable husable'
    rw [getElem?_holes hts hi, getElem?_holes hts hj]
    rw [← indexOf_add_one husable hfirst, ← indexOf_add_one husable' hsecond, Nat.add_right_cancel_iff,
      Option.some.injEq, Fragment.slot.injEq, Slot.mk.injEq]
    exact and_iff_left rfl

end Native

namespace Sample

/-- A text with all three kinds of placeholders: without a number, with one, and with zero. -/
def numberedText : String := "a = ? and b = ?2 and c = ?0"

end Sample

/-- The second placeholder names the second argument, and so does the third, whose number is zero. -/
theorem Native.numbers_name_slots_numberedText :
    Sample.numberedText.length < wordLimit ∧
      ∃ ts, Scanned Sample.numberedText.toList ts ∧ (placeholders ts)[1]? = some ['2'] ∧
        ∃ index, (statement Sample.numberedText).holes[1]? = some (.slot ⟨index, none⟩) ∧
          Writes ['2'] (index + 1) := by
  have hlength : Sample.numberedText.length < wordLimit := by decide +kernel
  obtain ⟨ts, hscanned, _, hslots, _⟩ := numbers_name_slots hlength
  have hts : ts = tokens Sample.numberedText.toList := ((hscanned _).1 (scanned_tokens _)).symm
  have hsecond : (placeholders ts)[1]? = some ['2'] := by
    rw [hts]
    decide +kernel
  obtain ⟨index, hhole, hwrites, _⟩ := hslots 1 ['2'] hsecond
  exact ⟨hlength, ts, (hscanned ts).2 rfl, hsecond, index, hhole, hwrites.2 (by decide +kernel)⟩

/-- **A number that cannot be used takes the position of another one**: zero the second, and with it the
    slot of a placeholder that names the second by its number, and a number beyond all words the third. -/
theorem Native.unusable_numbers_misplaced :
    ∃ ts : List Token, Scanned "a = ? and b = ?0 and c = ?18446744073709551616 and d = ?2".toList ts ∧
      placeholders ts = [[], ['0'], "18446744073709551616".toList, ['2']] ∧
      Writes ['0'] 0 ∧ Writes "18446744073709551616".toList 18446744073709551616 ∧ Writes ['2'] 2 ∧
      (statement "a = ? and b = ?0 and c = ?18446744073709551616 and d = ?2").holes =
        [.slot ⟨0, none⟩, .slot ⟨1, none⟩, .slot ⟨2, none⟩, .slot ⟨1, none⟩] := by
  have hzero : Writes ['0'] 0 := ⟨by decide, List.all_eq_true.1 rfl, rfl⟩
  have hlarge : Writes "18446744073709551616".toList 18446744073709551616 :=
    ⟨by decide +kernel, List.all_eq_true.1 rfl, rfl⟩
  have htwo : Writes ['2'] 2 := ⟨by decide, List.all_eq_true.1 rfl, rfl⟩
  refine ⟨_, scanned_tokens _, by decide +kernel, hzero, hlarge, htwo, ?_⟩
  rw [holes_statement (scanned_tokens _)]
  have hindexes : indexes 0 (placeholders (tokens
      "a = ? and b = ?0 and c = ?18446744073709551616 and d = ?2".toList)) = [0, 1, 2, 1] := by
    decide +kernel
  rw [hindexes]
  rfl

end EntityQuery
