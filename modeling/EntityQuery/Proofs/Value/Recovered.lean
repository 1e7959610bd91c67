import EntityQuery.Proofs.Calendar.DateText
import EntityQuery.Proofs.Rows.Answers

namespace EntityQuery

/-!
# Recovered values

What a type has to give for a value that was stored: a typed value is recovered from its stored form
(`ScalarType.recover_store`).  Texts come back from their bytes and dates from their texts, and truth
values from the two numbers that stand for them.  What is no number is bound as nothing, so a real is only
recovered up to what is bound for it (`ScalarType.exists_recover`).
-/

/-- A text is read back from its bytes. -/
theorem Text.ofUtf8_utf8 (s : String) : ofUtf8 (utf8 s) = .ok s := by
  have hbytes : (⟨(utf8 s).toArray⟩ : ByteArray) = s.toByteArray := rfl
  have hread : String.fromUTF8? s.toByteArray = some s := dif_pos s.isValidUTF8
  rw [ofUtf8, hbytes, hread]

/-- A value of a type, or none at all. -/
inductive ScalarType.Has : ScalarType → Value → Prop
  | null (type : ScalarType) : Has type .null
  | integer (n : Int64) : Has .integer (.integer n)
  | real (x : Binary64) : Has .real (.real x)
  | text (s : String) : Has .text (.text s)
  | boolean (b : Bool) : Has .boolean (.boolean b)
  | date (d : Date) : Has .date (.date d)

namespace ScalarType

variable {type : ScalarType} {v : Value} {stored : Stored}

/-- A value of a type is a single value. -/
theorem Has.isList (h : type.Has v) : v.isList = false := by
  cases h <;> rfl

/-- The value of a stored form, by its type. -/
def recover (type : ScalarType) (stored : Stored) : Except ReadFault Value := do
  type.coerce (← Value.ofStored stored)

/-- **Typed values are recovered from their stored form.** -/
theorem recover_store (h : type.Has v) (hstored : v.store? = some stored) :
    type.recover stored = .ok v := by
  cases h with
  | null =>
    cases hstored
    cases type <;> rfl
  | integer | real =>
    cases hstored
    rfl
  | text s =>
    cases hstored
    rw [recover, Value.ofStored, Text.ofUtf8_utf8]
    rfl
  | boolean b =>
    cases hstored
    cases b <;> rfl
  | date d =>
    -- A date is stored as its text, and reading that text gives the date back.
    cases hstored
    rw [recover, Value.ofStored, Text.ofUtf8_utf8]
    show coerce .date (.text d.text) = _
    rw [coerce, Date.parse_text]

/-- **What is bound for a typed value is recovered**, as a typed value that the same is bound for. -/
theorem exists_recover (h : type.Has v) (hbound : Connection.bind v = .ok stored) :
    ∃ v', type.recover stored = .ok v' ∧ type.Has v' ∧ Connection.bind v' = .ok stored := by
  by_cases hstored : v.store? = some stored
  · exact ⟨v, recover_store h hstored, h, hbound⟩
  -- Only what is no number is not bound as it is stored.
  obtain rfl : stored = .null := by
    unfold Connection.bind at hbound
    split at hbound
    · rename_i x hx
      cases hbound
      split at hstored
      · rw [if_pos ‹_›]
      · exact absurd hx hstored
    · rename_i hx
      cases hbound
      exact absurd hx hstored
    · cases hbound
  exact ⟨.null, recover_store (.null type) rfl, .null type, rfl⟩

/-- Nothing but null is recovered as null. -/
theorem recover_eq_null_iff (h : type.recover stored = .ok v) : v = .null ↔ stored = .null := by
  obtain ⟨raw, hraw, hv⟩ := bind_eq_ok_iff.1 h
  exact (coerce_eq_null_iff hv).trans (Value.ofStored_eq_null_iff hraw)

end ScalarType

/-- A value that is no list can be bound. -/
theorem Connection.exists_bind {v : Value} (h : v.isList = false) : ∃ stored, bind v = .ok stored := by
  cases v with
  | list => cases h
  | _ => exact ⟨_, rfl⟩

end EntityQuery
