import EntityQuery.Proofs.Statement.Holes
import Mathlib.Data.List.Chain

namespace EntityQuery

/-!
# Statements behind each other

However a statement is put together (`Statement.Built`), no two pieces of text stand side by side in it
(`Statement.Built.separated`): where text meets text, the two become one fragment.

What statements say does not depend on that.  The text of a statement is a reading of its fragments, and so
is what it is bound to, where the first slot that cannot be filled decides.  So a statement behind another
says what the first and then the second say (`Statement.concat_of_built`).
-/

/-! ### Text between values -/

namespace Fragment

/-- At least one of two fragments takes values. -/
def Apart : Fragment → Fragment → Prop
  | .sql _, .sql _ => False
  | _, _ => True

variable {e f : Fragment}

/-- Two fragments that run together are texts. -/
theorem texts_of_not_apart (h : ¬e.Apart f) : ∃ s t, e = .sql s ∧ f = .sql t := by
  cases e with
  | sql s =>
    cases f with
    | sql t => exact ⟨s, t, rfl, rfl⟩
    | _ => exact absurd trivial h
  | _ => exact absurd trivial h

/-- What a text says has no part in what it stands apart from. -/
theorem Apart.text {s : String} (h : e.Apart (.sql s)) (t : String) : e.Apart (.sql t) := by
  cases e with
  | sql => cases h
  | _ => trivial

/-- Why a fragment cannot be bound: there is no value for its slot, or a list where one value is taken. -/
def Fails (lookup : Slot → Except ParameterFault Value) (f : Fragment) (fault : ParameterFault) : Prop :=
  (∃ slot, f.slot? = some slot ∧ lookup slot = .error fault) ∨
    ∃ slot items, f = .slot slot ∧ lookup slot = .ok (.list items) ∧ fault = .listForValue slot

end Fragment

namespace Statement

/-- No two fragments side by side are both text. -/
def Separated (s : Statement) : Prop := s.fragments.IsChain Fragment.Apart

/-- How statements are put together. -/
inductive Built : Statement → Prop where
  | empty : Built {}
  | push {s} (built : Built s) (f : Fragment) : Built (s.push f)
  | pushSql {s} (built : Built s) (text : String) : Built (s.pushSql text)
  | concat {a b} (first : Built a) (second : Built b) : Built (a.concat b)
  | window {s w limit offset} (built : Built s) (windowed : s.window limit offset = .ok w) : Built w
  | native (text : String) : Built (Native.statement text)

variable {s w : Statement}

/-- An empty statement is separated. -/
theorem separated_empty : Separated {} := List.IsChain.nil

/-- Fragments that stay apart stand side by side. -/
theorem addTo_of_apart {f g : Fragment} (h : f.Apart g) : addTo [f] g = [f, g] := by
  cases f with
  | sql => cases g <;> first | rfl | cases h
  | _ => rfl

/-- One more fragment keeps a statement separated. -/
theorem Separated.push (h : s.Separated) (f : Fragment) : (s.push f).Separated := by
  obtain ⟨fragments⟩ := s
  rcases List.eq_nil_or_concat fragments with rfl | ⟨front, last, rfl⟩
  · exact List.isChain_singleton _
  unfold Separated at h ⊢
  rw [List.concat_eq_append] at h ⊢
  rw [push_concat]
  by_cases hapart : last.Apart f
  · rw [addTo_of_apart hapart, List.append_cons]
    refine List.isChain_append.2 ⟨h, List.isChain_singleton _, ?_⟩
    simpa using hapart
  · -- Two texts become one, and what stands in front of them stays apart.
    obtain ⟨before, text, rfl, rfl⟩ := Fragment.texts_of_not_apart hapart
    obtain ⟨hfront, _, hseam⟩ := List.isChain_append.1 h
    refine List.isChain_append.2 ⟨hfront, List.isChain_singleton _, ?_⟩
    rintro e he _ ⟨⟩
    exact (hseam e he (.sql before) rfl).text _

/-- So do any number of them. -/
theorem Separated.pushAll (h : s.Separated) (fs : List Fragment) : (s.pushAll fs).Separated := by
  induction fs generalizing s with
  | nil => exact h
  | cons f fs ih => exact ih (h.push f)

/-- **Text never stands beside text** in a statement that was put together. -/
theorem Built.separated (h : Built s) : s.Separated := by
  induction h with
  | empty => exact separated_empty
  | push _ f ih => exact ih.push f
  | pushSql _ text ih => exact ih.push (.sql text)
  | concat _ _ ih _ => exact ih.pushAll _
  | window _ windowed ih =>
    rw [eq_pushAll_of_window windowed]
    exact ih.pushAll _
  | native text => exact separated_empty.pushAll _

end Statement

/-! ### Text and values -/

namespace Reading

/-- Fragments as a reader sees them. -/
def text : Reading String where
  unit := ""
  op := (· ++ ·)
  of := Fragment.text
  op_assoc _ _ _ := String.append_assoc
  unit_op _ := String.empty_append
  op_unit _ := String.append_empty
  of_text _ _ := rfl

/-- Fragments with their values; the first that cannot be bound decides. -/
def binding (lookup : Slot → Except ParameterFault Value) : Reading (Except ParameterFault Bound) where
  unit := .ok ⟨"", []⟩
  op x y := do
    let b ← x
    let c ← y
    return ⟨b.sql ++ c.sql, b.values ++ c.values⟩
  of := Fragment.bind lookup
  op_assoc x y z := by
    simp only [bind_assoc, pure_bind, String.append_assoc, List.append_assoc]
  unit_op x := by cases x <;> simp [bind, Except.bind, pure, Except.pure]
  op_unit x := by cases x <;> simp [bind, Except.bind, pure, Except.pure]
  of_text _ _ := rfl

end Reading

namespace Statement

variable {a b : Statement} {lookup : Slot → Except ParameterFault Value}

/-- The text of a statement is one of its readings. -/
theorem text_eq_read (fs : List Fragment) : text ⟨fs⟩ = Reading.text.read fs := by
  induction fs with
  | nil => rfl
  | cons f fs ih =>
    rw [text, List.map_cons, String.join_cons]
    exact congrArg (f.text ++ ·) ih

/-- And what it is bound to is another. -/
theorem bind_eq_read (fs : List Fragment) : bind ⟨fs⟩ lookup = (Reading.binding lookup).read fs := by
  induction fs with
  | nil => rfl
  | cons f fs ih =>
    show _ = f.bind lookup >>= fun b => (Reading.binding lookup).read fs >>= _
    rw [← ih, bind, bind, List.mapM_cons]
    simp only [bind_assoc, pure_bind, List.map_cons, String.join_cons, List.flatMap_cons]

/-- The text of two statements is that of one behind the other. -/
theorem text_concat (a b : Statement) : (a.concat b).text = a.text ++ b.text := by
  show text ⟨(a.concat b).fragments⟩ = text ⟨a.fragments⟩ ++ text ⟨b.fragments⟩
  rw [text_eq_read, Reading.read_concat, Reading.read_append, ← text_eq_read, ← text_eq_read]
  rfl

/-- A statement behind another is bound as the fragments of both. -/
theorem bind_concat (a b : Statement) :
    (a.concat b).bind lookup = bind ⟨a.fragments ++ b.fragments⟩ lookup := by
  show bind ⟨(a.concat b).fragments⟩ lookup = _
  rw [bind_eq_read, bind_eq_read, Reading.read_concat]

/-- They are bound one after the other. -/
theorem bind_append (fs gs : List Fragment) :
    bind ⟨fs ++ gs⟩ lookup = do
      let b ← bind ⟨fs⟩ lookup
      let c ← bind ⟨gs⟩ lookup
      return ⟨b.sql ++ c.sql, b.values ++ c.values⟩ := by
  simp only [bind_eq_read, Reading.read_append]
  rfl

/-! ### Slots that cannot be filled -/

/-- The first of some fragments that cannot be bound, and why. -/
def FirstFails (lookup : Slot → Except ParameterFault Value) (fs : List Fragment)
    (fault : ParameterFault) : Prop :=
  ∃ front f back, fs = front ++ f :: back ∧ f.Fails lookup fault ∧
    ∀ g ∈ front, ∀ other, ¬g.Fails lookup other

/-- A fragment is bound unless it fails. -/
theorem exists_bind_iff_not_fails {f : Fragment} :
    (∃ part, f.bind lookup = .ok part) ↔ ∀ fault, ¬f.Fails lookup fault := by
  unfold Fragment.Fails
  simp only [← Fragment.bind_eq_fault_iff]
  cases f.bind lookup <;> simp

/-- A statement cannot be bound because of its first fragment that cannot. -/
theorem bind_eq_error_iff_firstFails {fs : List Fragment} {fault : ParameterFault} :
    bind ⟨fs⟩ lookup = .error fault ↔ FirstFails lookup fs fault := by
  have hbind : bind ⟨fs⟩ lookup = .error fault ↔ fs.mapM (Fragment.bind lookup) = .error fault := by
    rw [bind, bind_eq_error_iff]
    exact or_iff_left fun ⟨_, _, h⟩ => by cases h
  simp only [hbind, listMapM_eq_error_iff, exists_bind_iff_not_fails, Fragment.bind_eq_fault_iff]
  rfl

/-- **A statement behind another means what both mean, one after the other.**  However the two are put
    together, text never stands beside text in them or in what they make up.  As a text that is the text of
    the first and then that of the second.  It can be bound exactly if both can, and then has the texts and
    the values of both; otherwise the first slot that cannot be filled, in the order of both, says why. -/
theorem concat_of_built (ha : a.Built) (hb : b.Built) :
    (a.Separated ∧ b.Separated ∧ (a.concat b).Separated) ∧
    (a.concat b).text = a.text ++ b.text ∧
    ∀ lookup,
      (∀ bound, (a.concat b).bind lookup = .ok bound ↔
        ∃ x y, a.bind lookup = .ok x ∧ b.bind lookup = .ok y ∧
          bound = ⟨x.sql ++ y.sql, x.values ++ y.values⟩) ∧
      ∀ fault, (a.concat b).bind lookup = .error fault ↔
        FirstFails lookup (a.fragments ++ b.fragments) fault := by
  refine ⟨⟨ha.separated, hb.separated, (Built.concat ha hb).separated⟩, text_concat a b,
    fun lookup => ⟨fun bound => ?_, fun fault => ?_⟩⟩
  · rw [bind_concat, bind_append]
    simp only [bind_eq_ok_iff, pure_eq_ok_iff]
    constructor
    · rintro ⟨x, hx, y, hy, rfl⟩
      exact ⟨x, y, hx, hy, rfl⟩
    · rintro ⟨x, y, hx, hy, rfl⟩
      exact ⟨x, hx, y, hy, rfl⟩
  · rw [bind_concat, bind_eq_error_iff_firstFails]

end Statement

namespace Sample

/-- A test with text behind its value. -/
def ofAge : Statement := ((({} : Statement).pushSql "(age > ").push (.slot ⟨0, none⟩)).pushSql ")"

/-- A test with text in front of its value. -/
def ofName : Statement := (({} : Statement).pushSql " and name = ").push (.slot ⟨1, none⟩)

/-- The first argument alone is given. -/
def onlyFirst (slot : Slot) : Except ParameterFault Value :=
  if slot.index = 0 then .ok (.integer 30) else .error (.noValue slot 1 0)

/-- Every argument is the same. -/
def allAlike (_ : Slot) : Except ParameterFault Value := .ok (.integer 30)

end Sample

/-- The texts at the seam of two tests are one, and the second of two arguments is missing. -/
theorem Statement.concat_of_built_ageAndName :
    Sample.ofAge.Built ∧ Sample.ofName.Built ∧ (Sample.ofAge.concat Sample.ofName).Separated ∧
      (Sample.ofAge.concat Sample.ofName).text = Sample.ofAge.text ++ Sample.ofName.text ∧
      (Sample.ofAge.concat Sample.ofName).bind Sample.allAlike =
        .ok ⟨"(age > ?)" ++ " and name = ?", [.integer 30] ++ [.integer 30]⟩ ∧
      (Sample.ofAge.concat Sample.ofName).bind Sample.onlyFirst = .error (.noValue ⟨1, none⟩ 1 0) := by
  have hage : Sample.ofAge.Built := .pushSql (.push (.pushSql .empty _) _) _
  have hname : Sample.ofName.Built := .push (.pushSql .empty _) _
  obtain ⟨⟨_, _, hseparated⟩, htext, hbind⟩ := concat_of_built hage hname
  refine ⟨hage, hname, hseparated, htext, ?_, ?_⟩
  · exact ((hbind Sample.allAlike).1 _).2 ⟨_, _, rfl, rfl, rfl⟩
  · refine ((hbind Sample.onlyFirst).2 _).2
      ⟨Sample.ofAge.fragments ++ [.sql " and name = "], .slot ⟨1, none⟩, [], rfl,
        .inl ⟨⟨1, none⟩, rfl, rfl⟩, fun f hf => exists_bind_iff_not_fails.1 ?_⟩
    simp only [Sample.ofAge, Statement.pushSql, Statement.push, addTo, List.cons_append,
      List.nil_append, List.mem_cons, List.not_mem_nil, or_false] at hf
    rcases hf with rfl | rfl | rfl | rfl <;> exact ⟨_, rfl⟩

end EntityQuery
