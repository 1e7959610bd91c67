import EntityQuery.Sql.Statement

namespace EntityQuery

/-!
# Readings of a statement

Text that is pushed behind text joins it, so the fragments of a statement are not those that it was made of.
Most of what is asked of a statement does not depend on that: whatever fragments are read as, if text can be
cut anywhere, a statement is read as all that was pushed, one behind the other (`Reading.read_pushAll`).
-/

/-- What fragments are read as, and how readings are put behind each other.  Text can be cut anywhere. -/
structure Reading (α : Type) where
  unit : α
  op : α → α → α
  of : Fragment → α
  op_assoc : ∀ x y z, op (op x y) z = op x (op y z)
  unit_op : ∀ x, op unit x = x
  op_unit : ∀ x, op x unit = x
  of_text : ∀ s t, of (.sql (s ++ t)) = op (of (.sql s)) (of (.sql t))

namespace Reading

variable {α : Type} (R : Reading α)

/-- Fragments read one behind the other. -/
def read (fs : List Fragment) : α := fs.foldr (fun f rest => R.op (R.of f) rest) R.unit

@[simp] theorem read_nil : R.read [] = R.unit := rfl

@[simp] theorem read_cons (f : Fragment) (fs : List Fragment) :
    R.read (f :: fs) = R.op (R.of f) (R.read fs) := rfl

/-- Fragments one behind the other are read so. -/
theorem read_append (fs gs : List Fragment) : R.read (fs ++ gs) = R.op (R.read fs) (R.read gs) := by
  induction fs with
  | nil => rw [List.nil_append, read_nil, R.unit_op]
  | cons f fs ih => rw [List.cons_append, read_cons, read_cons, ih, R.op_assoc]

/-- Text that joins other text is read as what it would be beside it. -/
theorem read_addTo (fs : List Fragment) (f : Fragment) :
    R.read (Statement.addTo fs f) = R.read (fs ++ [f]) := by
  fun_induction Statement.addTo fs f with
  | case1 f => rfl
  | case2 before text =>
    rw [List.singleton_append, read_cons, read_cons, read_cons, read_nil, R.op_unit, R.op_unit, R.of_text]
  | case3 f fs g _ ih => rw [List.cons_append, read_cons, read_cons, ih]

/-- A fragment that is added is read at the end, whether or not it joins a text. -/
theorem read_push (s : Statement) (f : Fragment) :
    R.read (s.push f).fragments = R.read (s.fragments ++ [f]) := R.read_addTo s.fragments f

/-- **A statement is read as all that was pushed.** -/
theorem read_pushAll (s : Statement) (fs : List Fragment) :
    R.read (s.pushAll fs).fragments = R.read (s.fragments ++ fs) := by
  induction fs generalizing s with
  | nil => rw [List.append_nil]; rfl
  | cons f fs ih =>
    show R.read ((s.push f).pushAll fs).fragments = _
    rw [ih, read_append, read_push, ← read_append, List.append_assoc, List.singleton_append]

/-- A statement is read as its fragments. -/
theorem read_ofFragments (fs : List Fragment) : R.read (Statement.ofFragments fs).fragments = R.read fs :=
  R.read_pushAll {} fs

/-- Two statements are read one behind the other. -/
theorem read_concat (a b : Statement) :
    R.read (a.concat b).fragments = R.read (a.fragments ++ b.fragments) :=
  R.read_pushAll a b.fragments

/-- Each fragment is read as some items. -/
def ofItems (items : Fragment → List α)
    (of_text : ∀ s t, items (.sql (s ++ t)) = items (.sql s) ++ items (.sql t)) : Reading (List α) where
  unit := []
  op := (· ++ ·)
  of := items
  op_assoc := List.append_assoc
  unit_op := List.nil_append
  op_unit := List.append_nil
  of_text := of_text

/-- The items of all fragments. -/
theorem read_ofItems {items : Fragment → List α}
    {of_text : ∀ s t, items (.sql (s ++ t)) = items (.sql s) ++ items (.sql t)} (fs : List Fragment) :
    (ofItems items of_text).read fs = fs.flatMap items := by
  induction fs with
  | nil => rfl
  | cons f fs ih =>
    rw [read_cons, ih, List.flatMap_cons]
    rfl

end Reading

end EntityQuery
