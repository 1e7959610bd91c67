import EntityQuery.Proofs.Statement.Slots
import EntityQuery.Proofs.Template.Accepted

namespace EntityQuery

/-!
# Comparisons of a condition

A written condition is a tree of brackets around comparisons, and reading it is reading its comparisons
one after the other (`Template.compares_of_optionalCondition`): the tests of the predicate are those of
the written comparisons in written order, whatever brackets stand around them.  What is asked of each
comparison needs no further induction on brackets.
-/

/-! ### Written comparisons -/

/-- A path and what is asked of it. -/
structure WrittenComparison where
  path : WrittenPath
  test : WrittenTest

mutual

/-- The comparisons of an atom in written order. -/
def WrittenAtom.comparisons : WrittenAtom → List WrittenComparison
  | .comparison path test => [⟨path, test⟩]
  | .group alternatives => comparisonsOfAll alternatives

/-- The comparisons of alternatives. -/
def WrittenAtom.comparisonsOfAll : List (List WrittenAtom) → List WrittenComparison
  | [] => []
  | atoms :: more => comparisonsOf atoms ++ comparisonsOfAll more

/-- The comparisons of atoms. -/
def WrittenAtom.comparisonsOf : List WrittenAtom → List WrittenComparison
  | [] => []
  | a :: more => a.comparisons ++ comparisonsOf more

end

/-- The comparisons of a condition that may be missing. -/
def WrittenCondition.comparisons (c : Option WrittenCondition) : List WrittenComparison :=
  c.elim [] WrittenAtom.comparisonsOfAll

namespace Predicate

/-- The tests of an optional predicate are those of the one it may have. -/
theorem flatMap_tests_toList (p : Option Predicate) : p.toList.flatMap tests = optionalTests p := by
  cases p with
  | none => rfl
  | some p => exact List.flatMap_singleton _ _

end Predicate

namespace Template

open Predicate (Test optionalTests)

variable {scope : Scope} {n n' : Numbering}

/-! ### Comparisons one after the other -/

/-- Comparisons that are read one after the other, with the tests that they become. -/
inductive Compares (scope : Scope) :
    Numbering → List WrittenComparison → List Test → Numbering → Prop where
  | nil (n : Numbering) : Compares scope n [] [] n
  | cons {n next n' : Numbering} {c : WrittenComparison} {cs : List WrittenComparison} {t : Test}
    {ts : List Test}
    (read : comparison scope c.path c.test n = .ok (.comparison t.path t.operator t.operand, next))
    (more : Compares scope next cs ts n') : Compares scope n (c :: cs) (t :: ts) n'

/-- Comparisons one behind the other are read so. -/
theorem Compares.append {n next n' : Numbering} {cs ds : List WrittenComparison} {ts us : List Test}
    (hc : Compares scope n cs ts next) (hd : Compares scope next ds us n') :
    Compares scope n (cs ++ ds) (ts ++ us) n' := by
  induction hc with
  | nil => exact hd
  | cons hread _ ih => exact .cons hread (ih hd)

/-- Where each comparison is read to a test with a property, all tests have it. -/
theorem Compares.forall₂ {R : WrittenComparison → Test → Prop}
    (hR : ∀ {c t n n'}, comparison scope c.path c.test n =
      .ok (.comparison t.path t.operator t.operand, n') → R c t)
    {cs : List WrittenComparison} {ts : List Test} (h : Compares scope n cs ts n') :
    List.Forall₂ R cs ts := by
  induction h with
  | nil => exact .nil
  | cons hread _ ih => exact .cons (hR hread) ih

/-- What a comparison is read as. -/
theorem comparison_ok {written : WrittenPath} {t : WrittenTest} {p : Predicate}
    (h : comparison scope written t n = .ok (p, n')) :
    ∃ path operator o, p = .comparison path operator o ∧ scope.path written = .ok path ∧
      (∃ r, scope.schema.resolve scope.root path = .ok r) ∧ test t n = .ok ((operator, o), n') := by
  unfold comparison at h
  obtain ⟨path, _, hlift, h⟩ := bind_ok_iff.1 h
  obtain ⟨hpath, rfl⟩ := lift_ok_iff.1 hlift
  obtain ⟨r, _, hlift, h⟩ := bind_ok_iff.1 h
  obtain ⟨hr, rfl⟩ := lift_ok_iff.1 hlift
  obtain ⟨⟨operator, o⟩, next, htest, h⟩ := bind_ok_iff.1 h
  -- An association can be refused, but what is not refused is the comparison as it stands.
  have hkept : p = .comparison path operator o ∧ next = n' := by
    cases hassociation : r.association? with
    | none =>
      simp only [hassociation] at h
      cases h
      exact ⟨rfl, rfl⟩
    | some a =>
      simp only [hassociation] at h
      split at h
      · cases h
        exact ⟨rfl, rfl⟩
      · cases h
  obtain ⟨rfl, rfl⟩ := hkept
  exact ⟨path, operator, o, rfl, hpath, ⟨r, Scope.resolve_eq_ok_iff.1 hr⟩, htest⟩

mutual

/-- **Brackets do not matter to what is compared**: an atom is read comparison by comparison. -/
theorem compares_of_atom {n n' : Numbering} {p : Option Predicate} :
    (a : WrittenAtom) → atom scope a n = .ok (p, n') →
      Compares scope n a.comparisons (optionalTests p) n'
  | .comparison written t, h => by
    rw [atom] at h
    obtain ⟨q, _, hq, h⟩ := bind_ok_iff.1 h
    cases h
    obtain ⟨path, operator, o, rfl, _⟩ := comparison_ok hq
    rw [WrittenAtom.comparisons]
    exact .cons hq (.nil _)
  | .group alternatives, h => by
    rw [atom] at h
    obtain ⟨ps, _, hps, h⟩ := bind_ok_iff.1 h
    cases h
    rw [WrittenAtom.comparisons, Predicate.optionalTests_any]
    exact compares_of_conjunctions alternatives hps

/-- The alternatives of a condition compare what is written in them. -/
theorem compares_of_conjunctions {n n' : Numbering} {ps : List Predicate} :
    (alternatives : List (List WrittenAtom)) → conjunctions scope alternatives n = .ok (ps, n') →
      Compares scope n (WrittenAtom.comparisonsOfAll alternatives) (ps.flatMap Predicate.tests) n'
  | [], h => by
    rw [conjunctions] at h
    cases h
    rw [WrittenAtom.comparisonsOfAll]
    exact .nil _
  | atoms :: more, h => by
    rw [conjunctions] at h
    obtain ⟨first, _, hfirst, h⟩ := bind_ok_iff.1 h
    obtain ⟨rest, _, hrest, h⟩ := bind_ok_iff.1 h
    cases h
    rw [WrittenAtom.comparisonsOfAll, List.flatMap_append, Predicate.flatMap_tests_toList,
      Predicate.optionalTests_all]
    exact (compares_of_atomsOf atoms hfirst).append (compares_of_conjunctions more hrest)

/-- And so do the atoms of each of them. -/
theorem compares_of_atomsOf {n n' : Numbering} {ps : List Predicate} :
    (atoms : List WrittenAtom) → atomsOf scope atoms n = .ok (ps, n') →
      Compares scope n (WrittenAtom.comparisonsOf atoms) (ps.flatMap Predicate.tests) n'
  | [], h => by
    rw [atomsOf] at h
    cases h
    rw [WrittenAtom.comparisonsOf]
    exact .nil _
  | a :: more, h => by
    rw [atomsOf] at h
    obtain ⟨first, _, hfirst, h⟩ := bind_ok_iff.1 h
    obtain ⟨rest, _, hrest, h⟩ := bind_ok_iff.1 h
    cases h
    rw [WrittenAtom.comparisonsOf, List.flatMap_append, Predicate.flatMap_tests_toList]
    exact (compares_of_atom a hfirst).append (compares_of_atomsOf more hrest)

end

/-- **A condition is read comparison by comparison.** -/
theorem compares_of_optionalCondition {c : Option WrittenCondition} {p : Option Predicate}
    (h : optionalCondition scope c n = .ok (p, n')) :
    Compares scope n (WrittenCondition.comparisons c) (optionalTests p) n' := by
  cases c with
  | none =>
    cases h
    exact .nil _
  | some alternatives =>
    obtain ⟨ps, _, hps, h⟩ := bind_ok_iff.1 h
    cases h
    rw [Predicate.optionalTests_any]
    exact compares_of_conjunctions alternatives hps

end Template

end EntityQuery
