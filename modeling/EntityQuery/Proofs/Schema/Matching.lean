import EntityQuery.Schema.PropertyMatch
import Mathlib.Data.List.Basic

namespace EntityQuery

/-!
# What property matching finds

`Matches` says without any order of search when words begin with a property: a name that is joined
from the first words is declared by the entity, or it is that of a to-one association and the words
behind it begin with a property of its target.  The search finds one of these matches
(`matches_of_matchWithin`), and none is longer (`le_matchWithin`).  The words behind a match have no
part in it, so it cuts the words in two (`Matches.cut`).
-/

/-- An entity has a property with the given name. -/
def Entity.Declares (e : Entity) (name : String) : Prop :=
  (e.fieldNamed? name).isSome = true ∨ (e.associationNamed? name).isSome = true

/-- The paths of an entity that cross at most one association. -/
inductive IsProperty (schema : Schema) (root : Entity) : Path → Prop where
  | own {name} (declared : root.Declares name) : IsProperty schema root ⟨[name]⟩
  | across {first name a target} (named : root.associationNamed? first = some a)
    (toOne : a.isToOne = true) (reached : schema.entity? a.target = some target)
    (declared : target.Declares name) : IsProperty schema root ⟨[first, name]⟩

/-- The first `n` words are those of the path, which crosses at most `depth` associations. -/
inductive Matches (schema : Schema) : Nat → Entity → List String → Path → Nat → Prop where
  | own {depth e words n} (pos : 0 < n) (le : n ≤ words.length)
    (declared : e.Declares (Text.lowerCamel (words.take n))) :
    Matches schema depth e words ⟨[Text.lowerCamel (words.take n)]⟩ n
  | across {depth e words n a target path used} (pos : 0 < n) (le : n ≤ words.length)
    (named : e.associationNamed? (Text.lowerCamel (words.take n)) = some a)
    (toOne : a.isToOne = true) (reached : schema.entity? a.target = some target)
    (beyond : Matches schema depth target (words.drop n) path used) :
    Matches schema (depth + 1) e words ⟨Text.lowerCamel (words.take n) :: path.segments⟩ (n + used)

namespace Schema

variable {schema : Schema} {root : Entity} {depth : Nat} {words : List String} {path : Path}
  {n : Nat}

/-! ### The longest of some matches -/

/-- The longer of two matches is not shorter than the first. -/
theorem le_longer_left (best candidate : PropertyMatch) :
    ∃ m, longer (some best) candidate = some m ∧ best.2 ≤ m.2 := by
  unfold longer
  by_cases h : candidate.2 ≤ best.2
  · exact ⟨best, if_pos h, Nat.le_refl _⟩
  · exact ⟨candidate, if_neg h, by omega⟩

/-- Nor is it shorter than the second. -/
theorem le_longer_right (best : Option PropertyMatch) (candidate : PropertyMatch) :
    ∃ m, longer best candidate = some m ∧ candidate.2 ≤ m.2 := by
  cases best with
  | none => exact ⟨candidate, rfl, Nat.le_refl _⟩
  | some best =>
    by_cases h : candidate.2 ≤ best.2
    · exact ⟨best, if_pos h, h⟩
    · exact ⟨candidate, if_neg h, Nat.le_refl _⟩

/-- A match that was found is only given up for a longer one. -/
theorem le_foldl_longer (candidates : List PropertyMatch) (best : PropertyMatch) :
    ∃ m, candidates.foldl longer (some best) = some m ∧ best.2 ≤ m.2 := by
  induction candidates generalizing best with
  | nil => exact ⟨best, rfl, Nat.le_refl _⟩
  | cons c cs ih =>
    -- The best after one step is at least as long, and the others can only lengthen it.
    obtain ⟨first, hfirst, hle⟩ := le_longer_left best c
    obtain ⟨m, hm, hle'⟩ := ih first
    rw [List.foldl_cons, hfirst]
    exact ⟨m, hm, Nat.le_trans hle hle'⟩

/-- No match is longer than the longest. -/
theorem le_longest {candidates : List PropertyMatch} {c : PropertyMatch} (h : c ∈ candidates) :
    ∃ m, longest candidates = some m ∧ c.2 ≤ m.2 := by
  -- Whatever was found before `c`, it is compared with `c`, and what comes after is no shorter.
  obtain ⟨before, after, rfl⟩ := List.append_of_mem h
  obtain ⟨first, hfirst, hle⟩ := le_longer_right (before.foldl longer none) c
  obtain ⟨m, hm, hle'⟩ := le_foldl_longer after first
  refine ⟨m, ?_, Nat.le_trans hle hle'⟩
  rw [longest, List.foldl_append, List.foldl_cons, hfirst, hm]

/-! ### The candidates -/

/-- What is found behind an association by a search of the given depth. -/
def beyond (schema : Schema) : Nat → Association → List String → Option PropertyMatch
  | 0, _, _ => none
  | depth + 1, a, rest =>
    if a.isToOne then
      (schema.entity? a.target).bind fun target => schema.matchWithin depth target rest
    else none

/-- The match is the longest of all that begin with some number of words. -/
theorem matchWithin_eq (schema : Schema) (depth : Nat) (e : Entity) (words : List String) :
    schema.matchWithin depth e words =
      longest ((List.range' 1 words.length).flatMap (matchesOf (schema.beyond depth) e words)) := by
  cases depth <;> rfl

/-- A field of that name is a match by itself. -/
theorem mem_own {e : Entity} {name : String} {here m : PropertyMatch} :
    m ∈ (if (e.fieldNamed? name).isSome then [here] else []) ↔
      m = here ∧ (e.fieldNamed? name).isSome = true := by
  split
  · rename_i h
    simp [h]
  · rename_i h
    simp [h]

/-- The candidates that begin with the first `n` words: a property of the entity itself, or one
    behind the association of that name. -/
theorem mem_matchesOf {beyond : Association → List String → Option PropertyMatch} {e : Entity}
    {m : PropertyMatch} :
    m ∈ matchesOf beyond e words n ↔
      (m = (⟨[Text.lowerCamel (words.take n)]⟩, n) ∧ e.Declares (Text.lowerCamel (words.take n))) ∨
      ∃ a path used, e.associationNamed? (Text.lowerCamel (words.take n)) = some a ∧
        beyond a (words.drop n) = some (path, used) ∧
        m = (⟨Text.lowerCamel (words.take n) :: path.segments⟩, n + used) := by
  unfold matchesOf Entity.Declares
  dsimp only
  cases hnamed : e.associationNamed? (Text.lowerCamel (words.take n)) with
  | none =>
    rw [mem_own]
    constructor
    · rintro ⟨rfl, hfield⟩
      exact .inl ⟨rfl, .inl hfield⟩
    · rintro (⟨rfl, hfield | hassociation⟩ | ⟨_, _, _, h, _⟩)
      · exact ⟨rfl, hfield⟩
      · cases hassociation
      · cases h
  | some a =>
    -- An association is a match by itself, and what lies behind it gives further ones.
    rw [List.mem_append, mem_own, List.mem_cons, Option.mem_toList, Option.map_eq_some_iff]
    constructor
    · rintro (⟨rfl, hfield⟩ | rfl | ⟨⟨path, used⟩, hbeyond, rfl⟩)
      · exact .inl ⟨rfl, .inl hfield⟩
      · exact .inl ⟨rfl, .inr rfl⟩
      · exact .inr ⟨a, path, used, rfl, hbeyond, rfl⟩
    · rintro (⟨rfl, _⟩ | ⟨_, path, used, h, hbeyond, rfl⟩)
      · exact .inr (.inl rfl)
      · cases h
        exact .inr (.inr ⟨(path, used), hbeyond, rfl⟩)

/-- Behind an association to one record the rest of the words is matched, one step less deep. -/
theorem beyond_eq_some_iff {a : Association} {m : PropertyMatch} :
    schema.beyond depth a words = some m ↔
      ∃ depth' target, depth = depth' + 1 ∧ a.isToOne = true ∧
        schema.entity? a.target = some target ∧
        schema.matchWithin depth' target words = some m := by
  cases depth with
  | zero => exact ⟨nofun, fun ⟨_, _, h, _⟩ => Nat.noConfusion h⟩
  | succ depth =>
    rw [beyond, Option.ite_none_right_eq_some, Option.bind_eq_some_iff]
    constructor
    · rintro ⟨htoOne, target, hreached, hm⟩
      exact ⟨depth, target, rfl, htoOne, hreached, hm⟩
    · rintro ⟨_, target, hdepth, htoOne, hreached, hm⟩
      cases hdepth
      exact ⟨htoOne, target, hreached, hm⟩

/-! ### The search -/

/-- A candidate is a match, if what is found with less depth is one. -/
theorem matches_of_candidate {m : PropertyMatch} (hpos : 0 < n) (hle : n ≤ words.length)
    (hbelow : ∀ {below target words path used}, depth = below + 1 →
      schema.matchWithin below target words = some (path, used) →
      Matches schema below target words path used)
    (h : m ∈ matchesOf (schema.beyond depth) root words n) :
    Matches schema depth root words m.1 m.2 := by
  rcases mem_matchesOf.1 h with ⟨rfl, hdeclared⟩ | ⟨a, path, used, hnamed, hbeyond, rfl⟩
  · exact .own hpos hle hdeclared
  · obtain ⟨below, target, rfl, htoOne, hreached, hrest⟩ := beyond_eq_some_iff.1 hbeyond
    exact .across hpos hle hnamed htoOne hreached (hbelow rfl hrest)

/-- **The search finds a match.** -/
theorem matches_of_matchWithin (h : schema.matchWithin depth root words = some (path, n)) :
    Matches schema depth root words path n := by
  induction depth using Nat.strongRecOn generalizing root words path n with
  | ind depth ih =>
    rw [matchWithin_eq] at h
    obtain ⟨k, hk, hm⟩ := List.mem_flatMap.1 (mem_of_longest h)
    have hrange := List.mem_range'_1.1 hk
    exact matches_of_candidate (by omega) (by omega) (fun hdepth hrest => ih _ (by omega) hrest) hm

/-- Each candidate of the search is a match. -/
theorem matches_of_mem_matchesOf {m : PropertyMatch} (hpos : 0 < n) (hle : n ≤ words.length)
    (h : m ∈ matchesOf (schema.beyond depth) root words n) :
    Matches schema depth root words m.1 m.2 :=
  matches_of_candidate hpos hle (fun _ hrest => matches_of_matchWithin hrest) h

/-- **No match is longer** than the one that the search finds. -/
theorem le_matchWithin (h : Matches schema depth root words path n) :
    ∃ best used, schema.matchWithin depth root words = some (best, used) ∧ n ≤ used := by
  have hfound : ∀ {depth root words} {m : PropertyMatch} {k : Nat}, 0 < k → k ≤ words.length →
      m ∈ matchesOf (schema.beyond depth) root words k →
      ∃ best used, schema.matchWithin depth root words = some (best, used) ∧ m.2 ≤ used := by
    intro depth root words m k hpos hle hm
    have hrange : k ∈ List.range' 1 words.length := List.mem_range'_1.2 (by omega)
    obtain ⟨⟨best, used⟩, hbest, hle⟩ := le_longest (List.mem_flatMap.2 ⟨k, hrange, hm⟩)
    exact ⟨best, used, (matchWithin_eq _ _ _ _).trans hbest, hle⟩
  induction h with
  | own hpos hle hdeclared => exact hfound hpos hle (mem_matchesOf.2 (.inl ⟨rfl, hdeclared⟩))
  | @across depth e words k a target path used hpos hle hnamed htoOne hreached _ ih =>
    -- Behind the association the search may find something longer.
    obtain ⟨best, used', hbest, hused⟩ := ih
    have hbeyond : schema.beyond (depth + 1) a (words.drop k) = some (best, used') :=
      beyond_eq_some_iff.2 ⟨depth, target, rfl, htoOne, hreached, hbest⟩
    obtain ⟨best, total, htotal, hle'⟩ :=
      hfound hpos hle (mem_matchesOf.2 (.inr ⟨a, best, used', hnamed, hbeyond, rfl⟩))
    exact ⟨best, total, htotal, Nat.le_trans (Nat.add_le_add_left hused k) hle'⟩

end Schema

/-! ### Matches and properties -/

namespace Matches

variable {schema : Schema} {root : Entity} {depth : Nat} {words : List String} {path : Path}
  {n : Nat}

/-- A match takes words. -/
theorem pos (h : Matches schema depth root words path n) : 0 < n := by
  cases h with
  | own hpos => exact hpos
  | across hpos => exact Nat.add_pos_left hpos _

/-- It takes no more than there are. -/
theorem le (h : Matches schema depth root words path n) : n ≤ words.length := by
  induction h with
  | own _ hle => exact hle
  | across _ hle _ _ _ _ ih =>
    rw [List.length_drop] at ih
    omega

/-- A name that is joined from the first words. -/
theorem of_joined {e : Entity} {name : String} (hpos : 0 < n) (hle : n ≤ words.length)
    (hname : Text.lowerCamel (words.take n) = name) (hdeclared : e.Declares name) :
    Matches schema depth e words ⟨[name]⟩ n := by
  subst hname
  exact .own hpos hle hdeclared

/-- The name of an association that is joined from the first words, with a match behind it. -/
theorem of_joined_association {e target : Entity} {name : String} {a : Association}
    {rest : List String} {used : Nat} (hpos : 0 < n) (hle : n ≤ words.length)
    (hname : Text.lowerCamel (words.take n) = name) (hnamed : e.associationNamed? name = some a)
    (htoOne : a.isToOne = true) (hreached : schema.entity? a.target = some target)
    (hrest : words.drop n = rest) (hbeyond : Matches schema depth target rest path used) :
    Matches schema (depth + 1) e words ⟨name :: path.segments⟩ (n + used) := by
  subst hname
  subst hrest
  exact .across hpos hle hnamed htoOne hreached hbeyond

/-- The words behind a match have no part in it. -/
theorem take (h : Matches schema depth root words path n) :
    Matches schema depth root (words.take n) path n := by
  induction h with
  | @own depth e words n hpos hle hdeclared =>
    have hlength : n ≤ (words.take n).length := by
      rw [List.length_take]
      omega
    have htake : (words.take n).take n = words.take n := by rw [List.take_take, Nat.min_self]
    exact of_joined hpos hlength (by rw [htake]) hdeclared
  | @across depth e words k a target path used hpos hle hnamed htoOne hreached hbeyond ih =>
    have hlength : k ≤ (words.take (k + used)).length := by
      rw [List.length_take]
      omega
    have htake : (words.take (k + used)).take k = words.take k := by
      rw [List.take_take, Nat.min_eq_left (Nat.le_add_right k used)]
    -- Cutting the words off behind the match leaves it the same words on both sides of the association.
    have hdrop : (words.take (k + used)).drop k = (words.drop k).take used := by
      rw [List.drop_take, Nat.add_sub_cancel_left]
    exact of_joined_association hpos hlength (by rw [htake]) hnamed htoOne hreached hdrop ih

/-- A match cuts the words: its own make it up, and the others stand behind them. -/
theorem cut (h : Matches schema depth root words path n) {spelling rest : List String}
    (hrest : words.drop n = spelling ++ rest) :
    Matches schema depth root (words.take n) path (words.take n).length ∧
      words = words.take n ++ spelling ++ rest := by
  have hlength : (words.take n).length = n := List.length_take_of_le h.le
  constructor
  · rw [hlength]
    exact h.take
  · rw [List.append_assoc, ← hrest, List.take_append_drop]

/-- A match that crosses at most one association is that of a property. -/
theorem isProperty (h : Matches schema 1 root words path n) : IsProperty schema root path := by
  cases h with
  | own _ _ hdeclared => exact .own hdeclared
  | across _ _ hnamed htoOne hreached hbeyond =>
    cases hbeyond with
    | own _ _ hdeclared => exact .across hnamed htoOne hreached hdeclared

end Matches

end EntityQuery
