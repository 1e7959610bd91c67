import EntityQuery.Schema.Basic
import EntityQuery.Schema.Path

namespace EntityQuery

/-!
# Matching words with properties

A list of camel-case words may begin with the name of a property: `Team`, `Name`, `Like` begins
with `team.name` where `team` is an association. At most one association is followed, and the
longest match wins; of several longest ones the first that is found.
-/

namespace Schema

/-- A path and the number of words it was found in. -/
abbrev PropertyMatch := Path × Nat

/-- Keeps the match that was found first unless the new one is longer. -/
def longer (best : Option PropertyMatch) (candidate : PropertyMatch) : Option PropertyMatch :=
  match best with
  | some b => if candidate.2 ≤ b.2 then some b else some candidate
  | none => some candidate

/-- The longest of some matches. -/
def longest (candidates : List PropertyMatch) : Option PropertyMatch :=
  candidates.foldl longer none

/-- What a search ends with was there before, or is one of the candidates. -/
theorem longest_append (best : Option PropertyMatch) (candidates : List PropertyMatch)
    {m : PropertyMatch} (h : candidates.foldl longer best = some m) :
    best = some m ∨ m ∈ candidates := by
  induction candidates generalizing best with
  | nil => exact .inl h
  | cons c cs ih =>
    -- Found later, or it is what the first candidate left: that, or what was best before it.
    rcases ih _ h with h | h
    · cases best with
      | none => simp_all [longer]
      | some b =>
        unfold longer at h
        split at h
        · split at h <;> simp_all
        · simp_all
    · exact .inr (List.mem_cons_of_mem _ h)

/-- The longest match is one of them. -/
theorem mem_of_longest {candidates : List PropertyMatch} {m : PropertyMatch}
    (h : longest candidates = some m) : m ∈ candidates := by
  rcases longest_append none candidates h with h | h
  · cases h
  · exact h

/-- The matches of an entity that begin with its own property named by the first `n` words. `beyond`
    continues behind an association with the words that are left. -/
def matchesOf (beyond : Association → List String → Option PropertyMatch) (entity : Entity)
    (words : List String) (n : Nat) : List PropertyMatch :=
  let name := Text.lowerCamel (words.take n)
  let here : PropertyMatch := (.single name, n)
  let asField := if (entity.fieldNamed? name).isSome then [here] else []
  -- A field of the same name comes first, and is kept where an association is no longer.
  match entity.associationNamed? name with
  | none => asField
  | some a =>
    let nested := (beyond a (words.drop n)).map fun (path, used) =>
      ((⟨name :: path.segments⟩ : Path), n + used)
    asField ++ here :: nested.toList

/-- A match takes at least the words of its first property. -/
theorem le_of_mem_matchesOf {beyond : Association → List String → Option PropertyMatch}
    {entity : Entity} {words : List String} {n : Nat} {m : PropertyMatch}
    (h : m ∈ matchesOf beyond entity words n) : n ≤ m.2 := by
  unfold matchesOf at h
  have own {p : Path} (hm : m ∈ if (entity.fieldNamed? (Text.lowerCamel (words.take n))).isSome
      then [((p, n) : PropertyMatch)] else []) : n ≤ m.2 := by
    split at hm <;> simp_all
  dsimp only at h
  split at h
  · exact own h
  · rcases List.mem_append.1 h with h | h
    · exact own h
    · rcases List.mem_cons.1 h with rfl | h
      · exact Nat.le_refl _
      · obtain ⟨⟨p, u⟩, _, rfl⟩ := Option.map_eq_some_iff.1 (Option.mem_toList.1 h)
        exact Nat.le_add_right _ _

/-- The longest match that follows at most `depth` associations. -/
def matchWithin (schema : Schema) : Nat → Entity → List String → Option PropertyMatch
  | 0, entity, words =>
    longest ((List.range' 1 words.length).flatMap (matchesOf (fun _ _ => none) entity words))
  | depth + 1, entity, words =>
    let beyond (a : Association) (rest : List String) : Option PropertyMatch :=
      if a.isToOne then
        (schema.entity? a.target).bind fun target => matchWithin schema depth target rest
      else none
    longest ((List.range' 1 words.length).flatMap (matchesOf beyond entity words))

/-- The property that the words begin with, and how many of them name it. -/
def matchProperty (schema : Schema) (root : Entity) (words : List String) : Option PropertyMatch :=
  schema.matchWithin 1 root words

/-- A match takes at least one word, of which there must then be one. -/
theorem matchProperty_pos (schema : Schema) {root : Entity} {words : List String} {path : Path}
    {used : Nat} (h : schema.matchProperty root words = some (path, used)) :
    0 < used ∧ 0 < words.length := by
  unfold matchProperty matchWithin at h
  obtain ⟨n, hn, hm⟩ := List.mem_flatMap.1 (mem_of_longest h)
  have hused := le_of_mem_matchesOf hm
  have := List.mem_range'_1.1 hn
  simp at hused
  omega

end Schema

end EntityQuery
