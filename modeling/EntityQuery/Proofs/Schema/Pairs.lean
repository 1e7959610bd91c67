import EntityQuery.Proofs.Schema.Resolved
import Mathlib.Data.List.Nodup

namespace EntityQuery

/-!
# Paired names

Names and columns are paired one after the other, and a new pair gives up all earlier ones that share a
side with it.  So the pairs are one to one whatever comes (`Entity.oneToOne_foldl`), and those are left
behind which no later pair clashes with (`Entity.mem_foldl_pairUp_iff`).  Nothing is given up where the
sides are told apart from the beginning (`Entity.foldl_pairUp_of_oneToOne`).

For the columns of an entity this says which declarations its lookups still know
(`Entity.columnOf?_eq_some_iff`, `Entity.fieldForColumn?_eq_some_iff`).
-/

/-- Where keys are told apart, an item is found by its key. -/
theorem find?_eq_some_iff_of_nodup {α : Type} {key : α → String} {items : List α}
    (h : (items.map key).Nodup) {k : String} {x : α} :
    items.find? (key · == k) = some x ↔ x ∈ items ∧ key x = k := by
  constructor
  · exact fun hfound => ⟨List.mem_of_find?_eq_some hfound, by simpa using List.find?_some hfound⟩
  · rintro ⟨hx, rfl⟩
    cases hfound : items.find? (key · == key x) with
    | none => exact absurd (beq_self_eq_true _) (List.find?_eq_none.1 hfound x hx)
    | some y =>
      have hkey : key y = key x := by simpa using List.find?_some hfound
      rw [List.inj_on_of_nodup_map h (List.mem_of_find?_eq_some hfound) hx hkey]

namespace Entity

variable {pairs kept : List (String × String)} {p q : String × String}

/-! ### Pairs -/

/-- Two pairs share a side. -/
def Clash (p q : String × String) : Prop := p.1 = q.1 ∨ p.2 = q.2

/-- No two pairs share a side. -/
def OneToOne (pairs : List (String × String)) : Prop := pairs.Pairwise fun p q => ¬Clash p q

/-- One-to-one pairs have different first parts. -/
theorem OneToOne.nodup_firsts (h : OneToOne pairs) : (pairs.map (·.1)).Nodup :=
  List.pairwise_map.2 (h.imp fun hclash heq => hclash (.inl heq))

/-- And different second parts. -/
theorem OneToOne.nodup_seconds (h : OneToOne pairs) : (pairs.map (·.2)).Nodup :=
  List.pairwise_map.2 (h.imp fun hclash heq => hclash (.inr heq))

/-- If both are different, the pairs are one to one. -/
theorem oneToOne_of_nodup (hfirsts : (pairs.map (·.1)).Nodup) (hseconds : (pairs.map (·.2)).Nodup) :
    OneToOne pairs :=
  ((List.pairwise_map.1 hfirsts).and (List.pairwise_map.1 hseconds)).imp fun h => not_or.2 h

/-- **What one more pair leaves**: itself, and the earlier pairs that it does not clash with. -/
theorem mem_pairUp_iff : p ∈ pairUp kept q ↔ p = q ∨ p ∈ kept ∧ ¬Clash p q := by
  unfold pairUp Clash
  rw [List.mem_append, List.mem_filter, List.mem_singleton, Bool.and_eq_true, bne_iff_ne, bne_iff_ne,
    not_or]
  exact or_comm

/-- A new pair drives out those that clash with it, so the pairs stay one to one. -/
theorem OneToOne.pairUp (h : OneToOne kept) (q : String × String) : OneToOne (pairUp kept q) := by
  refine List.pairwise_append.2 ⟨h.filter _, List.pairwise_singleton _ _, fun p hp q' hq' => ?_⟩
  obtain rfl := List.mem_singleton.1 hq'
  have hsides := (List.mem_filter.1 hp).2
  rw [Bool.and_eq_true, bne_iff_ne, bne_iff_ne] at hsides
  exact not_or.2 hsides

/-- Nothing is given up for a pair that shares no side. -/
theorem pairUp_eq (h : ∀ p ∈ kept, ¬Clash p q) : pairUp kept q = kept ++ [q] := by
  unfold Entity.pairUp
  rw [List.filter_eq_self.2 fun p hp => ?_]
  rw [Bool.and_eq_true, bne_iff_ne, bne_iff_ne]
  exact not_or.1 (h p hp)

/-! ### Pairs one after the other -/

/-- So they do however many are added. -/
theorem oneToOne_foldl (h : OneToOne kept) : OneToOne (pairs.foldl Entity.pairUp kept) := by
  induction pairs generalizing kept with
  | nil => exact h
  | cons q pairs ih => exact ih (h.pairUp q)

/-- **A pair is left** exactly if no later one clashes with it. -/
theorem mem_foldl_pairUp_iff :
    p ∈ pairs.foldl Entity.pairUp kept ↔
      (p ∈ kept ∧ ∀ q ∈ pairs, ¬Clash p q) ∨
        ∃ before after, pairs = before ++ p :: after ∧ ∀ q ∈ after, ¬Clash p q := by
  -- What is kept at the beginning may be anything: the first pair joins it, and then counts among those
  -- that the later pairs have to leave alone.
  induction pairs generalizing kept with
  | nil => simp
  | cons first pairs ih =>
    rw [List.foldl_cons, ih, mem_pairUp_iff]
    constructor
    · rintro (⟨rfl | ⟨hkept, hfirst⟩, hlater⟩ | ⟨before, after, rfl, hafter⟩)
      · exact .inr ⟨[], pairs, rfl, hlater⟩
      · exact .inl ⟨hkept, List.forall_mem_cons.2 ⟨hfirst, hlater⟩⟩
      · exact .inr ⟨first :: before, after, rfl, hafter⟩
    · rintro (⟨hkept, hlater⟩ | ⟨before, after, hsplit, hafter⟩)
      · obtain ⟨hfirst, hlater⟩ := List.forall_mem_cons.1 hlater
        exact .inl ⟨.inr ⟨hkept, hfirst⟩, hlater⟩
      · rcases List.cons_eq_append_iff.1 hsplit with ⟨rfl, hcons⟩ | ⟨before', rfl, rfl⟩
        · cases hcons
          exact .inl ⟨.inl rfl, hafter⟩
        · exact .inr ⟨before', after, rfl, hafter⟩

/-- Pairs that share no sides are all left. -/
theorem foldl_pairUp_of_oneToOne (h : OneToOne (kept ++ pairs)) :
    pairs.foldl Entity.pairUp kept = kept ++ pairs := by
  induction pairs generalizing kept with
  | nil => exact (List.append_nil kept).symm
  | cons q pairs ih =>
    have hclash : ∀ p ∈ kept, ¬Clash p q :=
      fun p hp => (List.pairwise_append.1 h).2.2 p hp q List.mem_cons_self
    have hsplit : kept ++ q :: pairs = (kept ++ [q]) ++ pairs := by
      rw [List.append_assoc, List.singleton_append]
    rw [List.foldl_cons, pairUp_eq hclash, ih (hsplit ▸ h), hsplit]

/-! ### Names and columns of an entity -/

variable {e : Entity} {f : Field} {name column : String}

/-- A field was declared with this name and this column, and no field declared after it has the one or the
    other. -/
def LastPair (e : Entity) (name column : String) : Prop :=
  ∃ before f after, e.fields = before ++ f :: after ∧ f.name = name ∧ f.column = column ∧
    ∀ g ∈ after, g.name ≠ name ∧ g.column ≠ column

/-- The pairs of an entity are one to one. -/
theorem oneToOne_columnPairs (e : Entity) : OneToOne e.columnPairs := oneToOne_foldl .nil

/-- A pair is kept exactly if it is the last to use its name and its column. -/
theorem mem_columnPairs_iff : (name, column) ∈ e.columnPairs ↔ e.LastPair name column := by
  unfold columnPairs
  rw [mem_foldl_pairUp_iff]
  constructor
  · rintro (⟨hnone, _⟩ | ⟨before, after, hsplit, hafter⟩)
    · cases hnone
    · obtain ⟨fs, gs, hfields, _, hgs⟩ := List.map_eq_append_iff.1 hsplit
      obtain ⟨f, gs, rfl, hf, rfl⟩ := List.map_eq_cons_iff.1 hgs
      cases hf
      refine ⟨fs, f, gs, hfields, rfl, rfl, fun g hg => ?_⟩
      exact not_or.1 fun hclash =>
        hafter (g.name, g.column) (List.mem_map_of_mem hg) (hclash.imp Eq.symm Eq.symm)
  · rintro ⟨fs, f, gs, hfields, rfl, rfl, hgs⟩
    refine .inr ⟨fs.map _, gs.map _, by rw [hfields, List.map_append, List.map_cons], ?_⟩
    intro q hq hclash
    obtain ⟨g, hg, rfl⟩ := List.mem_map.1 hq
    -- A later pair with either part would have driven this one out.
    exact hclash.elim (fun h => (hgs g hg).1 h.symm) fun h => (hgs g hg).2 h.symm

/-- A name has the column of its last pair. -/
theorem columnOf?_eq_some_iff : e.columnOf? name = some column ↔ e.LastPair name column := by
  unfold columnOf?
  rw [Option.map_eq_some_iff, ← mem_columnPairs_iff]
  simp only [find?_eq_some_iff_of_nodup (oneToOne_columnPairs e).nodup_firsts, Prod.exists]
  constructor
  · rintro ⟨_, _, ⟨hmem, rfl⟩, rfl⟩
    exact hmem
  · exact fun hmem => ⟨name, column, ⟨hmem, rfl⟩, rfl⟩

/-- A column has the first field with the name of its last pair. -/
theorem fieldForColumn?_eq_some_iff :
    e.fieldForColumn? column = some f ↔ e.LastPair f.name column ∧ e.fieldNamed? f.name = some f := by
  unfold fieldForColumn?
  rw [Option.bind_eq_some_iff, ← mem_columnPairs_iff]
  simp only [find?_eq_some_iff_of_nodup (oneToOne_columnPairs e).nodup_seconds, Prod.exists]
  constructor
  · rintro ⟨name, _, ⟨hmem, rfl⟩, hnamed⟩
    obtain rfl := (mem_of_fieldNamed? hnamed).2
    exact ⟨hmem, hnamed⟩
  · rintro ⟨hmem, hnamed⟩
    exact ⟨f.name, column, ⟨hmem, rfl⟩, hnamed⟩

/-- A name leads to no other column than that of a declared field. -/
theorem exists_field_of_columnOf? (h : e.columnOf? name = some column) :
    ∃ f ∈ e.fields, f.name = name ∧ f.column = column := by
  obtain ⟨before, f, after, hfields, hname, hcolumn, _⟩ := columnOf?_eq_some_iff.1 h
  exact ⟨f, by rw [hfields]; exact List.mem_append_right before List.mem_cons_self, hname, hcolumn⟩

end Entity

end EntityQuery
