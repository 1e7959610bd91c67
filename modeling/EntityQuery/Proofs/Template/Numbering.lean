import EntityQuery.Proofs.Number.WholeText
import EntityQuery.Proofs.Template.WrittenParameters

namespace EntityQuery

/-!
# Numbering of parameters

Parameters are met one after the other, each of them stands for a slot (`Template.Meets`), and each slot
is kept once.  A name has the slot of its rank among the names, in the order of their first appearance
(`Template.Numbering.Tracks`), and a position counts from one.  Since the two are not mixed, the first
parameter decides of which kind all of them are (`Template.OneKind`), and within one kind the index of a
slot says which slot it is (`Template.Numbered`).
-/

/-- The rank of a name among others in the order of their first appearance. -/
def nameRank (names : List String) (name : String) : Nat := names.eraseDups.idxOf name

/-- Names that are met later do not change the rank of one that was met. -/
theorem nameRank_append {names : List String} {name : String} (h : name ∈ names)
    (more : List String) : nameRank (names ++ more) name = nameRank names name := by
  rw [nameRank, List.eraseDups_append, List.idxOf_append_of_mem (List.mem_eraseDups.2 h), nameRank]

namespace Template

variable {scope : Scope} {n n' : Numbering} {ps : List WrittenParameter} {ss : List Slot}

/-- A name at the end is added, unless it is there. -/
theorem eraseDups_concat (names : List String) (name : String) :
    (names ++ [name]).eraseDups = addName names.eraseDups name := by
  have hslots : ∀ names : List String,
      slotNames (names.map fun name => ⟨0, some name⟩) = names.eraseDups := by
    intro names
    simp [slotNames, List.filterMap_map]
  rw [← hslots, List.map_append, List.map_cons, List.map_nil, slotNames_concat, hslots]

/-! ### What numbering keeps -/

namespace Numbering

/-- Every named slot so far is that of a name that was met, at its rank; where no name was met yet,
    none was counted. -/
structure Tracks (n : Numbering) (names : List String) : Prop where
  slots : n.positional = false → n.slots = numberedNames 0 names.eraseDups
  unnamed : n.named = false → names = []

/-- At first no name is kept. -/
theorem tracks_nil : Tracks {} [] := ⟨fun _ => rfl, fun _ => rfl⟩

/-- What is kept is the slot itself, where parameters are not mixed; of their kinds nothing changes. -/
theorem keep_ok {slot s : Slot} (h : n.keep slot = .ok (s, n')) :
    s = slot ∧ (n.named && n.positional) = false ∧ n'.named = n.named ∧
      n'.positional = n.positional := by
  unfold keep at h
  split at h
  · cases h
  · rename_i hmixed
    cases h
    refine ⟨rfl, Bool.eq_false_iff.2 hmixed, ?_, ?_⟩ <;> split <;> rfl

/-- **A name that is met** has the slot of its rank. -/
theorem Tracks.forName {names : List String} (h : n.Tracks names) {name : String} {s : Slot}
    (hs : n.forName name = .ok (s, n')) :
    s = ⟨nameRank (names ++ [name]) name, some name⟩ ∧ n'.Tracks (names ++ [name]) := by
  obtain ⟨_, hmixed, hnamed, _⟩ := keep_ok hs
  have hpositional : n.positional = false := hmixed
  obtain ⟨next, hfound, hslots, _⟩ := forName_of_slots (h.slots hpositional) hpositional name
  rw [← eraseDups_concat] at hfound hslots
  obtain ⟨rfl, rfl⟩ := Prod.mk.inj (Except.ok.inj (hs.symm.trans hfound))
  refine ⟨rfl, fun _ => hslots, fun hnone => ?_⟩
  cases hnamed.symm.trans hnone

/-- A name is met where no position was met, and changes nothing about that. -/
theorem forName_ok {name : String} {s : Slot} (h : n.forName name = .ok (s, n')) :
    n.positional = false ∧ n'.positional = false ∧ n'.named = true := by
  obtain ⟨_, hmixed, hnamed, hpositional⟩ := keep_ok h
  have hnone : n.positional = false := hmixed
  exact ⟨hnone, hpositional.trans hnone, hnamed⟩

/-- A position is met where no name was met, and counts from one. -/
theorem forPosition_ok {digits : List Char} {s : Slot} (h : n.forPosition digits = .ok (s, n')) :
    n.named = false ∧ n'.named = false ∧ n'.positional = true ∧ 1 ≤ Text.digitsValue digits ∧
      s = ⟨Text.digitsValue digits - 1, none⟩ := by
  unfold forPosition at h
  split at h
  · cases h
  · cases h
  · rename_i index hdigits
    have hvalue : index + 1 = Text.digitsValue digits := (Whole.digits_of_foldlM hdigits).2
    obtain ⟨rfl, hmixed, hnamed, hpositional⟩ := keep_ok h
    have hnone : n.named = false := (Bool.and_true _).symm.trans hmixed
    refine ⟨hnone, hnamed.trans hnone, hpositional, by omega, ?_⟩
    rw [← hvalue, Nat.add_sub_cancel]

/-- The slot of a parameter. -/
def slotOf (n : Numbering) : WrittenParameter → Except TemplateDefect (Slot × Numbering)
  | .named name => n.forName name
  | .positional digits => n.forPosition digits

/-- The slot of a parameter is kept among the slots so far, whatever kinds of parameters were met. -/
theorem exists_keep_of_slotOf {p : WrittenParameter} {s : Slot} (h : n.slotOf p = .ok (s, n')) :
    ∃ m : Numbering, m.slots = n.slots ∧ m.keep s = .ok (s, n') := by
  cases p with
  | named name =>
    obtain ⟨rfl, _⟩ := keep_ok h
    exact ⟨{ n with named := true }, rfl, h⟩
  | positional digits =>
    have h : n.forPosition digits = .ok (s, n') := h
    unfold forPosition at h
    -- A position of zero and one that is too large are refused.
    split at h
    · cases h
    · cases h
    · obtain ⟨rfl, _⟩ := keep_ok h
      exact ⟨{ n with positional := true }, rfl, h⟩

/-- A slot is kept once. -/
theorem nodup_of_keep {m : Numbering} {s : Slot} (h : m.keep s = .ok (s, n')) (hm : m.slots.Nodup) :
    n'.slots.Nodup := by
  unfold keep at h
  split at h
  · cases h
  cases h
  split
  · exact hm
  · rename_i hnew
    rw [List.contains_iff_mem] at hnew
    show (m.slots ++ [s]).Nodup
    rw [← List.concat_eq_append]
    exact hm.concat hnew

end Numbering

/-! ### Parameters one after the other -/

/-- Parameters that are met one after the other, with the slots that they stand for. -/
inductive Meets : Numbering → List WrittenParameter → List Slot → Numbering → Prop where
  | nil (n : Numbering) : Meets n [] [] n
  | cons {n next n' : Numbering} {p : WrittenParameter} {ps : List WrittenParameter} {s : Slot}
    {ss : List Slot} (found : n.slotOf p = .ok (s, next)) (more : Meets next ps ss n') :
    Meets n (p :: ps) (s :: ss) n'

/-- Parameters one behind the other are met so. -/
theorem Meets.append {next : Numbering} {qs : List WrittenParameter} {us : List Slot}
    (h : Meets n ps ss next) (hmore : Meets next qs us n') : Meets n (ps ++ qs) (ss ++ us) n' := by
  induction h with
  | nil => exact hmore
  | cons hfound _ ih => exact .cons hfound (ih hmore)

/-- An operand meets the parameter written in it. -/
theorem meets_of_operand {w : WrittenOperand} {o : Operand} (h : operand w n = .ok (o, n')) :
    Meets n w.parameters o.slots n' := by
  cases w with
  | named name | positional digits =>
    obtain ⟨s, _, hs, h⟩ := bind_ok_iff.1 h
    cases h
    exact .cons hs (.nil _)
  | literal l =>
    obtain ⟨v, _, hlift, h⟩ := bind_ok_iff.1 h
    obtain ⟨_, rfl⟩ := lift_ok_iff.1 hlift
    cases h
    exact .nil _

/-- And so does a test. -/
theorem meets_of_test {t : WrittenTest} {operator : Operator} {o : Operand}
    (h : test t n = .ok ((operator, o), n')) : Meets n t.parameters o.slots n' := by
  cases t with
  | isNull | isNotNull =>
    cases h
    exact .nil _
  | oneOf items =>
    obtain ⟨_, _, hlift, h⟩ := bind_ok_iff.1 h
    obtain ⟨_, rfl⟩ := lift_ok_iff.1 hlift
    cases h
    exact .nil _
  | compare _ w =>
    obtain ⟨_, _, hoperand, h⟩ := bind_ok_iff.1 h
    cases h
    exact meets_of_operand hoperand

/-- Comparisons meet the parameters of their operands. -/
theorem Compares.meets {cs : List WrittenComparison} {ts : List Predicate.Test}
    (h : Compares scope n cs ts n') :
    Meets n (WrittenComparison.parametersOfAll cs) (ts.flatMap fun t => t.operand.slots) n' := by
  induction h with
  | nil => exact .nil _
  | cons hread _ ih =>
    obtain ⟨_, _, _, hp, _, _, htest⟩ := comparison_ok hread
    cases hp
    exact (meets_of_test htest).append ih

/-- The slots that are met are those that are kept. -/
theorem Meets.mem_slots (h : Meets n ps ss n') (x : Slot) :
    x ∈ n'.slots ↔ x ∈ n.slots ∨ x ∈ ss := by
  induction h with
  | nil => simp only [List.not_mem_nil, or_false]
  | cons hfound _ ih =>
    obtain ⟨m, hm, hkeep⟩ := Numbering.exists_keep_of_slotOf hfound
    rw [ih, mem_slots_of_keep hkeep, hm, List.mem_cons, or_assoc]

/-- No slot is kept twice. -/
theorem Meets.nodup (h : Meets n ps ss n') (hn : n.slots.Nodup) : n'.slots.Nodup := by
  induction h with
  | nil => exact hn
  | cons hfound _ ih =>
    obtain ⟨m, hm, hkeep⟩ := Numbering.exists_keep_of_slotOf hfound
    rw [← hm] at hn
    exact ih (Numbering.nodup_of_keep hkeep hn)

/-- **Where a name is met there are only names**, by induction on the parameters, and the slot of each
    has the rank of its name among those that were met. -/
theorem Meets.named (h : Meets n ps ss n') {names : List String} (hn : n.Tracks names)
    (hnamed : n.named = true ∨ ∃ name, ps.head? = some (.named name))
    (hpositional : n.positional = false) :
    ∃ more : List String, ps = more.map .named ∧
      ss = more.map (fun name => ⟨nameRank (names ++ more) name, some name⟩) ∧
      n'.slots = numberedNames 0 (names ++ more).eraseDups := by
  induction h generalizing names with
  | nil =>
    refine ⟨[], rfl, rfl, ?_⟩
    rw [List.append_nil]
    exact hn.slots hpositional
  | @cons n next n' p ps s ss hfound _ ih =>
    cases p with
    | positional digits =>
      -- A position is refused where a name was met, and it is not the first parameter.
      have hnone := (Numbering.forPosition_ok hfound).1
      rcases hnamed with hnamed | ⟨_, hnamed⟩
      · cases hnamed.symm.trans hnone
      · cases hnamed
    | named name =>
      obtain ⟨_, hpositional, hnamed⟩ := Numbering.forName_ok hfound
      obtain ⟨hs, hnext⟩ := hn.forName hfound
      obtain ⟨more, rfl, rfl, hslots⟩ := ih hnext (.inl hnamed) hpositional
      rw [List.append_assoc] at hslots
      refine ⟨name :: more, rfl, ?_, hslots⟩
      -- Names that come later leave the rank of this one as it is.
      have hrank : nameRank (names ++ name :: more) name = nameRank (names ++ [name]) name := by
        have hmem : name ∈ names ++ [name] := List.mem_append_right _ List.mem_cons_self
        rw [← nameRank_append hmem more, List.append_assoc, List.singleton_append]
      rw [hs, List.map_cons, hrank, List.append_assoc, List.singleton_append]

/-- **Where a position is met there are only positions.** -/
theorem Meets.positional (h : Meets n ps ss n')
    (hpositional : n.positional = true ∨ ∃ digits, ps.head? = some (.positional digits)) :
    ∃ numbers : List (List Char), ps = numbers.map .positional ∧
      (∀ digits ∈ numbers, 1 ≤ Text.digitsValue digits) ∧
      ss = numbers.map fun digits => ⟨Text.digitsValue digits - 1, none⟩ := by
  induction h with
  | nil => exact ⟨[], rfl, nofun, rfl⟩
  | @cons n next n' p ps s ss hfound _ ih =>
    cases p with
    | named name =>
      have hnone := (Numbering.forName_ok hfound).1
      -- A name is refused behind a position, and it is not what comes first.
      rcases hpositional with hpositional | ⟨_, hpositional⟩
      · cases hpositional.symm.trans hnone
      · cases hpositional
    | positional digits =>
      obtain ⟨_, _, hnext, hpositive, rfl⟩ := Numbering.forPosition_ok hfound
      obtain ⟨numbers, rfl, hall, rfl⟩ := ih (.inl hnext)
      exact ⟨digits :: numbers, rfl, List.forall_mem_cons.2 ⟨hpositive, hall⟩, rfl⟩

/-! ### Slots of one kind -/

/-- Slots of parameters, all of which are named or all of which are positional: each parameter has an
    occurrence, in the same order. -/
inductive OneKind (written : List WrittenParameter) (occurring slots : List Slot) : Prop
  /-- Equal names have one slot, and the slots count the different names by their first appearance. -/
  | named (names : List String) (written_eq : written = names.map .named)
    (ranked : occurring = names.map fun name => ⟨nameRank names name, some name⟩)
    (numbered : slots = numberedNames 0 names.eraseDups)
  /-- A position is the index of its slot and one more. -/
  | positional (numbers : List (List Char)) (written_eq : written = numbers.map .positional)
    (fromOne : ∀ digits ∈ numbers, 1 ≤ Text.digitsValue digits)
    (counted : occurring = numbers.map fun digits => ⟨Text.digitsValue digits - 1, none⟩)

/-- Slots in the order of their indexes, none of them twice, which are those that occur. -/
structure Numbered (written : List WrittenParameter) (occurring slots : List Slot) : Prop where
  sorted : slots.Pairwise fun a b => a.index < b.index
  exact : ∀ s, s ∈ slots ↔ s ∈ occurring
  kind : OneKind written occurring slots

/-- Names are numbered upwards from the first number. -/
theorem pairwise_numberedNames (first : Nat) (names : List String) :
    (∀ s ∈ numberedNames first names, first ≤ s.index) ∧
      (numberedNames first names).Pairwise fun a b => a.index < b.index := by
  induction names generalizing first with
  | nil => exact ⟨nofun, .nil⟩
  | cons name names ih =>
    obtain ⟨hfrom, hpairwise⟩ := ih (first + 1)
    refine ⟨List.forall_mem_cons.2 ⟨Nat.le_refl _, fun s hs => ?_⟩, .cons hfrom hpairwise⟩
    exact Nat.le_of_succ_le (hfrom s hs)

/-- **Slots of parameters are of one kind**: the first one decides of which. -/
theorem oneKind_of_meets (h : Meets {} ps ss n') : OneKind ps ss n'.sorted := by
  cases ps with
  | nil =>
    cases h
    exact .named [] rfl rfl List.mergeSort_nil
  | cons p ps =>
    cases p with
    | named name =>
      obtain ⟨names, hwritten, hranked, hslots⟩ := h.named Numbering.tracks_nil (.inr ⟨name, rfl⟩) rfl
      -- Slots of names are kept in the order of their indexes.
      have hsorted : n'.sorted = n'.slots := by
        rw [Numbering.sorted, hslots]
        refine List.mergeSort_of_pairwise ((pairwise_numberedNames 0 _).2.imp fun hlt => ?_)
        exact decide_eq_true (Nat.le_of_lt hlt)
      exact .named names hwritten hranked (hsorted.trans hslots)
    | positional digits =>
      obtain ⟨numbers, hwritten, hpositive, hcounted⟩ := h.positional (.inr ⟨digits, rfl⟩)
      exact .positional numbers hwritten hpositive hcounted

/-- Slots of one kind are told apart by their indexes. -/
theorem OneKind.eq_of_index {slots : List Slot} (h : OneKind ps ss slots) {s t : Slot} (hs : s ∈ ss)
    (ht : t ∈ ss) (hindex : s.index = t.index) : s = t := by
  cases h with
  | named names _ hranked _ =>
    rw [hranked] at hs ht
    obtain ⟨name, hname, rfl⟩ := List.mem_map.1 hs
    obtain ⟨name', hname', rfl⟩ := List.mem_map.1 ht
    have hrank : nameRank names name = nameRank names name' := hindex
    have hmem : name ∈ names.eraseDups := List.mem_eraseDups.2 hname
    -- Two names of one rank are one name.
    rw [(List.idxOf_inj hmem).1 hrank]
  | positional numbers _ _ hcounted =>
    rw [hcounted] at hs ht
    obtain ⟨digits, _, rfl⟩ := List.mem_map.1 hs
    obtain ⟨digits', _, rfl⟩ := List.mem_map.1 ht
    have hvalue : Text.digitsValue digits - 1 = Text.digitsValue digits' - 1 := hindex
    rw [hvalue]

/-- **Slots of parameters are numbered** in the way of their kind. -/
theorem numbered_of_meets (h : Meets {} ps ss n') : Numbered ps ss n'.sorted := by
  have hkind := oneKind_of_meets h
  have hexact : ∀ s, s ∈ n'.sorted ↔ s ∈ ss := by
    intro s
    rw [Numbering.sorted, List.mem_mergeSort, h.mem_slots, or_iff_right List.not_mem_nil]
  have hsorted : n'.sorted.Pairwise fun a b => decide (a.index ≤ b.index) = true :=
    List.pairwise_mergeSort (fun a b c hab hbc => by simp only [decide_eq_true_eq] at *; omega)
      (fun a b => by simp only [Bool.or_eq_true, decide_eq_true_eq]; omega) n'.slots
  have hnodup : n'.sorted.Nodup := (List.mergeSort_perm _ _).nodup_iff.2 (h.nodup List.nodup_nil)
  refine ⟨(hsorted.and hnodup).imp_of_mem fun {a b} ha hb hab => ?_, hexact, hkind⟩
  -- No index is there twice, since no slot is.
  have hne : a.index ≠ b.index := fun hindex =>
    hab.2 (hkind.eq_of_index ((hexact a).1 ha) ((hexact b).1 hb) hindex)
  have hle : a.index ≤ b.index := of_decide_eq_true hab.1
  omega

end Template

end EntityQuery
