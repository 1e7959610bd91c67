import EntityQuery.Sql.CompileDefect
import Mathlib.Data.List.Forall2

namespace EntityQuery

/-!
# Successful outcomes

Work that can fail, read backwards from its success: each step succeeded too.
-/

variable {ε α β : Type}

/-- A result is handed on. -/
theorem ok_bind {a : α} {f : α → Except ε β} : (Except.ok a >>= f) = f a := rfl

/-- A sequence succeeds exactly if both of its steps do. -/
theorem bind_eq_ok_iff {x : Except ε α} {f : α → Except ε β} {b : β} :
    (x >>= f) = .ok b ↔ ∃ a, x = .ok a ∧ f a = .ok b := by
  cases x with
  | error e => simp [bind, Except.bind]
  | ok a => simp [bind, Except.bind]

/-- Work fails at its first step or at what follows it. -/
theorem bind_eq_error_iff {x : Except ε α} {f : α → Except ε β} {e : ε} :
    (x >>= f) = .error e ↔ x = .error e ∨ ∃ a, x = .ok a ∧ f a = .error e := by
  cases x with
  | error e' => simp [bind, Except.bind]
  | ok a => simp [bind, Except.bind]

/-- Where one item after the other is dealt with, a failure is that of the first item that fails. -/
theorem listMapM_eq_error_iff {f : α → Except ε β} {as : List α} {e : ε} :
    as.mapM f = .error e ↔
      ∃ front a back, as = front ++ a :: back ∧ f a = .error e ∧ ∀ a' ∈ front, ∃ b, f a' = .ok b := by
  induction as with
  | nil =>
    refine ⟨nofun, ?_⟩
    rintro ⟨front, a, back, h, _⟩
    exact absurd h.symm (List.append_ne_nil_of_right_ne_nil front (List.cons_ne_nil a back))
  | cons a as ih =>
    rw [List.mapM_cons, bind_eq_error_iff]
    constructor
    -- The failure is at the head or in the tail; a tail without one would have made the whole a success.
    · rintro (ha | ⟨b, hb, h⟩)
      · exact ⟨[], a, as, rfl, ha, nofun⟩
      rcases bind_eq_error_iff.1 h with h | ⟨_, _, h⟩
      · obtain ⟨front, a', back, rfl, ha', hfront⟩ := ih.1 h
        exact ⟨a :: front, a', back, rfl, ha', List.forall_mem_cons.2 ⟨⟨b, hb⟩, hfront⟩⟩
      · cases h
    · rintro ⟨front, a', back, hsplit, ha', hfront⟩
      cases front with
      | nil =>
        obtain ⟨rfl, rfl⟩ := List.cons.inj hsplit
        exact .inl ha'
      | cons first front =>
        obtain ⟨rfl, rfl⟩ := List.cons.inj hsplit
        obtain ⟨⟨b, hb⟩, hfront⟩ := List.forall_mem_cons.1 hfront
        exact .inr ⟨b, hb, bind_eq_error_iff.2 (.inl (ih.2 ⟨front, a', back, rfl, ha', hfront⟩))⟩

/-- Where one item after the other is dealt with, a failure is that of one of them. -/
theorem mapM_eq_error {f : α → Except ε β} {as : List α} {e : ε} (h : as.mapM f = .error e) :
    ∃ a ∈ as, f a = .error e := by
  obtain ⟨front, a, back, rfl, ha, _⟩ := listMapM_eq_error_iff.1 h
  exact ⟨a, List.mem_append_right _ List.mem_cons_self, ha⟩

/-- One item after the other is dealt with exactly if each of them is, and the answers stand in the
    order of the items. -/
theorem listMapM_eq_ok_iff {f : α → Except ε β} {as : List α} {bs : List β} :
    as.mapM f = .ok bs ↔ List.Forall₂ (fun a b => f a = .ok b) as bs := by
  induction as generalizing bs with
  | nil =>
    rw [List.mapM_nil, List.forall₂_nil_left_iff]
    exact ⟨fun h => by cases h; rfl, fun h => by rw [h]; rfl⟩
  | cons a as ih =>
    rw [List.mapM_cons, List.forall₂_cons_left_iff]
    -- The list is mapped from its front, so the head's result comes before those of the tail.
    simp only [bind_eq_ok_iff, ih]
    constructor
    · rintro ⟨b, hb, bs, hbs, h⟩
      cases h
      exact ⟨b, bs, hb, hbs, rfl⟩
    · rintro ⟨b, bs, hb, hbs, rfl⟩
      exact ⟨b, hb, bs, hbs, rfl⟩

/-- Where each item has an answer, all of them have. -/
theorem exists_forall₂ {R : α → β → Prop} {as : List α} (h : ∀ a ∈ as, ∃ b, R a b) :
    ∃ bs, List.Forall₂ R as bs := by
  induction as with
  | nil => exact ⟨[], .nil⟩
  | cons a as ih =>
    rw [List.forall_mem_cons] at h
    obtain ⟨⟨b, hb⟩, hrest⟩ := h
    obtain ⟨bs, hbs⟩ := ih hrest
    exact ⟨b :: bs, .cons hb hbs⟩

/-- Each answer is that of an item. -/
theorem exists_left_of_forall₂ {R : α → β → Prop} {as : List α} {bs : List β}
    (h : List.Forall₂ R as bs) {b : β} (hb : b ∈ bs) : ∃ a ∈ as, R a b := by
  induction h with
  | nil => cases hb
  | @cons a b' as bs hab _ ih =>
    rcases List.mem_cons.1 hb with rfl | hb
    · exact ⟨a, List.mem_cons_self, hab⟩
    · obtain ⟨a', ha', hR⟩ := ih hb
      exact ⟨a', List.mem_cons_of_mem _ ha', hR⟩

/-- Each item has an answer. -/
theorem exists_right_of_forall₂ {R : α → β → Prop} {as : List α} {bs : List β}
    (h : List.Forall₂ R as bs) {a : α} (ha : a ∈ as) : ∃ b ∈ bs, R a b :=
  exists_left_of_forall₂ h.flip ha

/-- What is related one by one, and then once more. -/
theorem forall₂_trans {γ : Type} {R : α → β → Prop} {S : β → γ → Prop} {as : List α} {bs : List β}
    {cs : List γ} (h : List.Forall₂ R as bs) (h' : List.Forall₂ S bs cs) :
    List.Forall₂ (fun a c => ∃ b, R a b ∧ S b c) as cs := by
  induction h generalizing cs with
  | nil =>
    cases h'
    exact .nil
  | cons hab _ ih =>
    cases h' with
    | cons hbc hrest => exact .cons ⟨_, hab, hbc⟩ (ih hrest)

/-- Two related lists are the two sides of one, if each related pair is. -/
theorem exists_sides {γ : Type} {R : α → β → Prop} {P : γ → Prop} {f : γ → α} {g : γ → β}
    {as : List α} {bs : List β} (h : List.Forall₂ R as bs)
    (hR : ∀ a b, R a b → ∃ c, f c = a ∧ g c = b ∧ P c) :
    ∃ cs : List γ, as = cs.map f ∧ bs = cs.map g ∧ ∀ c ∈ cs, P c := by
  induction h with
  | nil => exact ⟨[], rfl, rfl, nofun⟩
  | cons hab _ ih =>
    obtain ⟨c, rfl, rfl, hc⟩ := hR _ _ hab
    obtain ⟨cs, rfl, rfl, hcs⟩ := ih
    exact ⟨c :: cs, rfl, rfl, List.forall_mem_cons.2 ⟨hc, hcs⟩⟩

/-- Where each item can be dealt with, all of them can. -/
theorem exists_listMapM {f : α → Except ε β} {good : α → β → Prop} {as : List α}
    (h : ∀ a ∈ as, ∃ b, f a = .ok b ∧ good a b) :
    ∃ bs, as.mapM f = .ok bs ∧ List.Forall₂ good as bs := by
  obtain ⟨bs, hbs⟩ := exists_forall₂ h
  exact ⟨bs, listMapM_eq_ok_iff.2 (hbs.imp fun _ _ => And.left), hbs.imp fun _ _ => And.right⟩

/-- A value that is just given is the result. -/
theorem pure_eq_ok_iff {a b : α} : (pure a : Except ε α) = .ok b ↔ a = b := by
  simp [pure, Except.pure]

/-- Forgetting why a step failed keeps what it gave. -/
theorem toOption_eq_some_iff {x : Except ε α} {a : α} : x.toOption = some a ↔ x = .ok a := by
  cases x <;> simp [Except.toOption]

/-- A test of what comes out, if anything does. -/
theorem any_toOption_iff {x : Except ε α} {p : α → Bool} :
    x.toOption.any p = true ↔ ∃ a, x = .ok a ∧ p a = true := by
  simp [Option.any_eq_true, toOption_eq_some_iff]

/-- Another name for what can go wrong leaves successes alone. -/
theorem mapError_eq_ok_iff {ε' : Type} {f : ε → ε'} {x : Except ε α} {a : α} :
    x.mapError f = .ok a ↔ x = .ok a := by
  cases x <;> simp [Except.mapError]

/-- A changed result comes from a result. -/
theorem map_eq_ok_iff {f : α → β} {x : Except ε α} {b : β} :
    x.map f = .ok b ↔ ∃ a, x = .ok a ∧ f a = b := by
  cases x <;> simp [Except.map]

/-- A change of results leaves failures alone. -/
theorem map_eq_error_iff {f : α → β} {x : Except ε α} {e : ε} :
    x.map f = .error e ↔ x = .error e := by
  cases x <;> simp [Except.map]

/-- A failure is no result. -/
theorem throw_ne_ok {e : ε} {a : α} : (throw e : Except ε α) ≠ .ok a := nofun

/-- All items pass exactly if each of them does. -/
theorem forM_eq_ok_iff {f : α → Except ε Unit} {as : List α} :
    as.forM f = .ok () ↔ ∀ a ∈ as, f a = .ok () := by
  induction as with
  | nil => exact ⟨fun _ _ ha => absurd ha List.not_mem_nil, fun _ => rfl⟩
  | cons a as ih =>
    rw [List.forall_mem_cons, ← ih]
    constructor
    · intro h
      obtain ⟨_, ha, hrest⟩ := bind_eq_ok_iff.1 h
      exact ⟨ha, hrest⟩
    · rintro ⟨ha, hrest⟩
      exact bind_eq_ok_iff.2 ⟨(), ha, hrest⟩

/-- What is optional is dealt with where it is there. -/
theorem mapM_eq_ok_iff {f : α → Except ε β} {a : Option α} {b : Option β} :
    a.mapM f = .ok b ↔
      (a = none ∧ b = none) ∨ ∃ x y, a = some x ∧ b = some y ∧ f x = .ok y := by
  cases a with
  -- Nothing to work on is a success without a result.
  | none =>
    rw [Option.mapM_none, pure_eq_ok_iff]
    constructor
    · exact fun h => .inl ⟨rfl, h.symm⟩
    · rintro (⟨_, rfl⟩ | ⟨_, _, h, _⟩)
      · rfl
      · cases h
  | some x =>
    rw [Option.mapM_some, ← bind_pure_comp, bind_eq_ok_iff]
    constructor
    · rintro ⟨y, hy, h⟩
      exact .inr ⟨x, y, rfl, (pure_eq_ok_iff.1 h).symm, hy⟩
    · rintro (⟨h, _⟩ | ⟨_, y, h, rfl, hy⟩)
      · cases h
      · cases h
        exact ⟨y, hy, rfl⟩

/-- Naming a defect of a path as one of the query leaves successes alone. -/
theorem lift_eq_ok_iff {x : Except PathDefect α} {a : α} :
    (liftM x : Except CompileDefect α) = .ok a ↔ x = .ok a := mapError_eq_ok_iff

end EntityQuery
