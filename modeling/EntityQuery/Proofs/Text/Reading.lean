import EntityQuery.Text.Reader
import Mathlib.Data.List.Basic

namespace EntityQuery.Text.Reader

/-!
# What readers do

Laws of the primitives: what a reader takes off a text that begins with what it looks for, and that
a choice goes on where its first reader refuses.  Repetition is described by the chain of its steps
(`Repeats`), which ends where the reader refuses.
-/

variable {α β γ : Type}

/-! ### One reader after the other -/

/-- A sequence goes on with what the first reader leaves. -/
theorem bind_of_eq_some {p : Reader α} {f : α → Reader β} {s t : List Char} {a : α}
    (h : p s = some (a, t)) : (p >>= f) s = f a t := by
  show (p s).bind _ = _
  rw [h]
  rfl

/-- A sequence fails where its first reader does. -/
theorem bind_of_eq_none {p : Reader α} {f : α → Reader β} {s : List Char} (h : p s = none) :
    (p >>= f) s = none := by
  show (p s).bind _ = _
  rw [h]
  rfl

/-- What two readers take together is what the one takes and then the other. -/
theorem bind_eq_some_iff {p : Reader α} {f : α → Reader β} {s t : List Char} {b : β} :
    (p >>= f) s = some (b, t) ↔ ∃ a u, p s = some (a, u) ∧ f a u = some (b, t) := by
  refine Option.bind_eq_some_iff.trans ?_
  exact ⟨fun ⟨⟨a, u⟩, h⟩ => ⟨a, u, h⟩, fun ⟨a, u, h⟩ => ⟨(a, u), h⟩⟩

/-- Changing what is read leaves the rest of the text alone. -/
theorem map_of_eq_some {p : Reader α} {f : α → β} {s t : List Char} {a : α}
    (h : p s = some (a, t)) : (f <$> p) s = some (f a, t) := by
  show (p s).bind _ = _
  rw [h]
  rfl

/-- The first alternative is taken where it reads anything, whatever the second would read. -/
theorem orElse_of_eq_some {p q : Reader α} {s t : List Char} {a : α} (h : p s = some (a, t)) :
    (p <|> q) s = some (a, t) := by
  show (p s <|> q s) = _
  rw [h]
  rfl

/-- The second alternative starts over at the same place. -/
theorem orElse_of_eq_none {p q : Reader α} {s : List Char} (h : p s = none) :
    (p <|> q) s = q s := by
  show (p s <|> q s) = _
  rw [h]
  rfl

/-- What may be missing is read where it stands. -/
theorem optional_of_eq_some {p : Reader α} {s t : List Char} {a : α} (h : p s = some (a, t)) :
    (optional p) s = some (some a, t) := by
  show ((do return some (← p)) <|> pure none : Reader (Option α)) s = _
  exact orElse_of_eq_some (bind_of_eq_some h)

/-- What may be missing takes nothing where it does not stand. -/
theorem optional_of_eq_none {p : Reader α} {s : List Char} (h : p s = none) :
    (optional p) s = some (none, s) := by
  show ((do return some (← p)) <|> pure none : Reader (Option α)) s = _
  rw [orElse_of_eq_none (bind_of_eq_none h)]
  rfl

/-! ### Characters -/

/-- A character that is accepted is taken. -/
theorem char_cons {accepts : Char → Bool} {c : Char} {s : List Char} (h : accepts c = true) :
    char accepts (c :: s) = some (c, s) :=
  if_pos h

/-- One character is read exactly where the text begins with an accepted one. -/
theorem char_eq_some_iff {accepts : Char → Bool} {c : Char} {s t : List Char} :
    char accepts s = some (c, t) ↔ accepts c = true ∧ s = c :: t := by
  constructor
  · intro h
    cases s with
    | nil => cases h
    | cons d s =>
      rw [char] at h
      split at h <;> cases h
      exact ⟨‹_›, rfl⟩
  · rintro ⟨hc, rfl⟩
    exact char_cons hc

/-- A fixed text is read off the front of a text that begins with it. -/
theorem exactly_append (cs s : List Char) : exactly cs (cs ++ s) = some ((), s) := by
  induction cs with
  | nil => rfl
  | cons c cs ih =>
    have hc : char (· == c) (c :: (cs ++ s)) = some (c, cs ++ s) := char_cons (beq_self_eq_true c)
    rw [exactly, List.cons_append, bind_of_eq_some hc, ih]

/-- Conversely, a text that a fixed text is read off begins with it. -/
theorem eq_append_of_exactly {cs s t : List Char} {u : Unit} (h : exactly cs s = some (u, t)) :
    s = cs ++ t := by
  induction cs generalizing s with
  | nil =>
    cases h
    rfl
  | cons c cs ih =>
    obtain ⟨d, v, hd, hrest⟩ := bind_eq_some_iff.1 h
    obtain ⟨hc, rfl⟩ := char_eq_some_iff.1 hd
    rw [eq_of_beq hc, ih hrest, List.cons_append]

/-- Only a text that begins with the character is accepted. -/
theorem exactly_of_head? {c : Char} {cs s : List Char} (h : s.head? ≠ some c) :
    exactly (c :: cs) s = none := by
  apply bind_of_eq_none
  cases s with
  | nil => rfl
  | cons d s =>
    apply if_neg
    intro hc
    apply h
    rw [List.head?_cons, eq_of_beq hc]

/-- The next character, if there is one, is not of the class. -/
def Stops (accepts : Char → Bool) (s : List Char) : Prop :=
  ∀ c, s.head? = some c → accepts c = false

/-- A run ends at the end of the text. -/
theorem stops_nil {accepts : Char → Bool} : Stops accepts [] := nofun

/-- A run ends at the first character that is not accepted. -/
theorem stops_cons {accepts : Char → Bool} {c : Char} {s : List Char} (h : accepts c = false) :
    Stops accepts (c :: s) := by
  intro d hd
  cases hd
  exact h

/-- Where a run ends, it is empty and all is left. -/
theorem takeWhile_of_stops {accepts : Char → Bool} {s : List Char} (h : Stops accepts s) :
    s.takeWhile accepts = [] ∧ s.dropWhile accepts = s := by
  cases s with
  | nil => exact ⟨rfl, rfl⟩
  | cons c s =>
    have hc : ¬accepts c = true := by
      rw [h c rfl]
      exact Bool.false_ne_true
    exact ⟨List.takeWhile_cons_of_neg hc, List.dropWhile_cons_of_neg hc⟩

/-- A text falls apart where its characters of the class end. -/
theorem takeWhile_append_of_stops {accepts : Char → Bool} {a s : List Char}
    (ha : ∀ c ∈ a, accepts c = true) (hs : Stops accepts s) :
    (a ++ s).takeWhile accepts = a ∧ (a ++ s).dropWhile accepts = s := by
  obtain ⟨htake, hdrop⟩ := takeWhile_of_stops hs
  rw [List.takeWhile_append_of_pos ha, List.dropWhile_append_of_pos ha, htake, hdrop]
  exact ⟨List.append_nil a, rfl⟩

/-- A run is taken as a whole. -/
theorem run_append {accepts : Char → Bool} {a s : List Char} (ha : ∀ c ∈ a, accepts c = true)
    (hs : Stops accepts s) : run accepts (a ++ s) = some (a, s) := by
  obtain ⟨htake, hdrop⟩ := takeWhile_append_of_stops ha hs
  show some _ = _
  rw [htake, hdrop]

/-- A run that is not empty is read to its end. -/
theorem run1_append {accepts : Char → Bool} {a s : List Char} (hne : a ≠ [])
    (ha : ∀ c ∈ a, accepts c = true) (hs : Stops accepts s) :
    run1 accepts (a ++ s) = some (a, s) := by
  obtain ⟨c, a, rfl⟩ := List.exists_cons_of_ne_nil hne
  obtain ⟨hc, ha⟩ := List.forall_mem_cons.1 ha
  rw [run1, List.cons_append, bind_of_eq_some (char_cons hc), bind_of_eq_some (run_append ha hs)]
  rfl

/-- Nothing is in the way where the text does not go on with a refused character. -/
theorem notBefore_of_stops {refuses : Char → Bool} {s : List Char} (hs : Stops refuses s) :
    notBefore refuses s = some ((), s) := by
  refine if_neg ?_
  cases s with
  | nil => exact Bool.false_ne_true
  | cons c s =>
    rw [List.head?_cons, Option.any_some, hs c rfl]
    exact Bool.false_ne_true

/-! ### Repetition -/

/-- A chain of steps, each of which takes something, up to where the reader refuses. -/
inductive Repeats (p : Reader α) : List Char → List α → List Char → Prop where
  | stop {s} (refused : p s = none) : Repeats p s [] s
  | step {s a t as rest} (taken : p s = some (a, t)) (shorter : t.length < s.length)
    (more : Repeats p t as rest) : Repeats p s (a :: as) rest

/-- Repeating takes all that there is, if it may repeat as often as the text is long. -/
theorem upTo_of_repeats {p : Reader α} {s rest : List Char} {as : List α} (h : Repeats p s as rest)
    {n : Nat} (hn : s.length ≤ n) : upTo p n s = some (as, rest) := by
  induction h generalizing n with
  | stop hrefused =>
    cases n with
    | zero => rfl
    | succ n =>
      rw [upTo, orElse_of_eq_none (bind_of_eq_none hrefused)]
      rfl
  | @step s a t as rest htaken hshorter _ ih =>
    -- The length of the text is enough for all steps, since each one makes it shorter.
    cases n with
    | zero => omega
    | succ n =>
      have hmore := ih (n := n) (by omega)
      have hall : (do let a ← p; let as ← upTo p n; return a :: as : Reader (List α)) s =
          some (a :: as, rest) := by
        rw [bind_of_eq_some htaken, bind_of_eq_some hmore]
        rfl
      rw [upTo, orElse_of_eq_some hall]

/-- **Repetition takes a chain of steps as a whole.** -/
theorem many_of_repeats {p : Reader α} {s rest : List Char} {as : List α}
    (h : Repeats p s as rest) : many p s = some (as, rest) :=
  upTo_of_repeats h (Nat.le_refl _)

/-- A list with separators is its first item and then a separator with each further one. -/
theorem separated_of_repeats {p : Reader α} {separator : Reader β} {s t rest : List Char} {a : α}
    {as : List α} (hfirst : p s = some (a, t))
    (hmore : Repeats (do let _ ← separator; p) t as rest) :
    separated p separator s = some (a :: as, rest) := by
  rw [separated, bind_of_eq_some hfirst, bind_of_eq_some (many_of_repeats hmore)]
  rfl

/-! ### What readers can give -/

/-- All values that a reader gives have a property. -/
def Yields (p : Reader α) (good : α → Prop) : Prop := ∀ s a t, p s = some (a, t) → good a

/-- Every reader yields something. -/
theorem yields_true (p : Reader α) : Yields p fun _ => True := fun _ _ _ _ => trivial

/-- What is read without reading is what it is. -/
theorem yields_pure {good : α → Prop} {a : α} (h : good a) : Yields (pure a) good := by
  intro s b t hb
  cases hb
  exact h

namespace Yields

variable {good : α → Prop} {fine : β → Prop}

/-- A sequence yields what its last step does, from what the first one may yield. -/
theorem bind {p : Reader α} {f : α → Reader β} (h : Yields p good)
    (hnext : ∀ a, good a → Yields (f a) fine) : Yields (p >>= f) fine := by
  intro s b t hb
  obtain ⟨a, u, ha, hb⟩ := bind_eq_some_iff.1 hb
  exact hnext a (h s a u ha) u b t hb

/-- A change of what is read carries over to what is known of it. -/
theorem map {p : Reader α} {f : α → β} (h : Yields p fun a => fine (f a)) :
    Yields (f <$> p) fine := h.bind fun _ ha => yields_pure ha

/-- Alternatives yield what both of them do. -/
theorem orElse {p q : Reader α} (hp : Yields p good) (hq : Yields q good) :
    Yields (p <|> q) good := by
  intro s a t ha
  cases hs : p s with
  | none =>
    rw [orElse_of_eq_none hs] at ha
    exact hq s a t ha
  | some result =>
    rw [orElse_of_eq_some hs] at ha
    exact hp s a t (hs.trans ha)

end Yields

/-- Repeating yields a list of what one step does. -/
theorem Yields.upTo {good : α → Prop} {p : Reader α} (h : Yields p good) (n : Nat) :
    Yields (upTo p n) fun as => ∀ a ∈ as, good a := by
  induction n with
  | zero => exact yields_pure nofun
  | succ n ih =>
    refine Yields.orElse (h.bind fun a ha => ih.bind fun as has => ?_) (yields_pure nofun)
    exact yields_pure (List.forall_mem_cons.2 ⟨ha, has⟩)

/-- Repetition gives what its reader gives. -/
theorem Yields.many {good : α → Prop} {p : Reader α} (h : Yields p good) :
    Yields (many p) fun as => ∀ a ∈ as, good a :=
  fun s as t has => h.upTo s.length s as t has

/-- Items with separators between them are what their reader gives. -/
theorem Yields.separated {good : α → Prop} {p : Reader α} (h : Yields p good)
    (separator : Reader β) : Yields (separated p separator) fun as => ∀ a ∈ as, good a :=
  h.bind fun _ ha => (((yields_true separator).bind fun _ _ => h).many).bind fun _ has =>
    yields_pure (List.forall_mem_cons.2 ⟨ha, has⟩)

/-- Of items with separators between them there is at least one. -/
theorem yields_separated (p : Reader α) (separator : Reader β) :
    Yields (separated p separator) (· ≠ []) :=
  (yields_true p).bind fun _ _ => (yields_true _).bind fun _ _ => yields_pure (List.cons_ne_nil _ _)

end EntityQuery.Text.Reader
