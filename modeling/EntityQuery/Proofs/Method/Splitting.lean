import EntityQuery.Method.Descriptor
import EntityQuery.Proofs.Text.Words
import Mathlib.Data.List.Chain

namespace EntityQuery

open Text Text.Reader

/-!
# Splitting descriptors that are made of words

Criteria end at the first `OrderBy`.  In a text that is made of capitalised words, `OrderBy` can
only begin where a word begins, and that word is `Order` with one after it that begins with `By`
(`eq_order_of_prefix_word`).  Words without such a pair are passed over as a whole
(`splitAtWord_words`), so a descriptor whose criteria have no such pair falls apart as it was put
together (`parse?_spelled`).
-/

namespace Descriptor

/-- Two neighbours that do not spell `OrderBy`. -/
def NotOrderBy (first second : String) : Prop :=
  first = "Order" → ¬"By".toList <+: second.toList

/-! ### Where `OrderBy` can begin -/

/-- A word with `OrderBy` at its front is `Order`, and the next one begins with `By`. -/
theorem eq_order_of_prefix_word {w s : List Char} (hw : IsWord w) (hs : Stops continuesWord s)
    (h : "OrderBy".toList <+: w ++ s) : w = "Order".toList ∧ "By".toList <+: s := by
  obtain ⟨t, ht⟩ := h
  cases w with
  | nil => cases hw
  | cons c w =>
    have hcons : 'O' :: ("rder".toList ++ ("By".toList ++ t)) = c :: (w ++ s) := ht
    obtain ⟨hc, hrest⟩ := List.cons.inj hcons
    -- Both sides go on with the same characters of a word, which are those of `Order`.
    have hword : "rder".toList = w := by
      have hby : Stops continuesWord ("By".toList ++ t) := stops_of_beginsWord (by decide)
      have hrder : ∀ c ∈ "rder".toList, continuesWord c = true := List.all_eq_true.1 (by decide)
      rw [← (takeWhile_append_of_stops hrder hby).1, hrest]
      exact (takeWhile_append_of_stops hw.2 hs).1
    rw [← hword] at hrest ⊢
    rw [← hc]
    exact ⟨rfl, t, List.append_cancel_left hrest⟩

/-- Nothing that begins with a capital letter begins where another character stands. -/
theorem not_prefix_of_not_beginsWord {c d : Char} {word s : List Char} (hc : beginsWord c = true)
    (hd : beginsWord d = false) : ¬c :: word <+: d :: s := by
  rintro ⟨t, ht⟩
  obtain ⟨rfl, _⟩ := List.cons.inj (show c :: (word ++ t) = d :: s from ht)
  rw [hc] at hd
  cases hd

/-- A character that goes on with a word begins none. -/
theorem not_beginsWord_of_continuesWord {c : Char} (h : continuesWord c = true) :
    beginsWord c = false := by
  cases hbegins : beginsWord c with
  | false => rfl
  | true =>
    rw [not_continuesWord_of_beginsWord hbegins] at h
    cases h

/-- A word that the text begins with begins with `By` if the text does. -/
theorem by_prefix_of_append {w s : List Char} (hw : IsWord w) (hs : Stops continuesWord s)
    (h : "By".toList <+: w ++ s) : "By".toList <+: w := by
  obtain ⟨t, ht⟩ := h
  -- If the word had only its first letter, the second letter of By would begin the next one.
  cases w with
  | nil => cases hw
  | cons c w =>
    have hcons : 'B' :: 'y' :: t = c :: (w ++ s) := ht
    obtain ⟨hc, hrest⟩ := List.cons.inj hcons
    cases w with
    | nil =>
      have hnot := hs 'y' (by rw [← show 'y' :: t = s from hrest]; rfl)
      exact absurd hnot (by decide)
    | cons d w =>
      obtain ⟨hd, _⟩ := List.cons.inj (show 'y' :: t = d :: (w ++ s) from hrest)
      rw [← hc, ← hd]
      exact ⟨w, rfl⟩

/-- Words of a text in which `OrderBy` does not occur. -/
theorem isChain_notOrderBy {ws : List String}
    (h : ¬"OrderBy".toList <:+: ws.flatMap String.toList) : ws.IsChain NotOrderBy := by
  induction ws with
  | nil => exact .nil
  | cons w ws ih =>
    have hrest : ¬"OrderBy".toList <:+: ws.flatMap String.toList := by
      intro hin
      exact h (hin.trans (List.suffix_append w.toList _).isInfix)
    cases ws with
    | nil => exact .singleton w
    | cons next ws =>
      refine .cons_cons ?_ (ih hrest)
      -- If the two spelled it, it would stand at the front of the text.
      rintro rfl ⟨t, ht⟩
      have hspelled : "OrderBy".toList ++ (t ++ ws.flatMap String.toList) =
          ("Order" :: next :: ws).flatMap String.toList := by
        rw [List.flatMap_cons, List.flatMap_cons, ← ht, List.append_assoc, ← List.append_assoc]
        rfl
      exact h (hspelled ▸ (List.prefix_append "OrderBy".toList _).isInfix)

/-! ### Passing over words -/

/-- Nothing is cut off the front of a text that does not begin with it. -/
theorem isPrefixOf?_eq_none {word s : List Char} (h : ¬word <+: s) : word.isPrefixOf? s = none := by
  cases hprefix : word.isPrefixOf? s with
  | none => rfl
  | some rest => exact absurd ⟨rest, List.isPrefixOf?_eq_some_iff_append_eq.1 hprefix⟩ h

/-- Characters where the word does not begin stay in front. -/
theorem splitAtWord_append {word a s : List Char} (h : ∀ b, b <:+ a → b ≠ [] → ¬word <+: b ++ s) :
    splitAtWord word (a ++ s) = (a ++ (splitAtWord word s).1, (splitAtWord word s).2) := by
  induction a with
  | nil => rfl
  | cons c a ih =>
    have hrest := ih fun b hb => h b (hb.trans (List.suffix_cons c a))
    have hhere := isPrefixOf?_eq_none (h (c :: a) (List.suffix_refl _) (List.cons_ne_nil _ _))
    rw [List.cons_append] at hhere ⊢
    rw [splitAtWord, hhere, hrest]
    rfl

/-- A word is passed over, unless `OrderBy` begins with it. -/
theorem splitAtWord_word {w s : List Char} (hw : IsWord w) (hs : Stops continuesWord s)
    (h : ¬(w = "Order".toList ∧ "By".toList <+: s)) :
    splitAtWord "OrderBy".toList (w ++ s) =
      (w ++ (splitAtWord "OrderBy".toList s).1, (splitAtWord "OrderBy".toList s).2) := by
  apply splitAtWord_append
  intro b hb hne
  by_cases hwhole : b = w
  · subst hwhole
    intro hprefix
    exact h (eq_order_of_prefix_word hw hs hprefix)
  · -- Any other end of the word lies behind its first character.
    obtain ⟨c, b, rfl⟩ := List.exists_cons_of_ne_nil hne
    apply not_prefix_of_not_beginsWord (by decide)
    apply not_beginsWord_of_continuesWord
    cases w with
    | nil => cases hw
    | cons d w =>
      rcases List.suffix_cons_iff.1 hb with heq | hbehind
      · exact absurd heq hwhole
      · exact hw.2 c (hbehind.subset List.mem_cons_self)

/-- **Words are passed over as a whole** if no two neighbours spell `OrderBy`. -/
theorem splitAtWord_words {ws : List String} (hws : ∀ w ∈ ws, IsWord w.toList)
    (hchain : ws.IsChain NotOrderBy) {s : List Char} (hs : Stops continuesWord s)
    (hby : ¬"By".toList <+: s) :
    splitAtWord "OrderBy".toList (ws.flatMap String.toList ++ s) =
      (ws.flatMap String.toList ++ (splitAtWord "OrderBy".toList s).1,
        (splitAtWord "OrderBy".toList s).2) := by
  induction ws with
  | nil => rfl
  | cons w ws ih =>
    obtain ⟨hw, hwords⟩ := List.forall_mem_cons.1 hws
    have hrest : Stops continuesWord (ws.flatMap String.toList ++ s) := by
      cases ws with
      | nil => exact hs
      | cons next ws =>
        rw [List.flatMap_cons, List.append_assoc]
        exact (hwords next List.mem_cons_self).stops
    -- An Order in front of a By is what the chain rules out, and behind the last word there is no By.
    have hpair : ¬(w.toList = "Order".toList ∧ "By".toList <+: ws.flatMap String.toList ++ s) := by
      rintro ⟨horder, hprefix⟩
      cases ws with
      | nil => exact hby hprefix
      | cons next ws =>
        have hneighbour : NotOrderBy w next := (List.isChain_cons_cons.1 hchain).1
        refine hneighbour (String.toList_inj.1 horder) ?_
        rw [List.flatMap_cons, List.append_assoc] at hprefix
        refine by_prefix_of_append (hwords next List.mem_cons_self) ?_ hprefix
        cases ws with
        | nil => exact hs
        | cons next' ws =>
          rw [List.flatMap_cons, List.append_assoc]
          exact (hwords next' (List.mem_cons_of_mem _ List.mem_cons_self)).stops
    rw [List.flatMap_cons, List.append_assoc, splitAtWord_word hw hrest hpair,
      ih hwords hchain.of_cons, List.append_assoc]

/-! ### Whole descriptors -/

/-- The part of a descriptor that asks for an order. -/
def orderText (order : List String) : List Char :=
  if order = [] then [] else "OrderBy".toList ++ order.flatMap String.toList

/-- The criteria and the order are told apart at the first OrderBy, which is the one in front of the order. -/
theorem splitAtWord_orderText {ws order : List String} (hws : ∀ w ∈ ws, IsWord w.toList)
    (hchain : ws.IsChain NotOrderBy) :
    splitAtWord "OrderBy".toList (ws.flatMap String.toList ++ orderText order) =
      (ws.flatMap String.toList,
        if order = [] then none else some (order.flatMap String.toList)) := by
  unfold orderText
  split
  · rw [splitAtWord_words hws hchain stops_nil (by decide)]
    show (ws.flatMap String.toList ++ [], none) = _
    rw [List.append_nil]
  -- The order's own OrderBy begins with another letter than By.
  · have hby : ¬"By".toList <+: "OrderBy".toList ++ order.flatMap String.toList := by
      rintro ⟨t, ht⟩
      have ht : 'B' :: 'y' :: t = 'O' :: ("rderBy".toList ++ order.flatMap String.toList) := ht
      cases ht
    have hstops : Stops continuesWord ("OrderBy".toList ++ order.flatMap String.toList) :=
      stops_of_beginsWord (by decide)
    rw [splitAtWord_words hws hchain hstops hby]
    show (ws.flatMap String.toList ++ [], some (order.flatMap String.toList)) = _
    rw [List.append_nil]

/-- **A descriptor falls apart as it was put together.** -/
theorem parse?_spelled {ws order : List String} (hws : ∀ w ∈ ws, IsWord w.toList)
    (horder : ∀ w ∈ order, IsWord w.toList) (hchain : ws.IsChain NotOrderBy) :
    parse? (String.ofList ("findBy".toList ++ (ws.flatMap String.toList ++ orderText order))) =
      some ⟨.find, [], ws.flatMap String.toList,
        if order = [] then none else some (order.flatMap String.toList)⟩ := by
  have hword : ∀ {ws : List String}, (∀ w ∈ ws, IsWord w.toList) →
      ∀ c ∈ ws.flatMap String.toList, inWord c = true := by
    intro ws hws c hc
    obtain ⟨w, hw, hc⟩ := List.mem_flatMap.1 hc
    exact inWord_of_isWord (hws w hw) hc
  -- A line break would have the descriptor refused, but no word has one in it.
  have hline : ∀ c ∈ "By".toList ++ (ws.flatMap String.toList ++ orderText order),
      inWord c = true := by
    have hby : ∀ c ∈ "By".toList, inWord c = true := List.all_eq_true.1 (by decide)
    have horderBy : ∀ c ∈ "OrderBy".toList, inWord c = true := List.all_eq_true.1 (by decide)
    refine List.forall_mem_append.2 ⟨hby, List.forall_mem_append.2 ⟨hword hws, ?_⟩⟩
    unfold orderText
    split
    · exact nofun
    · exact List.forall_mem_append.2 ⟨horderBy, hword horder⟩
  have hnewline : ¬('B' :: 'y' :: (ws.flatMap String.toList ++ orderText order)).contains
      '\n' = true := by
    intro hcontains
    have hin := hline '\n' (List.contains_iff_mem.1 hcontains)
    exact absurd hin (by decide)
  have hsubject : splitSubject ("findBy".toList ++ (ws.flatMap String.toList ++ orderText order)) =
      some (.find, 'B' :: 'y' :: (ws.flatMap String.toList ++ orderText order)) := rfl
  have hparts : splitParts ('B' :: 'y' :: (ws.flatMap String.toList ++ orderText order)) =
      ([], splitAtWord "OrderBy".toList (ws.flatMap String.toList ++ orderText order)) := rfl
  rw [splitAtWord_orderText hws hchain] at hparts
  rw [parse?, String.toList_ofList, hsubject, Option.bind_eq_bind, Option.bind_some]
  dsimp only
  rw [if_neg hnewline, hparts]
  rfl

end Descriptor

end EntityQuery
