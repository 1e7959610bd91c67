import EntityQuery.Proofs.Text.Reading
import EntityQuery.Text.CamelWords
import Mathlib.Data.List.Basic
import Mathlib.Data.List.TakeWhile

namespace EntityQuery.Text

/-!
# Splitting and joining camel-case words

A capitalised word (`IsWord`) is what the parts of a method descriptor are made of.  Words that
stand side by side are found again one by one (`camelWords_flatten`), and what is found in any text
is that text without the characters that belong to no word (`flatten_camelWords`).

Lower camel names (`isLowerCamel`) correspond to lists of capitalised words: `nameWords` are the
words of a name in its capitalised form, and `lowerCamel` leads back (`lowerCamel_nameWords`,
`nameWords_lowerCamel`).
-/

open Reader (Stops stops_nil stops_cons)

/-- A character that belongs to a word. -/
def inWord (c : Char) : Bool := beginsWord c || continuesWord c

/-- An upper-case letter with lower-case letters and digits after it. -/
def IsWord : List Char → Prop
  | [] => False
  | c :: rest => beginsWord c = true ∧ ∀ d ∈ rest, continuesWord d = true

instance : DecidablePred IsWord
  | [] => .isFalse id
  | c :: rest =>
    decidable_of_iff (beginsWord c = true ∧ rest.all continuesWord = true)
      (and_congr_right fun _ => List.all_eq_true)

/-! ### Characters -/

/-- A character that begins a word never goes on with one. -/
theorem not_continuesWord_of_beginsWord {c : Char} (h : beginsWord c = true) :
    continuesWord c = false := by
  simp only [beginsWord, continuesWord, Bool.and_eq_true, Bool.or_eq_false_iff,
    Bool.and_eq_false_iff, decide_eq_true_eq, decide_eq_false_iff_not, Char.le_def,
    UInt32.le_iff_toNat_le] at h ⊢
  -- As numbers, the capital letters lie between the digits and the other letters.
  have h1 : 'Z'.val.toNat = 90 := rfl
  have h2 : 'a'.val.toNat = 97 := rfl
  have h3 : 'A'.val.toNat = 65 := rfl
  have h4 : '9'.val.toNat = 57 := rfl
  omega

/-- A capital letter goes on with no word, so a word ends in front of it. -/
theorem stops_of_beginsWord {c : Char} {s : List Char} (h : beginsWord c = true) :
    Stops continuesWord (c :: s) :=
  stops_cons (not_continuesWord_of_beginsWord h)

/-! ### Words side by side -/

/-- One character of a word: it joins the next word if the rest goes on with a word, and is a word of its
    own otherwise. -/
theorem camelWords_cons {c : Char} {s : List Char} (h : inWord c = true) :
    camelWords (c :: s) =
      match s.head?.any continuesWord, camelWords s with
      | true, word :: words => (c :: word) :: words
      | _, words => [c] :: words := by
  have h' : (beginsWord c || continuesWord c) = true := h
  rw [camelWords]
  exact if_pos h'

/-- A character of no word is left out. -/
theorem camelWords_cons_of_not_inWord {c : Char} {s : List Char} (h : inWord c = false) :
    camelWords (c :: s) = camelWords s := by
  have h' : ¬(beginsWord c || continuesWord c) = true := by
    rw [show (beginsWord c || continuesWord c) = false from h]
    exact Bool.false_ne_true
  rw [camelWords, if_neg h']

/-- A text that begins inside a word has one. -/
theorem camelWords_ne_nil {c : Char} {s : List Char} (h : inWord c = true) :
    camelWords (c :: s) ≠ [] := by
  rw [camelWords_cons h]
  split <;> exact List.cons_ne_nil _ _

/-- Whether a text goes on with a word is seen at its front, also with another text behind it that begins no
    word in the middle. -/
theorem head?_append_any (a b : List Char) (hb : Stops continuesWord b) :
    (a ++ b).head?.any continuesWord = a.head?.any continuesWord := by
  cases a with
  | cons c a => rfl
  | nil =>
    cases b with
    | nil => rfl
    | cons c b => exact hb c rfl

/-- Where no word is gone on with, a text can be split on its own. -/
theorem camelWords_append {a b : List Char} (hb : Stops continuesWord b) :
    camelWords (a ++ b) = camelWords a ++ camelWords b := by
  induction a with
  | nil => rfl
  | cons c a ih =>
    rw [List.cons_append]
    cases hc : inWord c with
    | false => rw [camelWords_cons_of_not_inWord hc, camelWords_cons_of_not_inWord hc, ih]
    | true =>
      rw [camelWords_cons hc, camelWords_cons hc, head?_append_any a b hb, ih]
      cases hany : a.head?.any continuesWord with
      | false => rfl
      | true =>
        -- The next word of `a` is not missing, since it begins with a character of a word.
        cases a with
        | nil => cases hany
        | cons d a =>
          have hd : inWord d = true := by
            rw [inWord, show continuesWord d = true from hany, Bool.or_true]
          obtain ⟨word, words, hwords⟩ := List.exists_cons_of_ne_nil (camelWords_ne_nil (s := a) hd)
          rw [hwords]
          rfl

/-- A character and the ones that go on with its word are one word. -/
theorem camelWords_of_continuesWord {c : Char} {s : List Char} (hc : inWord c = true)
    (hs : ∀ d ∈ s, continuesWord d = true) : camelWords (c :: s) = [c :: s] := by
  induction s generalizing c with
  | nil => rw [camelWords_cons hc]; rfl
  | cons d s ih =>
    obtain ⟨hd, hs⟩ := List.forall_mem_cons.1 hs
    have hin : inWord d = true := by rw [inWord, hd, Bool.or_true]
    have hany : (d :: s).head?.any continuesWord = true := hd
    rw [camelWords_cons hc, ih hin hs, hany]

/-- A word is split into itself. -/
theorem IsWord.camelWords {w : List Char} (h : IsWord w) : camelWords w = [w] := by
  cases w with
  | nil => cases h
  | cons c w => exact camelWords_of_continuesWord (by rw [inWord, h.1, Bool.true_or]) h.2

/-- What is left behind a run does not go on with it. -/
theorem stops_dropWhile (s : List Char) : Stops continuesWord (s.dropWhile continuesWord) := by
  intro c hc
  have hhead := List.head?_dropWhile_not continuesWord s
  rw [hc] at hhead
  exact hhead

/-- **The first word of a text** goes on as long as it can, and the others are found behind it. -/
theorem camelWords_cons_eq {c : Char} {s : List Char} (hc : inWord c = true) :
    camelWords (c :: s) =
      (c :: s.takeWhile continuesWord) :: camelWords (s.dropWhile continuesWord) := by
  have hword : ∀ d ∈ s.takeWhile continuesWord, continuesWord d = true := by
    intro d hd
    exact List.mem_takeWhile_imp hd
  have hsplit : c :: s = (c :: s.takeWhile continuesWord) ++ s.dropWhile continuesWord := by
    rw [List.cons_append, List.takeWhile_append_dropWhile]
  rw [hsplit, camelWords_append (stops_dropWhile s), camelWords_of_continuesWord hc hword,
    List.singleton_append]

/-- What is kept by characters between words and by whole words holds of all texts. -/
theorem words_induction {motive : List Char → Prop} (hnil : motive [])
    (hother : ∀ c s, inWord c = false → motive s → motive (c :: s))
    (hword : ∀ c s, inWord c = true → motive (s.dropWhile continuesWord) → motive (c :: s))
    (s : List Char) : motive s := by
  induction hlength : s.length using Nat.strongRecOn generalizing s with
  | ind length ih =>
  subst hlength
  cases s with
  | nil => exact hnil
  | cons c s =>
    have hshorter : (s.dropWhile continuesWord).length < (c :: s).length :=
      Nat.lt_succ_of_le (List.dropWhile_suffix continuesWord).length_le
    cases hc : inWord c with
    | false => exact hother c s hc (ih _ (Nat.lt_succ_self _) s rfl)
    | true => exact hword c s hc (ih _ hshorter _ rfl)

/-- No word goes on into the next one. -/
theorem IsWord.stops {w s : List Char} (h : IsWord w) : Stops continuesWord (w ++ s) := by
  cases w with
  | nil => cases h
  | cons c w => exact stops_of_beginsWord h.1

/-- Words put one behind the other begin with a capital. -/
theorem stops_flatten {ws : List (List Char)} (h : ∀ w ∈ ws, IsWord w) :
    Stops continuesWord ws.flatten := by
  cases ws with
  | nil => exact stops_nil
  | cons w ws => exact (h w List.mem_cons_self).stops

/-- **Words that stand side by side are found again.** -/
theorem camelWords_flatten {ws : List (List Char)} (h : ∀ w ∈ ws, IsWord w) :
    camelWords ws.flatten = ws := by
  induction ws with
  | nil => rfl
  | cons w ws ih =>
    obtain ⟨hw, hws⟩ := List.forall_mem_cons.1 h
    rw [List.flatten_cons, camelWords_append (stops_flatten hws), ih hws, hw.camelWords,
      List.singleton_append]

/-- **What is found in a text** is the text without the characters that belong to no word. -/
theorem flatten_camelWords (s : List Char) : (camelWords s).flatten = s.filter inWord := by
  induction s with
  | nil => rfl
  | cons c s ih =>
    cases hc : inWord c with
    | false => rw [camelWords_cons_of_not_inWord hc, List.filter_cons_of_neg (by simp [hc]), ih]
    | true =>
      -- The character goes into the first word or makes up one of its own.
      rw [camelWords_cons hc, List.filter_cons_of_pos hc, ← ih]
      split
      · rename_i hwords
        rw [hwords]
        rfl
      · rfl

/-- A text that begins with an upper-case letter and has no other characters than those of words is
    made of capitalised words. -/
theorem isWord_of_mem_camelWords {c : Char} {s : List Char} (hc : beginsWord c = true)
    (hs : ∀ d ∈ s, inWord d = true) {w : List Char} (hw : w ∈ camelWords (c :: s)) : IsWord w := by
  -- Only the first word could begin otherwise, and it begins with the first character.
  have hwords : ∀ (s : List Char) (c : Char), inWord c = true → (∀ d ∈ s, inWord d = true) →
      ∃ rest words, camelWords (c :: s) = (c :: rest) :: words ∧
        (∀ d ∈ rest, continuesWord d = true) ∧ ∀ w ∈ words, IsWord w := by
    intro s
    induction s with
    | nil =>
      intro c hc _
      exact ⟨[], [], camelWords_cons hc, nofun, nofun⟩
    | cons d s ih =>
      intro c hc hs
      obtain ⟨hd, hs⟩ := List.forall_mem_cons.1 hs
      obtain ⟨rest, words, heq, hrest, hwords⟩ := ih d hd hs
      rw [camelWords_cons hc, heq]
      cases hcontinues : continuesWord d with
      | true =>
        have hany : (d :: s).head?.any continuesWord = true := hcontinues
        rw [hany]
        refine ⟨d :: rest, words, rfl, ?_, hwords⟩
        exact List.forall_mem_cons.2 ⟨hcontinues, hrest⟩
      | false =>
        have hany : (d :: s).head?.any continuesWord = false := hcontinues
        have hbegins : beginsWord d = true := by
          rwa [inWord, hcontinues, Bool.or_false] at hd
        rw [hany]
        refine ⟨[], (d :: rest) :: words, rfl, nofun, ?_⟩
        exact List.forall_mem_cons.2 ⟨⟨hbegins, hrest⟩, hwords⟩
  obtain ⟨rest, words, heq, hrest, hwords⟩ := hwords s c (by rw [inWord, hc, Bool.true_or]) hs
  rw [heq] at hw
  rcases List.mem_cons.1 hw with rfl | hw
  · exact ⟨hc, hrest⟩
  · exact hwords w hw

/-- The characters of a word are those that words have. -/
theorem inWord_of_isWord {w : List Char} (h : IsWord w) {c : Char} (hc : c ∈ w) :
    inWord c = true := by
  cases w with
  | nil => cases h
  | cons d w =>
    rcases List.mem_cons.1 hc with rfl | hc
    · rw [inWord, h.1, Bool.true_or]
    · rw [inWord, h.2 c hc, Bool.or_true]

/-! ### Lower camel names -/

/-- A lower-case letter, and any letters and digits after it, all of ASCII. -/
def isLowerCamel (name : String) : Bool :=
  match name.toList with
  | [] => false
  | c :: rest => c.isLower && rest.all inWord

/-- A name as it stands in the middle of a method descriptor. -/
def capitalised (name : String) : List Char :=
  match name.toList with
  | [] => []
  | c :: rest => c.toUpper :: rest

/-- The words of a name in its capitalised form. -/
def nameWords (name : String) : List String := words (String.ofList (capitalised name))

/-- The words of a name are those of the name with a capital in front. -/
theorem nameWords_eq (name : String) :
    nameWords name = (camelWords (capitalised name)).map String.ofList := by
  rw [nameWords, words, String.toList_ofList]

/-- The letters of one case stand side by side. -/
theorem exists_letter {base : Nat} {c : Char} (hfirst : base ≤ c.toNat)
    (hlast : c.toNat < base + 26) : ∃ i : Fin 26, c = Char.ofNat (base + i.val) := by
  refine ⟨⟨c.toNat - base, by omega⟩, ?_⟩
  show c = Char.ofNat (base + (c.toNat - base))
  rw [Nat.add_sub_cancel' hfirst, Char.ofNat_toNat]

/-- There are 26 upper-case letters. -/
theorem exists_of_beginsWord {c : Char} (h : beginsWord c = true) :
    ∃ i : Fin 26, c = Char.ofNat (65 + i.val) := by
  have hrange : 65 ≤ c.toNat ∧ c.toNat < 65 + 26 := by
    simp only [beginsWord, Bool.and_eq_true, decide_eq_true_eq, Char.le_def,
      UInt32.le_iff_toNat_le] at h
    have hA : 'A'.val.toNat = 65 := rfl
    have hZ : 'Z'.val.toNat = 90 := rfl
    show 65 ≤ c.val.toNat ∧ c.val.toNat < 65 + 26
    omega
  exact exists_letter hrange.1 hrange.2

/-- There are 26 lower-case letters. -/
theorem exists_of_isLower {c : Char} (h : c.isLower = true) :
    ∃ i : Fin 26, c = Char.ofNat (97 + i.val) := by
  have hrange : 97 ≤ c.toNat ∧ c.toNat < 97 + 26 := by
    have h : (decide (c.val ≥ 'a'.val) && decide (c.val ≤ 'z'.val)) = true := h
    simp only [Bool.and_eq_true, decide_eq_true_eq, ge_iff_le, UInt32.le_iff_toNat_le] at h
    have ha : 'a'.val.toNat = 97 := rfl
    have hz : 'z'.val.toNat = 122 := rfl
    show 97 ≤ c.val.toNat ∧ c.val.toNat < 97 + 26
    omega
  exact exists_letter hrange.1 hrange.2

/-- An upper-case letter is put in lower case and back. -/
theorem lowercase_of_beginsWord {c : Char} (h : beginsWord c = true) :
    lowercase c = [c.toLower] ∧ c.toLower.toUpper = c := by
  obtain ⟨i, rfl⟩ := exists_of_beginsWord h
  revert i
  decide

/-- A lower-case letter is put in upper case and back. -/
theorem beginsWord_toUpper {c : Char} (h : c.isLower = true) :
    beginsWord c.toUpper = true ∧ c.toUpper.toLower = c := by
  obtain ⟨i, rfl⟩ := exists_of_isLower h
  revert i
  decide

/-- The characters of words that are joined to a name: only the first one is changed. -/
theorem toList_lowerCamel {c : Char} {w : List Char} {words : List String}
    (hc : beginsWord c = true) :
    (lowerCamel (String.ofList (c :: w) :: words)).toList =
      c.toLower :: (w ++ words.flatMap String.toList) := by
  have hfirst : lowerFirst (String.ofList (c :: w)) = String.ofList (c.toLower :: w) := by
    simp [lowerFirst, (lowercase_of_beginsWord hc).1]
  rw [lowerCamel, hfirst, String.toList_append, String.toList_ofList, String.toList_join]
  rfl

/-- A word has a first character, which begins words. -/
theorem exists_ofList_of_isWord {word : String} (h : IsWord word.toList) :
    ∃ c w, word = String.ofList (c :: w) ∧ beginsWord c = true := by
  cases hchars : word.toList with
  | nil =>
    rw [hchars] at h
    cases h
  | cons c w =>
    rw [hchars] at h
    exact ⟨c, w, by rw [← hchars, String.ofList_toList], h.1⟩

/-- Joining words to a name and putting the capital back is putting them one behind the other. -/
theorem capitalised_lowerCamel {words : List String} (h : ∀ w ∈ words, IsWord w.toList) :
    capitalised (lowerCamel words) = words.flatMap String.toList := by
  cases words with
  | nil => rfl
  | cons word words =>
    obtain ⟨c, w, rfl, hc⟩ := exists_ofList_of_isWord (h word List.mem_cons_self)
    rw [capitalised, toList_lowerCamel hc]
    show c.toLower.toUpper :: (w ++ words.flatMap String.toList) = _
    rw [(lowercase_of_beginsWord hc).2, List.flatMap_cons, String.toList_ofList]
    rfl

/-- The words of a text make up what is left of it without the characters in between. -/
theorem flatMap_words (s : List Char) :
    (words (String.ofList s)).flatMap String.toList = s.filter inWord := by
  have htoList : (fun w => (String.ofList w).toList) = id := funext fun w => String.toList_ofList
  rw [words, String.toList_ofList, List.flatMap_map, List.flatMap_def, htoList, List.map_id,
    flatten_camelWords]

/-- The words of capitalised words side by side. -/
theorem words_flatMap {ws : List String} (h : ∀ w ∈ ws, IsWord w.toList) :
    words (String.ofList (ws.flatMap String.toList)) = ws := by
  have hwords : ∀ w ∈ ws.map String.toList, IsWord w := by
    intro w hw
    obtain ⟨word, hword, rfl⟩ := List.mem_map.1 hw
    exact h word hword
  rw [words, String.toList_ofList, List.flatMap_def, camelWords_flatten hwords, List.map_map]
  exact (List.map_congr_left fun w _ => String.ofList_toList).trans (List.map_id _)

/-- **Joined words are found again** in the name they make up. -/
theorem nameWords_lowerCamel {words : List String} (h : ∀ w ∈ words, IsWord w.toList) :
    nameWords (lowerCamel words) = words := by
  rw [nameWords, capitalised_lowerCamel h, words_flatMap h]

/-- A name in camel case, taken apart at its first letter. -/
theorem capitalised_of_isLowerCamel {name : String} (h : isLowerCamel name = true) :
    ∃ c rest, name.toList = c.toLower :: rest ∧ capitalised name = c :: rest ∧
      beginsWord c = true ∧ ∀ d ∈ rest, inWord d = true := by
  unfold isLowerCamel at h
  unfold capitalised
  split at h
  · cases h
  · rename_i c rest hname
    rw [Bool.and_eq_true, List.all_eq_true] at h
    obtain ⟨hbegins, hback⟩ := beginsWord_toUpper h.1
    rw [hname]
    exact ⟨c.toUpper, rest, by rw [hback], rfl, hbegins, h.2⟩

/-- The words of a name are words. -/
theorem isWord_of_mem_nameWords {name : String} (h : isLowerCamel name = true) {w : String}
    (hw : w ∈ nameWords name) : IsWord w.toList := by
  obtain ⟨c, rest, _, hcapitalised, hc, hrest⟩ := capitalised_of_isLowerCamel h
  rw [nameWords_eq, hcapitalised] at hw
  obtain ⟨word, hword, rfl⟩ := List.mem_map.1 hw
  rw [String.toList_ofList]
  exact isWord_of_mem_camelWords hc hrest hword

/-- The words of a name are all of it. -/
theorem flatMap_nameWords {name : String} (h : isLowerCamel name = true) :
    (nameWords name).flatMap String.toList = capitalised name := by
  obtain ⟨c, rest, _, hcapitalised, hc, hrest⟩ := capitalised_of_isLowerCamel h
  have hall : ∀ d ∈ c :: rest, inWord d = true :=
    List.forall_mem_cons.2 ⟨by rw [inWord, hc, Bool.true_or], hrest⟩
  rw [nameWords, flatMap_words, hcapitalised]
  exact List.filter_eq_self.2 hall

/-- A name has at least one word. -/
theorem nameWords_ne_nil {name : String} (h : isLowerCamel name = true) : nameWords name ≠ [] := by
  obtain ⟨c, rest, _, hcapitalised, hc, _⟩ := capitalised_of_isLowerCamel h
  have hne : camelWords (c :: rest) ≠ [] := camelWords_ne_nil (by rw [inWord, hc, Bool.true_or])
  rw [nameWords_eq, hcapitalised]
  intro hnil
  exact hne (List.map_eq_nil_iff.1 hnil)

/-- **A lower camel name is joined from its words.** -/
theorem lowerCamel_nameWords {name : String} (h : isLowerCamel name = true) :
    lowerCamel (nameWords name) = name := by
  have hwords : ∀ w ∈ nameWords name, IsWord w.toList := by
    intro w hw
    exact isWord_of_mem_nameWords h hw
  obtain ⟨c, rest, hname, hcapitalised, hc, _⟩ := capitalised_of_isLowerCamel h
  obtain ⟨word, words, hcons⟩ := List.exists_cons_of_ne_nil (nameWords_ne_nil h)
  have hflatten := flatMap_nameWords h
  rw [hcons] at hwords hflatten ⊢
  obtain ⟨d, w, rfl, _⟩ := exists_ofList_of_isWord (hwords word List.mem_cons_self)
  -- Both begin with the same letter, which is in lower case in the name.
  rw [hcapitalised, List.flatMap_cons, String.toList_ofList, List.cons_append,
    List.cons.injEq] at hflatten
  obtain ⟨rfl, hrest⟩ := hflatten
  rw [← String.toList_inj, toList_lowerCamel hc, hrest, hname]

/-! ### Words and names are not empty -/

/-- No word is empty. -/
theorem ne_nil_of_mem_camelWords {s w : List Char} (h : w ∈ camelWords s) : w ≠ [] := by
  induction s generalizing w with
  | nil => cases h
  | cons c s ih =>
    cases hc : inWord c with
    | false =>
      rw [camelWords_cons_of_not_inWord hc] at h
      exact ih h
    | true =>
      -- Either the first word is a longer one, or it stands in front of the others.
      rw [camelWords_cons hc] at h
      split at h
      · rename_i heq
        rcases List.mem_cons.1 h with rfl | h
        · exact List.cons_ne_nil _ _
        · exact ih (heq ▸ List.mem_cons_of_mem _ h)
      · rcases List.mem_cons.1 h with rfl | h
        · exact List.cons_ne_nil _ _
        · exact ih h

/-- Nor is any word of a text. -/
theorem ne_empty_of_mem_words {text w : String} (h : w ∈ words text) : w ≠ "" := by
  obtain ⟨chars, hchars, rfl⟩ := List.mem_map.1 h
  intro hempty
  refine ne_nil_of_mem_camelWords hchars ?_
  rw [← String.toList_ofList (l := chars), hempty]
  rfl

/-- Lower case takes no character away. -/
theorem lowercase_ne_nil (c : Char) : lowercase c ≠ [] := by
  unfold lowercase
  split
  · exact List.cons_ne_nil _ _
  · split <;> exact List.cons_ne_nil _ _

/-- A name that is joined from words is not empty. -/
theorem lowerCamel_ne_empty {words : List String} (hne : words ≠ []) (h : ∀ w ∈ words, w ≠ "") :
    lowerCamel words ≠ "" := by
  obtain ⟨word, words, rfl⟩ := List.exists_cons_of_ne_nil hne
  have hword : word ≠ "" := h word List.mem_cons_self
  -- The first word already gives it a character, whatever case that becomes.
  intro hempty
  have hchars : (lowerFirst word ++ String.join words).toList = [] := by
    rw [show lowerFirst word ++ String.join words = "" from hempty]
    rfl
  rw [String.toList_append, List.append_eq_nil_iff] at hchars
  unfold lowerFirst at hchars
  split at hchars
  · rename_i hnil
    exact hword (String.toList_inj.1 hnil)
  · rename_i c rest _
    rw [String.toList_ofList, List.append_eq_nil_iff] at hchars
    exact lowercase_ne_nil c hchars.1.1

/-! ### The words of a lower camel name -/

/-- A lower-case letter stays as it is, and goes on with a word. -/
theorem lowercase_of_isLower {c : Char} (h : c.isLower = true) :
    lowercase c = [c] ∧ continuesWord c = true := by
  obtain ⟨i, rfl⟩ := exists_of_isLower h
  revert i
  decide +kernel

/-- In lower case, a character that begins a word is a small letter. -/
theorem isLower_toLower {c : Char} (h : beginsWord c = true) : c.toLower.isLower = true := by
  obtain ⟨i, rfl⟩ := exists_of_beginsWord h
  revert i
  decide

/-- The first character of a text goes into its first word, and nothing else depends on it. -/
theorem exists_camelWords_cons (s : List Char) :
    ∃ word words, ∀ c, inWord c = true → camelWords (c :: s) = (c :: word) :: words := by
  -- What follows alone decides whether the character joins it.
  cases hany : s.head?.any continuesWord with
  | false =>
    refine ⟨[], camelWords s, fun c hc => ?_⟩
    rw [camelWords_cons hc, hany]
  | true =>
    cases hwords : camelWords s with
    | nil =>
      refine ⟨[], [], fun c hc => ?_⟩
      rw [camelWords_cons hc, hany, hwords]
    | cons word words =>
      refine ⟨word, words, fun c hc => ?_⟩
      rw [camelWords_cons hc, hany, hwords]

/-- The words of a name as it is written are those of its capitalised form but for the case of the
    first letter, which joining them does away with. -/
theorem exists_words_of_isLowerCamel {name : String} (h : isLowerCamel name = true) :
    ∃ first capital rest, words name = first :: rest ∧ nameWords name = capital :: rest ∧
      lowerFirst first = lowerFirst capital := by
  have hchars : ∃ c s, name.toList = c :: s ∧ c.isLower = true := by
    unfold isLowerCamel at h
    split at h
    · cases h
    · rename_i c s hname
      exact ⟨c, s, hname, (Bool.and_eq_true_iff.1 h).1⟩
  obtain ⟨c, s, hname, hlower⟩ := hchars
  obtain ⟨hupper, hback⟩ := beginsWord_toUpper hlower
  obtain ⟨word, more, hwords⟩ := exists_camelWords_cons s
  obtain ⟨hsame, hcontinues⟩ := lowercase_of_isLower hlower
  have hc : inWord c = true := by rw [inWord, hcontinues, Bool.or_true]
  have hcapital : inWord c.toUpper = true := by rw [inWord, hupper, Bool.true_or]
  -- With and without the capital the same characters follow, so the words differ in that letter only.
  refine ⟨String.ofList (c :: word), String.ofList (c.toUpper :: word), more.map String.ofList,
    ?_, ?_, ?_⟩
  · rw [words, hname, hwords c hc, List.map_cons]
  · rw [nameWords_eq, capitalised, hname]
    dsimp only
    rw [hwords _ hcapital, List.map_cons]
  · have hcase : lowercase c.toUpper = [c] := by rw [(lowercase_of_beginsWord hupper).1, hback]
    simp [lowerFirst, hcase, hsame]

/-- Words joined to a name make up a lower camel name. -/
theorem isLowerCamel_lowerCamel {words : List String} (hne : words ≠ [])
    (h : ∀ w ∈ words, IsWord w.toList) : isLowerCamel (lowerCamel words) = true := by
  obtain ⟨word, more, rfl⟩ := List.exists_cons_of_ne_nil hne
  obtain ⟨hword, hmore⟩ := List.forall_mem_cons.1 h
  obtain ⟨c, w, rfl, hc⟩ := exists_ofList_of_isWord hword
  rw [String.toList_ofList] at hword
  unfold isLowerCamel
  rw [toList_lowerCamel hc]
  simp only [isLower_toLower hc, Bool.true_and, List.all_append, Bool.and_eq_true, List.all_eq_true]
  refine ⟨fun d hd => inWord_of_isWord hword (List.mem_cons_of_mem _ hd), fun d hd => ?_⟩
  obtain ⟨v, hv, hd⟩ := List.mem_flatMap.1 hd
  exact inWord_of_isWord (hmore v hv) hd

end EntityQuery.Text
