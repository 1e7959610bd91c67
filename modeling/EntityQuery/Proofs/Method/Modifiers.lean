import EntityQuery.Proofs.Method.Consumption
import EntityQuery.Proofs.Number.WholeText

namespace EntityQuery

open Text

/-!
# Modifiers and their words

What stands between the subject and `By` is free text, but for `Top`, `First` and `Distinct`.  These
are looked for among the characters, not among the words: a capital letter always begins a word, so
they are found exactly where a word begins with them (`Descriptor.isDistinct_iff`,
`MethodQuery.limit_of_limitOf`).  The query is then told by the words of the modifiers
(`MethodQuery.modifiers_of_parse`).  Where a word goes on behind `Top`, `First` or `Distinct`, it is
taken for a modifier that was not meant (`MethodQuery.parse_topics`).
-/

namespace Descriptor

/-- The words of the modifiers. -/
def modifierWords (d : Descriptor) : List String := Text.words (String.ofList d.modifiers)

/-- What stands behind `Top` or `First` where a text begins with one of them. -/
def behindLimiting? (s : List Char) : Option (List Char) :=
  ("Top".toList.isPrefixOf? s).or ("First".toList.isPrefixOf? s)

/-- The number that digits denote; no digits at all mean one row. -/
def limitNumber (digits : List Char) : Nat := if digits = [] then 1 else digitsValue digits

/-- The limit of a word that is `Top` or `First`, with nothing but the digits of a number behind it. -/
def wholeLimit? (word : String) : Option Nat :=
  (behindLimiting? word.toList).bind fun digits =>
    if digits.all isAsciiDigit ∧ 1 ≤ limitNumber digits then some (limitNumber digits) else none

/-- The limit of a word that begins with `Top` or `First`, whatever it goes on with. -/
def leadingLimit? (word : String) : Option Nat :=
  (behindLimiting? word.toList).map fun rest => limitNumber (rest.takeWhile isAsciiDigit)

/-! ### Where words begin -/

section Beginnings

variable {word : List Char} {c : Char} {s : List Char}

/-- What begins with a capital letter does not begin at another character. -/
theorem not_prefix_of_isWord (hword : IsWord word) (hc : beginsWord c = false) :
    ¬word <+: c :: s := by
  cases word with
  | nil => cases hword
  | cons b word => exact not_prefix_of_not_beginsWord hword.1 hc

/-- A text begins with a word where its own first word does, which then goes on behind it. -/
theorem isPrefixOf?_takeWhile (hword : IsWord word) :
    word.isPrefixOf? (c :: s.takeWhile continuesWord) =
      (word.isPrefixOf? (c :: s)).map (List.takeWhile continuesWord) := by
  cases word with
  | nil => cases hword
  | cons b word =>
    -- A word in front of a text lies within the text's first word.
    cases hsplit : (b :: word).isPrefixOf? (c :: s) with
    | some rest =>
      have heq : b :: (word ++ rest) = c :: s := List.isPrefixOf?_eq_some_iff_append_eq.1 hsplit
      obtain ⟨rfl, rfl⟩ := List.cons.inj heq
      rw [List.takeWhile_append_of_pos hword.2]
      exact List.isPrefixOf?_eq_some_iff_append_eq.2 rfl
    | none =>
      apply isPrefixOf?_eq_none
      intro hprefix
      obtain ⟨rest, hrest⟩ := hprefix.trans (List.cons_prefix_cons.2 ⟨rfl, List.takeWhile_prefix _⟩)
      rw [List.isPrefixOf?_eq_some_iff_append_eq.2 hrest] at hsplit
      cases hsplit

/-- A character of no word begins none. -/
theorem not_beginsWord_of_not_inWord (h : inWord c = false) : beginsWord c = false := by
  rw [inWord, Bool.or_eq_false_iff] at h
  exact h.1

/-- Behind its first letter a word is passed over. -/
theorem not_beginsWord_of_mem_takeWhile {d : Char} (h : d ∈ s.takeWhile continuesWord) :
    beginsWord d = false :=
  not_beginsWord_of_continuesWord (List.mem_takeWhile_imp h)

end Beginnings

/-! ### Distinct -/

/-- A word is looked for behind characters that begin none. -/
theorem splitAtWord_append_of_forall {word a : List Char} (hword : IsWord word)
    (ha : ∀ c ∈ a, beginsWord c = false) (s : List Char) :
    (splitAtWord word (a ++ s)).2 = (splitAtWord word s).2 := by
  rw [splitAtWord_append]
  intro b hb hne
  obtain ⟨c, b, rfl⟩ := List.exists_cons_of_ne_nil hne
  exact not_prefix_of_isWord hword (ha c (hb.subset List.mem_cons_self))

/-- The rest of a word is passed over. -/
theorem splitAtWord_dropWhile {word : List Char} (hword : IsWord word) (s : List Char) :
    (splitAtWord word (s.dropWhile continuesWord)).2 = (splitAtWord word s).2 := by
  rw [← splitAtWord_append_of_forall hword fun _ => not_beginsWord_of_mem_takeWhile,
    List.takeWhile_append_dropWhile]

/-- **A word occurs in a text** exactly if one of the words there begins with it. -/
theorem splitAtWord_isSome_iff {word : List Char} (hword : IsWord word) (s : List Char) :
    (splitAtWord word s).2.isSome = true ↔ ∃ w ∈ camelWords s, (word.isPrefixOf? w).isSome = true := by
  induction s using words_induction with
  | hnil => simp [splitAtWord, camelWords]
  | hother c s hc ih =>
    have hpassed : (splitAtWord word ([c] ++ s)).2 = (splitAtWord word s).2 := by
      apply splitAtWord_append_of_forall hword
      simp [not_beginsWord_of_not_inWord hc]
    rw [List.singleton_append] at hpassed
    rw [hpassed, camelWords_cons_of_not_inWord hc, ih]
  | hword c s hc ih =>
    -- The word begins with the first letter, or behind the word that begins there.
    rw [camelWords_cons_eq hc, List.exists_mem_cons_iff, isPrefixOf?_takeWhile hword,
      Option.isSome_map, ← ih, splitAtWord_dropWhile hword, splitAtWord]
    cases word.isPrefixOf? (c :: s) <;> simp

/-- What is cut off the front of a text is a prefix of it. -/
theorem isPrefixOf?_isSome_iff {word s : List Char} :
    (word.isPrefixOf? s).isSome = true ↔ word <+: s := by
  simp only [Option.isSome_iff_exists, List.isPrefixOf?_eq_some_iff_append_eq]
  rfl

/-- **`Distinct` is found** exactly if a word of the modifiers begins with it. -/
theorem isDistinct_iff (d : Descriptor) :
    d.isDistinct = true ↔ ∃ w ∈ d.modifierWords, "Distinct".toList <+: w.toList := by
  rw [isDistinct, splitAtWord_isSome_iff (by decide), modifierWords, Text.words,
    String.toList_ofList]
  simp only [isPrefixOf?_isSome_iff, List.mem_map, exists_exists_and_eq_and, String.toList_ofList]

/-! ### Limits -/

/-- A limit begins where a word does, and the word goes on behind it. -/
theorem behindLimiting?_takeWhile (c : Char) (s : List Char) :
    behindLimiting? (c :: s.takeWhile continuesWord) =
      (behindLimiting? (c :: s)).map (List.takeWhile continuesWord) := by
  have htop : IsWord "Top".toList := by decide
  have hfirst : IsWord "First".toList := by decide
  rw [behindLimiting?, isPrefixOf?_takeWhile htop, isPrefixOf?_takeWhile hfirst, behindLimiting?,
    Option.map_or]

/-- The digits of a limit are looked for at each place in turn. -/
theorem limitDigits?_cons (c : Char) (s : List Char) :
    limitDigits? (c :: s) =
      match behindLimiting? (c :: s) with
      | some rest => some (rest.takeWhile isDecimalDigit)
      | none => limitDigits? s := rfl

/-- Characters that begin no word have no limiting word among them. -/
theorem limitDigits?_append {a : List Char} (ha : ∀ c ∈ a, beginsWord c = false) (s : List Char) :
    limitDigits? (a ++ s) = limitDigits? s := by
  induction a with
  | nil => rfl
  | cons c a ih =>
    obtain ⟨hc, ha⟩ := List.forall_mem_cons.1 ha
    have hnone : behindLimiting? (c :: (a ++ s)) = none := by
      rw [behindLimiting?, isPrefixOf?_eq_none (not_prefix_of_isWord (by decide) hc),
        isPrefixOf?_eq_none (not_prefix_of_isWord (by decide) hc)]
      rfl
    rw [List.cons_append, limitDigits?_cons, hnone]
    exact ih ha

/-- The rest of a word has no digits of a limit. -/
theorem limitDigits?_dropWhile (s : List Char) :
    limitDigits? (s.dropWhile continuesWord) = limitDigits? s := by
  rw [← limitDigits?_append fun _ => not_beginsWord_of_mem_takeWhile,
    List.takeWhile_append_dropWhile]

end Descriptor

/-! ### Numbers -/

namespace MethodQuery

open Descriptor

/-- The digits from 0 to 9 are decimal digits and go on with a word. -/
theorem isDecimalDigit_of_isAsciiDigit {c : Char} (h : isAsciiDigit c = true) :
    isDecimalDigit c = true ∧ continuesWord c = true := by
  have hcontinues : continuesWord c = true := by
    have hdigit : (decide ('0' ≤ c) && decide (c ≤ '9')) = true := h
    rw [continuesWord, hdigit, Bool.or_true]
  exact ⟨Whole.isDecimalDigit_of_isAsciiDigit h, hcontinues⟩

/-- The digits of a word are those of the text, if no digits of other scripts come first. -/
theorem takeWhile_isAsciiDigit {s : List Char}
    (h : ∀ c ∈ s.takeWhile isDecimalDigit, isAsciiDigit c = true) :
    (s.takeWhile continuesWord).takeWhile isAsciiDigit = s.takeWhile isDecimalDigit := by
  induction s with
  | nil => rfl
  | cons c s ih =>
    -- By assumption a decimal digit that is met is one from 0 to 9, so both runs end together.
    cases hc : isAsciiDigit c with
    | true =>
      obtain ⟨hdecimal, hcontinues⟩ := isDecimalDigit_of_isAsciiDigit hc
      rw [List.takeWhile_cons_of_pos hdecimal] at h ⊢
      rw [List.takeWhile_cons_of_pos hcontinues, List.takeWhile_cons_of_pos hc,
        ih (List.forall_mem_cons.1 h).2]
    | false =>
      have hdecimal : ¬isDecimalDigit c = true := by
        intro hdecimal
        rw [List.takeWhile_cons_of_pos hdecimal] at h
        rw [(List.forall_mem_cons.1 h).1] at hc
        cases hc
      rw [List.takeWhile_cons_of_neg hdecimal, List.takeWhile_cons]
      split
      · exact List.takeWhile_cons_of_neg (by simp [hc])
      · rfl

/-- The digits that are found denote the limit, which is not zero. -/
theorem limit_of_limitDigits? {s digits : List Char} {limit : Option Nat}
    (hdigits : limitDigits? s = some digits) (h : limitOf s = .ok limit) :
    (∀ c ∈ digits, isAsciiDigit c = true) ∧ limit = some (limitNumber digits) ∧
      limitNumber digits ≠ 0 := by
  unfold limitOf at h
  rw [hdigits] at h
  cases digits with
  | nil =>
    cases h
    exact ⟨nofun, rfl, by decide⟩
  | cons c digits =>
    cases hparse : Whole.parseUnsigned (c :: digits) with
    | error fault =>
      simp only [hparse] at h
      cases h
    | ok n =>
      obtain ⟨hascii, hvalue⟩ := Whole.digits_of_foldlM hparse
      have hnumber : limitNumber (c :: digits) = n := by
        rw [limitNumber, if_neg (List.cons_ne_nil _ _), hvalue, digitsValue]
      simp only [hparse] at h
      -- A limit of zero is refused.
      cases n with
      | zero => cases h
      | succ n =>
        cases h
        exact ⟨hascii, by rw [hnumber], by omega⟩

/-- The digits alone tell the limit. -/
theorem limitOf_eq {s s' : List Char} (h : limitDigits? s = limitDigits? s') :
    limitOf s = limitOf s' := by
  rw [limitOf, h, limitOf]

/-- **The first word that begins with `Top` or `First` sets the limit.** -/
theorem limit_of_limitOf {s : List Char} {limit : Option Nat} (h : limitOf s = .ok limit) :
    limit = (Text.words (String.ofList s)).findSome? leadingLimit? := by
  rw [Text.words, String.toList_ofList, List.findSome?_map]
  induction s using words_induction with
  | hnil =>
    cases h
    rfl
  -- Both the search by characters and the search by words pass over what is in no word.
  | hother c s hc ih =>
    have hpassed : limitDigits? ([c] ++ s) = limitDigits? s := by
      apply limitDigits?_append
      simp [not_beginsWord_of_not_inWord hc]
    rw [camelWords_cons_of_not_inWord hc]
    exact ih (limitOf_eq hpassed ▸ h)
  | hword c s hc ih =>
    have hword := behindLimiting?_takeWhile c s
    rw [camelWords_cons_eq hc, List.findSome?_cons]
    simp only [Function.comp, leadingLimit?, String.toList_ofList, hword]
    -- If the word limits, both searches end here; if not, neither has anything to find inside it.
    cases hbehind : behindLimiting? (c :: s) with
    | some rest =>
      have hdigits : limitDigits? (c :: s) = some (rest.takeWhile isDecimalDigit) := by
        rw [limitDigits?_cons, hbehind]
      obtain ⟨hascii, hlimit, _⟩ := limit_of_limitDigits? hdigits h
      rw [hlimit, ← takeWhile_isAsciiDigit hascii]
      rfl
    | none =>
      have hpassed : limitDigits? (c :: s) = limitDigits? (s.dropWhile continuesWord) := by
        rw [limitDigits?_cons, hbehind, limitDigits?_dropWhile]
      exact ih (limitOf_eq hpassed ▸ h)

/-- A limit that is read is never zero. -/
theorem limit_ne_zero {s : List Char} {limit : Option Nat} (h : limitOf s = .ok limit) :
    limit ≠ some 0 := by
  cases hdigits : limitDigits? s with
  | none =>
    rw [limitOf, hdigits] at h
    cases h
    exact nofun
  | some digits =>
    obtain ⟨_, hlimit, hne⟩ := limit_of_limitDigits? hdigits h
    rw [hlimit]
    exact fun hzero => hne (Option.some.inj hzero)

/-- Where `Top` and `First` are followed by nothing but digits, what begins with them is a limit as a
    whole. -/
theorem findSome?_wholeLimit? {words : List String}
    (hwhole : ∀ w ∈ words, ∀ rest ∈ behindLimiting? w.toList, rest.all isAsciiDigit = true)
    (hne : words.findSome? leadingLimit? ≠ some 0) :
    words.findSome? leadingLimit? = words.findSome? wholeLimit? := by
  induction words with
  | nil => rfl
  | cons w words ih =>
    obtain ⟨hw, hwords⟩ := List.forall_mem_cons.1 hwhole
    rw [List.findSome?_cons] at hne
    rw [List.findSome?_cons, List.findSome?_cons]
    -- The first word that limits does so with nothing but digits behind it, so both readings stop there.
    cases hbehind : behindLimiting? w.toList with
    | none =>
      have hleading : leadingLimit? w = none := by rw [leadingLimit?, hbehind, Option.map_none]
      have hnone : wholeLimit? w = none := by rw [wholeLimit?, hbehind, Option.bind_none]
      rw [hleading] at hne ⊢
      rw [hnone]
      exact ih hwords hne
    | some rest =>
      have hdigits := hw rest hbehind
      have hall : rest.takeWhile isAsciiDigit = rest :=
        List.takeWhile_eq_self_iff.2 (List.all_eq_true.1 hdigits)
      have hleading : leadingLimit? w = some (limitNumber rest) := by
        rw [leadingLimit?, hbehind, Option.map_some, hall]
      rw [hleading] at hne ⊢
      have hpos : 1 ≤ limitNumber rest := by
        by_contra hzero
        exact hne (by rw [Nat.lt_one_iff.1 (Nat.not_le.1 hzero)])
      have hsome : wholeLimit? w = some (limitNumber rest) := by
        rw [wholeLimit?, hbehind, Option.bind_some, if_pos ⟨hdigits, hpos⟩]
      rw [hsome]

/-- **What the modifiers of an accepted descriptor say.**  The first word that begins with `Top` or
    `First` sets the limit, to the number whose digits stand right behind it, and a word that begins
    with `Distinct` asks for different rows.  If these words go on with nothing else, it is the first
    one of them that is a limit as a whole, and `Distinct` itself.  Nothing else in the query depends on
    the modifiers. -/
theorem modifiers_of_parse {schema : Schema} {e : Entity} {text : String} {q : MethodQuery}
    (h : parse schema e text = .ok q) :
    ∃ d, Descriptor.parse? text = some d ∧
      q.limit = d.modifierWords.findSome? leadingLimit? ∧
      (q.distinct = true ↔ ∃ w ∈ d.modifierWords, "Distinct".toList <+: w.toList) ∧
      ((∀ w ∈ d.modifierWords, ∀ rest ∈ behindLimiting? w.toList, rest.all isAsciiDigit = true) →
        q.limit = d.modifierWords.findSome? wholeLimit?) ∧
      ((∀ w ∈ d.modifierWords, "Distinct".toList <+: w.toList → w = "Distinct") →
        (q.distinct = true ↔ "Distinct" ∈ d.modifierWords)) ∧
      ∀ text' modifiers q', Descriptor.parse? text' = some { d with modifiers := modifiers } →
        parse schema e text' = .ok q' → q' = { q with limit := q'.limit, distinct := q'.distinct } := by
  obtain ⟨d, hd, hread⟩ := exists_readFrom_of_parse h
  have hlimit : q.limit = d.modifierWords.findSome? leadingLimit? := limit_of_limitOf hread.limit
  have hdistinct : q.distinct = true ↔ ∃ w ∈ d.modifierWords, "Distinct".toList <+: w.toList := by
    rw [hread.distinct, isDistinct_iff]
  refine ⟨d, hd, hlimit, hdistinct, ?_, ?_, ?_⟩
  · intro hwhole
    rw [hlimit]
    exact findSome?_wholeLimit? hwhole (hlimit ▸ limit_ne_zero hread.limit)
  · intro hwhole
    rw [hdistinct]
    constructor
    · rintro ⟨w, hw, hprefix⟩
      exact hwhole w hw hprefix ▸ hw
    · intro hmem
      exact ⟨_, hmem, List.prefix_refl _⟩
  -- All else is read from the parts of the descriptor that both texts share.
  · intro text' modifiers q' hd' h'
    obtain ⟨d', hfound, hread'⟩ := exists_readFrom_of_parse h'
    cases hd'.symm.trans hfound
    have hpredicate : q'.predicate = q.predicate :=
      Except.ok.inj (hread'.predicate.symm.trans hread.predicate)
    have horder : q'.order = q.order := Except.ok.inj (hread'.order.symm.trans hread.order)
    have hslots : q'.slots = q.slots := by rw [hread'.slots, hread.slots, hpredicate]
    have hsubject : q'.subject = q.subject := hread'.subject.trans hread.subject.symm
    obtain ⟨_, _, _, _, _, _⟩ := q'
    cases hsubject
    cases hpredicate
    cases hslots
    cases horder
    rfl

/-- The query of a descriptor that asks for members by their age. -/
theorem parse_byAge {text : String} {subject : Subject} {modifiers : List Char} {limit : Option Nat}
    (hd : Descriptor.parse? text = some ⟨subject, modifiers, "Age".toList, none⟩)
    (hlimit : limitOf modifiers = .ok limit) :
    parse Sample.league Sample.member text =
      .ok ⟨subject, limit, (Descriptor.mk subject modifiers "Age".toList none).isDistinct,
        some (comparison ⟨["age"]⟩ .equals 0), [⟨0, none⟩], []⟩ := by
  have hfound : Sample.league.matchProperty Sample.member ["Age"] = some (⟨["age"]⟩, 1) := by decide
  have hpredicate : predicateOf Sample.league Sample.member
      (Text.words (String.ofList "Age".toList)) = .ok (some (comparison ⟨["age"]⟩ .equals 0)) := by
    rw [show Text.words (String.ofList "Age".toList) = ["Age"] by decide, predicateOf_property hfound]
    rfl
  rw [parse, hd]
  dsimp only
  rw [hlimit, hpredicate]
  rfl

/-- `Top2` and `Distinct` are modifiers, and `Members` is not. -/
theorem modifiers_of_parse_top2 :
    ∃ q, parse Sample.league Sample.member "findTop2DistinctMembersByAge" = .ok q ∧
      q.limit = some 2 ∧ q.distinct = true := by
  have hd : Descriptor.parse? "findTop2DistinctMembersByAge" =
      some ⟨.find, "Top2DistinctMembers".toList, "Age".toList, none⟩ := by decide
  have hparse := parse_byAge hd rfl
  obtain ⟨d, hd', _, _, hlimit, hdistinct, _⟩ := modifiers_of_parse hparse
  cases hd.symm.trans hd'
  have hwords : (Descriptor.mk .find "Top2DistinctMembers".toList "Age".toList none).modifierWords =
      ["Top2", "Distinct", "Members"] := by decide
  rw [hwords] at hlimit hdistinct
  exact ⟨_, hparse, (hlimit (by decide)).trans (by decide),
    (hdistinct (by decide)).2 (by decide)⟩

/-- **Words that go on are taken for modifiers.**  `Topics` limits the answer to one row, and
    `Distinctive` asks for different rows. -/
theorem parse_topics :
    (∃ q, parse Sample.league Sample.member "findTopicsByAge" = .ok q ∧ q.limit = some 1 ∧
      Text.words "Topics" = ["Topics"] ∧ ["Topics"].findSome? wholeLimit? = none) ∧
    ∃ q, parse Sample.league Sample.member "findDistinctiveByAge" = .ok q ∧ q.distinct = true ∧
      Text.words "Distinctive" = ["Distinctive"] := by
  have htopics : Descriptor.parse? "findTopicsByAge" =
      some ⟨.find, "Topics".toList, "Age".toList, none⟩ := by decide
  have hdistinctive : Descriptor.parse? "findDistinctiveByAge" =
      some ⟨.find, "Distinctive".toList, "Age".toList, none⟩ := by decide
  exact ⟨⟨_, parse_byAge htopics rfl, rfl, by decide, by decide⟩,
    ⟨_, parse_byAge hdistinctive rfl, by decide, by decide⟩⟩

end MethodQuery

end EntityQuery
