import EntityQuery.Proofs.Text.Words

namespace EntityQuery.Text

/-!
# Names, their words and their columns

A text of letters and digits is made up of its words (`join_words`).  A camel-case name is a word in lower
case and capitalised words behind it (`IsCamelName`): it is joined from the words of its capitalised form,
and capitalised names that stand side by side have the words of all of them (`words_capitalised`).

The column of a name tells where its capital letters are, as long as the name has no underscore of its own,
so that the name can be read back from it (`fromSnake_snakeCase`).
-/

open Reader (Stops stops_nil)

/-! ### Texts of letters and digits -/

/-- The characters of words are the letters and digits of ASCII. -/
theorem inWord_eq_isAlphanum (c : Char) : inWord c = c.isAlphanum := by
  have hupper : beginsWord c = c.isUpper := (Bool.decide_and ('A' ≤ c) (c ≤ 'Z')).symm
  have hlower : continuesWord c = (c.isLower || c.isDigit) := rfl
  rw [inWord, hupper, hlower, ← Bool.or_assoc]
  rfl

/-- **A text of letters and digits is made up of its words.** -/
theorem join_words {text : String} (h : ∀ c ∈ text.toList, c.isAlphanum = true) :
    String.join (words text) = text := by
  have hwords := flatMap_words text.toList
  have hall : text.toList.filter inWord = text.toList :=
    List.filter_eq_self.2 fun c hc => (inWord_eq_isAlphanum c).trans (h c hc)
  rw [String.ofList_toList, hall] at hwords
  rw [← String.toList_inj, String.toList_join, hwords]

/-! ### Camel-case names -/

/-- A lower-case letter with lower-case letters and digits after it, and then any number of capitalised
    words. -/
def IsCamelName (name : String) : Prop :=
  ∃ c run words, name.toList = c :: (run ++ List.flatten words) ∧ c.isLower = true ∧
    (∀ d ∈ run, continuesWord d = true) ∧ ∀ w ∈ words, IsWord w

/-- Nothing but letters and digits behind a lower-case letter makes up a camel-case name. -/
theorem isCamelName_iff {name : String} : IsCamelName name ↔ isLowerCamel name = true := by
  constructor
  · rintro ⟨c, run, words, hname, hc, hrun, hwords⟩
    unfold isLowerCamel
    rw [hname]
    simp only [hc, Bool.true_and, List.all_eq_true]
    intro d hd
    rcases List.mem_append.1 hd with hd | hd
    · rw [inWord, hrun d hd, Bool.or_true]
    · obtain ⟨w, hw, hd⟩ := List.mem_flatten.1 hd
      exact inWord_of_isWord (hwords w hw) hd
  · intro h
    obtain ⟨c, rest, hname, _, hc, hrest⟩ := capitalised_of_isLowerCamel h
    have hin : inWord c = true := by rw [inWord, hc, Bool.true_or]
    -- The name's words are those of the capitalised name, less the capital of the first.
    refine ⟨c.toLower, rest.takeWhile continuesWord, camelWords (rest.dropWhile continuesWord), ?_,
      isLower_toLower hc, fun d hd => List.mem_takeWhile_imp hd, fun w hw => ?_⟩
    · have hbehind : ∀ d ∈ rest.dropWhile continuesWord, inWord d = true := fun d hd =>
        hrest d ((List.dropWhile_suffix continuesWord).subset hd)
      rw [flatten_camelWords, List.filter_eq_self.2 hbehind, List.takeWhile_append_dropWhile, hname]
    · refine isWord_of_mem_camelWords hc hrest ?_
      rw [camelWords_cons_eq hin]
      exact List.mem_cons_of_mem _ hw

/-- Names with a capital in front begin no word in the middle, so a word before them ends there. -/
theorem stops_capitalised {names : List String} (h : ∀ name ∈ names, isLowerCamel name = true) :
    Stops continuesWord (names.flatMap capitalised) := by
  cases names with
  | nil => exact stops_nil
  | cons name names =>
    obtain ⟨c, rest, _, hcapitalised, hc, _⟩ := capitalised_of_isLowerCamel (h name List.mem_cons_self)
    rw [List.flatMap_cons, hcapitalised]
    exact stops_of_beginsWord hc

/-- **Capitalised names side by side have the words of all of them.** -/
theorem words_capitalised {names : List String} (h : ∀ name ∈ names, isLowerCamel name = true) :
    words (String.ofList (names.flatMap capitalised)) = names.flatMap nameWords := by
  induction names with
  | nil => rfl
  | cons name names ih =>
    obtain ⟨_, hnames⟩ := List.forall_mem_cons.1 h
    rw [List.flatMap_cons, List.flatMap_cons, ← ih hnames, nameWords_eq, words, words,
      String.toList_ofList, String.toList_ofList, camelWords_append (stops_capitalised hnames),
      List.map_append]

/-! ### Columns -/

/-- Among the characters of ASCII, the upper-case ones are the letters. -/
theorem isUppercase_of_ascii {c : Char} (h : c.toNat < 128) : isUppercase c = beginsWord c := by
  have hall : ∀ i : Fin 128, isUppercase (Char.ofNat i.val) = beginsWord (Char.ofNat i.val) := by
    decide +kernel
  have hc := hall ⟨c.toNat, h⟩
  rwa [Char.ofNat_toNat] at hc

/-- A small letter is no capital. -/
theorem isUppercase_of_isLower {c : Char} (h : c.isLower = true) : isUppercase c = false := by
  obtain ⟨i, rfl⟩ := exists_of_isLower h
  revert i
  decide +kernel

/-- A column as the name that it was made from: an underscore stands for the upper case of the letter behind
    it. -/
def fromSnake : List Char → List Char
  | [] => []
  | '_' :: c :: rest => c.toUpper :: fromSnake rest
  | c :: rest => c :: fromSnake rest

/-- Behind an underscore the letter becomes a capital again. -/
theorem fromSnake_underscore (c : Char) (rest : List Char) :
    fromSnake ('_' :: c :: rest) = c.toUpper :: fromSnake rest := rfl

/-- Every other character stays as it is. -/
theorem fromSnake_cons {c : Char} (h : c ≠ '_') (rest : List Char) :
    fromSnake (c :: rest) = c :: fromSnake rest := by
  rw [fromSnake.eq_def]
  split
  · rename_i heq
    cases heq
  · rename_i heq
    exact absurd (List.cons.inj heq).1 h
  · rename_i heq
    cases heq
    rfl

/-- What became of the characters of a name is undone one by one. -/
theorem fromSnake_snakeChars {s : List Char} (hascii : ∀ c ∈ s, c.toNat < 128) (hplain : '_' ∉ s) :
    fromSnake (snakeChars s) = s := by
  induction s with
  | nil => rfl
  | cons c s ih =>
    obtain ⟨hc, hs⟩ := List.forall_mem_cons.1 hascii
    obtain ⟨hne, hrest⟩ := not_or.1 (List.mem_cons.not.1 hplain)
    rw [snakeChars, List.flatMap_cons, isUppercase_of_ascii hc]
    cases hbegins : beginsWord c with
    -- Only a capital is written with an underscore, and reading takes both back at once.
    | true =>
      obtain ⟨hlower, hback⟩ := lowercase_of_beginsWord hbegins
      rw [if_pos rfl, hlower]
      show fromSnake ('_' :: c.toLower :: snakeChars s) = c :: s
      rw [fromSnake_underscore, hback, ih hs hrest]
    | false =>
      rw [if_neg Bool.false_ne_true]
      show fromSnake (c :: snakeChars s) = c :: s
      rw [fromSnake_cons (Ne.symm hne), ih hs hrest]

/-- An ASCII name without underscores that begins in lower case. -/
structure IsAsciiName (name : String) : Prop where
  ascii : ∀ c ∈ name.toList, c.toNat < 128
  plain : '_' ∉ name.toList
  lower : name.toList.head?.any Char.isLower = true

/-- **A name is read back from its column.** -/
theorem fromSnake_snakeCase {name : String} (h : IsAsciiName name) :
    fromSnake (snakeCase name).toList = name.toList := by
  obtain ⟨hascii, hplain, hlower⟩ := h
  rw [snakeCase]
  cases hname : name.toList with
  | nil => rfl
  | cons c rest =>
    rw [hname] at hascii hplain hlower
    have hkept : isUppercase c = false := isUppercase_of_isLower hlower
    -- The first character is treated like the others, since it is no upper-case letter.
    have hall : snakeChars (c :: rest) = [c] ++ snakeChars rest := by
      rw [snakeChars, List.flatMap_cons, hkept]
      rfl
    dsimp only
    rw [String.toList_ofList, hkept, if_neg Bool.false_ne_true, ← hall, fromSnake_snakeChars hascii hplain]

/-- **Splitting and joining are inverse.**  A text of letters and digits is made up of its words.  A
    camel-case name is joined from the words of its capitalised form, and capitalised names side by side have
    the words of all of them, one name after the other.  Different ASCII names without underscores that begin
    in lower case have different columns. -/
theorem splitting_inverts_joining :
    (∀ text : String, (∀ c ∈ text.toList, c.isAlphanum = true) → String.join (words text) = text) ∧
    (∀ name, IsCamelName name → lowerCamel (words (String.ofList (capitalised name))) = name) ∧
    (∀ names : List String, (∀ name ∈ names, IsCamelName name) →
      words (String.ofList (names.flatMap capitalised)) =
        names.flatMap fun name => words (String.ofList (capitalised name))) ∧
    ∀ name other, IsAsciiName name → IsAsciiName other → name ≠ other →
      snakeCase name ≠ snakeCase other := by
  refine ⟨fun text h => join_words h, fun name h => lowerCamel_nameWords (isCamelName_iff.1 h),
    fun names h => words_capitalised fun name hname => isCamelName_iff.1 (h name hname), ?_⟩
  -- Reading a column's name back is a function of the column, so two names that share one are equal.
  intro name other hname hother hne hsame
  have hback := fromSnake_snakeCase hname
  rw [hsame, fromSnake_snakeCase hother] at hback
  exact hne (String.toList_inj.1 hback.symm)

/-- Capital letters in a row are words of one letter, and a digit goes on with the word before it. -/
theorem splitting_inverts_joining_teamID2 :
    (∀ c ∈ "HTTPServer2x".toList, c.isAlphanum = true) ∧
    String.join (words "HTTPServer2x") = "HTTPServer2x" ∧
    IsCamelName "teamID2" ∧ lowerCamel (words (String.ofList (capitalised "teamID2"))) = "teamID2" ∧
    words (String.ofList (["teamID2", "age"].flatMap capitalised)) =
      ["teamID2", "age"].flatMap (fun name => words (String.ofList (capitalised name))) ∧
    IsAsciiName "teamID2" ∧ IsAsciiName "teamId2" ∧ snakeCase "teamID2" ≠ snakeCase "teamId2" := by
  obtain ⟨hjoin, hlower, hbeside, hcolumns⟩ := splitting_inverts_joining
  have htext : ∀ c ∈ "HTTPServer2x".toList, c.isAlphanum = true := List.all_eq_true.1 (by decide)
  have hname : IsCamelName "teamID2" := isCamelName_iff.2 (by decide)
  have hage : IsCamelName "age" := isCamelName_iff.2 (by decide)
  have hcapitals : IsAsciiName "teamID2" := ⟨by simp, by decide, by decide⟩
  have hcapital : IsAsciiName "teamId2" := ⟨by simp, by decide, by decide⟩
  exact ⟨htext, hjoin _ htext, hname, hlower _ hname,
    hbeside _ (List.forall_mem_cons.2 ⟨hname, List.forall_mem_singleton.2 hage⟩), hcapitals, hcapital,
    hcolumns _ _ hcapitals hcapital (by decide)⟩

end EntityQuery.Text
