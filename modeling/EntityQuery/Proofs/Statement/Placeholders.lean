import EntityQuery.Proofs.Number.WholeText
import EntityQuery.Proofs.Statement.Holes
import Mathlib.Data.List.TakeWhile

namespace EntityQuery

/-!
# Placeholders of a text

A text for the store consists of closed literals, placeholders and other characters.
`Native.Scanned` says which: a literal is taken as far as it can be, and a placeholder with all digits
behind it.  There is one such division of every text, and it is the one that is found
(`Native.scanned_iff`).

The statement of a text is laid out after it (`Native.fragments_statement`): text stays text, and each
placeholder becomes one slot.  Written out with the numbers of its slots, the statement has the same
literals and placeholders as before, since none of the digits that changed is a quote and no digit stands
behind them.  So it is read as the same statement again (`Native.statement_text`).
-/

namespace Native

open Text

/-! ### Quoted literals -/

/-- The inside of a literal, in which every quote is doubled. -/
inductive IsBody : List Char → Prop where
  | nil : IsBody []
  | char {c : Char} {s : List Char} (plain : c ≠ '\'') (more : IsBody s) : IsBody (c :: s)
  | quote {s : List Char} (more : IsBody s) : IsBody ('\'' :: '\'' :: s)

/-- A closed literal. -/
def IsLiteral (s : List Char) : Prop := ∃ body, IsBody body ∧ s = '\'' :: (body ++ ['\''])

/-- No literal that ends before these characters goes on in them: a quote would have to be doubled, and
    then the literal be closed behind it. -/
def Ends (rest : List Char) : Prop := ∀ more, rest = '\'' :: more → '\'' ∉ more

variable {s s' body rest rest' digits : List Char} {c : Char} {ts ts' : List Token}

/-- A character that is no quote goes on with the literal. -/
theorem afterLiteral_char (hc : c ≠ '\'') (s : List Char) : afterLiteral (c :: s) = afterLiteral s := by
  rw [afterLiteral]
  · exact fun _ h _ => hc h
  · exact hc

/-- A text goes on behind a literal exactly if there is a quote left. -/
theorem afterLiteral_eq_none_iff : afterLiteral s = none ↔ '\'' ∉ s := by
  fun_induction afterLiteral s with
  | case1 => simp
  | case2 s _ => cases afterLiteral s <;> simp
  | case3 s _ => simp
  | case4 c s _ hc ih =>
    rw [ih, List.mem_cons, not_or]
    exact ⟨fun h => ⟨fun heq => hc heq.symm, h⟩, And.right⟩

/-- What is left is left behind a literal that ends there. -/
theorem body_of_afterLiteral (h : afterLiteral s = some rest) :
    ∃ body, IsBody body ∧ s = body ++ '\'' :: rest ∧ Ends rest := by
  fun_induction afterLiteral s generalizing rest with
  | case1 => cases h
  | case2 s ih =>
    -- Two quotes in a row: if the rest closes again, they are one of the body; if not, the first one
    -- closes.
    cases hs : afterLiteral s with
    | none =>
      rw [hs] at h
      cases h
      refine ⟨[], .nil, rfl, fun more hmore => ?_⟩
      cases hmore
      exact afterLiteral_eq_none_iff.1 hs
    | some found =>
      rw [hs] at h
      cases h
      obtain ⟨body, hbody, rfl, hends⟩ := ih hs
      exact ⟨_, .quote hbody, rfl, hends⟩
  | case3 s hs =>
    cases h
    exact ⟨[], .nil, rfl, fun more hmore => absurd hmore (hs more)⟩
  | case4 c s _ hc ih =>
    obtain ⟨body, hbody, rfl, hends⟩ := ih h
    exact ⟨_, .char hc hbody, rfl, hends⟩

/-- No more is left than behind any closed literal. -/
theorem exists_afterLiteral (hbody : IsBody body) (rest : List Char) :
    ∃ found, afterLiteral (body ++ '\'' :: rest) = some found ∧ found.length ≤ rest.length := by
  induction hbody with
  | nil =>
    rw [List.nil_append]
    -- A closing quote with another behind it is read as a pair first, and given up if the rest does not
    -- close.
    by_cases hquote : ∃ more, rest = '\'' :: more
    · obtain ⟨more, rfl⟩ := hquote
      rw [afterLiteral]
      cases hmore : afterLiteral more with
      | none => exact ⟨_, rfl, Nat.le_refl _⟩
      | some found =>
        have hlength := length_afterLiteral hmore
        exact ⟨found, rfl, by rw [List.length_cons]; omega⟩
    · refine ⟨rest, ?_, Nat.le_refl _⟩
      rw [afterLiteral]
      exact fun more h => hquote ⟨more, h⟩
  | char hc _ ih =>
    rw [List.cons_append, afterLiteral_char hc]
    exact ih
  | quote _ ih =>
    obtain ⟨found, hfound, hlength⟩ := ih
    rw [List.cons_append, List.cons_append, afterLiteral, hfound]
    exact ⟨found, rfl, hlength⟩

/-- A literal that ends is left behind. -/
theorem afterLiteral_of_ends (hbody : IsBody body) (hends : Ends rest) :
    afterLiteral (body ++ '\'' :: rest) = some rest := by
  induction hbody with
  | nil =>
    rw [List.nil_append]
    -- A literal that ends here does not close again further on.
    by_cases hquote : ∃ more, rest = '\'' :: more
    · obtain ⟨more, rfl⟩ := hquote
      rw [afterLiteral, afterLiteral_eq_none_iff.2 (hends more rfl)]
      rfl
    · rw [afterLiteral]
      exact fun more h => hquote ⟨more, h⟩
  | char hc _ ih =>
    rw [List.cons_append, afterLiteral_char hc]
    exact ih
  | quote _ ih =>
    rw [List.cons_append, List.cons_append, afterLiteral, ih]
    rfl

/-- No literal at the beginning of a text is longer than this one. -/
def Longest (l rest : List Char) : Prop :=
  ∀ l' rest', IsLiteral l' → l' ++ rest' = l ++ rest → l'.length ≤ l.length

/-- **A literal is the longest** exactly if it ends. -/
theorem longest_iff_ends (hbody : IsBody body) :
    Longest ('\'' :: (body ++ ['\''])) rest ↔ Ends rest := by
  constructor
  · intro hlongest
    obtain ⟨found, hfound, hle⟩ := exists_afterLiteral hbody rest
    obtain ⟨body', hbody', hsplit, hends⟩ := body_of_afterLiteral hfound
    have hlength := hlongest ('\'' :: (body' ++ ['\''])) found ⟨body', hbody', rfl⟩ (by simp [hsplit])
    have htotal := congrArg List.length hsplit
    simp only [List.length_append, List.length_cons, List.length_nil] at hlength htotal
    -- The two literals are of one length, and so what is left behind them is the same.
    have hbodies : body.length = body'.length := by omega
    obtain ⟨_, htail⟩ := List.append_inj hsplit hbodies
    exact (List.cons.inj htail).2 ▸ hends
  · rintro hends l' rest' ⟨body', hbody', rfl⟩ hsplit
    obtain ⟨found, hfound, hle⟩ := exists_afterLiteral hbody' rest'
    have hsame : body' ++ '\'' :: rest' = body ++ '\'' :: rest := by simpa using hsplit
    rw [hsame, afterLiteral_of_ends hbody hends] at hfound
    cases hfound
    have htotal := congrArg List.length hsplit
    simp only [List.length_append, List.length_cons, List.length_nil] at htotal ⊢
    omega

/-- No literal stands at the beginning of a text. -/
def Unquoted (s : List Char) : Prop := ∀ l rest, IsLiteral l → l ++ rest ≠ s

/-- A quote opens no literal exactly if it is the last one. -/
theorem unquoted_iff : Unquoted (c :: s) ↔ (c = '\'' → '\'' ∉ s) := by
  constructor
  · rintro hnone rfl hmem
    cases hs : afterLiteral s with
    | none => exact afterLiteral_eq_none_iff.1 hs hmem
    | some rest =>
      obtain ⟨body, hbody, rfl, _⟩ := body_of_afterLiteral hs
      exact hnone _ rest ⟨body, hbody, rfl⟩ (by simp)
  · rintro hlast l rest ⟨body, hbody, rfl⟩ hsplit
    obtain ⟨rfl, rfl⟩ := List.cons.inj hsplit
    exact hlast rfl (by simp)

/-! ### Divided texts -/

/-- **How a text is divided**: into closed literals, as long as they can be, placeholders with all digits
    behind them, and single characters where neither begins. -/
inductive Scanned : List Char → List Token → Prop where
  | nil : Scanned [] []
  | literal {l rest : List Char} {ts : List Token} (closed : IsLiteral l) (longest : Longest l rest)
    (more : Scanned rest ts) : Scanned (l ++ rest) (.text l :: ts)
  | placeholder {digits rest : List Char} {ts : List Token}
    (decimal : ∀ c ∈ digits, isDecimalDigit c = true)
    (all : ∀ c ∈ rest.head?, isDecimalDigit c = false) (more : Scanned rest ts) :
    Scanned ('?' :: (digits ++ rest)) (.placeholder digits :: ts)
  | char {c : Char} {rest : List Char} {ts : List Token} (plain : c ≠ '?') (unquoted : Unquoted (c :: rest))
    (more : Scanned rest ts) : Scanned (c :: rest) (.text [c] :: ts)

/-- A question mark takes all the digits behind it. -/
theorem tokens_placeholder (decimal : ∀ c ∈ digits, isDecimalDigit c = true)
    (all : ∀ c ∈ rest.head?, isDecimalDigit c = false) :
    tokens ('?' :: (digits ++ rest)) = .placeholder digits :: tokens rest := by
  have hend : rest.takeWhile isDecimalDigit = [] ∧ rest.dropWhile isDecimalDigit = rest := by
    cases rest with
    | nil => exact ⟨rfl, rfl⟩
    | cons c rest =>
      have hc : ¬isDecimalDigit c = true := by rw [all c rfl]; exact Bool.false_ne_true
      exact ⟨List.takeWhile_cons_of_neg hc, List.dropWhile_cons_of_neg hc⟩
  rw [tokens, if_pos rfl, List.takeWhile_append_of_pos decimal, List.dropWhile_append_of_pos decimal,
    hend.1, hend.2, List.append_nil]

/-- The text of a literal is what is not left behind it. -/
theorem take_literal (body rest : List Char) :
    (body ++ '\'' :: rest).take ((body ++ '\'' :: rest).length - rest.length) = body ++ ['\''] := by
  have hsplit : body ++ '\'' :: rest = (body ++ ['\'']) ++ rest := by
    rw [List.append_assoc, List.singleton_append]
  rw [hsplit, List.length_append, Nat.add_sub_cancel, List.take_left]

/-- A literal is one token, as far as it reaches. -/
theorem tokens_literal (hbody : IsBody body) (hends : Ends rest) :
    tokens ('\'' :: (body ++ '\'' :: rest)) = .text ('\'' :: (body ++ ['\''])) :: tokens rest := by
  have hafter := afterLiteral_of_ends hbody hends
  rw [tokens, if_neg (by decide), if_pos rfl]
  split
  · rename_i after hfound
    cases hafter.symm.trans hfound
    rw [take_literal]
  · rename_i hnone
    cases hafter.symm.trans hnone

/-- Any other character is a token by itself. -/
theorem tokens_char (hplain : c ≠ '?') (hquote : c = '\'' → '\'' ∉ rest) :
    tokens (c :: rest) = .text [c] :: tokens rest := by
  rw [tokens, if_neg hplain]
  split
  · rename_i hc
    have hnone := afterLiteral_eq_none_iff.2 (hquote hc)
    split
    · rename_i hfound
      cases hnone.symm.trans hfound
    · rfl
  · rfl

/-- The tokens of a text are a scan of it. -/
theorem scanned_tokens (s : List Char) : Scanned s (tokens s) := by
  fun_induction tokens s with
  | case1 => exact .nil
  | case2 rest ih =>
    have hall : ∀ c ∈ (rest.dropWhile isDecimalDigit).head?, isDecimalDigit c = false := fun c hc => by
      have hnot := List.head?_dropWhile_not isDecimalDigit rest
      rw [Option.mem_def.1 hc] at hnot
      exact hnot
    have hdecimal : ∀ c ∈ rest.takeWhile isDecimalDigit, isDecimalDigit c = true :=
      fun c hc => List.mem_takeWhile_imp hc
    have hscanned := Scanned.placeholder hdecimal hall ih
    rwa [List.takeWhile_append_dropWhile] at hscanned
  | case3 rest after hafter _ ih =>
    obtain ⟨body, hbody, rfl, hends⟩ := body_of_afterLiteral hafter
    rw [take_literal]
    have hscanned := Scanned.literal ⟨body, hbody, rfl⟩ ((longest_iff_ends hbody).2 hends) ih
    rwa [List.cons_append, List.append_assoc, List.singleton_append] at hscanned
  -- A quote that never closes is an ordinary character.
  | case4 rest hnone hplain ih =>
    exact .char hplain (unquoted_iff.2 fun _ => afterLiteral_eq_none_iff.1 hnone) ih
  | case5 c rest hplain hquote ih => exact .char hplain (unquoted_iff.2 fun hc => absurd hc hquote) ih

/-- **A text is divided in one way**, which is the one that is found. -/
theorem scanned_iff : Scanned s ts ↔ ts = tokens s := by
  constructor
  · intro h
    induction h with
    | nil => rw [tokens]
    -- The longest literal is the one the reader takes.
    | @literal _ rest _ hclosed hlongest _ ih =>
      obtain ⟨body, hbody, rfl⟩ := hclosed
      have hsame : '\'' :: (body ++ ['\'']) ++ rest = '\'' :: (body ++ '\'' :: rest) := by simp
      rw [hsame, tokens_literal hbody ((longest_iff_ends hbody).1 hlongest), ih]
    | placeholder hdecimal hall _ ih => rw [tokens_placeholder hdecimal hall, ih]
    | char hplain hunquoted _ ih => rw [tokens_char hplain (unquoted_iff.1 hunquoted), ih]
  · rintro rfl
    exact scanned_tokens s

/-- The text of tokens. -/
def charsOf (ts : List Token) : List Char := ts.flatMap Token.chars

/-- A scan loses no character. -/
theorem Scanned.charsOf_eq (h : Scanned s ts) : charsOf ts = s := by
  induction h with
  | nil => rfl
  | literal _ _ _ ih | placeholder _ _ _ ih | char _ _ _ ih =>
    rw [charsOf, List.flatMap_cons, ← charsOf, ih]
    rfl

/-- What stands outside placeholders is a closed literal or a single other character. -/
theorem Scanned.text (h : Scanned s ts) {chars : List Char} (hmem : .text chars ∈ ts) :
    IsLiteral chars ∨ ∃ c, c ≠ '?' ∧ chars = [c] := by
  induction h with
  | nil => cases hmem
  | literal hclosed _ _ ih =>
    -- The token is the literal just read, or one of the rest.
    rcases List.mem_cons.1 hmem with heq | hmem
    · cases heq
      exact .inl hclosed
    · exact ih hmem
  | placeholder _ _ _ ih =>
    rcases List.mem_cons.1 hmem with heq | hmem
    · cases heq
    · exact ih hmem
  | char hplain _ _ ih =>
    rcases List.mem_cons.1 hmem with heq | hmem
    · cases heq
      exact .inr ⟨_, hplain, rfl⟩
    · exact ih hmem

/-! ### Other digits -/

/-- The same token, but for the digits of a placeholder. -/
inductive Token.Alike : Token → Token → Prop where
  | text (chars : List Char) : Alike (.text chars) (.text chars)
  | placeholder (digits : List Char) {other : List Char} (decimal : ∀ c ∈ other, isDecimalDigit c = true) :
    Alike (.placeholder digits) (.placeholder other)

/-- Digits are no quotes. -/
theorem count_quote (decimal : ∀ c ∈ digits, isDecimalDigit c = true) : digits.count '\'' = 0 := by
  refine List.count_eq_zero.2 fun hmem => ?_
  have hdigit := decimal _ hmem
  revert hdigit
  decide

/-- What ends a literal still does if no quote is added. -/
theorem Ends.of_count (h : Ends rest) (hhead : rest'.head? = rest.head?)
    (hcount : rest'.count '\'' = rest.count '\'') : Ends rest' := by
  rintro more rfl
  obtain ⟨more', rfl⟩ : ∃ more', rest = '\'' :: more' := by
    cases rest with
    | nil => cases hhead
    | cons c more' => cases hhead; exact ⟨more', rfl⟩
  rw [List.count_cons_self, List.count_cons_self, Nat.add_right_cancel_iff] at hcount
  rw [← List.count_eq_zero, hcount, List.count_eq_zero]
  exact h more' rfl

/-- **Other digits divide a text no differently.** -/
theorem Scanned.of_alike (h : Scanned s ts) (halike : List.Forall₂ Token.Alike ts ts') :
    Scanned (charsOf ts') ts' ∧ (charsOf ts').head? = s.head? ∧
      (charsOf ts').count '\'' = s.count '\'' := by
  induction h generalizing ts' with
  | nil =>
    cases halike
    exact ⟨.nil, rfl, rfl⟩
  | @literal l rest ts hclosed hlongest _ ih =>
    obtain ⟨_, ts', ⟨⟩, hmore, rfl⟩ := List.forall₂_cons_left_iff.1 halike
    obtain ⟨hscanned, hhead, hcount⟩ := ih hmore
    obtain ⟨body, hbody, rfl⟩ := id hclosed
    -- Where a literal ends depends on the quotes behind it, and renumbering placeholders changes none.
    have hends := ((longest_iff_ends hbody).1 hlongest).of_count hhead hcount
    have hchars : charsOf (.text ('\'' :: (body ++ ['\''])) :: ts') =
        '\'' :: (body ++ ['\'']) ++ charsOf ts' := rfl
    rw [hchars, List.count_append, List.count_append, hcount]
    exact ⟨.literal hclosed ((longest_iff_ends hbody).2 hends) hscanned, rfl, rfl⟩
  | @placeholder digits rest ts hdecimal hall _ ih =>
    obtain ⟨_, ts', hfirst, hmore, rfl⟩ := List.forall₂_cons_left_iff.1 halike
    obtain ⟨hscanned, hhead, hcount⟩ := ih hmore
    cases hfirst with
    | @placeholder _ other hother =>
      have hchars : charsOf (.placeholder other :: ts') = '?' :: (other ++ charsOf ts') := rfl
      rw [hchars]
      refine ⟨.placeholder hother (hhead ▸ hall) hscanned, rfl, ?_⟩
      rw [List.count_cons_of_ne (by decide), List.count_cons_of_ne (by decide), List.count_append,
        List.count_append, count_quote hother, count_quote hdecimal, hcount]
  | @char c rest ts hplain hunquoted _ ih =>
    obtain ⟨_, ts', ⟨⟩, hmore, rfl⟩ := List.forall₂_cons_left_iff.1 halike
    obtain ⟨hscanned, hhead, hcount⟩ := ih hmore
    have hchars : charsOf (.text [c] :: ts') = c :: charsOf ts' := rfl
    rw [hchars, List.count_cons, List.count_cons, hcount]
    refine ⟨.char hplain (unquoted_iff.2 fun hc => ?_) hscanned, rfl, rfl⟩
    rw [← List.count_eq_zero, hcount, List.count_eq_zero]
    exact unquoted_iff.1 hunquoted hc

/-! ### Statements of texts -/

/-- The index of a placeholder, where `next` ones without a usable number came before. -/
def indexOf (next : Nat) (digits : List Char) : Nat := (numberedIndex? digits).getD next

/-- The placeholders without a usable number behind one more. -/
def countOn (next : Nat) (digits : List Char) : Nat :=
  if (numberedIndex? digits).isSome then next else next + 1

/-- The fragments of tokens behind some text: one slot for each placeholder, and text around it. -/
def layout (next : Nat) (text : List Char) : List Token → List Fragment
  | [] => [.sql (String.ofList text)]
  | .text chars :: ts => layout next (text ++ chars) ts
  | .placeholder digits :: ts =>
    .sql (String.ofList text) :: .slot ⟨indexOf next digits, none⟩ ::
      layout (countOn next digits) [] ts

/-- A placeholder gives a slot, and an empty text to go on with. -/
theorem fragments_placeholder (next : Nat) (digits : List Char) (ts : List Token) :
    fragments next (.placeholder digits :: ts) =
      .slot ⟨indexOf next digits, none⟩ :: .sql "" :: fragments (countOn next digits) ts := by
  rw [fragments, indexOf, countOn]
  cases numberedIndex? digits <;> rfl

/-- Putting the fragments together joins the texts between the slots. -/
theorem pushAll_fragments (ts : List Token) (next : Nat) (text : List Char) (fs : List Fragment) :
    (Statement.pushAll ⟨fs ++ [.sql (String.ofList text)]⟩ (fragments next ts)).fragments =
      fs ++ layout next text ts := by
  induction ts generalizing next text fs with
  | nil => rfl
  | cons t ts ih =>
    cases t with
    | text chars =>
      rw [fragments, Statement.pushAll, List.foldl_cons, Statement.push_concat, Statement.addTo, layout,
        ← String.ofList_append]
      exact ih next (text ++ chars) fs
    | placeholder digits =>
      -- A slot does not join the text in front of it, and the empty text behind it begins the next one.
      have hslot : (Statement.push ⟨fs ++ [.sql (String.ofList text)]⟩
          (.slot ⟨indexOf next digits, none⟩)).push (.sql "") =
          ⟨(fs ++ [.sql (String.ofList text), .slot ⟨indexOf next digits, none⟩]) ++
            [.sql (String.ofList [])]⟩ := by
        have hbehind := Statement.push_concat (fs ++ [.sql (String.ofList text)])
          (.slot ⟨indexOf next digits, none⟩) (.sql "")
        rw [Statement.push_concat]
        simpa only [Statement.addTo, List.append_assoc, List.cons_append, List.nil_append] using hbehind
      have hmore := ih (countOn next digits) [] (fs ++ [.sql (String.ofList text),
        .slot ⟨indexOf next digits, none⟩])
      rw [← hslot, List.append_assoc] at hmore
      rw [fragments_placeholder, layout]
      exact hmore

/-- **The statement of a text** is laid out after its tokens. -/
theorem fragments_statement (sql : String) :
    (statement sql).fragments = layout 0 [] (tokens sql.toList) :=
  pushAll_fragments (tokens sql.toList) 0 [] []

/-! ### Restored texts -/

/-- The texts of the placeholders. -/
def placeholderTexts : List Token → List (List Char)
  | [] => []
  | .text _ :: ts => placeholderTexts ts
  | .placeholder digits :: ts => ('?' :: digits) :: placeholderTexts ts

/-- The text of fragments, with the given texts in place of those that are not text. -/
def restored : List Fragment → List (List Char) → List Char
  | [], _ => []
  | .sql text :: fs, texts => text.toList ++ restored fs texts
  | _ :: fs, texts => texts.headD [] ++ restored fs texts.tail

/-- Writing the placeholders back in gives the original characters. -/
theorem restored_layout (next : Nat) (text : List Char) (ts : List Token) :
    restored (layout next text ts) (placeholderTexts ts) = text ++ charsOf ts := by
  induction ts generalizing next text with
  | nil => rw [layout, restored, restored, String.toList_ofList, charsOf, List.flatMap_nil]
  | cons t ts ih =>
    cases t with
    | text chars =>
      rw [layout, placeholderTexts, ih, List.append_assoc]
      rfl
    | placeholder digits =>
      rw [layout, placeholderTexts, restored, restored, String.toList_ofList]
      -- The next placeholder of the text is the one that gave this slot.
      · rw [List.headD_cons, List.tail_cons, ih]
        rfl
      · exact nofun

/-- There is one slot for each placeholder. -/
theorem length_filter_isHole_layout (next : Nat) (text : List Char) (ts : List Token) :
    ((layout next text ts).filter Fragment.isHole).length =
      (placeholderTexts ts).length := by
  induction ts generalizing next text with
  | nil => rfl
  | cons t ts ih =>
    cases t with
    | text chars =>
      rw [layout, placeholderTexts]
      exact ih next (text ++ chars)
    | placeholder digits =>
      rw [layout, placeholderTexts, Fragment.filter_isHole_sql,
        List.filter_cons_of_pos rfl, List.length_cons, List.length_cons, ih]

/-! ### Numbered texts -/

/-- The tokens with the numbers of their slots behind the placeholders. -/
def numbered (next : Nat) : List Token → List Token
  | [] => []
  | .text chars :: ts => .text chars :: numbered next ts
  | .placeholder digits :: ts =>
    .placeholder (Nat.toDigits 10 (indexOf next digits + 1)) :: numbered (countOn next digits) ts

/-- Numbering the placeholders changes nothing else. -/
theorem alike_numbered (next : Nat) (ts : List Token) :
    List.Forall₂ Token.Alike ts (numbered next ts) := by
  induction ts generalizing next with
  | nil => exact .nil
  | cons t ts ih =>
    cases t with
    | text chars => exact .cons (.text chars) (ih next)
    | placeholder digits =>
      refine .cons (.placeholder digits fun c hc => ?_) (ih _)
      exact Whole.isDecimalDigit_of_isAsciiDigit (Whole.isAsciiDigit_of_mem_toDigits hc)

/-- The fragments are written with the numbers of their slots. -/
theorem text_layout (next : Nat) (text : List Char) (ts : List Token) :
    (layout next text ts).flatMap (fun f => f.text.toList) = text ++ charsOf (numbered next ts) := by
  induction ts generalizing next text with
  | nil =>
    rw [layout, List.flatMap_singleton, Fragment.text, String.toList_ofList]
    exact (List.append_nil text).symm
  | cons t ts ih =>
    cases t with
    | text chars =>
      rw [layout, ih, List.append_assoc]
      rfl
    | placeholder digits =>
      -- A slot is shown with its number, which is what the renumbered placeholder has.
      have hslot : (Fragment.slot ⟨indexOf next digits, none⟩).text.toList =
          '?' :: Nat.toDigits 10 (indexOf next digits + 1) := by
        rw [Fragment.text, Slot.text, String.toList_append, Nat.toString_eq_repr, Nat.toList_repr]
        rfl
      rw [layout, List.flatMap_cons, List.flatMap_cons, hslot, ih, Fragment.text, String.toList_ofList]
      rfl

/-- A number in the range of indexes is read as the index that it was written for. -/
theorem numberedIndex?_toDigits {index : Nat} (h : index + 1 < wordLimit) :
    numberedIndex? (Nat.toDigits 10 (index + 1)) = some index := by
  have hdigits : (Nat.toDigits 10 (index + 1)).all isAsciiDigit = true :=
    List.all_eq_true.2 fun c => Whole.isAsciiDigit_of_mem_toDigits
  unfold numberedIndex?
  simp only [Whole.digitsValue_toDigits, hdigits, Bool.true_and, Nat.zero_lt_succ, decide_true, h,
    Nat.add_sub_cancel, if_true]

/-- Numbers that are read are in the range of indexes. -/
theorem lt_of_numberedIndex? {index : Nat} (h : numberedIndex? digits = some index) :
    index + 1 < wordLimit := by
  unfold numberedIndex? at h
  dsimp only at h
  split at h
  · rename_i hvalid
    cases h
    simp only [Bool.and_eq_true, decide_eq_true_eq] at hvalid
    omega
  · cases h

/-- **Numbered tokens have the same slots**, as long as there are fewer than words can count. -/
theorem layout_numbered {next : Nat} {ts : List Token} (h : next + ts.length < wordLimit) (other : Nat)
    (text : List Char) : layout other text (numbered next ts) = layout next text ts := by
  induction ts generalizing next text with
  | nil => rfl
  | cons t ts ih =>
    rw [List.length_cons] at h
    cases t with
    | text chars =>
      rw [numbered, layout, layout]
      exact ih (by omega) (text ++ chars)
    | placeholder digits =>
      -- Every index is below the limit, since there are fewer placeholders than the text has characters.
      have hindex : indexOf next digits + 1 < wordLimit ∧ countOn next digits ≤ next + 1 := by
        unfold indexOf countOn
        cases hdigits : numberedIndex? digits with
        | none => exact ⟨by rw [Option.getD_none]; omega, le_rfl⟩
        | some index => exact ⟨lt_of_numberedIndex? hdigits, Nat.le_succ next⟩
      have hread := numberedIndex?_toDigits hindex.1
      have hsame : indexOf other (Nat.toDigits 10 (indexOf next digits + 1)) = indexOf next digits ∧
          countOn other (Nat.toDigits 10 (indexOf next digits + 1)) = other := by
        rw [indexOf, countOn, hread]
        exact ⟨rfl, rfl⟩
      rw [numbered, layout, layout, hsame.1, hsame.2, ih (by omega)]

/-- There are no more tokens than characters. -/
theorem Scanned.length_le (h : Scanned s ts) : ts.length ≤ s.length := by
  induction h with
  | nil => exact le_rfl
  | literal hclosed _ _ ih =>
    obtain ⟨body, _, rfl⟩ := hclosed
    simp only [List.length_append, List.length_cons]
    omega
  | placeholder _ _ _ ih =>
    simp only [List.length_append, List.length_cons]
    omega
  | char _ _ _ ih =>
    rw [List.length_cons, List.length_cons]
    omega

/-- **A statement is read again as it is written**, if words can count the characters of its text. -/
theorem statement_text {sql : String} (h : sql.length < wordLimit) :
    statement (statement sql).text = statement sql := by
  have hscanned := scanned_tokens sql.toList
  have hlength : 0 + (tokens sql.toList).length < wordLimit := by
    have hle := hscanned.length_le
    rw [String.length_toList] at hle
    omega
  have htext : (statement sql).text.toList = charsOf (numbered 0 (tokens sql.toList)) := by
    rw [Statement.text, String.toList_join, fragments_statement, List.flatMap_map, text_layout,
      List.nil_append]
  obtain ⟨hnumbered, _⟩ := hscanned.of_alike (alike_numbered 0 _)
  -- The text that is shown is scanned as the numbered tokens, which give the same slots again.
  have hfragments : (statement (statement sql).text).fragments = (statement sql).fragments := by
    rw [fragments_statement, htext, ← scanned_iff.1 hnumbered, layout_numbered hlength,
      ← fragments_statement]
  exact congrArg Statement.mk hfragments

/-- **Text is kept apart from its placeholders.**  Every text is divided in one way into closed literals,
    placeholders and other single characters.  The fragments of its statement are laid out after it: with
    the text of each placeholder in place of its slot they are the text again.  The statement that is
    written out is read as the same statement. -/
theorem statement_keeps_text (sql : String) :
    ∃ ts, (∀ other, Scanned sql.toList other ↔ other = ts) ∧
      (∀ chars, .text chars ∈ ts → IsLiteral chars ∨ ∃ c, c ≠ '?' ∧ chars = [c]) ∧
      (statement sql).fragments = layout 0 [] ts ∧
      (statement sql).holes.length = (placeholderTexts ts).length ∧
      restored (statement sql).fragments (placeholderTexts ts) = sql.toList ∧
      (sql.length < wordLimit → statement (statement sql).text = statement sql) := by
  have hscanned := scanned_tokens sql.toList
  refine ⟨tokens sql.toList, fun other => scanned_iff, fun chars => hscanned.text,
    fragments_statement sql, ?_, ?_, statement_text⟩
  · rw [Statement.holes, fragments_statement, length_filter_isHole_layout]
  · rw [fragments_statement, restored_layout, List.nil_append, hscanned.charsOf_eq]

end Native

namespace Sample

/-- A text with a question mark inside a literal. -/
def quotedText : String := "d = ? and b = '?' and c = ?2"

end Sample

/-- Two of the question marks are placeholders, and their numbers do not change how they are read. -/
theorem Native.statement_keeps_text_quoted :
    ∃ ts, Scanned Sample.quotedText.toList ts ∧ (placeholderTexts ts).length = 2 ∧
      (statement Sample.quotedText).text = "d = ?1 and b = '?' and c = ?2" ∧
      statement "d = ?1 and b = '?' and c = ?2" = statement Sample.quotedText := by
  have htext : (statement Sample.quotedText).text = "d = ?1 and b = '?' and c = ?2" := by decide +kernel
  have hholes : (statement Sample.quotedText).holes.length = 2 := by decide +kernel
  obtain ⟨ts, hscanned, _, _, hslots, _, hagain⟩ := statement_keeps_text Sample.quotedText
  refine ⟨ts, (hscanned ts).2 rfl, hslots ▸ hholes, htext, ?_⟩
  rw [← htext]
  exact hagain (by decide +kernel)

end EntityQuery
