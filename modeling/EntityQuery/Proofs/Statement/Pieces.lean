import EntityQuery.Proofs.Paging.Windows
import EntityQuery.Proofs.Statement.Readings
import EntityQuery.Proofs.Template.Tokens

namespace EntityQuery

/-!
# Bound statements in pieces

A bound statement is text with marks in it, and each mark takes a value.  The pieces of a statement
say which mark takes which value:

* `Statement.bind_eq_ofPieces`: binding puts the pieces of all fragments behind each other, however
  the fragments were merged when the statement was built;
* `Bound.filled_ofPieces`: a store that gives the values to the question marks of the text in their
  order reads the pieces again, as long as no question mark stands in a piece of text.
-/

/-- A part of a bound statement: text, or the place of a value. -/
inductive Piece where
  | text (text : String)
  | mark (value : Value)

namespace Piece

/-- A piece as it is written. -/
def sql : Piece → String
  | .text t => t
  | .mark _ => "?"

/-- The value a piece brings. -/
def value? : Piece → Option Value
  | .text _ => none
  | .mark value => some value

/-- The values that stand in pieces. -/
def values (pieces : List Piece) : List Value := pieces.filterMap value?

@[simp] theorem values_nil : values [] = [] := rfl

@[simp] theorem values_text (text : String) (pieces : List Piece) :
    values (.text text :: pieces) = values pieces := rfl

@[simp] theorem values_mark (value : Value) (pieces : List Piece) :
    values (.mark value :: pieces) = value :: values pieces := rfl

@[simp] theorem values_append (pieces more : List Piece) :
    values (pieces ++ more) = values pieces ++ values more := List.filterMap_append

/-- Marks bring their values. -/
@[simp] theorem values_map_mark (vs : List Value) : values (vs.map .mark) = vs := by
  induction vs with
  | nil => rfl
  | cons v vs ih => rw [List.map_cons, values_mark, ih]

/-- A list of values, which matches nothing without any. -/
def ofList : List Value → List Piece
  | [] => [.text "(NULL)"]
  | v :: vs => .text "(" :: .mark v :: (vs.flatMap (fun v => [.text ", ", .mark v]) ++ [.text ")"])

/-- A list brings its items. -/
@[simp] theorem values_ofList (vs : List Value) : values (ofList vs) = vs := by
  cases vs with
  | nil => rfl
  | cons v vs =>
    have hrest : values (vs.flatMap fun v => [.text ", ", .mark v]) = vs := by
      induction vs with
      | nil => rfl
      | cons w vs ih => rw [List.flatMap_cons, values_append, ih]; rfl
    simp [ofList, hrest]

end Piece

/-- The items of a list; a single value is taken for a list of one. -/
def Value.items : Value → List Value
  | .list items => items
  | v => [v]

/-- The statement that pieces make up. -/
def Bound.ofPieces (pieces : List Piece) : Bound :=
  ⟨String.join (pieces.map Piece.sql), Piece.values pieces⟩

/-! ### Binding -/

section Binding

variable {lookup : Slot → Except ParameterFault Value}

/-- The pieces of a fragment. -/
def Fragment.pieces (lookup : Slot → Except ParameterFault Value) : Fragment → List Piece
  | .sql text => [.text text]
  | .slot s => (lookup s).toOption.toList.map .mark
  | .slotList s => Piece.ofList ((lookup s).toOption.elim [] Value.items)
  | .value v => [.mark v]
  | .valueList items => Piece.ofList items

/-- The pieces of a list are its items in parentheses. -/
theorem Bound.ofPieces_ofList (items : List Value) :
    Bound.ofPieces (Piece.ofList items) = Fragment.bindList items := by
  cases items with
  | nil => rfl
  | cons v vs =>
    have hsql : String.join ((Piece.ofList (v :: vs)).map Piece.sql) =
        "(" ++ ", ".intercalate ((v :: vs).map fun _ => "?") ++ ")" := by
      rw [← String.toList_inj]
      simp only [String.toList_append, String.toList_intercalate, List.map_cons,
        Grammar.intercalate_cons, Piece.ofList, String.toList_join, List.map_append, Piece.sql, List.map_map,
        List.flatMap_cons, List.map_flatMap, List.flatMap_append, List.map_nil, List.flatMap_nil,
        List.flatMap_map, List.flatMap_assoc, List.append_assoc, List.append_nil,
        Function.comp_apply]
    unfold Bound.ofPieces
    rw [hsql, Piece.values_ofList]
    rfl

/-- A fragment that is bound is bound to its pieces. -/
theorem Fragment.bind_eq_ofPieces {f : Fragment} {b : Bound} (h : f.bind lookup = .ok b) :
    b = .ofPieces (f.pieces lookup) := by
  cases f with
  | sql text => cases h; simp [pieces, Bound.ofPieces, Piece.sql]
  | value v => cases h; rfl
  | valueList items => cases h; exact (Bound.ofPieces_ofList items).symm
  | slot s =>
    obtain ⟨v, hv, h⟩ := bind_eq_ok_iff.1 h
    rw [pieces, hv]
    split at h
    · cases h
    · cases h; rfl
  -- A single value for a list is bound as a list of one.
  | slotList s =>
    obtain ⟨v, hv, h⟩ := bind_eq_ok_iff.1 h
    rw [pieces, hv]
    cases v <;> cases h <;> exact (Bound.ofPieces_ofList _).symm

/-- The pieces of some fragments. -/
def Fragment.allPieces (lookup : Slot → Except ParameterFault Value) (fs : List Fragment) :
    List Piece :=
  fs.flatMap (Fragment.pieces lookup)

@[simp] theorem Fragment.allPieces_nil : allPieces lookup [] = [] := rfl

@[simp] theorem Fragment.allPieces_cons (f : Fragment) (fs : List Fragment) :
    allPieces lookup (f :: fs) = f.pieces lookup ++ allPieces lookup fs := List.flatMap_cons

@[simp] theorem Fragment.allPieces_append (fs gs : List Fragment) :
    allPieces lookup (fs ++ gs) = allPieces lookup fs ++ allPieces lookup gs := List.flatMap_append

/-- Pieces one behind the other are written so, and bring their values so. -/
theorem Bound.ofPieces_append (pieces more : List Piece) :
    Bound.ofPieces (pieces ++ more) =
      ⟨(Bound.ofPieces pieces).sql ++ (Bound.ofPieces more).sql,
        (Bound.ofPieces pieces).values ++ (Bound.ofPieces more).values⟩ := by
  simp only [ofPieces, List.map_append, String.join_append, Piece.values_append]

/-- Pieces that make up the same statement can stand for each other. -/
theorem Bound.ofPieces_append_congr {pieces pieces' : List Piece}
    (h : Bound.ofPieces pieces = .ofPieces pieces') (more : List Piece) :
    Bound.ofPieces (pieces ++ more) = .ofPieces (pieces' ++ more) := by
  rw [ofPieces_append, ofPieces_append, h]

/-- Fragments as the statement that their pieces make up. -/
def Reading.bound (lookup : Slot → Except ParameterFault Value) : Reading Bound where
  unit := ⟨"", []⟩
  op b c := ⟨b.sql ++ c.sql, b.values ++ c.values⟩
  of f := .ofPieces (f.pieces lookup)
  op_assoc b c d := congrArg₂ Bound.mk String.append_assoc (List.append_assoc ..)
  unit_op b := congrArg₂ Bound.mk String.empty_append (List.nil_append _)
  op_unit b := congrArg₂ Bound.mk String.append_empty (List.append_nil _)
  of_text s t := by simp [Bound.ofPieces, Fragment.pieces, Piece.sql]

/-- However text is merged, the pieces make up the same statement. -/
theorem ofPieces_eq_read (fs : List Fragment) :
    Bound.ofPieces (Fragment.allPieces lookup fs) = (Reading.bound lookup).read fs := by
  induction fs with
  | nil => rfl
  | cons f fs ih =>
    rw [Fragment.allPieces_cons, Bound.ofPieces_append, ih, Reading.read_cons]
    rfl

namespace Statement

/-- What a statement is bound to is its pieces. -/
theorem bind_eq_ofPieces_fragments {s : Statement} {b : Bound} (h : s.bind lookup = .ok b) :
    b = .ofPieces (Fragment.allPieces lookup s.fragments) := by
  obtain ⟨parts, hparts, hb⟩ := bind_eq_ok_iff.1 h
  rw [pure_eq_ok_iff] at hb
  rw [listMapM_eq_ok_iff] at hparts
  rw [← hb]
  clear h hb
  generalize s.fragments = fs at hparts
  induction hparts with
  | nil => rfl
  | @cons f part fs parts hpart _ ih =>
    rw [Fragment.allPieces_cons, Bound.ofPieces_append, ← ih, ← Fragment.bind_eq_ofPieces hpart,
      List.map_cons, String.join_cons, List.flatMap_cons]

/-- Adding fragments adds their pieces, even where two texts become one. -/
theorem ofPieces_pushAll (fs : List Fragment) (s : Statement) :
    Bound.ofPieces (Fragment.allPieces lookup (s.pushAll fs).fragments) =
      .ofPieces (Fragment.allPieces lookup s.fragments ++ Fragment.allPieces lookup fs) := by
  rw [ofPieces_eq_read, Reading.read_pushAll, ← ofPieces_eq_read, Fragment.allPieces_append]

/-- A statement has the pieces of its fragments. -/
theorem ofPieces_ofFragments (fs : List Fragment) :
    Bound.ofPieces (Fragment.allPieces lookup (ofFragments fs).fragments) =
      .ofPieces (Fragment.allPieces lookup fs) :=
  ofPieces_pushAll fs {}

/-! ### Windows -/

/-- A number of rows as a value. -/
def rowsValue (rows : Nat) : Value := .integer (Int64.ofInt rows)

/-- The pieces of a window: its limit, and its offset where rows are skipped. -/
def windowPieces : Option Nat → Nat → List Piece
  | some limit, 0 => [.text " LIMIT ", .mark (rowsValue limit)]
  | some limit, offset => [.text " LIMIT ", .mark (rowsValue limit), .text " OFFSET ",
      .mark (rowsValue offset)]
  | none, 0 => []
  | none, offset => [.text " LIMIT -1 OFFSET ", .mark (rowsValue offset)]

/-- The values of a window: its limit, and its offset where rows are skipped. -/
def windowValues (limit : Option Nat) (offset : Nat) : List Value :=
  (limit.toList ++ if 0 < offset then [offset] else []).map rowsValue

/-- The window brings the number of rows and then the number to skip. -/
theorem values_windowPieces (limit : Option Nat) (offset : Nat) :
    Piece.values (windowPieces limit offset) = windowValues limit offset := by
  cases limit <;> cases offset <;> rfl

/-- The fragments of a window: its limit, and its offset where rows are skipped. -/
def windowFragments : Option Nat → Nat → List Fragment
  | some limit, 0 => [.sql " LIMIT ", rowsFragment limit]
  | some limit, offset => [.sql " LIMIT ", rowsFragment limit, .sql " OFFSET ", rowsFragment offset]
  | none, 0 => []
  | none, offset => [.sql " LIMIT -1 OFFSET ", rowsFragment offset]

/-- The fragments of a window give its pieces. -/
theorem allPieces_windowFragments (limit : Option Nat) (offset : Nat) :
    Fragment.allPieces lookup (windowFragments limit offset) = windowPieces limit offset := by
  cases limit <;> cases offset <;> rfl

/-- **A window is pushed behind the statement.** -/
theorem eq_pushAll_of_window {s w : Statement} {limit : Option Nat} {offset : Nat}
    (h : s.window limit offset = .ok w) : w = s.pushAll (windowFragments limit offset) := by
  cases limit with
  | some limit =>
    obtain ⟨_, _, rfl⟩ := window_eq_ok_iff.1 h
    unfold windowed
    -- Without rows to skip there is no second part.
    cases offset with
    | zero => rfl
    | succ offset =>
      rw [if_pos (Nat.succ_pos offset)]
      rfl
  | none =>
    unfold window at h
    cases offset with
    | zero =>
      cases h
      rfl
    | succ offset =>
      dsimp only at h
      rw [if_pos (Nat.succ_pos offset)] at h
      obtain ⟨f, hf, h⟩ := bind_eq_ok_iff.1 h
      obtain ⟨_, rfl⟩ := windowBound_eq_ok_iff.1 hf
      cases h
      rfl

/-- A window puts its pieces behind those of the statement. -/
theorem ofPieces_window {s w : Statement} {limit : Option Nat} {offset : Nat}
    (h : s.window limit offset = .ok w) :
    Bound.ofPieces (Fragment.allPieces lookup w.fragments) =
      .ofPieces (Fragment.allPieces lookup s.fragments ++ windowPieces limit offset) := by
  rw [eq_pushAll_of_window h, ofPieces_pushAll, allPieces_windowFragments]

end Statement

end Binding

/-! ### Question marks -/

/-- No question mark stands in a text. -/
def IsMarkFree (text : String) : Prop := '?' ∉ text.toList

instance (text : String) : Decidable (IsMarkFree text) := inferInstanceAs (Decidable (_ ∉ _))

namespace IsMarkFree

/-- Texts without question marks make one without any. -/
theorem append {s t : String} (hs : IsMarkFree s) (ht : IsMarkFree t) : IsMarkFree (s ++ t) := by
  unfold IsMarkFree
  rw [String.toList_append, List.mem_append]
  exact not_or_intro hs ht

/-- So do any number of them. -/
theorem join {texts : List String} (h : ∀ t ∈ texts, IsMarkFree t) :
    IsMarkFree (String.join texts) := by
  unfold IsMarkFree
  rw [String.toList_join, List.mem_flatMap]
  rintro ⟨t, ht, hmark⟩
  exact h t ht hmark

/-- And so they do with a separator. -/
theorem intercalate {separator : String} (hseparator : IsMarkFree separator) {texts : List String}
    (h : ∀ t ∈ texts, IsMarkFree t) : IsMarkFree (separator.intercalate texts) := by
  unfold IsMarkFree
  rw [String.toList_intercalate]
  cases texts with
  | nil => exact nofun
  | cons t texts =>
    rw [List.forall_mem_cons] at h
    rw [List.map_cons, Grammar.intercalate_cons, List.mem_append, List.mem_flatMap]
    -- A mark would be in the first text, in a separator or in a later text.
    rintro (hmark | ⟨cs, hcs, hmark⟩)
    · exact h.1 hmark
    · obtain ⟨t', ht', rfl⟩ := List.mem_map.1 hcs
      rcases List.mem_append.1 hmark with hmark | hmark
      · exact hseparator hmark
      · exact h.2 t' ht' hmark

end IsMarkFree

/-- A statement as the store reads it: characters, and values in the places of question marks. -/
inductive Item where
  | char (c : Char)
  | value (value : Value)

/-- Each question mark takes the next value; nothing is read unless there are as many of both. -/
def fill : List Char → List Value → Option (List Item)
  | [], [] => some []
  | [], _ :: _ => none
  | c :: cs, vs =>
    if c = '?' then
      match vs with
      | [] => none
      | v :: vs => (fill cs vs).map (.value v :: ·)
    else (fill cs vs).map (.char c :: ·)

/-- What the store reads of a bound statement. -/
def Bound.filled (b : Bound) : Option (List Item) := fill b.sql.toList b.values

/-- What is read has a value for each question mark. -/
theorem count_of_fill {cs : List Char} {vs : List Value} {items : List Item}
    (h : fill cs vs = some items) : cs.count '?' = vs.length := by
  induction cs generalizing vs items with
  | nil =>
    cases vs with
    | nil => rfl
    | cons => cases h
  | cons c cs ih =>
    unfold fill at h
    -- Each mark takes one value, and no other character takes any.
    split at h
    · rename_i hmark
      cases vs with
      | nil => cases h
      | cons v vs =>
        obtain ⟨rest, hrest, _⟩ := Option.map_eq_some_iff.1 h
        rw [hmark, List.count_cons_self, ih hrest, List.length_cons]
    · rename_i hother
      obtain ⟨rest, hrest, _⟩ := Option.map_eq_some_iff.1 h
      rw [List.count_cons_of_ne hother, ih hrest]

namespace Piece

/-- A piece, character by character, with its value in place of a mark. -/
def items : Piece → List Item
  | .text t => t.toList.map .char
  | .mark value => [.value value]

/-- No question mark stands in the text of a piece. -/
def IsMarkFree : Piece → Prop
  | .text t => EntityQuery.IsMarkFree t
  | .mark _ => True

/-- No question mark stands in any text among the pieces. -/
def AllMarkFree (pieces : List Piece) : Prop := ∀ p ∈ pieces, p.IsMarkFree

@[simp] theorem allMarkFree_nil : AllMarkFree [] := nofun

@[simp] theorem allMarkFree_text {t : String} {pieces : List Piece} :
    AllMarkFree (.text t :: pieces) ↔ EntityQuery.IsMarkFree t ∧ AllMarkFree pieces :=
  List.forall_mem_cons

@[simp] theorem allMarkFree_mark {v : Value} {pieces : List Piece} :
    AllMarkFree (.mark v :: pieces) ↔ AllMarkFree pieces :=
  List.forall_mem_cons.trans (and_iff_right trivial)

@[simp] theorem allMarkFree_append {pieces more : List Piece} :
    AllMarkFree (pieces ++ more) ↔ AllMarkFree pieces ∧ AllMarkFree more :=
  List.forall_mem_append

/-- Marks alone have no text. -/
theorem allMarkFree_map_mark (vs : List Value) : AllMarkFree (vs.map .mark) :=
  List.forall_mem_map.2 fun _ _ => trivial

/-- Pieces are free of marks in their text if each group of them is. -/
theorem allMarkFree_flatMap {α : Type} {f : α → List Piece} {items : List α}
    (h : ∀ a ∈ items, AllMarkFree (f a)) : AllMarkFree (items.flatMap f) := by
  intro p hp
  obtain ⟨a, ha, hp⟩ := List.mem_flatMap.1 hp
  exact h a ha p hp

/-- So are those of a list. -/
theorem allMarkFree_ofList (vs : List Value) : AllMarkFree (ofList vs) := by
  have hseparated : ∀ v : Value, AllMarkFree [.text ", ", .mark v] := by
    intro v
    simp only [allMarkFree_text, allMarkFree_mark, allMarkFree_nil, and_true]
    decide
  cases vs with
  | nil => simp only [ofList, allMarkFree_text, allMarkFree_nil, and_true]; decide
  | cons v vs =>
    simp only [ofList, allMarkFree_text, allMarkFree_mark, allMarkFree_append, allMarkFree_nil,
      and_true]
    exact ⟨by decide, allMarkFree_flatMap fun v _ => hseparated v, by decide⟩

/-- Text without question marks takes no value. -/
theorem fill_text {text : List Char} (h : '?' ∉ text) (cs : List Char) (vs : List Value) :
    fill (text ++ cs) vs = (fill cs vs).map (text.map .char ++ ·) := by
  induction text with
  | nil => simp
  | cons c text ih =>
    rw [List.mem_cons, not_or] at h
    rw [List.cons_append, fill.eq_def]
    dsimp only
    rw [if_neg (Ne.symm h.1), ih h.2, Option.map_map]
    rfl

/-- A mark takes the next value. -/
theorem fill_mark (v : Value) (cs : List Char) (vs : List Value) :
    fill ("?".toList ++ cs) (v :: vs) = (fill cs vs).map (.value v :: ·) := by
  show fill ('?' :: cs) (v :: vs) = _
  rw [fill.eq_def]
  dsimp only
  rw [if_pos rfl]

/-- **Pieces are read again**, whatever follows them. -/
theorem fill_pieces {pieces : List Piece} (h : AllMarkFree pieces) (cs : List Char)
    (vs : List Value) :
    fill ((String.join (pieces.map sql)).toList ++ cs) (values pieces ++ vs) =
      (fill cs vs).map (pieces.flatMap items ++ ·) := by
  induction pieces with
  | nil => simp
  | cons p pieces ih =>
    obtain ⟨hp, hpieces⟩ := List.forall_mem_cons.1 h
    rw [List.map_cons, String.join_cons, String.toList_append, List.append_assoc,
      List.flatMap_cons]
    -- Text takes no value, since it has no mark, and a mark takes exactly its own.
    cases p with
    | text t =>
      rw [values_text, sql, fill_text hp, ih hpieces, Option.map_map]
      simp [items, Function.comp_def]
    | mark v =>
      rw [values_mark, sql, List.cons_append, fill_mark, ih hpieces, Option.map_map]
      simp [items, Function.comp_def]

end Piece

/-- Putting the values back in for the marks gives the pieces. -/
theorem Bound.filled_ofPieces {pieces : List Piece} (h : Piece.AllMarkFree pieces) :
    (Bound.ofPieces pieces).filled = some (pieces.flatMap Piece.items) := by
  have hread := Piece.fill_pieces h [] []
  rw [List.append_nil, List.append_nil] at hread
  rw [filled, ofPieces, hread]
  simp [fill]

end EntityQuery
