import EvalDiff.Proofs.Json.Numbers
import EvalDiff.Proofs.Json.Strings
import Mathlib.Data.List.Forall2

/-!
# JSON values read back

A value is read back from its text in every layout that sets its parts apart with blanks:
`read?_write`.  The induction is on the depth that the reader allows, which the length of the text
bounds, so that arrays and objects need no induction over nested values.
-/

namespace EvalDiff
namespace Json

open Text Reader

variable {α : Type} {cs ds rest : List Char}

/-! ### What is written and read -/

/-- A value that a text can hold: its numbers are well formed and its strings stand for texts. -/
inductive Value.Proper : Value → Prop where
  | null : Proper .null
  | boolean (b : Bool) : Proper (.boolean b)
  | number {n : Number} (h : n.Proper) : Proper (.number n)
  | string (text : String) : Proper (.string (some text))
  | array {items : List Value} (h : ∀ v ∈ items, v.Proper) : Proper (.array items)
  | object {members : List (Option String × Value)} (hnames : ∀ m ∈ members, m.1.isSome = true)
    (h : ∀ m ∈ members, m.2.Proper) : Proper (.object members)

/-- A layout that puts nothing but blanks between the parts. -/
structure Layout.Blank (layout : Layout) : Prop where
  newline : ∀ depth, ∀ c ∈ layout.newline depth, isGap c = true
  colon : ∃ blanks, layout.colon = ':' :: blanks ∧ ∀ c ∈ blanks, isGap c = true

theorem blank_compact : Layout.compact.Blank :=
  ⟨fun _ _ hc => absurd hc List.not_mem_nil, [], rfl, fun _ hc => absurd hc List.not_mem_nil⟩

theorem blank_indented : Layout.indented.Blank := by
  refine ⟨fun depth c hc => ?_, [' '], rfl, fun c hc => ?_⟩
  · rcases List.mem_cons.mp hc with rfl | hc
    · rfl
    · rw [List.eq_of_mem_replicate hc]
      rfl
  · rw [List.mem_singleton.mp hc]
    rfl

/-- What can follow a value in a document. -/
def EndsValue (rest : List Char) : Prop :=
  ∀ c ∈ rest.head?, isGap c = true ∨ c = ',' ∨ c = ']' ∨ c = '\x7d'

/-- A character that a value or a member can start with. -/
def Starts (c : Char) : Prop := isGap c = false ∧ c ≠ ']' ∧ c ≠ '\x7d'

instance (c : Char) : Decidable (Starts c) := inferInstanceAs (Decidable (_ ∧ _ ∧ _))

/-- A reader takes a text, whatever follows it in a document, for the given item. -/
structure Reads (item : Reader α) (text : List Char) (a : α) : Prop where
  starts : ∃ c cs, text = c :: cs ∧ Starts c
  read : ∀ rest, EndsValue rest → item (text ++ rest) = some (a, rest)

theorem EndsValue.endsNumber (h : EndsValue rest) : EndsNumber rest := by
  intro c hc
  rcases h c hc with h | rfl | rfl | rfl
  · simp only [isGap, Bool.or_eq_true, decide_eq_true_eq] at h
    rcases h with ((rfl | rfl) | rfl) | rfl <;> decide
  · decide
  · decide
  · decide

/-! ### Parts set apart -/

theorem gap_append (h : ∀ c ∈ ds, isGap c = true) (hrest : ∀ c ∈ rest.head?, isGap c = false) :
    gap (ds ++ rest) = some ((), rest) := by
  have hspan : span isGap (ds ++ rest) = some (ds, rest) := congrArg some (span_append h hrest)
  rw [gap, bind_eq_of_eq _ hspan]
  rfl

theorem gap_cons {c : Char} (h : isGap c = false) (cs : List Char) :
    gap (c :: cs) = some ((), c :: cs) := by
  have hempty : gap ([] ++ c :: cs) = some ((), c :: cs) := gap_append nofun (by simpa using h)
  exact hempty

variable {layout : Layout} {item : Reader α} {parts : List (List Char)} {as : List α}

/-- What stands in front of every part but the first. -/
def separator (layout : Layout) (depth : Nat) : List Char := ',' :: layout.newline (depth + 1)

theorem intercalate_cons (sep part : List Char) (parts : List (List Char)) :
    sep.intercalate (part :: parts) = part ++ parts.flatMap (sep ++ ·) := by
  induction parts generalizing part with
  | nil => simp
  | cons next parts ih =>
    rw [List.intercalate_cons_cons, ih, List.flatMap_cons, List.append_assoc, List.append_assoc]

theorem enclose_cons (layout : Layout) (depth : Nat) (first last : Char) (part : List Char)
    (parts : List (List Char)) :
    enclose layout depth first last (part :: parts) =
      first :: (layout.newline (depth + 1) ++ (part ++
        (parts.flatMap (separator layout depth ++ ·) ++ (layout.newline depth ++ [last])))) := by
  simp [enclose, separator, intercalate_cons]

theorem endsValue_append (hl : layout.Blank) (depth : Nat) {last : Char}
    (hlast : last = ']' ∨ last = '\x7d') (parts : List (List Char)) :
    EndsValue (parts.flatMap (separator layout depth ++ ·) ++
      (layout.newline depth ++ last :: rest)) := by
  intro c hc
  cases parts with
  | cons part parts =>
    cases hc
    exact Or.inr (Or.inl rfl)
  | nil =>
    rw [List.flatMap_nil, List.nil_append] at hc
    have hblank := hl.newline depth
    cases hn : layout.newline depth with
    | nil =>
      rw [hn] at hc
      cases hc
      exact Or.inr (Or.inr hlast)
    | cons d ds =>
      rw [hn] at hc hblank
      cases hc
      exact Or.inl (hblank _ List.mem_cons_self)

theorem gap_newline (hl : layout.Blank) (depth : Nat) {last : Char}
    (hlast : last = ']' ∨ last = '\x7d') :
    gap (layout.newline depth ++ last :: rest) = some ((), last :: rest) := by
  refine gap_append (hl.newline depth) fun c hc => ?_
  cases hc
  rcases hlast with rfl | rfl <;> rfl

/-- A part is read with the comma in front of it. -/
theorem Reads.next {text : List Char} {a : α} (h : Reads item text a) (hl : layout.Blank)
    (depth : Nat) (hrest : EndsValue rest) :
    (do gap; char ','; gap; item : Reader α) (separator layout depth ++ (text ++ rest)) =
      some (a, rest) := by
  obtain ⟨c, cs, htext, hgap, -⟩ := h.starts
  have hblank : gap (layout.newline (depth + 1) ++ (text ++ rest)) = some ((), text ++ rest) := by
    refine gap_append (hl.newline (depth + 1)) fun d hd => ?_
    rw [htext] at hd
    cases hd
    exact hgap
  rw [separator, List.cons_append, bind_eq_of_eq _ (gap_cons rfl _),
    bind_eq_of_eq _ (char_cons _ _), bind_eq_of_eq _ hblank]
  exact h.read rest hrest

theorem turns_parts (hl : layout.Blank) (depth : Nat) {last : Char}
    (hlast : last = ']' ∨ last = '\x7d') (h : List.Forall₂ (Reads item) parts as)
    (rest : List Char) :
    Turns (do gap; char ','; gap; item)
      (parts.flatMap (separator layout depth ++ ·) ++ (layout.newline depth ++ last :: rest)) as
      (layout.newline depth ++ last :: rest) := by
  induction h with
  | nil =>
    have hcomma : last ≠ ',' := by rcases hlast with rfl | rfl <;> decide
    refine .done ?_
    rw [List.flatMap_nil, List.nil_append, bind_eq_of_eq _ (gap_newline hl depth hlast)]
    exact bind_eq_none _ (char_cons_of_ne hcomma rest)
  | @cons part a parts as hpart _ ih =>
    rw [List.flatMap_cons, List.append_assoc, List.append_assoc]
    refine .turn (hpart.next hl depth (endsValue_append hl depth hlast parts)) ?_ ih
    simp only [separator, List.cons_append, List.length_cons, List.length_append]
    omega

/-- Enclosed parts are read as the items they stand for. -/
theorem items_enclose (hl : layout.Blank) (depth : Nat) (first : Char) {last : Char}
    (hlast : last = ']' ∨ last = '\x7d') (h : List.Forall₂ (Reads item) parts as)
    (rest : List Char) :
    ∃ text, enclose layout depth first last parts ++ rest = first :: text ∧
      items gap false item last text = some (as, rest) := by
  cases h with
  | nil =>
    refine ⟨last :: rest, rfl, items_eq_nil (gap_cons ?_ rest) false⟩
    rcases hlast with rfl | rfl <;> rfl
  | @cons part a parts as hpart hparts =>
    obtain ⟨c, cs, htext, hgap, hbracket, hbrace⟩ := hpart.starts
    refine ⟨_, by rw [enclose_cons, List.cons_append], ?_⟩
    simp only [List.append_assoc, List.singleton_append]
    have hblank : ∀ after, gap (layout.newline (depth + 1) ++ (part ++ after)) =
        some ((), part ++ after) := fun after => by
      refine gap_append (hl.newline (depth + 1)) fun d hd => ?_
      rw [htext] at hd
      cases hd
      exact hgap
    refine items_eq_cons (hblank _) ?_ (hpart.read _ (endsValue_append hl depth hlast parts))
      (turns_parts hl depth hlast hparts rest) (gap_newline hl depth hlast)
    rw [htext]
    rintro ⟨⟩
    rcases hlast with h | h
    · exact hbracket h
    · exact hbrace h

theorem length_le_flatMap {part : List Char} (sep : List Char) (h : part ∈ parts) :
    part.length ≤ (parts.flatMap (sep ++ ·)).length := by
  have hsub : (sep ++ part).Sublist (parts.flatMap (sep ++ ·)) := by
    rw [List.flatMap]
    exact List.sublist_flatten_of_mem (List.mem_map_of_mem h)
  have := hsub.length_le
  rw [List.length_append] at this
  omega

/-- A part is shorter than what encloses it. -/
theorem length_lt_enclose (layout : Layout) (depth : Nat) (first last : Char) {part : List Char}
    (h : part ∈ parts) : part.length < (enclose layout depth first last parts).length := by
  cases parts with
  | nil => exact absurd h List.not_mem_nil
  | cons head parts =>
    rw [enclose_cons]
    simp only [List.length_cons, List.length_append]
    rcases List.mem_cons.mp h with rfl | h
    · omega
    · have := length_le_flatMap (separator layout depth) h
      omega

/-! ### Values -/

theorem writeItems_eq_map (layout : Layout) (depth : Nat) (items : List Value) :
    writeItems layout depth items = items.map (·.write layout depth) := by
  induction items with
  | nil => rfl
  | cons v items ih => rw [writeItems, ih, List.map_cons]

/-- The text of a member. -/
def memberText (layout : Layout) (depth : Nat) (m : Option String × Value) : List Char :=
  writeString m.1 ++ layout.colon ++ m.2.write layout depth

theorem writeMembers_eq_map (layout : Layout) (depth : Nat)
    (members : List (Option String × Value)) :
    writeMembers layout depth members = members.map (memberText layout depth) := by
  induction members with
  | nil => rfl
  | cons m members ih => rw [writeMembers, ih, List.map_cons, memberText]

theorem starts_of_isDigit {c : Char} (h : c.isDigit = true) : Starts c := by
  refine ⟨?_, ?_, ?_⟩
  · cases hgap : isGap c with
    | false => rfl
    | true =>
      simp only [isGap, Bool.or_eq_true, decide_eq_true_eq] at hgap
      rcases hgap with ((rfl | rfl) | rfl) | rfl <;> revert h <;> decide
  · rintro rfl
    revert h
    decide
  · rintro rfl
    revert h
    decide

theorem Number.write_starts {n : Number} (h : n.Proper) :
    ∃ c cs, n.write = c :: cs ∧ (c.isDigit = true ∨ c = '-') := by
  obtain ⟨c, cs, hwhole, hdigit⟩ := h.whole.exists_cons
  rw [write_eq, hwhole]
  cases n.negative with
  | true => exact ⟨'-', _, rfl, Or.inr rfl⟩
  | false => exact ⟨c, _, rfl, Or.inl hdigit⟩

theorem enclose_starts (layout : Layout) (depth : Nat) (first last : Char)
    (parts : List (List Char)) : ∃ cs, enclose layout depth first last parts = first :: cs := by
  cases parts with
  | nil => exact ⟨_, rfl⟩
  | cons part parts => exact ⟨_, enclose_cons layout depth first last part parts⟩

theorem Value.write_starts (layout : Layout) (depth : Nat) {v : Value} (h : v.Proper) :
    ∃ c cs, v.write layout depth = c :: cs ∧ Starts c := by
  cases h with
  | null => exact ⟨'n', _, rfl, by decide⟩
  | boolean b =>
    cases b with
    | true => exact ⟨'t', _, rfl, by decide⟩
    | false => exact ⟨'f', _, rfl, by decide⟩
  | number h =>
    obtain ⟨c, cs, hwrite, hc⟩ := Number.write_starts h
    refine ⟨c, cs, by rw [write, hwrite], ?_⟩
    rcases hc with hc | rfl
    · exact starts_of_isDigit hc
    · decide
  | string text => exact ⟨'"', _, by rw [write, writeString]; rfl, by decide⟩
  | array =>
    obtain ⟨cs, hcs⟩ := enclose_starts layout depth '[' ']' _
    exact ⟨'[', cs, by rw [write, hcs], by decide⟩
  | object =>
    obtain ⟨cs, hcs⟩ := enclose_starts layout depth '\x7b' '\x7d' _
    exact ⟨'\x7b', cs, by rw [write, hcs], by decide⟩

/-- What starts with none of the other values' characters is taken for a number. -/
theorem value_number {n : Number} (h : n.Proper) (fuel : Nat) (hrest : EndsNumber rest) :
    value (fuel + 1) (n.write ++ rest) = some (.number n, rest) := by
  have hread := number_write h hrest
  obtain ⟨c, cs, hwrite, hc⟩ := Number.write_starts h
  have hother : c ≠ 'n' ∧ c ≠ 't' ∧ c ≠ 'f' ∧ c ≠ '"' ∧ c ≠ '[' ∧ c ≠ '\x7b' := by
    refine ⟨?_, ?_, ?_, ?_, ?_, ?_⟩ <;>
      · rintro rfl
        revert hc
        decide
  rw [hwrite, List.cons_append] at hread ⊢
  rw [value, bind_eq_of_eq _ (peek_cons _ _)]
  refine (congrFun (?_ : _ = (do return .number (← number) : Reader Value)) _).trans
    (bind_eq_of_eq _ hread)
  split <;> simp_all

/-- A member is read with its name and its value. -/
theorem reads_member {layout : Layout} (hl : layout.Blank) (depth fuel : Nat)
    {m : Option String × Value} (hname : m.1.isSome = true)
    (h : Reads (value fuel) (m.2.write layout depth) m.2) :
    Reads (member (value fuel)) (memberText layout depth m) m := by
  obtain ⟨name, v⟩ := m
  obtain ⟨name, rfl⟩ := Option.isSome_iff_exists.mp hname
  refine ⟨⟨'"', _, by rw [memberText, writeString]; rfl, by decide⟩, fun rest hrest => ?_⟩
  obtain ⟨blanks, hcolon, hblanks⟩ := hl.colon
  obtain ⟨c, cs, htext, hgap, -⟩ := h.starts
  have hblank : gap (blanks ++ (v.write layout depth ++ rest)) =
      some ((), v.write layout depth ++ rest) := by
    refine gap_append hblanks fun d hd => ?_
    rw [htext] at hd
    cases hd
    exact hgap
  rw [memberText, List.append_assoc, List.append_assoc, member,
    bind_eq_of_eq _ (string_writeString _ _), hcolon, List.cons_append,
    bind_eq_of_eq _ (gap_cons rfl _), bind_eq_of_eq _ (char_cons _ _), bind_eq_of_eq _ hblank,
    bind_eq_of_eq _ (h.read rest hrest)]
  rfl

theorem value_array {fuel : Nat} {items : List Value} {text : List Char}
    (h : Reader.items gap false (value fuel) ']' text = some (items, rest)) :
    value (fuel + 1) ('[' :: text) = some (.array items, rest) := by
  rw [value, bind_eq_of_eq _ (peek_cons _ _)]
  show (Reader.char '[' >>= _) ('[' :: text) = _
  rw [bind_eq_of_eq _ (char_cons _ _), bind_eq_of_eq _ h]
  rfl

theorem value_object {fuel : Nat} {members : List (Option String × Value)} {text : List Char}
    (h : Reader.items gap false (member (value fuel)) '\x7d' text = some (members, rest)) :
    value (fuel + 1) ('\x7b' :: text) = some (.object members, rest) := by
  rw [value, bind_eq_of_eq _ (peek_cons _ _)]
  show (Reader.char '\x7b' >>= _) ('\x7b' :: text) = _
  rw [bind_eq_of_eq _ (char_cons _ _), bind_eq_of_eq _ h]
  rfl

theorem value_string (fuel : Nat) (text : String) (rest : List Char) :
    value (fuel + 1) (writeString (some text) ++ rest) = some (.string (some text), rest) := by
  have hread := string_writeString text rest
  have hstarts : writeString (some text) ++ rest =
      '"' :: (text.toList.flatMap escapedChar ++ '"' :: rest) := by
    simp [writeString]
  rw [hstarts] at hread ⊢
  rw [value, bind_eq_of_eq _ (peek_cons _ _)]
  show (string >>= _) ('"' :: (text.toList.flatMap escapedChar ++ '"' :: rest)) = _
  rw [bind_eq_of_eq _ hread]
  rfl

theorem value_word_null (fuel : Nat) (rest : List Char) :
    value (fuel + 1) (['n', 'u', 'l', 'l'] ++ rest) = some (.null, rest) := rfl

theorem value_word_boolean (fuel : Nat) (b : Bool) (layout : Layout) (depth : Nat)
    (rest : List Char) :
    value (fuel + 1) ((Value.boolean b).write layout depth ++ rest) =
      some (.boolean b, rest) := by
  cases b <;> rfl

/-- A value is read back by a reader that allows as much depth as the text is long. -/
theorem reads_write {layout : Layout} (hl : layout.Blank) (fuel : Nat) {v : Value} (depth : Nat)
    (h : v.Proper) (hfuel : (v.write layout depth).length ≤ fuel) :
    Reads (value fuel) (v.write layout depth) v := by
  induction fuel generalizing v depth with
  | zero =>
    obtain ⟨c, cs, hwrite, -⟩ := v.write_starts layout depth h
    rw [hwrite] at hfuel
    cases hfuel
  | succ fuel ih =>
    refine ⟨v.write_starts layout depth h, fun rest hrest => ?_⟩
    cases h with
    | null => rw [Value.write, value_word_null]
    | boolean b => exact value_word_boolean fuel b layout depth rest
    | number h =>
      rw [Value.write]
      exact value_number h fuel hrest.endsNumber
    | string text =>
      rw [Value.write]
      exact value_string fuel text rest
    | @array items h =>
      rw [Value.write, writeItems_eq_map] at hfuel ⊢
      have hparts : List.Forall₂ (Reads (value fuel)) (items.map (·.write layout (depth + 1)))
          items := by
        refine List.forall₂_map_left_iff.mpr (List.forall₂_same.mpr fun v hv => ?_)
        have hlt := length_lt_enclose layout depth '[' ']'
          (List.mem_map_of_mem (f := (·.write layout (depth + 1))) hv)
        exact ih (depth + 1) (h v hv) (by omega)
      obtain ⟨text, htext, hitems⟩ := items_enclose hl depth '[' (Or.inl rfl) hparts rest
      rw [htext]
      exact value_array hitems
    | @object members hnames h =>
      rw [Value.write, writeMembers_eq_map] at hfuel ⊢
      have hparts : List.Forall₂ (Reads (member (value fuel)))
          (members.map (memberText layout (depth + 1))) members := by
        refine List.forall₂_map_left_iff.mpr (List.forall₂_same.mpr fun m hm => ?_)
        have hlt := length_lt_enclose layout depth '\x7b' '\x7d'
          (List.mem_map_of_mem (f := memberText layout (depth + 1)) hm)
        have hle : (m.2.write layout (depth + 1)).length ≤
            (memberText layout (depth + 1) m).length := by
          simp only [memberText, List.length_append]
          omega
        exact reads_member hl (depth + 1) fuel (hnames m hm) (ih (depth + 1) (h m hm) (by omega))
      obtain ⟨text, htext, hitems⟩ := items_enclose hl depth '\x7b' (Or.inr rfl) hparts rest
      rw [htext]
      exact value_object hitems

/-- A whole document is read back. -/
theorem read?_write {layout : Layout} (hl : layout.Blank) {v : Value} (h : v.Proper) :
    read? (v.write layout 0) = some v := by
  obtain ⟨c, cs, htext, hgap, -⟩ := v.write_starts layout 0 h
  have hfirst : gap (v.write layout 0) = some ((), v.write layout 0) := by
    rw [htext]
    exact gap_cons hgap cs
  have hread := (reads_write hl (v.write layout 0).length 0 h (Nat.le_refl _)).read []
    (fun _ hc => nomatch hc)
  rw [List.append_nil] at hread
  rw [read?, bind_eq_of_eq _ hfirst, bind_eq_of_eq _ hread]
  rfl

end Json
end EvalDiff
