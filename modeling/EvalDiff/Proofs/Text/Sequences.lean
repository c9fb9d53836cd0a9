import EvalDiff.Text.Style

/-!
# Texts with escape sequences

A sequence goes from an escape and a bracket up to the next `m`.  A text with colours is another one
in which some parts stand between two sequences, one that switches something on and the one that
switches everything off.  Without its sequences it is that other text, and the sequences take turns:
`Colored.withoutSequences_eq` and `Colored.alternates`.
-/

namespace EvalDiff
namespace Text

variable {c : Char} {cs ds text codes : List Char} {style : Style} {n : Nat}

/-- What a terminal finds in a text. -/
inductive Piece where
  | shown (c : Char)
  | sequence (codes : List Char)

def Piece.char? : Piece → Option Char
  | .shown c => some c
  | .sequence _ => none

def Piece.codes? : Piece → Option (List Char)
  | .shown _ => none
  | .sequence codes => some codes

/-- The pieces of a text, in front of which a sequence may have been begun with the given codes.
One that does not end is none, and its characters are shown. -/
def piecesFrom : Option (List Char) → List Char → List Piece
  | none, [] => []
  | none, '\x1b' :: '[' :: cs => piecesFrom (some []) cs
  | none, c :: cs => .shown c :: piecesFrom none cs
  | some codes, [] => ('\x1b' :: '[' :: codes).map .shown
  | some codes, c :: cs =>
    if c = 'm' then .sequence codes :: piecesFrom none cs else piecesFrom (some (codes ++ [c])) cs

def pieces (cs : List Char) : List Piece := piecesFrom none cs

/-- The text with every sequence deleted. -/
def withoutSequences (cs : List Char) : List Char := (pieces cs).filterMap Piece.char?

/-- The codes of the sequences of a text. -/
def sequences (cs : List Char) : List (List Char) := (pieces cs).filterMap Piece.codes?

/-- Sequences each of which is followed by the one that switches everything off, before the next
one switches anything on. -/
inductive Alternates : List (List Char) → Prop where
  | nil : Alternates []
  | cons {codes : List Char} {rest : List (List Char)} (hcodes : codes ≠ ['0'])
    (hrest : Alternates rest) : Alternates (codes :: ['0'] :: rest)

theorem pieces_cons (hc : c ≠ '\x1b') (cs : List Char) :
    pieces (c :: cs) = .shown c :: pieces cs := by
  rw [pieces, piecesFrom]
  · rfl
  · rintro ds rfl
    exact absurd rfl hc

theorem pieces_append (htext : '\x1b' ∉ text) (cs : List Char) :
    pieces (text ++ cs) = text.map .shown ++ pieces cs := by
  induction text with
  | nil => rfl
  | cons c text ih =>
    obtain ⟨hc, htext⟩ := List.ne_and_not_mem_of_not_mem_cons htext
    rw [List.cons_append, pieces_cons hc.symm, ih htext]
    rfl

theorem piecesFrom_codes (hcodes : 'm' ∉ codes) (read cs : List Char) :
    piecesFrom (some read) (codes ++ 'm' :: cs) = .sequence (read ++ codes) :: pieces cs := by
  induction codes generalizing read with
  | nil =>
    rw [List.nil_append, List.append_nil, piecesFrom, if_pos rfl]
    rfl
  | cons c codes ih =>
    obtain ⟨hc, hcodes⟩ := List.ne_and_not_mem_of_not_mem_cons hcodes
    rw [List.cons_append, piecesFrom, if_neg hc.symm, ih hcodes, List.append_assoc]
    rfl

theorem pieces_sequence (hcodes : 'm' ∉ codes) (cs : List Char) :
    pieces ('\x1b' :: '[' :: (codes ++ 'm' :: cs)) = .sequence codes :: pieces cs :=
  piecesFrom_codes hcodes [] cs

theorem withoutSequences_append (htext : '\x1b' ∉ text) (cs : List Char) :
    withoutSequences (text ++ cs) = text ++ withoutSequences cs := by
  have hshown : (text.map Piece.shown).filterMap Piece.char? = text := by
    rw [List.filterMap_map]
    exact List.filterMap_some
  rw [withoutSequences, pieces_append htext, List.filterMap_append, hshown]
  rfl

theorem sequences_append (htext : '\x1b' ∉ text) (cs : List Char) :
    sequences (text ++ cs) = sequences cs := by
  have hnone : (text.map Piece.shown).filterMap Piece.codes? = [] := by
    rw [List.filterMap_map, List.filterMap_eq_nil_iff]
    exact fun _ _ => rfl
  rw [sequences, pieces_append htext, List.filterMap_append, hnone]
  rfl

theorem withoutSequences_sequence (hcodes : 'm' ∉ codes) (cs : List Char) :
    withoutSequences ('\x1b' :: '[' :: (codes ++ 'm' :: cs)) = withoutSequences cs := by
  rw [withoutSequences, pieces_sequence hcodes]
  rfl

theorem sequences_sequence (hcodes : 'm' ∉ codes) (cs : List Char) :
    sequences ('\x1b' :: '[' :: (codes ++ 'm' :: cs)) = codes :: sequences cs := by
  rw [sequences, pieces_sequence hcodes]
  rfl

example : pieces ['\x1b', '[', '1', ';', '3', 'm', 'a', '\x1b', '[', '0', 'm', '[', '0', 'm'] =
    [.sequence ['1', ';', '3'], .shown 'a', .sequence ['0'], .shown '[', .shown '0', .shown 'm'] :=
  rfl

/-- The first text is the second one with colours for so many parts of it. -/
inductive Colored : Nat → List Char → List Char → Prop where
  | nil : Colored 0 [] []
  | plain {n : Nat} {text cs ds : List Char} (htext : '\x1b' ∉ text) (h : Colored n cs ds) :
    Colored n (text ++ cs) (text ++ ds)
  | painted {n : Nat} {codes text cs ds : List Char} (hcodes : 'm' ∉ codes)
    (hopens : codes ≠ ['0']) (htext : '\x1b' ∉ text) (h : Colored n cs ds) :
    Colored (n + 1) ('\x1b' :: '[' :: (codes ++ 'm' :: (text ++ (Style.closing ++ cs))))
      (text ++ ds)

theorem Colored.append {m : Nat} {cs' ds' : List Char} (h : Colored n cs ds)
    (h' : Colored m cs' ds') : Colored (n + m) (cs ++ cs') (ds ++ ds') := by
  induction h with
  | nil => rwa [Nat.zero_add]
  | plain htext _ ih =>
    have hplain := Colored.plain htext ih
    simpa using hplain
  | painted hcodes hopens htext _ ih =>
    have hpainted := Colored.painted hcodes hopens htext ih
    rw [Nat.add_right_comm]
    simpa using hpainted

theorem colored_self (h : '\x1b' ∉ text) : Colored 0 text text := by
  have hplain := Colored.plain h .nil
  rwa [List.append_nil] at hplain

theorem Colored.withoutSequences_eq (h : Colored n cs ds) : withoutSequences cs = ds := by
  induction h with
  | nil => rfl
  | plain htext _ ih => rw [withoutSequences_append htext, ih]
  | painted hcodes _ htext _ ih =>
    rw [withoutSequences_sequence hcodes, withoutSequences_append htext]
    exact congrArg _ ih

theorem sequences_painted (hcodes : 'm' ∉ codes) (htext : '\x1b' ∉ text) (cs : List Char) :
    sequences ('\x1b' :: '[' :: (codes ++ 'm' :: (text ++ (Style.closing ++ cs)))) =
      codes :: ['0'] :: sequences cs := by
  rw [sequences_sequence hcodes, sequences_append htext]
  rfl

theorem Colored.alternates (h : Colored n cs ds) :
    Alternates (sequences cs) ∧ (sequences cs).length = 2 * n := by
  induction h with
  | nil => exact ⟨.nil, rfl⟩
  | plain htext _ ih => rwa [sequences_append htext]
  | painted hcodes hopens htext _ ih =>
    obtain ⟨halternates, hlength⟩ := ih
    rw [sequences_painted hcodes htext, List.length_cons, List.length_cons, hlength]
    exact ⟨.cons hopens halternates, rfl⟩

/-- The style switches something on, and its sequence ends where it is meant to. -/
def Style.Opens (style : Style) : Prop :=
  'm' ∉ (";".intercalate style).toList ∧ (";".intercalate style).toList ≠ ['0']

instance (style : Style) : Decidable style.Opens := instDecidableAnd

theorem reopened_eq (h : '\x1b' ∉ text) : Style.reopened style text = text := by
  induction text with
  | nil => rfl
  | cons c text ih =>
    obtain ⟨hc, htext⟩ := List.ne_and_not_mem_of_not_mem_cons h
    rw [Style.reopened, ih htext]
    rintro ds rfl
    exact absurd rfl hc

/-- A text without escapes is painted whole, with the padding that it has without colours. -/
theorem colored_paint (hstyle : style.Opens) {text : String} (h : '\x1b' ∉ text.toList)
    (width : Nat) :
    Colored 1 (Style.paint true style width text).toList
      (Style.paint false style width text).toList := by
  have hpadded : '\x1b' ∉ padRight width text.toList := by
    rw [padRight, List.rightpad, List.mem_append]
    exact not_or.mpr ⟨h, fun hmem => absurd (List.eq_of_mem_replicate hmem) (by decide)⟩
  have hpainted := Colored.painted hstyle.1 hstyle.2 hpadded .nil
  simpa [Style.paint, Style.opening, reopened_eq h] using hpainted

end Text
end EvalDiff
