import EvalDiff.Proofs.Toml.Escapes
import Mathlib.Data.List.TakeWhile

/-!
# Strings on several lines

Quotes for several lines hold quotation marks as long as no three stand in a row.  Everything else
between them stands in pieces, each of which one turn of the reader takes; when nothing but
quotation marks is left, the closing ones take them along.
-/

namespace EvalDiff
namespace Toml

open Text Reader

variable {c q : Char} {cs ds rest piece text written : List Char} {run : Nat}

/-! ### Blanks and line breaks -/

/-- A line break of either kind. -/
inductive LineBreak : List Char → Prop where
  | newline : LineBreak ['\n']
  | withReturn : LineBreak ['\r', '\n']

theorem LineBreak.read (h : LineBreak ds) (rest : List Char) :
    Toml.newline (ds ++ rest) = some ((), rest) := by
  cases h <;> rfl

theorem LineBreak.exists_cons (h : LineBreak ds) :
    ∃ d more, ds = d :: more ∧ (d = '\n' ∨ d = '\r') := by
  cases h with
  | newline => exact ⟨_, _, rfl, Or.inl rfl⟩
  | withReturn => exact ⟨_, _, rfl, Or.inr rfl⟩

theorem newline_eq_none (hnewline : c ≠ '\n') (hreturn : c ≠ '\r') (cs : List Char) :
    newline (c :: cs) = none := by
  unfold newline
  split <;> simp_all

theorem gap_append (hds : ∀ c ∈ ds, isSpace c = true)
    (hrest : ∀ c ∈ rest.head?, isSpace c = false) : gap (ds ++ rest) = some ((), rest) :=
  bind_eq_of_eq _ (congrArg some (span_append hds hrest))

theorem gap_of_head (h : ∀ c ∈ cs.head?, isSpace c = false) : gap cs = some ((), cs) :=
  gap_append (List.forall_mem_nil _) h

theorem ne_newline_of_isPlain (h : isPlain c = true) : c ≠ '\n' ∧ c ≠ '\r' := by
  constructor <;> (rintro rfl; simp [isPlain] at h)

/-- A text that no blank and no line break starts. -/
def StartsFull (cs : List Char) : Prop := ∀ c ∈ cs.head?, isSpace c = false ∧ c ≠ '\n' ∧ c ≠ '\r'

theorem StartsFull.newline_eq_none (h : StartsFull cs) : newline cs = none := by
  cases cs with
  | nil => rfl
  | cons c cs => exact Toml.newline_eq_none (h c rfl).2.1 (h c rfl).2.2 cs

/-- Blanks and line breaks, which a backslash at the end of a line takes along. -/
inductive Void : List Char → Prop where
  | nil : Void []
  | space {c : Char} {cs : List Char} (hc : isSpace c = true) (h : Void cs) : Void (c :: cs)
  | lineBreak {ds cs : List Char} (hds : LineBreak ds) (h : Void cs) : Void (ds ++ cs)

theorem Void.turns (h : Void cs) (hrest : StartsFull rest) :
    ∃ units, Turns lineJoin.newlineOrSpace (cs ++ rest) units rest := by
  induction h with
  | nil =>
    have hspace : satisfy isSpace rest = none := by
      cases rest with
      | nil => rfl
      | cons c rest => exact if_neg (by simp [(hrest c rfl).1])
    exact ⟨[], .done ((orElse_eq_of_none _ hrest.newline_eq_none).trans (bind_eq_none _ hspace))⟩
  | @space c cs hc _ ih =>
    obtain ⟨units, ih⟩ := ih
    have hne : c ≠ '\n' ∧ c ≠ '\r' := by
      constructor <;> rintro rfl <;> simp [isSpace] at hc
    have hnewline : newline (c :: (cs ++ rest)) = none := Toml.newline_eq_none hne.1 hne.2 _
    refine ⟨() :: units, .turn ?_ (Nat.lt_succ_self _) ih⟩
    exact (orElse_eq_of_none _ hnewline).trans (bind_eq_of_eq _ (satisfy_cons hc _))
  | @lineBreak ds cs hds _ ih =>
    obtain ⟨units, ih⟩ := ih
    obtain ⟨d, more, hcons, -⟩ := hds.exists_cons
    rw [List.append_assoc]
    refine ⟨() :: units, .turn (orElse_eq_of_eq _ (hds.read _)) ?_ ih⟩
    simp only [hcons, List.cons_append, List.length_cons, List.length_append]
    omega

/-- A backslash joins the lines around it, with the blanks at the start of the next ones. -/
theorem lineJoin_append {spaces void : List Char} (hspaces : ∀ c ∈ spaces, isSpace c = true)
    (hbreak : LineBreak ds) (hvoid : Void void) (hrest : StartsFull rest) :
    lineJoin ('\\' :: (spaces ++ (ds ++ (void ++ rest)))) = some ((), rest) := by
  obtain ⟨d, more, hcons, hd⟩ := hbreak.exists_cons
  obtain ⟨units, hturns⟩ := hvoid.turns hrest
  have hhead : ∀ c ∈ (ds ++ (void ++ rest)).head?, isSpace c = false := by
    rw [hcons]
    rcases hd with rfl | rfl <;> simp [isSpace]
  exact (bind_eq_of_eq _ (char_cons _ _)).trans ((bind_eq_of_eq _ (gap_append hspaces hhead)).trans
    ((bind_eq_of_eq _ (hbreak.read _)).trans (bind_eq_of_eq _ hturns.many)))

/-- A backslash that starts an escape does not join two lines. -/
theorem lineJoin_eq_none (h : escape cs = some (c, rest)) : lineJoin cs = none := by
  match cs with
  | [] => cases h
  | [d] =>
    by_cases hd : d = '\\'
    · subst d
      cases h
    · rw [escape_eq_none hd] at h
      cases h
  | d :: e :: cs =>
    by_cases hd : d = '\\'
    · subst d
      have hspace : e ≠ ' ' ∧ e ≠ '\t' ∧ e ≠ '\n' ∧ e ≠ '\r' := by
        refine ⟨?_, ?_, ?_, ?_⟩ <;> (rintro rfl; cases h)
      have hgap : gap (e :: cs) = some ((), e :: cs) := gap_of_head (by simp [isSpace, hspace])
      have hnewline := newline_eq_none hspace.2.2.1 hspace.2.2.2 cs
      exact (bind_eq_of_eq _ (char_cons _ _)).trans
        ((bind_eq_of_eq _ hgap).trans (bind_eq_none _ hnewline))
    · exact bind_eq_none _ (char_cons_of_ne hd _)

theorem Stands.newline_eq_none (h : Stands c piece) (rest : List Char) :
    newline (piece ++ rest) = none := by
  cases h with
  | escaped => exact Toml.newline_eq_none (by decide) (by decide) _
  | plain hplain =>
    obtain ⟨hnewline, hreturn⟩ := ne_newline_of_isPlain hplain
    exact Toml.newline_eq_none hnewline hreturn rest

theorem Stands.lineJoin_eq_none (h : Stands c piece) (rest : List Char) :
    lineJoin (piece ++ rest) = none := by
  cases h with
  | escaped h => exact Toml.lineJoin_eq_none (h.escape rest)
  | plain _ hslash => exact bind_eq_none _ (char_cons_of_ne hslash rest)

/-! ### The end of a string on several lines -/

/-- Quotation marks right before the closing ones belong to the text. -/
theorem closeLong_eq_some (hds : ∀ c ∈ ds, c = q) (hlength : ds.length ≤ 2)
    (hrest : rest.head? ≠ some q) : closeLong q (ds ++ ([q, q, q] ++ rest)) = some (ds, rest) := by
  have hspan : ((ds ++ [q, q, q]) ++ rest).span (· == q) = (ds ++ [q, q, q], rest) := by
    refine span_append (fun c hc => ?_) (fun c hc => ?_)
    · rcases List.mem_append.mp hc with hc | hc
      · simp [hds c hc]
      · simp_all
    · have hne : c ≠ q := fun heq => hrest (heq ▸ hc)
      simp [hne]
  rw [List.span_eq_takeWhile_dropWhile, Prod.mk.injEq] at hspan
  have hrun : (ds ++ [q, q, q]).length = ds.length + 3 := List.length_append
  have hkept : min (ds.length + 3) 5 - 3 = ds.length := by omega
  have hreplicate : List.replicate ds.length q = ds :=
    (List.eq_replicate_iff.mpr ⟨rfl, hds⟩).symm
  rw [closeLong, ← List.append_assoc, hspan.1, hrun]
  simp only [hkept, hreplicate, List.drop_left' hrun]
  exact if_neg (by omega)

/-- Too few quotation marks do not close a string. -/
theorem closeLong_eq_none (hlead : (ds.takeWhile (· == q)).length ≤ 2)
    (hother : ∃ c ∈ ds, c ≠ q) (rest : List Char) : closeLong q (ds ++ rest) = none := by
  have hshort : (ds.takeWhile (· == q)).length ≠ ds.length := by
    intro hlength
    have hself := (List.takeWhile_prefix (· == q)).eq_of_length hlength
    obtain ⟨c, hc, hne⟩ := hother
    exact hne (by simpa using List.takeWhile_eq_self_iff.mp hself c hc)
  rw [closeLong, List.takeWhile_append, if_neg hshort]
  exact if_pos (by omega)

/-- As long as no three quotation marks stand at the front of a text, the closing ones are found
where nothing but such marks is left of it, and not before. -/
theorem closeLong_append (hhead : (ds.takeWhile (· == q)).length ≤ 2)
    (hrest : rest.head? ≠ some q) :
    (∀ c ∈ ds, c = q) ∧ closeLong q (ds ++ ([q, q, q] ++ rest)) = some (ds, rest) ∨
      closeLong q (ds ++ ([q, q, q] ++ rest)) = none := by
  by_cases hall : ∀ c ∈ ds, c = q
  · rw [List.takeWhile_eq_self_iff.mpr (by simpa using hall)] at hhead
    exact Or.inl ⟨hall, closeLong_eq_some hall hhead hrest⟩
  · have hother : ∃ c ∈ ds, c ≠ q := by
      simpa only [Classical.not_forall, exists_prop] using hall
    exact Or.inr (closeLong_eq_none hhead hother _)

/-! ### What stands between quotes for several lines -/

/-- A text as it may be written between quotes for several lines, behind `run` quotation marks.
`piece` tells what else may stand there: characters, the text they stand for, and what they stand
in front of. -/
inductive Long (q : Char) (piece : List Char → List Char → List Char → Prop) :
    Nat → List Char → List Char → Prop where
  | nil {run : Nat} : Long q piece run [] []
  | quote {run : Nat} {written cs : List Char} (hrun : run < 2)
    (h : Long q piece (run + 1) written cs) : Long q piece run (q :: written) (q :: cs)
  | other {run : Nat} {front text written cs : List Char} (hpiece : piece front text written)
    (h : Long q piece 0 written cs) : Long q piece run (front ++ written) (text ++ cs)

/-- A reader of single pieces takes what stands between quotes for several lines. -/
structure ReadsPieces (q : Char) (piece : List Char → List Char → List Char → Prop)
    (r : Reader (List Char)) : Prop where
  quote : ∀ rest, r (q :: rest) = some ([q], rest)
  other : ∀ front text written rest, piece front text written →
    r (front ++ (written ++ ([q, q, q] ++ rest))) = some (text, written ++ ([q, q, q] ++ rest))
  exists_cons : ∀ front text written, piece front text written →
    ∃ d ds, front = d :: ds ∧ d ≠ q

variable {pieces : List Char → List Char → List Char → Prop} {r : Reader (List Char)}

/-- With the quotation marks before it, a text never starts with three of them. -/
theorem Long.head_le (hr : ReadsPieces q pieces r) (h : Long q pieces run written cs) :
    (written.takeWhile (· == q)).length ≤ 2 - run := by
  induction h with
  | nil => exact Nat.zero_le _
  | quote hrun _ ih =>
    simp
    omega
  | other hpiece =>
    obtain ⟨d, ds, hfront, hd⟩ := hr.exists_cons _ _ _ hpiece
    simp [hfront, hd]

theorem Long.eq_of_quotes (hr : ReadsPieces q pieces r) (h : Long q pieces run written cs)
    (hall : ∀ c ∈ written, c = q) : written = cs := by
  induction h with
  | nil => rfl
  | quote _ _ ih => rw [ih fun c hc => hall c (List.mem_cons_of_mem _ hc)]
  | other hpiece =>
    obtain ⟨d, ds, hfront, hd⟩ := hr.exists_cons _ _ _ hpiece
    exact absurd (hall d (by simp [hfront])) hd

theorem Long.scans (hr : ReadsPieces q pieces r) (h : Long q pieces run written cs)
    (hrest : rest.head? ≠ some q) :
    ∃ texts kept, texts.flatten ++ kept = cs ∧
      Scans (closeLong q) r (written ++ ([q, q, q] ++ rest)) texts kept rest := by
  induction h with
  | nil => exact ⟨[], [], rfl, .done (closeLong_eq_some nofun (Nat.zero_le 2) hrest)⟩
  | @quote run written cs hrun h ih =>
    obtain ⟨texts, kept, hcs, hscans⟩ := ih
    have hlong : Long q pieces run (q :: written) (q :: cs) := .quote hrun h
    have hhead := Nat.le_trans (hlong.head_le hr) (Nat.sub_le 2 run)
    rcases closeLong_append hhead hrest with ⟨hall, hclose⟩ | hclose
    -- The closing quotation marks take those right before them along.
    · exact ⟨[], _, hlong.eq_of_quotes hr hall, .done hclose⟩
    · exact ⟨[q] :: texts, kept, by simp [hcs],
        .turn hclose (hr.quote _) (Nat.lt_succ_self _) hscans⟩
  | @other run front text written cs hpiece h ih =>
    obtain ⟨texts, kept, hcs, hscans⟩ := ih
    obtain ⟨d, ds, hfront, hd⟩ := hr.exists_cons _ _ _ hpiece
    have hclose : closeLong q (front ++ written ++ ([q, q, q] ++ rest)) = none :=
      closeLong_eq_none (by simp [hfront, hd]) ⟨d, by simp [hfront], hd⟩ _
    rw [List.append_assoc] at hclose ⊢
    refine ⟨text :: texts, kept, by simp [hcs], .turn hclose (hr.other _ _ _ rest hpiece) ?_ hscans⟩
    simp only [hfront, List.cons_append, List.length_cons, List.length_append]
    omega

/-! ### Basic quotes on several lines -/

/-- A character, a line break, or a backslash at the end of a line. -/
inductive BasicPiece : List Char → List Char → List Char → Prop where
  | char {c : Char} {front written : List Char} (hc : Stands c front) : BasicPiece front [c] written
  | lineBreak {ds written : List Char} (hds : LineBreak ds) : BasicPiece ds ['\n'] written
  | join {spaces ds void written : List Char} (hspaces : ∀ c ∈ spaces, isSpace c = true)
    (hds : LineBreak ds) (hvoid : Void void) (hwritten : StartsFull written) :
    BasicPiece ('\\' :: (spaces ++ (ds ++ void))) [] written

theorem Stands.longBasicPiece (h : Stands c piece) (rest : List Char) :
    longBasicPiece (piece ++ rest) = some ([c], rest) :=
  (orElse_eq_of_none _ (bind_eq_none _ (h.lineJoin_eq_none rest))).trans
    ((orElse_eq_of_none _ (bind_eq_none _ (h.newline_eq_none rest))).trans
      (bind_eq_of_eq _ (h.basicPiece rest)))

theorem LineBreak.longBasicPiece (h : LineBreak ds) (rest : List Char) :
    longBasicPiece (ds ++ rest) = some (['\n'], rest) := by
  obtain ⟨d, more, hcons, hd⟩ := h.exists_cons
  have hslash : d ≠ '\\' := by rcases hd with rfl | rfl <;> decide
  have hjoin : lineJoin (ds ++ rest) = none := by
    rw [hcons]
    exact bind_eq_none _ (char_cons_of_ne hslash _)
  exact (orElse_eq_of_none _ (bind_eq_none _ hjoin)).trans
    (orElse_eq_of_eq _ (bind_eq_of_eq _ (h.read rest)))

theorem startsFull_append_quote (h : StartsFull written) (hq : q = '"' ∨ q = '\'')
    (rest : List Char) : StartsFull (written ++ q :: rest) := by
  cases written with
  | nil => rcases hq with rfl | rfl <;> simp [StartsFull, isSpace]
  | cons c cs => exact h

theorem readsPieces_basic : ReadsPieces '"' BasicPiece longBasicPiece where
  quote rest := rfl
  other front text written rest hpiece := by
    cases hpiece with
    | char hc => exact hc.longBasicPiece _
    | lineBreak hds => exact hds.longBasicPiece _
    | @join spaces ds void written hspaces hds hvoid hwritten =>
      have hstart := startsFull_append_quote hwritten (Or.inl rfl) ('"' :: '"' :: rest)
      have hjoin : lineJoin
          ('\\' :: (spaces ++ (ds ++ void)) ++ (written ++ (['"', '"', '"'] ++ rest))) =
            some ((), written ++ (['"', '"', '"'] ++ rest)) := by
        simpa using lineJoin_append hspaces hds hvoid hstart
      exact orElse_eq_of_eq _ (bind_eq_of_eq _ hjoin)
  exists_cons front text written hpiece := by
    cases hpiece with
    | char hc => exact hc.exists_cons
    | lineBreak hds =>
      obtain ⟨d, more, hcons, hd⟩ := hds.exists_cons
      exact ⟨d, more, hcons, by rcases hd with rfl | rfl <;> decide⟩
    | join => exact ⟨_, _, rfl, by decide⟩

theorem Long.longBasicBody (h : Long '"' BasicPiece 0 written cs) (hrest : rest.head? ≠ some '"') :
    longBasicBody (written ++ (['"', '"', '"'] ++ rest)) = some (cs, rest) := by
  obtain ⟨texts, kept, rfl, hscans⟩ := h.scans readsPieces_basic hrest
  exact bind_eq_of_eq _ hscans.untilClose

theorem long_longBasicText (hrun : run ≤ 2) (cs : List Char) :
    Long '"' BasicPiece run (longBasicText run cs) cs := by
  induction cs generalizing run with
  | nil => exact .nil
  | cons c cs ih =>
    unfold longBasicText
    by_cases hquote : c = '"'
    · subst c
      rw [if_pos rfl]
      split
      · exact .other (.char (.escaped .quote)) (ih (Nat.zero_le 2))
      · exact .quote (by omega) (ih (by omega))
    · have hpiece : BasicPiece (basicChar c) [c] (longBasicText 0 cs) := by
        by_cases hnewline : c = '\n'
        · subst c
          exact .lineBreak .newline
        · exact .char (stands_basicChar hquote hnewline)
      rw [if_neg hquote]
      exact .other hpiece (ih (Nat.zero_le 2))

/-! ### Literal quotes on several lines -/

/-- A character as it is, or a line break. -/
inductive LiteralPiece : List Char → List Char → List Char → Prop where
  | char {c : Char} {written : List Char} (hplain : isPlain c = true) (hquote : c ≠ '\'') :
    LiteralPiece [c] [c] written
  | lineBreak {ds written : List Char} (hds : LineBreak ds) : LiteralPiece ds ['\n'] written

theorem longLiteralPiece_cons (h : isPlain c = true) (rest : List Char) :
    longLiteralPiece (c :: rest) = some ([c], rest) := by
  obtain ⟨hnewline, hreturn⟩ := ne_newline_of_isPlain h
  exact (orElse_eq_of_none _ (bind_eq_none _ (newline_eq_none hnewline hreturn rest))).trans
    (bind_eq_of_eq _ (satisfy_cons h rest))

theorem readsPieces_literal : ReadsPieces '\'' LiteralPiece longLiteralPiece where
  quote rest := longLiteralPiece_cons rfl rest
  other front text written rest hpiece := by
    cases hpiece with
    | char hplain => exact longLiteralPiece_cons hplain _
    | lineBreak hds => exact orElse_eq_of_eq _ (bind_eq_of_eq _ (hds.read _))
  exists_cons front text written hpiece := by
    cases hpiece with
    | char _ hquote => exact ⟨_, _, rfl, hquote⟩
    | lineBreak hds =>
      obtain ⟨d, more, hcons, hd⟩ := hds.exists_cons
      exact ⟨d, more, hcons, by rcases hd with rfl | rfl <;> decide⟩

theorem Long.longLiteralBody (h : Long '\'' LiteralPiece 0 written cs)
    (hrest : rest.head? ≠ some '\'') :
    longLiteralBody (written ++ (['\'', '\'', '\''] ++ rest)) = some (cs, rest) := by
  obtain ⟨texts, kept, rfl, hscans⟩ := h.scans readsPieces_literal hrest
  exact bind_eq_of_eq _ hscans.untilClose

theorem le_longestRun (q : Char) (run : Nat) (cs : List Char) : run ≤ longestRun q run cs := by
  induction cs generalizing run with
  | nil => exact Nat.le_refl run
  | cons c cs ih =>
    unfold longestRun
    split
    · exact Nat.le_trans (Nat.le_succ run) (ih (run + 1))
    · exact Nat.le_max_left ..

theorem long_literal (hcs : ∀ c ∈ cs, isPlain c = true ∨ c = '\n')
    (hrun : longestRun '\'' run cs ≤ 2) : Long '\'' LiteralPiece run cs cs := by
  induction cs generalizing run with
  | nil => exact .nil
  | cons c cs ih =>
    obtain ⟨hc, hmore⟩ := List.forall_mem_cons.mp hcs
    unfold longestRun at hrun
    by_cases hquote : c = '\''
    · subst c
      rw [if_pos rfl] at hrun
      have hle := le_longestRun '\'' (run + 1) cs
      exact .quote (by omega) (ih hmore hrun)
    · have hpiece : LiteralPiece [c] [c] cs := by
        rcases hc with hplain | rfl
        · exact .char hplain hquote
        · exact .lineBreak .newline
      rw [if_neg hquote] at hrun
      exact .other hpiece (ih hmore (by omega))

end Toml
end EvalDiff
