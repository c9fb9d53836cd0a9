import Mathlib.Data.List.Forall2
import EvalDiff.Proofs.Report.Canonical
import EvalDiff.Proofs.Text.Pieces
import EvalDiff.Report.Format

/-!
# Reading a line stream

The entries of a stream take one line or three, and nothing marks where one ends.  The second
line of a changed entry is the word for its verdict, and no other line but a category can be such
a word: the amounts are no words of that kind.  So without categories of that kind, and without
newlines in them, the stream is read back entry by entry: `equal_streams_tell_the_same`.
-/

namespace EvalDiff
namespace Report

open Binary64 Decimal Text

/-! ### The reader -/

/-- What a stream tells of an entry: the category, and of a changed one the verdict and the text of
the delta. -/
structure Told where
  category : String
  change : Option (Verdict × String)
deriving DecidableEq, Repr

def Entry.told (e : Entry) : Told :=
  { category := e.category
    change := if e.verdict = .unchanged then none else some (e.verdict, amount e.delta) }

/-- The verdict that a line is the word for, if it is one of the two that stand in a stream. -/
def changeOfLine? (line : String) : Option Verdict :=
  [Verdict.better, .worse].find? (·.label == line)

/-- The entries that the lines of a stream tell of, and the text of the ratio, which is the last
line.  A category is followed by two more lines of its entry exactly if the next line is the word
for a change. -/
def readStream : List String → Option (List Told × String)
  | [] => none
  | [ratio] => some ([], ratio)
  | category :: next :: rest =>
    match changeOfLine? next with
    | none => (readStream (next :: rest)).map fun (told, ratio) => (⟨category, none⟩ :: told, ratio)
    | some verdict =>
      match rest with
      | [] => none
      | delta :: rest =>
        (readStream rest).map fun (told, ratio) =>
          (⟨category, some (verdict, delta)⟩ :: told, ratio)

/-- The lines of a text that has a newline after each of them. -/
def linesOfStream (text : String) : List String :=
  (splitOn '\n' text.toList).dropLast.map String.ofList

/-- The categories are no words for a change and stand on one line. -/
def Legible (r : Report) : Prop :=
  ∀ e ∈ r.entries, '\n' ∉ e.category.toList ∧ e.category ≠ "better" ∧ e.category ≠ "worse"

instance (r : Report) : Decidable r.Legible := List.decidableBAll _ r.entries

variable {r s : Report} {entries : List Entry} {e : Entry} {line : String} {c : Char}

/-! ### Amounts as lines -/

theorem CanonicalMagnitude.mem {cs : List Char} (h : CanonicalMagnitude cs) (hc : c ∈ cs) :
    c.isDigit = true ∨ c ∈ ['.', 'e', '+', '-'] := by
  cases h with
  | fixed _ hwhole _ _ hfraction _ _ =>
    rcases List.mem_append.mp hc with hc | hc
    · exact .inl (hwhole c hc)
    · rcases List.mem_cons.mp hc with rfl | hc
      · simp
      · exact .inl (hfraction c hc)
  | scientific hfirst _ hfraction _ _ hsign hexponent _ =>
    rcases List.mem_append.mp hc with hc | hc
    · rcases mem_pointed hc with hc | rfl | hc
      · exact .inl (List.mem_singleton.mp hc ▸ hfirst)
      · simp
      · exact .inl (hfraction c hc)
    · rcases List.mem_cons.mp hc with rfl | hc
      · simp
      · rcases List.mem_cons.mp hc with rfl | hc
        · rcases hsign with rfl | rfl <;> simp
        · exact .inl (hexponent c hc)

theorem mem_amount {x : Binary64} (h : c ∈ (amount x).toList) :
    c.isDigit = true ∨ c ∈ ['.', 'e', '+', '-', 'i', 'n', 'f', 'a'] := by
  by_cases hfinite : x.isFinite = true
  · obtain ⟨negative, magnitude, htext, hmagnitude⟩ := isCanonical_amount hfinite
    rw [htext] at h
    rcases List.mem_append.mp h with h | h
    · cases negative with
      | false => cases h
      | true => simp [List.mem_singleton.mp h]
    · exact (hmagnitude.mem h).imp_right (List.mem_append_left ['i', 'n', 'f', 'a'])
  · cases x with
    | nan =>
      have htext : (amount .nan).toList = ['n', 'a', 'n'] := rfl
      have hsubset : ['n', 'a', 'n'] ⊆ ['.', 'e', '+', '-', 'i', 'n', 'f', 'a'] := by decide
      rw [htext] at h
      exact Or.inr (hsubset h)
    | number negative rank hle =>
      have htop : rank = topRank := by
        have hnot : ¬ rank < topRank := by simpa [isFinite] using hfinite
        omega
      have htext : (amount (.number negative rank hle)).toList =
          signText negative ++ ['i', 'n', 'f'] := by
        rw [amount, if_pos htop, String.toList_ofList]
      have hsubset : signText negative ++ ['i', 'n', 'f'] ⊆
          ['.', 'e', '+', '-', 'i', 'n', 'f', 'a'] := by
        cases negative <;> decide
      rw [htext] at h
      exact Or.inr (hsubset h)

theorem newline_not_mem_amount (x : Binary64) : '\n' ∉ (amount x).toList := by
  intro h
  have := mem_amount h
  revert this
  decide

theorem changeOfLine?_eq_none (h : line ≠ "better") (h' : line ≠ "worse") :
    changeOfLine? line = none := by
  simp [changeOfLine?, Verdict.label, h.symm, h'.symm]

theorem changeOfLine?_label {v : Verdict} (h : v ≠ .unchanged) :
    changeOfLine? v.label = some v := by
  cases v with
  | better | worse => rfl
  | unchanged => exact absurd rfl h

/-- An amount is no word for a change. -/
theorem changeOfLine?_amount (x : Binary64) : changeOfLine? (amount x) = none := by
  have hnot : ∀ (word : String) (c : Char), c ∈ word.toList → ¬ (c.isDigit = true ∨
      c ∈ ['.', 'e', '+', '-', 'i', 'n', 'f', 'a']) → amount x ≠ word := by
    rintro word c hmem hc rfl
    exact hc (mem_amount hmem)
  exact changeOfLine?_eq_none (hnot "better" 'b' (by decide) (by decide))
    (hnot "worse" 'w' (by decide) (by decide))

/-! ### Lines -/

theorem linesOfStream_join {lines : List String} (h : ∀ line ∈ lines, '\n' ∉ line.toList) :
    linesOfStream (String.join (lines.map (· ++ "\n"))) = lines := by
  rw [linesOfStream, String.toList_join, splitOn_eq]
  induction lines with
  | nil => rfl
  | cons line lines ih =>
    obtain ⟨hline, hlines⟩ := List.forall_mem_cons.mp h
    have hcut : (List.map (· ++ "\n") (line :: lines)).flatMap String.toList =
        line.toList ++ '\n' :: (List.map (· ++ "\n") lines).flatMap String.toList := by
      simp
    rw [hcut, List.splitOn_append_cons_self_of_not_mem hline,
      List.dropLast_cons_of_ne_nil (List.splitOn_ne_nil _ _), List.map_cons, ih hlines,
      String.ofList_toList]

theorem linesOfStream_stream (h : ∀ line ∈ streamLines r, '\n' ∉ line.toList) :
    linesOfStream (stream r) = streamLines r :=
  linesOfStream_join h

theorem newline_not_mem_entryLines (h : '\n' ∉ e.category.toList) :
    ∀ line ∈ entryLines e, '\n' ∉ line.toList := by
  have hlabel : ∀ v : Verdict, '\n' ∉ v.label.toList := by
    intro v
    cases v <;> decide
  rw [entryLines]
  split
  · simpa using h
  · simp only [List.forall_mem_cons]
    exact ⟨h, hlabel _, newline_not_mem_amount _, nofun⟩

theorem Legible.newline_not_mem (h : r.Legible) : ∀ line ∈ streamLines r, '\n' ∉ line.toList := by
  intro line hline
  rcases List.mem_append.mp hline with hline | hline
  · obtain ⟨e, he, hline⟩ := List.mem_flatMap.mp hline
    exact newline_not_mem_entryLines (h e he).1 line hline
  · rw [List.mem_singleton.mp hline]
    exact newline_not_mem_amount _

/-! ### Entries -/

/-- The line after an entry is no word for a change. -/
theorem exists_next_line
    (h : ∀ e ∈ entries, e.category ≠ "better" ∧ e.category ≠ "worse") (x : Binary64) :
    ∃ next rest, entries.flatMap entryLines ++ [amount x] = next :: rest ∧
      changeOfLine? next = none := by
  cases entries with
  | nil => exact ⟨_, [], rfl, changeOfLine?_amount x⟩
  | cons e entries =>
    obtain ⟨hbetter, hworse⟩ := h e List.mem_cons_self
    have hcategory := changeOfLine?_eq_none hbetter hworse
    rw [List.flatMap_cons, entryLines]
    split
    · exact ⟨_, _, rfl, hcategory⟩
    · exact ⟨_, _, rfl, hcategory⟩

theorem readStream_flatMap
    (h : ∀ e ∈ entries, e.category ≠ "better" ∧ e.category ≠ "worse") (x : Binary64) :
    readStream (entries.flatMap entryLines ++ [amount x]) =
      some (entries.map Entry.told, amount x) := by
  induction entries with
  | nil => rfl
  | cons e entries ih =>
    obtain ⟨-, hrest⟩ := List.forall_mem_cons.mp h
    have hread := ih hrest
    rw [List.flatMap_cons, entryLines, List.map_cons, Entry.told]
    by_cases hv : e.verdict = .unchanged
    · obtain ⟨next, rest, hlines, hnext⟩ := exists_next_line hrest x
      rw [hlines] at hread
      rw [if_pos hv, if_pos hv, List.append_assoc, hlines]
      simp [readStream, hnext, hread]
    · rw [if_neg hv, if_neg hv]
      simp [readStream, changeOfLine?_label hv, hread]

theorem length_flatMap_entryLines (entries : List Entry) :
    (entries.flatMap entryLines).length =
      entries.length + 2 * entries.countP (·.verdict != .unchanged) := by
  induction entries with
  | nil => rfl
  | cons e entries ih =>
    rw [List.flatMap_cons, List.length_append, ih, List.length_cons, List.countP_cons, entryLines]
    cases e.verdict with
    | better | worse | unchanged => simp; omega

/-- Two entries of which a stream tells the same. -/
structure Entry.SameTold (e f : Entry) : Prop where
  category : e.category = f.category
  verdict : e.verdict = f.verdict
  delta : e.verdict ≠ .unchanged → amount e.delta = amount f.delta

theorem sameTold_of_told_eq {f : Entry} (h : e.told = f.told) : e.SameTold f := by
  obtain ⟨hcategory, hchange⟩ := Told.mk.inj h
  by_cases hv : e.verdict = .unchanged
  · by_cases hv' : f.verdict = .unchanged
    · exact ⟨hcategory, hv.trans hv'.symm, absurd hv⟩
    · rw [if_pos hv, if_neg hv'] at hchange
      cases hchange
  · by_cases hv' : f.verdict = .unchanged
    · rw [if_neg hv, if_pos hv'] at hchange
      cases hchange
    · rw [if_neg hv, if_neg hv'] at hchange
      obtain ⟨hverdict, hdelta⟩ := Prod.mk.inj (Option.some.inj hchange)
      exact ⟨hcategory, hverdict, fun _ => hdelta⟩

/-! ### Whole streams -/

theorem Legible.readStream_render (h : r.Legible) (color : Bool) :
    readStream (linesOfStream (render .text color r)) =
      some (r.entries.map Entry.told, amount r.summary.ratio) := by
  show readStream (linesOfStream (stream r)) = _
  rw [linesOfStream_stream h.newline_not_mem, streamLines]
  exact readStream_flatMap (fun e he => (h e he).2) _

/-- Reports with the same stream have the same entries in the same order, as far as a stream tells
of them, and the same text of the ratio: the stream is read back line by line. -/
theorem equal_streams_tell_the_same (hr : r.Legible) (hs : s.Legible) (color color' : Bool) :
    (render .text color r = render .text color' s →
        r.entries.length = s.entries.length ∧ List.Forall₂ Entry.SameTold r.entries s.entries ∧
          amount r.summary.ratio = amount s.summary.ratio) ∧
      readStream (linesOfStream (render .text color r)) =
        some (r.entries.map Entry.told, amount r.summary.ratio) ∧
      (linesOfStream (render .text color r)).length =
        r.entries.length + 2 * r.entries.countP (·.verdict != .unchanged) + 1 := by
  refine ⟨fun h => ?_, hr.readStream_render color, ?_⟩
  · have hread := hr.readStream_render color
    rw [h, hs.readStream_render color'] at hread
    obtain ⟨htold, hratio⟩ := Prod.mk.inj (Option.some.inj hread)
    have hsame : List.Forall₂ Entry.SameTold r.entries s.entries := by
      have hforall : List.Forall₂ (· = ·) (r.entries.map Entry.told) (s.entries.map Entry.told) :=
        List.forall₂_eq_eq_eq ▸ htold.symm
      rw [List.forall₂_map_left_iff, List.forall₂_map_right_iff] at hforall
      exact hforall.imp fun _ _ => sameTold_of_told_eq
    exact ⟨hsame.length_eq, hsame, hratio.symm⟩
  · show (linesOfStream (stream r)).length = _
    rw [linesOfStream_stream hr.newline_not_mem, streamLines, List.length_append,
      length_flatMap_entryLines]
    rfl

/-- An empty category, one that looks like an amount, and one that is the word for no change.  The
deltas are neighbours with one text. -/
theorem equal_streams_tell_the_same_three_entries :
    let half := ofRank false 0x3fe0000000000000
    let above := ofRank false 0x3fe0000000000001
    let summary : Summary := { better := .one, worse := .one, unchanged := .zero, ratio := .one }
    let r : Report :=
      { metric := "map", summary
        entries :=
          [⟨1, "", .one, .one, .zero, .unchanged⟩, ⟨2, "0.5", .one, .one, half, .better⟩,
            ⟨4, "unchanged", .zero, .zero, .zero, .unchanged⟩] }
    let s : Report :=
      { metric := "P_10", summary
        entries :=
          [⟨2, "", .nan, .one, .zero, .unchanged⟩, ⟨3, "0.5", .zero, .one, above, .better⟩,
            ⟨5, "unchanged", .one, .one, .one, .unchanged⟩] }
    r.Legible ∧ s.Legible ∧ render .text false r = render .text true s ∧
      List.Forall₂ Entry.SameTold r.entries s.entries ∧
      readStream (linesOfStream (render .text false r)) =
        some ([⟨"", none⟩, ⟨"0.5", some (.better, "0.5")⟩, ⟨"unchanged", none⟩], "1.0") := by
  intro half above summary r s
  have hr : r.Legible := by decide +kernel
  have hs : s.Legible := by decide +kernel
  have hrender : render .text false r = render .text true s := by decide +kernel
  have htold : r.entries.map Entry.told =
      [⟨"", none⟩, ⟨"0.5", some (.better, "0.5")⟩, ⟨"unchanged", none⟩] := by decide +kernel
  have hratio : amount r.summary.ratio = "1.0" := by decide +kernel
  obtain ⟨hsame, hread, -⟩ := equal_streams_tell_the_same hr hs false true
  rw [htold, hratio] at hread
  exact ⟨hr, hs, hrender, (hsame hrender).2.1, hread⟩

end Report
end EvalDiff
