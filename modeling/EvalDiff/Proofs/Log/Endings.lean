import EvalDiff.Program
import EvalDiff.Proofs.Log.File

/-!
# How lines end

A line of a file ends with a newline, with a carriage return and a newline, or with the file.
Which of them it is leaves no trace in the lines that are read, `linesOf_of_holds`, and so none in
what a comparison of two files comes to: `endings_make_no_difference`.  A line that ends in a
carriage return of its own is left out, since that would be taken for a part of the ending.
-/

namespace EvalDiff
namespace Log

open CommandLine Comparison Disk Program Text

/-- How a line ends. -/
inductive Ending where
  | newline
  | returnAndNewline
deriving DecidableEq, Repr

def Ending.octets : Ending → List UInt8
  | .newline => [0x0a]
  | .returnAndNewline => [0x0d, 0x0a]

/-- What stands of an ending in front of the newline. -/
def Ending.mark : Ending → List UInt8
  | .newline => []
  | .returnAndNewline => [0x0d]

theorem Ending.octets_append (e : Ending) (bytes : List UInt8) :
    e.octets ++ bytes = e.mark ++ 0x0a :: bytes := by
  cases e <;> rfl

/-- Octets made of lines, each of which has an ending.  The last one may go without if it is not
empty. -/
inductive Holds : List UInt8 → List (List UInt8) → Prop where
  | nothing : Holds [] []
  | unended {line : List UInt8} (h : line ≠ []) : Holds line [line]
  | ended {bytes line : List UInt8} {lines : List (List UInt8)} (e : Ending)
    (h : Holds bytes lines) : Holds (line ++ (e.octets ++ bytes)) (line :: lines)

/-- Nothing in a line is taken for its ending. -/
structure Unbroken {α : Type} (newline carriageReturn : α) (line : List α) : Prop where
  newline : newline ∉ line
  last : line.getLast? ≠ some carriageReturn

/-- The octets of a line. -/
def octets (line : String) : List UInt8 := encode line.toList

variable {bytes bytes' line : List UInt8} {lines : List (List UInt8)} {cs : List Char}
  {path path' : String} {t t' : Tree}

/-! ### Lines of octets and of characters -/

theorem exists_return_of_encode {front : List UInt8} (h : encode cs = front ++ [0x0d]) :
    ∃ ds, front = encode ds ∧ cs = ds ++ ['\r'] := by
  obtain ⟨ds, rfl⟩ := isUtf8_of_append_ascii (b := 0x0d) (by decide) ⟨cs, h.symm⟩
  refine ⟨ds, rfl, encode_injective ?_⟩
  rw [h, encode_append]
  rfl

theorem unbroken_encode_iff : Unbroken 0x0a 0x0d (encode cs) ↔ Unbroken '\n' '\r' cs := by
  constructor
  · refine fun h => ⟨fun hmem => ?_, fun hlast => ?_⟩
    · exact h.newline (List.mem_flatMap.mpr ⟨'\n', hmem, by decide⟩)
    · obtain ⟨front, rfl⟩ := List.getLast?_eq_some_iff.mp hlast
      refine h.last (List.getLast?_eq_some_iff.mpr ⟨encode front, ?_⟩)
      rw [encode_append]
      rfl
  · refine fun h => ⟨fun hmem => ?_, fun hlast => ?_⟩
    · obtain ⟨c, hc, hnewline⟩ := List.mem_flatMap.mp hmem
      rw [eq_of_mem_utf8EncodeChar (d := '\n') (by decide) hnewline] at hc
      exact h.newline hc
    · obtain ⟨front, hfront⟩ := List.getLast?_eq_some_iff.mp hlast
      obtain ⟨ds, -, rfl⟩ := exists_return_of_encode hfront
      exact h.last (List.getLast?_concat ..)

/-! ### Lines of a file -/

theorem linesOfPieces_cons {pieces : List (List Char)} (h : pieces ≠ []) (line : List Char) :
    linesOfPieces (line :: pieces) = dropCarriageReturn line :: linesOfPieces pieces := by
  cases pieces with
  | nil => exact absurd rfl h
  | cons piece pieces => rfl

theorem readPieces_ne_nil {pieces : List (List UInt8)} {css : List (List Char)}
    (hne : pieces ≠ []) (h : readPieces pieces = .ok css) : css ≠ [] := by
  rintro rfl
  cases pieces with
  | nil => exact hne rfl
  | cons piece pieces =>
    rw [readPieces] at h
    split at h
    · cases h
    · cases hrest : readPieces pieces <;> rw [hrest] at h <;> cases h

/-- A piece and the lines of the pieces after it. -/
theorem map_linesOfPieces_cons {pieces : List (List UInt8)} (hne : pieces ≠ []) (cs : List Char) :
    (readPieces (encode cs :: pieces)).map linesOfPieces =
      (((readPieces pieces).map linesOfPieces).map (dropCarriageReturn cs :: ·)).mapError
        (· + 1) := by
  rw [readPieces_cons_of_isUtf8]
  cases hread : readPieces pieces with
  | error i => rfl
  | ok css =>
    exact congrArg Except.ok (linesOfPieces_cons (readPieces_ne_nil hne hread) cs)

/-- The mark of an ending is dropped from a line that is a text. -/
theorem exists_marked (h : Unbroken 0x0a 0x0d (encode cs)) (e : Ending) :
    ∃ ds, encode cs ++ e.mark = encode ds ∧ dropCarriageReturn ds = cs := by
  cases e with
  | newline =>
    exact ⟨cs, List.append_nil _, if_neg (unbroken_encode_iff.mp h).last⟩
  | returnAndNewline =>
    refine ⟨cs ++ ['\r'], by rw [encode_append]; rfl, ?_⟩
    rw [dropCarriageReturn, if_pos (List.getLast?_concat ..), List.dropLast_concat]

/-- And it does not make a text of a line that is none. -/
theorem not_isUtf8_marked (h : ¬ IsUtf8 line) (e : Ending) : ¬ IsUtf8 (line ++ e.mark) := by
  cases e with
  | newline => rwa [Ending.mark, List.append_nil]
  | returnAndNewline => exact mt (isUtf8_of_append_ascii (by decide)) h

theorem splitOn_ended (h : Unbroken 0x0a 0x0d line) (e : Ending) (bytes : List UInt8) :
    (line ++ (e.octets ++ bytes)).splitOn 0x0a = (line ++ e.mark) :: bytes.splitOn 0x0a := by
  have hmarked : 0x0a ∉ line ++ e.mark := by
    cases e <;> simpa [Ending.mark] using h.newline
  rw [Ending.octets_append, ← List.append_assoc,
    List.splitOn_append_cons_self_of_not_mem hmarked]

/-- The pieces between newlines make the lines, whatever the endings. -/
theorem map_linesOfPieces_of_holds (h : Holds bytes lines)
    (hlines : ∀ line ∈ lines, Unbroken 0x0a 0x0d line) :
    (readPieces (bytes.splitOn 0x0a)).map linesOfPieces = readPieces lines := by
  induction h with
  | nothing =>
    show (readPieces [encode []]).map linesOfPieces = _
    rw [readPieces_cons_of_isUtf8]
    rfl
  | @unended line hne =>
    rw [List.splitOn_eq_singleton (List.forall_mem_singleton.mp hlines).newline]
    by_cases hvalid : IsUtf8 line
    · obtain ⟨cs, rfl⟩ := hvalid
      rw [readPieces_cons_of_isUtf8]
      cases cs with
      | nil => exact absurd rfl hne
      | cons c cs => rfl
    · rw [readPieces_cons_of_not_isUtf8 hvalid]
      rfl
  | @ended bytes line lines e _ ih =>
    obtain ⟨hline, hrest⟩ := List.forall_mem_cons.mp hlines
    rw [splitOn_ended hline]
    by_cases hvalid : IsUtf8 line
    · obtain ⟨cs, rfl⟩ := hvalid
      obtain ⟨ds, hmarked, hds⟩ := exists_marked hline e
      rw [hmarked, map_linesOfPieces_cons (List.splitOn_ne_nil _ _), ih hrest, hds,
        readPieces_cons_of_isUtf8]
    · rw [readPieces_cons_of_not_isUtf8 (not_isUtf8_marked hvalid e),
        readPieces_cons_of_not_isUtf8 hvalid]
      rfl

theorem linesOf_of_holds (path : String) (h : Holds bytes lines)
    (hlines : ∀ line ∈ lines, Unbroken 0x0a 0x0d line) :
    linesOf path bytes = inFile path (readPieces lines) := by
  rw [linesOf_eq, map_linesOfPieces_of_holds h hlines]

theorem readPieces_map_encode (css : List (List Char)) : readPieces (css.map encode) = .ok css := by
  induction css with
  | nil => rfl
  | cons cs css ih =>
    rw [List.map_cons, readPieces_cons_of_isUtf8, ih]
    rfl

theorem linesOf_of_holds_octets {rows : List String} (path : String)
    (h : Holds bytes (rows.map octets)) (hrows : ∀ row ∈ rows, Unbroken '\n' '\r' row.toList) :
    linesOf path bytes = .ok rows := by
  have hlines : ∀ line ∈ rows.map octets, Unbroken 0x0a 0x0d line := by
    rw [List.forall_mem_map]
    exact fun row hrow => unbroken_encode_iff.mpr (hrows row hrow)
  have hmap : rows.map octets = (rows.map String.toList).map encode := by
    rw [List.map_map]
    rfl
  have hback : (rows.map String.toList).map String.ofList = rows := by simp [Function.comp_def]
  rw [linesOf_of_holds path h hlines, hmap, readPieces_map_encode]
  exact congrArg Except.ok hback

/-! ### Comparisons of files -/

/-- Two files with the same lines.  They need not have the same path, unless octets that are no
text are to be reported with it. -/
inductive SameLines (t t' : Tree) (path path' : String) : Prop where
  | intro {bytes bytes' : List UInt8} {lines : List (List UInt8)}
    (hread : t.read path = .ok bytes) (hread' : t'.read path' = .ok bytes')
    (hlines : ∀ line ∈ lines, Unbroken 0x0a 0x0d line) (h : Holds bytes lines)
    (h' : Holds bytes' lines) (hpath : path = path' ∨ IsUtf8 bytes) : SameLines t t' path path'

theorem SameLines.linesAt_eq (h : SameLines t t' path path') :
    linesAt t path = linesAt t' path' := by
  obtain ⟨hread, hread', hlines, hbytes, hbytes', hpath⟩ := h
  rw [linesAt_of_read hread, linesAt_of_read hread', linesOf_of_holds path hbytes hlines,
    linesOf_of_holds path' hbytes' hlines]
  rcases hpath with rfl | hvalid
  · rfl
  · rw [← map_linesOfPieces_of_holds hbytes hlines]
    cases hread : readPieces (List.splitOn 0x0a _) with
    | ok css => rfl
    | error i => exact absurd hvalid (readPieces_splitOn_eq_error_iff.mp ⟨i, hread⟩)

theorem result_report (t : Tree) (i : Invocation) (s : Settings) :
    result (report Tree.disk i s) t =
      (do
        let old ← linesAt t i.baseline
        let new ← linesAt t i.comparison
        Comparison.compare s.options old new, t) := by
  rw [report, readPair]
  simp only [result_bind, result_readLines]
  cases linesAt t i.baseline with
  | error e => rfl
  | ok old =>
    dsimp only
    cases linesAt t i.comparison <;> rfl

/-- Lines are read back from a file whatever their endings are, and two pairs of files with the
same lines come to the same report or the same error. -/
theorem endings_make_no_difference :
    (∀ (t : Tree) (path : String) (bytes : List UInt8) (rows : List String),
      t.read path = .ok bytes → (∀ row ∈ rows, Unbroken '\n' '\r' row.toList) →
        Holds bytes (rows.map octets) → Yields (readLines Tree.disk path) t rows t) ∧
      ∀ (t t' : Tree) (i i' : Invocation) (s : Settings),
        SameLines t t' i.baseline i'.baseline → SameLines t t' i.comparison i'.comparison →
          (result (report Tree.disk i s) t).1 = (result (report Tree.disk i' s) t').1 := by
  constructor
  · intro t path bytes rows hread hrows hholds
    exact (yields_readLines_iff hread).mpr (linesOf_of_holds_octets path hholds hrows)
  · intro t t' i i' s hbaseline hcomparison
    rw [result_report, result_report, hbaseline.linesAt_eq, hcomparison.linesAt_eq]

/-- An empty line, a carriage return inside a line, and a last line with and without an ending. -/
theorem endings_make_no_difference_three_lines :
    let rows := ["map\tq\r1\t0.5", "", "map\tq2\té"]
    let old := encode "map\tq\r1\t0.5\r\n\nmap\tq2\té".toList
    let new := encode "map\tq\r1\t0.5\n\r\nmap\tq2\té\r\n".toList
    let t : Tree :=
      { nodes := [(["old.eval"], .file old), (["new.eval"], .file new)], workingDirectory := [] }
    let i : Invocation := ⟨"old.eval", "old.eval", none, none, none, none, none, none, false⟩
    let i' : Invocation := { i with baseline := "new.eval", comparison := "new.eval" }
    Yields (readLines Tree.disk "old.eval") t rows t ∧
      Yields (readLines Tree.disk "new.eval") t rows t ∧
      (result (report Tree.disk i {}) t).1 = (result (report Tree.disk i' {}) t).1 := by
  intro rows old new t i i'
  have hold : t.read "old.eval" = .ok old := rfl
  have hnew : t.read "new.eval" = .ok new := rfl
  have hrows : ∀ row ∈ rows, Unbroken '\n' '\r' row.toList := by
    simp only [rows, List.forall_mem_cons]
    exact ⟨⟨by decide, by decide⟩, ⟨by decide, by decide⟩, ⟨by decide, by decide⟩, nofun⟩
  have hlines : ∀ line ∈ rows.map octets, Unbroken 0x0a 0x0d line := by
    rw [List.forall_mem_map]
    exact fun row hrow => unbroken_encode_iff.mpr (hrows row hrow)
  have hholds : Holds old (rows.map octets) := by
    have h : Holds _ (rows.map octets) :=
      .ended .returnAndNewline (.ended .newline (.unended (by decide)))
    exact h
  have hholds' : Holds new (rows.map octets) := by
    have h : Holds _ (rows.map octets) :=
      .ended .newline (.ended .returnAndNewline (.ended .returnAndNewline .nothing))
    exact h
  have hsame : SameLines t t "old.eval" "new.eval" :=
    .intro hold hnew hlines hholds hholds' (Or.inr ⟨_, rfl⟩)
  obtain ⟨hread, hreport⟩ := endings_make_no_difference
  exact ⟨hread t _ old rows hold hrows hholds, hread t _ new rows hnew hrows hholds',
    hreport t t i i' {} hsame hsame⟩

end Log
end EvalDiff
