import EvalDiff.Log.File
import EvalDiff.Proofs.Disk.Runs
import EvalDiff.Proofs.Disk.Tree
import EvalDiff.Proofs.Text.Pieces

/-!
# Files read as lines

The lines of a file are told by the pieces of its octets between newlines, each read on its own:
`linesOf_eq`.  So a file is refused for its octets exactly if one of the pieces is no text, and it
is the first such piece whose line is named: `notText_iff_first_invalid`.
-/

namespace EvalDiff
namespace Log

open Comparison Disk Text

variable {t : Tree} {path : String} {bytes : List UInt8} {pieces : List (List UInt8)}

/-- Lines as a file has them, or the error that names the file and the line at fault. -/
def inFile (path : String) (reading : Except Nat (List (List Char))) :
    Except Error (List String) :=
  (reading.map fun lines => lines.map String.ofList).mapError fun i => .notText path (i + 1)

theorem linesOf_eq (path : String) (bytes : List UInt8) :
    linesOf path bytes =
      inFile path ((readPieces (bytes.splitOn 0x0a)).map linesOfPieces) := by
  rw [readPieces_splitOn, linesOf, readWhole]
  cases decode bytes with
  | mk cs rest =>
    cases rest with
    | nil =>
      show Except.ok ((lines cs).map String.ofList) = _
      rw [lines_eq]
      rfl
    | cons b rest => rfl

/-- The lines of the file at a path. -/
def linesAt (t : Tree) (path : String) : Except Error (List String) :=
  match t.read path with
  | .ok bytes => linesOf path bytes
  | .error fault => .error (.unreadable path fault)

theorem result_readLines (t : Tree) (path : String) :
    result (readLines Tree.disk path) t = (linesAt t path, t) := by
  have hread : result (liftM (Tree.disk.read path) :
      ExceptT Error (StateM Tree) (Except AccessFault (List UInt8))) t = (.ok (t.read path), t) :=
    rfl
  rw [readLines, result_bind, hread, linesAt]
  cases t.read path <;> rfl

theorem linesAt_of_read (h : t.read path = .ok bytes) : linesAt t path = linesOf path bytes := by
  rw [linesAt, h]

theorem yields_readLines_iff (h : t.read path = .ok bytes) {lines : List String} :
    Yields (readLines Tree.disk path) t lines t ↔ linesOf path bytes = .ok lines := by
  simp [Yields, result_readLines, linesAt_of_read h]

theorem refuses_readLines_iff (h : t.read path = .ok bytes) {e : Error} :
    Refuses (readLines Tree.disk path) t e t ↔ linesOf path bytes = .error e := by
  simp [Refuses, result_readLines, linesAt_of_read h]

theorem readPieces_eq_error_iff {i : Nat} :
    readPieces pieces = .error i ↔
      ∃ before piece after, pieces = before ++ piece :: after ∧ before.length = i ∧
        (∀ p ∈ before, IsUtf8 p) ∧ ¬ IsUtf8 piece := by
  induction pieces generalizing i with
  | nil => exact iff_of_false nofun fun ⟨before, _, _, h, _⟩ => by cases before <;> cases h
  | cons piece pieces ih =>
    by_cases hpiece : IsUtf8 piece
    · obtain ⟨cs, rfl⟩ := hpiece
      rw [readPieces_cons_of_isUtf8]
      constructor
      · intro h
        cases hread : readPieces pieces with
        | ok css =>
          rw [hread] at h
          cases h
        | error j =>
          rw [hread] at h
          cases h
          obtain ⟨before, piece, after, rfl, hlength, hbefore, hpiece⟩ := ih.mp hread
          exact ⟨encode cs :: before, piece, after, rfl, congrArg (· + 1) hlength,
            List.forall_mem_cons.mpr ⟨⟨cs, rfl⟩, hbefore⟩, hpiece⟩
      · rintro ⟨before, piece, after, heq, rfl, hbefore, hpiece⟩
        cases before with
        | nil =>
          cases heq
          exact absurd ⟨cs, rfl⟩ hpiece
        | cons first before =>
          cases heq
          have hread := ih.mpr
            ⟨before, piece, after, rfl, rfl, (List.forall_mem_cons.mp hbefore).2, hpiece⟩
          rw [hread]
          rfl
    · rw [readPieces_cons_of_not_isUtf8 hpiece]
      constructor
      · intro h
        cases h
        exact ⟨[], piece, pieces, rfl, rfl, fun _ hp => absurd hp List.not_mem_nil, hpiece⟩
      · rintro ⟨before, piece', after, heq, rfl, hbefore, -⟩
        cases before with
        | nil => rfl
        | cons first before =>
          cases heq
          exact absurd (List.forall_mem_cons.mp hbefore).1 hpiece

theorem linesOf_eq_notText_iff {file : String} {line : Nat} :
    linesOf path bytes = .error (.notText file line) ↔
      file = path ∧ ∃ i, readPieces (bytes.splitOn 0x0a) = .error i ∧ line = i + 1 := by
  rw [linesOf_eq]
  cases readPieces (bytes.splitOn 0x0a) with
  | ok css => exact iff_of_false nofun fun ⟨_, _, h, _⟩ => nomatch h
  | error i =>
    constructor
    · intro h
      cases h
      exact ⟨rfl, i, rfl, rfl⟩
    · rintro ⟨rfl, j, hj, rfl⟩
      cases hj
      rfl

theorem readPieces_splitOn_eq_error_iff :
    (∃ i, readPieces (bytes.splitOn 0x0a) = .error i) ↔ ¬ IsUtf8 bytes := by
  rw [readPieces_splitOn, readWhole, ← decode?_eq_none_iff, decode?]
  cases decode bytes with
  | mk cs rest => cases rest <;> simp

/-- A file is refused for its octets exactly if they are no text.  The line that is named is that
of the first piece between newlines that is no text by itself, and a file that is a text is
read. -/
theorem notText_iff_first_invalid (h : t.read path = .ok bytes) :
    ((∃ file line, Refuses (readLines Tree.disk path) t (.notText file line) t) ↔
        ¬ IsUtf8 bytes) ∧
      (∀ file line, Refuses (readLines Tree.disk path) t (.notText file line) t ↔
        file = path ∧ ∃ before piece after, bytes.splitOn 0x0a = before ++ piece :: after ∧
          line = before.length + 1 ∧ (∀ p ∈ before, IsUtf8 p) ∧ ¬ IsUtf8 piece) ∧
      (IsUtf8 bytes → ∃ lines, Yields (readLines Tree.disk path) t lines t) := by
  have hrefuses : ∀ file line, Refuses (readLines Tree.disk path) t (.notText file line) t ↔
      file = path ∧ ∃ i, readPieces (bytes.splitOn 0x0a) = .error i ∧ line = i + 1 :=
    fun file line => (refuses_readLines_iff h).trans linesOf_eq_notText_iff
  refine ⟨?_, fun file line => ?_, fun hvalid => ?_⟩
  · rw [← readPieces_splitOn_eq_error_iff]
    constructor
    · rintro ⟨file, line, hline⟩
      obtain ⟨-, i, hi, -⟩ := (hrefuses file line).mp hline
      exact ⟨i, hi⟩
    · rintro ⟨i, hi⟩
      exact ⟨path, i + 1, (hrefuses _ _).mpr ⟨rfl, i, hi, rfl⟩⟩
  · rw [hrefuses]
    refine and_congr_right fun _ => ?_
    constructor
    · rintro ⟨i, hi, rfl⟩
      obtain ⟨before, piece, after, hpieces, rfl, hbefore, hpiece⟩ :=
        readPieces_eq_error_iff.mp hi
      exact ⟨before, piece, after, hpieces, rfl, hbefore, hpiece⟩
    · rintro ⟨before, piece, after, hpieces, rfl, hbefore, hpiece⟩
      exact ⟨_, readPieces_eq_error_iff.mpr
        ⟨before, piece, after, hpieces, rfl, hbefore, hpiece⟩, rfl⟩
  · cases hread : readPieces (bytes.splitOn 0x0a) with
    | ok css =>
      have hlines : linesOf path bytes = inFile path (.ok (linesOfPieces css)) := by
        rw [linesOf_eq, hread]
        rfl
      exact ⟨_, (yields_readLines_iff h).mpr hlines⟩
    | error i => exact absurd hvalid (readPieces_splitOn_eq_error_iff.mp ⟨i, hread⟩)

/-- Of a character of three octets the newline cuts off the last one, and the next line is no text
either. -/
theorem notText_iff_first_invalid_cut_short :
    let bytes : List UInt8 := [0x6d, 0xc3, 0xa9, 0x0d, 0x0a, 0x0a, 0xe2, 0x82, 0x0a, 0xff]
    let t : Tree := { nodes := [(["new.eval"], .file bytes)], workingDirectory := [] }
    t.read "new.eval" = .ok bytes ∧
      Refuses (readLines Tree.disk "new.eval") t (.notText "new.eval" 3) t := by
  intro bytes t
  have hread : t.read "new.eval" = .ok bytes := rfl
  refine ⟨hread, ((notText_iff_first_invalid hread).2.1 "new.eval" 3).mpr ⟨rfl,
    [[0x6d, 0xc3, 0xa9, 0x0d], []], [0xe2, 0x82], [[0xff]], by decide, rfl, ?_, ?_⟩⟩
  · have hfirst : IsUtf8 [0x6d, 0xc3, 0xa9, 0x0d] := ⟨['m', 'é', '\r'], by decide⟩
    have hsecond : IsUtf8 [] := ⟨[], rfl⟩
    exact List.forall_mem_cons.mpr ⟨hfirst, List.forall_mem_singleton.mpr hsecond⟩
  · have hdecode : decode [0xe2, 0x82] = ([], [0xe2, 0x82]) := decode_eq_iff.mpr ⟨rfl, rfl⟩
    exact not_isUtf8_of_decode hdecode (List.cons_ne_nil _ _)

end Log
end EvalDiff
