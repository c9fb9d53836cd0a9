import EvalDiff.Proofs.Text.Octets
import EvalDiff.Text.Split

/-!
# Pieces between newlines

A newline has an octet of its own, so it does not matter whether octets are read as text and then
cut into lines, or cut at that octet first and then read piece by piece: `readPieces_splitOn`.  In
particular the octets are a text exactly if all the pieces are, and the newlines in the valid
beginning count the valid pieces in front of the first one that is not.
-/

namespace EvalDiff
namespace Text

variable {α : Type} {cs line : List Char} {bytes piece rest : List UInt8}

theorem splitOn_eq (separator : Char) (cs : List Char) :
    splitOn separator cs = cs.splitOn separator := by
  induction cs with
  | nil => rfl
  | cons c cs ih =>
    have hcons : cs.splitOn separator =
        (cs.splitOn separator).headD [] :: (cs.splitOn separator).tail := by
      cases hs : cs.splitOn separator with
      | nil => exact absurd hs (List.splitOn_ne_nil separator cs)
      | cons piece pieces => rfl
    rw [splitOn_cons, ih, List.splitOn_cons_eq_if_modifyHead]
    by_cases hc : c = separator
    · rw [if_pos hc, if_pos (beq_iff_eq.mpr hc)]
    · rw [if_neg hc, if_neg (by simpa using hc)]
      rw [hcons]
      rfl

/-- A list has no separator, or is cut at its first one. -/
theorem cut_induction [DecidableEq α] {P : List α → Prop} (separator : α)
    (last : ∀ xs, separator ∉ xs → P xs)
    (cut : ∀ xs rest, separator ∉ xs → P rest → P (xs ++ separator :: rest)) (xs : List α) :
    P xs := by
  by_cases h : separator ∈ xs
  · obtain ⟨piece, rest, hxs, hpiece⟩ := List.eq_append_cons_of_mem h
    have hlt : rest.length < xs.length := by
      rw [hxs, List.length_append, List.length_cons]
      omega
    rw [hxs]
    exact cut piece rest hpiece (cut_induction separator last cut rest)
  · exact last xs h
termination_by xs.length

/-- The texts of pieces of octets, or the place of the first piece that is none. -/
def readPieces : List (List UInt8) → Except Nat (List (List Char))
  | [] => .ok []
  | piece :: rest =>
    match decode? piece with
    | none => .error 0
    | some cs => ((readPieces rest).map (cs :: ·)).mapError (· + 1)

theorem readPieces_cons_of_isUtf8 (cs : List Char) (pieces : List (List UInt8)) :
    readPieces (encode cs :: pieces) = ((readPieces pieces).map (cs :: ·)).mapError (· + 1) := by
  rw [readPieces, decode?_encode]

theorem readPieces_cons_of_not_isUtf8 (h : ¬ IsUtf8 piece) (pieces : List (List UInt8)) :
    readPieces (piece :: pieces) = .error 0 := by
  rw [readPieces, decode?_eq_none_iff.mpr h]

theorem newline_not_mem (h : 0x0a ∉ encode cs) : '\n' ∉ cs := by
  intro hmem
  refine h (List.mem_flatMap.mpr ⟨'\n', hmem, ?_⟩)
  decide

/-- What the octets of a text, read as a whole, say about its pieces. -/
def readWhole (bytes : List UInt8) : Except Nat (List (List Char)) :=
  match decode bytes with
  | (cs, []) => .ok (cs.splitOn '\n')
  | (cs, _) => .error (cs.count '\n')

theorem readWhole_of_ne_nil (h : decode bytes = (cs, rest)) (hne : rest ≠ []) :
    readWhole bytes = .error (cs.count '\n') := by
  rw [readWhole, h]
  cases rest with
  | nil => exact absurd rfl hne
  | cons b rest => rfl

theorem readWhole_append_newline (h : 0x0a ∉ encode line) (bytes : List UInt8) :
    readWhole (encode line ++ 0x0a :: bytes) =
      ((readWhole bytes).map (line :: ·)).mapError (· + 1) := by
  have hline : '\n' ∉ line := newline_not_mem h
  have hoctets : encode line ++ 0x0a :: bytes = encode (line ++ ['\n']) ++ bytes := by
    rw [encode_append, List.append_assoc]
    rfl
  have hdecode := decode_encode_append (line ++ ['\n']) bytes
  rw [← hoctets] at hdecode
  cases hrest : decode bytes with
  | mk cs rest =>
    rw [hrest] at hdecode
    rw [readWhole, readWhole, hdecode, hrest]
    cases rest with
    | nil =>
      show Except.ok ((line ++ ['\n'] ++ cs).splitOn '\n') = .ok (line :: cs.splitOn '\n')
      rw [List.append_assoc, List.singleton_append,
        List.splitOn_append_cons_self_of_not_mem hline]
    | cons b rest =>
      show Except.error ((line ++ ['\n'] ++ cs).count '\n') = .error (cs.count '\n' + 1)
      rw [List.count_append, List.count_append, List.count_eq_zero.mpr hline, Nat.zero_add,
        Nat.add_comm]
      rfl

/-- Reading a text and cutting it at its newlines is cutting the octets and reading the pieces. -/
theorem readPieces_splitOn (bytes : List UInt8) :
    readPieces (bytes.splitOn 0x0a) = readWhole bytes := by
  induction bytes using cut_induction (0x0a : UInt8) with
  | last bytes h =>
    rw [List.splitOn_eq_singleton h]
    cases hdecode : decode bytes with
    | mk cs rest =>
      obtain ⟨hbytes, hnone⟩ := decode_eq_iff.mp hdecode
      have hcs : '\n' ∉ cs := newline_not_mem fun hmem =>
        h (hbytes ▸ List.mem_append_left rest hmem)
      by_cases hrest : rest = []
      · subst hrest
        rw [List.append_nil] at hbytes
        rw [readWhole, hdecode, hbytes, readPieces_cons_of_isUtf8]
        exact congrArg Except.ok (List.splitOn_eq_singleton hcs).symm
      · rw [readPieces_cons_of_not_isUtf8 (not_isUtf8_of_decode hdecode hrest),
          readWhole_of_ne_nil hdecode hrest, List.count_eq_zero.mpr hcs]
  | cut piece bytes h ih =>
    rw [List.splitOn_append_cons_self_of_not_mem h]
    cases hdecode : decode piece with
    | mk cs rest =>
      obtain ⟨hpiece, hnone⟩ := decode_eq_iff.mp hdecode
      by_cases hrest : rest = []
      · subst hrest
        rw [List.append_nil] at hpiece
        subst hpiece
        rw [readPieces_cons_of_isUtf8, ih, readWhole_append_newline h]
      · have hcs : '\n' ∉ cs := newline_not_mem fun hmem =>
          h (hpiece ▸ List.mem_append_left rest hmem)
        have hwhole := decode_append_ascii (b := 0x0a) (by decide) hrest hdecode bytes
        rw [readPieces_cons_of_not_isUtf8 (not_isUtf8_of_decode hdecode hrest),
          readWhole_of_ne_nil hwhole (by simp), List.count_eq_zero.mpr hcs]

/-- The lines that the pieces of a text make. -/
def linesOfPieces (pieces : List (List Char)) : List (List Char) :=
  pieces.dropLast.map dropCarriageReturn ++
    (if (pieces.getLastD []).isEmpty then [] else [pieces.getLastD []])

theorem lines_eq (cs : List Char) : lines cs = linesOfPieces (cs.splitOn '\n') := by
  rw [← splitOn_eq]
  rfl

end Text
end EvalDiff
