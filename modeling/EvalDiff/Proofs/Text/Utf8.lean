import EvalDiff.Text.Utf8

/-!
# Octets read back as text

Every text is read back from its octets, whatever characters it is made of: `decode?_encode`.
-/

namespace EvalDiff
namespace Text

variable {n least : Nat} {c : Char} {rest : List UInt8}

theorem toNat_ofNat_of_lt (h : n < 256) : (UInt8.ofNat n).toNat = n := by
  rw [UInt8.toNat_ofNat']
  omega

theorem continuation?_ofNat (n : Nat) :
    continuation? (UInt8.ofNat (n % 0x40 + 0x80)) = some (n % 0x40) := by
  have hn : (UInt8.ofNat (n % 0x40 + 0x80)).toNat = n % 0x40 + 0x80 :=
    toNat_ofNat_of_lt (by omega)
  have hrange : 0x80 ≤ UInt8.ofNat (n % 0x40 + 0x80) ∧ UInt8.ofNat (n % 0x40 + 0x80) < 0xc0 := by
    rw [UInt8.le_iff_toNat_le, UInt8.lt_iff_toNat_lt, hn]
    show 0x80 ≤ n % 0x40 + 0x80 ∧ n % 0x40 + 0x80 < 0xc0
    omega
  rw [continuation?, if_pos hrange, hn, Nat.add_sub_cancel]

/-- The first octet of a character tells how many follow. -/
theorem decodeChar?_ofNat (h : n < 256) :
    decodeChar? (UInt8.ofNat n :: rest) =
      if n < 0x80 then some (Char.ofNat n, rest)
      else if n < 0xc0 then none
      else if n < 0xe0 then finishTwo? (n - 0xc0) rest
      else if n < 0xf0 then finishThree? (n - 0xe0) rest
      else if n < 0xf8 then finishFour? (n - 0xf0) rest
      else none := by
  simp only [decodeChar?, UInt8.lt_iff_toNat_lt, toNat_ofNat_of_lt h]
  rfl

theorem ofNatAux_toNat (h : c.toNat.isValidChar) : Char.ofNatAux c.toNat h = c := by
  have hc : Char.ofNat c.toNat = c := Char.ofNat_toNat c
  rwa [Char.ofNat, dif_pos h] at hc

theorem scalar?_toNat (h : least ≤ c.toNat) : scalar? least c.toNat = some c := by
  have hvalid : c.toNat.isValidChar := c.valid
  rw [scalar?, dif_pos hvalid, if_pos h, ofNatAux_toNat]

theorem toNat_lt (c : Char) : c.toNat < 0x110000 := by
  rcases c.valid with h | h
  · exact Nat.lt_trans h (by decide)
  · exact h.2

theorem finishTwo?_toNat (h : 0x80 ≤ c.toNat) :
    finishTwo? (c.toNat / 64) (UInt8.ofNat (c.toNat % 0x40 + 0x80) :: rest) = some (c, rest) := by
  have hn : c.toNat / 64 * 0x40 + c.toNat % 0x40 = c.toNat := by omega
  simp only [finishTwo?, continuation?_ofNat, Option.bind_eq_bind, Option.bind_some, hn,
    scalar?_toNat h]
  rfl

theorem finishThree?_toNat (h : 0x800 ≤ c.toNat) :
    finishThree? (c.toNat / 4096)
      (UInt8.ofNat (c.toNat / 64 % 0x40 + 0x80) :: UInt8.ofNat (c.toNat % 0x40 + 0x80) :: rest) =
        some (c, rest) := by
  have hn : (c.toNat / 4096 * 0x40 + c.toNat / 64 % 0x40) * 0x40 + c.toNat % 0x40 = c.toNat := by
    omega
  simp only [finishThree?, continuation?_ofNat, Option.bind_eq_bind, Option.bind_some, hn,
    scalar?_toNat h]
  rfl

theorem finishFour?_toNat (h : 0x10000 ≤ c.toNat) :
    finishFour? (c.toNat / 262144)
      (UInt8.ofNat (c.toNat / 4096 % 0x40 + 0x80) :: UInt8.ofNat (c.toNat / 64 % 0x40 + 0x80) ::
        UInt8.ofNat (c.toNat % 0x40 + 0x80) :: rest) = some (c, rest) := by
  have hn : ((c.toNat / 262144 * 0x40 + c.toNat / 4096 % 0x40) * 0x40 + c.toNat / 64 % 0x40) *
      0x40 + c.toNat % 0x40 = c.toNat := by omega
  simp only [finishFour?, continuation?_ofNat, Option.bind_eq_bind, Option.bind_some, hn,
    scalar?_toNat h]
  rfl

/-- The character is put together again from the bits that its octets carry. -/
theorem decodeChar?_utf8EncodeChar (c : Char) (rest : List UInt8) :
    decodeChar? (String.utf8EncodeChar c ++ rest) = some (c, rest) := by
  have hc := toNat_lt c
  have hv : c.val.toNat = c.toNat := rfl
  simp only [String.utf8EncodeChar, hv]
  split
  · rw [List.singleton_append, decodeChar?_ofNat (by omega), if_pos (by omega), Char.ofNat_toNat]
  · split
    · have hhigh : c.toNat / 64 % 0x20 + 0xc0 - 0xc0 = c.toNat / 64 := by omega
      rw [List.cons_append, decodeChar?_ofNat (by omega), if_neg (by omega), if_neg (by omega),
        if_pos (by omega), hhigh]
      exact finishTwo?_toNat (by omega)
    · split
      · have hhigh : c.toNat / 4096 % 0x10 + 0xe0 - 0xe0 = c.toNat / 4096 := by omega
        rw [List.cons_append, decodeChar?_ofNat (by omega), if_neg (by omega), if_neg (by omega),
          if_neg (by omega), if_pos (by omega), hhigh]
        exact finishThree?_toNat (by omega)
      · have hhigh : c.toNat / 262144 % 0x08 + 0xf0 - 0xf0 = c.toNat / 262144 := by omega
        rw [List.cons_append, decodeChar?_ofNat (by omega), if_neg (by omega), if_neg (by omega),
          if_neg (by omega), if_neg (by omega), if_pos (by omega), hhigh]
        exact finishFour?_toNat (by omega)

theorem encode_append (cs ds : List Char) : encode (cs ++ ds) = encode cs ++ encode ds :=
  List.flatMap_append

theorem encode_cons (c : Char) (cs : List Char) :
    encode (c :: cs) = String.utf8EncodeChar c ++ encode cs := rfl

theorem decodeBehind_of_none {behind : List Char} {bytes : List UInt8}
    (h : decodeChar? bytes = none) : decodeBehind behind bytes = (behind.reverse, bytes) := by
  rw [decodeBehind]
  split
  · rfl
  · next h' =>
    rw [h] at h'
    cases h'

theorem decodeBehind_encodeChar_append (behind : List Char) (c : Char) (rest : List UInt8) :
    decodeBehind behind (String.utf8EncodeChar c ++ rest) = decodeBehind (c :: behind) rest := by
  rw [decodeBehind]
  split
  · next h =>
    rw [decodeChar?_utf8EncodeChar] at h
    cases h
  · next h =>
    rw [decodeChar?_utf8EncodeChar] at h
    cases h
    rfl

theorem decodeBehind_encode_append (behind cs : List Char) (h : decodeChar? rest = none) :
    decodeBehind behind (encode cs ++ rest) = (behind.reverse ++ cs, rest) := by
  induction cs generalizing behind with
  | nil => simpa [encode] using decodeBehind_of_none h
  | cons c cs ih =>
    rw [encode_cons, List.append_assoc, decodeBehind_encodeChar_append, ih, List.reverse_cons,
      List.append_assoc, List.singleton_append]

theorem decode?_encode (cs : List Char) : decode? (encode cs) = some cs := by
  have hend : decodeChar? [] = none := rfl
  have hread := decodeBehind_encode_append [] cs hend
  rw [List.append_nil] at hread
  rw [decode?, decode, hread]
  rfl

end Text
end EvalDiff
