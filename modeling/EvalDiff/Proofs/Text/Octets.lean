import EvalDiff.Proofs.Text.Utf8

/-!
# Valid octets and their beginnings

Reading the octets of a character gives that character, and here the converse is shown: what is
read off the front of some octets is the character that they start with.  So `decode` stops where
no character follows, and that is the longest beginning that is a text: `decode_eq_iff`.  A
character below 0x80 has an octet of its own that is part of no other character, which is why
octets can be cut there before they are read: `decode_append_ascii`.
-/

namespace EvalDiff
namespace Text

/-- Octets that are the encoding of a text. -/
def IsUtf8 (bytes : List UInt8) : Prop := ∃ cs, bytes = encode cs

variable {bytes rest : List UInt8} {b : UInt8} {n high least : Nat} {c d : Char} {cs : List Char}

/-! ### Octets -/

theorem eq_ofNat_of_toNat (h : b.toNat = n) : b = UInt8.ofNat n := by
  rw [← h, UInt8.ofNat_toNat]

theorem continuation?_eq_some (h : continuation? b = some n) :
    n < 0x40 ∧ b = UInt8.ofNat (n + 0x80) := by
  unfold continuation? at h
  split at h
  · next hb =>
    have hlow : 0x80 ≤ b.toNat := UInt8.le_iff_toNat_le.mp hb.1
    have hhigh : b.toNat < 0xc0 := UInt8.lt_iff_toNat_lt.mp hb.2
    have hn := Option.some.inj h
    exact ⟨by omega, eq_ofNat_of_toNat (by omega)⟩
  · cases h

/-! ### Characters -/

theorem toNat_ofNatAux (h : n.isValidChar) : (Char.ofNatAux n h).toNat = n := rfl

theorem scalar?_eq_some (h : scalar? least n = some c) : c.toNat = n ∧ least ≤ n := by
  by_cases hvalid : n.isValidChar
  · by_cases hleast : least ≤ n
    · rw [scalar?, dif_pos hvalid, if_pos hleast] at h
      cases h
      exact ⟨toNat_ofNatAux hvalid, hleast⟩
    · rw [scalar?, dif_pos hvalid, if_neg hleast] at h
      cases h
  · rw [scalar?, dif_neg hvalid] at h
    cases h

theorem finishTwo?_eq_some (h : finishTwo? high bytes = some (c, rest)) :
    0x80 ≤ c.toNat ∧ c.toNat / 64 = high ∧
      bytes = UInt8.ofNat (c.toNat % 0x40 + 0x80) :: rest := by
  match bytes, h with
  | b :: tail, h =>
    simp only [finishTwo?, Option.bind_eq_bind, Option.bind_eq_some_iff] at h
    obtain ⟨low, hb, char, hc, heq⟩ := h
    cases heq
    obtain ⟨hlow, rfl⟩ := continuation?_eq_some hb
    obtain ⟨hn, hleast⟩ := scalar?_eq_some hc
    have hmod : c.toNat % 0x40 = low := by omega
    rw [hmod]
    exact ⟨by omega, by omega, rfl⟩

theorem finishThree?_eq_some (h : finishThree? high bytes = some (c, rest)) :
    0x800 ≤ c.toNat ∧ c.toNat / 4096 = high ∧
      bytes = UInt8.ofNat (c.toNat / 64 % 0x40 + 0x80) ::
        UInt8.ofNat (c.toNat % 0x40 + 0x80) :: rest := by
  match bytes, h with
  | b :: b' :: tail, h =>
    simp only [finishThree?, Option.bind_eq_bind, Option.bind_eq_some_iff] at h
    obtain ⟨middle, hb, low, hb', char, hc, heq⟩ := h
    cases heq
    obtain ⟨hmiddle, rfl⟩ := continuation?_eq_some hb
    obtain ⟨hlow, rfl⟩ := continuation?_eq_some hb'
    obtain ⟨hn, hleast⟩ := scalar?_eq_some hc
    have hmod : c.toNat % 0x40 = low := by omega
    have hdiv : c.toNat / 64 % 0x40 = middle := by omega
    rw [hmod, hdiv]
    exact ⟨by omega, by omega, rfl⟩

theorem finishFour?_eq_some (h : finishFour? high bytes = some (c, rest)) :
    0x10000 ≤ c.toNat ∧ c.toNat / 262144 = high ∧
      bytes = UInt8.ofNat (c.toNat / 4096 % 0x40 + 0x80) ::
        UInt8.ofNat (c.toNat / 64 % 0x40 + 0x80) ::
          UInt8.ofNat (c.toNat % 0x40 + 0x80) :: rest := by
  match bytes, h with
  | b :: b' :: b'' :: tail, h =>
    simp only [finishFour?, Option.bind_eq_bind, Option.bind_eq_some_iff] at h
    obtain ⟨upper, hb, middle, hb', low, hb'', char, hc, heq⟩ := h
    cases heq
    obtain ⟨hupper, rfl⟩ := continuation?_eq_some hb
    obtain ⟨hmiddle, rfl⟩ := continuation?_eq_some hb'
    obtain ⟨hlow, rfl⟩ := continuation?_eq_some hb''
    obtain ⟨hn, hleast⟩ := scalar?_eq_some hc
    have hmod : c.toNat % 0x40 = low := by omega
    have hdiv : c.toNat / 64 % 0x40 = middle := by omega
    have hdiv' : c.toNat / 4096 % 0x40 = upper := by omega
    rw [hmod, hdiv, hdiv']
    exact ⟨by omega, by omega, rfl⟩

/-- What is read off the front of some octets is written there. -/
theorem eq_of_decodeChar? (h : decodeChar? bytes = some (c, rest)) :
    bytes = String.utf8EncodeChar c ++ rest := by
  cases bytes with
  | nil => cases h
  | cons a tail =>
    have ha : a = UInt8.ofNat a.toNat := eq_ofNat_of_toNat rfl
    have hlt : a.toNat < 256 := a.toNat_lt
    have hv : c.val.toNat = c.toNat := rfl
    rw [ha, decodeChar?_ofNat hlt] at h
    simp only [String.utf8EncodeChar, hv]
    split at h
    · next hone =>
      cases h
      have hvalid : a.toNat.isValidChar := Or.inl (by omega)
      rw [Char.ofNat, dif_pos hvalid, toNat_ofNatAux hvalid, if_pos (by omega), ← ha]
      rfl
    · split at h
      · cases h
      · split at h
        · obtain ⟨hlow, hhigh, rfl⟩ := finishTwo?_eq_some h
          have hfirst : c.toNat / 64 % 0x20 + 0xc0 = a.toNat := by omega
          rw [if_neg (by omega), if_pos (by omega), hfirst, ← ha]
          rfl
        · split at h
          · obtain ⟨hlow, hhigh, rfl⟩ := finishThree?_eq_some h
            have hfirst : c.toNat / 4096 % 0x10 + 0xe0 = a.toNat := by omega
            rw [if_neg (by omega), if_neg (by omega), if_pos (by omega), hfirst, ← ha]
            rfl
          · split at h
            · obtain ⟨hlow, hhigh, rfl⟩ := finishFour?_eq_some h
              have hfirst : c.toNat / 262144 % 0x08 + 0xf0 = a.toNat := by omega
              rw [if_neg (by omega), if_neg (by omega), if_neg (by omega), hfirst, ← ha]
              rfl
            · cases h

theorem decodeChar?_eq_some_iff :
    decodeChar? bytes = some (c, rest) ↔ bytes = String.utf8EncodeChar c ++ rest := by
  constructor
  · exact eq_of_decodeChar?
  · rintro rfl
    exact decodeChar?_utf8EncodeChar c rest

/-! ### Beginnings -/

theorem exists_decodeBehind (behind : List Char) (bytes : List UInt8) :
    ∃ cs rest, decodeBehind behind bytes = (behind.reverse ++ cs, rest) ∧
      bytes = encode cs ++ rest ∧ decodeChar? rest = none := by
  induction behind, bytes using decodeBehind.induct with
  | case1 behind bytes h => exact ⟨[], bytes, by simpa using decodeBehind_of_none h, rfl, h⟩
  | case2 behind bytes c rest h hlt ih =>
    obtain ⟨cs, rest', hdecode, hbytes, hnone⟩ := ih
    have hfront := decodeChar?_eq_some_iff.mp h
    refine ⟨c :: cs, rest', ?_, ?_, hnone⟩
    · rw [hfront, decodeBehind_encodeChar_append, hdecode, List.reverse_cons, List.append_assoc,
        List.singleton_append]
    · rw [hfront, hbytes, encode_cons, List.append_assoc]

/-- The characters read are those of the beginning that is a text, and no character follows. -/
theorem decode_eq_iff :
    decode bytes = (cs, rest) ↔ bytes = encode cs ++ rest ∧ decodeChar? rest = none := by
  constructor
  · intro h
    obtain ⟨ds, rest', hdecode, hbytes, hnone⟩ := exists_decodeBehind [] bytes
    rw [decode, hdecode] at h
    cases h
    exact ⟨hbytes, hnone⟩
  · rintro ⟨rfl, hnone⟩
    exact decodeBehind_encode_append [] cs hnone

theorem decode?_eq_some_iff : decode? bytes = some cs ↔ bytes = encode cs := by
  constructor
  · intro h
    cases hdecode : decode bytes with
    | mk ds rest =>
      rw [decode?, hdecode] at h
      cases rest with
      | nil =>
        cases h
        rw [(decode_eq_iff.mp hdecode).1, List.append_nil]
      | cons b rest => cases h
  · rintro rfl
    exact decode?_encode cs

theorem encode_injective {cs ds : List Char} (h : encode cs = encode ds) : cs = ds := by
  have hds := decode?_encode ds
  rw [← h, decode?_encode] at hds
  exact Option.some.inj hds

theorem decode?_eq_none_iff : decode? bytes = none ↔ ¬ IsUtf8 bytes := by
  rw [Option.eq_none_iff_forall_ne_some]
  constructor
  · rintro h ⟨cs, hcs⟩
    exact h cs (decode?_eq_some_iff.mpr hcs)
  · intro h cs hcs
    exact h ⟨cs, decode?_eq_some_iff.mp hcs⟩

/-! ### Octets below 0x80 -/

variable {more : List UInt8}

theorem utf8EncodeChar_of_lt (h : c.toNat < 0x80) :
    String.utf8EncodeChar c = [UInt8.ofNat c.toNat] := by
  have hv : c.val.toNat = c.toNat := rfl
  simp only [String.utf8EncodeChar, hv]
  rw [if_pos (by omega)]

/-- All octets of a character of more than one are out of the range of the others. -/
theorem le_of_mem_utf8EncodeChar (h : 0x80 ≤ c.toNat) (hb : b ∈ String.utf8EncodeChar c) :
    0x80 ≤ b.toNat := by
  have hof : ∀ n, 0x80 ≤ n → n < 256 → b = UInt8.ofNat n → 0x80 ≤ b.toNat := by
    rintro n hlow hhigh rfl
    rwa [toNat_ofNat_of_lt hhigh]
  have hv : c.val.toNat = c.toNat := rfl
  have hc := toNat_lt c
  simp only [String.utf8EncodeChar, hv] at hb
  split at hb
  · omega
  · split at hb
    · simp only [List.mem_cons, List.not_mem_nil, or_false] at hb
      rcases hb with hb | hb <;> exact hof _ (by omega) (by omega) hb
    · split at hb
      · simp only [List.mem_cons, List.not_mem_nil, or_false] at hb
        rcases hb with hb | hb | hb <;> exact hof _ (by omega) (by omega) hb
      · simp only [List.mem_cons, List.not_mem_nil, or_false] at hb
        rcases hb with hb | hb | hb | hb <;> exact hof _ (by omega) (by omega) hb

/-- An octet below 0x80 is part of no character but its own. -/
theorem eq_of_mem_utf8EncodeChar (hd : d.toNat < 0x80)
    (h : UInt8.ofNat d.toNat ∈ String.utf8EncodeChar c) : c = d := by
  have hoctet : (UInt8.ofNat d.toNat).toNat = d.toNat := toNat_ofNat_of_lt (by omega)
  have hlt : c.toNat < 0x80 := by
    refine Nat.lt_of_not_le fun hle => ?_
    have := le_of_mem_utf8EncodeChar hle h
    omega
  rw [utf8EncodeChar_of_lt hlt, List.mem_singleton] at h
  have hsame := congrArg UInt8.toNat h
  rw [hoctet, toNat_ofNat_of_lt (by omega)] at hsame
  rw [← Char.ofNat_toNat c, ← hsame, Char.ofNat_toNat]

/-- An octet below 0x80 does not complete a character. -/
theorem decodeChar?_append_ascii (hb : b.toNat < 0x80) (hne : rest ≠ [])
    (h : decodeChar? rest = none) : decodeChar? (rest ++ b :: more) = none := by
  cases hchar : decodeChar? (rest ++ b :: more) with
  | none => rfl
  | some found =>
    obtain ⟨c, after⟩ := found
    have hnot : ∀ after', rest ≠ String.utf8EncodeChar c ++ after' := by
      intro after' hrest
      rw [decodeChar?_eq_some_iff.mpr hrest] at h
      cases h
    rcases List.append_eq_append_iff.mp (decodeChar?_eq_some_iff.mp hchar) with
      ⟨tail, hc, htail⟩ | ⟨tail, hrest, -⟩
    · cases tail with
      | nil =>
        rw [List.append_nil] at hc
        exact absurd (by rw [List.append_nil, hc]) (hnot [])
      | cons x tail =>
        -- The octet would be a whole character, and nothing stands before it.
        obtain rfl := (List.cons.inj htail).1
        have hlt : c.toNat < 0x80 := by
          refine Nat.lt_of_not_le fun hle => ?_
          have hmem : b ∈ String.utf8EncodeChar c := hc ▸ List.mem_append_right _ List.mem_cons_self
          exact absurd (le_of_mem_utf8EncodeChar hle hmem) (Nat.not_le_of_lt hb)
        have hlength := congrArg List.length hc
        rw [utf8EncodeChar_of_lt hlt, List.length_append] at hlength
        have hpos := List.length_pos_iff.mpr hne
        simp only [List.length_cons, List.length_nil] at hlength
        omega
    · exact absurd hrest (hnot tail)

theorem decode_encode_append (cs : List Char) (bytes : List UInt8) :
    decode (encode cs ++ bytes) = (cs ++ (decode bytes).1, (decode bytes).2) := by
  cases hdecode : decode bytes with
  | mk ds rest =>
    obtain ⟨rfl, hnone⟩ := decode_eq_iff.mp hdecode
    rw [decode_eq_iff, encode_append, List.append_assoc]
    exact ⟨rfl, hnone⟩

/-- Octets that are cut at one below 0x80 are read up to where the first of them are read. -/
theorem decode_append_ascii (hb : b.toNat < 0x80) (hne : rest ≠ [])
    (h : decode bytes = (cs, rest)) (more : List UInt8) :
    decode (bytes ++ b :: more) = (cs, rest ++ b :: more) := by
  obtain ⟨rfl, hnone⟩ := decode_eq_iff.mp h
  rw [decode_eq_iff, List.append_assoc]
  exact ⟨rfl, decodeChar?_append_ascii hb hne hnone⟩

theorem not_isUtf8_of_decode (h : decode bytes = (cs, rest)) (hne : rest ≠ []) :
    ¬ IsUtf8 bytes := by
  rw [← decode?_eq_none_iff, decode?, h]
  cases rest with
  | nil => exact absurd rfl hne
  | cons b rest => rfl

/-- A text is still one without what begins with an octet below 0x80. -/
theorem isUtf8_of_append_ascii (hb : b.toNat < 0x80) (h : IsUtf8 (bytes ++ b :: more)) :
    IsUtf8 bytes := by
  cases hdecode : decode bytes with
  | mk cs rest =>
    by_cases hrest : rest = []
    · subst hrest
      rw [decode_eq_iff, List.append_nil] at hdecode
      exact ⟨cs, hdecode.1⟩
    · have hwhole := decode_append_ascii hb hrest hdecode more
      exact absurd h (not_isUtf8_of_decode hwhole (by simp))

end Text
end EvalDiff
