/-!
# Reading octets as text

UTF-8 without overlong forms, surrogates or code points past the last one.  `decode` reads the
longest valid beginning; nothing is left over exactly if the octets are valid throughout.
-/

namespace EvalDiff
namespace Text

/-- The six low bits of an octet that continues a character. -/
def continuation? (b : UInt8) : Option Nat :=
  if 0x80 ≤ b ∧ b < 0xc0 then some (b.toNat - 0x80) else none

/-- The character with a code point, if that is at least `least` and no surrogate.  The bound
refuses code points that fewer octets would hold. -/
def scalar? (least n : Nat) : Option Char :=
  if h : n.isValidChar then
    if least ≤ n then some (Char.ofNatAux n h) else none
  else none

/-- The rest of a character of two octets, given the bits of the first. -/
def finishTwo? (high : Nat) : List UInt8 → Option (Char × List UInt8)
  | b :: rest => do
    let b ← continuation? b
    let char ← scalar? 0x80 (high * 0x40 + b)
    return (char, rest)
  | _ => none

def finishThree? (high : Nat) : List UInt8 → Option (Char × List UInt8)
  | b :: c :: rest => do
    let b ← continuation? b
    let c ← continuation? c
    let char ← scalar? 0x800 ((high * 0x40 + b) * 0x40 + c)
    return (char, rest)
  | _ => none

def finishFour? (high : Nat) : List UInt8 → Option (Char × List UInt8)
  | b :: c :: d :: rest => do
    let b ← continuation? b
    let c ← continuation? c
    let d ← continuation? d
    let char ← scalar? 0x10000 (((high * 0x40 + b) * 0x40 + c) * 0x40 + d)
    return (char, rest)
  | _ => none

/-- The character at the front of a list of octets, and the octets after it. -/
def decodeChar? : List UInt8 → Option (Char × List UInt8)
  | [] => none
  | a :: rest =>
    if a < 0x80 then some (Char.ofNat a.toNat, rest)
    else if a < 0xc0 then none
    else if a < 0xe0 then finishTwo? (a.toNat - 0xc0) rest
    else if a < 0xf0 then finishThree? (a.toNat - 0xe0) rest
    else if a < 0xf8 then finishFour? (a.toNat - 0xf0) rest
    else none

theorem length_le_of_finishTwo? {high : Nat} {bytes rest : List UInt8} {c : Char}
    (h : finishTwo? high bytes = some (c, rest)) : rest.length ≤ bytes.length := by
  match bytes, h with
  | b :: tail, h =>
    simp [finishTwo?, Option.bind_eq_some_iff] at h
    obtain ⟨_, _, _, _, _, rfl⟩ := h
    simp

theorem length_le_of_finishThree? {high : Nat} {bytes rest : List UInt8} {c : Char}
    (h : finishThree? high bytes = some (c, rest)) : rest.length ≤ bytes.length := by
  match bytes, h with
  | b :: c :: tail, h =>
    simp [finishThree?, Option.bind_eq_some_iff] at h
    obtain ⟨_, _, _, _, _, _, _, rfl⟩ := h
    simp; omega

theorem length_le_of_finishFour? {high : Nat} {bytes rest : List UInt8} {c : Char}
    (h : finishFour? high bytes = some (c, rest)) : rest.length ≤ bytes.length := by
  match bytes, h with
  | b :: c :: d :: tail, h =>
    simp [finishFour?, Option.bind_eq_some_iff] at h
    obtain ⟨_, _, _, _, _, _, _, _, _, rfl⟩ := h
    simp; omega

theorem length_lt_of_decodeChar? {bytes rest : List UInt8} {c : Char}
    (h : decodeChar? bytes = some (c, rest)) : rest.length < bytes.length := by
  cases bytes with
  | nil => simp [decodeChar?] at h
  | cons a tail =>
    rw [decodeChar?] at h
    have hle : rest.length ≤ tail.length := by
      split at h
      · simp only [Option.some.injEq, Prod.mk.injEq] at h
        exact Nat.le_of_eq (by rw [h.2])
      · split at h
        · cases h
        · split at h
          · exact length_le_of_finishTwo? h
          · split at h
            · exact length_le_of_finishThree? h
            · split at h
              · exact length_le_of_finishFour? h
              · cases h
    exact Nat.lt_succ_of_le hle

/-- Reads on behind the characters read so far, which are in `behind` with the last one
first. -/
def decodeBehind (behind : List Char) (bytes : List UInt8) : List Char × List UInt8 :=
  match h : decodeChar? bytes with
  | none => (behind.reverse, bytes)
  | some (c, rest) =>
    have := length_lt_of_decodeChar? h
    decodeBehind (c :: behind) rest
termination_by bytes.length

/-- The characters of the longest valid beginning, and the octets after it. -/
def decode (bytes : List UInt8) : List Char × List UInt8 := decodeBehind [] bytes

/-- The text that octets hold, if they are valid throughout. -/
def decode? (bytes : List UInt8) : Option (List Char) :=
  match decode bytes with
  | (cs, []) => some cs
  | _ => none

def encode (cs : List Char) : List UInt8 := cs.flatMap String.utf8EncodeChar

end Text
end EvalDiff
