/-!
# Characters that a reader never sees

Fillers, joiners, variation selectors and the like, which a display leaves out unless it has a
special use for them: Unicode's property `Default_Ignorable_Code_Point`.  Some of them are
letters, so their category does not give them away.
-/

namespace EvalDiff
namespace Text

/-- First and last code point of each run of the property `Default_Ignorable_Code_Point`.  The
runs are in order and do not touch. -/
def ignorableRuns : List (Nat × Nat) :=
  [(0x00ad, 0x00ad), (0x034f, 0x034f), (0x061c, 0x061c), (0x115f, 0x1160), (0x17b4, 0x17b5),
   (0x180b, 0x180f), (0x200b, 0x200f), (0x202a, 0x202e), (0x2060, 0x206f), (0x3164, 0x3164),
   (0xfe00, 0xfe0f), (0xfeff, 0xfeff), (0xffa0, 0xffa0), (0xfff0, 0xfff8), (0x1bca0, 0x1bca3),
   (0x1d173, 0x1d17a), (0xe0000, 0xe0fff)]

def isIgnorable (c : Char) : Bool :=
  ignorableRuns.any fun (first, last) => first ≤ c.toNat && c.toNat ≤ last

end Text
end EvalDiff
