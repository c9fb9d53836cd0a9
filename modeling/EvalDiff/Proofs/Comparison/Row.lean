import EvalDiff.Comparison.Compare
import EvalDiff.Proofs.Log.Fields

/-!
# Pairs of rows

What a comparison demands of a pair of rows, what an entry has to say about it, and which
checks it can fail, all in terms of the fields of the two rows.
-/

namespace EvalDiff
namespace Comparison

open Log Report

/-- A line of both logs. -/
structure RowPair where
  line : Nat
  baseline : String
  comparison : String
deriving DecidableEq, Repr

namespace RowPair

/-- What the comparison makes of a pair: nothing, an entry, or an error. -/
def outcome (o : Options) (p : RowPair) : Except Error (Option Entry) :=
  compareLine o p.line p.baseline p.comparison

/-- The baseline row carries the marker and a category that is not the aggregate. -/
def Compared (o : Options) (p : RowPair) : Prop :=
  Marked o.marker p.baseline ∧
    ∃ category ∈ (fields p.baseline)[1]?, category ≠ o.aggregate

instance (o : Options) (p : RowPair) : Decidable (p.Compared o) :=
  inferInstanceAs (Decidable (_ ∧ _))

/-- The comparison row carries the marker and the category of the baseline row. -/
def Aligned (marker : String) (p : RowPair) : Prop :=
  Marked marker p.comparison ∧ (fields p.comparison)[1]? = (fields p.baseline)[1]?

/-- Both rows end in a number, and the baseline's is not a zero that the comparison moves away
from. -/
structure HasValues (p : RowPair) (x y : Binary64) : Prop where
  baseline : Binary64.ofToken (valueToken p.baseline) = .ok x
  comparison : Binary64.ofToken (valueToken p.comparison) = .ok y
  defined : ¬ (x.isZero = true ∧ (y.lt x = true ∨ x.lt y = true))

structure Comparable (o : Options) (p : RowPair) : Prop where
  aligned : o.strict = true → p.Aligned o.marker
  baseline_fields : 3 ≤ (fields p.baseline).length
  comparison_fields : 3 ≤ (fields p.comparison).length
  values : ∃ x y, p.HasValues x y

/-- What a pair has to meet.  A row without the marker may be anything, and the row of the
aggregate needs no more than its category. -/
def Acceptable (o : Options) (p : RowPair) : Prop :=
  Marked o.marker p.baseline →
    ∃ category, (fields p.baseline)[1]? = some category ∧
      (category ≠ o.aggregate → p.Comparable o)

/-- An entry says what stands in a pair of rows. -/
structure Describes (p : RowPair) (e : Entry) : Prop where
  line : e.line = p.line
  category : (fields p.baseline)[1]? = some e.category
  baseline : Binary64.ofToken (valueToken p.baseline) = .ok e.baseline
  comparison : Binary64.ofToken (valueToken p.comparison) = .ok e.comparison
  verdict : e.verdict = Verdict.ofValues e.baseline e.comparison
  delta :
    e.delta = if e.verdict = .unchanged then .zero else e.comparison / e.baseline - .one

end RowPair

inductive Check where
  | baselineCategory
  | comparisonMarker
  | comparisonCategory
  | sameCategory
  | baselineFields
  | baselineValue
  | comparisonFields
  | comparisonValue
  | nonzeroBaseline
deriving DecidableEq, Repr

def Check.order : List Check :=
  [.baselineCategory, .comparisonMarker, .comparisonCategory, .sameCategory, .baselineFields,
    .baselineValue, .comparisonFields, .comparisonValue, .nonzeroBaseline]

/-- A pair of rows fails a check, whatever the other checks say, and the error that stands for
it. -/
inductive Fails (o : Options) (p : RowPair) : Check → Error → Prop where
  | baselineCategory (hm : Marked o.marker p.baseline) (h : (fields p.baseline)[1]? = none) :
    Fails o p .baselineCategory (.badRow p.line .noCategory)
  | comparisonMarker (hp : p.Compared o) (hs : o.strict = true)
    (h : ¬ Marked o.marker p.comparison) :
    Fails o p .comparisonMarker (.misaligned p.line (.otherMarker o.marker))
  | comparisonCategory (hp : p.Compared o) (hs : o.strict = true)
    (h : (fields p.comparison)[1]? = none) :
    Fails o p .comparisonCategory (.badRow p.line .noCategory)
  | sameCategory {category found : String} (hp : p.Compared o) (hs : o.strict = true)
    (hc : (fields p.baseline)[1]? = some category)
    (hf : (fields p.comparison)[1]? = some found) (h : found ≠ category) :
    Fails o p .sameCategory (.misaligned p.line (.otherCategory category found))
  | baselineFields (hp : p.Compared o) (h : (fields p.baseline).length < 3) :
    Fails o p .baselineFields (.badRow p.line (.tooFewFields (fields p.baseline).length))
  | baselineValue {fault : Binary64.TokenFault} (hp : p.Compared o)
    (h : Binary64.ofToken (valueToken p.baseline) = .error fault) :
    Fails o p .baselineValue
      (.badRow p.line (.invalidValue (valueToken p.baseline) fault))
  | comparisonFields (hp : p.Compared o) (h : (fields p.comparison).length < 3) :
    Fails o p .comparisonFields (.badRow p.line (.tooFewFields (fields p.comparison).length))
  | comparisonValue {fault : Binary64.TokenFault} (hp : p.Compared o)
    (h : Binary64.ofToken (valueToken p.comparison) = .error fault) :
    Fails o p .comparisonValue
      (.badRow p.line (.invalidValue (valueToken p.comparison) fault))
  | nonzeroBaseline {category : String} {x y : Binary64} (hp : p.Compared o)
    (hc : (fields p.baseline)[1]? = some category)
    (hx : Binary64.ofToken (valueToken p.baseline) = .ok x)
    (hy : Binary64.ofToken (valueToken p.comparison) = .ok y)
    (hz : x.isZero = true) (h : y.lt x = true ∨ x.lt y = true) :
    Fails o p .nonzeroBaseline (.zeroBaseline p.line category)

/-- The error of the first check in a list that a pair of rows fails. -/
inductive FirstFailure (o : Options) (p : RowPair) : List Check → Error → Prop where
  | here {check : Check} {rest : List Check} {e : Error} (h : Fails o p check e) :
    FirstFailure o p (check :: rest) e
  | later {check : Check} {rest : List Check} {e : Error} (hpass : ∀ f, ¬ Fails o p check f)
    (h : FirstFailure o p rest e) : FirstFailure o p (check :: rest) e

end Comparison
end EvalDiff
