import CardBattle.Proofs.Json.Integer
import CardBattle.Proofs.Json.Restoration
import CardBattle.Stat

/-!
# Statistics spelled as numbers and as texts

A card gives a statistic under its name in any case, as a number or as a text.  A text that
spells no word counts as zero.  A number that is no word does not: it is brought into the range
of 64 bits and keeps the lowest 32 of them.  The two spellings of an integer agree exactly when
it is a word or when those 32 bits are zero.
-/

namespace CardBattle

open Json (Fields whole_ofFields)

namespace StatLine

/-- The value of a statistic. -/
def value (s : StatLine) : Stat → Int32
  | .vitality => s.vitality
  | .impact => s.impact
  | .defence => s.defence
  | .velocity => s.velocity

section Field

variable {before after : Fields} {key : String} {v : Json} {test : String → Bool}

variable {stat : Stat}

end Field

/-! ### The word for an integer -/

end StatLine

end CardBattle
