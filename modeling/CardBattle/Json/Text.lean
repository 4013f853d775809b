import CardBattle.Json.Codec
import CardBattle.Json.Reader

/-!
# Values given as texts

A value of a type can be given as a JSON text.  What stands at the front of the text is read
before what follows it is looked at.
-/

namespace CardBattle.Json

/-- The value that `read` finds in a text. -/
def readText {α : Type} (read : Input → Except ReadFault α) (text : String) :
    Except ReadFault α := do
  let (w, rest?) := front text
  let a ← read (.written maxNesting w)
  match rest? with
  | some rest => if rest.all isBlank then return a else .error .malformed
  | none => .error .malformed

end CardBattle.Json
