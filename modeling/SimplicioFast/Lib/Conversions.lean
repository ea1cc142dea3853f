import SimplicioFast.Lib.Json

/-!
# Conversions of JSON values

What `str`, `int` and `dict` do with JSON values of other types than their own does not matter to a reader of what
it has written itself, so a reader takes them as parameters.
-/

namespace SimplicioFast

/-- What `int` of a JSON value raises: an exception that a reader catches (`TypeError` or `ValueError`), or
`OverflowError`. -/
inductive IntRaised
  | caught
  | overflowError
deriving DecidableEq

/-- Python's `str`, `int` and `dict` on JSON values; `none` stands for an exception. -/
structure Conversions where
  str : Json → PyStr
  int : Json → Except IntRaised ℤ
  dict : Json → Option JsonObject

/-- On values of their own type the conversions change nothing. -/
structure Conversions.Lawful (c : Conversions) : Prop where
  str : ∀ s, c.str (.str s) = s
  int : ∀ n, c.int (.int n) = .ok n
  dict : ∀ m : JsonObject, c.dict m.toJson = some m

/-- What iterating over a JSON value gives; `none` stands for the `TypeError`. -/
def Json.iterated : Json → Option (List Json)
  | .arr vs => some vs
  | .str s => some (s.map fun c => .str [c])
  | .obj fs => some (fs.map fun f => .str f.1)
  | _ => none

def sampleConversions : Conversions where
  str v := match v with
    | .str s => s
    | _ => []
  int v := match v with
    | .int n => .ok n
    | _ => .error .caught
  dict := JsonObject.ofJson?

theorem lawful_sampleConversions : sampleConversions.Lawful := ⟨fun _ => rfl, fun _ => rfl, JsonObject.ofJson?_toJson⟩

end SimplicioFast
