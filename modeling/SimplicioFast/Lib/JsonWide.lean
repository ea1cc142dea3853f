import SimplicioFast.Lib.Json

/-!
# JSON texts with the default separators

`json.dumps` without `separators` puts a space behind every comma and colon.  The text is only counted: its words are
what `str.split` finds in it.
-/

namespace SimplicioFast

namespace Json

/-- Python's truth value of a JSON value. -/
def truthy : Json → Bool
  | .null => false
  | .bool b => b
  | .int n => n ≠ 0
  | .float d => d.digits ≠ 0
  | .nonFinite _ => true
  | .str s => !s.isEmpty
  | .arr vs => !vs.isEmpty
  | .obj fs => !fs.isEmpty

mutual

/-- `json.dumps(value)`: keys in the order in which the value holds them, and a space behind each separator. -/
def writeWide : Json → PyStr
  | .null => "null"
  | .bool b => if b then "true" else "false"
  | .int n => writeInt n
  | .float d => PyStr.ofChars d.repr
  | .nonFinite k => writeNonFinite k
  | .str s => writeStr true s
  | .arr [] => "[]"
  | .arr (v :: vs) => .scalar '[' :: (writeWide v ++ writeWideItems vs)
  | .obj [] => "\x7b\x7d"
  | .obj (f :: fs) => .scalar '{' :: (writeWideField f ++ writeWideFields fs)

/-- The items after the first one, and the closing bracket. -/
def writeWideItems : List Json → PyStr
  | [] => [.scalar ']']
  | v :: vs => .scalar ',' :: .scalar ' ' :: (writeWide v ++ writeWideItems vs)

def writeWideField : PyStr × Json → PyStr
  | (k, v) => writeStr true k ++ .scalar ':' :: .scalar ' ' :: writeWide v

/-- The fields after the first one, and the closing brace. -/
def writeWideFields : List (PyStr × Json) → PyStr
  | [] => [.scalar '}']
  | f :: fs => .scalar ',' :: .scalar ' ' :: (writeWideField f ++ writeWideFields fs)

end

end Json

namespace PyStr

/-- The number of words that begin in the text, where `inside` says that one has begun before. -/
def countWords : Bool → PyStr → ℕ
  | _, [] => 0
  | inside, c :: s =>
    if isSpace c then countWords false s else (if inside then 0 else 1) + countWords true s

/-- `len(s.split())`. -/
def words (s : PyStr) : ℕ := countWords false s

end PyStr

end SimplicioFast
