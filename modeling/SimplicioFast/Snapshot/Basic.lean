import SimplicioFast.Lib.Json

/-!
# Symbols and relations

What a snapshot holds about the source files of a repository.
-/

namespace SimplicioFast

structure Symbol where
  name : PyStr
  qualifiedName : PyStr
  kind : PyStr
  file : PyStr
  line : ℕ
  endLine : ℕ
  symbolId : PyStr := []
  signature : PyStr := []
  baseGeneration : Option PyStr := none
  overlayGeneration : Option PyStr := none
deriving DecidableEq

structure Relation where
  origin : PyStr
  destination : PyStr
  kind : PyStr
  confidence : Decimal
  originId : PyStr := []
  destinationId : PyStr := []
deriving DecidableEq

/-- What the methods `files`, `symbols` and `relations` of an open snapshot return. -/
structure Snapshot where
  files : List (PyStr × Bytes)
  symbols : List Symbol
  relations : List Relation

end SimplicioFast
