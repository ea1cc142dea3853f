import SimplicioFast.Lib.Json

/-!
# Federations

A federation is made of members, one for each repository, and of typed edges between their handles.  The constructors
of the three classes refuse what is not well formed, so a value of one of these types carries its checks.

`str.casefold` is a parameter of the constructor.
-/

namespace SimplicioFast

namespace Federated

/-- The exceptions of this module. -/
inductive Raised
  | federationError (reasonCode : PyStr)
  | overflowError
deriving DecidableEq

def EDGE_SCHEMA : PyStr := "simplicio.fast.federated-edge/v1"

def MAX_MEMBERS : ℕ := 256

def MAX_EDGES : ℕ := 100000

def MAX_BYTES : ℕ := 8 * 1024 * 1024

/-- `FederationError(reason_code)`, unless the condition holds. -/
def check (condition : Bool) (reasonCode : PyStr) : Except Raised Unit :=
  if condition then .ok () else .error (.federationError reasonCode)

def canonical (value : Json) : Except Raised Bytes := do
  check ((value.dumps true).length ≤ MAX_BYTES) "federation_size_limit"
  return PyStr.encodeAscii (value.dumps true)

/-- Whether the text has a character that is not white space. -/
def isFilled (value : PyStr) : Bool := value.strip ≠ []

def text (value reason : PyStr) : Except Raised Unit := check (isFilled value) reason

/-- `value.partition(":")`, without the separator, when there is one. -/
def splitHandle (value : PyStr) : Option (PyStr × PyStr) :=
  match value.dropWhile (· ≠ .scalar ':') with
  | [] => none
  | _ :: local_ => some (value.takeWhile (· ≠ .scalar ':'), local_)

def handle (value reason : PyStr) : Except Raised Unit := do
  text value reason
  check ((splitHandle value).any fun (owner, local_) => isFilled owner && isFilled local_) "edge_handle_invalid"

def budget (value : ℤ) (reason : PyStr) (minimum maximum : ℕ) : Except Raised Unit :=
  check (minimum ≤ value && value ≤ maximum) reason

/-! ## Members -/

/-- The fields of `FederationMember`. -/
structure MemberFields where
  repository : PyStr
  commit : PyStr
  generation : PyStr
  schema : PyStr
  digest : PyStr
  scope : PyStr := "*"
  tombstone : Bool := false
deriving DecidableEq

def removePrefix (start value : PyStr) : PyStr := if start.isPrefixOf value then value.drop start.length else value

def MemberFields.postInit (m : MemberFields) : Except Raised Unit := do
  text m.repository "member_repository_invalid"
  text m.commit "member_commit_invalid"
  text m.generation "member_generation_invalid"
  text m.schema "member_schema_invalid"
  text m.digest "member_digest_invalid"
  text m.scope "member_scope_invalid"
  check (removePrefix "sha256:" m.digest).isSha256 "member_digest_invalid"

/-- `FederationMember`: fields that the constructor accepts. -/
structure FederationMember extends MemberFields where
  valid : toMemberFields.postInit = .ok ()

/-- The constructor of `FederationMember`. -/
def FederationMember.make (m : MemberFields) : Except Raised FederationMember :=
  match h : m.postInit with
  | .ok () => .ok ⟨m, h⟩
  | .error e => .error e

/-! ## Edges -/

/-- The fields of `FederatedEdge`; the confidence is an integer or a float. -/
structure EdgeFields where
  sourceHandle : PyStr
  targetHandle : PyStr
  relationType : PyStr
  confidence : Json
  evidence : List PyStr := []
  derived : Bool := false

/-- The check of the confidence; `float` raises `OverflowError` for the integers that round to 2 ^ 1024. -/
def checkConfidence : Json → Except Raised Unit
  | .int n =>
    if 2 ^ 1024 - 2 ^ 970 ≤ n.natAbs then .error .overflowError
    else check (0 ≤ n && n ≤ 1) "edge_confidence_invalid"
  | .float d => check ((Json.number? (.float d)).any fun (p, q) => 0 ≤ p && p ≤ 10 ^ q) "edge_confidence_invalid"
  | _ => .error (.federationError "edge_confidence_invalid")

def EdgeFields.postInit (e : EdgeFields) : Except Raised Unit := do
  handle e.sourceHandle "edge_source_invalid"
  handle e.targetHandle "edge_target_invalid"
  text e.relationType "edge_relation_invalid"
  checkConfidence e.confidence
  check (e.evidence.all isFilled) "edge_evidence_invalid"
  check (!(e.derived && e.evidence.isEmpty)) "derived_edge_evidence_missing"

/-- `FederatedEdge`: fields that the constructor accepts. -/
structure FederatedEdge extends EdgeFields where
  valid : toEdgeFields.postInit = .ok ()

/-- The constructor of `FederatedEdge`. -/
def FederatedEdge.make (e : EdgeFields) : Except Raised FederatedEdge :=
  match h : e.postInit with
  | .ok () => .ok ⟨e, h⟩
  | .error x => .error x

namespace FederatedEdge

def toDict (e : FederatedEdge) : Json :=
  .obj [("schema", .str EDGE_SCHEMA), ("source_handle", .str e.sourceHandle), ("target_handle", .str e.targetHandle),
    ("relation_type", .str e.relationType), ("confidence", e.confidence), ("evidence", .arr (e.evidence.map .str)),
    ("derived", .bool e.derived)]

/-- Whether two edges are equal; an integer and a float of the same value are. -/
def same (e f : FederatedEdge) : Bool :=
  e.sourceHandle = f.sourceHandle && e.targetHandle = f.targetHandle && e.relationType = f.relationType &&
    e.confidence.pyEq f.confidence && e.evidence = f.evidence && e.derived = f.derived

/-- The order of the edges of a federation: by source, target and type. -/
def le (e f : FederatedEdge) : Bool :=
  e.sourceHandle < f.sourceHandle || e.sourceHandle = f.sourceHandle && (e.targetHandle < f.targetHandle ||
    e.targetHandle = f.targetHandle && e.relationType ≤ f.relationType)

end FederatedEdge

/-! ## Federations -/

structure Federation where
  members : List FederationMember
  edges : List FederatedEdge

namespace Federation

/-- The order of the members of a federation: by repository and generation. -/
def memberLe (m n : FederationMember) : Bool :=
  m.repository < n.repository || m.repository = n.repository && m.generation ≤ n.generation

def edgeRepository (casefold : PyStr → PyStr) (value : PyStr) : PyStr :=
  casefold (value.takeWhile (· ≠ .scalar ':'))

/-- Whether two of the edges are equal. -/
def anyDuplicate : List FederatedEdge → Bool
  | [] => false
  | e :: rest => rest.any e.same || anyDuplicate rest

/-- `Federation.__init__`. -/
def make (casefold : PyStr → PyStr) (members : List FederationMember) (edges : List FederatedEdge) :
    Except Raised Federation := do
  check (members ≠ [] && members.length ≤ MAX_MEMBERS) "member_count_limit"
  check (edges.length ≤ MAX_EDGES) "edge_count_limit"
  let repositories := members.map fun m => casefold m.repository
  check (decide repositories.Nodup) "duplicate_member_repository"
  check (!members.any fun m => m.tombstone) "member_tombstone_present"
  check (!anyDuplicate edges) "duplicate_edge"
  edges.forM fun e => check (edgeRepository casefold e.sourceHandle ∈ repositories &&
    edgeRepository casefold e.targetHandle ∈ repositories) "edge_member_missing"
  return ⟨members.insertionSort fun m n => memberLe m n = true, edges.insertionSort fun e f => e.le f = true⟩

/-- `_dependencies.get(source, ())`. -/
def outgoing (f : Federation) (source : PyStr) : List FederatedEdge := f.edges.filter fun e => e.sourceHandle = source

end Federation

end Federated

end SimplicioFast
