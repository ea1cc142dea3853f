import SimplicioFast.Lib.Fields
import SimplicioFast.Lib.Json
import SimplicioFast.Lib.Outcome
import SimplicioFast.Lib.Sha256

/-!
# Stack locks

`validate_stack_lock` reads a lock: its members, each with the commit it is pinned to, the contracts between them, the
routes and the required contracts.  It returns a receipt with the canonical form of the lock and its digest.
-/

namespace SimplicioFast

namespace CrossRepo

def STACK_LOCK_SCHEMA : PyStr := "simplicio.stack-lock/v1"

def RECEIPT_SCHEMA : PyStr := "simplicio.fast.cross-repo-receipt/v1"

def REPOSITORY_NAMES : List PyStr :=
  ["simplicio-mapper", "simplicio-fast", "simplicio-dev-cli", "simplicio-loop", "simplicio-runtime",
    "simplicio-agent", "simplicio-code"]

/-- `BASE_REQUIRED_REPOSITORIES`, sorted. -/
def BASE_REQUIRED_REPOSITORIES : List PyStr :=
  ["wesleysimplicio/simplicio-dev-cli", "wesleysimplicio/simplicio-fast", "wesleysimplicio/simplicio-loop",
    "wesleysimplicio/simplicio-mapper"]

def RUNTIME_REPOSITORY : PyStr := "wesleysimplicio/simplicio-runtime"

def maxMembers : ℕ := 32

def maxContracts : ℕ := 128

def maxRoutes : ℕ := 128

def maxBytes : ℕ := 512 * 1024

def STANDALONE : PyStr := "loop-standalone"

def BACKED : PyStr := "runtime-backed"

def AUTHORITY_OWNERS : List (PyStr × PyStr) :=
  [("source-mutation", "wesleysimplicio/simplicio-dev-cli"), ("queue", "wesleysimplicio/simplicio-loop"),
    ("lease", "wesleysimplicio/simplicio-loop"), ("completion", "wesleysimplicio/simplicio-loop"),
    ("effect", RUNTIME_REPOSITORY), ("policy", RUNTIME_REPOSITORY)]

structure CrossRepoError where
  reasonCode : PyStr
  path : PyStr
  deriving DecidableEq

/-- `_fail`, unless the condition holds. -/
def require (condition : Bool) (reason path : PyStr) : Except CrossRepoError Unit :=
  if condition then .ok () else .error ⟨reason, path⟩

def text (value : Option Json) (reason path : PyStr) : Except CrossRepoError PyStr :=
  match value with
  | some (.str s) => if s.strip = [] then .error ⟨reason, path⟩ else .ok s
  | _ => .error ⟨reason, path⟩

def removePrefix (start s : PyStr) : PyStr := if start.isPrefixOf s then s.drop start.length else s

example : removePrefix "sha256:" "sha256:ab" = ("ab" : PyStr) := by decide +kernel

def isHex (c : PyChar) : Bool := (48 ≤ c.code && c.code ≤ 57) || (97 ≤ c.code && c.code ≤ 102)

/-- `_sha`, of 40 characters. -/
def sha40 (value : Option Json) (reason path : PyStr) : Except CrossRepoError PyStr := do
  let result ← text value reason path
  require (result.length = 40 && result.all isHex) reason path
  return result

/-- `_sha`, of 64 characters behind an optional `sha256:`. -/
def sha64 (value : Option Json) (reason path : PyStr) : Except CrossRepoError PyStr := do
  let value ← text value reason path
  let result := removePrefix "sha256:" value
  require (result.length = 64 && result.all isHex) reason path
  return result

def list (value : Option Json) (reason path : PyStr) (maximum : ℕ) : Except CrossRepoError (List Json) :=
  match value with
  | some (.arr vs) => if vs.length ≤ maximum then .ok vs else .error ⟨reason, path⟩
  | _ => .error ⟨reason, path⟩

def repository (value : Option Json) (path : PyStr) : Except CrossRepoError PyStr := do
  let repository ← text value "repository_invalid" path
  require ((PyStr.splitFirst? (.scalar '/') repository).any fun parts =>
    parts.1 = ("wesleysimplicio" : PyStr) && parts.2 ∈ REPOSITORY_NAMES) "repository_invalid" path
  return repository

/-- The path of an item, such as `members[0]`. -/
def at_ (path : PyStr) (index : ℕ) : PyStr :=
  path ++ .scalar '[' :: (PyStr.ofChars (Nat.toDigits 10 index) ++ [.scalar ']'])

def fields (value : Json) (reason path : PyStr) : Except CrossRepoError (List (PyStr × Json)) :=
  match value with
  | .obj fields => .ok fields
  | _ => .error ⟨reason, path⟩

/-! ## Members -/

structure LockedMember where
  repository : PyStr
  commit : PyStr
  version : PyStr
  artifactDigest : Option PyStr
  optional : Bool
  deriving DecidableEq

namespace LockedMember

/-- The digest of the artifact, which may be `None`. -/
def artifact (value : Option Json) (path : PyStr) : Except CrossRepoError (Option PyStr) :=
  match value with
  | none => .ok none
  | some .null => .ok none
  | some v => (sha64 (some v) "member_artifact_digest_invalid" path).map fun digest =>
    some (("sha256:" : PyStr) ++ digest)

/-- The flag `optional`. -/
def flag (value : Option Json) (path : PyStr) : Except CrossRepoError Bool :=
  match value with
  | none => .ok false
  | some (.bool b) => .ok b
  | _ => .error ⟨"member_optional_invalid", path⟩

def fromDict (index : ℕ) (value : Json) : Except CrossRepoError LockedMember := do
  let path := at_ "members" index
  let fs ← fields value "member_invalid" path
  let repository ← CrossRepo.repository (Dict.find fs "repository") (path ++ (".repository" : PyStr))
  let commit ← sha40 (Dict.find fs "commit") "member_commit_unpinned" (path ++ (".commit" : PyStr))
  let version ← text (Dict.find fs "version") "member_version_invalid" (path ++ (".version" : PyStr))
  let artifactDigest ← artifact (Dict.find fs "artifact_digest") (path ++ (".artifact_digest" : PyStr))
  let optional ← flag (Dict.find fs "optional") (path ++ (".optional" : PyStr))
  return { repository, commit, version, artifactDigest, optional := optional }

/-- `_member_dict`. -/
def toDict (m : LockedMember) : Json :=
  let pinned : List (PyStr × Json) := [("repository", .str m.repository), ("commit", .str m.commit),
    ("version", .str m.version), ("optional", .bool m.optional)]
  .obj (pinned ++ m.artifactDigest.toList.map fun digest => (("artifact_digest" : PyStr), Json.str digest))

end LockedMember

/-! ## Contracts -/

structure LockedContract where
  schema : PyStr
  owner : PyStr
  producer : PyStr
  consumers : List PyStr
  digest : PyStr
  deriving DecidableEq

namespace LockedContract

def fromDict (index : ℕ) (value : Json) : Except CrossRepoError LockedContract := do
  let path := at_ "contracts" index
  let fs ← fields value "contract_invalid" path
  let schema ← text (Dict.find fs "schema") "contract_schema_invalid" (path ++ (".schema" : PyStr))
  let owner ← repository (Dict.find fs "owner") (path ++ (".owner" : PyStr))
  let producer ← repository (Dict.find fs "producer") (path ++ (".producer" : PyStr))
  let consumersPath := path ++ (".consumers" : PyStr)
  let values ← list (Dict.find fs "consumers") "contract_consumers_invalid" consumersPath maxMembers
  let consumers ← enumerateM (fun i item => repository (some item) (at_ consumersPath i)) 0 values
  require (consumers ≠ []) "contract_consumers_empty" consumersPath
  let digest ← sha64 (Dict.find fs "digest") "contract_digest_invalid" (path ++ (".digest" : PyStr))
  return { schema, owner, producer, consumers := PyStr.sortedSet consumers,
           digest := ("sha256:" : PyStr) ++ digest }

def participants (c : LockedContract) : List PyStr := c.owner :: c.producer :: c.consumers

/-- `_contract_dict`. -/
def toDict (c : LockedContract) : Json :=
  .obj [("schema", .str c.schema), ("owner", .str c.owner), ("producer", .str c.producer),
    ("consumers", .arr (c.consumers.map .str)), ("digest", .str c.digest)]

end LockedContract

/-! ## Routes -/

/-- A normalized route. -/
structure Route where
  source : PyStr
  target : PyStr
  kind : PyStr
  authority : PyStr
  deriving DecidableEq

namespace Route

/-- `tuple(item.values())`. -/
def values (r : Route) : List PyStr := [r.source, r.target, r.kind, r.authority]

/-- A turn of the loop of `_validate_routes`. -/
def fromDict (repositories : List PyStr) (index : ℕ) (value : Json) : Except CrossRepoError Route := do
  let path := at_ "routes" index
  let fs ← fields value "route_invalid" path
  let source ← repository (Dict.find fs "source") (path ++ (".source" : PyStr))
  let target ← repository (Dict.find fs "target") (path ++ (".target" : PyStr))
  let kind ← text (Dict.find fs "kind") "route_kind_invalid" (path ++ (".kind" : PyStr))
  let authority ← text (Dict.find fs "authority") "route_authority_invalid" (path ++ (".authority" : PyStr))
  require (source ∈ repositories && target ∈ repositories) "route_member_missing" path
  require ((Dict.find AUTHORITY_OWNERS authority).all (target = ·)) "authority_owner_invalid" path
  return { source, target, kind, authority := authority }

def toDict (r : Route) : Json :=
  .obj [("source", .str r.source), ("target", .str r.target), ("kind", .str r.kind), ("authority", .str r.authority)]

end Route

def validateRoutes (value : Option Json) (repositories : List PyStr) : Except CrossRepoError (List Route) := do
  let values ← list value "routes_invalid" "routes" maxRoutes
  let normalized ← enumerateM (Route.fromDict repositories) 0 values
  require normalized.Nodup "duplicate_route" "routes"
  return normalized.insertionSort fun r s => r.values ≤ s.values

/-! ## Locks -/

/-- The lock that a receipt describes, in its canonical order. -/
structure CanonicalLock where
  profile : PyStr
  members : List LockedMember
  contracts : List LockedContract
  routes : List Route
  requiredContracts : List PyStr
  deriving DecidableEq

namespace CanonicalLock

/-- The members, contracts, routes and required contracts as fields. -/
def parts (c : CanonicalLock) : List (PyStr × Json) :=
  [("members", .arr (c.members.map LockedMember.toDict)), ("contracts", .arr (c.contracts.map LockedContract.toDict)),
    ("routes", .arr (c.routes.map Route.toDict)), ("required_contracts", .arr (c.requiredContracts.map .str))]

/-- `_digest` of the canonical lock. -/
def digest (c : CanonicalLock) : Except CrossRepoError PyStr := do
  let encoded := Json.dumps true (.obj (("schema", .str STACK_LOCK_SCHEMA) :: ("profile", .str c.profile) :: c.parts))
  require (encoded.length ≤ maxBytes) "manifest_size_limit" []
  return ("sha256:" : PyStr) ++ PyStr.ofChars (Sha256.hexdigest (PyStr.encodeAscii encoded))

def receipt (c : CanonicalLock) (digest : PyStr) : Json :=
  let evidence : List (PyStr × Json) :=
    [("pinned_commits", .bool true), ("contract_digests", .bool true), ("deterministic_canonical_input", .bool true),
      ("fast_authority", .str "derived-projection-and-read-only-compute"),
      ("source_mutation_owner", .str "wesleysimplicio/simplicio-dev-cli"),
      ("attempt_and_completion_owner", .str "wesleysimplicio/simplicio-loop"),
      ("effect_and_policy_owner", if c.profile = BACKED then .str RUNTIME_REPOSITORY else .null)]
  .obj (("schema", .str RECEIPT_SCHEMA) :: ("status", .str "ready") :: ("profile", .str c.profile) ::
    ("stack_lock_digest", .str digest) :: (c.parts ++ [(("evidence" : PyStr), Json.obj evidence)]))

end CanonicalLock

/-- The checks of the required members. -/
def checkRequired (profile : PyStr) (repositories : List PyStr) : Except CrossRepoError Unit := do
  let missing := BASE_REQUIRED_REPOSITORIES.filter (· ∉ repositories)
  require (missing = []) "required_member_missing" (List.intercalate [.scalar ','] missing)
  require (!(profile = BACKED && RUNTIME_REPOSITORY ∉ repositories)) "runtime_member_required" "members"
  require (!(profile = STANDALONE && RUNTIME_REPOSITORY ∈ repositories)) "runtime_route_forbidden" "members"
  require repositories.Nodup "duplicate_member_repository" "members"

/-- The contracts, whose participants are among the repositories. -/
def validateContracts (value : Option Json) (repositories : List PyStr) :
    Except CrossRepoError (List LockedContract) := do
  let values ← list value "contracts_invalid" "contracts" maxContracts
  let contracts ← enumerateM LockedContract.fromDict 0 values
  require (contracts.map LockedContract.schema).Nodup "duplicate_contract_schema" "contracts"
  let _ ← enumerateM (fun i c => require (c.participants.all (· ∈ repositories)) "contract_member_missing"
    (at_ "contracts" i)) 0 contracts
  return contracts

/-- The required contracts, which are among the contracts. -/
def validateRequired (value : Option Json) (available : List PyStr) : Except CrossRepoError (List PyStr) := do
  let values ← list value "required_contracts_invalid" "required_contracts" maxContracts
  let required ← enumerateM (fun i item => text (some item) "required_contract_invalid" (at_ "required_contracts" i)) 0
    values
  let missing := PyStr.sortedSet (required.filter (· ∉ available))
  require (missing = []) "required_contract_missing" (List.intercalate [.scalar ','] missing)
  return required

def validateProfile (value : Option Json) (profile : Option PyStr) : Except CrossRepoError PyStr := do
  let lockProfile ← text value "profile_invalid" "profile"
  require (lockProfile = STANDALONE || lockProfile = BACKED) "profile_invalid" "profile"
  require (profile.all (· = lockProfile)) "profile_mismatch" "profile"
  return lockProfile

def validateMembers (value : Option Json) (profile : PyStr) : Except CrossRepoError (List LockedMember) := do
  let values ← list value "members_invalid" "members" maxMembers
  require (values ≠ []) "members_empty" "members"
  let members ← enumerateM LockedMember.fromDict 0 values
  checkRequired profile ((members.filter fun m => !m.optional).map LockedMember.repository)
  return members

def canonicalLock (fs : List (PyStr × Json)) (profile : Option PyStr) : Except CrossRepoError CanonicalLock := do
  require (((Dict.find fs "schema").getD .null).pyEq (.str STACK_LOCK_SCHEMA)) "stack_lock_schema_invalid" "schema"
  let lockProfile ← validateProfile (Dict.find fs "profile") profile
  let members ← validateMembers (Dict.find fs "members") lockProfile
  let repositories := members.map LockedMember.repository
  let contracts ← validateContracts (Dict.find fs "contracts") repositories
  let routes ← validateRoutes (Dict.find fs "routes") repositories
  let required ← validateRequired (Dict.find fs "required_contracts") (contracts.map LockedContract.schema)
  return { profile := lockProfile
           members := members.insertionSort fun m n => m.repository ≤ n.repository
           contracts := contracts.insertionSort fun c d => c.schema ≤ d.schema
           routes := routes
           requiredContracts := PyStr.sortedSet required }

/-- `validate_stack_lock`; it returns the canonical lock with its digest, of which the receipt is made. -/
def validateStackLock (payload : Json) (profile : Option PyStr) : Except CrossRepoError (CanonicalLock × PyStr) := do
  let fs ← fields payload "manifest_invalid" []
  let lock ← canonicalLock fs profile
  let digest ← lock.digest
  return (lock, digest)

end CrossRepo

end SimplicioFast
