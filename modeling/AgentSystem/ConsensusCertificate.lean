import AgentSystem.AuditDaemon
import Mathlib.Data.List.Sort

/-!
# Consensus certificates

`ProofOfConsensus` and `SwarmIDS`: the signatures of the swarm members, the certificate that
collects them and its check. The check counts failures; the third one of a member quarantines it and
rotates all keys, also in the middle of a check.
-/
namespace AgentSystem.Consensus

open Json Sha256 Audit

inductive Role
  | ceo
  | cto
  | dev
  | qa
  | cfo
  deriving DecidableEq

namespace Role

def name : Role → String
  | ceo => "ceo"
  | cto => "cto"
  | dev => "dev"
  | qa => "qa"
  | cfo => "cfo"

/-- `ROLES`. -/
def all : List Role := [ceo, cto, dev, qa, cfo]

/-- `len(swarm_members) // 2 + 1`. -/
def majorityNeeded : ℕ := all.length / 2 + 1

def ofName (name : String) : Option Role := all.find? fun role => role.name = name

end Role

/-- A secret for each member. -/
structure Keys where
  secret : Role → String
  nonempty : ∀ role, secret role ≠ ""

/-- The configured secrets, `none` where one is missing, and those of later rotations. -/
structure Secrets where
  configured : Option Keys
  configuredConsensus : Option String
  tokens : ℕ → Keys
  consensusToken : ℕ → String

/-- The keys in use, and what the intrusion detection knows. -/
structure Session where
  secretKeys : Option Keys := none
  consensusKey : Option String := none
  quarantined : Role → Bool := fun _ => false
  failuresCount : Role → ℕ := fun _ => 0
  rotations : ℕ := 0

namespace Session

variable (secrets : Secrets) (s : Session)

/-- `_load_configured_keys`, and whether it returns. -/
def loadConfiguredKeys : Session × Bool :=
  match secrets.configured with
  | none => (s, false)
  | some keys =>
      match secrets.configuredConsensus with
      | none => ({ s with secretKeys := some keys }, false)
      | some key => ({ s with secretKeys := some keys, consensusKey := some key }, true)

/-- The secrets of the members, loaded if there are none yet. -/
def memberKeys : Session × Option Keys :=
  match s.secretKeys with
  | some keys => (s, some keys)
  | none =>
      match s.loadConfiguredKeys secrets with
      | (s, true) => (s, s.secretKeys)
      | (s, false) => (s, none)

def rotateSessionKeys : Session :=
  { s with
    secretKeys := some (secrets.tokens s.rotations)
    consensusKey := some (secrets.consensusToken s.rotations)
    rotations := s.rotations + 1 }

def quarantineNode (role : Role) : Session :=
  if s.quarantined role then s
  else { s with quarantined := Function.update s.quarantined role true }.rotateSessionKeys secrets

def countFailure (role : Role) : Session :=
  { s with failuresCount := Function.update s.failuresCount role (s.failuresCount role + 1) }

def recordFailure (role : Role) : Session :=
  let s := s.countFailure role
  if 3 ≤ s.failuresCount role then s.quarantineNode secrets role else s

end Session

section Values

variable {D : Type}

/-- The items of a dictionary whose keys are strings. -/
def stringItems (items : List (PyKey D × PyValue D)) : List (PyStr × PyValue D) :=
  items.filterMap fun item =>
    match item.1 with
    | .str s => some (s, item.2)
    | _ => none

/-- `value.get(name)` for a dictionary. -/
def lookup (items : List (PyKey D × PyValue D)) (name : String) : Option (PyValue D) :=
  PySequence.getItem (stringItems items) (toPyStr name)

/-- `value[name]`, `none` when that raises. -/
def field (value : PyValue D) (name : String) : Option (PyValue D) :=
  match value with
  | .dict items => lookup items name
  | _ => none

def PyKey.toValue : PyKey D → PyValue D
  | .none => .none
  | .bool b => .bool b
  | .int n => .int n
  | .float x => .float x
  | .str s => .str s

/-- What a loop over the value goes through, `none` when that raises. -/
def elements : PyValue D → Option (List (PyValue D))
  | .list items => some items
  | .dict items => some (items.map fun item => PyKey.toValue item.1)
  | .str s => some (s.map fun c => .str [c])
  | _ => none

/-- The member that an approval names. -/
def roleOf : PyValue D → Option Role
  | .str s => Role.all.find? fun role => s = toPyStr role.name
  | _ => none

end Values

/-! ## Signatures -/

variable {D : Type} [Interpreter D] [Coercion D]

/-- What an f-string shows for a payload hash, `none` when it cannot be built or encoded. -/
def hashText (payloadHash : PyValue D) : Option String := (formatValue payloadHash).bind encode

/-- `generate_member_signature`, `none` when it raises. -/
def generateMemberSignature (secrets : Secrets) (s : Session) (role : Role)
    (payloadHash : PyValue D) : Session × Option String :=
  let (s, keys) := s.memberKeys secrets
  (s, keys.bind fun keys => (hashText payloadHash).map fun text =>
    hexdigest (role.name ++ ":" ++ text ++ ":" ++ keys.secret role))

/-- `",".join(sorted(roles))`. -/
def rolesText (roles : List Role) : String :=
  ",".intercalate ((roles.map Role.name).insertionSort (· ≤ ·))

def masterSignature (s : Session) (payloadHash : PyValue D) (roles : List Role) : Option String :=
  (hashText payloadHash).map fun text =>
    hexdigest ("consensus:" ++ text ++ ":" ++ rolesText roles ++ ":" ++ s.consensusKey.getD "None")

/-- The signatures of these members, `none` when one of them raises. -/
def signAll (secrets : Secrets) (payloadHash : PyValue D) :
    Session → List Role → Session × Option (List (Role × String))
  | s, [] => (s, some [])
  | s, role :: roles =>
      match generateMemberSignature secrets s role payloadHash with
      | (s, none) => (s, none)
      | (s, some signature) =>
          (signAll secrets payloadHash s roles).map id (Option.map ((role, signature) :: ·))

/-- `create_consensus_certificate`, `none` when it raises. -/
def createConsensusCertificate (secrets : Secrets) (s : Session) (payloadHash : String)
    (approvedRoles : List String) (timestamp : String) : Session × Option (PyValue D) :=
  let approvals := (approvedRoles.filterMap fun role => Role.ofName role.toLower).filter fun role =>
    !s.quarantined role
  if approvals.length < Role.majorityNeeded then (s, none)
  else
    match signAll (D := D) secrets (strValue payloadHash) s approvals with
    | (s, none) => (s, none)
    | (s, some signatures) =>
        (s, (masterSignature (D := D) s (strValue payloadHash) approvals).map fun signature =>
          dictValue
            [("payload_hash", strValue payloadHash),
             ("approvals", .list (approvals.map fun role => strValue role.name)),
             ("signatures", dictValue ((PySequence.fromPairs signatures).map fun signed =>
               (signed.1.name, strValue signed.2))),
             ("consensus_signature", strValue signature),
             ("timestamp", strValue timestamp)])

/-! ## The check -/

/-- The loop over the approvals: the members whose signatures are right, `none` when it raises. -/
def checkApprovals (secrets : Secrets) (payloadHash signatures : PyValue D) :
    Session → List (PyValue D) → Session × Option (List Role)
  | s, [] => (s, some [])
  | s, approval :: approvals =>
      match roleOf approval with
      | none => checkApprovals secrets payloadHash signatures s approvals
      | some role =>
          if s.quarantined role then checkApprovals secrets payloadHash signatures s approvals
          else
            match generateMemberSignature secrets s role payloadHash, signatures with
            | (s, some expected), .dict items =>
                if isText (lookup items role.name) expected then
                  (checkApprovals secrets payloadHash signatures s approvals).map id
                    (Option.map (role :: ·))
                else
                  checkApprovals secrets payloadHash signatures (s.recordFailure secrets role)
                    approvals
            | (s, _), _ => (s, none)

/-- `verify_consensus_certificate`. -/
def verifyConsensusCertificate (secrets : Secrets) (s : Session) (certificate : PyValue D) :
    Session × Bool :=
  match field certificate "payload_hash", field certificate "approvals",
    field certificate "signatures", field certificate "consensus_signature" with
  | some payloadHash, some approvals, some signatures, some consensusSignature =>
      match elements approvals with
      | none => (s, false)
      | some approvals =>
          match checkApprovals secrets payloadHash signatures s approvals with
          | (s, none) => (s, false)
          | (s, some valid) =>
              if valid.length < Role.majorityNeeded then (s, false)
              else
                (s, match masterSignature s payloadHash valid with
                  | none => false
                  | some expected => isText (some consensusSignature) expected)
  | _, _, _, _ => (s, false)

end AgentSystem.Consensus
