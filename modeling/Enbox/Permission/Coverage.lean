import Enbox.Permission.Grant

/-! # Which delivered keys a grant covers -/

namespace Enbox

structure EligibleGrantScope where
  protocol : String
  protocolPath : Option Path
  method : RecordsScopeMethod
  deriving DecidableEq

structure DeliveredScope where
  protocol : String
  protocolPath : Option Path
  deriving DecidableEq

def eligibleGrantScope : PermissionScope → Option EligibleGrantScope
  | .records .delete _ _ => none
  | .records _ _ (some (.contextId _)) => none
  | .records method protocol (some (.protocolPath path)) => some ⟨protocol, some path, method⟩
  | .records method protocol none => some ⟨protocol, none, method⟩
  | _ => none

def isKeyedRole (definition : Definition) (protocolPath : Path) : Bool :=
  (definition.ruleAt protocolPath).any fun ruleSet =>
    ruleSet.role = some true && ruleSet.keyAgreement.isSome

mutual

def RuleSet.anyNested (test : RuleSet → Bool) : RuleSet → Bool
  | ⟨keyAgreement, actions, role, reference, size, tags, recordLimit, immutable, delivery, squash,
      rules⟩ =>
      test ⟨keyAgreement, actions, role, reference, size, tags, recordLimit, immutable, delivery,
          squash, rules⟩ ||
        anyNestedRules test rules

def anyNestedRules (test : RuleSet → Bool) : List (String × RuleSet) → Bool
  | [] => false
  | (_, ruleSet) :: rest => ruleSet.anyNested test || anyNestedRules test rest

end

def readsThrough (definition : Definition) (scope role : Path) : Bool :=
  (definition.ruleAt scope).any (·.anyNested fun ruleSet => ruleSet.actions.any fun
    | .role (.plain path) can => .read ∈ can && isKeyedRole definition path && path = role
    | _ => false)

def readGrantCoversDeliveredScope (grant : EligibleGrantScope) (delivered : DeliveredScope)
    (definition : Option Definition) : Bool :=
  grant.method = .read && grant.protocol = delivered.protocol &&
    match grant.protocolPath, delivered.protocolPath with
    | none, _ => true
    | some _, none => false
    | some grantPath, some deliveredPath =>
        underPath grantPath deliveredPath || definition.any fun definition =>
          isKeyedRole definition deliveredPath && readsThrough definition grantPath deliveredPath

def writeGrantCoversDeliveredScope (grant : EligibleGrantScope) (delivered : DeliveredScope)
    (definition : Option Definition) : Bool :=
  grant.method = .write && grant.protocol = delivered.protocol &&
    delivered.protocolPath.any fun deliveredPath => definition.any fun definition =>
      isKeyedRole definition deliveredPath &&
        grant.protocolPath.all fun grantPath => underPath grantPath deliveredPath

def grantCoversDeliveredScope (grant : EligibleGrantScope) (delivered : DeliveredScope)
    (definition : Option Definition) : Bool :=
  match grant.method with
  | .read => readGrantCoversDeliveredScope grant delivered definition
  | .write => writeGrantCoversDeliveredScope grant delivered definition
  | .delete => false

end Enbox
