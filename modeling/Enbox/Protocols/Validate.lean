import Enbox.Permission.Grant

/-!
# Validation of protocol definitions

The reserved control namespace is refused before a definition is checked, at ingress.
-/

namespace Enbox

open Lib

def protocolError (code message : String) : Failure := .detail (code ++ ": " ++ message)

mutual

def walkRules (visit : Path → RuleSet → Except Failure Unit) :
    Path → List (String × RuleSet) → Except Failure Unit
  | _, [] => .ok ()
  | path, (name, ruleSet) :: rest => do
      visit (path ++ [name]) ruleSet
      walkNested visit (path ++ [name]) ruleSet
      walkRules visit path rest

def walkNested (visit : Path → RuleSet → Except Failure Unit) :
    Path → RuleSet → Except Failure Unit
  | path, ⟨_, _, _, _, _, _, _, _, _, _, rules⟩ => walkRules visit path rules

end

/-- The segments of the text of a path. A name may hold a `/` of its own, and a leading empty name
leaves nothing in the text. -/
def segments (path : Path) : Path :=
  (path.dropWhile (· = "")).flatMap splitPath

mutual

def rolePaths : Path → List (String × RuleSet) → Except Failure (List Path)
  | _, [] => .ok []
  | path, (name, ruleSet) :: rest => do
      let roles ← rolePathsAt (path ++ [name]) ruleSet
      let others ← rolePaths path rest
      return roles ++ others

def rolePathsAt : Path → RuleSet → Except Failure (List Path)
  | path, ⟨_, _, role, _, _, _, _, _, _, _, rules⟩ =>
    if role = some true then .ok [segments path]
    else do
      ensure ((segments path).length ≤ 10) (protocolError "ProtocolsConfigureRecordNestingDepthExceeded"
        "Record nesting depth exceeded 10 levels.")
      rolePaths path rules

end

def encryptionControlRootPath : String := "$encryption"

def startsWithDollar (name : String) : Bool := name.toList.head? = some '$'

mutual

def scanReservedNamespace : Path → List (String × RuleSet) → Except Failure Unit
  -- A reserved entry of the structure. Every other `$` key is a keyword of the rule set.
  | _, [] => .ok ()
  | path, (name, ruleSet) :: rest => do
      ensure (name ≠ encryptionControlRootPath)
        (protocolError "ProtocolsConfigureReservedEncryptionControlPath"
          ("protocol structure path '" ++ pathText (path ++ [name]) ++
            "' is reserved for DWN encryption control records."))
      scanReservedUnder (path ++ [name]) (startsWithDollar name) ruleSet
      scanReservedNamespace path rest

def scanReservedUnder : Path → Bool → RuleSet → Except Failure Unit
  | path, keyword, ⟨_, _, _, _, _, _, _, _, _, _, rules⟩ =>
    if keyword then .ok () else scanReservedNamespace path rules

end

def validateReservedControlNamespace (definition : Definition) : Except Failure Unit := do
  ensure (definition.types.lookup encryptionControlRootPath).isNone
    (protocolError "ProtocolsConfigureReservedEncryptionControlPath"
      ("protocol type '" ++ encryptionControlRootPath ++
        "' is reserved for DWN encryption control records."))
  scanReservedNamespace [] definition.structure_

section

variable (p : Primitives)

variable (value : String)

def isSchemeChar (c : Char) : Bool := c.isAlphanum || c = '+' || c = '-' || c = '.'

def hasUrlScheme : Bool :=
  -- A scheme is followed by something other than a single `/`.
  match value.toList.span (· ≠ ':') with
  | (scheme, ':' :: rest) =>
      scheme ≠ [] && scheme.all isSchemeChar &&
        (rest.head? ≠ some '/' || rest.take 2 = ['/', '/'])
  | _ => false

def dropTrailingSlash (text : String) : String :=
  if text.toList.getLast? = some '/' then String.ofList text.toList.dropLast else text

def normalizeProtocolUrl : Option String :=
  (p.urlText (if hasUrlScheme value then value else "http://" ++ value)).map dropTrailingSlash

def validateNormalizedUrl (failure : Failure) : Except Failure Unit :=
  ensure (normalizeProtocolUrl p value = some value) failure

def isValidUsesAlias : Bool :=
  match value.toList with
  | [] => false
  | first :: rest => first.isAlpha && rest.all fun c => c.isAlphanum || c = '_' || c = '-'

def validateUse (ownProtocolUri : String) (use : String × String) : Except Failure Unit := do
  ensure (isValidUsesAlias use.1) (protocolError "ProtocolsConfigureInvalidUsesAlias"
    ("invalid 'uses' alias '" ++ use.1 ++ "'"))
  validateNormalizedUrl p use.2 (protocolError "ProtocolsConfigureInvalidUsesProtocolUrl"
    ("invalid 'uses' protocol URL for alias '" ++ use.1 ++ "': '" ++ use.2 ++
      "' is not a valid normalized protocol URL."))
  ensure (use.2 ≠ ownProtocolUri) (protocolError "ProtocolsConfigureInvalidUsesSelfReference"
    ("'uses' alias '" ++ use.1 ++ "' references the protocol's own URI '" ++ ownProtocolUri ++ "'."))

def validateTypeSchema (entry : String × ProtocolType) : Except Failure Unit :=
  match entry.2.schema with
  | none => .ok ()
  | some schema => validateNormalizedUrl p schema (protocolError "UrlSchemaNotNormalized"
      ("Schema URI " ++ schema ++ " for type " ++ entry.1 ++ " must be normalized."))

end

variable (definition : Definition) (path : Path) (ruleSet : RuleSet)

def Can.debug : Can → String
  | .coDelete => "CoDelete"
  | .coPrune => "CoPrune"
  | .coUpdate => "CoUpdate"
  | .create => "Create"
  | .delete => "Delete"
  | .prune => "Prune"
  | .read => "Read"
  | .update => "Update"
  | .subscribe => "Subscribe"
  | .query => "Query"
  | .squash => "Squash"

def Who.debug : Who → String
  | .anyone => "Anyone"
  | .author => "Author"
  | .recipient => "Recipient"

def debugReference (of : Option Reference) : String :=
  of.elim "None" fun reference => "Some(\"" ++ reference.text ++ "\")"

def validateNeedsCreate (can : List Can) (rule : Can × String) : Except Failure Unit :=
  ensure (rule.1 ∈ can → .create ∈ can) (protocolError rule.2
    ("Action rule at protocol path '" ++ pathText path ++ "' contains " ++ rule.1.debug ++
      " but missing create."))

def validateActionCan (can : List Can) : Except Failure Unit :=
  [(Can.update, "ProtocolsConfigureInvalidActionUpdateWithoutCreate"),
    (Can.delete, "ProtocolsConfigureInvalidActionDeleteWithoutCreate"),
    (Can.prune, "ProtocolsConfigureInvalidActionPruneWithoutCreate")].forM
      (validateNeedsCreate path can)

def validateCrossProtocolAlias (field code : String)
    (reference : Reference) (usesAlias : String) : Except Failure Unit :=
  ensure (definition.uses.bind (·.lookup usesAlias)).isSome (protocolError code
    ("cross-protocol '" ++ field ++ "' alias '" ++ usesAlias ++ "' in '" ++ reference.text ++
      "' at protocol path '" ++ pathText path ++ "' does not exist in the 'uses' map."))

def validateActionRole (roles : List Path) (path : Path) :
    Reference → Except Failure Unit
  | .cross usesAlias target =>
      validateCrossProtocolAlias definition path "role" "ProtocolsConfigureInvalidCrossProtocolRole"
        (.cross usesAlias target) usesAlias
  | .plain role =>
      ensure (role ∈ roles) (protocolError "ProtocolsConfigureRoleDoesNotExistAtGivenPath"
        ("Role '" ++ pathText role ++ "' for rule set " ++ pathText path ++ " does not exist."))

def validateActionOf :
    Option Reference → Except Failure Unit
  | none => .ok ()
  | some (.cross usesAlias target) =>
      validateCrossProtocolAlias definition path "of" "ProtocolsConfigureInvalidCrossProtocolOf"
        (.cross usesAlias target) usesAlias
  | some (.plain of) =>
      ensure (path = [] ∨ underPath of path) (protocolError "ProtocolsConfigureInvalidActionOfNotAnAncestor"
        ("'of' value '" ++ pathText of ++ "' is not an ancestor of protocol path '" ++
          pathText path ++ "'."))

def validateActionWho (who : Who)
    (of : Option Reference) (can : List Can) : Except Failure Unit := do
  ensure (¬ (who = .anyone ∧ of.isSome))
    (protocolError "ProtocolsConfigureInvalidActionOfNotAllowed"
      ("'of' is not allowed at rule set protocol path (" ++ pathText path ++ ")"))
  ensure (who = .recipient ∧ of.isNone → can.all (· ∈ [Can.coUpdate, .coDelete, .coPrune]))
    (protocolError "ProtocolsConfigureInvalidRecipientOfAction"
      "Rules for `recipient` without `of` property must have can containing only co-update, co-delete, and co-prune.")
  ensure (¬ (who = .author ∧ of.isNone))
    (protocolError "ProtocolsConfigureInvalidActionMissingOf"
      "'of' is required when 'author' is specified as 'who'")
  validateActionOf definition path of

def validateAction (roles : List Path) (path : Path)
    (seen : List Action) : Action → Except Failure Unit
  | .role role can => do
      validateActionRole definition roles path role
      ensure (¬ seen.any fun
          | .role other _ => other = role
          | .who _ _ _ => false)
        (protocolError "ProtocolsConfigureDuplicateRoleInRuleSet"
          ("More than one action rule per role " ++ role.text ++
            " not allowed within a rule set."))
      validateActionCan path can
  | .who who of can => do
      validateActionWho definition path who of can
      ensure (¬ seen.any fun
          | .who other otherOf _ => other = who && otherOf = of
          | .role _ _ => false)
        (protocolError "ProtocolsConfigureDuplicateActorInRuleSet"
          ("More than one action rule per actor " ++ who.debug ++ " of " ++ debugReference of ++
            " not allowed within a rule set."))
      validateActionCan path can

def validateActions (definition : Definition) (roles : List Path) (path : Path) :
    List Action → List Action → Except Failure Unit
  | _, [] => .ok ()
  | seen, action :: rest => do
      validateAction definition roles path seen action
      validateActions definition roles path (seen ++ [action]) rest

def validateRoleRecordIssuance : Except Failure Unit :=
  ensure (ruleSet.role = some true → ¬ ruleSet.actions.any fun
      | .who who _ can => who = .anyone && (.create ∈ can || .squash ∈ can)
      | .role _ _ => false)
    (protocolError "ProtocolsConfigureInvalidRoleIssuance"
      ("role assignments at protocol path '" ++ pathText path ++
        "' require an authorized issuer; 'anyone' cannot create or squash an initial role record."))

def validateRefNode (reference : Reference) : Except Failure Unit := do
  let (usesAlias, _) ← okOr
    (protocolError "ProtocolsConfigureInvalidRefAlias" ("'$ref' value '" ++ reference.text ++
      "' at protocol path '" ++ pathText path ++ "' must be in 'alias:typePath' format."))
    (parseCrossProtocolRef reference)
  ensure (definition.uses.bind (·.lookup usesAlias)).isSome
    (protocolError "ProtocolsConfigureInvalidRefAlias" ("'$ref' alias '" ++ usesAlias ++
      "' at protocol path '" ++ pathText path ++ "' does not exist in the 'uses' map."))
  ensure (ruleSet.actions = [] ∧ ruleSet.role = none ∧ ruleSet.size = none ∧ ruleSet.tags = none ∧
      ruleSet.keyAgreement = none ∧ ruleSet.recordLimit = none ∧ ruleSet.immutable = none ∧
      ruleSet.delivery = none ∧ ruleSet.squash = none)
    (protocolError "ProtocolsConfigureInvalidRefNodeHasDirectives"
      ("'$ref' node at protocol path '" ++ pathText path ++ "' must not have directives."))

def validateReference : Except Failure Unit :=
  match ruleSet.reference with
  | none => .ok ()
  | some reference => do
      ensure (path.length ≤ 1) (protocolError "ProtocolsConfigureInvalidRefNotAtRoot"
        ("'$ref' at protocol path '" ++ pathText path ++
          "' is not allowed: '$ref' nodes are only supported at the root level of the structure."))
      validateRefNode definition path ruleSet reference

def validateSizeRange : Except Failure Unit :=
  ensure (∀ size ∈ ruleSet.size, ∀ max ∈ size.max, size.min.getD 0 ≤ max)
    (protocolError "ProtocolsConfigureInvalidSize" ("Invalid size range found: max limit " ++
      toString ((ruleSet.size.bind (·.max)).getD 0) ++ " less than min limit " ++
      toString ((ruleSet.size.bind (·.min)).getD 0) ++ " at protocol path '" ++ pathText path ++ "'"))

def validateRecordLimit : Except Failure Unit :=
  ensure (∀ max ∈ ruleSet.recordLimit, 1 ≤ max)
    (protocolError "ProtocolsConfigureInvalidRecordLimit" ("Invalid $recordLimit at protocol path '" ++
      pathText path ++ "': max must be >= 1."))

def Definition.typeEncrypted (typeName : String) : Bool :=
  (definition.types.lookup typeName).any (·.encryptionRequired = some true)

def validateEncryptedReader :
    Action → Except Failure Unit
  | .who _ _ _ => .ok ()
  | .role role can =>
      if .read ∉ can then .ok ()
      else
        match role with
        | .cross usesAlias target =>
            .error (protocolError "ProtocolsConfigureInvalidEncryptedCrossProtocolRole"
              ("Encrypted protocol path '" ++ pathText path ++
                "' references cross-protocol read role '" ++
                (Reference.cross usesAlias target).text ++ "'."))
        | .plain rolePath =>
            ensure ((definition.ruleAt rolePath).any (·.keyAgreement.isSome))
              (protocolError "ProtocolsConfigureInvalidEncryptedRoleMissingKeyAgreement"
                ("Encrypted protocol path '" ++ pathText path ++ "' references role '" ++
                  pathText rolePath ++ "' with no $keyAgreement."))

def validateEncryptedPath : Except Failure Unit := do
  ensure (¬ (ruleSet.role = some true ∧ definition.typeEncrypted (path.getLastD "")))
    (protocolError "ProtocolsConfigureInvalidEncryptedRoleType" ("Role path '" ++ pathText path ++
      "' resolves to encrypted type '" ++ path.getLastD "" ++ "'; role records cannot be encrypted."))
  if definition.typeEncrypted (path.getLastD "") then do
    ensure ruleSet.keyAgreement.isSome
      (protocolError "ProtocolsConfigureMissingEncryptedPathKeyAgreement"
        ("Encrypted protocol path '" ++ pathText path ++ "' has no $keyAgreement."))
    ensure (¬ ruleSet.actions.any fun
        | .who who _ can => who = .anyone && .read ∈ can
        | .role _ _ => false)
      (protocolError "ProtocolsConfigureInvalidEncryptedAnyoneRead"
        ("Encrypted protocol path '" ++ pathText path ++
          "' allows \x7b who: 'anyone', can: ['read'] \x7d."))
    ruleSet.actions.forM (validateEncryptedReader definition path)
  else .ok ()

def validateRuleSet (roles : List Path) (path : Path)
    (ruleSet : RuleSet) : Except Failure Unit := do
  ensure (ruleSet.reference.isNone → (definition.types.lookup (path.getLastD "")).isSome)
    (protocolError "ProtocolsConfigureInvalidRuleSetRecordType" ("Rule set " ++ path.getLastD "" ++
      " is not declared as an allowed type in the protocol definition."))
  validateReference definition (segments path) ruleSet
  validateSizeRange (segments path) ruleSet
  validateRecordLimit (segments path) ruleSet
  validateActions definition roles (segments path) [] ruleSet.actions
  validateRoleRecordIssuance (segments path) ruleSet
  validateEncryptedPath definition (segments path) ruleSet

def validateStructure : Except Failure Unit := do
  ensure (definition.types.any (·.2.encryptionRequired = some true) →
      definition.keyAgreement.isSome)
    (protocolError "ProtocolsConfigureMissingTopLevelKeyAgreement" ("Protocol '" ++
      definition.protocol ++ "' declares encrypted types but has no top-level $keyAgreement."))
  let roles ← rolePaths [] definition.structure_
  walkRules (validateRuleSet definition roles) [] definition.structure_

def validateDefinition (p : Primitives) (definition : Definition) : Except Failure Unit := do
  validateNormalizedUrl p definition.protocol (protocolError "UrlProtocolNotNormalized"
    ("Protocol URI " ++ definition.protocol ++ " must be normalized."))
  definition.types.forM (validateTypeSchema p)
  (definition.uses.getD []).forM (validateUse p definition.protocol)
  validateStructure definition

end Enbox
