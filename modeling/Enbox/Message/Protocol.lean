import Enbox.Message.Types

/-!
# Protocol definitions

Maps of the source (`BTreeMap<String, _>`) are association lists read with `List.lookup`.
-/

namespace Enbox

structure ProtocolType where
  schema : Option String := none
  dataFormats : Option (List String) := none
  encryptionRequired : Option Bool := none
  deriving DecidableEq

/-- A `$ref`, `role` or `of` text: `alias:path` names a path of a used protocol, every other text
is a path of the protocol itself (`parse_cross_protocol_ref`). -/
inductive Reference
  | plain (path : Path)
  | cross (usesAlias : String) (path : Path)
  deriving DecidableEq

def Reference.path : Reference → Path
  | plain path => path
  | cross _ path => path

def Reference.text : Reference → String
  | plain path => pathText path
  | cross usesAlias path => usesAlias ++ ":" ++ pathText path

def parseCrossProtocolRef : Reference → Option (String × Path)
  | .plain _ => none
  | .cross usesAlias path => some (usesAlias, path)

inductive Who
  | anyone
  | author
  | recipient
  deriving DecidableEq

inductive Can
  | coDelete
  | coPrune
  | coUpdate
  | create
  | delete
  | prune
  | read
  | update
  | subscribe
  | query
  | squash
  deriving DecidableEq

inductive Action
  | who (who : Who) (of : Option Reference) (can : List Can)
  | role (role : Reference) (can : List Can)
  deriving DecidableEq

structure Size where
  min : Option Nat := none
  max : Option Nat := none
  deriving DecidableEq

structure ProvidedTags where
  tagType : String
  minLength : Option Nat := none
  maxLength : Option Nat := none
  deriving DecidableEq

structure Tags where
  requiredTags : List String := []
  allowUndefinedTags : Option Bool := none
  tags : List (String × ProvidedTags) := []
  deriving DecidableEq

structure RuleSet where
  keyAgreement : Option Jwk := none
  actions : List Action := []
  role : Option Bool := none
  reference : Option Reference := none
  size : Option Size := none
  tags : Option Tags := none
  recordLimit : Option Nat := none
  immutable : Option Bool := none
  delivery : Option String := none
  squash : Option Bool := none
  rules : List (String × RuleSet) := []

mutual

def RuleSet.decEq : (a b : RuleSet) → Decidable (a = b)
  | ⟨k, a, r, f, s, t, l, i, d, q, rules⟩, ⟨k', a', r', f', s', t', l', i', d', q', rules'⟩ =>
    match decEqRules rules rules' with
    | isTrue sameRules =>
        decidable_of_iff
          (k = k' ∧ a = a' ∧ r = r' ∧ f = f' ∧ s = s' ∧ t = t' ∧ l = l' ∧ i = i' ∧ d = d' ∧ q = q') (by
            rw [RuleSet.mk.injEq]
            simp only [sameRules, and_true])
    | isFalse otherRules => isFalse fun same => by
        injection same with _ _ _ _ _ _ _ _ _ _ sameRules
        exact otherRules sameRules

def decEqRules : (a b : List (String × RuleSet)) → Decidable (a = b)
  | [], [] => isTrue rfl
  | [], _ :: _ => isFalse (by simp)
  | _ :: _, [] => isFalse (by simp)
  | (n, r) :: rest, (n', r') :: rest' =>
    match RuleSet.decEq r r', decEqRules rest rest' with
    | isTrue sameRule, isTrue sameRest =>
        decidable_of_iff (n = n') (by simp [sameRule, sameRest])
    | isFalse otherRule, _ => isFalse (by simp [otherRule])
    | _, isFalse otherRest => isFalse (by simp [otherRest])

end

instance : DecidableEq RuleSet := RuleSet.decEq

structure Definition where
  protocol : String
  published : Bool := false
  uses : Option (List (String × String)) := none
  keyAgreement : Option Jwk := none
  types : List (String × ProtocolType) := []
  structure_ : List (String × RuleSet) := []
  deriving DecidableEq

def ruleSetAtPath : Path → List (String × RuleSet) → Option RuleSet
  | [], _ => none
  | segment :: rest, current =>
    -- Empty segments are skipped.
    if segment = "" then ruleSetAtPath rest current
    else
      match current.lookup segment with
      | none => none
      | some next =>
          -- The last non-empty segment decides; a missing one further down is a failure.
          if rest.all (· = "") then some next else ruleSetAtPath rest next.rules

def Definition.ruleAt (definition : Definition) (protocolPath : Path) : Option RuleSet :=
  ruleSetAtPath protocolPath definition.structure_

def Definition.refPosition (definition : Definition) : Path → Option (String × Path)
  | [root] =>
      (definition.structure_.lookup root).bind (·.reference) |>.bind parseCrossProtocolRef
  | _ => none

def Definition.parentProtocol (definition : Definition) : Path → String
  | [root, _] =>
      ((definition.structure_.lookup root).bind (·.reference) |>.bind parseCrossProtocolRef
        |>.bind fun reference => definition.uses.bind (·.lookup reference.1)).getD
        definition.protocol
  | _ => definition.protocol

end Enbox
