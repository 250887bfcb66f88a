import Enbox.Proof.Concrete
import Enbox.Protocols.Validate

/-! # How deep an accepted definition nests -/

namespace Enbox.Proof.Protocols

open Lib List

variable {rules : List (String × RuleSet)} {name : String} {path : Path} {ruleSet : RuleSet}
  {roles : List Path} {depth : Nat}

inductive Declares : List (String × RuleSet) → Path → RuleSet → Prop
  | entry {rules : List (String × RuleSet)} {name : String} {ruleSet : RuleSet}
      (listed : (name, ruleSet) ∈ rules) : Declares rules [name] ruleSet
  | nested {rules : List (String × RuleSet)} {name : String} {outer ruleSet : RuleSet} {path : Path}
      (listed : (name, outer) ∈ rules) (inner : Declares outer.rules path ruleSet) :
      Declares rules (name :: path) ruleSet

def UnderRole (rules : List (String × RuleSet)) (path : Path) : Prop :=
  ∃ above ruleSet, above <+: path ∧ Declares rules above ruleSet ∧ ruleSet.role = some true

theorem UnderRole.nested {outer : RuleSet} (listed : (name, outer) ∈ rules)
    (under : UnderRole outer.rules path) :
    UnderRole rules (name :: path) := by
  obtain ⟨above, ruleSet, starts, declared, isRole⟩ := under
  exact ⟨name :: above, ruleSet, cons_prefix_cons.mpr ⟨rfl, starts⟩, .nested listed declared,
    isRole⟩

theorem rolePathsAt_eq_ok (walked : rolePathsAt path ruleSet = .ok roles)
    (ordinary : ruleSet.role ≠ some true) :
    (segments path).length ≤ 10 ∧ rolePaths path ruleSet.rules = .ok roles := by
  cases ruleSet
  simpa [rolePathsAt, ordinary] using walked

theorem rolePathsAt_of_mem (walked : rolePaths path rules = .ok roles)
    (listed : (name, ruleSet) ∈ rules) :
    ∃ below, rolePathsAt (path ++ [name]) ruleSet = .ok below := by
  induction rules generalizing roles with
  | nil => cases listed
  | cons entry rest ih =>
    obtain ⟨entryName, entryRules⟩ := entry
    simp only [rolePaths, ok_iff] at walked
    obtain ⟨below, first, others, remaining, -⟩ := walked
    rcases mem_cons.mp listed with same | listed
    · cases same
      exact ⟨below, first⟩
    · exact ih remaining listed

theorem length_le_of_declares {rest : Path} (declared : Declares rules rest ruleSet)
    (walked : rolePaths path rules = .ok roles) (outside : ¬ UnderRole rules rest) :
    (segments (path ++ rest)).length ≤ 10 := by
  induction declared generalizing path roles with
  | entry listed =>
    obtain ⟨below, visited⟩ := rolePathsAt_of_mem walked listed
    have ordinary : _ ≠ some true := fun isRole =>
      outside ⟨_, _, prefix_refl _, .entry listed, isRole⟩
    exact (rolePathsAt_eq_ok visited ordinary).1
  | @nested rules name outer ruleSet rest listed inner ih =>
    obtain ⟨below, visited⟩ := rolePathsAt_of_mem walked listed
    have ordinary : outer.role ≠ some true := fun isRole =>
      outside ⟨[name], outer, ⟨rest, rfl⟩, .entry listed, isRole⟩
    have deeper := ih (rolePathsAt_eq_ok visited ordinary).2
      (fun under => outside (under.nested listed))
    rwa [append_assoc, singleton_append] at deeper

def NestsWithin (depth : Nat) (rules : List (String × RuleSet)) : Prop :=
  ∀ path ruleSet, Declares rules path ruleSet → (segments path).length ≤ depth

theorem rolePaths_of_validateDefinition {p : Primitives} {definition : Definition}
    (accepted : validateDefinition p definition = .ok ()) :
    ∃ roles, rolePaths [] definition.structure_ = .ok roles := by
  simp only [validateDefinition, validateStructure, bind_eq_ok] at accepted
  obtain ⟨-, -, -, -, -, -, -, -, roles, walked, -⟩ := accepted
  exact ⟨roles, walked⟩

theorem nestsWithin_iff (p : Primitives) (definition : Definition)
    (accepted : validateDefinition p definition = .ok ()) :
    NestsWithin 10 definition.structure_ ↔
      ∀ path ruleSet, Declares definition.structure_ path ruleSet →
        UnderRole definition.structure_ path → (segments path).length ≤ 10 := by
  constructor
  · intro within path ruleSet declared _
    exact within path ruleSet declared
  · intro roles path ruleSet declared
    obtain ⟨listed, walked⟩ := rolePaths_of_validateDefinition accepted
    by_cases under : UnderRole definition.structure_ path
    · exact roles path ruleSet declared under
    · exact length_le_of_declares declared walked under

namespace Deep

def nest : Nat → RuleSet → RuleSet
  | 0, ruleSet => ruleSet
  | depth + 1, ruleSet => { rules := [("folder", nest depth ruleSet)] }

def definition (depth : Nat) (innermost : RuleSet) : Definition where
  protocol := "https://deep"
  types := [("folder", {})]
  structure_ := [("folder", nest depth innermost)]

theorem declares_nest (depth : Nat) (innermost : RuleSet) :
    Declares (definition depth innermost).structure_ (List.replicate (depth + 1) "folder")
      innermost := by
  induction depth with
  | zero => exact .entry (by simp [definition, nest])
  | succ depth ih => exact .nested (mem_singleton.mpr rfl) ih

theorem role_of_declares_nest (declared : Declares (definition depth {}).structure_ path ruleSet) :
    ruleSet.role = none := by
  induction depth generalizing path with
  | zero =>
    cases declared with
    | entry listed =>
      cases mem_singleton.mp listed
      rfl
    | nested listed inner =>
      cases mem_singleton.mp listed
      cases inner <;> contradiction
  | succ depth ih =>
    cases declared with
    | entry listed =>
      cases mem_singleton.mp listed
      rfl
    | nested listed inner =>
      cases mem_singleton.mp listed
      exact ih inner

noncomputable def p : Primitives := Concrete.Script.primitives {}

end Deep

theorem ten_folders_nest : validateDefinition Deep.p (Deep.definition 9 {}) = .ok () ∧
    NestsWithin 10 (Deep.definition 9 {}).structure_ := by
  have accepted : validateDefinition Deep.p (Deep.definition 9 {}) = .ok () := rfl
  refine ⟨accepted, (nestsWithin_iff Deep.p _ accepted).mpr ?_⟩
  rintro path ruleSet - ⟨above, role, -, declared, isRole⟩
  rw [Deep.role_of_declares_nest declared] at isRole
  cases isRole

theorem role_on_eleventh_level_accepted :
    validateDefinition Deep.p (Deep.definition 10 { role := some true }) = .ok () ∧
      ¬ NestsWithin 10 (Deep.definition 10 { role := some true }).structure_ := by
  refine ⟨rfl, fun within => ?_⟩
  have short := within _ _ (Deep.declares_nest 10 { role := some true })
  revert short
  decide

end Enbox.Proof.Protocols
