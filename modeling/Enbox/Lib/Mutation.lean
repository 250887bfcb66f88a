import Mathlib

/-! # Programs that change a state and may stop -/

namespace Enbox.Lib

open Std.Do

abbrev Mutation (ε S α : Type) := ExceptT ε (StateM S) α

namespace Mutation

variable {ε S α β : Type}

def exec (program : Mutation ε S α) (state : S) : Except ε α × S := (ExceptT.run program).run state

def check (result : Except ε α) : Mutation ε S α := ExceptT.mk (pure result)

/-- Runs a program on a copy of the state, which replaces the state when the program succeeds. -/
def onCopy (program : Mutation ε S α) : Mutation ε S α := do
  let staged := exec program (← get)
  let result ← check staged.1
  set staged.2
  return result

@[simp] theorem exec_get (state : S) :
    exec (get : Mutation ε S S) state = (.ok state, state) := rfl

theorem exec_bind (program : Mutation ε S α) (next : α → Mutation ε S β) (state : S) :
    exec (program >>= next) state =
      match exec program state with
      | (.ok a, after) => exec (next a) after
      | (.error e, after) => (.error e, after) := by
  change ExceptT.bindCont next (exec program state).1 (exec program state).2 = _
  obtain ⟨result, after⟩ := exec program state
  cases result <;> rfl

@[simp] theorem exec_check_bind (result : Except ε α) (next : α → Mutation ε S β) (state : S) :
    exec (check result >>= next) state =
      match result with
      | .ok a => exec (next a) state
      | .error e => (.error e, state) := by
  rw [exec_bind]
  cases result <;> rfl

def outcome (program : Mutation ε S α) (state : S) : Except ε (S × α) :=
  match exec program state with
  | (.ok a, after) => .ok (after, a)
  | (.error e, _) => .error e

@[simp] theorem outcome_pure (a : α) (state : S) :
    outcome (pure a : Mutation ε S α) state = .ok (state, a) := rfl

@[simp] theorem outcome_get (state : S) :
    outcome (get : Mutation ε S S) state = .ok (state, state) := rfl

@[simp] theorem outcome_modify (f : S → S) (state : S) :
    outcome (modify f : Mutation ε S PUnit) state = .ok (f state, ⟨⟩) := rfl

@[simp] theorem outcome_check (result : Except ε α) (state : S) :
    outcome (check result) state = Prod.mk state <$> result := by
  cases result <;> rfl

@[simp] theorem outcome_bind (program : Mutation ε S α) (next : α → Mutation ε S β) (state : S) :
    outcome (program >>= next) state = outcome program state >>= fun ran => outcome (next ran.2) ran.1 := by
  unfold outcome
  rw [exec_bind]
  rcases exec program state with ⟨_ | _, _⟩ <;> rfl

theorem exec_onCopy_snd (program : Mutation ε S α) (state : S) :
    (exec (onCopy program) state).2 = (Prod.fst <$> outcome program state).toOption.getD state := by
  rw [onCopy, exec_bind, exec_get]
  dsimp only
  rw [exec_check_bind]
  unfold outcome
  rcases exec program state with ⟨_ | _, _⟩ <;> rfl

@[spec] theorem check_eq (result : Except ε α) : (check result : Mutation ε S α) =
    match result with
    | .ok a => pure a
    | .error e => throw e := by
  cases result <;> rfl

theorem exec_of_triple {program : Mutation ε S α} {P : S → Prop} {Q : α → S → Prop}
    {R : ε → S → Prop}
    (triple : ⦃fun s => ⌜P s⌝⦄ program ⦃post⟨fun a s => ⌜Q a s⌝, fun e s => ⌜R e s⌝⟩⦄)
    {state : S} (holds : P state) :
    match exec program state with
    | (.ok a, after) => Q a after
    | (.error e, after) => R e after := by
  have reached := triple state holds
  simp only [WP.wp, PredTrans.apply_pushExcept, PredTrans.apply_pushArg] at reached
  unfold exec
  generalize (ExceptT.run program).run state = outcome at reached ⊢
  obtain ⟨_ | _, after⟩ := outcome <;> exact reached

end Mutation

end Enbox.Lib
