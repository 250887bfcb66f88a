import Mathlib.Data.Countable.Basic
import Mathlib.Data.List.TakeWhile
import Mathlib.Logic.Equiv.List

/-! # Lists -/

namespace Enbox.Lib

theorem exists_mem_of_find? {α : Type} {l : List α} {P : α → Prop} (q : α → Bool)
    (found : ∃ a, l.find? q = some a ∧ P a) : ∃ a ∈ l, P a :=
  found.imp fun _ => And.imp_left List.mem_of_find?_eq_some

theorem takeWhile_eq_takeWhile_iff {α : Type} {p q : α → Bool} (stronger : ∀ a, p a → q a)
    (l : List α) : l.takeWhile p = l.takeWhile q ↔ ∀ a ∈ l.takeWhile q, p a := by
  have nested : l.takeWhile p = (l.takeWhile q).takeWhile p := by
    rw [List.takeWhile_takeWhile]
    congr 1
    funext a
    cases h : p a with
    | false => simp
    | true => simp [stronger a h]
  rw [nested, List.takeWhile_eq_self_iff]

/-- What a filter keeps is a tail when it keeps everything after what it keeps. -/
theorem filter_suffix {α : Type} {q : α → Bool} {l : List α}
    (later : l.Pairwise fun a b => q a = true → q b = true) : l.filter q <:+ l := by
  induction l with
  | nil => exact List.suffix_rfl
  | cons a rest ih =>
    obtain ⟨first, later⟩ := List.pairwise_cons.mp later
    by_cases kept : q a = true
    · rw [List.filter_eq_self.mpr (by simpa [kept] using fun b listed => first b listed kept)]
    · rw [List.filter_cons_of_neg kept]
      exact (ih later).trans (List.suffix_cons a rest)

/-- A tree is countable when its labels are and its children are smaller. -/
theorem countable_of_parts {α κ : Type} [Countable κ] (parts : α → κ × List α)
    (faithful : Function.Injective parts) (size : α → ℕ)
    (smaller : ∀ a, ∀ b ∈ (parts a).2, size b < size a) : Countable α := by
  have level (n : ℕ) : Countable {a // size a < n} := by
    induction n with
    | zero =>
      have : IsEmpty {a // size a < 0} := ⟨fun a => Nat.not_lt_zero _ a.2⟩
      infer_instance
    | succ n ih =>
      have below (a : {a // size a < n + 1}) : ∀ b ∈ (parts a).2, size b < n := fun b child =>
        (smaller a b child).trans_le (Nat.le_of_lt_succ a.2)
      refine Function.Injective.countable (β := κ × List {a // size a < n})
        (f := fun a => ((parts a).1, (parts a).2.pmap Subtype.mk (below a))) fun a b same => ?_
      obtain ⟨label, children⟩ := Prod.mk.inj same
      refine Subtype.ext (faithful (Prod.ext label ?_))
      simpa [List.map_pmap] using congrArg (List.map Subtype.val) children
  exact Function.Injective.countable (β := Σ n, {a // size a < n})
    (f := fun a => ⟨size a + 1, a, Nat.lt_succ_self _⟩) fun a b same =>
      congrArg (fun level => level.2.val) same

end Enbox.Lib
