import Mathlib.Data.String.Basic

/-! # Texts and their bytes -/

namespace Enbox.Lib

open List

def utf8 (text : List Char) : List UInt8 := text.flatMap String.utf8EncodeChar

@[simp] theorem utf8_nil : utf8 [] = [] := rfl

@[simp] theorem utf8_cons (c : Char) (text : List Char) :
    utf8 (c :: text) = String.utf8EncodeChar c ++ utf8 text := rfl

theorem utf8EncodeChar_append_lt {c d : Char} (less : c < d) (xs ys : List UInt8) :
    String.utf8EncodeChar c ++ xs < String.utf8EncodeChar d ++ ys := by
  have order : c.val.toNat < d.val.toNat := less
  have bound : d.val.toNat < 1114112 := by
    rcases d.valid with low | high <;> omega
  rw [String.utf8EncodeChar, String.utf8EncodeChar]
  generalize c.val.toNat = m at *
  generalize d.val.toNat = n at *
  -- The digits of a code point to the base 64, each taken from the one before it.
  have digits (k : Nat) : k / 4096 = k / 64 / 64 ∧ k / 262144 = k / 64 / 64 / 64 := by omega
  have high : n / 64 / 64 / 64 < 5 ∧ m / 64 / 64 / 64 < 5 := by omega
  simp only [(digits m).1, (digits m).2, (digits n).1, (digits n).2]
  split_ifs
  all_goals
    simp only [cons_append, nil_append, cons_lt_cons_iff, UInt8.lt_iff_toNat_lt,
      ← UInt8.toNat_inj, UInt8.toNat_ofNat']
    omega

theorem utf8_lt_utf8 {a b : List Char} (less : a < b) : utf8 a < utf8 b := by
  induction a generalizing b with
  | nil =>
    cases b with
    | nil => exact absurd less (lt_irrefl _)
    | cons d ds =>
      rw [utf8_nil, utf8_cons]
      cases encoded : String.utf8EncodeChar d with
      | nil => exact absurd encoded (String.utf8EncodeChar_ne_nil)
      | cons byte bytes => simp
  | cons c cs ih =>
    cases b with
    | nil => simp at less
    | cons d ds =>
      rw [utf8_cons, utf8_cons]
      rcases cons_lt_cons_iff.mp less with first | ⟨rfl, rest⟩
      · exact utf8EncodeChar_append_lt first _ _
      · exact append_left_lt (ih rest)

theorem utf8_lt_iff {a b : List Char} : utf8 a < utf8 b ↔ a < b := by
  refine ⟨fun less => ?_, utf8_lt_utf8⟩
  rcases lt_trichotomy a b with below | rfl | above
  · exact below
  · exact absurd less (List.lt_irrefl _)
  · exact absurd (utf8_lt_utf8 above) (List.lt_asymm less)

theorem append_cons_lt_append_cons {α : Type} [LinearOrder α] {separator : α}
    (least : ∀ a, separator ≤ a) {a b x y : List α} (plainA : separator ∉ a)
    (plainB : separator ∉ b) :
    a ++ separator :: x < b ++ separator :: y ↔ a < b ∨ a = b ∧ x < y := by
  induction a generalizing b with
  | nil =>
    cases b with
    | nil => simp
    | cons d ds =>
      have below : separator < d := (least d).lt_of_ne fun same => plainB (by simp [same])
      simp [cons_lt_cons_iff, below]
  | cons c cs ih =>
    cases b with
    | nil =>
      have below : separator < c := (least c).lt_of_ne fun same => plainA (by simp [same])
      simp [cons_lt_cons_iff, below.not_gt, below.ne']
    | cons d ds =>
      simp only [mem_cons, not_or] at plainA plainB
      simp only [cons_append, cons_lt_cons_iff, List.cons.injEq, ih plainA.2 plainB.2]
      tauto

end Enbox.Lib
