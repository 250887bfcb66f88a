import Mathlib.Data.List.Basic

/-! # Fallible computations -/

namespace Enbox.Lib

open List

variable {ε α β : Type}

def ensure (p : Prop) [Decidable p] (e : ε) : Except ε Unit :=
  if p then .ok () else .error e

def okOr (e : ε) : Option α → Except ε α
  | some a => .ok a
  | none => .error e

@[simp] theorem bind_eq_ok {x : Except ε α} {f : α → Except ε β} {b : β} :
    (x >>= f) = .ok b ↔ ∃ a, x = .ok a ∧ f a = .ok b := by
  cases x <;> simp [bind, Except.bind]

@[simp] theorem pure_eq_ok {a b : α} : (pure a : Except ε α) = .ok b ↔ a = b := by
  simp [pure, Except.pure]

@[simp] theorem ensure_eq_ok {p : Prop} [Decidable p] {e : ε} {u : Unit} :
    ensure p e = .ok u ↔ p := by
  unfold ensure
  split <;> simp_all

@[simp] theorem okOr_eq_ok {e : ε} {o : Option α} {a : α} : okOr e o = .ok a ↔ o = some a := by
  cases o <;> simp [okOr]

@[simp] theorem ok_bind (a : α) (f : α → Except ε β) : (Except.ok a >>= f) = f a := rfl

theorem ensure_true {p : Prop} [Decidable p] {e : ε} (h : p) : ensure p e = .ok () := if_pos h

@[simp] theorem mapError_eq_ok {ε' : Type} {f : ε → ε'} {x : Except ε α} {a : α} :
    x.mapError f = .ok a ↔ x = .ok a := by
  cases x <;> simp [Except.mapError]

/-- What takes a pipeline that succeeds apart. -/
theorem ok_iff :
    (∀ {ε α β : Type} {x : Except ε α} {f : α → Except ε β} {b : β},
      (x >>= f) = .ok b ↔ ∃ a, x = .ok a ∧ f a = .ok b) ∧
    (∀ {ε α : Type} {a b : α}, (pure a : Except ε α) = .ok b ↔ a = b) ∧
    (∀ {ε : Type} {p : Prop} [Decidable p] {e : ε} {u : Unit}, ensure p e = .ok u ↔ p) ∧
    (∀ {ε α : Type} {e : ε} {o : Option α} {a : α}, okOr e o = .ok a ↔ o = some a) ∧
    ∀ {ε ε' α : Type} {f : ε → ε'} {x : Except ε α} {a : α}, x.mapError f = .ok a ↔ x = .ok a :=
  ⟨bind_eq_ok, pure_eq_ok, ensure_eq_ok, okOr_eq_ok, mapError_eq_ok⟩

theorem foldlM_simulates {S T : Type} {step : S → α → Except ε S} {f : T → α → T} {R : S → T → Prop}
    (kept : ∀ {s t a s'}, R s t → step s a = .ok s' → R s' (f t a)) {items : List α} :
    ∀ {s t s'}, R s t → items.foldlM step s = .ok s' → R s' (items.foldl f t) := by
  induction items with
  | nil =>
    intro s t s' related done
    cases done
    exact related
  | cons a rest ih =>
    intro s t s' related done
    simp only [foldlM_cons, bind_eq_ok] at done
    obtain ⟨middle, first, others⟩ := done
    exact ih (kept related first) others

section

variable {S : Type} {step : S → α → Except ε S} {P : S → Prop} {items : List α} {s s' : S}

theorem foldlM_ok (kept : ∀ a ∈ items, ∀ s s', P s → step s a = .ok s' → P s') (holds : P s)
    (done : items.foldlM step s = .ok s') :
    P s' ∧ ∀ a ∈ items, ∃ s s', P s ∧ step s a = .ok s' := by
  induction items generalizing s with
  | nil =>
    cases done
    exact ⟨holds, by simp⟩
  | cons a rest ih =>
    simp only [foldlM_cons, bind_eq_ok] at done
    obtain ⟨middle, first, others⟩ := done
    obtain ⟨ends, each⟩ := ih (fun b listed => kept b (mem_cons_of_mem _ listed))
      (kept a mem_cons_self _ _ holds first) others
    exact ⟨ends, forall_mem_cons.mpr ⟨⟨s, middle, holds, first⟩, each⟩⟩

theorem foldlM_error {e : ε} (kept : ∀ a s s', P s → step s a = .ok s' → P s') (holds : P s)
    (failed : items.foldlM step s = .error e) : ∃ a ∈ items, ∃ s, P s ∧ step s a = .error e := by
  induction items generalizing s with
  | nil => cases failed
  | cons a rest ih =>
    rw [foldlM_cons] at failed
    cases first : step s a with
    | error e' =>
      rw [first] at failed
      cases failed
      exact ⟨a, mem_cons_self, s, holds, first⟩
    | ok next =>
      rw [first] at failed
      obtain ⟨b, listed, found⟩ := ih (kept a s next holds first) failed
      exact ⟨b, mem_cons_of_mem _ listed, found⟩

end

def FailsWith (bad : ε → Prop) (x : Except ε α) : Prop := ∀ e, x = .error e → bad e

section

variable {bad : ε → Prop}

theorem FailsWith.bind {x : Except ε α} {f : α → Except ε β} (first : FailsWith bad x)
    (rest : ∀ a, FailsWith bad (f a)) : FailsWith bad (x >>= f) := by
  intro e failed
  cases x with
  | error e' => exact first e (by cases failed; rfl)
  | ok a => exact rest a e failed

theorem failsWith_ok (a : α) : FailsWith bad (.ok a) := fun _ failed => by cases failed

theorem failsWith_error {e : ε} (isBad : bad e) : FailsWith bad (.error e : Except ε α) :=
  fun _ failed => by cases failed; exact isBad

theorem failsWith_ensure {p : Prop} [Decidable p] {e : ε} (isBad : bad e) :
    FailsWith bad (ensure p e) := by
  intro _ failed
  unfold ensure at failed
  split at failed
  · cases failed
  · cases failed
    exact isBad

theorem failsWith_okOr {e : ε} (isBad : bad e) (o : Option α) : FailsWith bad (okOr e o) := by
  intro _ failed
  cases o with
  | none => cases failed; exact isBad
  | some a => cases failed

theorem failsWith_mapError {ε' : Type} {f : ε' → ε} (isBad : ∀ e, bad (f e)) (x : Except ε' α) :
    FailsWith bad (x.mapError f) := by
  intro _ failed
  cases x with
  | error e => cases failed; exact isBad e
  | ok a => cases failed

end

theorem map_eq_of_mapM_ok {f : α → Except ε β} {xs : List α} :
    ∀ {ys : List β}, xs.mapM f = .ok ys → xs.map f = ys.map .ok := by
  induction xs with
  | nil =>
    intro ys mapped
    simp only [mapM_nil, pure_eq_ok] at mapped
    rw [← mapped]
    rfl
  | cons x xs ih =>
    intro ys mapped
    simp only [mapM_cons, bind_eq_ok, pure_eq_ok] at mapped
    obtain ⟨y, fx, ys', rest, rfl⟩ := mapped
    rw [map_cons, map_cons, fx, ih rest]

section

variable {f : α → Except ε β} {xs : List α} {ys : List β} {x : α} {y : β}
  (mapped : xs.mapM f = .ok ys)

include mapped

theorem mem_of_mapM_ok (listed : y ∈ ys) : ∃ x ∈ xs, f x = .ok y := by
  have found := mem_map_of_mem (f := Except.ok (ε := ε)) listed
  rw [← map_eq_of_mapM_ok mapped] at found
  exact mem_map.mp found

theorem exists_of_mapM_ok (listed : x ∈ xs) : ∃ y ∈ ys, f x = .ok y := by
  have found := mem_map_of_mem (f := f) listed
  rw [map_eq_of_mapM_ok mapped] at found
  obtain ⟨y, isListed, same⟩ := mem_map.mp found
  exact ⟨y, isListed, same.symm⟩

theorem head_of_mapM_ok (first : ys.head? = some y) : ∃ x, xs.head? = some x ∧ f x = .ok y := by
  have heads := congrArg List.head? (map_eq_of_mapM_ok mapped)
  rw [List.head?_map, List.head?_map, first] at heads
  exact Option.map_eq_some_iff.mp heads

end

end Enbox.Lib
