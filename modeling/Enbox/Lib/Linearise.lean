import Mathlib.Data.List.Induction
import Mathlib.Data.List.Nodup
import Mathlib.Logic.Relation

/-! # Taking unblocked elements first -/

namespace Enbox.Lib

open List

variable {A : Type} {a b next : A} {l pending stuck : List A} {blocks : A → A → Bool}
  {rest : List A → List A}

theorem pair_sublist_cons {x : A} :
    [a, b].Sublist (x :: l) ↔ [a, b].Sublist l ∨ a = x ∧ b ∈ l := by
  rw [sublist_cons_iff]
  refine or_congr_right ⟨?_, ?_⟩
  · rintro ⟨r, same, inside⟩
    cases same
    exact ⟨rfl, singleton_sublist.mp inside⟩
  · rintro ⟨rfl, inside⟩
    exact ⟨[b], rfl, singleton_sublist.mpr inside⟩

theorem pair_sublist_append {r : List A} (left : a ∈ l) (right : b ∈ r) :
    [a, b].Sublist (l ++ r) :=
  (singleton_sublist.mpr left).append (singleton_sublist.mpr right)

theorem pair_sublist_trans {c : A} (nodup : l.Nodup) (first : [a, b].Sublist l)
    (second : [b, c].Sublist l) : [a, c].Sublist l := by
  induction l with
  | nil => cases first
  | cons x l ih =>
    obtain ⟨fresh, nodup⟩ := nodup_cons.mp nodup
    rw [pair_sublist_cons] at first second ⊢
    rcases second with second | ⟨rfl, -⟩
    · rcases first with first | ⟨rfl, -⟩
      · exact .inl (ih nodup first second)
      · exact .inr ⟨rfl, second.subset (by simp)⟩
    · rcases first with first | ⟨rfl, inside⟩
      · exact absurd (first.subset (by simp)) fresh
      · exact absurd inside fresh

theorem pair_sublist_asymm (nodup : l.Nodup) (first : [a, b].Sublist l) :
    ¬ [b, a].Sublist l := fun second =>
  nodup_iff_sublist.mp nodup a (pair_sublist_trans nodup first second)

theorem pair_sublist_total (different : a ≠ b) (left : a ∈ l) (right : b ∈ l) :
    [a, b].Sublist l ∨ [b, a].Sublist l := by
  induction l with
  | nil => cases left
  | cons x l ih =>
    rw [pair_sublist_cons, pair_sublist_cons]
    rcases mem_cons.mp left with rfl | inLeft
    · exact .inl (.inr ⟨rfl, (mem_cons.mp right).resolve_left different.symm⟩)
    · rcases mem_cons.mp right with rfl | inRight
      · exact .inr (.inr ⟨rfl, inLeft⟩)
      · exact (ih inLeft inRight).imp .inl .inl

section

variable (blocks : A → A → Bool) (rest : List A → List A)

def isFree (pending : List A) (b : A) : Bool := pending.all fun a => !blocks a b

def linearise : Nat → List A → List A
  | 0, _ => []
  | fuel + 1, pending =>
      match pending.find? (isFree blocks pending) with
      | some next => next :: linearise fuel (pending.eraseP (isFree blocks pending))
      | none => rest pending

structure Linearised (pending front stuck : List A) : Prop where
  perm : (front ++ stuck).Perm pending
  behind : ∀ xs x ys, front = xs ++ x :: ys → ∀ a ∈ pending, blocks a x = true → a ∈ xs
  blocked : ∀ x ∈ stuck, ∃ a ∈ stuck, blocks a x = true

variable {blocks rest}

theorem isFree_eq_true :
    isFree blocks pending b = true ↔ ∀ a ∈ pending, blocks a b = false := by
  simp [isFree]

theorem isFree_eq_false :
    isFree blocks pending b = false ↔ ∃ a ∈ pending, blocks a b = true := by
  simp [isFree]

theorem linearised_cons {before after front : List A}
    (free : isFree blocks (before ++ next :: after) next = true)
    (cut : Linearised blocks (before ++ after) front stuck) :
    Linearised blocks (before ++ next :: after) (next :: front) stuck := by
  refine ⟨(cut.perm.cons next).trans perm_middle.symm, fun xs x ys split a pending blocked => ?_,
    cut.blocked⟩
  cases xs with
  | nil =>
    cases split
    rw [isFree_eq_true.mp free a pending] at blocked
    cases blocked
  | cons first xs =>
    obtain ⟨rfl, later⟩ := List.cons.inj split
    rcases mem_cons.mp (perm_middle.mem_iff.mp pending) with rfl | remains
    · exact mem_cons_self
    · exact mem_cons_of_mem _ (cut.behind xs x ys later a remains blocked)

theorem eraseP_first {P : A → Bool} {before after : List A} (first : P next = true)
    (others : ∀ x ∈ before, (!P x) = true) :
    (before ++ next :: after).eraseP P = before ++ after := by
  rw [eraseP_append_right _ fun x inside => by simpa using others x inside,
    eraseP_cons_of_pos first]

theorem linearise_eq (blocks : A → A → Bool) (nothing : rest [] = []) (pending : List A) :
    ∃ front stuck, linearise blocks rest pending.length pending = front ++ rest stuck ∧
      Linearised blocks pending front stuck := by
  generalize isLength : pending.length = n
  induction n generalizing pending with
  | zero =>
    cases eq_nil_of_length_eq_zero isLength
    exact ⟨[], [], nothing.symm, .refl _, by simp, by simp⟩
  | succ n ih =>
    rw [linearise]
    cases found : pending.find? (isFree blocks pending) with
    | none =>
      refine ⟨[], pending, rfl, .refl _, by simp, fun x inside => ?_⟩
      exact isFree_eq_false.mp (Bool.eq_false_iff.mpr (List.find?_eq_none.mp found x inside))
    | some next =>
      obtain ⟨free, before, after, rfl, blocked⟩ := List.find?_eq_some_iff_append.mp found
      rw [eraseP_first free blocked]
      obtain ⟨front, stuck, eq, cut⟩ := ih (before ++ after) (by simp at isLength ⊢; omega)
      exact ⟨next :: front, stuck, by simp only [eq, cons_append], linearised_cons free cut⟩

end

section

variable {front : List A}

def Blocking (blocks : A → A → Bool) (pending : List A) (a b : A) : Prop :=
  a ∈ pending ∧ blocks a b = true

theorem exists_free (reachable : Acc (Blocking blocks pending) b) (inside : b ∈ pending) :
    ∃ x ∈ pending, isFree blocks pending x = true := by
  induction reachable with
  | intro b _ ih =>
    cases free : isFree blocks pending b with
    | true => exact ⟨b, inside, free⟩
    | false =>
      obtain ⟨a, blocker, blocked⟩ := isFree_eq_false.mp free
      exact ih a ⟨blocker, blocked⟩ blocker

section

variable (cut : Linearised blocks pending front stuck)

include cut

theorem Linearised.acc_of_mem_front (taken : b ∈ front) :
    Acc (Blocking blocks pending) b := by
  -- By induction on the part taken so far: what blocks its last element was taken before.
  suffices early : ∀ xs ys, front = xs ++ ys → ∀ x ∈ xs, Acc (Blocking blocks pending) x from
    early front [] (by simp) b taken
  intro xs
  induction xs using List.reverseRecOn with
  | nil => exact fun _ _ _ => nofun
  | append_singleton xs x ih =>
    intro ys split
    rw [append_assoc, singleton_append] at split
    rw [forall_mem_append]
    refine ⟨ih _ split, fun y isLast => ?_⟩
    rw [mem_singleton.mp isLast]
    exact .intro x fun a blocking => ih _ split a (cut.behind xs x ys split a blocking.1 blocking.2)

theorem Linearised.not_acc_of_mem_stuck (remains : b ∈ stuck) :
    ¬ Acc (Blocking blocks pending) b := by
  intro reachable
  induction reachable with
  | intro b _ ih =>
    obtain ⟨a, stays, blocked⟩ := cut.blocked b remains
    exact ih a ⟨cut.perm.subset (mem_append_right _ stays), blocked⟩ stays

theorem Linearised.mem_front_iff (inside : b ∈ pending) :
    b ∈ front ↔ Acc (Blocking blocks pending) b := by
  refine ⟨cut.acc_of_mem_front, fun reachable => ?_⟩
  rcases mem_append.mp (cut.perm.symm.subset inside) with taken | remains
  · exact taken
  · exact absurd reachable (cut.not_acc_of_mem_stuck remains)

theorem Linearised.mem_stuck (inside : b ∈ pending) (blocked : ¬ Acc (Blocking blocks pending) b) :
    b ∈ stuck :=
  (mem_append.mp (cut.perm.mem_iff.mpr inside)).resolve_left fun taken =>
    blocked (cut.acc_of_mem_front taken)

theorem Linearised.stuck_subset : stuck ⊆ pending :=
  fun _ remains => cut.perm.subset (mem_append_right _ remains)

theorem Linearised.stuck_nodup (nodup : pending.Nodup) :
    stuck.Nodup :=
  (cut.perm.nodup_iff.mpr nodup).of_append_right

theorem Linearised.before_of_transGen (nodup : pending.Nodup)
    (waits : Relation.TransGen (Blocking blocks pending) a b) (taken : b ∈ front) :
    [a, b].Sublist front := by
  have distinct : front.Nodup := (cut.perm.nodup_iff.mpr nodup).of_append_left
  have direct {a b : A} (blocking : Blocking blocks pending a b) (taken : b ∈ front) :
      [a, b].Sublist front := by
    obtain ⟨xs, ys, split⟩ := append_of_mem taken
    have early := cut.behind xs b ys split a blocking.1 blocking.2
    rw [split]
    exact pair_sublist_append early mem_cons_self
  induction waits with
  | single blocking => exact direct blocking taken
  | tail _ blocking ih =>
    have last := direct blocking taken
    exact pair_sublist_trans distinct (ih (last.subset (by simp))) last

end

theorem acc_of_subset {part : List A} (subset : part ⊆ pending)
    (reachable : Acc (Blocking blocks pending) b) : Acc (Blocking blocks part) b :=
  Subrelation.accessible (fun blocking => ⟨subset blocking.1, blocking.2⟩) reachable

theorem linearise_append (rest : List A → List A) {xs ys : List A}
    (closed : ∀ y ∈ ys, ∀ x ∈ xs, blocks y x = false)
    (reachable : ∀ x ∈ xs, Acc (Blocking blocks xs) x) :
    ∃ taken, taken.Perm xs ∧ linearise blocks rest (xs ++ ys).length (xs ++ ys) =
      taken ++ linearise blocks rest ys.length ys := by
  generalize isLength : xs.length = n
  induction n generalizing xs with
  | zero =>
    cases eq_nil_of_length_eq_zero isLength
    exact ⟨[], .refl _, rfl⟩
  | succ n ih =>
    have free_iff (x : A) (inside : x ∈ xs) :
        isFree blocks (xs ++ ys) x = isFree blocks xs x := by
      rw [Bool.eq_iff_iff, isFree_eq_true, isFree_eq_true, forall_mem_append]
      exact and_iff_left fun y outside => closed y outside x inside
    obtain ⟨x, inside⟩ := exists_mem_of_length_eq_add_one isLength
    obtain ⟨x, inside, free⟩ := exists_free (reachable x inside) inside
    obtain ⟨next, found⟩ : ∃ next, xs.find? (isFree blocks (xs ++ ys)) = some next :=
      Option.isSome_iff_exists.mp (List.find?_isSome.mpr ⟨x, inside, (free_iff x inside).trans free⟩)
    have foundFirst : (xs ++ ys).find? (isFree blocks (xs ++ ys)) = some next := by
      rw [List.find?_append, found, Option.some_or]
    obtain ⟨nextFree, before, after, rfl, blocked⟩ := List.find?_eq_some_iff_append.mp found
    have kept : before ++ after ⊆ before ++ next :: after :=
      ((sublist_cons_self next after).append_left before).subset
    obtain ⟨taken, perm, eq⟩ := @ih (before ++ after)
      (fun y outside x inside => closed y outside x (kept inside))
      (fun x inside => acc_of_subset kept (reachable x (kept inside)))
      (by simp at isLength ⊢; omega)
    refine ⟨next :: taken, (perm.cons next).trans perm_middle.symm, ?_⟩
    have fuel : (before ++ next :: after ++ ys).length = (before ++ after ++ ys).length + 1 := by
      simp
      omega
    have erased : (before ++ next :: after ++ ys).eraseP (isFree blocks (before ++ next :: after ++ ys)) =
        before ++ after ++ ys := by
      rw [append_assoc, cons_append] at nextFree blocked ⊢
      rw [eraseP_first nextFree blocked, append_assoc]
    rw [fuel, linearise, foundFirst]
    simp only [erased, eq, cons_append]

theorem linearise_perm (listed : ∀ stuck, (rest stuck).Perm stuck) (pending : List A) :
    (linearise blocks rest pending.length pending).Perm pending := by
  obtain ⟨front, stuck, eq, cut⟩ :=
    linearise_eq blocks (perm_nil.mp (listed [])) pending
  rw [eq]
  exact ((listed stuck).append_left front).trans cut.perm

end

section

variable {before : A → A → Prop} {all : List A}

/-- An element that gets free waits for what blocks it. One that does not comes after all that get
free, at its place among the rest. -/
def ComesBefore (blocks : A → A → Bool) (before : A → A → Prop) (all : List A) (a b : A) : Prop :=
  (Acc (Blocking blocks all) b → Relation.TransGen (Blocking blocks all) a b) ∧
    (¬ Acc (Blocking blocks all) b → Acc (Blocking blocks all) a ∨ before a b)

theorem blocking_congr (perm : pending.Perm all) :
    Blocking blocks pending = Blocking blocks all := by
  funext a b
  exact propext (and_congr_left' perm.mem_iff)

structure Lists (rest : List A → List A) (before : A → A → Prop) (all : List A) : Prop where
  perm : ∀ stuck, (rest stuck).Perm stuck
  sorted : ∀ stuck, stuck ⊆ all → stuck.Nodup → (rest stuck).Pairwise before
  asymm : ∀ a b, before a b → ¬ before b a

theorem Lists.pair_iff (lists : Lists rest before all) (subset : stuck ⊆ all) (nodup : stuck.Nodup)
    (left : a ∈ stuck) (right : b ∈ stuck) :
    [a, b].Sublist (rest stuck) ↔ before a b := by
  have sorted {x y : A} (pair : [x, y].Sublist (rest stuck)) : before x y :=
    pairwise_iff_forall_sublist.mp (lists.sorted stuck subset nodup) pair
  refine ⟨sorted, fun earlier => ?_⟩
  have different : a ≠ b := by
    rintro rfl
    exact lists.asymm a a earlier earlier
  rcases pair_sublist_total different ((lists.perm stuck).mem_iff.mpr left)
    ((lists.perm stuck).mem_iff.mpr right) with pair | pair
  · exact pair
  · exact absurd (sorted pair) (lists.asymm a b earlier)

theorem ComesBefore.in_order (comes : ComesBefore blocks before all a b)
    (lists : Lists rest before all) (nodup : all.Nodup) (left : a ∈ all) (right : b ∈ all)
    (perm : pending.Perm all) :
    [a, b].Sublist (linearise blocks rest pending.length pending) := by
  obtain ⟨front, stuck, eq, cut⟩ :=
    linearise_eq blocks (perm_nil.mp (lists.perm [])) pending
  rw [ComesBefore, ← blocking_congr perm] at comes
  have distinct := perm.nodup_iff.mpr nodup
  have left' := perm.mem_iff.mpr left
  have right' := perm.mem_iff.mpr right
  rw [eq]
  by_cases free : Acc (Blocking blocks pending) b
  · have taken := (cut.mem_front_iff right').mpr free
    exact (cut.before_of_transGen distinct (comes.1 free) taken).trans (sublist_append_left _ _)
  · have remains := cut.mem_stuck right' free
    by_cases freeFirst : Acc (Blocking blocks pending) a
    · exact pair_sublist_append ((cut.mem_front_iff left').mpr freeFirst)
        ((lists.perm stuck).mem_iff.mpr remains)
    · have earlier := (comes.2 free).resolve_left freeFirst
      have pair := (lists.pair_iff (List.Subset.trans cut.stuck_subset perm.subset)
        (cut.stuck_nodup distinct) (cut.mem_stuck left' freeFirst) remains).mpr earlier
      exact pair.trans (sublist_append_right _ _)

open Classical in
theorem exists_order_without_wait (left : a ∈ all) (right : b ∈ all) (different : a ≠ b)
    (listed : ∀ stuck, (rest stuck).Perm stuck)
    (free : Acc (Blocking blocks all) b) (unwaited : ¬ Relation.TransGen (Blocking blocks all) a b) :
    ∃ pending, pending.Perm all ∧
      [b, a].Sublist (linearise blocks rest pending.length pending) := by
  let needed (x : A) : Bool := decide (Relation.ReflTransGen (Blocking blocks all) x b)
  have mem_needed {x : A} : x ∈ all.filter needed ↔
      x ∈ all ∧ Relation.ReflTransGen (Blocking blocks all) x b := by
    simp [needed]
  have closed : ∀ y ∈ all.filter (fun x => !needed x), ∀ x ∈ all.filter needed,
      blocks y x = false := by
    intro y outside x inside
    obtain ⟨listed, unneeded⟩ := mem_filter.mp outside
    refine Bool.eq_false_iff.mpr fun blocked => ?_
    have chain := Relation.ReflTransGen.head ⟨listed, blocked⟩ (mem_needed.mp inside).2
    simp [needed, chain] at unneeded
  have reachable : ∀ x ∈ all.filter needed, Acc (Blocking blocks (all.filter needed)) x := by
    intro x inside
    have reaches : Acc (Blocking blocks all) x := by
      rcases Relation.reflTransGen_iff_eq_or_transGen.mp (mem_needed.mp inside).2 with rfl | chain
      · exact free
      · exact free.inv_of_transGen chain
    exact acc_of_subset filter_sublist.subset reaches
  obtain ⟨taken, perm, eq⟩ := linearise_append rest closed reachable
  refine ⟨_, filter_append_perm needed all, ?_⟩
  rw [eq]
  refine pair_sublist_append (perm.mem_iff.mpr (mem_needed.mpr ⟨right, .refl⟩))
    ((linearise_perm listed _).mem_iff.mpr (mem_filter.mpr ⟨left, ?_⟩))
  have apart : ¬ Relation.ReflTransGen (Blocking blocks all) a b := fun chain =>
    (Relation.reflTransGen_iff_eq_or_transGen.mp chain).elim (fun same => different same.symm) unwaited
  simp [needed, apart]

theorem linearise_pair_iff (lists : Lists rest before all) (nodup : all.Nodup) (left : a ∈ all)
    (right : b ∈ all) :
    (∀ pending, pending.Perm all → [a, b].Sublist (linearise blocks rest pending.length pending)) ↔
      ComesBefore blocks before all a b := by
  have distinct {pending : List A} (perm : pending.Perm all) :
      (linearise blocks rest pending.length pending).Nodup :=
    ((linearise_perm lists.perm pending).trans perm).nodup_iff.mpr nodup
  refine ⟨fun always => ?_, fun comes _ perm => comes.in_order lists nodup left right perm⟩
  have different : a ≠ b := by
    rintro rfl
    exact nodup_iff_sublist.mp (distinct (.refl _)) a (always all (.refl _))
  refine ⟨fun free => ?_, fun blocked => or_iff_not_imp_left.mpr fun blockedFirst => ?_⟩
  · by_contra unwaited
    obtain ⟨pending, perm, later⟩ :=
      exists_order_without_wait left right different lists.perm free unwaited
    exact pair_sublist_asymm (distinct perm) later (always pending perm)
  · obtain ⟨front, stuck, eq, cut⟩ := linearise_eq blocks (perm_nil.mp (lists.perm [])) all
    have pair := always all (.refl _)
    have stays := cut.mem_stuck left blockedFirst
    have remains := cut.mem_stuck right blocked
    refine (lists.pair_iff cut.stuck_subset (cut.stuck_nodup nodup) stays remains).mp ?_
    refine (pair_sublist_total different ((lists.perm stuck).mem_iff.mpr stays)
      ((lists.perm stuck).mem_iff.mpr remains)).resolve_right fun later => ?_
    have whole : [b, a].Sublist (linearise blocks rest all.length all) :=
      eq ▸ later.trans (sublist_append_right _ _)
    exact pair_sublist_asymm (distinct (.refl _)) pair whole

end

end Enbox.Lib
