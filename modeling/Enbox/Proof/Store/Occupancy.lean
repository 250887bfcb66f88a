import Enbox.Store.Occupancy

/-! # Who occupies a limited path -/

namespace Enbox.Proof.Store

open Lib List TextSet

variable {candidates : List OccupancyCandidate} {max : Nat} {parentIds : Option TextSet}
  {candidate : OccupancyCandidate} {group : Option String}

theorem rankKey_lt_iff {a b : RankKey} :
    a < b ↔ a.dateCreated < b.dateCreated ∨
      a.dateCreated = b.dateCreated ∧ a.recordId < b.recordId := by
  rw [show a < b ↔ a.pair < b.pair from Iff.rfl, RankKey.pair, RankKey.pair, Prod.Lex.toLex_lt_toLex]

theorem key_toList (rank : RankKey) :
    rank.key.toList = rank.dateCreated.toList ++ '\x00' :: rank.recordId.toList := by
  simp [RankKey.key]

theorem binaryLe_key {a b : RankKey} (plainA : '\x00' ∉ a.dateCreated.toList)
    (plainB : '\x00' ∉ b.dateCreated.toList) : binaryLe a.key b.key ↔ a ≤ b := by
  have least (c : Char) : '\x00' ≤ c := Char.le_def.mpr (UInt32.le_iff_toNat_le.mpr (Nat.zero_le _))
  rw [← not_lt, rankKey_lt_iff, binaryLe, decide_eq_true_iff, utf8_lt_iff, key_toList, key_toList,
    append_cons_lt_append_cons least plainB plainA, String.toList_inj, String.lt_iff_toList_lt,
    String.lt_iff_toList_lt]

def groupSelected (parentIds : Option TextSet) : Option String → Prop
  | none => parentIds = none
  | some parent => ∀ selected ∈ parentIds, parent ∈ selected.texts

theorem selectedBy_iff :
    candidate.selectedBy parentIds ↔ groupSelected parentIds candidate.parentId := by
  unfold OccupancyCandidate.selectedBy groupSelected
  cases parentIds <;> cases candidate.parentId <;> simp

def members (candidates : List OccupancyCandidate) (group : Option String) :
    List OccupancyCandidate := candidates.filter (·.parentId = group)

theorem mem_members :
    candidate ∈ members candidates group ↔ candidate ∈ candidates ∧ candidate.parentId = group := by
  simp [members]

theorem rankedGroup_eq (candidates : List OccupancyCandidate) (max : Nat) (group : Option String) :
    rankedGroup candidates max group = least max ((members candidates group).map (·.rank)) := rfl

theorem mem_occupancyGroups :
    group ∈ occupancyGroups candidates ↔ ∃ candidate ∈ candidates, candidate.parentId = group := by
  unfold occupancyGroups
  cases group with
  | none => simp
  | some parent => simp [mem_ofList]

theorem exists_member_of_mem_rankedGroup {rank : RankKey}
    (kept : rank ∈ rankedGroup candidates max group) :
    ∃ candidate ∈ candidates, candidate.parentId = group ∧ candidate.rank = rank := by
  obtain ⟨candidate, member, rfl⟩ := mem_map.mp (mem_of_mem_least kept)
  obtain ⟨listed, inGroup⟩ := mem_members.mp member
  exact ⟨candidate, listed, inGroup, rfl⟩

theorem mem_occupantIds {id : String} : id ∈ (admitGroups candidates max).occupantIds.texts ↔
    ∃ group, ∃ rank ∈ rankedGroup candidates max group, rank.recordId = id := by
  simp only [admitGroups, mem_ofList, mem_flatMap, mem_map]
  constructor
  · rintro ⟨group, -, rank, kept, rfl⟩
    exact ⟨group, rank, kept, rfl⟩
  · rintro ⟨group, rank, kept, rfl⟩
    obtain ⟨candidate, listed, inGroup, -⟩ := exists_member_of_mem_rankedGroup kept
    exact ⟨group, mem_occupancyGroups.mpr ⟨candidate, listed, inGroup⟩, rank, kept, rfl⟩

section

variable (distinct : (candidates.map (·.recordId)).Nodup)

include distinct

theorem nodup_ranks (group : Option String) :
    ((members candidates group).map (·.rank)).Nodup := by
  apply List.Nodup.of_map (·.recordId)
  rw [map_map]
  exact distinct.sublist (filter_sublist.map _)

theorem recordId_mem_occupantIds (listed : candidate ∈ candidates) :
    candidate.recordId ∈ (admitGroups candidates max).occupantIds.texts ↔
      candidate.rank ∈ rankedGroup candidates max candidate.parentId := by
  rw [mem_occupantIds]
  constructor
  · rintro ⟨group, rank, kept, sameId⟩
    obtain ⟨other, otherListed, rfl, rfl⟩ := exists_member_of_mem_rankedGroup kept
    have same : other = candidate := inj_on_of_nodup_map distinct otherListed listed sameId
    rwa [← same]
  · intro kept
    exact ⟨_, _, kept, rfl⟩

theorem length_occupants (group : Option String) :
    ((members candidates group).filter fun candidate =>
        candidate.recordId ∈ (admitGroups candidates max).occupantIds.texts).length =
      min max (members candidates group).length := by
  have few := length_filter_mem_least (nodup_ranks distinct group) max
  rw [length_map, filter_map, length_map, ← rankedGroup_eq] at few
  rw [← few]
  congr 1
  apply filter_congr
  intro candidate member
  obtain ⟨listed, rfl⟩ := mem_members.mp member
  simp [recordId_mem_occupantIds distinct listed]

theorem rank_lt_of_occupant {other : OccupancyCandidate}
    (member : candidate ∈ members candidates group) (otherMember : other ∈ members candidates group)
    (admitted : candidate.recordId ∈ (admitGroups candidates max).occupantIds.texts)
    (left : other.recordId ∉ (admitGroups candidates max).occupantIds.texts) :
    candidate.rank < other.rank := by
  obtain ⟨listed, rfl⟩ := mem_members.mp member
  obtain ⟨otherListed, sameGroup⟩ := mem_members.mp otherMember
  rw [recordId_mem_occupantIds distinct listed, rankedGroup_eq] at admitted
  rw [recordId_mem_occupantIds distinct otherListed, sameGroup, rankedGroup_eq] at left
  exact lt_of_mem_least (nodup_ranks distinct _) admitted (mem_map_of_mem otherMember) left

end

theorem mem_cutoffs {cutoff : String} :
    (group, cutoff) ∈ (admitGroups candidates max).cutoffs ↔
      ∃ last, (rankedGroup candidates max group).getLast? = some last ∧ last.key = cutoff := by
  simp only [admitGroups, mem_filterMap, Option.map_eq_some_iff, Prod.mk.injEq]
  constructor
  · rintro ⟨group, -, last, isLast, rfl, rfl⟩
    exact ⟨last, isLast, rfl⟩
  · rintro ⟨last, isLast, rfl⟩
    obtain ⟨candidate, listed, inGroup, -⟩ :=
      exists_member_of_mem_rankedGroup (mem_of_getLast? isLast)
    exact ⟨group, mem_occupancyGroups.mpr ⟨candidate, listed, inGroup⟩, last, isLast, rfl, rfl⟩

theorem occupancyCutoffs_iff (distinct : (candidates.map (·.recordId)).Nodup)
    (plain : ∀ candidate ∈ candidates, '\x00' ∉ candidate.dateCreated.toList)
    (listed : candidate ∈ candidates) :
    occupancyCutoffs (admitGroups candidates max).cutoffs candidate ↔
      candidate.rank ∈ rankedGroup candidates max candidate.parentId := by
  have member : candidate.rank ∈ (members candidates candidate.parentId).map (·.rank) :=
    mem_map_of_mem (mem_members.mpr ⟨listed, rfl⟩)
  have upTo {last : RankKey}
      (isLast : (rankedGroup candidates max candidate.parentId).getLast? = some last) :
      binaryLe candidate.rank.key last.key ↔
        candidate.rank ∈ rankedGroup candidates max candidate.parentId := by
    obtain ⟨other, otherListed, -, rfl⟩ :=
      exists_member_of_mem_rankedGroup (mem_of_getLast? isLast)
    rw [binaryLe_key (plain _ listed) (plain _ otherListed), rankedGroup_eq,
      mem_least_iff_le (nodup_ranks distinct _) isLast member]
  simp only [occupancyCutoffs, any_eq_true, Bool.and_eq_true, decide_eq_true_eq]
  constructor
  · rintro ⟨⟨group, cutoff⟩, branch, rfl, below⟩
    obtain ⟨last, isLast, rfl⟩ := mem_cutoffs.mp branch
    exact (upTo isLast).mp below
  · intro kept
    have isLast := List.getLast?_eq_some_getLast (ne_nil_of_mem kept)
    refine ⟨(candidate.parentId, RankKey.key _), mem_cutoffs.mpr ⟨_, isLast, rfl⟩, rfl, ?_⟩
    exact (upTo isLast).mpr kept

theorem admitGroups_eq_of_perm {other : List OccupancyCandidate} (same : other.Perm candidates)
    (max : Nat) : admitGroups other max = admitGroups candidates max := by
  have groups : occupancyGroups other = occupancyGroups candidates := by
    have parents : TextSet.ofList (other.filterMap (·.parentId)) =
        TextSet.ofList (candidates.filterMap (·.parentId)) :=
      eq_of_mem_iff fun text => by
        rw [mem_ofList, mem_ofList, (same.filterMap _).mem_iff]
    rw [occupancyGroups, occupancyGroups, parents, same.any_eq]
  have ranked (group : Option String) :
      rankedGroup other max group = rankedGroup candidates max group :=
    least_eq_of_perm ((same.filter _).map _) max
  simp only [admitGroups, groups, ranked]

theorem mem_occupantIds_of_cons {added : OccupancyCandidate}
    (distinct : ((added :: candidates).map (·.recordId)).Nodup) (listed : candidate ∈ candidates)
    (admitted : candidate.recordId ∈ (admitGroups (added :: candidates) max).occupantIds.texts) :
    candidate.recordId ∈ (admitGroups candidates max).occupantIds.texts := by
  rw [recordId_mem_occupantIds distinct (mem_cons_of_mem _ listed), rankedGroup_eq] at admitted
  have wider := nodup_ranks distinct candidate.parentId
  rw [map_cons, nodup_cons] at distinct
  rw [recordId_mem_occupantIds distinct.2 listed, rankedGroup_eq]
  rw [members, filter_cons] at admitted wider
  split at admitted
  · rename_i inGroup
    rw [if_pos inGroup, map_cons] at wider
    rcases mem_least_of_cons wider admitted with same | kept
    · have sameId : candidate.recordId = added.recordId := congrArg RankKey.recordId same
      exact absurd (sameId ▸ mem_map_of_mem listed) distinct.1
    · exact kept
  · exact admitted

theorem members_filter_selectedBy (selected : groupSelected parentIds group) :
    members (candidates.filter (·.selectedBy parentIds)) group = members candidates group := by
  rw [members, members, filter_filter]
  apply filter_congr
  intro candidate _
  by_cases inGroup : candidate.parentId = group
  · subst inGroup
    simp [selectedBy_iff.mpr selected]
  · simp [inGroup]

theorem selectedBy_of_mem_occupantIds (distinct : (candidates.map (·.recordId)).Nodup)
    (listed : candidate ∈ candidates) (admitted : candidate.recordId ∈
      (admitGroups (candidates.filter (·.selectedBy parentIds)) max).occupantIds.texts) :
    candidate.selectedBy parentIds := by
  obtain ⟨group, rank, kept, sameId⟩ := mem_occupantIds.mp admitted
  obtain ⟨other, found, -, rfl⟩ := exists_member_of_mem_rankedGroup kept
  obtain ⟨otherListed, selected⟩ := mem_filter.mp found
  have same : other = candidate := inj_on_of_nodup_map distinct otherListed listed sameId
  exact same ▸ selected

theorem mem_occupants_iff_cutoffs (distinct : (candidates.map (·.recordId)).Nodup)
    (plain : ∀ candidate ∈ candidates, '\x00' ∉ candidate.dateCreated.toList)
    (listed : candidate ∈ candidates) :
    candidate.recordId ∈
        (admitGroups (candidates.filter (·.selectedBy parentIds)) max).occupantIds.texts ↔
      occupancyCutoffs (admitGroups (candidates.filter (·.selectedBy parentIds)) max).cutoffs
        candidate := by
  have narrowed := distinct.sublist (filter_sublist (p := (·.selectedBy parentIds)).map _)
  by_cases selected : candidate.selectedBy parentIds
  · have inScope := mem_filter.mpr ⟨listed, selected⟩
    rw [recordId_mem_occupantIds narrowed inScope, occupancyCutoffs_iff narrowed
      (fun other found => plain other (mem_of_mem_filter found)) inScope]
  · -- Neither the ids nor the cutoffs say anything of a group that is not selected.
    apply iff_of_false
    · intro admitted
      exact selected (selectedBy_of_mem_occupantIds distinct listed admitted)
    · simp only [occupancyCutoffs, any_eq_true, Bool.and_eq_true, decide_eq_true_eq]
      rintro ⟨⟨group, cutoff⟩, branch, rfl, -⟩
      obtain ⟨last, isLast, -⟩ := mem_cutoffs.mp branch
      obtain ⟨other, found, sameGroup, -⟩ :=
        exists_member_of_mem_rankedGroup (mem_of_getLast? isLast)
      have otherSelected := selectedBy_iff.mp (mem_filter.mp found).2
      rw [sameGroup] at otherSelected
      exact selected (selectedBy_iff.mpr otherSelected)

structure Admits (candidates : List OccupancyCandidate) (max : Nat) (parentIds : Option TextSet)
    (selection : OccupancySelection) : Prop where
  anyOrder : ∀ other : List OccupancyCandidate, other.Perm candidates →
    selectOccupants other max parentIds = .ok selection
  selected : ∀ id ∈ selection.occupantIds.texts, ∃ candidate ∈ candidates,
    candidate.recordId = id ∧ groupSelected parentIds candidate.parentId
  full : ∀ group, groupSelected parentIds group →
    ((members candidates group).filter (·.recordId ∈ selection.occupantIds.texts)).length =
      min max (members candidates group).length
  oldest : ∀ group, groupSelected parentIds group → ∀ candidate ∈ members candidates group,
    ∀ other ∈ members candidates group, candidate.recordId ∈ selection.occupantIds.texts →
    other.recordId ∉ selection.occupantIds.texts →
    candidate.dateCreated < other.dateCreated ∨
      candidate.dateCreated = other.dateCreated ∧ candidate.recordId < other.recordId
  cutoffs : ∀ candidate ∈ candidates, candidate.recordId ∈ selection.occupantIds.texts ↔
    occupancyCutoffs selection.cutoffs candidate
  growth : ∀ added wider, ((added :: candidates).map (·.recordId)).Nodup →
    selectOccupants (added :: candidates) max parentIds = .ok wider →
    ∀ candidate ∈ candidates, candidate.recordId ∈ wider.occupantIds.texts →
      candidate.recordId ∈ selection.occupantIds.texts

theorem selectOccupants_admits (candidates : List OccupancyCandidate) (max : Nat)
    (parentIds : Option TextSet) (positive : 1 ≤ max)
    (distinct : (candidates.map (·.recordId)).Nodup)
    (plain : ∀ candidate ∈ candidates, '\x00' ∉ candidate.dateCreated.toList) :
    ∃ selection, selectOccupants candidates max parentIds = .ok selection ∧
      Admits candidates max parentIds selection := by
  have selects (list : List OccupancyCandidate) : selectOccupants list max parentIds =
      .ok (admitGroups (list.filter (·.selectedBy parentIds)) max) := if_neg (by omega)
  have narrowed := distinct.sublist (filter_sublist (p := (·.selectedBy parentIds)).map _)
  refine ⟨_, selects candidates, ?_, ?_, ?_, ?_, ?_, ?_⟩
  · intro other same
    rw [selects, admitGroups_eq_of_perm (same.filter _)]
  · intro id admitted
    obtain ⟨group, rank, kept, rfl⟩ := mem_occupantIds.mp admitted
    obtain ⟨candidate, found, -, rfl⟩ := exists_member_of_mem_rankedGroup kept
    obtain ⟨listed, selected⟩ := mem_filter.mp found
    exact ⟨candidate, listed, rfl, selectedBy_iff.mp selected⟩
  · intro group selected
    rw [← members_filter_selectedBy selected]
    exact length_occupants narrowed group
  · intro group selected candidate member other otherMember admitted left
    rw [← members_filter_selectedBy selected] at member otherMember
    exact rankKey_lt_iff.mp (rank_lt_of_occupant narrowed member otherMember admitted left)
  · intro candidate listed
    exact mem_occupants_iff_cutoffs distinct plain listed
  · intro added wider distinct' selected candidate listed admitted
    rw [selects] at selected
    cases selected
    have inScope := mem_filter.mpr ⟨listed, selectedBy_of_mem_occupantIds distinct'
      (mem_cons_of_mem _ listed) admitted⟩
    have wider := distinct'.sublist (filter_sublist (p := (·.selectedBy parentIds)).map _)
    rw [filter_cons] at admitted wider
    split at admitted
    · rename_i addedSelected
      rw [if_pos addedSelected] at wider
      exact mem_occupantIds_of_cons wider inScope admitted
    · exact admitted

namespace Slots

def third : OccupancyCandidate := ⟨"r3", some "a", "2025-01-03"⟩
def first : OccupancyCandidate := ⟨"r1", some "a", "2025-01-01"⟩
def second : OccupancyCandidate := ⟨"r2", some "a", "2025-01-02"⟩
def elsewhere : OccupancyCandidate := ⟨"r0", some "b", "2024-01-01"⟩
def root : OccupancyCandidate := ⟨"r4", none, "2024-01-01"⟩

def records : List OccupancyCandidate := [third, first, second, elsewhere, root]

end Slots

theorem two_oldest_of_three_admitted :
    ∃ selection, selectOccupants Slots.records 2 (some (TextSet.ofList ["a"])) = .ok selection ∧
      Admits Slots.records 2 (some (TextSet.ofList ["a"])) selection ∧
      selection.occupantIds.texts = ["r1", "r2"] := by
  obtain ⟨selection, selected, admits⟩ := selectOccupants_admits Slots.records 2
    (some (TextSet.ofList ["a"])) (by decide) (by decide) (by decide)
  refine ⟨selection, selected, admits, ?_⟩
  cases selected
  decide +kernel

end Enbox.Proof.Store
