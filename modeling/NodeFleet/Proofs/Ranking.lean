import Mathlib.Data.List.Nodup
import Mathlib.Data.List.Perm.Basic

/-!
# Lists in the order of a rank

A list that holds given items in the order of a rank, where items of one rank stay in their
order, is determined by the items.  When the items come in another order, only the groups of one
rank can change.
-/

namespace NodeFleet

variable {α β : Type} {rank : α → Int} {items others ordered reordered : List α}

/-- A list holds each of the items once, by rank, and items of one rank in their order. -/
structure Ranked (rank : α → Int) (items ordered : List α) : Prop where
  perm : ordered.Perm items
  ascends : ordered.Pairwise fun earlier later => rank earlier ≤ rank later
  ties : ∀ level, ordered.filter (rank · = level) = items.filter (rank · = level)

/-- An item is the first of those that pass a test: none has a lower rank, and none of its rank
comes before it. -/
structure IsFirst (rank : α → Int) (passes : α → Bool) (items : List α) (item : α) : Prop where
  least : ∀ other ∈ items, passes other = true → rank item ≤ rank other
  earliest : items.find? (fun other => passes other && rank other = rank item) = some item

/-- Two lists differ at most within the groups of one rank. -/
structure Regrouped (rank : α → Int) (left right : List α) : Prop where
  ranks : left.map rank = right.map rank
  groups : ∀ level, (left.filter (rank · = level)).Perm (right.filter (rank · = level))

theorem ranked_mergeSort (rank : α → Int) (items : List α) :
    Ranked rank items (items.mergeSort fun left right => rank left ≤ rank right) := by
  have trans : ∀ first second third : α, decide (rank first ≤ rank second) = true →
      decide (rank second ≤ rank third) = true → decide (rank first ≤ rank third) = true := by
    intro first second third below above
    simp only [decide_eq_true_eq] at below above ⊢
    omega
  have total : ∀ left right : α,
      (decide (rank left ≤ rank right) || decide (rank right ≤ rank left)) = true := by
    intro left right
    simp only [Bool.or_eq_true, decide_eq_true_eq]
    omega
  refine ⟨List.mergeSort_perm items _, ?_, fun level => ?_⟩
  · exact (List.pairwise_mergeSort trans total items).imp of_decide_eq_true
  · -- A group is in order already, so sorting keeps it as it stands.
    have grouped : (items.filter (rank · = level)).Pairwise
        fun left right => decide (rank left ≤ rank right) = true := by
      refine List.pairwise_of_forall_mem_list fun left inLeft right inRight => ?_
      have leftLevel := of_decide_eq_true (List.mem_filter.1 inLeft).2
      have rightLevel := of_decide_eq_true (List.mem_filter.1 inRight).2
      exact decide_eq_true (by omega)
    have kept := (List.sublist_mergeSort trans total grouped List.filter_sublist).filter
      (rank · = level)
    rw [List.filter_filter] at kept
    simp only [Bool.and_self] at kept
    exact (kept.eq_of_length ((List.mergeSort_perm items _).filter _).length_eq.symm).symm

namespace Ranked

/-- What is in order by one rank is so by another one that agrees with it. -/
theorem map {rankAfter : β → Int} {change : α → β} (ranked : Ranked rank items ordered)
    (agrees : ∀ item ∈ items, rankAfter (change item) = rank item) :
    Ranked rankAfter (items.map change) (ordered.map change) where
  perm := ranked.perm.map change
  ascends := by
    refine List.pairwise_map.2 (ranked.ascends.imp_of_mem fun {earlier later} inEarlier inLater
      below => ?_)
    rw [agrees earlier (ranked.perm.mem_iff.1 inEarlier),
      agrees later (ranked.perm.mem_iff.1 inLater)]
    exact below
  ties := fun level => by
    have sameGroup : ∀ part : List α, (∀ item ∈ part, item ∈ items) →
        (part.map change).filter (rankAfter · = level) =
          (part.filter (rank · = level)).map change := by
      intro part among
      rw [List.filter_map]
      refine congrArg (List.map change) (List.filter_congr fun item member => ?_)
      simp only [Function.comp_apply, agrees item (among item member)]
    rw [sameGroup ordered fun _ => ranked.perm.mem_iff.1, sameGroup items fun _ => id,
      ranked.ties level]

/-- Items in order stay so when some are left out and the others are changed within their
rank. -/
theorem filterMap {rankAfter : β → Int} {change : α → Option β}
    (ranked : Ranked rank items ordered)
    (agrees : ∀ item ∈ items, ∀ changed, change item = some changed →
      rankAfter changed = rank item) :
    Ranked rankAfter (items.filterMap change) (ordered.filterMap change) where
  perm := ranked.perm.filterMap change
  ascends := by
    refine List.pairwise_filterMap.2 (ranked.ascends.imp_of_mem fun {earlier later} inEarlier
      inLater below first isFirst second isSecond => ?_)
    rw [agrees earlier (ranked.perm.mem_iff.1 inEarlier) first isFirst,
      agrees later (ranked.perm.mem_iff.1 inLater) second isSecond]
    exact below
  ties := fun level => by
    have sameGroup : ∀ part : List α, (∀ item ∈ part, item ∈ items) →
        (part.filterMap change).filter (rankAfter · = level) =
          (part.filter (rank · = level)).filterMap change := by
      intro part among
      rw [List.filter_filterMap, List.filterMap_filter]
      refine List.filterMap_congr fun item member => ?_
      cases changes : change item with
      | none => simp
      | some changed =>
          simp [Option.filter, agrees item (among item member) changed changes]
    rw [sameGroup ordered fun _ => ranked.perm.mem_iff.1, sameGroup items fun _ => id,
      ranked.ties level]

/-- Items in order stay so when some are left out. -/
theorem filter (ranked : Ranked rank items ordered) (keep : α → Bool) :
    Ranked rank (items.filter keep) (ordered.filter keep) := by
  rw [← List.filterMap_eq_filter]
  refine ranked.filterMap fun item _ kept stays => ?_
  obtain ⟨rfl, _⟩ := Option.guard_eq_some_iff.1 stays
  rfl

/-- Items that come in another order are regrouped. -/
theorem regrouped (ranked : Ranked rank items ordered) (rankedToo : Ranked rank others reordered)
    (shuffled : others.Perm items) : Regrouped rank reordered ordered where
  ranks := by
    refine List.Perm.eq_of_pairwise (fun _ _ _ _ => Int.le_antisymm)
      (List.pairwise_map.2 rankedToo.ascends) (List.pairwise_map.2 ranked.ascends) ?_
    exact (rankedToo.perm.trans (shuffled.trans ranked.perm.symm)).map rank
  groups := fun level => by
    rw [ranked.ties, rankedToo.ties]
    exact shuffled.filter _

/-- Items have only one order in which those of one rank stay as they come. -/
theorem unique (ranked : Ranked rank items ordered) (rankedToo : Ranked rank items reordered) :
    reordered = ordered := by
  have ranks := (ranked.regrouped rankedToo (.refl items)).ranks
  have groups : ∀ level,
      reordered.filter (rank · = level) = ordered.filter (rank · = level) := fun level => by
    rw [rankedToo.ties, ranked.ties]
  clear ranked rankedToo
  induction reordered generalizing ordered with
  | nil => exact (List.map_eq_nil_iff.1 ranks.symm).symm
  | cons first rest inductionHypothesis =>
      cases ordered with
      | nil => cases ranks
      | cons second others =>
          obtain ⟨sameRank, sameRanks⟩ := List.cons.inj ranks
          -- Both heads come first in their group, which is the same group.
          have heads := groups (rank first)
          rw [List.filter_cons_of_pos (by simp), List.filter_cons_of_pos (by simp [sameRank])]
            at heads
          obtain rfl := (List.cons.inj heads).1
          refine congrArg _ (inductionHypothesis sameRanks fun level => ?_)
          by_cases here : rank first = level
          · subst here
            exact (List.cons.inj heads).2
          · have group := groups level
            rwa [List.filter_cons_of_neg (by simp [here]), List.filter_cons_of_neg (by simp [here])]
              at group

/-- Items of distinct ranks have one order. -/
theorem eq_of_perm (ranked : Ranked rank items ordered)
    (rankedToo : Ranked rank others reordered) (shuffled : others.Perm items)
    (distinct : (items.map rank).Nodup) : reordered = ordered := by
  refine List.Perm.eq_of_pairwise (fun left right inLeft inRight below above => ?_)
    rankedToo.ascends ranked.ascends (rankedToo.perm.trans (shuffled.trans ranked.perm.symm))
  have leftMember : left ∈ items := shuffled.mem_iff.1 (rankedToo.perm.mem_iff.1 inLeft)
  exact List.inj_on_of_nodup_map distinct leftMember (ranked.perm.mem_iff.1 inRight)
    (Int.le_antisymm below above)

/-- Items in order have the first of those that pass a test before all the others. -/
theorem isFirst_of_find? {passes : α → Bool} {item : α} (ranked : Ranked rank items ordered)
    (found : ordered.find? passes = some item) : IsFirst rank passes items item where
  least := by
    intro other member passed
    obtain ⟨_, before, after, split, refused⟩ := List.find?_eq_some_iff_append.1 found
    have ascends := ranked.ascends
    rw [split] at ascends
    have inOrder := ranked.perm.mem_iff.2 member
    rw [split, List.mem_append, List.mem_cons] at inOrder
    rcases inOrder with early | rfl | late
    · have notPassed := refused other early
      simp [passed] at notPassed
    · exact Int.le_refl _
    · exact (List.pairwise_cons.1 (List.pairwise_append.1 ascends).2.1).1 other late
  earliest := by
    -- Within its group the item is found at the same place in both lists.
    have ofGroup : ∀ part : List α, (part.filter (rank · = rank item)).find? passes =
        part.find? fun other => passes other && rank other = rank item := by
      intro part
      rw [List.find?_filter]
      refine congrArg (part.find? ·) (funext fun other => ?_)
      rw [Bool.eq_iff_iff, decide_eq_true_iff, Bool.and_eq_true, and_comm]
    rw [← ofGroup, ← ranked.ties, ofGroup]
    obtain ⟨passed, before, after, split, refused⟩ := List.find?_eq_some_iff_append.1 found
    refine List.find?_eq_some_iff_append.2 ⟨by simp [passed], before, after, split, ?_⟩
    intro other member
    have notPassed := refused other member
    simp only [Bool.not_eq_true'] at notPassed
    simp [notPassed]

end Ranked

namespace IsFirst

variable {passes : α → Bool} {item other : α}

theorem mem (first : IsFirst rank passes items item) : item ∈ items :=
  List.mem_of_find?_eq_some first.earliest

theorem passed (first : IsFirst rank passes items item) : passes item = true := by
  have found := List.find?_some first.earliest
  rw [Bool.and_eq_true] at found
  exact found.1

/-- There is only one first item. -/
theorem unique (first : IsFirst rank passes items item)
    (firstToo : IsFirst rank passes items other) : item = other := by
  have same : rank item = rank other := Int.le_antisymm
    (first.least other firstToo.mem firstToo.passed)
    (firstToo.least item first.mem first.passed)
  have found := first.earliest
  rw [same] at found
  exact Option.some.inj (found.symm.trans firstToo.earliest)

end IsFirst

/-- Looking through items in order finds the first of those that pass a test. -/
theorem Ranked.find?_eq_some_iff {passes : α → Bool} {item : α}
    (ranked : Ranked rank items ordered) :
    ordered.find? passes = some item ↔ IsFirst rank passes items item := by
  refine ⟨ranked.isFirst_of_find?, fun first => ?_⟩
  cases found : ordered.find? passes with
  | none =>
      have refused := List.find?_eq_none.1 found item (ranked.perm.mem_iff.2 first.mem)
      exact absurd first.passed refused
  | some other => rw [(ranked.isFirst_of_find? found).unique first]

/-- Where some item passes a test, one is the first. -/
theorem Ranked.exists_isFirst_iff {passes : α → Bool} (ranked : Ranked rank items ordered) :
    (∃ item, IsFirst rank passes items item) ↔ ∃ item ∈ items, passes item = true := by
  constructor
  · rintro ⟨item, first⟩
    exact ⟨item, first.mem, first.passed⟩
  · rintro ⟨item, member, passed⟩
    cases found : ordered.find? passes with
    | none =>
        exact absurd passed (List.find?_eq_none.1 found item (ranked.perm.mem_iff.2 member))
    | some first => exact ⟨first, ranked.isFirst_of_find? found⟩

end NodeFleet
