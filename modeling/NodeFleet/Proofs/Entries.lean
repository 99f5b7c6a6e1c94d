import NodeFleet.KeyMap

/-!
# Entries and look-up

A look-up in a map finds exactly the entries of the map, and no key stands twice.
-/

namespace NodeFleet.KeyMap

variable {α : Type}

theorem mem_of_valueIn?_eq_some {key : String} {value : α} {entries : List (String × α)}
    (found : valueIn? key entries = some value) :
    (key, value) ∈ entries := by
  induction entries with
  | nil => simp [valueIn?] at found
  | cons head tail inductionHypothesis =>
      unfold valueIn? at found
      split at found
      · rename_i same
        obtain rfl := Option.some.inj found
        rw [← same]
        exact List.mem_cons_self
      · exact List.mem_cons_of_mem _ (inductionHypothesis found)

theorem valueIn?_eq_some_of_mem {key : String} {value : α} {entries : List (String × α)}
    (increasing : entries.Pairwise fun earlier later => earlier.1 < later.1)
    (member : (key, value) ∈ entries) :
    valueIn? key entries = some value := by
  induction entries with
  | nil => simp at member
  | cons head tail inductionHypothesis =>
      obtain ⟨headBelow, tailIncreasing⟩ := List.pairwise_cons.1 increasing
      rcases List.mem_cons.1 member with rfl | inTail
      · simp [valueIn?]
      · have different : head.1 ≠ key := by
          intro same
          have below := headBelow (key, value) inTail
          rw [same] at below
          exact String.lt_irrefl key below
        simpa [valueIn?, different] using inductionHypothesis tailIncreasing inTail

theorem find?_eq_some_iff_mem (map : KeyMap α) (key : String) (value : α) :
    map.find? key = some value ↔ (key, value) ∈ map.entries :=
  ⟨mem_of_valueIn?_eq_some, valueIn?_eq_some_of_mem map.increasing⟩

/-- Two maps that answer every look-up alike are equal. -/
theorem eq_of_find?_eq {left right : KeyMap α}
    (same : ∀ key, left.find? key = right.find? key) : left = right := by
  have nodup : ∀ map : KeyMap α, map.entries.Nodup := by
    intro map
    apply map.increasing.imp
    rintro earlier later below rfl
    exact String.lt_irrefl _ below
  have sameEntries : left.entries.Perm right.entries := by
    apply (List.perm_ext_iff_of_nodup (nodup left) (nodup right)).2
    intro entry
    rw [← find?_eq_some_iff_mem, ← find?_eq_some_iff_mem, same]
  have equal : left.entries = right.entries := by
    apply sameEntries.eq_of_pairwise _ left.increasing right.increasing
    intro earlier later _ _ below above
    exact absurd (String.lt_trans below above) (String.lt_irrefl _)
  cases left
  cases right
  simp_all

theorem mem_values_iff (map : KeyMap α) (value : α) :
    value ∈ map.values ↔ ∃ key, map.find? key = some value := by
  simp only [values, List.mem_map, find?_eq_some_iff_mem]
  constructor
  · rintro ⟨entry, member, rfl⟩
    exact ⟨entry.1, member⟩
  · rintro ⟨key, member⟩
    exact ⟨(key, value), member, rfl⟩

theorem keys_nodup (map : KeyMap α) : map.keys.Nodup := by
  refine List.Pairwise.map Prod.fst (fun earlier later below => ?_) map.increasing
  intro same
  rw [same] at below
  exact String.lt_irrefl later.1 below

end NodeFleet.KeyMap
