import NodeFleet.Proofs.Entries
import NodeFleet.Proofs.Text.Cutting
import NodeFleet.Resource.FullNode
import NodeFleet.Store.Cluster

/-!
# Label selectors

A selector that is made from labels selects what carries all of them, as long as no
key and no value holds a character that selectors are cut at.
-/

namespace NodeFleet.Resource

open Store Text

/-- A label without the characters that selectors are cut at. -/
structure CleanLabel (label : String × String) : Prop where
  key_comma : ',' ∉ label.1.toList
  key_equals : '=' ∉ label.1.toList
  value_comma : ',' ∉ label.2.toList

def labelText (label : String × String) : List Char := label.1.toList ++ '=' :: label.2.toList

theorem toList_labelSelector (labels : TextMap) :
    (labelSelector labels).toList = joinWith [','] (labels.entries.map labelText) := by
  rw [labelSelector, String.toList_intercalate, intercalate_eq_joinWith, List.map_map]
  congr 1
  refine List.map_congr_left fun label member => ?_
  rw [Function.comp_apply, String.toList_append, String.toList_append, List.append_assoc]
  rfl

/-- A selector made from clean labels is cut into them, if there are any. -/
theorem splitAt_labelSelector {labels : TextMap}
    (clean : ∀ label ∈ labels.entries, CleanLabel label) (some : labels.entries ≠ []) :
    splitAt ',' (labelSelector labels).toList = labels.entries.map labelText := by
  have texts : labels.entries.map labelText ≠ [] := by simpa using some
  rw [toList_labelSelector, splitAt_joinWith texts]
  intro part member
  obtain ⟨label, inEntries, rfl⟩ := List.mem_map.1 member
  have labelClean := clean label inEntries
  simp [labelText, labelClean.key_comma, labelClean.value_comma]

/-- A selector made from clean labels asks for each of them. -/
theorem selected_labelSelector {labels : TextMap}
    (clean : ∀ label ∈ labels.entries, CleanLabel label) :
    Cluster.selected (labelSelector labels) =
      labels.entries.map fun label => (label.1, some label.2) := by
  by_cases none : labels.entries = []
  · have blank : labelSelector labels = "" := by simp [labelSelector, none]
    rw [Cluster.selected, if_pos blank, none, List.map_nil]
  · have filled : labelSelector labels ≠ "" := by
      intro blank
      have empty := toList_labelSelector labels
      rw [blank] at empty
      cases entries : labels.entries with
      | nil => exact none entries
      | cons first others =>
          rw [entries] at empty
          cases others <;> simp [joinWith, labelText] at empty
    rw [Cluster.selected, if_neg filled, splitAt_labelSelector clean none, List.map_map]
    refine List.map_congr_left fun label member => ?_
    rw [Function.comp_apply, labelText, splitFirst?_append (clean label member).key_equals]
    simp

/-- A selector made from clean labels selects what carries all of them. -/
theorem selects_labelSelector_iff {labels : TextMap}
    (clean : ∀ label ∈ labels.entries, CleanLabel label) (carried : String → Option String) :
    Cluster.selects (labelSelector labels) carried = true ↔
      ∀ key value, labels.find? key = some value → carried key = some value := by
  rw [Cluster.selects, selected_labelSelector clean, List.all_eq_true]
  constructor
  · intro all key value found
    have member := (labels.find?_eq_some_iff_mem key value).1 found
    have carries := all (key, some value) (List.mem_map.2 ⟨(key, value), member, rfl⟩)
    simpa using carries
  · intro all asked member
    obtain ⟨label, inEntries, rfl⟩ := List.mem_map.1 member
    have carries := all label.1 label.2 ((labels.find?_eq_some_iff_mem _ _).2 inEntries)
    simpa using carries

/-! ## The selectors of a full node -/

namespace FullNode

theorem find?_componentLabels (node : FullNode) (component key : String) :
    (node.selectorLabels.insert componentKey component).find? key =
      if key = componentKey then some component
      else if key = instanceKey then some node.name
      else if key = nameKey then some "fullnode"
      else none := by
  simp only [selectorLabels, KeyMap.ofList, List.foldl, KeyMap.find?_insert, KeyMap.find?_empty,
    eq_comm]

theorem cleanLabel_componentLabels {node : FullNode} (plain : ',' ∉ node.name.toList)
    {component : String} (plainComponent : ',' ∉ component.toList) :
    ∀ label ∈ (node.selectorLabels.insert componentKey component).entries,
      CleanLabel label := by
  intro label member
  have found := (KeyMap.find?_eq_some_iff_mem _ _ _).2 member
  rw [find?_componentLabels] at found
  obtain ⟨key, value⟩ := label
  split at found
  · rename_i same
    obtain rfl := Option.some.inj found
    exact ⟨same ▸ by decide, same ▸ by decide, plainComponent⟩
  split at found
  · rename_i same
    obtain rfl := Option.some.inj found
    exact ⟨same ▸ by decide, same ▸ by decide, plain⟩
  split at found
  · rename_i same
    obtain rfl := Option.some.inj found
    exact ⟨same ▸ by decide, same ▸ by decide, (by decide : ',' ∉ "fullnode".toList)⟩
  · cases found

/-- What a selector of a component asks for, when the full node has a name that
selectors can hold. -/
theorem selects_componentSelector_iff {node : FullNode} (plain : ',' ∉ node.name.toList)
    {component : String} (plainComponent : ',' ∉ component.toList)
    (carried : String → Option String) :
    Cluster.selects (node.componentSelector component) carried = true ↔
      carried componentKey = some component ∧ carried instanceKey = some node.name ∧
        carried nameKey = some "fullnode" := by
  have instanceOther : instanceKey ≠ componentKey := by decide
  have nameOther : nameKey ≠ componentKey ∧ nameKey ≠ instanceKey := by decide
  have clean := cleanLabel_componentLabels plain plainComponent
  rw [componentSelector, selects_labelSelector_iff clean]
  simp only [find?_componentLabels]
  constructor
  · intro all
    refine ⟨all _ _ (if_pos rfl), all _ _ ?_, all _ _ ?_⟩
    · rw [if_neg instanceOther, if_pos rfl]
    · rw [if_neg nameOther.1, if_neg nameOther.2, if_pos rfl]
  · rintro ⟨componentCarried, instanceCarried, nameCarried⟩ key value found
    split at found
    · rename_i same
      rw [same, componentCarried, found]
    split at found
    · rename_i same
      rw [same, instanceCarried, found]
    split at found
    · rename_i same
      rw [same, nameCarried, found]
    · cases found

end FullNode

end NodeFleet.Resource
