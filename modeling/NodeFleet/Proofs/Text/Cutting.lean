import NodeFleet.Text.Split

/-!
# Cutting and joining text

Parts that do not hold the separator are found again in the text that they are joined to.
-/

namespace NodeFleet.Text

theorem splitAt_append {separator : Char} {part rest : List Char} (clean : separator ∉ part) :
    splitAt separator (part ++ separator :: rest) = part :: splitAt separator rest := by
  induction part with
  | nil => simp [splitAt]
  | cons head tail inductionHypothesis =>
      obtain ⟨headClean, tailClean⟩ : separator ≠ head ∧ separator ∉ tail := by
        simpa using clean
      rw [List.cons_append, splitAt, if_neg headClean.symm,
        inductionHypothesis tailClean]

theorem splitAt_self {separator : Char} {part : List Char} (clean : separator ∉ part) :
    splitAt separator part = [part] := by
  induction part with
  | nil => rfl
  | cons head tail inductionHypothesis =>
      obtain ⟨headClean, tailClean⟩ : separator ≠ head ∧ separator ∉ tail := by
        simpa using clean
      rw [splitAt, if_neg headClean.symm, inductionHypothesis tailClean]

/-- Parts without the separator are found again when they have been joined. -/
theorem splitAt_joinWith {separator : Char} {parts : List (List Char)} (some : parts ≠ [])
    (clean : ∀ part ∈ parts, separator ∉ part) :
    splitAt separator (joinWith [separator] parts) = parts := by
  induction parts with
  | nil => exact absurd rfl some
  | cons part parts inductionHypothesis =>
      have partClean := clean part List.mem_cons_self
      cases parts with
      | nil => exact splitAt_self partClean
      | cons next others =>
          have rest := inductionHypothesis (List.cons_ne_nil next others) fun other member =>
            clean other (List.mem_cons_of_mem _ member)
          rw [joinWith, List.append_assoc, List.singleton_append, splitAt_append partClean, rest]

/-- No part holds the separator. -/
theorem notMem_of_mem_splitAt {separator : Char} {text part : List Char}
    (member : part ∈ splitAt separator text) : separator ∉ part := by
  induction text generalizing part with
  | nil =>
      obtain rfl := List.mem_singleton.1 member
      exact List.not_mem_nil
  | cons character text inductionHypothesis =>
      obtain ⟨first, others, split⟩ := List.exists_cons_of_ne_nil (splitAt_ne_nil separator text)
      rw [splitAt, split] at member
      rw [split] at inductionHypothesis
      split at member
      · rcases List.mem_cons.1 member with rfl | later
        · exact List.not_mem_nil
        · exact inductionHypothesis later
      · rename_i differs
        rcases List.mem_cons.1 member with rfl | later
        · simpa [Ne.symm differs] using inductionHypothesis List.mem_cons_self
        · exact inductionHypothesis (List.mem_cons_of_mem _ later)

theorem joinWith_append {separator : List Char} {left right : List (List Char)}
    (filled : left ≠ []) (filledRight : right ≠ []) :
    joinWith separator (left ++ right) =
      joinWith separator left ++ separator ++ joinWith separator right := by
  induction left with
  | nil => exact absurd rfl filled
  | cons part left inductionHypothesis =>
      cases left with
      | nil =>
          obtain ⟨next, others, rfl⟩ := List.exists_cons_of_ne_nil filledRight
          rfl
      | cons next others =>
          have later := inductionHypothesis (List.cons_ne_nil next others)
          rw [List.cons_append] at later
          rw [List.cons_append, List.cons_append, joinWith, later, joinWith]
          simp only [List.append_assoc]

/-- Parts may be joined in groups first. -/
theorem joinWith_flatten {separator : List Char} {groups : List (List (List Char))}
    (filled : ∀ group ∈ groups, group ≠ []) :
    joinWith separator groups.flatten = joinWith separator (groups.map (joinWith separator)) := by
  induction groups with
  | nil => rfl
  | cons group groups inductionHypothesis =>
      rw [List.forall_mem_cons] at filled
      cases groups with
      | nil => simp [joinWith]
      | cons next groups =>
          have later := inductionHypothesis filled.2
          have filledRest : (next :: groups).flatten ≠ [] := by
            have filledNext := filled.2 next List.mem_cons_self
            simp [filledNext]
          rw [List.flatten_cons, joinWith_append filled.1 filledRest, later]
          rfl

theorem splitFirst?_append {separator : Char} {before after : List Char}
    (clean : separator ∉ before) :
    splitFirst? separator (before ++ separator :: after) = some (before, after) := by
  induction before with
  | nil => simp [splitFirst?]
  | cons head tail inductionHypothesis =>
      obtain ⟨headClean, tailClean⟩ : separator ≠ head ∧ separator ∉ tail := by
        simpa using clean
      rw [List.cons_append, splitFirst?, if_neg headClean.symm,
        inductionHypothesis tailClean]
      rfl

theorem splitFirst?_eq_none {separator : Char} {text : List Char} (clean : separator ∉ text) :
    splitFirst? separator text = none := by
  induction text with
  | nil => rfl
  | cons head tail inductionHypothesis =>
      obtain ⟨headClean, tailClean⟩ : separator ≠ head ∧ separator ∉ tail := by
        simpa using clean
      rw [splitFirst?, if_neg headClean.symm, inductionHypothesis tailClean]
      rfl

theorem eq_append_of_splitFirst? {separator : Char} {text before after : List Char}
    (split : splitFirst? separator text = some (before, after)) :
    text = before ++ separator :: after := by
  induction text generalizing before with
  | nil => cases split
  | cons character text inductionHypothesis =>
      rw [splitFirst?] at split
      split at split
      · rename_i same
        obtain ⟨rfl, rfl⟩ := Prod.mk.inj (Option.some.inj split)
        rw [same, List.nil_append]
      · obtain ⟨⟨start, rest⟩, found, made⟩ := Option.map_eq_some_iff.1 split
        obtain ⟨rfl, rfl⟩ := Prod.mk.inj made
        rw [inductionHypothesis found, List.cons_append]

/-- A text is cut in one way before its last separator. -/
theorem append_cons_injective_of_notMem {separator : Char} {front back front' back' : List Char}
    (clean : separator ∉ back) (cleanToo : separator ∉ back')
    (same : front ++ separator :: back = front' ++ separator :: back') :
    front = front' ∧ back = back' := by
  have reversed := congrArg (splitFirst? separator) (congrArg List.reverse same)
  simp only [List.reverse_append, List.reverse_cons, List.append_assoc,
    List.singleton_append] at reversed
  rw [splitFirst?_append (by simpa using clean), splitFirst?_append (by simpa using cleanToo)]
    at reversed
  obtain ⟨backs, fronts⟩ := Prod.mk.inj (Option.some.inj reversed)
  exact ⟨List.reverse_inj.1 fronts, List.reverse_inj.1 backs⟩

/-- A text without white space is not trimmed. -/
theorem trim_eq_self {text : List Char} (unblank : ∀ character ∈ text, isBlank character = false) :
    trim text = text := by
  have kept : ∀ text : List Char, (∀ character ∈ text, isBlank character = false) →
      text.dropWhile isBlank = text := by
    intro text unblank
    cases text with
    | nil => rfl
    | cons first rest => exact List.dropWhile_cons_of_neg (by simp [unblank first])
  have keptBehind := kept text.reverse fun character member =>
    unblank character (List.mem_reverse.1 member)
  rw [trim, kept text unblank, keptBehind, List.reverse_reverse]

theorem intercalate_eq_joinWith (separator : List Char) (parts : List (List Char)) :
    separator.intercalate parts = joinWith separator parts := by
  induction parts with
  | nil => rfl
  | cons part parts inductionHypothesis =>
      cases parts with
      | nil => simp [joinWith]
      | cons next others =>
          rw [List.intercalate_cons_cons, inductionHypothesis, joinWith, List.append_assoc]

/-- Texts may be joined in groups first. -/
theorem intercalate_flatten {separator : String} {groups : List (List String)}
    (filled : ∀ group ∈ groups, group ≠ []) :
    separator.intercalate groups.flatten =
      separator.intercalate (groups.map separator.intercalate) := by
  have filledLists : ∀ group ∈ groups.map (List.map String.toList), group ≠ [] := by
    intro group member
    obtain ⟨texts, among, rfl⟩ := List.mem_map.1 member
    simpa using filled texts among
  refine String.toList_inj.1 ?_
  simp only [String.toList_intercalate, intercalate_eq_joinWith]
  rw [List.map_flatten, joinWith_flatten filledLists, List.map_map, List.map_map]
  simp only [Function.comp_def, String.toList_intercalate, intercalate_eq_joinWith]

end NodeFleet.Text
