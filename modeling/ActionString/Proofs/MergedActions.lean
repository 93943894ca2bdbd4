import ActionString.Proofs.MergedCommands

/-!
# Merged actions

A clause adds its trigger to an action map when the trigger is new and merging leaves some of its
commands. So the map has, for each trigger, the commands of the first clause that has some left, and
its triggers stand in the order of these clauses. Merging may go on from a map instead of from the
clauses that it was merged from.
-/

namespace ActionString

open OrderedMap

/-- Whether a clause has commands for a trigger: the trigger is its own, and merging leaves some of
its commands. -/
def RawAction.offers (trigger : Trigger) (action : RawAction) : Bool :=
  action.trigger = trigger && !(mergeCommands action.commands).isEmpty

/-- What it takes to have commands for a trigger. -/
theorem RawAction.offers_iff {trigger : Trigger} {action : RawAction} :
    action.offers trigger = true ↔
      action.trigger = trigger ∧ mergeCommands action.commands ≠ [] := by
  simp [RawAction.offers]

/-- A clause leaves a map as it is when the map has every trigger that the clause has commands for.
Otherwise it adds its trigger at the end. -/
theorem mergeAction_cases (merged : ActionMap) (action : RawAction) :
    (mergeAction merged action = merged ∧
        ∀ trigger, action.offers trigger = true → trigger ∈ merged.keys) ∨
      (mergeAction merged action =
          ⟨merged.entries ++ [(action.trigger, mergeCommands action.commands)]⟩ ∧
        action.trigger ∉ merged.keys ∧ mergeCommands action.commands ≠ []) := by
  by_cases there : action.trigger ∈ merged.keys
  · have contained := (contains_iff_mem_keys merged action.trigger).mpr there
    refine .inl ⟨by rw [mergeAction, if_pos contained], fun trigger offers => ?_⟩
    rwa [← (RawAction.offers_iff.mp offers).1]
  · have missing : ¬merged.contains action.trigger = true := fun contained =>
      there ((contains_iff_mem_keys merged action.trigger).mp contained)
    rw [mergeAction, if_neg missing]
    cases left : mergeCommands action.commands with
    | nil =>
      exact .inl ⟨rfl, fun trigger offers => absurd left (RawAction.offers_iff.mp offers).2⟩
    | cons command commands =>
      exact .inr ⟨insert_of_notMem there _, there, List.cons_ne_nil _ _⟩

/-- The triggers of a map after a clause are those before and those that the clause has commands
for. -/
theorem mem_keys_mergeAction {merged : ActionMap} {action : RawAction} {trigger : Trigger} :
    trigger ∈ (mergeAction merged action).keys ↔
      trigger ∈ merged.keys ∨ action.offers trigger = true := by
  obtain ⟨same, known⟩ | ⟨added, -, left⟩ := mergeAction_cases merged action
  · rw [same]
    exact ⟨.inl, fun either => either.elim id (known trigger)⟩
  · rw [added, RawAction.offers_iff, and_iff_left left]
    simp [keys, eq_comm]

/-- A clause gives its commands to a trigger that has none. -/
theorem get?_mergeAction (merged : ActionMap) (action : RawAction) (trigger : Trigger) :
    (mergeAction merged action).get? trigger = (merged.get? trigger).or
      (([action].find? (RawAction.offers trigger)).map fun action =>
        mergeCommands action.commands) := by
  obtain ⟨same, known⟩ | ⟨added, absent, left⟩ := mergeAction_cases merged action
  · rw [same]
    by_cases offers : action.offers trigger = true
    · have found := get?_isSome_iff.mpr (known trigger offers)
      rw [Option.or_of_isSome found]
    · simp [offers]
  · rw [added, get?, List.lookup_append, ← get?]
    by_cases own : action.trigger = trigger
    · have offers : action.offers trigger = true := RawAction.offers_iff.mpr ⟨own, left⟩
      simp [own, offers]
    · have other : ¬action.offers trigger = true := fun offers =>
        own (RawAction.offers_iff.mp offers).1
      simp [List.lookup_cons, beq_eq_false_iff_ne.mpr (Ne.symm own), other]

/-- A further clause is merged into the map of the clauses before it. -/
theorem mergeActions_concat (actions : List RawAction) (action : RawAction) :
    mergeActions (actions ++ [action]) = mergeAction (mergeActions actions) action :=
  List.foldl_append

/-- One clause is merged to its own commands, if some of them are left. -/
theorem mergeActions_singleton (action : RawAction) :
    mergeActions [action] =
      if mergeCommands action.commands = [] then ∅
      else ⟨[(action.trigger, mergeCommands action.commands)]⟩ := by
  have fresh : ¬(∅ : ActionMap).contains action.trigger = true := Bool.false_ne_true
  rw [mergeActions, List.foldl_cons, List.foldl_nil, mergeAction, if_neg fresh]
  cases mergeCommands action.commands with
  | nil => rfl
  | cons command commands => rfl

/-- A trigger has the commands of the first clause that has some for it. -/
theorem get?_mergeActions (actions : List RawAction) (trigger : Trigger) :
    (mergeActions actions).get? trigger =
      (actions.find? (RawAction.offers trigger)).map fun action =>
        mergeCommands action.commands := by
  induction actions using List.reverseRecOn with
  | nil => rfl
  | append_singleton actions action ih =>
    rw [mergeActions_concat, get?_mergeAction, ih, List.find?_append, Option.map_or]

/-- The triggers of merged clauses are those that some clause has commands for. -/
theorem mem_keys_mergeActions {actions : List RawAction} {trigger : Trigger} :
    trigger ∈ (mergeActions actions).keys ↔
      ∃ action ∈ actions, action.offers trigger = true := by
  rw [← get?_isSome_iff, get?_mergeActions, Option.isSome_map, List.find?_isSome]

/-- The triggers of merged clauses stand in the order of the first clauses that have commands for
them. -/
theorem pairwise_keys_mergeActions (actions : List RawAction) :
    (mergeActions actions).keys.Pairwise fun first second =>
      actions.findIdx (RawAction.offers first) < actions.findIdx (RawAction.offers second) := by
  induction actions using List.reverseRecOn with
  | nil => exact .nil
  | append_singleton actions action ih =>
    have within {trigger : Trigger} (member : trigger ∈ (mergeActions actions).keys) :
        actions.findIdx (RawAction.offers trigger) < actions.length :=
      List.findIdx_lt_length.mpr (mem_keys_mergeActions.mp member)
    -- A trigger that is there already keeps its position, which is before that of the new clause.
    have before : (mergeActions actions).keys.Pairwise fun first second =>
        (actions ++ [action]).findIdx (RawAction.offers first) <
          (actions ++ [action]).findIdx (RawAction.offers second) := by
      refine ih.imp_of_mem fun {first second} memberFirst memberSecond earlier => ?_
      rwa [List.findIdx_append, if_pos (within memberFirst), List.findIdx_append,
        if_pos (within memberSecond)]
    rw [mergeActions_concat]
    obtain ⟨same, -⟩ | ⟨added, absent, -⟩ := mergeAction_cases (mergeActions actions) action
    · rw [same]
      exact before
    · rw [added, keys, List.map_append]
      refine List.pairwise_append.mpr ⟨before, List.pairwise_singleton _ _, ?_⟩
      intro trigger member other own
      obtain rfl := List.mem_singleton.mp own
      have late : ¬actions.findIdx (RawAction.offers action.trigger) < actions.length := fun found =>
        absent (mem_keys_mergeActions.mpr (List.findIdx_lt_length.mp found))
      have early := within member
      rw [List.findIdx_append, if_pos early, List.findIdx_append, if_neg late]
      omega

/-- No trigger of merged clauses is without commands. -/
theorem noneEmpty_mergeActions (actions : List RawAction) : (mergeActions actions).NoneEmpty := by
  induction actions using List.reverseRecOn with
  | nil =>
    intro commands member
    cases member
  | append_singleton actions action ih =>
    rw [mergeActions_concat]
    obtain ⟨same, -⟩ | ⟨added, -, left⟩ := mergeAction_cases (mergeActions actions) action
    · rw [same]
      exact ih
    · rw [added, ActionMap.NoneEmpty, values, List.map_append, List.forall_mem_append]
      exact ⟨ih, List.forall_mem_singleton.mpr left⟩

/-- The map of a list of clauses has, for each trigger, the commands of the first clause that has
some for it after merging, and nothing for a trigger without such a clause. Its triggers are all
different and stand in the order of these clauses, and none is without commands. -/
theorem mergeActions_first (actions : List RawAction) :
    (∀ trigger, (mergeActions actions).get? trigger =
        (actions.find? (RawAction.offers trigger)).map fun action =>
          mergeCommands action.commands) ∧
      (∀ trigger, trigger ∈ (mergeActions actions).keys ↔
        ∃ action ∈ actions, action.trigger = trigger ∧ mergeCommands action.commands ≠ []) ∧
      ((mergeActions actions).keys.Pairwise fun first second =>
        actions.findIdx (RawAction.offers first) < actions.findIdx (RawAction.offers second)) ∧
      (mergeActions actions).keys.Nodup ∧ (mergeActions actions).NoneEmpty := by
  have ordered := pairwise_keys_mergeActions actions
  have distinct : (mergeActions actions).keys.Nodup := by
    apply ordered.imp
    intro first second earlier same
    rw [same] at earlier
    exact Nat.lt_irrefl _ earlier
  refine ⟨get?_mergeActions actions, fun trigger => ?_, ordered, distinct,
    noneEmpty_mergeActions actions⟩
  rw [mem_keys_mergeActions]
  exact exists_congr fun action => and_congr_right fun _ => RawAction.offers_iff

/-- A clause with its commands merged counts as the clause does. -/
theorem mergeAction_merged (merged : ActionMap) (action : RawAction) :
    mergeAction merged ⟨action.trigger, (mergeCommands action.commands).map some⟩ =
      mergeAction merged action := by
  simp only [mergeAction, mergeCommands_mergeCommands]

/-- Merging clauses into a map makes it have their triggers. -/
theorem mem_keys_foldl_mergeAction {merged : ActionMap} {actions : List RawAction}
    {trigger : Trigger} :
    trigger ∈ (actions.foldl mergeAction merged).keys ↔
      trigger ∈ merged.keys ∨ ∃ action ∈ actions, action.offers trigger = true := by
  induction actions generalizing merged with
  | nil => simp
  | cons action actions ih =>
    rw [List.foldl_cons, ih, mem_keys_mergeAction, or_assoc, List.exists_mem_cons_iff]

/-- A map is merged into another as the clauses that it was merged from. -/
theorem foldl_mergeAction_toRaw (merged : ActionMap) (actions : List RawAction) :
    (mergeActions actions).toRaw.foldl mergeAction merged = actions.foldl mergeAction merged := by
  induction actions using List.reverseRecOn with
  | nil => rfl
  | append_singleton actions action ih =>
    rw [mergeActions_concat, List.foldl_append, List.foldl_cons, List.foldl_nil]
    obtain ⟨same, known⟩ | ⟨added, -, -⟩ := mergeAction_cases (mergeActions actions) action
    · -- What the clause has commands for is in the map of the clauses before it.
      rw [same, ih]
      obtain ⟨idle, -⟩ | ⟨-, absent, left⟩ :=
        mergeAction_cases (actions.foldl mergeAction merged) action
      · rw [idle]
      · have there := known action.trigger (RawAction.offers_iff.mpr ⟨rfl, left⟩)
        exact absurd (mem_keys_foldl_mergeAction.mpr (.inr (mem_keys_mergeActions.mp there))) absent
    · rw [added, ActionMap.toRaw, List.map_append, List.foldl_append, ← ActionMap.toRaw, ih]
      exact mergeAction_merged _ action

/-- Commands and clauses in two lists can be merged list by list first, and then together. So
merging what is merged already changes nothing. -/
theorem merge_incremental :
    (∀ first second : List (Option Command), mergeCommands (first ++ second) =
        mergeCommands ((mergeCommands first).map some ++ (mergeCommands second).map some)) ∧
      (∀ first second : List RawAction, mergeActions (first ++ second) =
        mergeActions ((mergeActions first).toRaw ++ (mergeActions second).toRaw)) ∧
      (∀ commands : List (Option Command),
        mergeCommands ((mergeCommands commands).map some) = mergeCommands commands) ∧
      ∀ actions : List RawAction, mergeActions (mergeActions actions).toRaw = mergeActions actions := by
  refine ⟨mergeCommands_append, fun first second => ?_, mergeCommands_mergeCommands,
    fun actions => foldl_mergeAction_toRaw ∅ actions⟩
  rw [mergeActions, mergeActions, List.foldl_append, List.foldl_append, foldl_mergeAction_toRaw,
    foldl_mergeAction_toRaw]

end ActionString
