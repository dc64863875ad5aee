import Bubble.Slashing.ZeroProduce

/-!
# The zero-production window over a run of rounds

What the two loops of `zeroProduceProcess` do with a list of distinct records, and what holds of
the list each call of a run stores.  The loop over the records decides each one on its own entry
of the validator map (`Swept`); the loop over the previous round's validators puts on watch those
that produced nothing and were not on watch (`Appended`).  A call is thereby one decision per
record `checkSlashing` sees (`ZeroProduceCall.Checks`), and over a run, one call a round, each
stored record is a window of at most the governed size whose marks are the rounds in which the
node was a validator and produced nothing (`Watched`).
-/

namespace Bubble
namespace Slashing

open Staking Sweep

variable {ε : Type}

/-! ## The loop over the records on watch -/

/-- What the loop over the records on watch leaves, from the map `validatorMap`: every record's
entry is dropped from the map; the records kept reached `checkSlashing` and were not slashed; the
items added slash records that reached it; and every record that reached it was slashed or kept. -/
structure Swept (reads : ZeroProduceReads ε) (preRound : UInt64) (w threshold : UInt16)
    (validatorMap : NodeID → Option Bool) (list kept : List WaitSlashingNode)
    (validatorMap' : NodeID → Option Bool) (items : List SlashNodeItem) : Prop where
  map : ∀ nodeId, validatorMap' nodeId =
    if nodeId ∈ list.map (·.nodeId) then none else validatorMap nodeId
  sublist : (kept.map (·.nodeId)).Sublist (list.map (·.nodeId))
  stays : ∀ node' ∈ kept, ∃ node ∈ list,
    Reached reads preRound w (validatorMap node.nodeId) node node' ∧
      checkSlashing reads preRound w threshold node' = .ok none
  slashed : ∀ item ∈ items, ∃ node ∈ list, ∃ node',
    Reached reads preRound w (validatorMap node.nodeId) node node' ∧
      checkSlashing reads preRound w threshold node' = .ok (some item)
  reached : ∀ node ∈ list, ∀ node', Reached reads preRound w (validatorMap node.nodeId) node node' →
    ∃ checked, checkSlashing reads preRound w threshold node' = .ok checked ∧
      (∀ item ∈ checked, item ∈ items) ∧ (checked = none → node' ∈ kept)

theorem Swept.nil (reads : ZeroProduceReads ε) (preRound : UInt64) (w threshold : UInt16)
    (validatorMap : NodeID → Option Bool) :
    Swept reads preRound w threshold validatorMap [] [] validatorMap [] :=
  ⟨by simp, by simp, by simp, by simp, by simp⟩

/-- The loop's outcome on `node :: rest`, from its outcome on `node` (what it keeps and slashes of
it) and on `rest`, decided on the map without the node's entry. -/
theorem Swept.cons {reads : ZeroProduceReads ε} {preRound : UInt64} {w threshold : UInt16}
    {validatorMap validatorMap' : NodeID → Option Bool} {node : WaitSlashingNode}
    {rest others : List WaitSlashingNode} {items : List SlashNodeItem}
    (here : List WaitSlashingNode) (slashed : List SlashNodeItem) (fresh : node.nodeId ∉ rest.map (·.nodeId))
    (later : Swept reads preRound w threshold (Function.update validatorMap node.nodeId none) rest
      others validatorMap' items)
    (here_sublist : (here.map (·.nodeId)).Sublist [node.nodeId])
    (here_stays : ∀ node' ∈ here, Reached reads preRound w (validatorMap node.nodeId) node node' ∧
      checkSlashing reads preRound w threshold node' = .ok none)
    (here_slashed : ∀ item ∈ slashed, ∃ node',
      Reached reads preRound w (validatorMap node.nodeId) node node' ∧
        checkSlashing reads preRound w threshold node' = .ok (some item))
    (here_reached : ∀ node', Reached reads preRound w (validatorMap node.nodeId) node node' →
      ∃ checked, checkSlashing reads preRound w threshold node' = .ok checked ∧
        (∀ item ∈ checked, item ∈ slashed) ∧ (checked = none → node' ∈ here)) :
    Swept reads preRound w threshold validatorMap (node :: rest) (here ++ others) validatorMap'
      (slashed ++ items) := by
  have entry : ∀ other ∈ rest, Function.update validatorMap node.nodeId none other.nodeId =
      validatorMap other.nodeId := by
    intro other mem
    refine Function.update_of_ne (fun same => fresh ?_) _ _
    rw [← same]
    exact List.mem_map_of_mem mem
  refine ⟨fun nodeId => ?_, ?_, fun node' mem => ?_, fun item mem => ?_, fun other mem => ?_⟩
  · rw [later.map nodeId]
    by_cases here_id : nodeId = node.nodeId
    · subst here_id
      simp [fresh]
    · simp [here_id]
  · rw [List.map_append, List.map_cons]
    exact here_sublist.append later.sublist
  · rcases List.mem_append.mp mem with mem | mem
    · exact ⟨node, List.mem_cons_self, here_stays node' mem⟩
    · obtain ⟨other, other_mem, reached, check⟩ := later.stays node' mem
      exact ⟨other, List.mem_cons_of_mem _ other_mem, entry other other_mem ▸ reached, check⟩
  · rcases List.mem_append.mp mem with mem | mem
    · exact ⟨node, List.mem_cons_self, here_slashed item mem⟩
    · obtain ⟨other, other_mem, node', reached, check⟩ := later.slashed item mem
      exact ⟨other, List.mem_cons_of_mem _ other_mem, node', entry other other_mem ▸ reached, check⟩
  · intro node' reached
    rcases List.mem_cons.mp mem with rfl | mem
    · obtain ⟨checked, check, slashes, keeps⟩ := here_reached node' reached
      exact ⟨checked, check, fun item item_mem => List.mem_append_left _ (slashes item item_mem),
        fun none => List.mem_append_left _ (keeps none)⟩
    · obtain ⟨checked, check, slashes, keeps⟩ :=
        later.reached other mem node' ((entry other mem).symm ▸ reached)
      exact ⟨checked, check, fun item item_mem => List.mem_append_right _ (slashes item item_mem),
        fun none => List.mem_append_right _ (keeps none)⟩

/-- The loop over the nodes on watch, on a list with distinct nodes: a node's entry is read before
the loop drops it, so each node is decided on its own entry of the map. -/
theorem sweep_processNode {reads : ZeroProduceReads ε} {preRound : UInt64} {w threshold : UInt16} :
    ∀ (list : List WaitSlashingNode) (validatorMap : NodeID → Option Bool)
      (slashQueue : List SlashNodeItem) (kept : List WaitSlashingNode)
      (validatorMap' : NodeID → Option Bool) (slashQueue' : List SlashNodeItem),
      (list.map (·.nodeId)).Nodup →
      sweep (processNode reads preRound w threshold) list (validatorMap, slashQueue) =
        .ok (kept, (validatorMap', slashQueue')) →
      ∃ items, slashQueue' = slashQueue ++ items ∧
        Swept reads preRound w threshold validatorMap list kept validatorMap' items := by
  intro list
  induction list with
  | nil =>
    intro validatorMap slashQueue kept validatorMap' slashQueue' _ ok
    simp only [sweep, Except.ok.injEq, Prod.mk.injEq] at ok
    obtain ⟨rfl, rfl, rfl⟩ := ok
    exact ⟨[], by simp, .nil reads preRound w threshold validatorMap⟩
  | cons node rest ih =>
    intro validatorMap slashQueue kept validatorMap' slashQueue' nodup ok
    obtain ⟨⟨validatorMap₁, slashQueue₁⟩, result, others, step, swept, rfl⟩ :=
      sweep_cons_eq_ok.mp ok
    obtain ⟨rfl, outcome⟩ := processNode_spec step
    rw [List.map_cons, List.nodup_cons] at nodup
    obtain ⟨items, rfl, later⟩ := ih _ _ _ _ _ nodup.2 swept
    rcases outcome with ⟨unreached, rfl, rfl⟩ | ⟨node', checked, reached, check, rfl, rfl⟩
    · -- the node leaves the list unchecked
      refine ⟨items, by simp, ?_⟩
      simpa using later.cons [] [] nodup.1 (by simp) (by simp) (by simp)
        fun node' reached => absurd ⟨node', reached⟩ unreached
    · refine ⟨checked.toList ++ items, by simp, later.cons _ _ nodup.1 ?_ ?_ ?_ ?_⟩
      · cases checked <;> simp [reached.2.2.1]
      · cases checked <;> simp [reached, check]
      · intro item mem
        exact ⟨node', reached, by cases checked <;> simp_all⟩
      · intro node'' reached'
        rw [reached'.2.2.1, ← reached.2.2.1]
        exact ⟨checked, check, fun item mem => by simpa using mem, fun none => by simp [none]⟩

/-! ## The loop over the validators of the previous round -/

/-- The record a validator of the previous round that produced nothing goes on watch with. -/
def firstZero (preRound : UInt64) (nodeId : NodeID) : WaitSlashingNode := ⟨nodeId, preRound, 1⟩

/-- What the loop over the validators of the previous round adds, from the map `validatorMap`:
each validator that produced nothing by the map is checked with a first record, and goes on watch
unless slashed. -/
structure Appended (reads : ZeroProduceReads ε) (preRound : UInt64) (w threshold : UInt16)
    (validatorMap : NodeID → Option Bool) (validatorQueue : List Validator)
    (added : List WaitSlashingNode) (items : List SlashNodeItem) : Prop where
  sublist : (added.map (·.nodeId)).Sublist (validatorQueue.map (·.nodeId))
  stays : ∀ node ∈ added, validatorMap node.nodeId = some false ∧
    node = firstZero preRound node.nodeId ∧ checkSlashing reads preRound w threshold node = .ok none
  slashed : ∀ item ∈ items, ∃ validator ∈ validatorQueue, validatorMap validator.nodeId = some false ∧
    checkSlashing reads preRound w threshold (firstZero preRound validator.nodeId) = .ok (some item)
  reached : ∀ validator ∈ validatorQueue, validatorMap validator.nodeId = some false →
    ∃ checked, checkSlashing reads preRound w threshold (firstZero preRound validator.nodeId) =
      .ok checked ∧ (∀ item ∈ checked, item ∈ items) ∧
      (checked = none → firstZero preRound validator.nodeId ∈ added)

theorem Appended.cons {reads : ZeroProduceReads ε} {preRound : UInt64} {w threshold : UInt16}
    {validatorMap : NodeID → Option Bool} {rest : List Validator} {added : List WaitSlashingNode}
    {items : List SlashNodeItem} (validator : Validator) (here : List WaitSlashingNode)
    (slashed : List SlashNodeItem)
    (later : Appended reads preRound w threshold validatorMap rest added items)
    (here_sublist : (here.map (·.nodeId)).Sublist [validator.nodeId])
    (here_stays : ∀ node ∈ here, validatorMap validator.nodeId = some false ∧
      node = firstZero preRound validator.nodeId ∧
      checkSlashing reads preRound w threshold node = .ok none)
    (here_slashed : ∀ item ∈ slashed, validatorMap validator.nodeId = some false ∧
      checkSlashing reads preRound w threshold (firstZero preRound validator.nodeId) = .ok (some item))
    (here_reached : validatorMap validator.nodeId = some false →
      ∃ checked, checkSlashing reads preRound w threshold (firstZero preRound validator.nodeId) =
        .ok checked ∧ (∀ item ∈ checked, item ∈ slashed) ∧
        (checked = none → firstZero preRound validator.nodeId ∈ here)) :
    Appended reads preRound w threshold validatorMap (validator :: rest) (here ++ added)
      (slashed ++ items) := by
  refine ⟨?_, fun node mem => ?_, fun item mem => ?_, fun other mem zero => ?_⟩
  · rw [List.map_append, List.map_cons]
    exact here_sublist.append later.sublist
  · rcases List.mem_append.mp mem with mem | mem
    · obtain ⟨zero, rfl, check⟩ := here_stays node mem
      exact ⟨zero, rfl, check⟩
    · exact later.stays node mem
  · rcases List.mem_append.mp mem with mem | mem
    · exact ⟨validator, List.mem_cons_self, here_slashed item mem⟩
    · obtain ⟨other, other_mem, rest_slashed⟩ := later.slashed item mem
      exact ⟨other, List.mem_cons_of_mem _ other_mem, rest_slashed⟩
  · rcases List.mem_cons.mp mem with rfl | mem
    · obtain ⟨checked, check, slashes, keeps⟩ := here_reached zero
      exact ⟨checked, check, fun item item_mem => List.mem_append_left _ (slashes item item_mem),
        fun none => List.mem_append_left _ (keeps none)⟩
    · obtain ⟨checked, check, slashes, keeps⟩ := later.reached other mem zero
      exact ⟨checked, check, fun item item_mem => List.mem_append_right _ (slashes item item_mem),
        fun none => List.mem_append_right _ (keeps none)⟩

/-- The loop over the validators of the previous round appends to the slash queue and to the
list. -/
theorem appendFirstZero_spec {reads : ZeroProduceReads ε} {preRound : UInt64}
    {w threshold : UInt16} {validatorMap : NodeID → Option Bool} :
    ∀ (validatorQueue : List Validator) (slashQueue slashQueue' : List SlashNodeItem)
      (list list' : List WaitSlashingNode),
      appendFirstZero reads preRound w threshold validatorMap validatorQueue (slashQueue, list) =
        .ok (slashQueue', list') →
      ∃ items added, slashQueue' = slashQueue ++ items ∧ list' = list ++ added ∧
        Appended reads preRound w threshold validatorMap validatorQueue added items := by
  intro validatorQueue
  induction validatorQueue with
  | nil =>
    intro slashQueue slashQueue' list list' ok
    simp only [appendFirstZero, Except.ok.injEq, Prod.mk.injEq] at ok
    obtain ⟨rfl, rfl⟩ := ok
    exact ⟨[], [], by simp, by simp, by simp, by simp, by simp, by simp⟩
  | cons validator rest ih =>
    intro slashQueue slashQueue' list list' ok
    unfold appendFirstZero at ok
    by_cases zero : validatorMap validator.nodeId = some false
    · rw [if_pos zero] at ok
      rcases check : checkSlashing reads preRound w threshold (firstZero preRound validator.nodeId)
        with e | _ | item <;> simp only [firstZero] at check <;>
        simp only [check, bind, Except.bind, reduceCtorEq] at ok
      · obtain ⟨items, added, rfl, rfl, later⟩ := ih _ _ _ _ ok
        have appended := later.cons validator [firstZero preRound validator.nodeId] []
          (by simp [firstZero]) (by simp [zero, firstZero, check]) (by simp)
          (by simp [firstZero, check])
        exact ⟨items, [firstZero preRound validator.nodeId] ++ added, by simp,
          by simp [firstZero], by simpa using appended⟩
      · -- slashed at once
        obtain ⟨items, added, rfl, rfl, later⟩ := ih _ _ _ _ ok
        have appended := later.cons validator [] [item] (by simp) (by simp)
          (by simp [zero, firstZero, check]) (by simp [firstZero, check])
        exact ⟨[item] ++ items, added, by simp, rfl, by simpa using appended⟩
    · rw [if_neg zero] at ok
      obtain ⟨items, added, rfl, rfl, later⟩ := ih _ _ _ _ ok
      exact ⟨items, added, rfl, rfl, by
        simpa using later.cons validator [] [] (by simp) (by simp) (by simp)
          fun zero' => absurd zero' zero⟩

/-! ## One call -/

theorem zeroProduceProcess_eq_ok {reads : ZeroProduceReads ε} {waitSlashingNodeList : List WaitSlashingNode}
    {validatorMap : NodeID → Option Bool} {validatorQueue : List Validator}
    {slashQueue : List SlashNodeItem} {waitSlashingNodeList' : List WaitSlashingNode}
    (ok : zeroProduceProcess reads waitSlashingNodeList validatorMap validatorQueue =
      .ok (slashQueue, waitSlashingNodeList')) :
    ∃ threshold w kept validatorMap' swept,
      reads.zeroProduceNumberThreshold = .ok threshold ∧ reads.zeroProduceCumulativeTime = .ok w ∧
      sweep (processNode reads reads.preRound w threshold) waitSlashingNodeList (validatorMap, []) =
        .ok (kept, (validatorMap', swept)) ∧
      appendFirstZero reads reads.preRound w threshold validatorMap' validatorQueue (swept, kept) =
        .ok (slashQueue, waitSlashingNodeList') := by
  unfold zeroProduceProcess at ok
  rcases threshold : reads.zeroProduceNumberThreshold with e | th
  · simp [threshold, bind, Except.bind] at ok
  rcases window : reads.zeroProduceCumulativeTime with e | w
  · simp [threshold, window, bind, Except.bind] at ok
  have loop := sweepLoop_eq delFunc_deletes (processNode reads reads.preRound w th)
    waitSlashingNodeList [] (validatorMap, []) waitSlashingNodeList.length le_rfl
  simp only [List.nil_append, List.length_nil, Nat.cast_zero] at loop
  simp only [threshold, window, loop, bind, Except.bind] at ok
  rcases first : sweep (processNode reads reads.preRound w th) waitSlashingNodeList
    (validatorMap, []) with e | ⟨kept, validatorMap', swept⟩
  · simp [first, Except.map] at ok
  · simp only [first, Except.map] at ok
    exact ⟨th, w, kept, validatorMap', swept, rfl, rfl, first, ok⟩
/-- One call of `zeroProduceProcess`, at the election block of a round: what it reads, and what
`BeginBlock` hands it, the validators of the previous round and the blocks each produced in it. -/
structure ZeroProduceCall (ε : Type) where
  reads : ZeroProduceReads ε
  /-- `getPreValList`: the validators of the previous round. -/
  preRoundVal : List Validator
  /-- `GetPrePackAmount`: the blocks each node produced in the previous round. -/
  result : NodeID → UInt32

namespace ZeroProduceCall

/-- The map `BeginBlock` passes. -/
def validatorMap (call : ZeroProduceCall ε) : NodeID → Option Bool :=
  buildValidatorMap call.preRoundVal call.result

/-- The node was a validator of the previous round and produced no block in it. -/
def ZeroIn (call : ZeroProduceCall ε) (nodeId : NodeID) : Prop :=
  nodeId ∈ call.preRoundVal.map (·.nodeId) ∧ call.result nodeId = 0

/-- The node was a validator of the previous round and produced a block in it. -/
def ProducedIn (call : ZeroProduceCall ε) (nodeId : NodeID) : Prop :=
  nodeId ∈ call.preRoundVal.map (·.nodeId) ∧ 0 < call.result nodeId

/-- The governed values the call reads, which pass the checks governance makes of them. -/
def Governed (call : ZeroProduceCall ε) (w threshold : UInt16) : Prop :=
  call.reads.zeroProduceCumulativeTime = .ok w ∧
    call.reads.zeroProduceNumberThreshold = .ok threshold ∧
    checkZeroProduceCumulativeTime w threshold = true ∧
    checkZeroProduceNumberThreshold w threshold = true

/-- The records `checkSlashing` sees in the call: a record on watch whose node produced no block,
its window moved on and a mark left, or the first record of a validator of the previous round that
produced nothing and was not on watch. -/
def Checks (call : ZeroProduceCall ε) (w : UInt16) (list : List WaitSlashingNode)
    (node' : WaitSlashingNode) : Prop :=
  (∃ node ∈ list, Reached call.reads call.reads.preRound w (call.validatorMap node.nodeId) node node') ∨
    call.ZeroIn node'.nodeId ∧ node'.nodeId ∉ list.map (·.nodeId) ∧
      node' = firstZero call.reads.preRound node'.nodeId

variable {call : ZeroProduceCall ε}

theorem validatorMap_eq_some_false {nodeId : NodeID} :
    call.validatorMap nodeId = some false ↔ call.ZeroIn nodeId := by
  rw [validatorMap, buildValidatorMap_apply, ZeroIn]
  split_ifs with member <;> simp [member, UInt32.lt_iff_toNat_lt, ← UInt32.toNat_inj]

theorem validatorMap_eq_some_true {nodeId : NodeID} :
    call.validatorMap nodeId = some true ↔ call.ProducedIn nodeId := by
  rw [validatorMap, buildValidatorMap_apply, ProducedIn]
  split_ifs with member <;> simp [member]

theorem Governed.bounds {w threshold : UInt16} (governed : call.Governed w threshold) :
    1 ≤ threshold.toNat ∧ threshold.toNat ≤ w.toNat ∧ w.toNat ≤ 50 := by
  obtain ⟨-, -, time, number⟩ := governed
  simp only [checkZeroProduceCumulativeTime, checkZeroProduceNumberThreshold,
    maxZeroProduceCumulativeTime, Bool.not_eq_true', Bool.or_eq_false_iff, decide_eq_false_iff_not,
    UInt16.lt_iff_toNat_lt, not_lt] at time number
  exact ⟨by simpa using number.1, number.2, by simpa using time.2⟩

theorem Checks.eq_of_nodeId {w : UInt16} {list : List WaitSlashingNode}
    {node' node'' : WaitSlashingNode} (nodup : (list.map (·.nodeId)).Nodup)
    (first : call.Checks w list node') (second : call.Checks w list node'')
    (same : node'.nodeId = node''.nodeId) : node' = node'' := by
  rcases first with ⟨node, mem, _, _, rfl, _⟩ | ⟨-, fresh, moved⟩ <;>
    rcases second with ⟨other, other_mem, _, _, rfl, _⟩ | ⟨-, fresh', moved'⟩
  · simp only [moveWindow_nodeId] at same
    obtain rfl := List.inj_on_of_nodup_map nodup mem other_mem same
    rfl
  · simp only [moveWindow_nodeId] at same
    exact absurd (same ▸ List.mem_map_of_mem mem) fresh'
  · simp only [moveWindow_nodeId] at same
    exact absurd (same.symm ▸ List.mem_map_of_mem other_mem) fresh
  · rw [moved, moved', same]

end ZeroProduceCall

open ZeroProduceCall

/-- What a call does, in terms of the records `checkSlashing` sees: each item of the slash queue
slashes one of them, each of them is slashed or kept, and the list stored holds the records kept,
of distinct nodes. -/
structure Decided (call : ZeroProduceCall ε) (w threshold : UInt16) (list : List WaitSlashingNode)
    (slashQueue : List SlashNodeItem) (list' : List WaitSlashingNode) : Prop where
  slashed : ∀ item ∈ slashQueue, ∃ node', call.Checks w list node' ∧
    checkSlashing call.reads call.reads.preRound w threshold node' = .ok (some item)
  checked : ∀ node', call.Checks w list node' → ∃ checked,
    checkSlashing call.reads call.reads.preRound w threshold node' = .ok checked ∧
      (∀ item ∈ checked, item ∈ slashQueue) ∧ (checked = none → node' ∈ list')
  stored : ∀ node' ∈ list', call.Checks w list node' ∧
    checkSlashing call.reads call.reads.preRound w threshold node' = .ok none
  nodup : (list'.map (·.nodeId)).Nodup

/-- A call on a list of distinct records, with validators of distinct nodes, decides each record
`checkSlashing` sees. -/
theorem zeroProduceProcess_decided {call : ZeroProduceCall ε} {w threshold : UInt16}
    {list : List WaitSlashingNode} {slashQueue : List SlashNodeItem} {list' : List WaitSlashingNode}
    (governed : call.Governed w threshold) (nodup : (list.map (·.nodeId)).Nodup)
    (distinct : (call.preRoundVal.map (·.nodeId)).Nodup)
    (ok : zeroProduceProcess call.reads list call.validatorMap call.preRoundVal =
      .ok (slashQueue, list')) :
    Decided call w threshold list slashQueue list' := by
  obtain ⟨threshold', w', kept, validatorMap', swept, threshold_ok, w_ok, first, second⟩ :=
    zeroProduceProcess_eq_ok ok
  obtain ⟨w_read, threshold_read, -⟩ := governed
  rw [w_read, Except.ok.injEq] at w_ok
  rw [threshold_read, Except.ok.injEq] at threshold_ok
  subst w_ok threshold_ok
  obtain ⟨items, swept_eq, loop⟩ := sweep_processNode list call.validatorMap [] kept validatorMap'
    swept nodup first
  rw [swept_eq, List.nil_append] at second
  obtain ⟨items', added, rfl, rfl, appended⟩ :=
    appendFirstZero_spec call.preRoundVal items slashQueue kept list' second
  have entry : ∀ nodeId, validatorMap' nodeId = some false ↔
      call.ZeroIn nodeId ∧ nodeId ∉ list.map (·.nodeId) := by
    intro nodeId
    rw [loop.map, ← validatorMap_eq_some_false]
    split_ifs with member <;> simp [member]
  refine ⟨fun item mem => ?_, fun node' checks => ?_, fun node' mem => ?_, ?_⟩
  · rcases List.mem_append.mp (by simpa using mem) with mem | mem
    · obtain ⟨node, node_mem, node', reached, check⟩ := loop.slashed item mem
      exact ⟨node', .inl ⟨node, node_mem, reached⟩, check⟩
    · obtain ⟨validator, -, zero, check⟩ := appended.slashed item mem
      obtain ⟨zeroIn, fresh⟩ := (entry _).mp zero
      exact ⟨_, .inr ⟨zeroIn, fresh, rfl⟩, check⟩
  · rcases checks with ⟨node, node_mem, reached⟩ | ⟨zeroIn, fresh, moved⟩
    · obtain ⟨checked, check, slashes, keeps⟩ := loop.reached node node_mem node' reached
      exact ⟨checked, check, fun item item_mem => by simp [slashes item item_mem],
        fun none => List.mem_append_left _ (keeps none)⟩
    · obtain ⟨validator, validator_mem, same⟩ := List.mem_map.mp zeroIn.1
      obtain ⟨checked, check, slashes, keeps⟩ :=
        appended.reached validator validator_mem (by rw [entry, same]; exact ⟨zeroIn, fresh⟩)
      rw [same, ← moved] at check keeps
      exact ⟨checked, check, fun item item_mem => by simp [slashes item item_mem],
        fun none => List.mem_append_right _ (keeps none)⟩
  · rcases List.mem_append.mp mem with mem | mem
    · obtain ⟨node, node_mem, reached, check⟩ := loop.stays node' mem
      exact ⟨.inl ⟨node, node_mem, reached⟩, check⟩
    · obtain ⟨zero, moved, check⟩ := appended.stays node' mem
      obtain ⟨zeroIn, fresh⟩ := (entry _).mp zero
      exact ⟨.inr ⟨zeroIn, fresh, moved⟩, check⟩
  · rw [List.map_append, List.nodup_append]
    refine ⟨loop.sublist.nodup nodup, appended.sublist.nodup distinct, ?_⟩
    intro nodeId kept_mem nodeId' added_mem same
    subst same
    obtain ⟨node', mem, rfl⟩ := List.mem_map.mp added_mem
    have zero := (appended.stays node' mem).1
    rw [entry] at zero
    exact zero.2 (loop.sublist.subset kept_mem)

/-- Over a call whose records in view have windows of at most 64 rounds: an item of the slash
queue slashes a record the call sees, for a low ratio; a record it sees is slashed exactly when its
node has a candidate record and its window is full; and a slashed record is not stored. -/
theorem Decided.emits {call : ZeroProduceCall ε} {w threshold : UInt16}
    {list : List WaitSlashingNode} {slashQueue : List SlashNodeItem} {list' : List WaitSlashingNode}
    (decided : Decided call w threshold list slashQueue list') (nodup : (list.map (·.nodeId)).Nodup)
    (w_le : w.toNat ≤ 64)
    (windows : ∀ node', call.Checks w list node' → Window w.toNat call.reads.preRound node') :
    (∀ node', call.Checks w list node' →
      ((∃ item ∈ slashQueue, item.nodeId = node'.nodeId ∧ item.slashType = lowRatio) ↔
        HasRecord call.reads node'.nodeId ∧
          Full w.toNat threshold.toNat call.reads.preRound node') ∧
      (HasRecord call.reads node'.nodeId ∧ Full w.toNat threshold.toNat call.reads.preRound node' →
        node'.nodeId ∉ list'.map (·.nodeId))) ∧
    ∀ item ∈ slashQueue, ∃ node', call.Checks w list node' ∧ item.nodeId = node'.nodeId ∧
      item.slashType = lowRatio := by
  have spec : ∀ node', call.Checks w list node' → ∀ checked,
      checkSlashing call.reads call.reads.preRound w threshold node' = .ok checked →
      (checked.isSome ↔ Full w.toNat threshold.toNat call.reads.preRound node' ∧
        HasRecord call.reads node'.nodeId) ∧
      ∀ item ∈ checked, item.nodeId = node'.nodeId ∧ item.slashType = lowRatio := by
    intro node' checks checked check
    have window := windows node' checks
    have lag_lt := window.lag_lt
    exact checkSlashing_spec w_le (by omega)
      (window.bits.trans_le (Nat.pow_le_pow_right (by norm_num) (by omega))) check
  refine ⟨fun node' checks => ?_, fun item mem => ?_⟩
  · obtain ⟨checked, check, slashes, keeps⟩ := decided.checked node' checks
    obtain ⟨some_iff, named⟩ := spec node' checks checked check
    refine ⟨⟨fun ⟨item, mem, same, _⟩ => ?_, fun slashing => ?_⟩, fun slashing stored => ?_⟩
    · obtain ⟨node'', checks'', check''⟩ := decided.slashed item mem
      have same'' := ((spec node'' checks'' _ check'').2 item rfl).1
      obtain rfl := checks.eq_of_nodeId nodup checks'' (same.symm.trans same'')
      rw [check, Except.ok.injEq] at check''
      exact (some_iff.mp (by simp [check''])).symm
    · obtain ⟨item, rfl⟩ := Option.isSome_iff_exists.mp (some_iff.mpr ⟨slashing.2, slashing.1⟩)
      exact ⟨item, slashes item rfl, named item rfl⟩
    · obtain ⟨node'', mem'', same⟩ := List.mem_map.mp stored
      obtain ⟨checks'', check''⟩ := decided.stored node'' mem''
      obtain rfl := checks.eq_of_nodeId nodup checks'' same.symm
      rw [check, Except.ok.injEq] at check''
      have := some_iff.mpr ⟨slashing.2, slashing.1⟩
      simp [check''] at this
  · obtain ⟨node', checks, check⟩ := decided.slashed item mem
    exact ⟨node', checks, (spec node' checks _ check).2 item rfl⟩

/-! ## Runs, one call a round -/

/-- The lists the calls of `history`, newest first, store: one call a round, from an empty list,
each reading governed values that pass governance's checks. -/
inductive Reaches : List (ZeroProduceCall ε) → List WaitSlashingNode → Prop
  | start : Reaches [] []
  | step {history : List (ZeroProduceCall ε)} {list : List WaitSlashingNode}
      (call : ZeroProduceCall ε) {w threshold : UInt16} {slashQueue : List SlashNodeItem}
      {list' : List WaitSlashingNode} :
      Reaches history list →
      (∀ last ∈ history.head?, call.reads.preRound = last.reads.preRound + 1) →
      call.Governed w threshold →
      zeroProduceProcess call.reads list call.validatorMap call.preRoundVal =
        .ok (slashQueue, list') →
      Reaches (call :: history) list'

theorem Reaches.nil_eq {list : List WaitSlashingNode} (reaches : Reaches ([] : List (ZeroProduceCall ε)) list) :
    list = [] := by
  cases reaches
  rfl

theorem Reaches.governed {last : ZeroProduceCall ε} {history : List (ZeroProduceCall ε)}
    {list : List WaitSlashingNode} (reaches : Reaches (last :: history) list) :
    ∃ w threshold, last.Governed w threshold := by
  cases reaches with
  | step _ _ _ governed _ => exact ⟨_, _, governed⟩

theorem ZeroProduceCall.Governed.window_eq {call : ZeroProduceCall ε} {w w' threshold threshold' : UInt16}
    (governed : call.Governed w threshold) (governed' : call.Governed w' threshold') : w = w' := by
  have same := governed.1.symm.trans governed'.1
  rwa [Except.ok.injEq] at same

theorem Reaches.rounds {history : List (ZeroProduceCall ε)} {list : List WaitSlashingNode}
    (reaches : Reaches history list) :
    ∀ j, ∀ call ∈ history[j]?, ∀ last ∈ history.head?,
      call.reads.preRound + UInt64.ofNat j = last.reads.preRound := by
  induction reaches with
  | start => simp
  | @step history list call w threshold slashQueue list' _ next _ _ ih =>
    intro j earlier earlier_mem last last_mem
    obtain rfl : last = call := by simpa using last_mem.symm
    cases j with
    | zero => simp_all
    | succ j =>
      cases history with
      | nil => simp at earlier_mem
      | cons previous rest =>
        rw [List.getElem?_cons_succ] at earlier_mem
        have back := ih j earlier earlier_mem previous rfl
        rw [next previous rfl, ← back, Nat.succ_eq_add_one, UInt64.ofNat_add]
        grind

/-- What a record kept after the calls of `history` says, `w` being the last call's window and
`preRound` its round: its window is one the list keeps; each round it marks is one in which its
node was a validator and produced nothing; and its node produced no block from its first round on. -/
structure Watched (history : List (ZeroProduceCall ε)) (w : ℕ) (preRound : UInt64)
    (node : WaitSlashingNode) : Prop where
  window : Window w preRound node
  marks : ∀ k, MarkedLag preRound node k → ∃ call ∈ history[k]?, call.ZeroIn node.nodeId
  idle : ∀ j ≤ lag preRound node, ∀ call ∈ history[j]?, ¬ call.ProducedIn node.nodeId

/-- A record kept by the last call, seen again one round on. -/
theorem Watched.moveWindow {last call : ZeroProduceCall ε} {history : List (ZeroProduceCall ε)}
    {w₀ : ℕ} {w : UInt16} {node node' : WaitSlashingNode}
    (watched : Watched (last :: history) w₀ last.reads.preRound node) (w₀_le : w₀ ≤ 50)
    (next : call.reads.preRound = last.reads.preRound + 1) (one_le : 1 ≤ w.toNat)
    (w_le : w.toNat ≤ 50)
    (reached : Reached call.reads call.reads.preRound w (call.validatorMap node.nodeId) node node') :
    Watched (call :: last :: history) w.toNat call.reads.preRound node' := by
  obtain ⟨entry, -, moved, nonzero⟩ := reached
  have lag_lt := watched.window.lag_lt
  have ahead : lag call.reads.preRound node = lag last.reads.preRound node + 1 := by
    rw [next]
    exact lag_add_one (by omega)
  have bits : node.countBit.toNat < 2 ^ lag call.reads.preRound node :=
    ahead ▸ watched.window.bits
  subst moved
  obtain ⟨same, marks, window, lag_le⟩ :=
    moveWindow_spec one_le (by omega) (by omega) bits watched.window.first nonzero
  refine ⟨window, fun k marked => ?_, fun j below earlier earlier_mem => ?_⟩
  · rw [same]
    rcases (marks k).mp marked with ⟨old, -⟩ | ⟨rfl, zero⟩
    · obtain ⟨k, rfl⟩ := Nat.exists_eq_succ_of_ne_zero
        fun zero => not_markedLag_zero bits (zero ▸ old)
      rw [next, markedLag_add_one (by omega)] at old
      exact watched.marks k old
    · exact ⟨call, rfl, validatorMap_eq_some_false.mp zero⟩
  · rw [same]
    cases j with
    | zero =>
      obtain rfl : earlier = call := by simpa using earlier_mem.symm
      exact fun produced => entry (validatorMap_eq_some_true.mpr produced)
    | succ j => exact watched.idle j (by omega) earlier earlier_mem

theorem watched_firstZero {call : ZeroProduceCall ε} {history : List (ZeroProduceCall ε)}
    {w : ℕ} {nodeId : NodeID} (zero : call.ZeroIn nodeId) (one_le : 1 ≤ w) :
    Watched (call :: history) w call.reads.preRound (firstZero call.reads.preRound nodeId) := by
  have fresh : lag call.reads.preRound (firstZero call.reads.preRound nodeId) = 0 := by
    simp [lag, firstZero]
  refine ⟨⟨by omega, by simp [firstZero], by simp [firstZero]⟩, fun k marked => ?_,
    fun j below earlier earlier_mem => ?_⟩
  · obtain rfl : k = 0 := by have := marked.1; omega
    exact ⟨call, rfl, zero⟩
  · obtain rfl : j = 0 := by omega
    obtain rfl : earlier = call := by simpa using earlier_mem.symm
    intro produced
    have positive : 0 < earlier.result nodeId := produced.2
    rw [zero.2] at positive
    exact absurd positive (lt_irrefl 0)

theorem Reaches.checks_watched {history : List (ZeroProduceCall ε)} {list : List WaitSlashingNode}
    (reaches : Reaches history list)
    (watched : ∀ last ∈ history.head?, ∀ w threshold, last.Governed w threshold →
      ∀ node ∈ list, Watched history w.toNat last.reads.preRound node)
    {call : ZeroProduceCall ε} {w threshold : UInt16}
    (next : ∀ last ∈ history.head?, call.reads.preRound = last.reads.preRound + 1)
    (governed : call.Governed w threshold) :
    ∀ node', call.Checks w list node' →
      Watched (call :: history) w.toNat call.reads.preRound node' := by
  have bounds := governed.bounds
  rintro node' (⟨node, mem, reached⟩ | ⟨zero, -, moved⟩)
  · cases history with
    | nil => simp [reaches.nil_eq] at mem
    | cons last rest =>
      obtain ⟨w₀, threshold₀, governed₀⟩ := reaches.governed
      exact (watched last rfl w₀ threshold₀ governed₀ node mem).moveWindow
        governed₀.bounds.2.2 (next last rfl) (by omega) bounds.2.2 reached
  · rw [moved]
    exact watched_firstZero zero (by omega)

theorem Reaches.watched {history : List (ZeroProduceCall ε)} {list : List WaitSlashingNode}
    (reaches : Reaches history list)
    (distinct : ∀ call ∈ history, (call.preRoundVal.map (·.nodeId)).Nodup) :
    (list.map (·.nodeId)).Nodup ∧
      ∀ last ∈ history.head?, ∀ w threshold, last.Governed w threshold →
        ∀ node ∈ list, Watched history w.toNat last.reads.preRound node := by
  induction reaches with
  | start => simp
  | step call reaches next governed ok ih =>
    obtain ⟨nodup, watched⟩ := ih fun call mem => distinct call (List.mem_cons_of_mem _ mem)
    have decided := zeroProduceProcess_decided governed nodup (distinct call List.mem_cons_self) ok
    refine ⟨decided.nodup, fun last last_mem w' threshold' governed' node' mem => ?_⟩
    obtain rfl : last = call := by simpa using last_mem.symm
    obtain rfl := governed.window_eq governed'
    exact reaches.checks_watched watched next governed node' (decided.stored node' mem).1

/-- The zero-production window over a run, one call a round, each round's validators being of
distinct nodes.  The stored records are of distinct nodes; each has bit 0 set, no bit at or past
the last window `w`, and a first round less than `w` rounds back; bit `i` is set only if the node
was a validator of round `round + i` and produced no block in it, and the node produced no block
in any round from its first on.  A next call slashes a record it sees, for a low ratio, exactly
when the node has a candidate record and the window is full (its first round `w - 1` rounds back,
with at least `threshold` marks), a validator first seen counting with round `preRound` and
count `1`; and a slashed node is not stored. -/
theorem zeroProduce_window {history : List (ZeroProduceCall ε)} {list : List WaitSlashingNode}
    (reaches : Reaches history list)
    (distinct : ∀ call ∈ history, (call.preRoundVal.map (·.nodeId)).Nodup) :
    (list.map (·.nodeId)).Nodup ∧
    (∀ last ∈ history.head?, ∀ w threshold, last.Governed w threshold → ∀ node ∈ list,
      node.countBit.toNat.testBit 0 ∧
      (∀ i, node.countBit.toNat.testBit i → i < w.toNat) ∧
      lag last.reads.preRound node < w.toNat ∧
      (∀ i, node.countBit.toNat.testBit i →
        ∃ call ∈ history[lag last.reads.preRound node - i]?,
          call.reads.preRound = node.round + UInt64.ofNat i ∧ call.ZeroIn node.nodeId) ∧
      ∀ j ≤ lag last.reads.preRound node, ∀ call ∈ history[j]?,
        call.reads.preRound + UInt64.ofNat j = last.reads.preRound ∧
          ¬ call.ProducedIn node.nodeId) ∧
    ∀ (call : ZeroProduceCall ε) (w threshold : UInt16) (slashQueue : List SlashNodeItem)
      (list' : List WaitSlashingNode),
      (∀ last ∈ history.head?, call.reads.preRound = last.reads.preRound + 1) →
      call.Governed w threshold → (call.preRoundVal.map (·.nodeId)).Nodup →
      zeroProduceProcess call.reads list call.validatorMap call.preRoundVal =
        .ok (slashQueue, list') →
      (∀ node', call.Checks w list node' →
        ((∃ item ∈ slashQueue, item.nodeId = node'.nodeId ∧ item.slashType = lowRatio) ↔
          HasRecord call.reads node'.nodeId ∧
            Full w.toNat threshold.toNat call.reads.preRound node') ∧
        (HasRecord call.reads node'.nodeId ∧
            Full w.toNat threshold.toNat call.reads.preRound node' →
          node'.nodeId ∉ list'.map (·.nodeId))) ∧
      ∀ item ∈ slashQueue, ∃ node', call.Checks w list node' ∧ item.nodeId = node'.nodeId ∧
        item.slashType = lowRatio := by
  obtain ⟨nodup, watched⟩ := reaches.watched distinct
  refine ⟨nodup, fun last last_mem w threshold governed node mem => ?_,
    fun call w threshold slashQueue list' next governed queue ok => ?_⟩
  · obtain ⟨window, marks, idle⟩ := watched last last_mem w threshold governed node mem
    refine ⟨window.first, fun i set => lt_of_le_of_lt (window.le_lag set) window.lag_lt,
      window.lag_lt, fun i set => ?_, fun j below call call_mem =>
        ⟨reaches.rounds j call call_mem last last_mem, idle j below call call_mem⟩⟩
    have le := window.le_lag set
    obtain ⟨call, call_mem, zero⟩ := marks (lag last.reads.preRound node - i)
      ⟨by omega, by rwa [Nat.sub_sub_self le]⟩
    refine ⟨call, call_mem, ?_, zero⟩
    have back := reaches.rounds _ call call_mem last last_mem
    have first : node.round + UInt64.ofNat (lag last.reads.preRound node) = last.reads.preRound := by
      rw [lag, UInt64.ofNat_toNat]
      grind
    rw [← Nat.sub_add_cancel le, UInt64.ofNat_add] at first
    grind
  · have decided := zeroProduceProcess_decided governed nodup queue ok
    exact decided.emits nodup (by have := governed.bounds; omega)
      fun node' checks => (reaches.checks_watched watched next governed node' checks).window

/-- A first call, in round 1 with a window of 2 rounds and a threshold of 1: the one validator of
the previous round produced nothing, and no node has a candidate record. -/
def idleRound : ZeroProduceCall Unit where
  reads :=
    { preRound := 1
      zeroProduceNumberThreshold := .ok 1
      zeroProduceCumulativeTime := .ok 2
      packAmount := fun _ => .ok 0
      canTotalBalance := fun _ => .ok none
      slashBlocksReward := .ok 0
      calcSlashBlockRewards := fun _ => .ok 0 }
  preRoundVal := [default]
  result := fun _ => 0

/-- A call in round `preRound` with a window of 3 rounds and a threshold of 2, in which every node
has a candidate record and the validators of the previous round produced nothing. -/
def watchRound (preRound : UInt64) (validators : List Validator) : ZeroProduceCall Unit where
  reads :=
    { preRound
      zeroProduceNumberThreshold := .ok 2
      zeroProduceCumulativeTime := .ok 3
      packAmount := fun _ => .ok 0
      canTotalBalance := fun _ => .ok (some 100)
      slashBlocksReward := .ok 0
      calcSlashBlockRewards := fun _ => .ok 0 }
  preRoundVal := validators
  result := fun _ => 0

/-- A node produces nothing in round 1, is no validator in round 2 and produces nothing again in
round 3: its record of round 1 is kept through round 2, and in round 3 its window of three rounds
is full with two marks, so it is slashed for a low block ratio and leaves the list. -/
theorem zeroProduce_window_three_rounds :
    ∃ list slashQueue list',
      Reaches [watchRound 2 [], watchRound 1 [default]] list ∧
      list = [firstZero 1 (default : Validator).nodeId] ∧
      zeroProduceProcess (watchRound 3 [default]).reads list (watchRound 3 [default]).validatorMap
        (watchRound 3 [default]).preRoundVal = .ok (slashQueue, list') ∧
      slashQueue.map (·.slashType) = [lowRatio] ∧ list' = [] ∧
      (list.map (·.nodeId)).Nodup ∧
      ∀ item ∈ slashQueue, ∃ node', (watchRound 3 [default]).Checks 3 list node' ∧
        item.nodeId = node'.nodeId ∧ item.slashType = lowRatio := by
  obtain ⟨list, slashQueue, list', reaches, stored, processed, slashed, emptied⟩ :
      ∃ list slashQueue list',
        Reaches [watchRound 2 [], watchRound 1 [default]] list ∧
        list = [firstZero 1 (default : Validator).nodeId] ∧
        zeroProduceProcess (watchRound 3 [default]).reads list
          (watchRound 3 [default]).validatorMap (watchRound 3 [default]).preRoundVal =
          .ok (slashQueue, list') ∧
        slashQueue.map (·.slashType) = [lowRatio] ∧ list' = [] :=
    ⟨_, _, _,
      .step (watchRound 2 [])
        (.step (watchRound 1 [default]) .start (by simp) ⟨rfl, rfl, by decide, by decide⟩ rfl)
        (by simp [watchRound]) ⟨rfl, rfl, by decide, by decide⟩ rfl,
      rfl, rfl, rfl, rfl⟩
  have window := zeroProduce_window reaches (by simp [watchRound])
  have emitted := (window.2.2 (watchRound 3 [default]) 3 2 slashQueue list' (by simp [watchRound])
    ⟨rfl, rfl, by decide, by decide⟩ (by simp [watchRound]) processed).2
  exact ⟨list, slashQueue, list', reaches, stored, processed, slashed, emptied, window.1, emitted⟩

/-- The same round with its one validator listed twice. -/
def twiceListed : ZeroProduceCall Unit := { idleRound with preRoundVal := [default, default] }

/-- A validator list that names a node twice has the first call store two records of it. -/
theorem zeroProduce_twiceListed :
    Reaches [twiceListed]
        [firstZero 1 (default : Validator).nodeId, firstZero 1 (default : Validator).nodeId] ∧
      ¬ ([firstZero 1 (default : Validator).nodeId,
        firstZero 1 (default : Validator).nodeId].map (·.nodeId)).Nodup :=
  ⟨.step twiceListed .start (by simp) ⟨rfl, rfl, by decide, by decide⟩ rfl, by simp⟩

end Slashing
end Bubble
