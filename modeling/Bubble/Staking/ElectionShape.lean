import Bubble.Staking.Election

/-!
# The next round against a specification of the election

`Election` builds the removal set from three maps filled by two loops, counts it into
`invalidLen` and cuts that many validators from the front of the sorted queue.  This module states
without loops what the election does on a store that answers and on distinct node ids: the
validators to remove (`removalSet`), those that stay (`retained`) and those the VRF draws from
(`drawPool`), and shows that the loops compute them.  `election_next` then says that the next
round is `shuffleQueue` of the staying validators and the winners, and `election_shape` reads its
shape off `shuffleQueue_eq_ok`.
-/

namespace Bubble
namespace Staking

open Traverse

variable {ε : Type}

/-- On success, `Election` is its two loops, the draw and `shuffle`, with the removal set and
`invalidLen` as the loop over `withdrewQueue` leaves them. -/
theorem election_eq_ok {cfg : ElectionConfig} {input : ElectionInput ε} {store : CandidateStore ε}
    {draw : VrfDraw ε} {out : ElectionOutput} {verifiers : List Validator} {curr : ValidatorArray}
    (elected : election cfg input store draw = .ok out)
    (epoch : input.verifiers = some verifiers) (round : input.curr = some curr) :
    ∃ (first second : ElectionScan) (vrfQueue : List Validator),
      collectCurrent store (calcVersion input.originVersion) curr.arr ElectionScan.empty = .ok first ∧
      scanVerifiers store (calcVersion input.originVersion) verifiers first = .ok second ∧
      (if min second.diffQueue.length cfg.maxConsensusVals ≠ 0 then
        vrfElection draw input.preNonces second.diffQueue
          (min second.diffQueue.length cfg.maxConsensusVals) input.nonce
        else .ok []) = .ok vrfQueue ∧
      shuffle cfg input.preNonces
        (second.withdrewQueue.foldl (fun (m : NeedRemoveCans) n =>
          if (second.withdrewCans n).isSome then Function.update m n (second.withdrewCans n) else m)
          second.removeCans)
        second.currMap
        ((second.withdrewQueue.filter fun n => (second.withdrewCans n).isSome).foldl
          (fun invalidCan n => invalidCan.insert n) second.invalidCan).length
        second.currqueen vrfQueue = .ok out.next.arr := by
  unfold election at elected
  rw [epoch, round] at elected
  dsimp only at elected
  by_cases disordered : input.blockNumber ≠ curr.«end» - cfg.electionDistance
  · rw [if_pos disordered] at elected
    cases elected
  rw [if_neg disordered] at elected
  by_cases empty : verifiers.isEmpty = true
  · rw [if_pos empty] at elected
    cases elected
  rw [if_neg empty] at elected
  by_cases inactive : input.currentVersion = 0
  · rw [if_pos inactive] at elected
    cases elected
  rw [if_neg inactive] at elected
  obtain ⟨first, collected, elected⟩ := Rollback.bind_eq_ok.mp elected
  obtain ⟨second, scanned, elected⟩ := Rollback.bind_eq_ok.mp elected
  obtain ⟨swept, sweptOk, elected⟩ := Rollback.bind_eq_ok.mp elected
  rw [Rollback.mapError_eq_ok] at collected scanned sweptOk
  rw [sweepLoop_keepWithdrew] at sweptOk
  cases sweptOk
  refine ⟨first, second, ?_⟩
  split at elected <;> rename_i drawing
  all_goals
    obtain ⟨vrfQueue, drawn, elected⟩ := Rollback.bind_eq_ok.mp elected
    obtain ⟨nextQueue, shuffled, elected⟩ := Rollback.bind_eq_ok.mp elected
    split at elected
    · cases elected
    · cases elected
      refine ⟨vrfQueue, collected, scanned, ?_, shuffled⟩
      first
        | rw [if_pos drawing]
          exact drawn
        | rw [if_neg drawing]
          exact drawn

/-! ## What the loops compute -/

/-- A record whose validator of the current round is to be removed: slashed, below the version,
or withdrawn while not a validator of the epoch. -/
def removes (currVersion : UInt32) (epoch : List NodeID) (can : CandidateInfo) : Bool :=
  slashedOrLow currVersion can || (can.status.isInvalidWithdrew && decide (can.nodeId ∉ epoch))

/-- The validators to remove, by node, with the status of their record. -/
def removalSet (store : CandidateStore ε) (currVersion : UInt32) (verifiers curr : List Validator) :
    NeedRemoveCans := fun n =>
  if n ∈ curr.map (·.nodeId) ∧
      (store.found n).any (removes currVersion (verifiers.map (·.nodeId))) = true
  then (store.found n).map (·.status) else none

/-- The shares the epoch gives a validator of the round: its own when the epoch does not list it. -/
def epochShares (verifiers : List Validator) (v : Validator) : ℤ :=
  ((verifiers.find? fun w => w.nodeId = v.nodeId).map (·.shares)).getD v.shares

/-- The validators of the round that stay, renewed, in the order `ValidatorSort` gives them. -/
def retained (store : CandidateStore ε) (currVersion : UInt32) (verifiers curr : List Validator) :
    List Validator :=
  (validatorSort (removalSet store currVersion verifiers curr) (some compareForDel)
    ((curr.filter fun v => (store.found v.nodeId).isSome).map fun v =>
      { v with validatorTerm := v.validatorTerm + 1, shares := epochShares verifiers v }).toArray).toList.filter
    fun v => (removalSet store currVersion verifiers curr v.nodeId).isNone

/-- The validators the VRF draws from: those of the epoch outside the round, with a record that is
neither slashed nor below the version. -/
def drawPool (store : CandidateStore ε) (currVersion : UInt32) (verifiers curr : List Validator) :
    List Validator :=
  verifiers.filter fun w => decide (w.nodeId ∉ curr.map (·.nodeId)) &&
    (store.found w.nodeId).any fun can => !slashedOrLow currVersion can

/-- The winners of the draw on a pool. -/
def winners (cfg : ElectionConfig) (draw : VrfDraw ε) (input : ElectionInput ε)
    (pool : List Validator) : Except (ElectionError ε) (List Validator) :=
  if min pool.length cfg.maxConsensusVals ≠ 0 then
    vrfElection draw input.preNonces pool (min pool.length cfg.maxConsensusVals) input.nonce
  else .ok []

/-- The scan both loops of `Election` leave on a store that answers. -/
def walked (store : CandidateStore ε) (currVersion : UInt32) (verifiers curr : List Validator) :
    ElectionScan :=
  verifiers.foldl (ElectionScan.scanFound store currVersion)
    (curr.foldl (ElectionScan.collectFound store currVersion) ElectionScan.empty)

section Walked

variable {store : CandidateStore ε} {currVersion : UInt32} {verifiers curr : List Validator}

theorem firstWalk_currMap (distinct : (curr.map (·.nodeId)).Nodup) (n : NodeID) :
    ((curr.foldl (ElectionScan.collectFound store currVersion) ElectionScan.empty).currMap n).isSome =
      decide (n ∈ curr.map (·.nodeId) ∧ (store.found n).isSome) := by
  rw [collectFound_currMap distinct]
  cases found : curr.find? (fun v => v.nodeId = n ∧ (store.found v.nodeId).isSome) with
  | none =>
      rw [List.find?_eq_none] at found
      simp only [Option.map_none, Option.getD_none, ElectionScan.empty, Option.isSome_none]
      symm
      simp only [decide_eq_false_iff_not, not_and, List.mem_map]
      rintro ⟨v, member, rfl⟩
      simpa using found v member
  | some v =>
      have holds := List.find?_some found
      simp only [decide_eq_true_eq] at holds
      simp only [Option.map_some, Option.getD_some, Option.isSome_some]
      symm
      rw [decide_eq_true_eq, ← holds.1]
      exact ⟨List.mem_map_of_mem (List.mem_of_find?_eq_some found), holds.2⟩

theorem walked_diffQueue (distinct : (curr.map (·.nodeId)).Nodup) :
    (walked store currVersion verifiers curr).diffQueue = drawPool store currVersion verifiers curr := by
  rw [walked, scanFound_diffQueue, collectFound_diffQueue,
    show ElectionScan.empty.diffQueue = [] from rfl, List.nil_append, drawPool]
  refine List.filter_congr fun w _ => ?_
  cases found : store.found w.nodeId with
  | none => simp
  | some can =>
      rw [← Option.not_isSome, firstWalk_currMap distinct]
      simp only [found, Option.isSome_some, and_true, ← decide_not]

theorem walked_currqueen :
    (walked store currVersion verifiers curr).currqueen =
      curr.filter fun v => (store.found v.nodeId).isSome := by
  rw [walked, (scanFound_keeps verifiers _).2.2.2, collectFound_currqueen]
  rfl

theorem walked_renew (distinct : (curr.map (·.nodeId)).Nodup)
    (epochDistinct : (verifiers.map (·.nodeId)).Nodup) {v : Validator}
    (member : v ∈ curr.filter fun v => (store.found v.nodeId).isSome) :
    renew (walked store currVersion verifiers curr).currMap v =
      { v with validatorTerm := v.validatorTerm + 1, shares := epochShares verifiers v } := by
  rw [List.mem_filter] at member
  have own : (curr.foldl (ElectionScan.collectFound store currVersion) ElectionScan.empty).currMap
      v.nodeId = some v.shares := by
    rw [collectFound_currMap distinct, find?_key_eq distinct member.1 member.2]
    rfl
  rw [renew, walked, scanFound_currMap epochDistinct, own, epochShares]
  cases verifiers.find? (fun w => w.nodeId = v.nodeId) <;> rfl

theorem walked_maps (n : NodeID) :
    let scan := walked store currVersion verifiers curr
    scan.removeCans n = (if n ∈ curr.map (·.nodeId) ∧ (store.found n).any (slashedOrLow currVersion)
        then (store.found n).map (·.status) else none) ∧
      scan.withdrewCans n = (if n ∈ verifiers.map (·.nodeId) then none
        else if n ∈ curr.map (·.nodeId) ∧ (store.found n).any withdrewOnly
        then (store.found n).map (·.status) else none) ∧
      scan.withdrewQueue = (curr.filter fun v => (store.found v.nodeId).any withdrewOnly).map (·.nodeId) := by
  refine ⟨?_, ?_, ?_⟩
  · rw [walked, (scanFound_keeps verifiers _).1, collectFound_removeCans]
    rfl
  · rw [walked, scanFound_withdrewCans, collectFound_withdrewCans]
    rfl
  · rw [walked, (scanFound_keeps verifiers _).2.2.1, collectFound_withdrewQueue]
    rfl

theorem walked_removeCans :
    (walked store currVersion verifiers curr).withdrewQueue.foldl (fun (m : NeedRemoveCans) n =>
        if ((walked store currVersion verifiers curr).withdrewCans n).isSome
        then Function.update m n ((walked store currVersion verifiers curr).withdrewCans n) else m)
      (walked store currVersion verifiers curr).removeCans =
      removalSet store currVersion verifiers curr := by
  funext n
  have fold := foldl_update_apply (fun n : NodeID => n)
    (fun n => ((walked store currVersion verifiers curr).withdrewCans n).isSome)
    (walked store currVersion verifiers curr).withdrewCans
    (walked store currVersion verifiers curr).withdrewQueue
    (walked store currVersion verifiers curr).removeCans n
  simp only [List.map_id'] at fold
  obtain ⟨removed, withdrew, queue⟩ := @walked_maps _ store currVersion verifiers curr n
  refine fold.trans ?_
  simp only [queue, @mem_map_filter_key _ _ (fun v : Validator => v.nodeId)
    (fun n => (store.found n).any withdrewOnly) curr n, withdrew, removed, removalSet]
  cases found : store.found n with
  | none => simp
  | some can =>
      have own := CandidateStore.found_nodeId found
      simp only [Option.any_some, Option.map_some, removes, withdrewOnly, slashedOrLow, own]
      by_cases inCurr : n ∈ curr.map (·.nodeId) <;> by_cases inEpoch : n ∈ verifiers.map (·.nodeId) <;>
        simp [inCurr, inEpoch]
      by_cases withdrawn : can.status.isInvalidWithdrew <;>
        by_cases slashed : checkHaveSlash can.status <;> simp [withdrawn, slashed]

/-- A node is in the removal set exactly when it is in `invalidCan` after the loop over
`withdrewQueue`. -/
theorem walked_invalidCan :
    let scan := walked store currVersion verifiers curr
    let invalidCan := (scan.withdrewQueue.filter fun n => (scan.withdrewCans n).isSome).foldl
      (fun invalidCan n => invalidCan.insert n) scan.invalidCan
    invalidCan.Nodup ∧
      ∀ n, n ∈ invalidCan ↔ (removalSet store currVersion verifiers curr n).isSome := by
  intro scan invalidCan
  obtain ⟨firstNodup, firstMem⟩ :=
    @collectFound_invalidCan _ store currVersion curr ElectionScan.empty List.nodup_nil
  have kept : scan.invalidCan =
      (curr.foldl (ElectionScan.collectFound store currVersion) ElectionScan.empty).invalidCan :=
    (scanFound_keeps verifiers _).2.1
  have added := foldl_insert (fun n : NodeID => n) (fun _ => true)
    (scan.withdrewQueue.filter fun n => (scan.withdrewCans n).isSome) (kept ▸ firstNodup)
  simp only [if_true] at added
  refine ⟨added.1, fun n => ?_⟩
  rw [added.2, kept, firstMem, ← walked_removeCans]
  obtain ⟨removed, -, -⟩ := @walked_maps _ store currVersion verifiers curr n
  have fold := foldl_update_apply (fun n : NodeID => n)
    (fun n => (scan.withdrewCans n).isSome) scan.withdrewCans scan.withdrewQueue scan.removeCans n
  simp only [List.map_id'] at fold
  rw [show (scan.withdrewQueue.foldl (fun (m : NeedRemoveCans) n =>
      if (scan.withdrewCans n).isSome then Function.update m n (scan.withdrewCans n) else m)
      scan.removeCans) n = _ from fold, removed]
  by_cases withdrawn : n ∈ scan.withdrewQueue ∧ (scan.withdrewCans n).isSome
  · simp [withdrawn, List.mem_filter]
  · have notAdded : ¬∃ a ∈ scan.withdrewQueue.filter (fun n => (scan.withdrewCans n).isSome),
        True ∧ a = n := by
      rintro ⟨a, member, -, rfl⟩
      exact withdrawn (by simpa using List.mem_filter.mp member)
    simp only [withdrawn, if_false, notAdded, or_false,
      show ElectionScan.empty.invalidCan = [] from rfl, List.not_mem_nil, false_or]
    cases store.found n <;> simp

theorem removalSet_isSome {n : NodeID} :
    (removalSet store currVersion verifiers curr n).isSome ↔
      n ∈ curr.map (·.nodeId) ∧
        (store.found n).any (removes currVersion (verifiers.map (·.nodeId))) = true := by
  unfold removalSet
  split_ifs with removed
  · cases found : store.found n with
    | none => simp [found] at removed
    | some can => simpa [found] using removed
  · simpa using removed

/-- `invalidLen` counts the validators of the queue that are to be removed. -/
theorem walked_invalidLen (distinct : (curr.map (·.nodeId)).Nodup) :
    let scan := walked store currVersion verifiers curr
    ((scan.withdrewQueue.filter fun n => (scan.withdrewCans n).isSome).foldl
      (fun invalidCan n => invalidCan.insert n) scan.invalidCan).length =
        scan.currqueen.countP fun v => (removalSet store currVersion verifiers curr v.nodeId).isSome := by
  intro scan
  obtain ⟨nodup, mem⟩ := @walked_invalidCan _ store currVersion verifiers curr
  rw [walked_currqueen, List.countP_eq_length_filter, List.filter_filter,
    ← List.length_map (f := fun v : Validator => v.nodeId)]
  have listed : ((curr.filter fun v => (removalSet store currVersion verifiers curr v.nodeId).isSome &&
      (store.found v.nodeId).isSome).map (·.nodeId)).Nodup :=
    (List.filter_sublist.map _).nodup distinct
  refine ((List.perm_ext_iff_of_nodup nodup listed).mpr fun n => ?_).length_eq
  rw [mem, @mem_map_filter_key _ _ (fun v : Validator => v.nodeId)
    (fun n => (removalSet store currVersion verifiers curr n).isSome && (store.found n).isSome) curr n]
  constructor
  · intro removed
    obtain ⟨member, any⟩ := removalSet_isSome.mp removed
    refine ⟨member, ?_⟩
    cases found : store.found n with
    | none => simp [found] at any
    | some can => simp [removed]
  · rintro ⟨-, both⟩
    simp only [Bool.and_eq_true] at both
    exact both.1

end Walked

section Shape

variable {store : CandidateStore ε} {currVersion : UInt32} {verifiers curr : List Validator}

theorem retained_subperm :
    ((retained store currVersion verifiers curr).map (·.nodeId)).Subperm (curr.map (·.nodeId)) := by
  let renewed := (curr.filter fun v => (store.found v.nodeId).isSome).map fun v : Validator =>
    { v with validatorTerm := v.validatorTerm + 1, shares := epochShares verifiers v }
  have sorted := (validatorSort_spec (compareForDel_totalPreorder
    (removalSet store currVersion verifiers curr)) renewed.toArray).1.toList
  have ids : renewed.map (·.nodeId) = (curr.filter fun v => (store.found v.nodeId).isSome).map (·.nodeId) := by
    rw [List.map_map]
    rfl
  have kept : ((retained store currVersion verifiers curr).map (·.nodeId)).Subperm
      (renewed.toArray.toList.map (·.nodeId)) :=
    (List.filter_sublist.map _).subperm.trans (sorted.map _).subperm
  rw [List.toList_toArray, ids] at kept
  exact kept.trans (List.filter_sublist.map _).subperm

theorem retained_kept {v : Validator} (member : v ∈ retained store currVersion verifiers curr) :
    removalSet store currVersion verifiers curr v.nodeId = none := by
  simpa using (List.mem_filter.mp member).2

theorem drawPool_outside {w : Validator} (member : w ∈ drawPool store currVersion verifiers curr) :
    w.nodeId ∉ curr.map (·.nodeId) := by
  simpa using ((List.mem_filter.mp member).2 |> Bool.and_eq_true_iff.mp).1

theorem removalSet_outside {n : NodeID} (outside : n ∉ curr.map (·.nodeId)) :
    removalSet store currVersion verifiers curr n = none := by
  simp [removalSet, outside]

theorem winners_eq_ok {cfg : ElectionConfig} {draw : VrfDraw ε} {input : ElectionInput ε}
    {pool V : List Validator} (drawn : winners cfg draw input pool = .ok V) :
    ∃ order : List Validator, order.Perm pool ∧ V = order.take (min pool.length cfg.maxConsensusVals) := by
  unfold winners at drawn
  split_ifs at drawn with some
  · exact vrfElection_eq_ok drawn (min_le_left _ _)
  · cases drawn
    rw [not_not] at some
    exact ⟨pool, .refl pool, by rw [some, List.take_zero]⟩

end Shape

theorem election_next {cfg : ElectionConfig} {input : ElectionInput ε} {store : CandidateStore ε}
    {draw : VrfDraw ε} {out : ElectionOutput} {verifiers : List Validator} {curr : ValidatorArray}
    (elected : election cfg input store draw = .ok out)
    (epoch : input.verifiers = some verifiers) (round : input.curr = some curr)
    (distinct : (curr.arr.map (·.nodeId)).Nodup) (epochDistinct : (verifiers.map (·.nodeId)).Nodup) :
    ∃ V, winners cfg draw input (drawPool store (calcVersion input.originVersion) verifiers curr.arr) = .ok V ∧
      shuffleQueue cfg input.preNonces (retained store (calcVersion input.originVersion) verifiers curr.arr) V =
        .ok out.next.arr := by
  obtain ⟨first, second, vrfQueue, collected, scanned, drawn, shuffled⟩ := election_eq_ok elected epoch round
  have walks : second = walked store (calcVersion input.originVersion) verifiers curr.arr := by
    rw [scanVerifiers_eq_ok scanned, collectCurrent_eq_ok collected]
    rfl
  subst walks
  refine ⟨vrfQueue, by rwa [winners, ← walked_diffQueue distinct], ?_⟩
  rw [walked_removeCans] at shuffled
  have handed := shuffle_eq_ok shuffled (walked_invalidLen distinct)
  rw [walked_currqueen, List.map_congr_left fun v member => walked_renew distinct epochDistinct member]
    at handed
  exact handed

/-- On distinct node ids, a round of at most `MaxConsensusVals` validators and
`ShiftValidatorNum ≤ MaxConsensusVals`, the next round of a successful `Election` is an order of
the last `k` staying validators and the first winners that fit; its node ids are distinct, none
is to be removed, it has at most `MaxConsensusVals` members and displaces at most
`ShiftValidatorNum` staying validators. -/
theorem election_shape {cfg : ElectionConfig} {input : ElectionInput ε} {store : CandidateStore ε}
    {draw : VrfDraw ε} {out : ElectionOutput} {verifiers : List Validator} {curr : ValidatorArray}
    (elected : election cfg input store draw = .ok out)
    (epoch : input.verifiers = some verifiers) (round : input.curr = some curr)
    (distinct : (curr.arr.map (·.nodeId)).Nodup) (epochDistinct : (verifiers.map (·.nodeId)).Nodup)
    (bounded : curr.arr.length ≤ cfg.maxConsensusVals)
    (shift : cfg.shiftValidatorNum ≤ cfg.maxConsensusVals) :
    let currVersion := calcVersion input.originVersion
    let R := retained store currVersion verifiers curr.arr
    let pool := drawPool store currVersion verifiers curr.arr
    ∃ V order : List Validator, winners cfg draw input pool = .ok V ∧
      order.Perm pool ∧ V = order.take (min pool.length cfg.maxConsensusVals) ∧
      out.next.arr.Perm (R.drop (R.length - keptCount cfg R.length V.length) ++
        V.take (min V.length (cfg.maxConsensusVals - keptCount cfg R.length V.length))) ∧
      (out.next.arr.map (·.nodeId)).Nodup ∧
      (∀ v ∈ out.next.arr, removalSet store currVersion verifiers curr.arr v.nodeId = none) ∧
      out.next.arr.length ≤ cfg.maxConsensusVals ∧
      (R.filter fun v => v.nodeId ∉ out.next.arr.map (·.nodeId)).length ≤ cfg.shiftValidatorNum := by
  intro currVersion R pool
  obtain ⟨V, drawn, shuffled⟩ := election_next elected epoch round distinct epochDistinct
  obtain ⟨order, ordered, taken⟩ := winners_eq_ok drawn
  have next := shuffleQueue_eq_ok shuffled shift
  refine ⟨V, order, drawn, ordered, taken, next, ?_⟩
  generalize kept : keptCount cfg R.length V.length = k at next
  have value : k = min R.length
      (max (cfg.maxConsensusVals - cfg.shiftValidatorNum) (cfg.maxConsensusVals - V.length)) := by
    rw [← kept, keptCount]
  have retainedIds := @retained_subperm _ store currVersion verifiers curr.arr
  have fewer : R.length ≤ cfg.maxConsensusVals := by
    have shorter := retainedIds.length_le
    simp only [List.length_map] at shorter
    exact shorter.trans bounded
  have retainedNodup : (R.map (·.nodeId)).Nodup := by
    obtain ⟨ids, reordered, sub⟩ := retainedIds
    exact reordered.nodup_iff.mp (sub.nodup distinct)
  have inside : ∀ v ∈ R.drop (R.length - k), v.nodeId ∈ curr.arr.map (·.nodeId) := fun v member =>
    retainedIds.subset (List.mem_map_of_mem (List.mem_of_mem_drop member))
  have winnerIds : (V.map (·.nodeId)).Subperm (verifiers.map (·.nodeId)) := by
    rw [taken]
    exact ((List.take_sublist _ _).map _).subperm.trans
      ((ordered.map _).subperm.trans (List.filter_sublist.map _).subperm)
  have winnersNodup : (V.map (·.nodeId)).Nodup := by
    obtain ⟨ids, reordered, sub⟩ := winnerIds
    exact reordered.nodup_iff.mp (sub.nodup epochDistinct)
  have outside : ∀ v ∈ V.take (min V.length (cfg.maxConsensusVals - k)),
      v.nodeId ∉ curr.arr.map (·.nodeId) := by
    intro v member
    rw [taken] at member
    exact drawPool_outside (ordered.subset (List.mem_of_mem_take (List.mem_of_mem_take member)))
  have nodup : (out.next.arr.map (·.nodeId)).Nodup := by
    rw [(next.map _).nodup_iff, List.map_append, List.nodup_append]
    refine ⟨((List.drop_sublist _ _).map _).nodup retainedNodup,
      ((List.take_sublist _ _).map _).nodup winnersNodup, ?_⟩
    simp only [List.mem_map]
    rintro _ ⟨a, kept, rfl⟩ _ ⟨b, won, rfl⟩ same
    exact outside b won (same ▸ inside a kept)
  refine ⟨nodup, fun v member => ?_, ?_, ?_⟩
  · rcases List.mem_append.mp (next.subset member) with kept | won
    · exact retained_kept (List.mem_of_mem_drop kept)
    · exact removalSet_outside (outside v won)
  · rw [next.length_eq, List.length_append, List.length_drop, List.length_take]
    omega
  · have displaced : (R.drop (R.length - k)).filter
        (fun v => v.nodeId ∉ out.next.arr.map (·.nodeId)) = [] := by
      refine List.filter_eq_nil_iff.mpr fun v member => ?_
      simpa using List.mem_map_of_mem (next.symm.subset (List.mem_append_left _ member))
    rw [← List.take_append_drop (R.length - k) R, List.filter_append, displaced, List.append_nil]
    have cut := List.length_filter_le (fun v => decide (v.nodeId ∉ out.next.arr.map (·.nodeId)))
      (R.take (R.length - k))
    rw [List.length_take] at cut
    omega

/-! ## Rounds of two validators -/

/-- Node `k`, for `k` below `64`. -/
def electionNode (k : ℕ) : NodeID :=
  BitVec.ofFin ⟨k % 2 ^ 6, Nat.lt_of_lt_of_le (Nat.mod_lt k (by decide))
    (Nat.pow_le_pow_right (by decide) (by decide : 6 ≤ 512))⟩

/-- The validator of node `k`, with ten shares. -/
def electionValidator (k : ℕ) : Validator :=
  ⟨0, 0, 0, 0, BitVec.ofNat 160 k, electionNode k, 10⟩

/-- A store that holds the given records. -/
def storeOf (records : List CandidateInfo) : CandidateStore Unit where
  getCandidateStore n := .ok (records.find? (·.nodeId = n))
  nodeId_eq {n can} read := by
    have found := List.find?_some (Except.ok.inj read)
    simpa using found

/-- Clean records for nodes 2 to 6, and a record of node 1 slashed for a duplicate signature. -/
def roundStore : CandidateStore Unit :=
  storeOf (⟨electionNode 1, 0, invalided ||| duplicateSign⟩ ::
    (List.range' 2 5).map fun k => ⟨electionNode k, 0, 0⟩)

/-- A draw that keeps the order of the nodes and gives each the same value. -/
def identityDraw : VrfDraw Unit :=
  ⟨id, fun _ _ => Equiv.refl _, fun _ _ => .ok (), fun _ _ _ => .ok 0⟩

/-- The election at block 8 of the round of the nodes `curr` ending at block 10, in the epoch of
the nodes `verifiers`. -/
def roundInput (curr verifiers : List ℕ) : ElectionInput Unit :=
  ⟨8, [1], some (verifiers.map electionValidator), some ⟨1, 10, curr.map electionValidator⟩, 0, 1,
    .ok (List.replicate 5 (List.replicate 20 0))⟩

/-- Rounds of ten blocks with two validators, one of which may change at a time. -/
def pairConfig : ElectionConfig := ⟨2, 10, 2, 1⟩

theorem exists_ok_of_check {α ε : Type} {e : Except ε α} {p : α → Bool}
    (check : (match e with | .ok a => p a | .error _ => false) = true) :
    ∃ a, e = .ok a ∧ p a = true := by
  cases e with
  | error _ => cases check
  | ok a => exact ⟨a, rfl, check⟩

/-- Two rounds of two validators.  In the round of nodes 1 and 2 in an epoch of nodes 2 and 4,
node 1 is slashed and removed, and the draw puts node 4 in its place.  In the round of nodes 2 and
3 in an epoch of nodes 2 to 4, no one is removed, the draw picks node 4, and node 2 gives way to
it. -/
theorem election_shape_two_rounds :
    (∃ out, election pairConfig (roundInput [1, 2] [2, 4]) roundStore identityDraw = .ok out ∧
      out.next.arr.map (·.nodeId) = [electionNode 2, electionNode 4] ∧
      (removalSet roundStore (calcVersion 0) ([2, 4].map electionValidator)
        ([1, 2].map electionValidator) (electionNode 1)).isSome ∧
      (out.next.arr.map (·.nodeId)).Nodup ∧
      (∀ v ∈ out.next.arr, removalSet roundStore (calcVersion 0) ([2, 4].map electionValidator)
        ([1, 2].map electionValidator) v.nodeId = none) ∧
      out.next.arr.length ≤ 2) ∧
    ∃ out, election pairConfig (roundInput [2, 3] [2, 3, 4]) roundStore identityDraw = .ok out ∧
      out.next.arr.map (·.nodeId) = [electionNode 3, electionNode 4] ∧
      electionNode 2 ∈ (retained roundStore (calcVersion 0) ([2, 3, 4].map electionValidator)
        ([2, 3].map electionValidator)).map (·.nodeId) ∧
      (out.next.arr.map (·.nodeId)).Nodup ∧
      out.next.arr.length ≤ 2 ∧
      ((retained roundStore (calcVersion 0) ([2, 3, 4].map electionValidator)
        ([2, 3].map electionValidator)).filter
          fun v => v.nodeId ∉ out.next.arr.map (·.nodeId)).length ≤ 1 := by
  obtain ⟨first, elected, ids⟩ := exists_ok_of_check
    (e := election pairConfig (roundInput [1, 2] [2, 4]) roundStore identityDraw)
    (p := fun out => decide (out.next.arr.map (·.nodeId) = [electionNode 2, electionNode 4]))
    (by decide +kernel)
  obtain ⟨second, elected', ids'⟩ := exists_ok_of_check
    (e := election pairConfig (roundInput [2, 3] [2, 3, 4]) roundStore identityDraw)
    (p := fun out => decide (out.next.arr.map (·.nodeId) = [electionNode 3, electionNode 4]))
    (by decide +kernel)
  obtain ⟨-, -, -, -, -, -, nodup, kept, fewer, -⟩ :=
    election_shape elected rfl rfl (by decide) (by decide) (by decide) (by decide)
  obtain ⟨-, -, -, -, -, -, nodup', -, fewer', displaced'⟩ :=
    election_shape elected' rfl rfl (by decide) (by decide) (by decide) (by decide)
  exact ⟨⟨first, elected, of_decide_eq_true ids, by decide +kernel, nodup, kept, fewer⟩,
    second, elected', of_decide_eq_true ids', by decide +kernel, nodup', fewer', displaced'⟩

end Staking
end Bubble
