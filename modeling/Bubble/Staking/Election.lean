import Bubble.Staking.Validator
import Bubble.Lib.Sweep
import Bubble.Lib.Search
import Bubble.Lib.Traverse

/-!
# Electing the next round

`StakingPlugin.Election` of `x/plugin/staking_plugin.go`, with `shuffleQueue`,
`randomOrderValidatorQueue`, `vrfElection` and `probabilityElection`.  Some blocks before a round
ends, the validators of the next round are chosen.  The validators of the current round whose
candidate records are slashed, below the chain's version, or withdrawn while not validators of the
epoch are to be removed; the others stay, with their term one higher and the shares the epoch
gives them.  `ValidatorSort` by `CompareForDel` puts the ones to remove first and `invalidLen` of
them are cut off.  The VRF then draws winners among the validators of the epoch that are not in
the current round, and `shuffleQueue` drops staying validators from the front, at most
`ShiftValidatorNum` of them, to make room for the winners, truncates to `MaxConsensusVals` and
reorders the result in two groups.

The floating-point side of the VRF (the binomial draws, `rand.Shuffle` and `vrf.ProofToHash`) is
taken as given by `VrfDraw`; the shuffle is a permutation by its type.  The candidate records are
read through `CandidateStore`, whose record for a node carries that node's id.
-/

namespace Bubble
namespace Staking

open Sweep Traverse

variable {ε : Type}

/-! ## Candidate records -/

/-- `CandidateStatus.IsInvalidLowRatioDel`. -/
def CandidateStatus.isInvalidLowRatioDel (status : CandidateStatus) : Bool :=
  status.has (invalided ||| lowRatioDel)

/-- `CandidateStatus.IsInvalidLowRatio`. -/
def CandidateStatus.isInvalidLowRatio (status : CandidateStatus) : Bool :=
  status.has (invalided ||| lowRatio)

/-- `CandidateStatus.IsInvalidLowRatioNotEnough`. -/
def CandidateStatus.isInvalidLowRatioNotEnough (status : CandidateStatus) : Bool :=
  status.has (invalided ||| lowRatio ||| notEnough)

/-- `CandidateStatus.IsInvalidDuplicateSign`. -/
def CandidateStatus.isInvalidDuplicateSign (status : CandidateStatus) : Bool :=
  status.has (duplicateSign ||| invalided)

/-- `CandidateStatus.IsInvalidWithdrew`. -/
def CandidateStatus.isInvalidWithdrew (status : CandidateStatus) : Bool :=
  status.has (invalided ||| withdrew)

/-- `checkHaveSlash` of `Election`: removed for a low packing ratio or for signing twice. -/
def checkHaveSlash (status : CandidateStatus) : Bool :=
  status.isInvalidLowRatioDel || status.isInvalidLowRatio || status.isInvalidLowRatioNotEnough ||
    status.isInvalidDuplicateSign

/-- The fields of `staking.Candidate` that `Election` reads and writes. -/
structure CandidateInfo where
  nodeId : NodeID
  programVersion : UInt32
  status : CandidateStatus
  deriving DecidableEq, Repr

/-- The two tests both loops of `Election` make of a record, each leading to the same branch:
slashed, or below the version of the chain. -/
def slashedOrLow (currVersion : UInt32) (can : CandidateInfo) : Bool :=
  checkHaveSlash can.status || decide (calcVersion can.programVersion < currVersion)

/-- A record the first loop of `Election` collects as withdrawn: withdrawn, and not slashed. -/
def withdrewOnly (can : CandidateInfo) : Bool :=
  can.status.isInvalidWithdrew && !checkHaveSlash can.status

/-- `CandidateMutable.CleanLowRatioStatus`. -/
def CandidateInfo.cleanLowRatioStatus (can : CandidateInfo) : CandidateInfo :=
  { can with status := can.status &&& ~~~lowRatio }

/-- `GetCandidateStore` at the address `NodeId2Addr` gives a node, `none` for `ErrNotFound`.  The
record stored at a node's address is the node's own: `Create` stores it there. -/
structure CandidateStore (ε : Type) where
  getCandidateStore : NodeID → Except ε (Option CandidateInfo)
  nodeId_eq : ∀ {n : NodeID} {can : CandidateInfo},
    getCandidateStore n = .ok (some can) → can.nodeId = n

/-- The record the store holds for a node, if it can read one. -/
def CandidateStore.found (store : CandidateStore ε) (n : NodeID) : Option CandidateInfo :=
  match store.getCandidateStore n with
  | .ok can => can
  | .error _ => none

/-! ## The election's inputs and results -/

/-- `staking.ValidatorArray`: a round's validators and its first and last block. -/
structure ValidatorArray where
  start : UInt64
  «end» : UInt64
  arr : List Validator

/-- The settings `Election` reads: `xcom.ElectionDistance`, `xutil.ConsensusSize`,
`xcom.MaxConsensusVals` and `xcom.ShiftValidatorNum`. -/
structure ElectionConfig where
  electionDistance : UInt64
  consensusSize : UInt64
  maxConsensusVals : ℕ
  shiftValidatorNum : ℕ

/-- What `Election` reads from the chain besides the candidate records. -/
structure ElectionInput (ε : Type) where
  blockNumber : UInt64
  /-- `header.Nonce`, the block's VRF proof. -/
  nonce : List UInt8
  /-- `getVerifierList`: the validators of the epoch, `none` when they cannot be read. -/
  verifiers : Option (List Validator)
  /-- `getCurrValList`: the validators of the current round. -/
  curr : Option ValidatorArray
  /-- `gov.GetVersionForStaking`. -/
  originVersion : UInt32
  /-- `gov.GetCurrentActiveVersion`, zero when it cannot be read. -/
  currentVersion : UInt32
  /-- `handler.GetVrfHandlerInstance().Load(parentHash)`: the nonces of the blocks before. -/
  preNonces : Except ε (List (List UInt8))

/-- The errors of `Election`. -/
inductive ElectionError (ε : Type)
  | errValidatorNoExist
  | errBlockNumberDisordered
  | errWrongFuncParams
  /-- "Failed to get CurrentActiveVersion". -/
  | currentActiveVersion
  /-- An error of the store, of loading the nonces or of the draw, passed on. -/
  | failed (err : ε)
  /-- A `panic`: an empty list of verifiers or of next validators, `make` with a negative length,
  a nonce shorter than an address, or the square root of a negative weight. -/
  | panic
  deriving DecidableEq

/-- What a successful `Election` writes. -/
structure ElectionOutput where
  /-- The list `setRoundValListAndIndex` stores for the next round. -/
  next : ValidatorArray
  /-- The records `SetCandidateStore` writes back with the low-ratio status cleared. -/
  cleaned : List CandidateInfo

/-! ## The VRF -/

/-- The parts of `probabilityElection` the model takes as given. -/
structure VrfDraw (ε : Type) where
  /-- `vrf.ProofToHash`. -/
  proofToHash : List UInt8 → List UInt8
  /-- `rand.New(rand.NewSource(seed)).Shuffle(n, swap)`: the place each of the `n` places takes
  its element from. -/
  shuffle : (seed : ℕ) → (n : ℕ) → Equiv.Perm (Fin n)
  /-- `strconv.ParseFloat` of the total weight and of the total square-root weight. -/
  parseTotals : (totalWeights totalSqrtWeights : ℕ) → Except ε Unit
  /-- The draw `x` of a validator: `ParseFloat` of the target, `xcom.CalcP` of the total
  square-root weight, and `InverseCumulativeProbability` at `target / maxValue` of the binomial
  distribution of the validator's weight. -/
  binomial : (totalSqrtWeights weights target : ℕ) → Except ε ℤ

/-- Go's `sort.Sort` by `less`.  The model sorts by merging, which agrees with it up to the order
of elements neither of which is less than the other. -/
def sortByLess {α : Type} (less : α → α → Bool) (l : List α) : List α :=
  l.mergeSort fun a b => !less b a

/-- `rd.Shuffle` applied to a list: each place takes the element the permutation names for it. -/
def shuffleBy {α : Type} (l : List α) (order : Equiv.Perm (Fin l.length)) : List α :=
  List.ofFn fun i => l.get (order i)

/-- `newSortValidatorQueue.Less`: the higher version first, then the higher draw. -/
def newSortLess (a b : Validator × ℤ) : Bool :=
  if calcVersion a.1.programVersion = calcVersion b.1.programVersion then b.2 < a.2
  else calcVersion b.1.programVersion < calcVersion a.1.programVersion

/-- The nonce loading `vrfElection` and `randomOrderValidatorQueue` begin with: too few nonces for
a queue of `size` is `ErrWrongFuncParams`, and of more only the last `size` are kept. -/
def loadPreNonces (loaded : Except ε (List (List UInt8))) (size : ℕ) :
    Except (ElectionError ε) (List (List UInt8)) := do
  let preNonces ← loaded.mapError .failed
  if preNonces.length < size then throw .errWrongFuncParams
  pure (if size < preNonces.length then preNonces.drop (preNonces.length - size) else preNonces)

/-- The draw of one validator in `probabilityElection`, from its square-root weight and its nonce
XOR the block's. -/
def drawValidator (draw : VrfDraw ε) (totalSqrtWeights : ℕ) (currentNonce : List UInt8)
    (sv : (Validator × ℕ) × List UInt8) : Except (ElectionError ε) (Validator × ℤ) :=
  ((draw.binomial totalSqrtWeights sv.1.2
    (Bytes.ofBytes currentNonce ^^^ Bytes.ofBytes sv.2)).mapError .failed).map (sv.1.1, ·)

/-- `probabilityElection`: the validators shuffled, each given a draw, sorted by version and draw,
and the first `shiftLen` taken. -/
def probabilityElection (draw : VrfDraw ε) (validatorList : List Validator) (shiftLen : ℕ)
    (currentNonce : List UInt8) (preNonces : List (List UInt8)) :
    Except (ElectionError ε) (List Validator) := do
  if currentNonce.isEmpty || preNonces.isEmpty || validatorList.length != preNonces.length then
    throw .errWrongFuncParams
  let weights := validatorList.map fun val => val.shares / 10 ^ 18
  -- `big.Int.Sqrt` panics on a negative weight
  if weights.any (· < 0) then throw .panic
  let sqrtWeights := weights.map fun w => w.toNat.sqrt
  let totalSqrtWeights := sqrtWeights.sum
  (draw.parseTotals weights.sum.toNat totalSqrtWeights).mapError .failed
  let svList := validatorList.zip sqrtWeights
  let svList := shuffleBy svList (draw.shuffle (Bytes.ofBytes (preNonces.headD [])) svList.length)
  let drawn ← (svList.zip preNonces).mapM (drawValidator draw totalSqrtWeights currentNonce)
  let sorted := sortByLess newSortLess drawn
  -- `vrfQueue` is made with `shiftLen` entries; those past the sorted list stay nil
  pure ((sorted.take shiftLen).map (·.1) ++ List.replicate (shiftLen - sorted.length) default)

/-- `vrfElection`: `probabilityElection` with the hash of the block's proof and the nonces before. -/
def vrfElection (draw : VrfDraw ε) (loaded : Except ε (List (List UInt8)))
    (validatorList : List Validator) (shiftLen : ℕ) (nonce : List UInt8) :
    Except (ElectionError ε) (List Validator) := do
  let preNonces ← loadPreNonces loaded validatorList.length
  probabilityElection draw validatorList shiftLen (draw.proofToHash nonce) preNonces

/-! ## Shuffling the next round -/

/-- The key `randomOrderValidatorQueue` sorts by: the node's address XOR the first twenty bytes of
its nonce. -/
def randomOrderValue (v : Validator) (preNonce : List UInt8) : ℕ :=
  BitVec.toNat v.nodeAddress ^^^ Bytes.ofBytes (preNonce.take 20)

/-- `randomOrderValidatorList.Less`: the larger key first. -/
def randomOrderLess (a b : Validator × ℕ) : Bool :=
  b.2 < a.2

/-- `randomOrderValidatorQueue`: the first `ShiftValidatorNum` validators and the others are each
sorted by their key, the larger first. -/
def randomOrderValidatorQueue (shiftValidatorNum : ℕ) (loaded : Except ε (List (List UInt8)))
    (queue : List Validator) : Except (ElectionError ε) (List Validator) := do
  let preNonces ← loadPreNonces loaded queue.length
  if queue.length ≤ shiftValidatorNum then return queue
  -- `preNonces[i][:common.AddressLength]` panics on a nonce shorter than an address
  if preNonces.any (·.length < 20) then throw .panic
  let orderList := (queue.zip preNonces).map fun vp => (vp.1, randomOrderValue vp.1 vp.2)
  pure ((sortByLess randomOrderLess (orderList.take shiftValidatorNum) ++
    sortByLess randomOrderLess (orderList.drop shiftValidatorNum)).map (·.1))

/-- The loop of `shuffleQueue`: while more than `MaxConsensusVals - ShiftValidatorNum` validators
of the current round remain and the queue is longer than `MaxConsensusVals`, the first goes. -/
def dropRemain {α : Type} (maxConsensusVals shiftValidatorNum : ℕ) : ℤ → List α → List α
  | _, [] => []
  | remainLen, v :: rest =>
    if (maxConsensusVals : ℤ) - shiftValidatorNum < remainLen ∧ maxConsensusVals < rest.length + 1
    then dropRemain maxConsensusVals shiftValidatorNum (remainLen - 1) rest
    else v :: rest

/-- `shuffleQueue`: the validators that stay followed by the VRF winners, the front dropped and
the end cut to `MaxConsensusVals`, then reordered. -/
def shuffleQueue (cfg : ElectionConfig) (loaded : Except ε (List (List UInt8)))
    (remainCurrQueue vrfQueue : List Validator) : Except (ElectionError ε) (List Validator) :=
  let totalQueue := dropRemain cfg.maxConsensusVals cfg.shiftValidatorNum remainCurrQueue.length
    (remainCurrQueue ++ vrfQueue)
  let totalQueue := if cfg.maxConsensusVals < totalQueue.length
    then totalQueue.take cfg.maxConsensusVals else totalQueue
  randomOrderValidatorQueue cfg.shiftValidatorNum loaded totalQueue

/-- A validator of the current round as the next round keeps it: its term one higher and its
shares from `currMap`, which has an entry for each of them. -/
def renew (currMap : NodeID → Option ℤ) (v : Validator) : Validator :=
  { v with validatorTerm := v.validatorTerm + 1, shares := (currMap v.nodeId).getD v.shares }

/-- The closure `shuffle` of `Election`: the current round renewed, sorted by `CompareForDel`,
the first `invalidLen` cut off, then `shuffleQueue` with the VRF winners. -/
def shuffle (cfg : ElectionConfig) (loaded : Except ε (List (List UInt8)))
    (removeCans : NeedRemoveCans) (currMap : NodeID → Option ℤ) (invalidLen : ℕ)
    (currQueue vrfQueue : List Validator) : Except (ElectionError ε) (List Validator) := do
  let currQueue := validatorSort removeCans (some compareForDel) (currQueue.map (renew currMap)).toArray
  -- `make` with a negative length panics
  if currQueue.size < invalidLen then throw .panic
  shuffleQueue cfg loaded (currQueue.toList.drop invalidLen) vrfQueue

/-! ## Walking the current round and the epoch -/

/-- The maps and queues `Election` fills as it walks the current round and the epoch. -/
structure ElectionScan where
  removeCans : NeedRemoveCans
  /-- `invalidCan`, a set of nodes, kept as a list without repeats. -/
  invalidCan : List NodeID
  /-- `withdrewCans`, by the status of each record. -/
  withdrewCans : NodeID → Option CandidateStatus
  withdrewQueue : List NodeID
  /-- `lowRatioValidAddrs` with the records `lowRatioValidMap` holds for them. -/
  lowRatioValid : List CandidateInfo
  currMap : NodeID → Option ℤ
  currqueen : List Validator
  diffQueue : List Validator

/-- The maps and queues before the walk: all empty. -/
def ElectionScan.empty : ElectionScan :=
  ⟨fun _ => none, [], fun _ => none, [], [], fun _ => none, [], []⟩

/-- The first loop of `Election` on a validator `v` of the current round whose record is `can`. -/
def ElectionScan.collect (currVersion : UInt32) (scan : ElectionScan) (v : Validator)
    (can : CandidateInfo) : ElectionScan :=
  -- slashed and below the version both put the record into `removeCans` and `invalidCan`
  let remove := slashedOrLow currVersion can
  { scan with
    removeCans :=
      if remove then Function.update scan.removeCans v.nodeId (some can.status) else scan.removeCans
    invalidCan := if remove then scan.invalidCan.insert can.nodeId else scan.invalidCan
    withdrewCans := if withdrewOnly can
      then Function.update scan.withdrewCans v.nodeId (some can.status) else scan.withdrewCans
    withdrewQueue := if withdrewOnly can then scan.withdrewQueue ++ [v.nodeId] else scan.withdrewQueue
    lowRatioValid := if can.status.isValid && can.status.isLowRatio
      then scan.lowRatioValid ++ [can] else scan.lowRatioValid
    currMap := Function.update scan.currMap v.nodeId (some v.shares)
    currqueen := scan.currqueen ++ [v] }

/-- The first loop of `Election`, over the validators of the current round. -/
def collectCurrent (store : CandidateStore ε) (currVersion : UInt32) :
    List Validator → ElectionScan → Except ε ElectionScan
  | [], scan => .ok scan
  | v :: rest, scan =>
    match store.getCandidateStore v.nodeId with
    | .error err => .error err
    -- `ErrNotFound`: "for fix bug Power exist, bug Base is del"
    | .ok none => collectCurrent store currVersion rest scan
    | .ok (some can) => collectCurrent store currVersion rest (scan.collect currVersion v can)

/-- The second loop of `Election`, over the validators of the epoch: a validator of the current
round takes its shares from the epoch, any other goes into `diffQueue` unless its record is
missing, slashed or below the version. -/
def scanVerifiers (store : CandidateStore ε) (currVersion : UInt32) :
    List Validator → ElectionScan → Except ε ElectionScan
  | [], scan => .ok scan
  | v :: rest, scan =>
    let scan := { scan with withdrewCans := Function.update scan.withdrewCans v.nodeId none }
    if (scan.currMap v.nodeId).isSome then
      scanVerifiers store currVersion rest
        { scan with currMap := Function.update scan.currMap v.nodeId (some v.shares) }
    else
      match store.getCandidateStore v.nodeId with
      | .error err => .error err
      | .ok none => scanVerifiers store currVersion rest scan
      | .ok (some can) =>
        if slashedOrLow currVersion can then scanVerifiers store currVersion rest scan
        else scanVerifiers store currVersion rest { scan with diffQueue := scan.diffQueue ++ [v] }

/-- The deletion of the loop over `withdrewQueue`:
`append(withdrewQueue[:i], withdrewQueue[i+1:]...)` and `i--`. -/
def eraseAt (queue : List NodeID) (i : ℤ) : List NodeID × ℤ :=
  (queue.eraseIdx i.toNat, i - 1)

/-- The body of the loop over `withdrewQueue`: a node still in `withdrewCans` goes into
`removeCans`, any other leaves the queue. -/
def keepWithdrew (withdrewCans : NodeID → Option CandidateStatus) (removeCans : NeedRemoveCans)
    (nodeId : NodeID) : Except ε (NeedRemoveCans × Option NodeID) :=
  match withdrewCans nodeId with
  | none => .ok (removeCans, none)
  | some status => .ok (Function.update removeCans nodeId (some status), some nodeId)

/-! ## The election -/

/-- `StakingPlugin.Election`. -/
def election (cfg : ElectionConfig) (input : ElectionInput ε) (store : CandidateStore ε)
    (draw : VrfDraw ε) : Except (ElectionError ε) ElectionOutput := do
  let some verifiers := input.verifiers | throw .errValidatorNoExist
  let some curr := input.curr | throw .errValidatorNoExist
  if input.blockNumber ≠ curr.«end» - cfg.electionDistance then throw .errBlockNumberDisordered
  -- "Never match, maybe!!!"
  if verifiers.isEmpty then throw .panic
  let currVersion := calcVersion input.originVersion
  if input.currentVersion = 0 then throw .currentActiveVersion
  let scan ← (collectCurrent store currVersion curr.arr ElectionScan.empty).mapError .failed
  let scan ← (scanVerifiers store currVersion verifiers scan).mapError .failed
  let (withdrewQueue, removeCans) ← (sweepLoop eraseAt (keepWithdrew scan.withdrewCans)
    scan.withdrewQueue.length scan.withdrewQueue 0 scan.removeCans).mapError .failed
  let invalidCan := withdrewQueue.foldl (fun invalidCan n => invalidCan.insert n) scan.invalidCan
  let vrfLen := min scan.diffQueue.length cfg.maxConsensusVals
  let vrfQueue ← if vrfLen ≠ 0
    then vrfElection draw input.preNonces scan.diffQueue vrfLen input.nonce else pure []
  let nextQueue ← shuffle cfg input.preNonces removeCans scan.currMap invalidCan.length
    scan.currqueen vrfQueue
  if nextQueue.isEmpty then throw .panic
  pure { next := ⟨curr.«end» + 1, curr.«end» + cfg.consensusSize, nextQueue⟩
         cleaned := scan.lowRatioValid.map CandidateInfo.cleanLowRatioStatus }

/-! ## What the VRF and the shuffle return -/

theorem sortByLess_perm {α : Type} (less : α → α → Bool) (l : List α) :
    (sortByLess less l).Perm l :=
  List.mergeSort_perm _ _

theorem shuffleBy_perm {α : Type} (l : List α) (order : Equiv.Perm (Fin l.length)) :
    (shuffleBy l order).Perm l := by
  have permuted := Equiv.Perm.ofFn_comp_perm order l.get
  rwa [List.ofFn_get] at permuted

theorem loadPreNonces_length {loaded : Except ε (List (List UInt8))} {size : ℕ}
    {preNonces : List (List UInt8)} (done : loadPreNonces loaded size = .ok preNonces) :
    preNonces.length = size := by
  cases loaded with
  | error err => simp [loadPreNonces, Except.mapError, bind, Except.bind] at done
  | ok all =>
    simp only [loadPreNonces, Except.mapError, bind, Except.bind] at done
    split_ifs at done with few more
    · cases done
      simp only [List.length_drop]
      omega
    · cases done
      omega

theorem drawValidator_fst {draw : VrfDraw ε} {totalSqrtWeights : ℕ} {currentNonce : List UInt8}
    (sv : (Validator × ℕ) × List UInt8) {drawn : Validator × ℤ}
    (done : drawValidator draw totalSqrtWeights currentNonce sv = .ok drawn) : drawn.1 = sv.1.1 := by
  obtain ⟨x, -, rfl⟩ := Rollback.map_eq_ok.mp done
  rfl

/-- `probabilityElection` returns the first `shiftLen` of an order of its validators. -/
theorem probabilityElection_eq_ok {draw : VrfDraw ε} {validatorList : List Validator}
    {shiftLen : ℕ} {currentNonce : List UInt8} {preNonces : List (List UInt8)}
    {vrfQueue : List Validator}
    (drawn : probabilityElection draw validatorList shiftLen currentNonce preNonces = .ok vrfQueue)
    (enough : shiftLen ≤ validatorList.length) :
    ∃ order : List Validator, order.Perm validatorList ∧ vrfQueue = order.take shiftLen := by
  unfold probabilityElection at drawn
  by_cases bad :
      (currentNonce.isEmpty || preNonces.isEmpty || validatorList.length != preNonces.length) = true
  · rw [if_pos bad] at drawn
    cases drawn
  rw [if_neg bad] at drawn
  have sized : validatorList.length = preNonces.length := by
    simp only [Bool.or_eq_true, bne_iff_ne, ne_eq, not_or, not_not] at bad
    exact bad.2
  by_cases negative : ((validatorList.map fun val => val.shares / 10 ^ 18).any (· < 0)) = true
  · rw [if_pos negative] at drawn
    cases drawn
  rw [if_neg negative] at drawn
  obtain ⟨_, -, rest⟩ := Rollback.bind_eq_ok.mp drawn
  obtain ⟨pairs, mapped, done⟩ := Rollback.bind_eq_ok.mp rest
  simp only [pure, Except.pure, Except.ok.injEq] at done
  generalize shuffled : shuffleBy _ _ = svList at mapped
  generalize weighed : validatorList.zip _ = weights at shuffled
  have reordered : svList.Perm weights := shuffled ▸ shuffleBy_perm _ _
  have unzipped : weights.map Prod.fst = validatorList := by
    rw [← weighed]
    exact List.map_fst_zip (by simp)
  have sameLength : svList.length = validatorList.length := by
    rw [reordered.length_eq, ← unzipped, List.length_map]
  have kept : pairs.map Prod.fst = svList.map Prod.fst := by
    have firsts : (svList.zip preNonces).map (fun sv => sv.1.1) =
        ((svList.zip preNonces).map Prod.fst).map Prod.fst := by
      rw [List.map_map]
      rfl
    rw [Traverse.mapM_eq_ok_map (fun sv _ drew => drawValidator_fst sv drew) mapped, firsts,
      List.map_fst_zip (by omega)]
  have ordered : (pairs.map Prod.fst).Perm validatorList := by
    rw [kept, ← unzipped]
    exact reordered.map Prod.fst
  have counted : (sortByLess newSortLess pairs).length = validatorList.length := by
    rw [(sortByLess_perm newSortLess pairs).length_eq, ← ordered.length_eq, List.length_map]
  refine ⟨(sortByLess newSortLess pairs).map Prod.fst,
    ((sortByLess_perm newSortLess pairs).map Prod.fst).trans ordered, ?_⟩
  rw [← done, counted, Nat.sub_eq_zero_of_le enough, List.replicate_zero, List.append_nil,
    List.map_take]

theorem vrfElection_eq_ok {draw : VrfDraw ε} {loaded : Except ε (List (List UInt8))}
    {validatorList : List Validator} {shiftLen : ℕ} {nonce : List UInt8} {vrfQueue : List Validator}
    (drawn : vrfElection draw loaded validatorList shiftLen nonce = .ok vrfQueue)
    (enough : shiftLen ≤ validatorList.length) :
    ∃ order : List Validator, order.Perm validatorList ∧ vrfQueue = order.take shiftLen := by
  obtain ⟨preNonces, -, drew⟩ := Rollback.bind_eq_ok.mp drawn
  exact probabilityElection_eq_ok drew enough

/-- `randomOrderValidatorQueue` only reorders its queue. -/
theorem randomOrderValidatorQueue_perm {shiftValidatorNum : ℕ} {loaded : Except ε (List (List UInt8))}
    {queue next : List Validator}
    (ordered : randomOrderValidatorQueue shiftValidatorNum loaded queue = .ok next) :
    next.Perm queue := by
  unfold randomOrderValidatorQueue at ordered
  obtain ⟨preNonces, loadedOk, rest⟩ := Rollback.bind_eq_ok.mp ordered
  have sized := loadPreNonces_length loadedOk
  split_ifs at rest with short tooShort
  · cases rest
    exact .refl queue
  · cases rest
  · simp only [pure, Except.pure, Except.ok.injEq] at rest
    subst rest
    set orderList := (queue.zip preNonces).map fun vp => (vp.1, randomOrderValue vp.1 vp.2)
    have groups := ((sortByLess_perm randomOrderLess (orderList.take shiftValidatorNum)).append
      (sortByLess_perm randomOrderLess (orderList.drop shiftValidatorNum))).map Prod.fst
    rw [List.take_append_drop] at groups
    have unzipped : orderList.map Prod.fst = queue := by
      rw [List.map_map]
      exact List.map_fst_zip (by omega)
    exact unzipped ▸ groups

/-- With `ShiftValidatorNum ≤ MaxConsensusVals`, the loop of `shuffleQueue` started on `remainLen`
validators of the current round drops as many from the front as it may and has to. -/
theorem dropRemain_eq {α : Type} {maxConsensusVals shiftValidatorNum : ℕ}
    (shift : shiftValidatorNum ≤ maxConsensusVals) :
    ∀ (remainLen : ℕ) (queue : List α),
      dropRemain maxConsensusVals shiftValidatorNum remainLen queue =
        queue.drop (min (remainLen - (maxConsensusVals - shiftValidatorNum))
          (queue.length - maxConsensusVals))
  | remainLen, [] => by simp [dropRemain]
  | remainLen, v :: rest => by
      rw [dropRemain]
      split_ifs with going
      · have lower : (remainLen : ℤ) - 1 = ((remainLen - 1 : ℕ) : ℤ) := by omega
        have dropped : min (remainLen - (maxConsensusVals - shiftValidatorNum))
            ((v :: rest).length - maxConsensusVals) =
              min (remainLen - 1 - (maxConsensusVals - shiftValidatorNum))
                (rest.length - maxConsensusVals) + 1 := by
          simp only [List.length_cons]
          omega
        rw [lower, dropRemain_eq shift (remainLen - 1) rest, dropped, List.drop_succ_cons]
      · have kept : min (remainLen - (maxConsensusVals - shiftValidatorNum))
            ((v :: rest).length - maxConsensusVals) = 0 := by
          simp only [List.length_cons]
          omega
        rw [kept, List.drop_zero]

/-- How many validators of the current round `shuffleQueue` keeps among `remain`: all, but no more
than leaves room for `ShiftValidatorNum` newcomers or for all the `winners`. -/
def keptCount (cfg : ElectionConfig) (remain winners : ℕ) : ℕ :=
  min remain (max (cfg.maxConsensusVals - cfg.shiftValidatorNum) (cfg.maxConsensusVals - winners))

/-- `shuffleQueue` returns an order of the last `k` staying validators followed by the first winners
that fit, `k` the count `keptCount` gives. -/
theorem shuffleQueue_eq_ok {cfg : ElectionConfig} {loaded : Except ε (List (List UInt8))}
    {remain vrf next : List Validator} (shuffled : shuffleQueue cfg loaded remain vrf = .ok next)
    (shift : cfg.shiftValidatorNum ≤ cfg.maxConsensusVals) :
    next.Perm (remain.drop (remain.length - keptCount cfg remain.length vrf.length) ++
      vrf.take (min vrf.length (cfg.maxConsensusVals - keptCount cfg remain.length vrf.length))) := by
  have ordered := randomOrderValidatorQueue_perm shuffled
  rw [dropRemain_eq shift] at ordered
  generalize kept : keptCount cfg remain.length vrf.length = k
  have value : k = min remain.length
      (max (cfg.maxConsensusVals - cfg.shiftValidatorNum) (cfg.maxConsensusVals - vrf.length)) := by
    rw [← kept, keptCount]
  have fits : k ≤ cfg.maxConsensusVals := by omega
  have count : min (remain.length - (cfg.maxConsensusVals - cfg.shiftValidatorNum))
      ((remain ++ vrf).length - cfg.maxConsensusVals) = remain.length - k := by
    rw [List.length_append]
    omega
  rw [count, List.drop_append_of_le_length (by omega)] at ordered
  have dropped : (remain.drop (remain.length - k)).length = k := by
    simp only [List.length_drop]
    omega
  have winners : vrf.take (min vrf.length (cfg.maxConsensusVals - k)) =
      vrf.take (cfg.maxConsensusVals - k) := by
    rw [List.take_eq_take_iff]
    omega
  rw [winners]
  split_ifs at ordered with long
  · rwa [List.take_append, List.take_of_length_le (by omega), dropped] at ordered
  · have all : vrf.take (cfg.maxConsensusVals - k) = vrf := by
      simp only [List.length_append, dropped] at long
      exact List.take_of_length_le (by omega)
    rwa [all]

theorem validatorSort_removed_first (removeCans : NeedRemoveCans) (arr : Array Validator) :
    (validatorSort removeCans (some compareForDel) arr).toList.Pairwise
      fun a b => (removeCans b.nodeId).isSome → (removeCans a.nodeId).isSome := by
  have total := compareForDel_totalPreorder removeCans
  refine (total.pairwise_of_isChain (validatorSort_spec total arr).2).imp fun {a b} ranked removed => ?_
  by_contra kept
  have below := compareForDel_kept_removed (by simpa using kept) removed
  omega

/-- When `invalidLen` counts the validators to remove, `shuffle` cuts off exactly those and hands
the others to `shuffleQueue` in the order `ValidatorSort` gives them. -/
theorem shuffle_eq_ok {cfg : ElectionConfig} {loaded : Except ε (List (List UInt8))}
    {removeCans : NeedRemoveCans} {currMap : NodeID → Option ℤ} {invalidLen : ℕ}
    {currQueue vrfQueue next : List Validator}
    (shuffled : shuffle cfg loaded removeCans currMap invalidLen currQueue vrfQueue = .ok next)
    (counted : invalidLen = currQueue.countP fun v => (removeCans v.nodeId).isSome) :
    shuffleQueue cfg loaded ((validatorSort removeCans (some compareForDel)
      (currQueue.map (renew currMap)).toArray).toList.filter fun v => (removeCans v.nodeId).isNone)
      vrfQueue = .ok next := by
  unfold shuffle at shuffled
  generalize sortedEq : validatorSort removeCans (some compareForDel) _ = sorted at shuffled
  have sorts := (validatorSort_spec (compareForDel_totalPreorder removeCans)
    (currQueue.map (renew currMap)).toArray).1
  rw [sortedEq] at sorts
  have same : sorted.toList.countP (fun v => (removeCans v.nodeId).isSome) = invalidLen := by
    rw [sorts.toList.countP_eq, List.toList_toArray, List.countP_map, counted]
    rfl
  have removedFirst := validatorSort_removed_first removeCans (currQueue.map (renew currMap)).toArray
  rw [sortedEq] at removedFirst
  dsimp only at shuffled
  split_ifs at shuffled with short
  · cases shuffled
  · rw [← same, Search.drop_countP_eq_filter removedFirst] at shuffled
    simpa [Option.isNone_iff_eq_none] using shuffled

/-! ## The walks -/

theorem CandidateStore.found_nodeId {store : CandidateStore ε} {n : NodeID} {can : CandidateInfo}
    (found : store.found n = some can) : can.nodeId = n := by
  unfold CandidateStore.found at found
  split at found
  · exact store.nodeId_eq (by simp_all)
  · cases found

/-- The first loop's body with the record read through `found`: what the loop does when the store
answers. -/
def ElectionScan.collectFound (store : CandidateStore ε) (currVersion : UInt32) (scan : ElectionScan)
    (v : Validator) : ElectionScan :=
  match store.found v.nodeId with
  | some can => scan.collect currVersion v can
  | none => scan

/-- On a store that answers, the first loop is the fold of its body. -/
theorem collectCurrent_eq_ok {store : CandidateStore ε} {currVersion : UInt32} :
    ∀ {l : List Validator} {scan scan' : ElectionScan},
      collectCurrent store currVersion l scan = .ok scan' →
        scan' = l.foldl (ElectionScan.collectFound store currVersion) scan
  | [], scan, scan', collected => by
      cases collected
      rfl
  | v :: rest, scan, scan', collected => by
      unfold collectCurrent at collected
      rw [List.foldl_cons]
      cases read : store.getCandidateStore v.nodeId with
      | error err => simp [read] at collected
      | ok record =>
          have found : store.found v.nodeId = record := by simp [CandidateStore.found, read]
          cases record with
          | none =>
              simp only [read] at collected
              simpa [ElectionScan.collectFound, found] using collectCurrent_eq_ok collected
          | some can =>
              simp only [read] at collected
              simpa [ElectionScan.collectFound, found] using collectCurrent_eq_ok collected

section First

variable {store : CandidateStore ε} {currVersion : UInt32}

theorem collectFound_currqueen (l : List Validator) (scan : ElectionScan) :
    (l.foldl (ElectionScan.collectFound store currVersion) scan).currqueen =
      scan.currqueen ++ l.filter fun v => (store.found v.nodeId).isSome := by
  rw [← @List.foldl_hom _ _ _ (·.currqueen) (ElectionScan.collectFound store currVersion)
    (fun q v => if (store.found v.nodeId).isSome then q ++ [v] else q) l scan fun s v => by
      cases found : store.found v.nodeId <;> simp [ElectionScan.collectFound, ElectionScan.collect, found]]
  simpa using foldl_append_filter (fun v : Validator => (store.found v.nodeId).isSome) id l scan.currqueen

theorem collectFound_removeCans (l : List Validator) (scan : ElectionScan) (n : NodeID) :
    (l.foldl (ElectionScan.collectFound store currVersion) scan).removeCans n =
      if n ∈ l.map (·.nodeId) ∧ (store.found n).any (slashedOrLow currVersion) = true
      then (store.found n).map (·.status) else scan.removeCans n := by
  rw [← @List.foldl_hom _ _ _ (fun s : ElectionScan => (s.removeCans : NodeID → Option CandidateStatus))
    (ElectionScan.collectFound store currVersion)
    (fun m v => if (store.found v.nodeId).any (slashedOrLow currVersion) then
      Function.update m v.nodeId ((store.found v.nodeId).map (·.status)) else m) l scan fun s v => by
      cases found : store.found v.nodeId <;> simp [ElectionScan.collectFound, ElectionScan.collect, found]]
  exact foldl_update_apply (·.nodeId) (fun n => (store.found n).any (slashedOrLow currVersion))
    (fun n => (store.found n).map (·.status)) l scan.removeCans n

theorem collectFound_withdrewCans (l : List Validator) (scan : ElectionScan) (n : NodeID) :
    (l.foldl (ElectionScan.collectFound store currVersion) scan).withdrewCans n =
      if n ∈ l.map (·.nodeId) ∧ (store.found n).any withdrewOnly = true
      then (store.found n).map (·.status) else scan.withdrewCans n := by
  rw [← @List.foldl_hom _ _ _ (·.withdrewCans) (ElectionScan.collectFound store currVersion)
    (fun m v => if (store.found v.nodeId).any withdrewOnly then
      Function.update m v.nodeId ((store.found v.nodeId).map (·.status)) else m) l scan fun s v => by
      cases found : store.found v.nodeId <;> simp [ElectionScan.collectFound, ElectionScan.collect, found]]
  exact foldl_update_apply (·.nodeId) (fun n => (store.found n).any withdrewOnly)
    (fun n => (store.found n).map (·.status)) l scan.withdrewCans n

theorem collectFound_withdrewQueue (l : List Validator) (scan : ElectionScan) :
    (l.foldl (ElectionScan.collectFound store currVersion) scan).withdrewQueue =
      scan.withdrewQueue ++ (l.filter fun v => (store.found v.nodeId).any withdrewOnly).map (·.nodeId) := by
  rw [← @List.foldl_hom _ _ _ (·.withdrewQueue) (ElectionScan.collectFound store currVersion)
    (fun q v => if (store.found v.nodeId).any withdrewOnly then q ++ [v.nodeId] else q) l scan
    fun s v => by
      cases found : store.found v.nodeId <;> simp [ElectionScan.collectFound, ElectionScan.collect, found]]
  rw [foldl_append_filter]

theorem collectFound_invalidCan (l : List Validator) {scan : ElectionScan} (distinct : scan.invalidCan.Nodup) :
    (l.foldl (ElectionScan.collectFound store currVersion) scan).invalidCan.Nodup ∧
      ∀ n, n ∈ (l.foldl (ElectionScan.collectFound store currVersion) scan).invalidCan ↔
        n ∈ scan.invalidCan ∨ n ∈ l.map (·.nodeId) ∧ (store.found n).any (slashedOrLow currVersion) = true := by
  rw [← @List.foldl_hom _ _ _ (·.invalidCan) (ElectionScan.collectFound store currVersion)
    (fun s v => if (store.found v.nodeId).any (slashedOrLow currVersion) then s.insert v.nodeId else s) l scan
    fun s v => by
      cases found : store.found v.nodeId with
      | none => simp [ElectionScan.collectFound, found]
      | some can => simp [ElectionScan.collectFound, ElectionScan.collect, found,
          CandidateStore.found_nodeId found]]
  obtain ⟨nodup, mem⟩ := foldl_insert (·.nodeId) (fun v => (store.found v.nodeId).any (slashedOrLow currVersion)) l distinct
  refine ⟨nodup, fun n => ?_⟩
  rw [mem]
  constructor
  · rintro (old | ⟨v, member, pass, rfl⟩)
    · exact .inl old
    · exact .inr ⟨List.mem_map_of_mem member, pass⟩
  · rintro (old | ⟨member, pass⟩)
    · exact .inl old
    · obtain ⟨v, inList, rfl⟩ := List.mem_map.mp member
      exact .inr ⟨v, inList, pass, rfl⟩

theorem collectFound_currMap {l : List Validator} (distinct : (l.map (·.nodeId)).Nodup) (scan : ElectionScan) (n : NodeID) :
    (l.foldl (ElectionScan.collectFound store currVersion) scan).currMap n =
      ((l.find? fun v => v.nodeId = n ∧ (store.found v.nodeId).isSome).map fun v => some v.shares).getD (scan.currMap n) := by
  rw [← @List.foldl_hom _ _ _ (fun s : ElectionScan => s.currMap) (ElectionScan.collectFound store currVersion)
    (fun m v => if (store.found v.nodeId).isSome then Function.update m v.nodeId (some v.shares) else m) l scan
    fun s v => by
      cases found : store.found v.nodeId <;> simp [ElectionScan.collectFound, ElectionScan.collect, found]]
  exact foldl_update_of_nodup (fun v : Validator => v.nodeId)
    (fun v => (store.found v.nodeId).isSome) (fun v => some v.shares) distinct scan.currMap n

theorem collectFound_diffQueue (l : List Validator) (scan : ElectionScan) :
    (l.foldl (ElectionScan.collectFound store currVersion) scan).diffQueue = scan.diffQueue :=
  foldl_keeps (·.diffQueue) (fun s v => by
    cases found : store.found v.nodeId <;> simp [ElectionScan.collectFound, ElectionScan.collect, found]) l scan

end First

/-- The second loop's body with the record read through `found`. -/
def ElectionScan.scanFound (store : CandidateStore ε) (currVersion : UInt32) (scan : ElectionScan)
    (v : Validator) : ElectionScan :=
  let scan := { scan with withdrewCans := Function.update scan.withdrewCans v.nodeId none }
  if (scan.currMap v.nodeId).isSome then
    { scan with currMap := Function.update scan.currMap v.nodeId (some v.shares) }
  else
    match store.found v.nodeId with
    | some can => if slashedOrLow currVersion can then scan
        else { scan with diffQueue := scan.diffQueue ++ [v] }
    | none => scan

section Second

variable {store : CandidateStore ε} {currVersion : UInt32}

/-- On a store that answers, the second loop is the fold of its body. -/
theorem scanVerifiers_eq_ok :
    ∀ {l : List Validator} {scan scan' : ElectionScan},
      scanVerifiers store currVersion l scan = .ok scan' →
        scan' = l.foldl (ElectionScan.scanFound store currVersion) scan
  | [], scan, scan', scanned => by
      cases scanned
      rfl
  | v :: rest, scan, scan', scanned => by
      unfold scanVerifiers at scanned
      rw [List.foldl_cons]
      dsimp only at scanned
      split_ifs at scanned with present
      · simpa [ElectionScan.scanFound, present] using scanVerifiers_eq_ok scanned
      · cases read : store.getCandidateStore v.nodeId with
        | error err => simp [read] at scanned
        | ok record =>
            have found : store.found v.nodeId = record := by simp [CandidateStore.found, read]
            cases record with
            | none =>
                simp only [read] at scanned
                simpa [ElectionScan.scanFound, present, found] using scanVerifiers_eq_ok scanned
            | some can =>
                simp only [read] at scanned
                split_ifs at scanned with slashed
                · simpa [ElectionScan.scanFound, present, found, slashed] using
                    scanVerifiers_eq_ok scanned
                · simpa [ElectionScan.scanFound, present, found, slashed] using
                    scanVerifiers_eq_ok scanned

/-- What one step of the second loop does: a validator of the current round takes its shares from
the epoch; any other joins `diffQueue` when its record is there, not slashed and not below the
version; and `withdrewCans` forgets the node either way. -/
theorem scanFound_cases (scan : ElectionScan) (v : Validator) :
    let cleared := { scan with withdrewCans := Function.update scan.withdrewCans v.nodeId none }
    (scan.currMap v.nodeId).isSome ∧
        scan.scanFound store currVersion v =
          { cleared with currMap := Function.update scan.currMap v.nodeId (some v.shares) } ∨
      (scan.currMap v.nodeId).isNone ∧
        (store.found v.nodeId).any (fun can => !slashedOrLow currVersion can) ∧
        scan.scanFound store currVersion v = { cleared with diffQueue := scan.diffQueue ++ [v] } ∨
      (scan.currMap v.nodeId).isNone ∧
        (store.found v.nodeId).any (fun can => !slashedOrLow currVersion can) = false ∧
        scan.scanFound store currVersion v = cleared := by
  unfold ElectionScan.scanFound
  dsimp only
  by_cases present : (scan.currMap v.nodeId).isSome
  · exact .inl ⟨present, by rw [if_pos present]⟩
  · have absent : (scan.currMap v.nodeId).isNone := by simpa using present
    rw [if_neg present]
    cases found : store.found v.nodeId with
    | none => exact .inr (.inr ⟨absent, rfl, rfl⟩)
    | some can =>
        by_cases slashed : slashedOrLow currVersion can
        · exact .inr (.inr ⟨absent, by simp [slashed], by simp [slashed]⟩)
        · exact .inr (.inl ⟨absent, by simp [slashed], by simp [slashed]⟩)

theorem scanFound_currMap_isSome (scan : ElectionScan) (v : Validator) (n : NodeID) :
    ((scan.scanFound store currVersion v).currMap n).isSome = (scan.currMap n).isSome := by
  rcases scanFound_cases scan v with ⟨present, step⟩ | ⟨-, -, step⟩ | ⟨-, -, step⟩ <;> rw [step]
  · by_cases same : n = v.nodeId
    · subst same
      simp [present]
    · simp [Function.update_of_ne same]

theorem scanFound_keeps (l : List Validator) (scan : ElectionScan) :
    let scanned := l.foldl (ElectionScan.scanFound store currVersion) scan
    scanned.removeCans = scan.removeCans ∧ scanned.invalidCan = scan.invalidCan ∧
      scanned.withdrewQueue = scan.withdrewQueue ∧ scanned.currqueen = scan.currqueen := by
  have keeps : ∀ (s : ElectionScan) v,
      let s' := s.scanFound store currVersion v
      (s'.removeCans, s'.invalidCan, s'.withdrewQueue, s'.currqueen) =
        (s.removeCans, s.invalidCan, s.withdrewQueue, s.currqueen) := by
    intro s v
    rcases scanFound_cases s v with ⟨-, step⟩ | ⟨-, -, step⟩ | ⟨-, -, step⟩ <;> rw [step]
  have kept := foldl_keeps
    (fun s : ElectionScan => (s.removeCans, s.invalidCan, s.withdrewQueue, s.currqueen)) keeps l scan
  simp only [Prod.mk.injEq] at kept
  exact kept

theorem scanFound_withdrewCans (l : List Validator) (scan : ElectionScan) (n : NodeID) :
    (l.foldl (ElectionScan.scanFound store currVersion) scan).withdrewCans n =
      if n ∈ l.map (·.nodeId) then none else scan.withdrewCans n := by
  rw [← @List.foldl_hom _ _ _ (fun s : ElectionScan => s.withdrewCans)
    (ElectionScan.scanFound store currVersion)
    (fun m v => if (fun _ => true) v.nodeId then Function.update m v.nodeId ((fun _ => none) v.nodeId)
      else m) l scan fun s v => by
      rcases @scanFound_cases _ store currVersion s v with ⟨-, step⟩ | ⟨-, -, step⟩ | ⟨-, -, step⟩ <;>
        simp [step]]
  have written := foldl_update_apply (fun v : Validator => v.nodeId) (fun _ => true)
    (fun _ => (none : Option CandidateStatus)) l scan.withdrewCans n
  simpa using written

theorem scanFound_currMap {l : List Validator} (distinct : (l.map (·.nodeId)).Nodup)
    (scan : ElectionScan) (n : NodeID) :
    (l.foldl (ElectionScan.scanFound store currVersion) scan).currMap n =
      if (scan.currMap n).isSome
      then ((l.find? fun v => v.nodeId = n).map fun v => some v.shares).getD (scan.currMap n)
      else scan.currMap n := by
  rw [← @List.foldl_hom _ _ _ (fun s : ElectionScan => s.currMap)
    (ElectionScan.scanFound store currVersion)
    (fun m v => if (m v.nodeId).isSome then Function.update m v.nodeId (some v.shares) else m)
    l scan fun s v => by
      rcases @scanFound_cases _ store currVersion s v with
        ⟨domain, step⟩ | ⟨domain, -, step⟩ | ⟨domain, -, step⟩ <;> simp [step, domain]]
  exact foldl_update_present (fun v : Validator => v.nodeId) (fun v => v.shares) distinct
    scan.currMap n

/-- The second loop appends the validators of the epoch outside `currMap` whose records are
there, not slashed and not below the version. -/
theorem scanFound_diffQueue :
    ∀ (l : List Validator) (scan : ElectionScan),
      (l.foldl (ElectionScan.scanFound store currVersion) scan).diffQueue =
        scan.diffQueue ++ l.filter fun v => (scan.currMap v.nodeId).isNone &&
          (store.found v.nodeId).any fun can => !slashedOrLow currVersion can
  | [], scan => by simp
  | v :: rest, scan => by
      rw [List.foldl_cons, scanFound_diffQueue rest]
      have sameDomain : ∀ w : Validator, ((scan.scanFound store currVersion v).currMap w.nodeId).isNone =
          (scan.currMap w.nodeId).isNone := by
        intro w
        rw [← Option.not_isSome, scanFound_currMap_isSome, Option.not_isSome]
      simp only [sameDomain]
      rcases @scanFound_cases _ store currVersion scan v with
        ⟨present, step⟩ | ⟨absent, good, step⟩ | ⟨absent, bad, step⟩
      · have taken : (scan.currMap v.nodeId).isNone = false := by
          rw [← Option.not_isSome, present]
          rfl
        simp [step, taken]
      · simp [step, absent, good]
      · simp [step, absent, bad]

end Second

section Third

theorem eraseAt_deletes : Deletes eraseAt := by
  intro done rest x
  left
  simp only [eraseAt, Int.toNat_natCast]
  rw [List.eraseIdx_append_of_length_le le_rfl, Nat.sub_self, List.eraseIdx_cons_zero]

theorem sweep_keepWithdrew (withdrewCans : NodeID → Option CandidateStatus) :
    ∀ (queue : List NodeID) (removeCans : NeedRemoveCans),
      sweep (keepWithdrew (ε := ε) withdrewCans) queue removeCans =
        .ok (queue.filter fun n => (withdrewCans n).isSome,
          queue.foldl (fun (m : NeedRemoveCans) n => if (withdrewCans n).isSome
            then Function.update m n (withdrewCans n) else m) removeCans)
  | [], removeCans => rfl
  | n :: rest, removeCans => by
      cases kept : withdrewCans n with
      | none =>
          simp [sweep, keepWithdrew, kept, sweep_keepWithdrew withdrewCans rest, bind, Except.bind,
            pure, Except.pure]
      | some status =>
          have later := sweep_keepWithdrew withdrewCans rest (Function.update removeCans n (some status))
          simp only [sweep, keepWithdrew, kept, bind, Except.bind, pure, Except.pure]
          rw [later]
          simp [kept]

theorem sweepLoop_keepWithdrew (withdrewCans : NodeID → Option CandidateStatus)
    (queue : List NodeID) (removeCans : NeedRemoveCans) :
    sweepLoop eraseAt (keepWithdrew (ε := ε) withdrewCans) queue.length queue 0 removeCans =
      .ok (queue.filter fun n => (withdrewCans n).isSome,
        queue.foldl (fun (m : NeedRemoveCans) n => if (withdrewCans n).isSome
          then Function.update m n (withdrewCans n) else m) removeCans) := by
  have loop := sweepLoop_eq eraseAt_deletes (keepWithdrew (ε := ε) withdrewCans) queue [] removeCans
    queue.length le_rfl
  rw [sweep_keepWithdrew] at loop
  simpa [Except.map] using loop

end Third

end Staking
end Bubble
