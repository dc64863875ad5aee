import Bubble.Common

/-!
# Governance storage

`x/gov` keeps a proposal in the state database under its ID, and its stage in three places of the
snapshot database: the list of proposals at voting, the single pre-active slot (with the version it
carries) and the list of ended proposals.  Per proposal it keeps the votes, the accumulated
verifiers that may vote, the nodes that declared the new version, and the tally result; chain-wide
the passed PIP IDs, the list of active versions (newest first) and the governable parameters.

The lists are RLP-encoded slices that the code reads, edits and writes back whole; a slot that was
never written reads as the empty list, the zero hash or the version `0`.  `remove` edits its slice
in place while ranging over it, as Go does: on a list without repeats it is `List.erase`
(`remove_of_nodup`).
-/

namespace Bubble
namespace Gov

/-- `gov.ProposalType`. -/
inductive ProposalType
  | text
  | version
  | param
  | cancel
  deriving DecidableEq, Repr

/-- `gov.ProposalStatus`. -/
inductive ProposalStatus
  | voting
  | pass
  | failed
  | preActive
  | active
  | canceled
  deriving DecidableEq, Repr

/-- `gov.VoteOption`.  The contract reads the option through `ParseVoteOption`, which sends every
other byte to `Abstention`, so no other value reaches `Vote`. -/
inductive VoteOption
  | yes
  | no
  | abstention
  deriving DecidableEq, Repr

/-- The fields that only one kind of proposal has: `EndVotingRounds`, `NewVersion` and
`ActiveBlock` of a `VersionProposal`, `EndVotingRounds` and `TobeCanceled` of a `CancelProposal`,
`Module`, `Name` and `NewValue` of a `ParamProposal`. -/
inductive ProposalBody
  | text
  | version (endVotingRounds : UInt64) (newVersion : UInt32) (activeBlock : UInt64)
  | cancel (endVotingRounds : UInt64) (tobeCanceled : Hash)
  | param (module name newValue : String)
  deriving DecidableEq, Repr

/-- `GetProposalType`.  The contract builds each proposal with the type of its own struct, and
`GetProposal` decodes a stored one by the type byte written after it, so the type is the kind. -/
def ProposalBody.proposalType : ProposalBody → ProposalType
  | .text => .text
  | .version .. => .version
  | .cancel .. => .cancel
  | .param .. => .param

/-- The `gov.Proposal` interface: the fields every proposal has, and its kind. -/
structure Proposal where
  proposalID : Hash
  pipID : String
  submitBlock : UInt64
  endVotingBlock : UInt64
  proposer : NodeID
  body : ProposalBody
  deriving DecidableEq, Repr

/-- `GetProposalType`. -/
def Proposal.proposalType (p : Proposal) : ProposalType :=
  p.body.proposalType

/-- `GetNewVersion` of a version proposal. -/
def Proposal.newVersion (p : Proposal) : UInt32 :=
  match p.body with
  | .version _ newVersion _ => newVersion
  | _ => 0

/-- `gov.VoteValue`. -/
structure VoteValue where
  voteNodeID : NodeID
  voteOption : VoteOption
  deriving DecidableEq, Repr

/-- `gov.TallyResult`. -/
structure TallyResult where
  proposalID : Hash
  yeas : UInt64
  nays : UInt64
  abstentions : UInt64
  accuVerifiers : UInt64
  status : ProposalStatus
  canceledBy : Hash
  deriving DecidableEq, Repr

/-- `gov.ActiveVersionValue`. -/
structure ActiveVersionValue where
  activeVersion : UInt32
  activeBlock : UInt64
  deriving DecidableEq, Repr

/-- `gov.ParamItem`. -/
structure ParamItem where
  module : String
  name : String
  desc : String
  deriving DecidableEq, Repr

/-- `gov.ParamValue`: the value from `ActiveBlock` on, and the one before. -/
structure ParamValue where
  staleValue : String
  value : String
  activeBlock : UInt64
  deriving DecidableEq, Repr

/-- `discover.ZeroNodeID`. -/
def zeroNodeID : NodeID := (0 : BitVec 512)

/-- The errors of governance: the `BizError`s of `x/gov/gov_err.go` under their Go names, then
`common.InternalError`, a node ID that is no public key (`NodeId2Addr`), the error of a parameter's
verifier, a failed notification of staking, and the `panic` of slicing past a slice's length. -/
inductive GovError
  | activeVersionError
  | voteOptionError
  | proposalTypeError
  | proposalIDEmpty
  | proposalIDExist
  | proposalNotFound
  | pipIDEmpty
  | pipIDExist
  | endVotingRoundsTooSmall
  | endVotingRoundsTooLarge
  | newVersionError
  | votingVersionProposalExist
  | preActiveVersionProposalExist
  | votingCancelProposalExist
  | tobeCanceledProposalNotFound
  | tobeCanceledProposalTypeError
  | tobeCanceledProposalNotAtVoting
  | proposerEmpty
  | verifierInfoNotFound
  | verifierStatusInvalid
  | txSenderDifferFromStaking
  | txSenderIsNotVerifier
  | txSenderIsNotCandidate
  | versionSignError
  | verifierNotUpgraded
  | proposalNotAtVoting
  | voteDuplicated
  | declareVersionError
  | notifyStakingDeclaredVersionError
  | unsupportedGovernParam
  | votingParamProposalExist
  | paramProposalIsSameValue
  | internalError
  | invalidNodeId
  | paramValueInvalid
  | stakingNotifyFailed
  | panic
  deriving DecidableEq, Repr

/-- What governance keeps: the proposals and tally results in the state database under
`GovContractAddr`, the stage lists, votes and node lists in the snapshot database. -/
structure GovState where
  /-- `KeyProposal(id)`. -/
  proposals : Hash → Option Proposal
  /-- `KeyVotingProposals()`. -/
  votingProposals : List Hash
  /-- `KeyPreActiveProposal()`, the zero hash when empty. -/
  preActiveProposal : Hash
  /-- `KeyPreActiveVersion()`, `0` when empty. -/
  preActiveVersion : UInt32
  /-- `KeyEndProposals()`. -/
  endProposals : List Hash
  /-- `KeyVote(id)`. -/
  votes : Hash → List VoteValue
  /-- `KeyAccuVerifier(id)`. -/
  accuVerifiers : Hash → List NodeID
  /-- `KeyActiveNodes(id)`. -/
  activeNodes : Hash → List NodeID
  /-- `KeyTallyResult(id)`. -/
  tallyResults : Hash → Option TallyResult
  /-- `KeyPIPIDs()`: the PIP IDs of passed proposals. -/
  pipIDs : List String
  /-- `KeyActiveVersions()`, newest first. -/
  activeVersions : List ActiveVersionValue
  /-- `KeyParamItems()`. -/
  paramItems : List ParamItem
  /-- `KeyParamValue(module, name)`. -/
  paramValues : String → String → Option ParamValue

/-! ## Slices edited in place -/

section Slices

variable {α : Type}

theorem getElem?_shifted {list : List α} {k i : ℕ} (below : k < list.length) (after : k < i) :
    (list.take k ++ (list.drop (k + 1)).take (list.length - 1 - k) ++ list.drop (list.length - 1))[i]? =
      if i + 1 < list.length then list[i + 1]? else list[i]? := by
  have front : (list.take k ++ (list.drop (k + 1)).take (list.length - 1 - k)).length =
      list.length - 1 := by
    simp only [List.length_append, List.length_take, List.length_drop]
    omega
  split_ifs with inside
  · rw [List.getElem?_append_left (by omega), List.getElem?_append_right (by simp; omega),
      List.getElem?_take_of_lt (by simp; omega), List.getElem?_drop]
    congr 1
    simp only [List.length_take]
    omega
  · rw [List.getElem?_append_right (by omega), List.getElem?_drop, front]
    congr 1
    omega

variable [DecidableEq α]

/-- One turn of the `range` loop of `remove`.  The state is the backing array the loop reads and
the length of `list`, `0` once `list` is a fresh empty slice; `none` is the `panic` of `list[i+1:]`
when `i` is past the length.  `append(list[:i], list[i+1:]...)` shifts the rest of `list` one place
down in the backing array, which the later turns then read. -/
def removeTurn (item : α) (state : Option (List α × ℕ)) (i : ℕ) : Option (List α × ℕ) :=
  match state with
  | none => none
  | some (arr, len) =>
      if arr[i]? = some item then
        if 1 < len then
          if i + 1 ≤ len then
            some (arr.take i ++ (arr.drop (i + 1)).take (len - 1 - i) ++ arr.drop (len - 1), len - 1)
          else none
        else some (arr, 0)
      else some (arr, len)

/-- `remove`: delete `item` from `list`, ranging over the slice while it shrinks. -/
def remove (list : List α) (item : α) : Option (List α) :=
  if list.length = 0 then some list
  else ((List.range list.length).foldl (removeTurn item) (some (list, list.length))).map
    fun turned => turned.1.take turned.2

/-- `addProposalByKey`: append an ID that the list does not hold yet. -/
def addProposalByKey (list : List α) (proposalId : α) : List α :=
  if proposalId ∈ list then list else list ++ [proposalId]

theorem mem_addProposalByKey {list : List α} {proposalId x : α} :
    x ∈ addProposalByKey list proposalId ↔ x ∈ list ∨ x = proposalId := by
  unfold addProposalByKey
  split_ifs with present
  · constructor
    · exact Or.inl
    · rintro (member | rfl)
      · exact member
      · exact present
  · simp

theorem nodup_addProposalByKey {list : List α} (distinct : list.Nodup) (proposalId : α) :
    (addProposalByKey list proposalId).Nodup := by
  unfold addProposalByKey
  split_ifs with present
  · exact distinct
  · exact distinct.append (List.nodup_singleton _) (by simpa using present)

theorem removeTurn_skip {item : α} {arr : List α} {len i : ℕ} (other : arr[i]? ≠ some item) :
    removeTurn item (some (arr, len)) i = some (arr, len) := by
  simp [removeTurn, other]

theorem foldl_removeTurn_skip {item : α} {arr : List α} {len : ℕ} :
    ∀ {is : List ℕ}, (∀ i ∈ is, arr[i]? ≠ some item) →
      is.foldl (removeTurn item) (some (arr, len)) = some (arr, len)
  | [], _ => rfl
  | i :: rest, others => by
      rw [List.foldl_cons, removeTurn_skip (others i List.mem_cons_self)]
      exact foldl_removeTurn_skip fun j member => others j (List.mem_cons_of_mem i member)

/-- On a slice without repeats, `remove` deletes the item, if there, and does not panic. -/
theorem remove_of_nodup {list : List α} (distinct : list.Nodup) (item : α) :
    remove list item = some (list.erase item) := by
  unfold remove
  split_ifs with empty
  · rw [List.length_eq_zero_iff.mp empty]
    rfl
  by_cases member : item ∈ list
  swap
  · -- no turn finds the item
    rw [foldl_removeTurn_skip fun i _ found => member (List.mem_of_getElem? found),
      List.erase_of_not_mem member]
    simp
  obtain ⟨k, below, rfl⟩ := List.getElem_of_mem member
  have only : ∀ {i : ℕ}, list[i]? = some list[k] → i = k := fun {i} found => by
    obtain ⟨inside, same⟩ := List.getElem?_eq_some_iff.mp found
    exact (distinct.getElem_inj_iff).mp same
  have split : List.range list.length =
      List.range' 0 k ++ k :: List.range' (k + 1) (list.length - 1 - k) := by
    have joined := @List.range'_append 0 k (list.length - 1 - k + 1) 1
    rw [List.range'_succ] at joined
    simp only [Nat.zero_add, Nat.one_mul] at joined
    rw [joined, List.range_eq_range']
    congr 1
    omega
  have before : ∀ i ∈ List.range' 0 k, list[i]? ≠ some list[k] := fun i inside found => by
    have := only found
    simp only [List.mem_range', Nat.zero_add, Nat.one_mul] at inside
    omega
  rw [split, List.foldl_append, foldl_removeTurn_skip before, List.foldl_cons]
  simp only [removeTurn, List.getElem?_eq_getElem below, if_true]
  split_ifs with several fits
  · have after : ∀ i ∈ List.range' (k + 1) (list.length - 1 - k),
        (list.take k ++ (list.drop (k + 1)).take (list.length - 1 - k) ++
          list.drop (list.length - 1))[i]? ≠ some list[k] := fun i inside found => by
      simp only [List.mem_range', Nat.one_mul] at inside
      rw [getElem?_shifted below (by omega)] at found
      split_ifs at found
      · have := only found
        omega
      · have := only found
        omega
    have whole : (list.drop (k + 1)).take (list.length - 1 - k) = list.drop (k + 1) :=
      List.take_of_length_le (by simp only [List.length_drop]; omega)
    have front : (list.take k ++ list.drop (k + 1)).length = list.length - 1 := by
      simp only [List.length_append, List.length_take, List.length_drop]
      omega
    rw [foldl_removeTurn_skip after, distinct.erase_getElem, List.eraseIdx_eq_take_drop_succ, whole,
      Option.map_some, List.take_append_of_le_length (by omega), List.take_of_length_le (by omega)]
  · omega
  · have single : list.length = 1 := by omega
    have first : k = 0 := by omega
    subst first
    rw [single]
    simp only [Nat.sub_self, List.range'_zero, List.foldl_nil, Option.map_some, List.take_zero]
    rw [distinct.erase_getElem, List.eraseIdx_eq_take_drop_succ, List.take_zero, List.nil_append,
      List.drop_eq_nil_of_le (by omega)]

end Slices

namespace GovState

/-- `GetExistProposal`. -/
def getExistProposal (s : GovState) (proposalID : Hash) : Except GovError Proposal :=
  match s.proposals proposalID with
  | some p => .ok p
  | none => .error .proposalNotFound

theorem getExistProposal_eq_ok {s : GovState} {proposalID : Hash} {p : Proposal} :
    s.getExistProposal proposalID = .ok p ↔ s.proposals proposalID = some p := by
  unfold getExistProposal
  split <;> simp_all

/-- `GetCurrentActiveVersion`: the newest active version, `0` when there is none. -/
def getCurrentActiveVersion (s : GovState) : UInt32 :=
  match s.activeVersions with
  | [] => 0
  | av :: _ => av.activeVersion

/-- `GetVotedVerifierMap`, as the list of voters. -/
def votedVerifiers (s : GovState) (proposalID : Hash) : List NodeID :=
  (s.votes proposalID).map (·.voteNodeID)

/-- `TallyVoteValue`: the yeas, nays and abstentions, each counted up by one `uint64`. -/
def tallyVoteValue (s : GovState) (proposalID : Hash) : UInt64 × UInt64 × UInt64 :=
  (UInt64.ofNat ((s.votes proposalID).countP (·.voteOption = .yes)),
    UInt64.ofNat ((s.votes proposalID).countP (·.voteOption = .no)),
    UInt64.ofNat ((s.votes proposalID).countP (·.voteOption = .abstention)))

/-- `FindGovernParam`: the value of a parameter listed under its module and name. -/
def findGovernParam (s : GovState) (module name : String) : Option ParamValue :=
  if s.paramItems.any fun item => item.module = module ∧ item.name = name
  then s.paramValues module name else none

/-- `SetProposal`. -/
@[simp]
def setProposal (s : GovState) (p : Proposal) : GovState :=
  { s with proposals := Function.update s.proposals p.proposalID (some p) }

/-- `AddVotingProposalID`. -/
@[simp]
def addVotingProposalID (s : GovState) (proposalID : Hash) : GovState :=
  { s with votingProposals := addProposalByKey s.votingProposals proposalID }

/-- `AccuVerifiers`: append the verifiers not accumulated before.  Only the old list is looked up,
so a node that `verifierList` holds twice is appended twice. -/
@[simp]
def addAccuVerifiers (s : GovState) (proposalID : Hash) (verifierList : List NodeID) : GovState :=
  let accu := s.accuVerifiers proposalID
  { s with accuVerifiers :=
      Function.update s.accuVerifiers proposalID (accu ++ verifierList.filter fun n => n ∉ accu) }

/-- `ClearAccuVerifiers`. -/
@[simp]
def clearAccuVerifiers (s : GovState) (proposalID : Hash) : GovState :=
  { s with accuVerifiers := Function.update s.accuVerifiers proposalID [] }

/-- `AddVoteValue`. -/
@[simp]
def addVoteValue (s : GovState) (proposalID : Hash) (voter : NodeID) (option : VoteOption) :
    GovState :=
  { s with votes := Function.update s.votes proposalID (s.votes proposalID ++ [⟨voter, option⟩]) }

/-- `UpdateVoteValue`. -/
@[simp]
def updateVoteValue (s : GovState) (proposalID : Hash) (voteValueList : List VoteValue) :
    GovState :=
  { s with votes := Function.update s.votes proposalID voteValueList }

/-- `ClearVoteValue`. -/
@[simp]
def clearVoteValue (s : GovState) (proposalID : Hash) : GovState :=
  { s with votes := Function.update s.votes proposalID [] }

/-- `AddActiveNode`: append a node not listed yet. -/
@[simp]
def addActiveNode (s : GovState) (proposalID : Hash) (nodeID : NodeID) : GovState :=
  let nodes := s.activeNodes proposalID
  { s with activeNodes :=
      Function.update s.activeNodes proposalID (if nodeID ∈ nodes then nodes else nodes ++ [nodeID]) }

/-- `ClearActiveNodes`. -/
@[simp]
def clearActiveNodes (s : GovState) (proposalID : Hash) : GovState :=
  { s with activeNodes := Function.update s.activeNodes proposalID [] }

/-- `SetTallyResult`. -/
@[simp]
def setTallyResult (s : GovState) (tallyResult : TallyResult) : GovState :=
  { s with tallyResults := Function.update s.tallyResults tallyResult.proposalID (some tallyResult) }

/-- `AddPIPID`. -/
@[simp]
def addPIPID (s : GovState) (pipID : String) : GovState :=
  { s with pipIDs := s.pipIDs ++ [pipID] }

/-- `AddActiveVersion`: the new version goes to the head of the list. -/
@[simp]
def addActiveVersion (s : GovState) (activeVersion : UInt32) (activeBlock : UInt64) : GovState :=
  { s with activeVersions := ⟨activeVersion, activeBlock⟩ :: s.activeVersions }

/-- `MoveVotingProposalIDToEnd`. -/
def moveVotingProposalIDToEnd (s : GovState) (proposalID : Hash) : Except GovError GovState :=
  match remove s.votingProposals proposalID with
  | none => .error .panic
  | some voting =>
      .ok { s with votingProposals := voting
                   endProposals := addProposalByKey s.endProposals proposalID }

/-- `MoveVotingProposalIDToPreActive`, with the `SetPreActiveVersion` it makes. -/
def moveVotingProposalIDToPreActive (s : GovState) (proposalID : Hash) (preactiveVersion : UInt32) :
    Except GovError GovState :=
  match remove s.votingProposals proposalID with
  | none => .error .panic
  | some voting =>
      .ok { s with votingProposals := voting
                   preActiveProposal := proposalID
                   preActiveVersion := preactiveVersion }

/-- `MovePreActiveProposalIDToEnd`: the slot is emptied, the ID ends, the version is deleted. -/
@[simp]
def movePreActiveProposalIDToEnd (s : GovState) (proposalID : Hash) : GovState :=
  { s with preActiveProposal := zeroHash
           endProposals := addProposalByKey s.endProposals proposalID
           preActiveVersion := 0 }

/-- `updateGovernParamValue`: the old value becomes the stale one. -/
def updateGovernParamValue (s : GovState) (module name newValue : String) (activeBlock : UInt64) :
    Except GovError GovState :=
  match s.paramValues module name with
  | none => .error .unsupportedGovernParam
  | some paramValue =>
      let updated := Function.update (s.paramValues module) name
        (some ⟨paramValue.value, newValue, activeBlock⟩)
      .ok { s with paramValues := Function.update s.paramValues module updated }

end GovState

end Gov
end Bubble
