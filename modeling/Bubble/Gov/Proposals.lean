import Bubble.Gov.State
import Bubble.Gov.Schedule
import Bubble.Lib.Rollback

/-!
# Submitting, voting and declaring

`Submit`, `Vote` and `DeclareVersion` of `x/gov/gov.go`, with the `Verify` of each kind of
proposal from `x/gov/proposals.go`.  Every check comes before the first write, so a call that fails
changes nothing.  What governance asks of staking (the verifiers and candidates of a block, whether a
candidate is invalid, the notifications of a declared or passed version) is `GovStaking`.
-/

namespace Bubble
namespace Gov

/-- An entry of `staking.ValidatorExQueue` as governance reads it. -/
structure VerifierEx where
  nodeId : NodeID
  stakingAddress : Address
  deriving DecidableEq, Repr

/-- An entry of `staking.CandidateBaseQueue` as governance reads it. -/
structure CandidateBase where
  nodeId : NodeID
  stakingAddress : Address
  deriving DecidableEq, Repr

/-- The `gov.Staking` interface, by block number. -/
structure GovStaking where
  /-- `GetVerifierList`: the verifiers of the epoch of the block. -/
  getVerifierList : UInt64 → List VerifierEx
  /-- `GetCanBaseList`. -/
  getCanBaseList : UInt64 → List CandidateBase
  /-- `GetCanMutable(...).IsInvalid()`, `none` when the record cannot be read. -/
  canMutableInvalid : UInt64 → NodeID → Option Bool
  /-- `NodeId2Addr` succeeds: the node ID is a public key. -/
  nodeIdValid : NodeID → Bool
  /-- `DeclarePromoteNotify` succeeds. -/
  declarePromoteNotify : UInt64 → NodeID → UInt32 → Bool
  /-- `ProposalPassedNotify` succeeds. -/
  proposalPassedNotify : UInt64 → List NodeID → UInt32 → Bool

/-- `ListVerifierNodeID`: the node IDs of the list `GetVerifierList` reads. -/
def GovStaking.listVerifierNodeID (stk : GovStaking) (blockNumber : UInt64) : List NodeID :=
  (stk.getVerifierList blockNumber).map (·.nodeId)

/-- `gov.VoteInfo`. -/
structure VoteInfo where
  proposalID : Hash
  voteNodeID : NodeID
  voteOption : VoteOption
  deriving DecidableEq, Repr

/-- `RateCoefficient`. -/
def rateCoefficient : UInt64 := 10000

/-! ## Verifying a proposal -/

section Verify

variable (cfg : GovConfig) (s : GovState)

/-- The loop of `verifyBasic` over the proposals at voting: a PIP ID one of them uses is taken. -/
def checkVotingPIPID (pipID : String) : List Hash → Except GovError Unit
  | [] => .ok ()
  | votingPID :: rest => do
      let exist ← s.getExistProposal votingPID
      if exist.pipID = pipID then throw .pipIDExist
      checkVotingPIPID pipID rest

/-- `verifyBasic`: a fresh non-zero ID, a proposer, and a PIP ID neither passed nor at voting. -/
def verifyBasic (p : Proposal) : Except GovError Unit := do
  if p.proposalID ≠ zeroHash then
    if (s.proposals p.proposalID).isSome then throw .proposalIDExist
  else throw .proposalIDEmpty
  if p.proposer = zeroNodeID then throw .proposerEmpty
  if p.pipID.isEmpty then throw .pipIDEmpty
  else if p.pipID ∈ s.pipIDs then throw .pipIDExist
  checkVotingPIPID s p.pipID s.votingProposals

/-- `FindVotingProposal`: the first proposal at voting of one of the types. -/
def findVotingProposal (proposalTypes : List ProposalType) :
    List Hash → Except GovError (Option Proposal)
  | [] => .ok none
  | proposalID :: rest => do
      let p ← s.getExistProposal proposalID
      if p.proposalType ∈ proposalTypes then pure (some p)
      else findVotingProposal proposalTypes rest

/-- `TextProposal.Verify`: it ends at the election block after the text voting duration. -/
def verifyText (submitBlock : UInt64) (p : Proposal) : Except GovError Proposal := do
  verifyBasic s p
  let endVotingBlock := cfg.calEndVotingBlock submitBlock
    (cfg.estimateConsensusRoundsForGov cfg.textProposalVoteDurationSeconds)
  if endVotingBlock ≤ submitBlock then throw .internalError
  pure { p with endVotingBlock }

/-- `VersionProposal.Verify`: a bounded voting period, a version above the active one, and no other
version or parameter proposal at voting or pre-active. -/
def verifyVersion (submitBlock : UInt64) (p : Proposal) (endVotingRounds : UInt64)
    (newVersion : UInt32) : Except GovError Proposal := do
  if endVotingRounds ≤ 0 then throw .endVotingRoundsTooSmall
  if endVotingRounds > cfg.estimateConsensusRoundsForGov cfg.versionProposalVoteDurationSeconds then
    throw .endVotingRoundsTooLarge
  verifyBasic s p
  let endVotingBlock := cfg.calEndVotingBlock submitBlock endVotingRounds
  if endVotingBlock ≤ submitBlock then throw .internalError
  let activeBlock := cfg.calActiveBlock endVotingBlock
  if newVersion ≤ 0 ∨ newVersion >>> 8 ≤ s.getCurrentActiveVersion >>> 8 then
    throw .newVersionError
  match ← findVotingProposal s [.version, .param] s.votingProposals with
  | some exist =>
      if exist.proposalType = .version then throw .votingVersionProposalExist
      else throw .votingParamProposalExist
  | none => pure ()
  if s.preActiveProposal ≠ zeroHash then throw .preActiveVersionProposalExist
  pure { p with endVotingBlock, body := .version endVotingRounds newVersion activeBlock }

/-- `CancelProposal.Verify`: no other cancel proposal at voting, and a version or parameter
proposal at voting to cancel, which ends later than this one. -/
def verifyCancel (submitBlock : UInt64) (p : Proposal) (endVotingRounds : UInt64)
    (tobeCanceled : Hash) : Except GovError Proposal := do
  verifyBasic s p
  if endVotingRounds ≤ 0 then throw .endVotingRoundsTooSmall
  let endVotingBlock := cfg.calEndVotingBlock submitBlock endVotingRounds
  if endVotingBlock ≤ submitBlock then throw .internalError
  if (← findVotingProposal s [.cancel] s.votingProposals).isSome then
    throw .votingCancelProposalExist
  match s.proposals tobeCanceled with
  | none => throw .tobeCanceledProposalNotFound
  | some target =>
      if target.proposalType ≠ .version ∧ target.proposalType ≠ .param then
        throw .tobeCanceledProposalTypeError
      else if tobeCanceled ∉ s.votingProposals then throw .tobeCanceledProposalNotAtVoting
      else if endVotingBlock ≥ target.endVotingBlock then throw .endVotingRoundsTooLarge
  pure { p with endVotingBlock }

/-- `ParamProposal.Verify`: a governable parameter, a new value its verifier accepts, and no
version or parameter proposal at voting or pre-active; it ends with the epoch after the duration. -/
def verifyParam (submitBlock : UInt64) (p : Proposal) (module name newValue : String) :
    Except GovError Proposal := do
  verifyBasic s p
  match s.findGovernParam module name with
  | none => throw .unsupportedGovernParam
  | some param => if param.value = newValue then throw .paramProposalIsSameValue
  match cfg.paramVerifier (module ++ "/" ++ name) with
  | none => throw .unsupportedGovernParam
  | some accepts => if !accepts submitBlock newValue then throw .paramValueInvalid
  match ← findVotingProposal s [.param, .version] s.votingProposals with
  | some exist =>
      if exist.proposalType = .param then throw .votingParamProposalExist
      else throw .votingVersionProposalExist
  | none => pure ()
  if s.preActiveProposal ≠ zeroHash then throw .preActiveVersionProposalExist
  let endVotingBlock :=
    cfg.estimateEndVotingBlockForParaProposal submitBlock cfg.paramProposalVoteDurationSeconds
  if endVotingBlock ≤ submitBlock then throw .internalError
  pure { p with endVotingBlock }

/-- `Verify`, by the kind of the proposal; it sets the end of voting (and a version's activation
block). -/
def Proposal.verify (submitBlock : UInt64) (p : Proposal) : Except GovError Proposal :=
  match p.body with
  | .text => verifyText cfg s submitBlock p
  | .version endVotingRounds newVersion _ =>
      verifyVersion cfg s submitBlock p endVotingRounds newVersion
  | .cancel endVotingRounds tobeCanceled => verifyCancel cfg s submitBlock p endVotingRounds tobeCanceled
  | .param module name newValue => verifyParam cfg s submitBlock p module name newValue

end Verify

/-! ## The transactions -/

section Transactions

variable (cfg : GovConfig) (stk : GovStaking)

/-- `checkVerifier`: the node is a verifier of the block, staked from the caller, and valid. -/
def checkVerifier (caller : Address) (nodeID : NodeID) (blockNumber : UInt64) :
    Except GovError Unit :=
  if !stk.nodeIdValid nodeID then .error .invalidNodeId
  else
    match (stk.getVerifierList blockNumber).find? (·.nodeId = nodeID) with
    | none => .error .txSenderIsNotVerifier
    | some verifier =>
        if verifier.stakingAddress = caller then
          match stk.canMutableInvalid blockNumber nodeID with
          | none => .error .verifierInfoNotFound
          | some true => .error .verifierStatusInvalid
          | some false => .ok ()
        else .error .txSenderDifferFromStaking

/-- `checkCandidate`: the node is a candidate staked from the caller. -/
def checkCandidate (caller : Address) (nodeID : NodeID) (blockNumber : UInt64) :
    Except GovError Unit :=
  if !stk.nodeIdValid nodeID then .error .invalidNodeId
  else
    match (stk.getCanBaseList blockNumber).find? (·.nodeId = nodeID) with
    | none => .error .txSenderIsNotCandidate
    | some candidate =>
        if candidate.stakingAddress = caller then .ok () else .error .txSenderDifferFromStaking

/-- `Submit`: store the verified proposal, put it at voting, and let the verifiers of the block
vote on it. -/
def submit (caller : Address) (proposal : Proposal) (blockNumber : UInt64) (s : GovState) :
    Except GovError GovState := do
  let proposal ← proposal.verify cfg s blockNumber
  checkVerifier stk caller proposal.proposer proposal.submitBlock
  let s := (s.setProposal proposal).addVotingProposalID proposal.proposalID
  pure (s.addAccuVerifiers proposal.proposalID (stk.listVerifierNodeID blockNumber))

/-- `Vote`.  A vote on a version proposal must be a signed yes from a node running the new version,
and also declares the node active.  (`Vote` first tests the voting list for emptiness and then for
the ID; both give `ProposalNotAtVoting`, which the membership test alone says.) -/
def vote (caller : Address) (v : VoteInfo) (blockNumber : UInt64) (programVersion : UInt32)
    (signed : Bool) (s : GovState) : Except GovError GovState := do
  if v.proposalID = zeroHash then throw .proposalIDEmpty
  let some proposal := s.proposals v.proposalID | throw .proposalNotFound
  checkVerifier stk caller v.voteNodeID blockNumber
  if proposal.proposalType = .version then
    if !signed then throw .versionSignError
    if v.voteOption ≠ .yes then throw .voteOptionError
    if proposal.newVersion ≠ programVersion then throw .verifierNotUpgraded
  if v.proposalID ∉ s.votingProposals then throw .proposalNotAtVoting
  if v.voteNodeID ∈ s.votedVerifiers v.proposalID then throw .voteDuplicated
  let s := s.addVoteValue v.proposalID v.voteNodeID v.voteOption
  if proposal.proposalType = .version then pure (s.addActiveNode v.proposalID v.voteNodeID)
  else pure s

/-- `DeclareVersion`: a candidate declares the version it runs.  It is told to staking at once when
it is the active (or pre-active) version, and kept for the version proposal at voting when it is
that proposal's new version. -/
def declareVersion (caller : Address) (declaredNodeID : NodeID) (declaredVersion : UInt32)
    (signed : Bool) (blockNumber : UInt64) (s : GovState) : Except GovError GovState := do
  if !signed then throw .versionSignError
  checkCandidate stk caller declaredNodeID blockNumber
  let activeVersion := s.getCurrentActiveVersion
  if activeVersion ≤ 0 then throw .activeVersionError
  let notify : Except GovError GovState :=
    if stk.declarePromoteNotify blockNumber declaredNodeID declaredVersion then pure s
    else throw .notifyStakingDeclaredVersionError
  match ← findVotingProposal s [.version] s.votingProposals with
  | some votingVP =>
      if declaredNodeID ∈ s.votedVerifiers votingVP.proposalID then
        if declaredVersion >>> 8 ≠ votingVP.newVersion >>> 8 then throw .declareVersionError
        pure s
      else if declaredVersion >>> 8 = activeVersion >>> 8 then notify
      else if declaredVersion >>> 8 = votingVP.newVersion >>> 8 then
        pure (s.addActiveNode votingVP.proposalID declaredNodeID)
      else throw .declareVersionError
  | none =>
      if s.preActiveVersion ≤ 0 then
        if declaredVersion >>> 8 = activeVersion >>> 8 then notify else throw .declareVersionError
      else if declaredVersion >>> 8 = s.preActiveVersion >>> 8 then notify
      else throw .declareVersionError

end Transactions

end Gov
end Bubble
