import Bubble.Gov.Proposals

/-!
# The governance plugin

`BeginBlock` and `EndBlock` of `x/plugin/gov_plugin.go`, with the tallies, and the two calls other
modules make into governance: `NotifyPunishedVerifiers` from staking's slashing, and
`ClearProcessingProposals`.  At the first block of a round `BeginBlock` lets the verifiers of a new
epoch vote on every proposal at voting, and activates the pre-active version at its activation
block; `EndBlock` tallies each proposal at voting whose voting ends at the block.

The tallies count in `uint64` as the code does.  Writes outside governance's own storage (the
parameter `UnDelegateFreezeDuration` and the economic-model hash written at an activation) and the
check that the node's own software is new enough are not modelled.
-/

namespace Bubble
namespace Gov

section Tally

variable (cfg : GovConfig) (stk : GovStaking)

/-- The status `tally` gives a proposal of the type from its vote and support rates. -/
def tallyStatus (proposalType : ProposalType) (voteRate supportRate : UInt64) : ProposalStatus :=
  match proposalType with
  | .text =>
      if voteRate > cfg.textProposalVoteRate ∧ supportRate ≥ cfg.textProposalSupportRate
      then .pass else .failed
  | .cancel =>
      if voteRate > cfg.cancelProposalVoteRate ∧ supportRate ≥ cfg.cancelProposalSupportRate
      then .pass else .failed
  | .param =>
      if voteRate > cfg.paramProposalVoteRate ∧ supportRate ≥ cfg.paramProposalSupportRate
      then .pass else .failed
  | .version => .voting

/-- `tally` of a text, cancel or parameter proposal: record the counts against the accumulated
verifiers, end the proposal, and keep its PIP ID if it passed.  The result says whether it passed. -/
def tally (proposalType : ProposalType) (proposalID : Hash) (pipID : String) (s : GovState) :
    Except GovError (Bool × GovState) := do
  let verifiersCnt := UInt64.ofNat (s.accuVerifiers proposalID).length
  let (yeas, nays, abstentions) := s.tallyVoteValue proposalID
  let voted := yeas + nays + abstentions
  let (voteRate, supportRate) :=
    if voted > 0 ∧ verifiersCnt > 0 then
      (voted * rateCoefficient / verifiersCnt, yeas * rateCoefficient / voted)
    else (0, 0)
  let status := tallyStatus cfg proposalType voteRate supportRate
  let s := s.setTallyResult ⟨proposalID, yeas, nays, abstentions, verifiersCnt, status, zeroHash⟩
  let s ← s.moveVotingProposalIDToEnd proposalID
  pure (status = .pass, if status = .pass then s.addPIPID pipID else s)

/-- `tallyVersion`: the votes are all yeas; with enough support the proposal becomes pre-active and
staking learns the nodes that run the new version, otherwise it ends. -/
def tallyVersion (proposal : Proposal) (newVersion : UInt32) (blockNumber : UInt64)
    (s : GovState) : Except GovError GovState := do
  let proposalID := proposal.proposalID
  let verifiersCnt := UInt64.ofNat (s.accuVerifiers proposalID).length
  let yeas := UInt64.ofNat (s.votes proposalID).length
  let supportRate := if verifiersCnt > 0 then yeas * rateCoefficient / verifiersCnt else 0
  let (status, s) ← if supportRate ≥ cfg.versionProposalSupportRate then do
      let s ← (s.addPIPID proposal.pipID).moveVotingProposalIDToPreActive proposalID newVersion
      if !stk.proposalPassedNotify blockNumber (s.activeNodes proposalID) newVersion then
        throw .stakingNotifyFailed
      pure (ProposalStatus.preActive, s)
    else do
      let s ← s.moveVotingProposalIDToEnd proposalID
      pure (ProposalStatus.failed, s.clearActiveNodes proposalID)
  pure (s.setTallyResult ⟨proposalID, yeas, 0, 0, verifiersCnt, status, zeroHash⟩)

/-- `tallyCancel`: tally the cancel proposal; if it passed, end the proposal it cancels, recording
that proposal's votes and its canceller.  The code clears the canceled proposal's active nodes only
when `cp.ProposalType == Version`, which a cancel proposal never is. -/
def tallyCancel (proposal : Proposal) (tobeCanceled : Hash) (s : GovState) :
    Except GovError (Bool × GovState) := do
  let (pass, s) ← tally cfg .cancel proposal.proposalID proposal.pipID s
  if !pass then return (true, s)
  let target ← s.getExistProposal tobeCanceled
  if target.proposalType ≠ .version ∧ target.proposalType ≠ .param then
    throw .tobeCanceledProposalTypeError
  if tobeCanceled ∉ s.votingProposals then throw .tobeCanceledProposalNotAtVoting
  let verifiersCnt := UInt64.ofNat (s.accuVerifiers tobeCanceled).length
  let yeas := UInt64.ofNat (s.votes tobeCanceled).length
  let tallyResult ← match s.tallyResults tobeCanceled with
    | none => pure (⟨tobeCanceled, 0, 0, 0, 0, .canceled, zeroHash⟩ : TallyResult)
    -- a result not at voting ends the tally without an error
    | some tallyResult => if tallyResult.status ≠ .voting then return (false, s) else pure tallyResult
  let s := s.setTallyResult { tallyResult with
    yeas := yeas, accuVerifiers := verifiersCnt, status := .canceled, canceledBy := proposal.proposalID }
  let s ← s.moveVotingProposalIDToEnd tobeCanceled
  pure (true, s)

/-- `tallyParam`: a passed parameter proposal sets the new value from the next block on. -/
def tallyParam (proposal : Proposal) (module name newValue : String) (blockNumber : UInt64)
    (s : GovState) : Except GovError (Bool × GovState) := do
  let (pass, s) ← tally cfg .param proposal.proposalID proposal.pipID s
  if pass then
    let s ← s.updateGovernParamValue module name newValue (blockNumber + 1)
    pure (true, s)
  else pure (true, s)

end Tally

section Blocks

variable (cfg : GovConfig) (stk : GovStaking)

/-- `accuVerifiersAtBeginOfSettlement`: the verifiers of the new epoch may vote on every proposal at
voting. -/
def accuVerifiersAtBeginOfSettlement (blockNumber : UInt64) (s : GovState) : GovState :=
  if s.votingProposals.isEmpty then s
  else
    s.votingProposals.foldl
      (fun s votingProposalID => s.addAccuVerifiers votingProposalID (stk.listVerifierNodeID blockNumber)) s

/-- `BeginBlock`: at the first block of a round, accumulate verifiers at the start of an epoch, and
activate the pre-active version proposal at its activation block.  Without a tally result the
activation returns the nil error of the lookup, and nothing more happens. -/
def beginBlock (blockNumber : UInt64) (s : GovState) : Except GovError GovState := do
  if !cfg.isBeginOfConsensus blockNumber then return s
  let s := if cfg.isBeginOfEpoch blockNumber then accuVerifiersAtBeginOfSettlement stk blockNumber s
    else s
  let preActiveVersionProposalID := s.preActiveProposal
  if preActiveVersionProposalID = zeroHash then return s
  let proposal ← s.getExistProposal preActiveVersionProposalID
  match proposal.body with
  | .version _ newVersion activeBlock =>
      if blockNumber = activeBlock then
        match s.tallyResults preActiveVersionProposalID with
        | none => pure s
        | some tallyResult =>
            let s := s.setTallyResult { tallyResult with status := .active }
            let s := (s.movePreActiveProposalIDToEnd preActiveVersionProposalID).clearActiveNodes
              preActiveVersionProposalID
            pure (s.addActiveVersion newVersion blockNumber)
      else pure s
  | _ => pure s

/-- One turn of the loop of `EndBlock`: tally the proposal if its voting ends at the block and the
block is of its kind; a proposal ending at a block of the other kind is `ProposalTypeError`. -/
def endBlockTurn (blockNumber : UInt64) (isElection isEndOfEpoch : Bool) (s : GovState)
    (votingProposal : Proposal) : Except GovError GovState :=
  if votingProposal.endVotingBlock = blockNumber then
    match votingProposal.body with
    | .text => if isElection then Prod.snd <$> tally cfg .text votingProposal.proposalID votingProposal.pipID s
        else throw .proposalTypeError
    | .version _ newVersion _ => if isElection then tallyVersion cfg stk votingProposal newVersion blockNumber s
        else throw .proposalTypeError
    | .cancel _ tobeCanceled => if isElection then Prod.snd <$> tallyCancel cfg votingProposal tobeCanceled s
        else throw .proposalTypeError
    | .param module name newValue =>
        if isEndOfEpoch then Prod.snd <$> tallyParam cfg votingProposal module name newValue blockNumber s
        else throw .proposalTypeError
  else pure s

/-- The loop of `EndBlock` over the proposals at voting when the block began. -/
def endBlockLoop (blockNumber : UInt64) (isElection isEndOfEpoch : Bool) :
    List Hash → GovState → Except GovError GovState
  | [], s => pure s
  | votingProposalID :: rest, s => do
      let votingProposal ← s.getExistProposal votingProposalID
      let s ← endBlockTurn cfg stk blockNumber isElection isEndOfEpoch s votingProposal
      endBlockLoop blockNumber isElection isEndOfEpoch rest s

/-- `EndBlock`: at an election block or the last block of an epoch, tally the proposals whose voting
ends there.  A block that is both is taken as an election block. -/
def endBlock (blockNumber : UInt64) (s : GovState) : Except GovError GovState :=
  let isElection := cfg.isElection blockNumber
  let isEndOfEpoch := !isElection && cfg.isEndOfEpoch blockNumber
  if !isElection && !isEndOfEpoch then pure s
  else if s.votingProposals.isEmpty then pure s
  else endBlockLoop cfg stk blockNumber isElection isEndOfEpoch s.votingProposals s

end Blocks

/-- `NotifyPunishedVerifiers`: the votes of punished verifiers on proposals at voting are dropped. -/
def notifyPunishedVerifiers (punished : List NodeID) (s : GovState) : GovState :=
  if punished.isEmpty then s
  else
    s.votingProposals.foldl (fun s proposalID =>
      let kept := (s.votes proposalID).filter fun v => v.voteNodeID ∉ punished
      if kept.length < (s.votes proposalID).length then s.updateVoteValue proposalID kept else s) s

/-- `clearProcessingProposal`: end a proposal at voting (or the pre-active one) as failed, with no
votes and no verifiers left. -/
def clearProcessingProposal (proposalID : Hash) (isVoting : Bool) (s : GovState) :
    Except GovError GovState := do
  let s ← if isVoting then s.moveVotingProposalIDToEnd proposalID
    else pure (s.movePreActiveProposalIDToEnd proposalID)
  let s := (s.clearVoteValue proposalID).clearAccuVerifiers proposalID
  pure (s.setTallyResult ⟨proposalID, 0, 0, 0, 0, .failed, zeroHash⟩)

/-- The loop of `ClearProcessingProposals` over the proposals at voting. -/
def clearVotingLoop : List Hash → GovState → Except GovError GovState
  | [], s => pure s
  | votingID :: rest, s => do
      let s ← clearProcessingProposal votingID true s
      clearVotingLoop rest s

/-- `ClearProcessingProposals`: every proposal at voting and the pre-active one end as failed. -/
def clearProcessingProposals (s : GovState) : Except GovError GovState := do
  let s ← clearVotingLoop s.votingProposals s
  if s.preActiveProposal ≠ zeroHash then clearProcessingProposal s.preActiveProposal false s
  else pure s

end Gov
end Bubble
