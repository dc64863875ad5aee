import Bubble.Gov.Proposals
import Bubble.Gov.Stages

/-!
# What the transactions do to the stages

`Submit` stores a proposal that `Verify` admits and puts it at voting: the stages `enter` it.
`Vote` and `DeclareVersion` leave the stages alone; a vote is cast by a verifier of the block, on a
proposal at voting, by a node that has not voted on it.
-/

namespace Bubble
namespace Gov

open Rollback

variable {cfg : GovConfig} {s : GovState}

/-! ## `Verify` admits what it returns -/

/-- Where `Verify` puts the end of voting of a proposal submitted at `submitBlock`. -/
def GovConfig.endVotingBlockOf (cfg : GovConfig) (submitBlock : UInt64) : ProposalBody → UInt64
  | .text => cfg.calEndVotingBlock submitBlock
      (cfg.estimateConsensusRoundsForGov cfg.textProposalVoteDurationSeconds)
  | .version endVotingRounds _ _ => cfg.calEndVotingBlock submitBlock endVotingRounds
  | .cancel endVotingRounds _ => cfg.calEndVotingBlock submitBlock endVotingRounds
  | .param _ _ _ =>
      cfg.estimateEndVotingBlockForParaProposal submitBlock cfg.paramProposalVoteDurationSeconds

/-- What `Verify` of `p` at block `submitBlock` returns: a proposal the stages admit, under the same
ID and of the same kind, whose voting ends after the block, where `endVotingBlockOf` says. -/
structure Verified (cfg : GovConfig) (s : GovState) (submitBlock : UInt64) (p p' : Proposal) :
    Prop where
  admits : s.stages.Admits p'
  keyed : p'.proposalID = p.proposalID
  kind : p'.proposalType = p.proposalType
  ends : p'.endVotingBlock = cfg.endVotingBlockOf submitBlock p.body
  after : submitBlock < p'.endVotingBlock

section Verify

variable {p p' : Proposal} {submitBlock : UInt64}

theorem verifyBasic_fresh {u : Unit} (basic : verifyBasic s p = .ok u) :
    p.proposalID ≠ zeroHash ∧ s.proposals p.proposalID = none := by
  unfold verifyBasic at basic
  by_cases nonzero : p.proposalID ≠ zeroHash
  · by_cases taken : (s.proposals p.proposalID).isSome
    · simp [nonzero, taken, throw_bind_eq_ok] at basic
    · exact ⟨nonzero, by simpa using taken⟩
  · simp [nonzero, throw_bind_eq_ok] at basic

theorem findVotingProposal_none {kinds : List ProposalType} :
    ∀ {ids : List Hash}, findVotingProposal s kinds ids = .ok none →
      ∀ id ∈ ids, ∃ q, s.proposals id = some q ∧ q.proposalType ∉ kinds
  | [], _, id, member => absurd member List.not_mem_nil
  | first :: rest, found, id, member => by
      unfold findVotingProposal at found
      obtain ⟨q, stored, found⟩ := bind_eq_ok.mp found
      by_cases kind : q.proposalType ∈ kinds
      · simp [kind, pure, Except.pure] at found
      · simp only [kind, if_false] at found
        rcases List.mem_cons.mp member with rfl | later
        · exact ⟨q, GovState.getExistProposal_eq_ok.mp stored, kind⟩
        · exact findVotingProposal_none found id later

theorem alone_of_none {kinds : List ProposalType}
    (none : findVotingProposal s kinds s.votingProposals = .ok none)
    (same : ∀ k, k ∈ kinds ↔ k ∈ [ProposalType.version, .param])
    (empty : s.preActiveProposal = zeroHash) :
    ∀ id, s.stages.Processing id → ¬ s.stages.KindIn id [.version, .param] := by
  rintro id (voting | ⟨occupied, rfl⟩) ⟨q, stored, kind⟩
  · obtain ⟨r, found, other⟩ := findVotingProposal_none none id voting
    rw [GovState.stages_proposals, found, Option.some_inj] at stored
    exact other ((same _).mpr (stored ▸ kind))
  · exact occupied empty

theorem verifyText_admits (verified : verifyText cfg s submitBlock p = .ok p') (text : p.body = .text) :
    Verified cfg s submitBlock p p' := by
  unfold verifyText at verified
  obtain ⟨u, basic, verified⟩ := bind_eq_ok.mp verified
  obtain ⟨nonzero, fresh⟩ := verifyBasic_fresh basic
  by_cases late : cfg.calEndVotingBlock submitBlock
      (cfg.estimateConsensusRoundsForGov cfg.textProposalVoteDurationSeconds) ≤ submitBlock
  · simp [late, map_throw_eq_ok] at verified
  simp only [late, if_false, pure, Except.pure, Except.ok.injEq] at verified
  subst verified
  refine ⟨⟨nonzero, fresh, ?_, ?_, ?_, ?_⟩, rfl, rfl, by rw [text]; rfl, UInt64.not_le.mp late⟩
  · intro version
    simp [Proposal.proposalType, ProposalBody.proposalType, text] at version
  · intro cancel
    simp [Proposal.proposalType, ProposalBody.proposalType, text] at cancel
  · intro version
    simp [Proposal.proposalType, ProposalBody.proposalType, text] at version
  · intro rounds target cancel
    simp [text] at cancel

theorem verifyVersion_admits {endVotingRounds : UInt64} {newVersion : UInt32} {activeBlock : UInt64}
    (verified : verifyVersion cfg s submitBlock p endVotingRounds newVersion = .ok p')
    (version : p.body = .version endVotingRounds newVersion activeBlock) :
    Verified cfg s submitBlock p p' := by
  unfold verifyVersion at verified
  by_cases small : endVotingRounds ≤ 0
  · simp only [if_pos small, throw_bind_eq_ok] at verified
  by_cases large : endVotingRounds >
      cfg.estimateConsensusRoundsForGov cfg.versionProposalVoteDurationSeconds
  · simp only [if_neg small, if_pos large, throw_bind_eq_ok] at verified
  simp only [if_neg small, if_neg large] at verified
  obtain ⟨u, basic, verified⟩ := bind_eq_ok.mp verified
  obtain ⟨nonzero, fresh⟩ := verifyBasic_fresh basic
  by_cases late : cfg.calEndVotingBlock submitBlock endVotingRounds ≤ submitBlock
  · simp only [if_pos late, throw_bind_eq_ok] at verified
  by_cases older : newVersion ≤ 0 ∨ newVersion >>> 8 ≤ s.getCurrentActiveVersion >>> 8
  · simp only [if_neg late, if_pos older, throw_bind_eq_ok] at verified
  simp only [if_neg late, if_neg older] at verified
  obtain ⟨exist, none, verified⟩ := bind_eq_ok.mp verified
  cases exist with
  | some q =>
    dsimp only at verified
    split at verified <;> simp only [throw_bind_eq_ok] at verified
  | none =>
      by_cases occupied : s.preActiveProposal ≠ zeroHash
      · simp only [if_pos occupied, throw_bind_eq_ok] at verified
      simp only [if_neg occupied, pure, Except.pure, bind, Except.bind, Except.ok.injEq] at verified
      subst verified
      have empty : s.preActiveProposal = zeroHash := not_not.mp occupied
      refine ⟨⟨nonzero, fresh, fun _ => alone_of_none none (fun _ => Iff.rfl) empty, ?_, ?_, ?_⟩, rfl,
        by simp only [Proposal.proposalType, version, ProposalBody.proposalType],
        by rw [version]; rfl, UInt64.not_le.mp late⟩
      · intro cancel
        cases cancel
      · intro _
        exact UInt32.not_le.mp fun below => older (Or.inr below)
      · intro rounds target cancel
        cases cancel

theorem verifyCancel_admits {endVotingRounds : UInt64} {tobeCanceled : Hash}
    (verified : verifyCancel cfg s submitBlock p endVotingRounds tobeCanceled = .ok p')
    (cancel : p.body = .cancel endVotingRounds tobeCanceled) :
    Verified cfg s submitBlock p p' := by
  unfold verifyCancel at verified
  obtain ⟨u, basic, verified⟩ := bind_eq_ok.mp verified
  obtain ⟨nonzero, fresh⟩ := verifyBasic_fresh basic
  by_cases small : endVotingRounds ≤ 0
  · simp only [if_pos small, throw_bind_eq_ok] at verified
  by_cases late : cfg.calEndVotingBlock submitBlock endVotingRounds ≤ submitBlock
  · simp only [if_neg small, if_pos late, throw_bind_eq_ok] at verified
  simp only [if_neg small, if_neg late] at verified
  obtain ⟨exist, none, verified⟩ := bind_eq_ok.mp verified
  cases exist with
  | some q => simp only [Option.isSome_some, if_true, throw_bind_eq_ok] at verified
  | none =>
      simp only [Option.isSome_none, Bool.false_eq_true, if_false] at verified
      cases stored : s.proposals tobeCanceled with
      | none => simp only [stored, throw_bind_eq_ok] at verified
      | some target =>
          simp only [stored] at verified
          by_cases kind : target.proposalType ≠ .version ∧ target.proposalType ≠ .param
          · simp only [if_pos kind, throw_bind_eq_ok] at verified
          by_cases notVoting : tobeCanceled ∉ s.votingProposals
          · simp only [if_neg kind, if_pos notVoting, throw_bind_eq_ok] at verified
          by_cases after : cfg.calEndVotingBlock submitBlock endVotingRounds ≥ target.endVotingBlock
          · simp only [if_neg kind, if_neg notVoting, if_pos after, throw_bind_eq_ok] at verified
          simp only [if_neg kind, if_neg notVoting, if_neg after, pure, Except.pure, bind,
            Except.bind, Except.ok.injEq] at verified
          subst verified
          refine ⟨⟨nonzero, fresh, ?_, ?_, ?_, ?_⟩, rfl, rfl, by rw [cancel]; rfl, UInt64.not_le.mp late⟩
          · intro version
            simp [Proposal.proposalType, ProposalBody.proposalType, cancel] at version
          · intro _ id voting ⟨q, found, kindQ⟩
            obtain ⟨r, found', other⟩ := findVotingProposal_none none id voting
            rw [GovState.stages_proposals, found', Option.some_inj] at found
            exact other (found ▸ kindQ)
          · intro version
            simp [Proposal.proposalType, ProposalBody.proposalType, cancel] at version
          · intro rounds target' same
            rw [cancel, ProposalBody.cancel.injEq] at same
            obtain ⟨-, rfl⟩ := same
            exact ⟨target, stored, UInt64.not_le.mp after⟩

theorem verifyParam_admits {module name newValue : String}
    (verified : verifyParam cfg s submitBlock p module name newValue = .ok p')
    (isParam : p.body = .param module name newValue) :
    Verified cfg s submitBlock p p' := by
  unfold verifyParam at verified
  obtain ⟨u, basic, verified⟩ := bind_eq_ok.mp verified
  obtain ⟨nonzero, fresh⟩ := verifyBasic_fresh basic
  cases found : s.findGovernParam module name with
  | none => simp only [found, throw_bind_eq_ok] at verified
  | some param =>
  by_cases same : param.value = newValue
  · simp only [found, if_pos same, throw_bind_eq_ok] at verified
  simp only [found, if_neg same] at verified
  cases accepts : cfg.paramVerifier (module ++ "/" ++ name) with
  | none => simp only [accepts, throw_bind_eq_ok] at verified
  | some check =>
  by_cases rejected : (!check submitBlock newValue) = true
  · simp only [accepts, if_pos rejected, throw_bind_eq_ok] at verified
  simp only [accepts, if_neg rejected] at verified
  obtain ⟨exist, none, verified⟩ := bind_eq_ok.mp verified
  cases exist with
  | some q =>
    dsimp only at verified
    split at verified <;> simp only [throw_bind_eq_ok] at verified
  | none =>
      by_cases occupied : s.preActiveProposal ≠ zeroHash
      · simp only [if_pos occupied, throw_bind_eq_ok] at verified
      by_cases late : cfg.estimateEndVotingBlockForParaProposal submitBlock
          cfg.paramProposalVoteDurationSeconds ≤ submitBlock
      · simp only [if_neg occupied, if_pos late, throw_bind_eq_ok] at verified
      simp only [if_neg occupied, if_neg late, pure, Except.pure, bind, Except.bind,
        Except.ok.injEq] at verified
      subst verified
      have empty : s.preActiveProposal = zeroHash := not_not.mp occupied
      have swapped : ∀ k, k ∈ [ProposalType.param, .version] ↔ k ∈ [ProposalType.version, .param] :=
        fun k => by simp [or_comm]
      refine ⟨⟨nonzero, fresh, fun _ => alone_of_none none swapped empty, ?_, ?_, ?_⟩, rfl, rfl,
        by rw [isParam]; rfl, UInt64.not_le.mp late⟩
      · intro cancel
        simp [Proposal.proposalType, ProposalBody.proposalType, isParam] at cancel
      · intro version
        simp [Proposal.proposalType, ProposalBody.proposalType, isParam] at version
      · intro rounds target cancel
        simp [isParam] at cancel

theorem verify_admits {p p' : Proposal} (verified : p.verify cfg s submitBlock = .ok p') :
    Verified cfg s submitBlock p p' := by
  unfold Proposal.verify at verified
  split at verified
  · exact verifyText_admits verified ‹_›
  · exact verifyVersion_admits verified ‹_›
  · exact verifyCancel_admits verified ‹_›
  · exact verifyParam_admits verified ‹_›

end Verify

/-! ## The transactions -/

section Transactions

variable {stk : GovStaking} {caller : Address} {s' : GovState}

theorem checkVerifier_listed {nodeID : NodeID} {blockNumber : UInt64}
    (checked : checkVerifier stk caller nodeID blockNumber = .ok ()) :
    nodeID ∈ stk.listVerifierNodeID blockNumber := by
  unfold checkVerifier at checked
  split at checked
  · cases checked
  cases found : (stk.getVerifierList blockNumber).find? (·.nodeId = nodeID) with
  | none => simp [found] at checked
  | some verifier =>
      have listed := List.mem_of_find?_eq_some found
      have same := List.find?_some found
      simp only [decide_eq_true_eq] at same
      exact List.mem_map.mpr ⟨verifier, listed, same⟩

theorem submit_enters {proposal : Proposal} {blockNumber : UInt64}
    (submitted : submit cfg stk caller proposal blockNumber s = .ok s') :
    ∃ p, Verified cfg s blockNumber proposal p ∧
      s' = ((s.setProposal p).addVotingProposalID p.proposalID).addAccuVerifiers p.proposalID
        (stk.listVerifierNodeID blockNumber) := by
  unfold submit at submitted
  obtain ⟨p, verified, submitted⟩ := bind_eq_ok.mp submitted
  obtain ⟨u, -, submitted⟩ := bind_eq_ok.mp submitted
  exact ⟨p, verify_admits verified, (Except.ok.inj submitted).symm⟩

theorem submit_stages {p : Proposal} {verifiers : List NodeID} :
    (((s.setProposal p).addVotingProposalID p.proposalID).addAccuVerifiers p.proposalID
      verifiers).stages = s.stages.enter p := rfl

private theorem vote_rest {v : VoteInfo} {result : GovState}
    (rest : (if v.proposalID ∉ s.votingProposals then
        throw GovError.proposalNotAtVoting >>= fun (_ : Unit) =>
          if v.voteNodeID ∈ s.votedVerifiers v.proposalID then
            throw GovError.voteDuplicated >>= fun (_ : Unit) => pure result
          else pure result
      else if v.voteNodeID ∈ s.votedVerifiers v.proposalID then
        throw GovError.voteDuplicated >>= fun (_ : Unit) => pure result
      else pure result : Except GovError GovState) = .ok s') :
    v.proposalID ∈ s.votingProposals ∧ v.voteNodeID ∉ s.votedVerifiers v.proposalID ∧
      s' = result := by
  by_cases notVoting : v.proposalID ∉ s.votingProposals
  · simp only [if_pos notVoting, throw_bind_eq_ok] at rest
  by_cases voted : v.voteNodeID ∈ s.votedVerifiers v.proposalID
  · simp only [if_neg notVoting, if_pos voted, throw_bind_eq_ok] at rest
  simp only [if_neg notVoting, if_neg voted] at rest
  exact ⟨not_not.mp notVoting, voted, (Except.ok.inj rest).symm⟩

/-- A successful `Vote` is cast by a verifier of the block that has not voted yet, on a proposal at
voting; it adds the vote, and for a version proposal the voter to the active nodes. -/
theorem vote_casts {v : VoteInfo} {blockNumber : UInt64} {programVersion : UInt32} {signed : Bool}
    (voted : vote stk caller v blockNumber programVersion signed s = .ok s') :
    v.proposalID ∈ s.votingProposals ∧ v.voteNodeID ∉ s.votedVerifiers v.proposalID ∧
      v.voteNodeID ∈ stk.listVerifierNodeID blockNumber ∧
      (s' = s.addVoteValue v.proposalID v.voteNodeID v.voteOption ∨
        s' = (s.addVoteValue v.proposalID v.voteNodeID v.voteOption).addActiveNode v.proposalID
          v.voteNodeID) := by
  unfold vote at voted
  by_cases zero : v.proposalID = zeroHash
  · simp only [if_pos zero, throw_bind_eq_ok] at voted
  simp only [if_neg zero] at voted
  cases stored : s.proposals v.proposalID with
  | none => simp only [stored, throw_eq_ok] at voted
  | some proposal =>
      simp only [stored] at voted
      obtain ⟨u, verifier, voted⟩ := bind_eq_ok.mp voted
      have listed := checkVerifier_listed verifier
      by_cases kind : proposal.proposalType = .version
      · by_cases unsigned : (!signed) = true
        · simp only [if_pos kind, if_pos unsigned, throw_bind_eq_ok] at voted
        by_cases option : v.voteOption ≠ .yes
        · simp only [if_pos kind, if_neg unsigned, if_pos option, throw_bind_eq_ok] at voted
        by_cases stale : proposal.newVersion ≠ programVersion
        · simp only [if_pos kind, if_neg unsigned, if_neg option, if_pos stale,
            throw_bind_eq_ok] at voted
        simp only [if_pos kind, if_neg unsigned, if_neg option, if_neg stale] at voted
        obtain ⟨voting, fresh, result⟩ := vote_rest voted
        exact ⟨voting, fresh, listed, Or.inr result⟩
      · simp only [if_neg kind] at voted
        obtain ⟨voting, fresh, result⟩ := vote_rest voted
        exact ⟨voting, fresh, listed, Or.inl result⟩

/-- `DeclareVersion` only ever adds an active node. -/
theorem declareVersion_declares {declaredNodeID : NodeID} {declaredVersion : UInt32} {signed : Bool}
    {blockNumber : UInt64}
    (declared : declareVersion stk caller declaredNodeID declaredVersion signed blockNumber s = .ok s') :
    s' = s ∨ ∃ proposalID, s' = s.addActiveNode proposalID declaredNodeID := by
  unfold declareVersion at declared
  by_cases unsigned : (!signed) = true
  · simp only [if_pos unsigned, throw_bind_eq_ok] at declared
  simp only [if_neg unsigned] at declared
  obtain ⟨u, -, declared⟩ := bind_eq_ok.mp declared
  by_cases inactive : s.getCurrentActiveVersion ≤ 0
  · simp only [if_pos inactive, throw_bind_eq_ok] at declared
  simp only [if_neg inactive] at declared
  obtain ⟨exist, -, declared⟩ := bind_eq_ok.mp declared
  cases exist with
  | some votingVP =>
      dsimp only at declared
      split_ifs at declared <;> first
        | exact absurd declared (by simp only [throw_bind_eq_ok, not_false_eq_true])
        | exact Or.inl (Except.ok.inj declared).symm
        | exact Or.inr ⟨votingVP.proposalID, (Except.ok.inj declared).symm⟩
  | none =>
      dsimp only at declared
      split_ifs at declared <;> first
        | exact absurd declared (by simp only [throw_bind_eq_ok, throw_eq_ok, not_false_eq_true])
        | exact Or.inl (Except.ok.inj declared).symm

end Transactions

end Gov
end Bubble
