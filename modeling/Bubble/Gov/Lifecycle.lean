import Bubble.Gov.Submission
import Bubble.Gov.Settlement

/-!
# The governance lifecycle over runs

Governance is driven by calls: the contract's transactions `Submit`, `Vote` and `DeclareVersion`,
the plugin's `BeginBlock` and `EndBlock` of every block, slashing's `NotifyPunishedVerifiers`, and
`ClearProcessingProposals`.  A failed call is rolled back.  From genesis, every run keeps the
stages `Valid` (each proposal in exactly one place, at most one version or parameter proposal in
process, at most one cancellation at voting, the active versions strictly rising) and no node
votes twice on a proposal.
-/

namespace Bubble
namespace Gov

/-- A call into governance. -/
inductive GovOp
  | submit (caller : Address) (proposal : Proposal) (blockNumber : UInt64)
  | vote (caller : Address) (v : VoteInfo) (blockNumber : UInt64) (programVersion : UInt32)
      (signed : Bool)
  | declareVersion (caller : Address) (declaredNodeID : NodeID) (declaredVersion : UInt32)
      (signed : Bool) (blockNumber : UInt64)
  | beginBlock (blockNumber : UInt64)
  | endBlock (blockNumber : UInt64)
  | notifyPunishedVerifiers (punished : List NodeID)
  | clearProcessingProposals

/-- What a call does. -/
def GovOp.apply (cfg : GovConfig) (stk : GovStaking) : GovOp → GovState → Except GovError GovState
  | .submit caller proposal blockNumber, s => Gov.submit cfg stk caller proposal blockNumber s
  | .vote caller v blockNumber programVersion signed, s =>
      Gov.vote stk caller v blockNumber programVersion signed s
  | .declareVersion caller declaredNodeID declaredVersion signed blockNumber, s =>
      Gov.declareVersion stk caller declaredNodeID declaredVersion signed blockNumber s
  | .beginBlock blockNumber, s => Gov.beginBlock cfg stk blockNumber s
  | .endBlock blockNumber, s => Gov.endBlock cfg stk blockNumber s
  | .notifyPunishedVerifiers punished, s => pure (Gov.notifyPunishedVerifiers punished s)
  | .clearProcessingProposals, s => Gov.clearProcessingProposals s

/-- A run of calls, each failed call rolled back. -/
def govRun (cfg : GovConfig) (stk : GovStaking) (ops : List GovOp) (s : GovState) : GovState :=
  Rollback.run (GovOp.apply cfg stk) ops s

/-- Governance at genesis: the genesis version active from block `0`, the governable parameters of
`InitGenesisGovernParam`, and nothing else. -/
def GovState.genesis (genesisVersion : UInt32) (paramItems : List ParamItem)
    (paramValues : String → String → Option ParamValue) : GovState where
  proposals _ := none
  votingProposals := []
  preActiveProposal := zeroHash
  preActiveVersion := 0
  endProposals := []
  votes _ := []
  accuVerifiers _ := []
  activeNodes _ := []
  tallyResults _ := none
  pipIDs := []
  activeVersions := [⟨genesisVersion, 0⟩]
  paramItems := paramItems
  paramValues := paramValues

variable {cfg : GovConfig} {stk : GovStaking} {s s' : GovState}

/-! ## One call -/

theorem beginBlock_leaves {n : UInt64} (begun : beginBlock cfg stk n s = .ok s') :
    s.stages.Leaves s'.stages := by
  have accumulated : (if cfg.isBeginOfConsensus n ∧ cfg.isBeginOfEpoch n
      then accuVerifiersAtBeginOfSettlement stk n s else s).stages = s.stages := by
    split_ifs
    · exact accuVerifiersAtBeginOfSettlement_stages
    · rfl
  rcases beginBlock_spec begun with rfl | ⟨-, p, rounds, tallyResult, occupied, stored, -, -, rfl⟩
  · rw [accumulated]
    exact .refl
  · rw [← accumulated]
    exact .single (.activate n occupied stored)

theorem beginBlock_ballots {n : UInt64} (begun : beginBlock cfg stk n s = .ok s') :
    s'.ballots = if cfg.isBeginOfConsensus n ∧ cfg.isBeginOfEpoch n
      then s.ballots.accumulateAll s.votingProposals (stk.listVerifierNodeID n) else s.ballots := by
  have accumulated : (if cfg.isBeginOfConsensus n ∧ cfg.isBeginOfEpoch n
      then accuVerifiersAtBeginOfSettlement stk n s else s).ballots =
      if cfg.isBeginOfConsensus n ∧ cfg.isBeginOfEpoch n
      then s.ballots.accumulateAll s.votingProposals (stk.listVerifierNodeID n) else s.ballots := by
    split_ifs
    · exact accuVerifiersAtBeginOfSettlement_ballots
    · rfl
  rcases beginBlock_spec begun with rfl | ⟨-, p, rounds, tallyResult, -, -, -, -, rfl⟩
  · exact accumulated
  · rw [GovState.ballots_addActiveVersion, GovState.ballots_clearActiveNodes,
      GovState.ballots_movePreActiveProposalIDToEnd, GovState.ballots_setTallyResult]
    exact accumulated

/-- Every successful call moves the stages: a proposal enters, or proposals leave the process. -/
theorem GovOp.apply_moves (valid : s.stages.Valid) {op : GovOp}
    (applied : op.apply cfg stk s = .ok s') : s.stages.Moves s'.stages := by
  cases op with
  | submit caller proposal blockNumber =>
      rw [GovOp.apply] at applied
      obtain ⟨p, verified, rfl⟩ := submit_enters applied
      exact Or.inl ⟨p, verified.admits, submit_stages⟩
  | vote caller v blockNumber programVersion signed =>
      rw [GovOp.apply] at applied
      obtain ⟨-, -, -, rfl | rfl⟩ := vote_casts applied
      · exact Or.inr .refl
      · exact Or.inr .refl
  | declareVersion caller declaredNodeID declaredVersion signed blockNumber =>
      rw [GovOp.apply] at applied
      obtain rfl | ⟨proposalID, rfl⟩ := declareVersion_declares applied
      · exact Or.inr .refl
      · exact Or.inr .refl
  | beginBlock blockNumber =>
      rw [GovOp.apply] at applied
      exact Or.inr (beginBlock_leaves applied)
  | endBlock blockNumber =>
      rw [GovOp.apply] at applied
      exact Or.inr (endBlock_leaves valid applied).1
  | notifyPunishedVerifiers punished =>
      rw [GovOp.apply] at applied
      obtain rfl := Except.ok.inj applied
      rw [notifyPunishedVerifiers_keeps.1]
      exact Or.inr .refl
  | clearProcessingProposals =>
      rw [GovOp.apply] at applied
      exact Or.inr (clearProcessingProposals_clears valid applied).1

/-- Every successful call keeps the votes of each proposal from distinct nodes. -/
theorem GovOp.apply_distinct (valid : s.stages.Valid) (distinct : s.ballots.Distinct) {op : GovOp}
    (applied : op.apply cfg stk s = .ok s') : s'.ballots.Distinct := by
  cases op with
  | submit caller proposal blockNumber =>
      rw [GovOp.apply] at applied
      obtain ⟨p, -, rfl⟩ := submit_enters applied
      rw [GovState.ballots_addAccuVerifiers, GovState.ballots_addVotingProposalID,
        GovState.ballots_setProposal]
      exact distinct.accumulate _
  | vote caller v blockNumber programVersion signed =>
      rw [GovOp.apply] at applied
      obtain ⟨-, fresh, -, rfl | rfl⟩ := vote_casts applied
      · rw [GovState.ballots_addVoteValue]
        exact distinct.cast fresh
      · rw [GovState.ballots_addActiveNode, GovState.ballots_addVoteValue]
        exact distinct.cast fresh
  | declareVersion caller declaredNodeID declaredVersion signed blockNumber =>
      rw [GovOp.apply] at applied
      obtain rfl | ⟨proposalID, rfl⟩ := declareVersion_declares applied
      · exact distinct
      · rw [GovState.ballots_addActiveNode]
        exact distinct
  | beginBlock blockNumber =>
      rw [GovOp.apply] at applied
      rw [beginBlock_ballots applied]
      split_ifs
      · exact distinct.accumulateAll _ _
      · exact distinct
  | endBlock blockNumber =>
      rw [GovOp.apply] at applied
      rw [(endBlock_leaves valid applied).2]
      exact distinct
  | notifyPunishedVerifiers punished =>
      rw [GovOp.apply] at applied
      obtain rfl := Except.ok.inj applied
      exact distinct.of_sublist notifyPunishedVerifiers_sublist
  | clearProcessingProposals =>
      rw [GovOp.apply] at applied
      obtain ⟨-, -, -, ids, same⟩ := clearProcessingProposals_clears valid applied
      rw [same]
      exact distinct.clearAll ids

/-! ## Runs -/

/-- The invariant of governance over runs: the stages are valid and no node votes twice. -/
def GovState.Sound (s : GovState) : Prop :=
  s.stages.Valid ∧ s.ballots.Distinct

theorem GovOp.apply_sound {op : GovOp} (sound : s.Sound) (applied : op.apply cfg stk s = .ok s') :
    s'.Sound :=
  ⟨sound.1.moves (GovOp.apply_moves sound.1 applied), GovOp.apply_distinct sound.1 sound.2 applied⟩

theorem govRun_sound (ops : List GovOp) (sound : s.Sound) : (govRun cfg stk ops s).Sound :=
  Rollback.run_invariant (fun (_ : GovOp) _ _ (_ : True) holds applied => GovOp.apply_sound holds applied)
    ops (fun _ _ => trivial) sound

theorem genesis_sound (genesisVersion : UInt32) (paramItems : List ParamItem)
    (paramValues : String → String → Option ParamValue) :
    (GovState.genesis genesisVersion paramItems paramValues).Sound :=
  ⟨Stages.genesis_valid genesisVersion, fun _ => List.nodup_nil⟩

/-- From genesis, whatever calls are made in whatever order, each failed one rolled back: every
stored proposal is in exactly one of the voting list, the pre-active slot and the end list, at
most one version or parameter proposal is in process and one cancel proposal at voting, the
active versions rise strictly, and no node votes twice on a proposal. -/
theorem lifecycle_sound (genesisVersion : UInt32) (paramItems : List ParamItem)
    (paramValues : String → String → Option ParamValue) (ops : List GovOp) :
    (govRun cfg stk ops (GovState.genesis genesisVersion paramItems paramValues)).Sound :=
  govRun_sound ops (genesis_sound genesisVersion paramItems paramValues)

theorem govRun_keeps (ops : List GovOp) (sound : s.Sound) :
    s.stages.Keeps (govRun cfg stk ops s).stages :=
  (Rollback.run_invariant (fun _ (state : GovState) _ (_ : True)
      (holds : state.Sound ∧ s.stages.Keeps state.stages) applied =>
      ⟨GovOp.apply_sound holds.1 applied, holds.2.trans (GovOp.apply_moves holds.1.1 applied).keeps⟩)
    ops (fun _ _ => trivial) ⟨sound, .refl⟩).2

/-- From any state governance reaches, whatever calls follow: every stored proposal keeps its
record, an ended proposal stays ended and comes back neither to voting nor to the pre-active slot,
and the active versions only grow at the front. -/
theorem governance_history_kept (genesisVersion : UInt32) (paramItems : List ParamItem)
    (paramValues : String → String → Option ParamValue) (ops ops' : List GovOp) :
    let s := govRun cfg stk ops (GovState.genesis genesisVersion paramItems paramValues)
    let s' := govRun cfg stk ops' s
    s.stages.Keeps s'.stages ∧
      ∀ id ∈ s.endProposals, id ∉ s'.votingProposals ∧ id ≠ s'.preActiveProposal := by
  intro s s'
  have sound : s.Sound := govRun_sound ops (genesis_sound genesisVersion paramItems paramValues)
  have kept : s.stages.Keeps s'.stages := govRun_keeps ops' sound
  have valid : s'.stages.Valid := (govRun_sound ops' sound).1
  refine ⟨kept, fun id ended => ?_⟩
  have ended' : id ∈ s'.stages.endProposals := kept.ended ended
  refine ⟨fun voting => valid.votingApart id voting ended', fun same => ?_⟩
  subst same
  exact (valid.preActiveApart (valid.ne_zero_of_listed (Or.inr ended'))).2 ended'

end Gov
end Bubble
