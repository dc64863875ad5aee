import Bubble.Gov.Lifecycle

/-!
# Governance along the chain

Blocks follow one another with consecutive numbers.  Each runs `BeginBlock`, the governance calls
of its transactions (each failed one rolled back) and `EndBlock`; a block whose `BeginBlock` or
`EndBlock` fails is not added.

Staking changes the verifiers it reports only at the first block of an epoch, and an epoch is a
whole number of rounds.  Then the verifiers of a block are accumulated for every proposal at
voting: at its submission, or again at the first block of the epoch.  `Vote` accepts only the
block's verifiers, so every vote comes from an accumulated verifier, and with the votes from
distinct nodes a tally never counts more votes than verifiers.
-/

namespace Bubble
namespace Gov

/-- A governance call made inside a block: a transaction of the governance contract, or
slashing's `NotifyPunishedVerifiers`.  Nothing calls `ClearProcessingProposals`. -/
inductive GovTx
  | submit (caller : Address) (proposal : Proposal)
  | vote (caller : Address) (v : VoteInfo) (programVersion : UInt32) (signed : Bool)
  | declareVersion (caller : Address) (declaredNodeID : NodeID) (declaredVersion : UInt32)
      (signed : Bool)
  | notifyPunishedVerifiers (punished : List NodeID)

/-- The call at block `blockNumber`. -/
def GovTx.op (blockNumber : UInt64) : GovTx → GovOp
  | .submit caller proposal => .submit caller proposal blockNumber
  | .vote caller v programVersion signed => .vote caller v blockNumber programVersion signed
  | .declareVersion caller declaredNodeID declaredVersion signed =>
      .declareVersion caller declaredNodeID declaredVersion signed blockNumber
  | .notifyPunishedVerifiers punished => .notifyPunishedVerifiers punished

/-- A block: `BeginBlock`, the calls of its transactions, and `EndBlock`. -/
def processBlock (cfg : GovConfig) (stk : GovStaking) (blockNumber : UInt64) (txs : List GovTx)
    (s : GovState) : Except GovError GovState := do
  let s ← beginBlock cfg stk blockNumber s
  endBlock cfg stk blockNumber (govRun cfg stk (txs.map (GovTx.op blockNumber)) s)

/-- Governance on the chain, after the block `number`. -/
structure Chain where
  state : GovState
  number : UInt64

/-- The chain at its genesis block `0`. -/
def Chain.genesis (genesisVersion : UInt32) (paramItems : List ParamItem)
    (paramValues : String → String → Option ParamValue) : Chain :=
  ⟨GovState.genesis genesisVersion paramItems paramValues, 0⟩

/-- The next block, with the given transactions; a block that fails is not added. -/
def Chain.next (cfg : GovConfig) (stk : GovStaking) (c : Chain) (txs : List GovTx) : Chain :=
  match processBlock cfg stk (c.number + 1) txs c.state with
  | .ok s => ⟨s, c.number + 1⟩
  | .error _ => c

/-- The blocks, one after the other. -/
def chainRun (cfg : GovConfig) (stk : GovStaking) (blocks : List (List GovTx)) (c : Chain) :
    Chain :=
  blocks.foldl (Chain.next cfg stk) c

/-- Staking reports new verifiers only at the first block of an epoch; within an epoch it only
removes some (`removeFromVerifiers`, when it slashes). -/
def GovStaking.ShrinksWithinEpoch (stk : GovStaking) (cfg : GovConfig) : Prop :=
  ∀ n : UInt64, cfg.isBeginOfEpoch (n + 1) = false →
    stk.listVerifierNodeID (n + 1) ⊆ stk.listVerifierNodeID n

/-- The verifiers of block `blockNumber` are accumulated for every proposal at voting. -/
def GovState.Entitled (stk : GovStaking) (blockNumber : UInt64) (s : GovState) : Prop :=
  ∀ id ∈ s.votingProposals, stk.listVerifierNodeID blockNumber ⊆ s.accuVerifiers id

/-- What holds of governance during and after the block `blockNumber`. -/
structure GovState.Settled (stk : GovStaking) (blockNumber : UInt64) (s : GovState) : Prop where
  sound : s.Sound
  counted : s.ballots.Counted
  entitled : s.Entitled stk blockNumber

/-- What holds of the chain after each block. -/
def Chain.Settled (stk : GovStaking) (c : Chain) : Prop :=
  c.state.Settled stk c.number

variable {cfg : GovConfig} {stk : GovStaking} {s s' : GovState} {n : UInt64}

/-! ## One call, one block -/

theorem govRun_txs_invariant {Inv : GovState → Prop} {txs : List GovTx}
    (preserve : ∀ tx ∈ txs, ∀ state next : GovState, Inv state →
      (tx.op n).apply cfg stk state = .ok next → Inv next)
    (holds : Inv s) : Inv (govRun cfg stk (txs.map (GovTx.op n)) s) :=
  Rollback.run_invariant (fun op state next (made : ∃ tx ∈ txs, op = tx.op n) holds applied => by
      obtain ⟨tx, member, rfl⟩ := made
      exact preserve tx member state next holds applied)
    _ (fun op made => by
      obtain ⟨tx, member, rfl⟩ := List.mem_map.mp made
      exact ⟨tx, member, rfl⟩)
    holds

theorem GovState.Entitled.narrow (entitled : s.Entitled stk n)
    (voting : s'.votingProposals ⊆ s.votingProposals)
    (accu : ∀ id, s.accuVerifiers id ⊆ s'.accuVerifiers id) : s'.Entitled stk n :=
  fun id member => List.Subset.trans (entitled id (voting member)) (accu id)

/-- A governance call inside block `n` keeps the invariant of the block. -/
theorem GovTx.apply_settled {tx : GovTx} (settled : s.Settled stk n)
    (applied : (tx.op n).apply cfg stk s = .ok s') : s'.Settled stk n := by
  have sound := GovOp.apply_sound settled.sound applied
  cases tx with
  | submit caller proposal =>
      rw [GovTx.op, GovOp.apply] at applied
      obtain ⟨p, -, rfl⟩ := submit_enters applied
      refine ⟨sound, ?_, fun id member => ?_⟩
      · rw [GovState.ballots_addAccuVerifiers, GovState.ballots_addVotingProposalID,
          GovState.ballots_setProposal]
        exact settled.counted.accumulate _
      · change stk.listVerifierNodeID n ⊆
          (s.ballots.accumulate p.proposalID (stk.listVerifierNodeID n)).accuVerifiers id
        simp only [GovState.addAccuVerifiers, GovState.addVotingProposalID, GovState.setProposal,
          mem_addProposalByKey] at member
        rcases member with voting | rfl
        · exact List.Subset.trans (settled.entitled id voting)
            (Ballots.accuVerifiers_subset_accumulate (b := s.ballots) _ id)
        · exact fun _ listed => Ballots.mem_accumulate listed
  | vote caller v programVersion signed =>
      rw [GovTx.op, GovOp.apply] at applied
      obtain ⟨voting, -, listed, rfl | rfl⟩ := vote_casts applied
      · refine ⟨sound, ?_, settled.entitled⟩
        rw [GovState.ballots_addVoteValue]
        exact settled.counted.cast (settled.entitled _ voting listed)
      · refine ⟨sound, ?_, settled.entitled⟩
        rw [GovState.ballots_addActiveNode, GovState.ballots_addVoteValue]
        exact settled.counted.cast (settled.entitled _ voting listed)
  | declareVersion caller declaredNodeID declaredVersion signed =>
      rw [GovTx.op, GovOp.apply] at applied
      obtain rfl | ⟨proposalID, rfl⟩ := declareVersion_declares applied
      · exact settled
      · exact ⟨sound, settled.counted, settled.entitled⟩
  | notifyPunishedVerifiers punished =>
      rw [GovTx.op, GovOp.apply] at applied
      obtain rfl := Except.ok.inj applied
      have accu : (Gov.notifyPunishedVerifiers punished s).accuVerifiers = s.accuVerifiers :=
        notifyPunishedVerifiers_keeps.2
      have voting : (Gov.notifyPunishedVerifiers punished s).votingProposals = s.votingProposals :=
        congrArg Stages.votingProposals notifyPunishedVerifiers_keeps.1
      refine ⟨sound, settled.counted.of_sublist notifyPunishedVerifiers_sublist accu, ?_⟩
      exact settled.entitled.narrow (fun _ member => voting ▸ member) (fun id _ member => accu ▸ member)

theorem processBlock_sound {txs : List GovTx} (sound : s.Sound)
    (processed : processBlock cfg stk n txs s = .ok s') : s'.Sound := by
  obtain ⟨s₁, begun, ended⟩ := Rollback.bind_eq_ok.mp processed
  have begunApplied : (GovOp.beginBlock n).apply cfg stk s = .ok s₁ := begun
  have ran : (govRun cfg stk (txs.map (GovTx.op n)) s₁).Sound :=
    govRun_sound _ (GovOp.apply_sound sound begunApplied)
  have endApplied : (GovOp.endBlock n).apply cfg stk _ = .ok s' := ended
  exact GovOp.apply_sound ran endApplied

theorem Chain.next_invariant {P : Chain → Prop} {c : Chain} {txs : List GovTx} (holds : P c)
    (added : ∀ s, processBlock cfg stk (c.number + 1) txs c.state = .ok s → P ⟨s, c.number + 1⟩) :
    P (c.next cfg stk txs) := by
  rw [Chain.next]
  cases processed : processBlock cfg stk (c.number + 1) txs c.state with
  | ok s => exact added s processed
  | error failure => exact holds

theorem chainRun_invariant {P : Chain → Prop} (step : ∀ c txs, P c → P (c.next cfg stk txs))
    (blocks : List (List GovTx)) {c : Chain} (holds : P c) : P (chainRun cfg stk blocks c) := by
  induction blocks generalizing c with
  | nil => exact holds
  | cons txs blocks induction => exact induction (step c txs holds)

theorem Chain.next_sound {c : Chain} (sound : c.state.Sound) (txs : List GovTx) :
    (c.next cfg stk txs).state.Sound :=
  Chain.next_invariant (P := fun c => c.state.Sound) sound fun _ processed =>
    processBlock_sound sound processed

theorem chainRun_sound (blocks : List (List GovTx)) {c : Chain} (sound : c.state.Sound) :
    (chainRun cfg stk blocks c).state.Sound :=
  chainRun_invariant (P := fun c => c.state.Sound) (fun _ txs sound => Chain.next_sound sound txs)
    blocks sound

section Blocks

variable (stable : stk.ShrinksWithinEpoch cfg) (long : 1 < cfg.consensusSize.toNat)
  (epochFits : cfg.consensusSize.toNat * cfg.epochSize.toNat < 2 ^ 64)
include stable long epochFits

theorem beginBlock_settled (settled : s.Settled stk n)
    (begun : beginBlock cfg stk (n + 1) s = .ok s') : s'.Settled stk (n + 1) := by
  have applied : (GovOp.beginBlock (n + 1)).apply cfg stk s = .ok s' := begun
  have narrows := (beginBlock_leaves begun).narrows
  have ballots := beginBlock_ballots begun
  refine ⟨GovOp.apply_sound settled.sound applied, ?_, fun id member => ?_⟩
  · rw [ballots]
    split_ifs
    · exact settled.counted.accumulateAll _ _
    · exact settled.counted
  · have voting : id ∈ s.votingProposals := narrows.2 member
    change stk.listVerifierNodeID (n + 1) ⊆ s'.ballots.accuVerifiers id
    split_ifs at ballots with settling
    · rw [ballots]
      exact fun _ listed => Ballots.mem_accumulateAll listed voting
    · have quiet : cfg.isBeginOfEpoch (n + 1) = false := Bool.eq_false_iff.mpr fun beginning =>
        settling ⟨isBeginOfConsensus_of_isBeginOfEpoch long epochFits beginning, beginning⟩
      rw [ballots]
      exact List.Subset.trans (stable n quiet) (settled.entitled id voting)

omit stable long epochFits in
theorem endBlock_settled (settled : s.Settled stk n) (ended : endBlock cfg stk n s = .ok s') :
    s'.Settled stk n := by
  have applied : (GovOp.endBlock n).apply cfg stk s = .ok s' := ended
  obtain ⟨leaves, ballots⟩ := endBlock_leaves settled.sound.1 ended
  have accu : s'.accuVerifiers = s.accuVerifiers := congrArg Ballots.accuVerifiers ballots
  refine ⟨GovOp.apply_sound settled.sound applied, ?_, ?_⟩
  · rw [ballots]
    exact settled.counted
  · exact settled.entitled.narrow leaves.narrows.2 fun id _ member => accu ▸ member

theorem processBlock_settled {txs : List GovTx} (settled : s.Settled stk n)
    (processed : processBlock cfg stk (n + 1) txs s = .ok s') : s'.Settled stk (n + 1) := by
  obtain ⟨s₁, begun, ended⟩ := Rollback.bind_eq_ok.mp processed
  have ran : (govRun cfg stk (txs.map (GovTx.op (n + 1))) s₁).Settled stk (n + 1) :=
    govRun_txs_invariant (fun _ _ _ _ holds applied => GovTx.apply_settled holds applied)
      (beginBlock_settled stable long epochFits settled begun)
  exact endBlock_settled ran ended

theorem Chain.next_settled {c : Chain} (settled : c.Settled stk) (txs : List GovTx) :
    (c.next cfg stk txs).Settled stk :=
  Chain.next_invariant settled fun _ processed =>
    processBlock_settled stable long epochFits settled processed

theorem chainRun_settled (blocks : List (List GovTx)) {c : Chain} (settled : c.Settled stk) :
    (chainRun cfg stk blocks c).Settled stk :=
  chainRun_invariant (P := Chain.Settled stk)
    (fun _ txs settled => Chain.next_settled stable long epochFits settled txs) blocks settled

end Blocks

theorem Chain.genesis_settled (genesisVersion : UInt32) (paramItems : List ParamItem)
    (paramValues : String → String → Option ParamValue) :
    (Chain.genesis genesisVersion paramItems paramValues).Settled stk :=
  ⟨genesis_sound genesisVersion paramItems paramValues, fun _ _ member => absurd member List.not_mem_nil,
    fun _ member => absurd member List.not_mem_nil⟩

/-! ## Tallies -/

theorem countP_voteOption (votes : List VoteValue) :
    votes.countP (·.voteOption = .yes) + votes.countP (·.voteOption = .no) +
      votes.countP (·.voteOption = .abstention) = votes.length := by
  induction votes with
  | nil => rfl
  | cons v votes induction =>
      simp only [List.countP_cons, List.length_cons]
      cases v.voteOption <;> simp <;> omega

/-- Along the chain from genesis, the votes on a proposal come from distinct nodes, each accumulated
for it, so the yeas, nays and abstentions that `TallyVoteValue` counts add up to at most the
accumulated verifiers. -/
theorem tally_within_accumulated (stable : stk.ShrinksWithinEpoch cfg)
    (long : 1 < cfg.consensusSize.toNat)
    (epochFits : cfg.consensusSize.toNat * cfg.epochSize.toNat < 2 ^ 64)
    (genesisVersion : UInt32) (paramItems : List ParamItem)
    (paramValues : String → String → Option ParamValue) (blocks : List (List GovTx)) (id : Hash) :
    let s := (chainRun cfg stk blocks (Chain.genesis genesisVersion paramItems paramValues)).state
    (s.votedVerifiers id).Nodup ∧ s.votedVerifiers id ⊆ s.accuVerifiers id ∧
      (s.tallyVoteValue id).1.toNat + (s.tallyVoteValue id).2.1.toNat +
        (s.tallyVoteValue id).2.2.toNat ≤ (s.accuVerifiers id).length := by
  intro s
  have settled : s.Settled stk _ := chainRun_settled stable long epochFits blocks
    (Chain.genesis_settled genesisVersion paramItems paramValues)
  have inside : s.votedVerifiers id ⊆ s.accuVerifiers id := fun _ member => by
    obtain ⟨v, cast, rfl⟩ := List.mem_map.mp member
    exact settled.counted id v cast
  refine ⟨settled.sound.2 id, inside, ?_⟩
  calc (s.tallyVoteValue id).1.toNat + (s.tallyVoteValue id).2.1.toNat +
        (s.tallyVoteValue id).2.2.toNat
      ≤ (s.votes id).countP (·.voteOption = .yes) + (s.votes id).countP (·.voteOption = .no) +
          (s.votes id).countP (·.voteOption = .abstention) := by
        simp only [GovState.tallyVoteValue, UInt64.toNat_ofNat']
        have yes := Nat.mod_le ((s.votes id).countP (·.voteOption = .yes)) (2 ^ 64)
        have no := Nat.mod_le ((s.votes id).countP (·.voteOption = .no)) (2 ^ 64)
        have abstention := Nat.mod_le ((s.votes id).countP (·.voteOption = .abstention)) (2 ^ 64)
        omega
    _ = (s.votes id).length := countP_voteOption _
    _ ≤ (s.accuVerifiers id).length := Ballots.length_le settled.sound.2 settled.counted id

/-- The round, epoch and voting settings of `DefaultMainNet`, with no governable parameter. -/
def sampleGovConfig : GovConfig where
  consensusSize := 430
  electionDistance := 20
  maxEpochMinutes := 360
  interval := 2
  textProposalVoteDurationSeconds := 14 * 24 * 3600
  versionProposalVoteDurationSeconds := 14 * 24 * 3600
  paramProposalVoteDurationSeconds := 14 * 24 * 3600
  textProposalVoteRate := 5000
  textProposalSupportRate := 6670
  cancelProposalVoteRate := 5000
  cancelProposalSupportRate := 6670
  paramProposalVoteRate := 5000
  paramProposalSupportRate := 6670
  versionProposalSupportRate := 6670
  paramVerifier _ := none

/-- Node `1`. -/
def sampleVerifier : NodeID := (1 : BitVec 512)

/-- Address `1`. -/
def sampleStaker : Address := (1 : BitVec 160)

/-- Staking with one verifier in every epoch, `sampleVerifier`, staked from `sampleStaker`. -/
def sampleGovStaking : GovStaking where
  getVerifierList _ := [⟨sampleVerifier, sampleStaker⟩]
  getCanBaseList _ := [⟨sampleVerifier, sampleStaker⟩]
  canMutableInvalid _ _ := some false
  nodeIdValid _ := true
  declarePromoteNotify _ _ _ := true
  proposalPassedNotify _ _ _ := true

/-- A text proposal of `sampleVerifier`, submitted at block `1`. -/
def sampleTextProposal : Proposal :=
  ⟨(3 : BitVec 256), "3", 1, 0, sampleVerifier, .text⟩

/-- Block `1` submits `sampleTextProposal`, and block `2` has `sampleVerifier` vote for it. -/
def sampleVotedBlocks : List (List GovTx) :=
  [[.submit sampleStaker sampleTextProposal],
    [.vote sampleStaker ⟨sampleTextProposal.proposalID, sampleVerifier, .yes⟩ 0x0100 true]]

/-- The vote is counted, and the tally stays within the accumulated verifiers. -/
theorem tally_within_accumulated_on_sample :
    let s := (chainRun sampleGovConfig sampleGovStaking sampleVotedBlocks
      (Chain.genesis 0x0100 [] fun _ _ => none)).state
    s.votedVerifiers sampleTextProposal.proposalID = [sampleVerifier] ∧
      (s.votedVerifiers sampleTextProposal.proposalID).Nodup ∧
      s.votedVerifiers sampleTextProposal.proposalID ⊆ s.accuVerifiers sampleTextProposal.proposalID ∧
      (s.tallyVoteValue sampleTextProposal.proposalID).1.toNat +
          (s.tallyVoteValue sampleTextProposal.proposalID).2.1.toNat +
          (s.tallyVoteValue sampleTextProposal.proposalID).2.2.toNat ≤
        (s.accuVerifiers sampleTextProposal.proposalID).length :=
  ⟨by decide +kernel,
    tally_within_accumulated (fun _ _ => List.Subset.refl _) (by decide) (by decide) 0x0100 []
      (fun _ _ => none) sampleVotedBlocks sampleTextProposal.proposalID⟩

end Gov
end Bubble
