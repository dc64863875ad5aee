import Bubble.Common

/-!
# When governance acts

The block arithmetic of `x/xutil/calculate.go` that governance schedules by, in `uint64` as the
code computes it.  A text, version or cancel proposal ends at an election block of a consensus
round (`CalEndVotingBlock`), a parameter proposal at the last block of an epoch
(`EstimateEndVotingBlockForParaProposal`), and `EndBlock` tallies each kind only at blocks of its
kind.  Both formulas land on a block of the right kind as long as the sum they compute does not
wrap around `2^64`; the lemmas here say so.
-/

namespace Bubble
namespace Gov

/-- The economic settings governance reads from `xcom`.  `consensusSize` is `ConsensusSize()`
(`BlocksWillCreate * MaxConsensusVals`), `electionDistance` is `ElectionDistance()`
(`2 * PerRoundBlocks`) and `interval` is `Interval()`; the rates are scaled by `RateCoefficient`. -/
structure GovConfig where
  consensusSize : UInt64
  electionDistance : UInt64
  maxEpochMinutes : UInt64
  interval : UInt64
  textProposalVoteDurationSeconds : UInt64
  versionProposalVoteDurationSeconds : UInt64
  paramProposalVoteDurationSeconds : UInt64
  textProposalVoteRate : UInt64
  textProposalSupportRate : UInt64
  cancelProposalVoteRate : UInt64
  cancelProposalSupportRate : UInt64
  paramProposalVoteRate : UInt64
  paramProposalSupportRate : UInt64
  versionProposalSupportRate : UInt64
  /-- `ParamVerifierMap`, under the key `module + "/" + name`: whether a new value is accepted at a
  block. -/
  paramVerifier : String → Option (UInt64 → String → Bool)

namespace GovConfig

variable (cfg : GovConfig)

/-- `EpochSize`: consensus rounds per epoch. -/
def epochSize : UInt64 :=
  cfg.maxEpochMinutes * 60 / (cfg.interval * cfg.consensusSize)

/-- `CalcBlocksEachEpoch`. -/
def calcBlocksEachEpoch : UInt64 :=
  cfg.consensusSize * cfg.epochSize

/-- `EstimateConsensusRoundsForGov`, with the block interval fixed at one second. -/
def estimateConsensusRoundsForGov (seconds : UInt64) : UInt64 :=
  seconds / (1 * cfg.consensusSize)

/-- `EstimateEndVotingBlockForParaProposal`: the last block of the epoch that ends the voting. -/
def estimateEndVotingBlockForParaProposal (blockNumber seconds : UInt64) : UInt64 :=
  let consensusRoundsEachEpoch := cfg.maxEpochMinutes * 60 / (cfg.interval * cfg.consensusSize)
  let blocksEachEpoch := consensusRoundsEachEpoch * cfg.consensusSize
  let durationEachEpoch := blocksEachEpoch * 1
  let epochRounds := seconds / durationEachEpoch
  blockNumber + blocksEachEpoch - blockNumber % blocksEachEpoch + epochRounds * blocksEachEpoch

/-- `CalEndVotingBlock`: the election block of the round `endVotingRounds` rounds after the
current one. -/
def calEndVotingBlock (blockNumber endVotingRounds : UInt64) : UInt64 :=
  blockNumber + cfg.consensusSize - blockNumber % cfg.consensusSize +
    endVotingRounds * cfg.consensusSize - cfg.electionDistance

/-- `CalActiveBlock`: the first block of the round after the end of voting. -/
def calActiveBlock (endVotingBlock : UInt64) : UInt64 :=
  endVotingBlock + cfg.electionDistance + 1

/-- `IsBeginOfEpoch`. -/
def isBeginOfEpoch (blockNumber : UInt64) : Bool :=
  blockNumber % cfg.calcBlocksEachEpoch = 1

/-- `IsBeginOfConsensus`. -/
def isBeginOfConsensus (blockNumber : UInt64) : Bool :=
  blockNumber % cfg.consensusSize = 1

/-- `IsEndOfEpoch`. -/
def isEndOfEpoch (blockNumber : UInt64) : Bool :=
  blockNumber % cfg.calcBlocksEachEpoch = 0

/-- `IsElection`: the block `ElectionDistance` before the end of a round. -/
def isElection (blockNumber : UInt64) : Bool :=
  (blockNumber + cfg.electionDistance) % cfg.consensusSize = 0

end GovConfig

/-! ## The end of voting lands on a block of its kind -/

section Landing

variable {cfg : GovConfig}

theorem nextMultiple_mod {b size rounds : UInt64} (positive : 0 < size.toNat)
    (fits : b.toNat - b.toNat % size.toNat + size.toNat * (rounds.toNat + 1) < 2 ^ 64) :
    (b + size - b % size + rounds * size).toNat =
      size.toNat * (b.toNat / size.toNat + rounds.toNat + 1) := by
  have split := Nat.div_add_mod b.toNat size.toNat
  have low : b.toNat % size.toNat < size.toNat := Nat.mod_lt _ positive
  have spread : size.toNat * (b.toNat / size.toNat + rounds.toNat + 1) =
      size.toNat * (b.toNat / size.toNat) + size.toNat * rounds.toNat + size.toNat := by ring
  have next : size.toNat * (rounds.toNat + 1) = size.toNat * rounds.toNat + size.toNat := by ring
  have turned : rounds.toNat * size.toNat = size.toNat * rounds.toNat := Nat.mul_comm _ _
  have bound := b.toNat_lt
  simp only [UInt64.toNat_add, UInt64.toNat_sub, UInt64.toNat_mul, UInt64.toNat_mod]
  rw [spread, turned]
  omega

theorem isElection_calEndVotingBlock {b rounds : UInt64} (positive : 0 < cfg.consensusSize.toNat)
    (fits : b.toNat - b.toNat % cfg.consensusSize.toNat +
      cfg.consensusSize.toNat * (rounds.toNat + 1) < 2 ^ 64) :
    cfg.isElection (cfg.calEndVotingBlock b rounds) = true := by
  have back : cfg.calEndVotingBlock b rounds + cfg.electionDistance =
      b + cfg.consensusSize - b % cfg.consensusSize + rounds * cfg.consensusSize := by
    rw [GovConfig.calEndVotingBlock, sub_add_cancel]
  have multiple := nextMultiple_mod positive fits
  rw [GovConfig.isElection, back, decide_eq_true_iff, ← UInt64.toNat_inj, UInt64.toNat_mod,
    multiple, Nat.mul_mod_right]
  rfl

theorem isEndOfEpoch_estimateEndVotingBlock {b seconds : UInt64}
    (positive : 0 < cfg.calcBlocksEachEpoch.toNat)
    (fits : b.toNat - b.toNat % cfg.calcBlocksEachEpoch.toNat +
      cfg.calcBlocksEachEpoch.toNat * ((seconds / cfg.calcBlocksEachEpoch).toNat + 1) < 2 ^ 64) :
    cfg.isEndOfEpoch (cfg.estimateEndVotingBlockForParaProposal b seconds) = true := by
  have same : cfg.maxEpochMinutes * 60 / (cfg.interval * cfg.consensusSize) * cfg.consensusSize =
      cfg.calcBlocksEachEpoch := by
    rw [GovConfig.calcBlocksEachEpoch, GovConfig.epochSize, mul_comm]
  have multiple := nextMultiple_mod positive fits
  simp only [GovConfig.estimateEndVotingBlockForParaProposal, same, mul_one]
  rw [GovConfig.isEndOfEpoch, decide_eq_true_iff, ← UInt64.toNat_inj, UInt64.toNat_mod, multiple,
    Nat.mul_mod_right]
  rfl

theorem isElection_of_isEndOfEpoch {n : UInt64}
    (shorter : cfg.electionDistance.toNat < cfg.consensusSize.toNat)
    (distance : 0 < cfg.electionDistance.toNat)
    (epochFits : cfg.consensusSize.toNat * cfg.epochSize.toNat < 2 ^ 64)
    (fits : n.toNat + cfg.electionDistance.toNat < 2 ^ 64)
    (ending : cfg.isEndOfEpoch n = true) : cfg.isElection n = false := by
  rw [GovConfig.isEndOfEpoch, decide_eq_true_iff, ← UInt64.toNat_inj, UInt64.toNat_mod,
    GovConfig.calcBlocksEachEpoch, UInt64.toNat_mul, Nat.mod_eq_of_lt epochFits] at ending
  have onRound : n.toNat % cfg.consensusSize.toNat = 0 :=
    Nat.mod_eq_zero_of_dvd (Nat.dvd_trans (Dvd.intro _ rfl) (Nat.dvd_of_mod_eq_zero ending))
  have past : (n.toNat + cfg.electionDistance.toNat) % cfg.consensusSize.toNat =
      cfg.electionDistance.toNat := by
    rw [Nat.add_mod, onRound, Nat.zero_add, Nat.mod_mod, Nat.mod_eq_of_lt shorter]
  rw [GovConfig.isElection, decide_eq_false_iff_not, ← UInt64.toNat_inj, UInt64.toNat_mod,
    UInt64.toNat_add, Nat.mod_eq_of_lt fits, past]
  intro zero
  simp at zero
  omega

theorem isBeginOfConsensus_of_isBeginOfEpoch {n : UInt64} (long : 1 < cfg.consensusSize.toNat)
    (epochFits : cfg.consensusSize.toNat * cfg.epochSize.toNat < 2 ^ 64)
    (beginning : cfg.isBeginOfEpoch n = true) : cfg.isBeginOfConsensus n = true := by
  rw [GovConfig.isBeginOfEpoch, decide_eq_true_iff, ← UInt64.toNat_inj, UInt64.toNat_mod,
    GovConfig.calcBlocksEachEpoch, UInt64.toNat_mul, Nat.mod_eq_of_lt epochFits,
    UInt64.toNat_one] at beginning
  have onRound : n.toNat % cfg.consensusSize.toNat = 1 := by
    rw [← Nat.mod_mul_right_mod, beginning, Nat.mod_eq_of_lt long]
  rw [GovConfig.isBeginOfConsensus, decide_eq_true_iff, ← UInt64.toNat_inj, UInt64.toNat_mod,
    onRound, UInt64.toNat_one]

end Landing

end Gov
end Bubble
