import Bubble.Gov.Chain

/-!
# When a proposal is tallied

`Verify` sets the end of voting of a proposal: an election block for a text, version or cancel
proposal, the last block of an epoch for a parameter proposal, as long as the sum it computes does
not wrap (`Schedule`).  `EndBlock` at that block takes the proposal off voting when the block is of
its kind, and fails at a block of the other kind.  Along the chain, when every submitted proposal
ends at a block of its kind, no proposal stays at voting past its end.

A cancel proposal's `EndVotingRounds` has no upper bound, so the product with the round length
can wrap, and `Verify` then accepts an end that is the last block of an epoch and no election block.
Every block at that number fails, and the chain stops short of it.
-/

namespace Bubble
namespace Gov

open Rollback

/-- Whether `EndBlock` at block `n` tallies a proposal of the kind. -/
def GovConfig.talliedAt (cfg : GovConfig) (n : UInt64) (proposalType : ProposalType) : Bool :=
  tallies (cfg.isElection n) (!cfg.isElection n && cfg.isEndOfEpoch n) proposalType

/-- `Verify` at block `submitBlock` ends the voting of the proposal at a block where `EndBlock`
tallies it. -/
def GovConfig.Lands (cfg : GovConfig) (submitBlock : UInt64) (p : Proposal) : Prop :=
  cfg.talliedAt (cfg.endVotingBlockOf submitBlock p.body) p.proposalType = true

instance (cfg : GovConfig) (submitBlock : UInt64) (p : Proposal) :
    Decidable (cfg.Lands submitBlock p) :=
  inferInstanceAs (Decidable (_ = true))

/-- The sum `CalEndVotingBlock` computes from block `b` stays below `2^64`. -/
def GovConfig.RoundsFit (cfg : GovConfig) (b rounds : UInt64) : Prop :=
  b.toNat - b.toNat % cfg.consensusSize.toNat + cfg.consensusSize.toNat * (rounds.toNat + 1) < 2 ^ 64

instance (cfg : GovConfig) (b rounds : UInt64) : Decidable (cfg.RoundsFit b rounds) :=
  inferInstanceAs (Decidable (_ < _))

/-- The sum `Verify` computes for the end of voting of a proposal submitted at block `b` stays below
`2^64`, and for a parameter proposal so does the sum `IsElection` computes at that end. -/
def GovConfig.Fits (cfg : GovConfig) (b : UInt64) : ProposalBody → Prop
  | .text => cfg.RoundsFit b (cfg.estimateConsensusRoundsForGov cfg.textProposalVoteDurationSeconds)
  | .version endVotingRounds _ _ => cfg.RoundsFit b endVotingRounds
  | .cancel endVotingRounds _ => cfg.RoundsFit b endVotingRounds
  | .param _ _ _ =>
      b.toNat - b.toNat % cfg.calcBlocksEachEpoch.toNat + cfg.calcBlocksEachEpoch.toNat *
        ((cfg.paramProposalVoteDurationSeconds / cfg.calcBlocksEachEpoch).toNat + 1) < 2 ^ 64 ∧
      (cfg.estimateEndVotingBlockForParaProposal b cfg.paramProposalVoteDurationSeconds).toNat +
        cfg.electionDistance.toNat < 2 ^ 64

instance (cfg : GovConfig) (b : UInt64) (body : ProposalBody) : Decidable (cfg.Fits b body) := by
  cases body <;> unfold GovConfig.Fits <;> infer_instance

/-- Every proposal at voting ends its voting at a block that `later` admits, one where `EndBlock`
tallies it. -/
def GovState.Awaits (cfg : GovConfig) (later : UInt64 → Prop) (s : GovState) : Prop :=
  ∀ id ∈ s.votingProposals, ∀ p, s.proposals id = some p →
    later p.endVotingBlock ∧ cfg.talliedAt p.endVotingBlock p.proposalType = true

/-- What the chain keeps of the timing of tallies: governance is sound, and every proposal at
voting ends its voting after the last block. -/
def Chain.OnTime (cfg : GovConfig) (c : Chain) : Prop :=
  c.state.Sound ∧ c.state.Awaits cfg (c.number < ·)

variable {cfg : GovConfig} {stk : GovStaking} {s s' : GovState} {n : UInt64}

theorem next_le_of_lt {e : UInt64} (before : n < e) : n + 1 ≤ e := by
  rw [UInt64.lt_iff_toNat_lt] at before
  rw [UInt64.le_iff_toNat_le, UInt64.toNat_add, UInt64.toNat_one]
  have bound := e.toNat_lt
  omega

theorem Chain.number_next_le (c : Chain) (txs : List GovTx) :
    (c.next cfg stk txs).number.toNat ≤ c.number.toNat + 1 := by
  rw [Chain.next]
  split
  · show (c.number + 1).toNat ≤ c.number.toNat + 1
    rw [UInt64.toNat_add, UInt64.toNat_one]
    exact Nat.mod_le _ _
  · exact Nat.le_succ _

/-! ## `Verify` ends voting where `EndBlock` tallies -/

section Landing

variable (shorter : cfg.electionDistance.toNat < cfg.consensusSize.toNat)
  (distance : 0 < cfg.electionDistance.toNat)

include shorter distance in
theorem talliedAt_calEndVotingBlock {b rounds : UInt64} {proposalType : ProposalType}
    (fits : cfg.RoundsFit b rounds) (kind : proposalType ≠ .param) :
    cfg.talliedAt (cfg.calEndVotingBlock b rounds) proposalType = true := by
  have election := isElection_calEndVotingBlock (by omega) fits
  rw [GovConfig.talliedAt, election]
  cases proposalType with
  | param => exact absurd rfl kind
  | _ => rfl

include shorter distance in
theorem talliedAt_estimateEndVotingBlock {b seconds : UInt64}
    (epochFits : cfg.consensusSize.toNat * cfg.epochSize.toNat < 2 ^ 64)
    (epochLong : 0 < cfg.calcBlocksEachEpoch.toNat)
    (fits : b.toNat - b.toNat % cfg.calcBlocksEachEpoch.toNat +
      cfg.calcBlocksEachEpoch.toNat * ((seconds / cfg.calcBlocksEachEpoch).toNat + 1) < 2 ^ 64)
    (endFits : (cfg.estimateEndVotingBlockForParaProposal b seconds).toNat +
      cfg.electionDistance.toNat < 2 ^ 64) :
    cfg.talliedAt (cfg.estimateEndVotingBlockForParaProposal b seconds) .param = true := by
  have ending := isEndOfEpoch_estimateEndVotingBlock epochLong fits
  have notElection := isElection_of_isEndOfEpoch shorter distance epochFits endFits ending
  rw [GovConfig.talliedAt, notElection, ending]
  rfl

end Landing

/-- `Verify` ends the voting of a proposal at a block where `EndBlock` tallies it, as long as the
sums it computes do not wrap: an election block for a text, version or cancel proposal, the last
block of an epoch, which is no election block, for a parameter proposal. -/
theorem lands_unless_wrapped (shorter : cfg.electionDistance.toNat < cfg.consensusSize.toNat)
    (distance : 0 < cfg.electionDistance.toNat)
    (epochFits : cfg.consensusSize.toNat * cfg.epochSize.toNat < 2 ^ 64)
    (epochLong : 0 < cfg.calcBlocksEachEpoch.toNat) {b : UInt64} {p : Proposal}
    (fits : cfg.Fits b p.body) : cfg.Lands b p := by
  rw [GovConfig.Lands, Proposal.proposalType]
  cases body : p.body with
  | text =>
      rw [body] at fits
      exact talliedAt_calEndVotingBlock shorter distance fits (by simp [ProposalBody.proposalType])
  | version endVotingRounds newVersion activeBlock =>
      rw [body] at fits
      exact talliedAt_calEndVotingBlock shorter distance fits (by simp [ProposalBody.proposalType])
  | cancel endVotingRounds tobeCanceled =>
      rw [body] at fits
      exact talliedAt_calEndVotingBlock shorter distance fits (by simp [ProposalBody.proposalType])
  | param module name newValue =>
      rw [body] at fits
      exact talliedAt_estimateEndVotingBlock shorter distance epochFits epochLong fits.1 fits.2

/-! ## `EndBlock` tallies what ends at its block -/

section Tallying

variable {isElection isEndOfEpoch : Bool} {id : Hash} {t t' : Stages} {p : Proposal}

theorem Stages.off_voting (distinct : t.votingProposals.Nodup)
    (outcome : t' = t.finish id ∨ (p.proposalType = .version ∧ t' = t.promote id) ∨
      ∃ rounds target, p.body = .cancel rounds target ∧ target ∈ (t.finish id).votingProposals ∧
        t' = (t.finish id).finish target) :
    id ∉ t'.votingProposals := by
  rcases outcome with rfl | ⟨-, rfl⟩ | ⟨rounds, target, -, -, rfl⟩
  · exact distinct.not_mem_erase
  · exact distinct.not_mem_erase
  · exact fun voting => distinct.not_mem_erase (List.mem_of_mem_erase voting)

/-- The loop of `EndBlock` tallies each proposal it visits whose voting ends at the block: the
block is of the proposal's kind, and the proposal is off voting afterwards. -/
theorem endBlockLoop_tallies :
    ∀ {ids : List Hash} {s s' : GovState}, ids.Nodup → s.stages.Valid → s.stages.Pending n ids →
      endBlockLoop cfg stk n isElection isEndOfEpoch ids s = .ok s' →
      ∀ x ∈ ids, ∀ p, s.proposals x = some p → p.endVotingBlock = n →
        tallies isElection isEndOfEpoch p.proposalType = true ∧ x ∉ s'.votingProposals
  | [], _, _, _, _, _, _ => fun _ member => absurd member List.not_mem_nil
  | first :: rest, s, s', distinct, valid, pending, looped => by
      obtain ⟨q, s₁, stored, turned, left, pending₁, looped⟩ :=
        endBlockLoop_cons distinct valid pending looped
      obtain ⟨-, moved⟩ := endBlockTurn_moves valid.votingDistinct turned
      have restDistinct := (List.nodup_cons.mp distinct).2
      have after := (endBlockLoop_leaves restDistinct (valid.leaves left) pending₁ looped).1.narrows
      intro x member p recorded ending
      rcases List.mem_cons.mp member with rfl | later
      · obtain rfl : q = p := Option.some_inj.mp (stored.symm.trans recorded)
        rcases moved with ⟨early, -⟩ | ⟨-, kind, outcome⟩
        · exact absurd ending early
        · rw [valid.keyed stored] at outcome
          exact ⟨kind, fun voting => Stages.off_voting valid.votingDistinct outcome (after.2 voting)⟩
      · have same : s₁.proposals = s.proposals := left.narrows.1
        exact endBlockLoop_tallies restDistinct (valid.leaves left) pending₁ looped x later p
          (same ▸ recorded) ending

theorem endBlock_tallies (valid : s.stages.Valid) (ended : endBlock cfg stk n s = .ok s')
    (voting : id ∈ s.votingProposals) (stored : s.proposals id = some p)
    (ending : p.endVotingBlock = n) :
    (cfg.talliedAt n p.proposalType = true ∧ id ∉ s'.votingProposals) ∨
      (cfg.isElection n = false ∧ cfg.isEndOfEpoch n = false ∧ s' = s) := by
  unfold endBlock at ended
  extract_lets isElection isEndOfEpoch at ended
  by_cases idle : (!isElection && !isEndOfEpoch) = true
  · rw [if_pos idle] at ended
    obtain rfl := Except.ok.inj ended
    right
    cases election : cfg.isElection n <;> cases epochEnd : cfg.isEndOfEpoch n <;>
      simp [isElection, isEndOfEpoch, election, epochEnd] at idle ⊢
  rw [if_neg idle] at ended
  have nonempty : s.votingProposals.isEmpty = false :=
    List.isEmpty_eq_false_iff_exists_mem.mpr ⟨id, voting⟩
  rw [if_neg (by rw [nonempty]; decide)] at ended
  exact Or.inl (endBlockLoop_tallies valid.votingDistinct valid (fun x member => Or.inl member)
    ended id voting p stored ending)

end Tallying

/-! ## No proposal stays at voting past its end -/

section Awaiting

variable {later later' : UInt64 → Prop}

theorem GovState.Awaits.narrow (awaits : s.Awaits cfg later)
    (voting : s'.votingProposals ⊆ s.votingProposals) (same : s'.proposals = s.proposals) :
    s'.Awaits cfg later := fun id member p stored =>
  awaits id (voting member) p (same ▸ stored)

theorem GovState.Awaits.mono (awaits : s.Awaits cfg later) (weaker : ∀ e, later e → later' e) :
    s.Awaits cfg later' := fun id member p stored =>
  (awaits id member p stored).imp_left (weaker _)

/-- What a call inside block `n` does to the proposals: `Submit` stores a verified proposal and
puts it at voting, and every other call leaves the proposals and the voting list alone. -/
theorem GovTx.apply_places {tx : GovTx} (applied : (tx.op n).apply cfg stk s = .ok s') :
    (∃ caller proposal p, tx = .submit caller proposal ∧ Verified cfg s n proposal p ∧
      s'.votingProposals = addProposalByKey s.votingProposals p.proposalID ∧
      s'.proposals = Function.update s.proposals p.proposalID (some p)) ∨
    (s'.votingProposals = s.votingProposals ∧ s'.proposals = s.proposals) := by
  cases tx with
  | submit caller proposal =>
      rw [GovTx.op, GovOp.apply] at applied
      obtain ⟨p, verified, rfl⟩ := submit_enters applied
      exact Or.inl ⟨caller, proposal, p, rfl, verified, rfl, rfl⟩
  | vote caller v programVersion signed =>
      rw [GovTx.op, GovOp.apply] at applied
      obtain ⟨-, -, -, rfl | rfl⟩ := vote_casts applied
      · exact Or.inr ⟨rfl, rfl⟩
      · exact Or.inr ⟨rfl, rfl⟩
  | declareVersion caller declaredNodeID declaredVersion signed =>
      rw [GovTx.op, GovOp.apply] at applied
      obtain rfl | ⟨proposalID, rfl⟩ := declareVersion_declares applied
      · exact Or.inr ⟨rfl, rfl⟩
      · exact Or.inr ⟨rfl, rfl⟩
  | notifyPunishedVerifiers punished =>
      rw [GovTx.op, GovOp.apply] at applied
      obtain rfl := Except.ok.inj applied
      exact Or.inr ⟨congrArg Stages.votingProposals notifyPunishedVerifiers_keeps.1,
        congrArg Stages.proposals notifyPunishedVerifiers_keeps.1⟩

theorem GovTx.apply_awaits {tx : GovTx} (awaits : s.Awaits cfg (n ≤ ·))
    (lands : ∀ caller p, tx = .submit caller p → cfg.Lands n p)
    (applied : (tx.op n).apply cfg stk s = .ok s') : s'.Awaits cfg (n ≤ ·) := by
  rcases GovTx.apply_places applied with
    ⟨caller, proposal, p, rfl, verified, voting, same⟩ | ⟨voting, same⟩
  · intro id member q stored
    rw [voting, mem_addProposalByKey] at member
    rw [same] at stored
    by_cases fresh : id = p.proposalID
    · rw [fresh, Function.update_self, Option.some_inj] at stored
      subst stored
      have landed := lands caller proposal rfl
      rw [GovConfig.Lands, ← verified.ends, ← verified.kind] at landed
      exact ⟨UInt64.le_of_lt verified.after, landed⟩
    · rw [Function.update_of_ne fresh] at stored
      exact awaits id (member.resolve_right fresh) q stored
  · exact awaits.narrow (fun _ member => voting ▸ member) same

theorem endBlock_awaits (valid : s.stages.Valid) (awaits : s.Awaits cfg (n ≤ ·))
    (ended : endBlock cfg stk n s = .ok s') : s'.Awaits cfg (n < ·) := by
  have narrows := (endBlock_leaves valid ended).1.narrows
  have same : s'.proposals = s.proposals := narrows.1
  intro id member p stored
  have stored₀ : s.proposals id = some p := same ▸ stored
  obtain ⟨due, landed⟩ := awaits id (narrows.2 member) p stored₀
  refine ⟨UInt64.lt_of_le_of_ne due fun ending => ?_, landed⟩
  rcases endBlock_tallies valid ended (narrows.2 member) stored₀ ending.symm with
    ⟨-, off⟩ | ⟨election, epochEnd, -⟩
  · exact off member
  · rw [← ending, GovConfig.talliedAt, election, epochEnd] at landed
    revert landed
    cases p.proposalType <;> simp [tallies]

theorem processBlock_awaits {txs : List GovTx} (sound : s.Sound) (awaits : s.Awaits cfg (n < ·))
    (lands : ∀ caller p, GovTx.submit caller p ∈ txs → cfg.Lands (n + 1) p)
    (processed : processBlock cfg stk (n + 1) txs s = .ok s') : s'.Awaits cfg (n + 1 < ·) := by
  obtain ⟨s₁, begun, ended⟩ := bind_eq_ok.mp processed
  have begunApplied : (GovOp.beginBlock (n + 1)).apply cfg stk s = .ok s₁ := begun
  have narrows := (beginBlock_leaves begun).narrows
  have due : s₁.Awaits cfg (n + 1 ≤ ·) :=
    (awaits.narrow narrows.2 narrows.1).mono fun _ => next_le_of_lt
  have ran : (govRun cfg stk (txs.map (GovTx.op (n + 1))) s₁).Sound ∧
      (govRun cfg stk (txs.map (GovTx.op (n + 1))) s₁).Awaits cfg (n + 1 ≤ ·) :=
    govRun_txs_invariant (fun tx member (state : GovState) _
        (holds : state.Sound ∧ state.Awaits cfg (n + 1 ≤ ·)) applied =>
        ⟨GovOp.apply_sound holds.1 applied, GovTx.apply_awaits holds.2
          (fun caller p submitted => lands caller p (submitted ▸ member)) applied⟩)
      ⟨GovOp.apply_sound sound begunApplied, due⟩
  exact endBlock_awaits ran.1.1 ran.2 ended

theorem Chain.next_onTime {c : Chain} (onTime : c.OnTime cfg) {txs : List GovTx}
    (lands : ∀ caller p, GovTx.submit caller p ∈ txs → cfg.Lands (c.number + 1) p) :
    (c.next cfg stk txs).OnTime cfg :=
  Chain.next_invariant onTime fun _ processed =>
    ⟨processBlock_sound onTime.1 processed, processBlock_awaits onTime.1 onTime.2 lands processed⟩

theorem chainRun_onTime (blocks : List (List GovTx)) {c : Chain} (onTime : c.OnTime cfg)
    (lands : ∀ txs ∈ blocks, ∀ caller p, GovTx.submit caller p ∈ txs →
      ∀ b : UInt64, b.toNat ≤ c.number.toNat + blocks.length → cfg.Lands b p) :
    (chainRun cfg stk blocks c).OnTime cfg := by
  induction blocks generalizing c with
  | nil => exact onTime
  | cons txs blocks induction =>
      have reach : (c.number + 1).toNat ≤ c.number.toNat + (txs :: blocks).length := by
        rw [UInt64.toNat_add, UInt64.toNat_one, List.length_cons]
        have := Nat.mod_le (c.number.toNat + 1) (2 ^ 64)
        omega
      refine induction
        (Chain.next_onTime onTime fun caller p member => lands txs List.mem_cons_self caller p member _ reach)
        fun rest member caller p submitted b bound => ?_
      have step : (c.next cfg stk txs).number.toNat ≤ c.number.toNat + 1 := Chain.number_next_le c txs
      refine lands rest (List.mem_cons_of_mem txs member) caller p submitted b ?_
      rw [List.length_cons]
      omega

theorem Chain.genesis_onTime (genesisVersion : UInt32) (paramItems : List ParamItem)
    (paramValues : String → String → Option ParamValue) :
    (Chain.genesis genesisVersion paramItems paramValues).OnTime cfg :=
  ⟨genesis_sound genesisVersion paramItems paramValues, fun _ member => absurd member List.not_mem_nil⟩

/-- Along the chain from genesis, when every submitted proposal lands at a block of its kind, no
proposal stays at voting past its end: after each block, every proposal at voting ends its voting
at a later block, one where `EndBlock` tallies it. -/
theorem voting_ends_after_last_block (genesisVersion : UInt32) (paramItems : List ParamItem)
    (paramValues : String → String → Option ParamValue) (blocks : List (List GovTx))
    (lands : ∀ txs ∈ blocks, ∀ caller p, GovTx.submit caller p ∈ txs →
      ∀ b : UInt64, b.toNat ≤ blocks.length → cfg.Lands b p) :
    let c := chainRun cfg stk blocks (Chain.genesis genesisVersion paramItems paramValues)
    ∀ id ∈ c.state.votingProposals, ∀ p, c.state.proposals id = some p →
      c.number < p.endVotingBlock ∧ cfg.talliedAt p.endVotingBlock p.proposalType = true :=
  (chainRun_onTime blocks (Chain.genesis_onTime genesisVersion paramItems paramValues)
    fun txs member caller p submitted b bound =>
      lands txs member caller p submitted b (by simpa [Chain.genesis] using bound)).2

/-- A version proposal of `sampleVerifier`, submitted at block `1`, voting for the longest period
allowed, 2813 rounds. -/
def sampleVersionProposal : Proposal :=
  ⟨(1 : BitVec 256), "1", 1, 0, sampleVerifier, .version 2813 0x0200 0⟩

/-- It lands: its sums do not wrap. -/
theorem sample_version_lands : sampleGovConfig.Lands 1 sampleVersionProposal :=
  lands_unless_wrapped (by decide) (by decide) (by decide) (by decide) (by decide)

theorem voting_ends_after_last_block_on_sample :
    let c := chainRun sampleGovConfig sampleGovStaking [[.submit sampleStaker sampleVersionProposal]]
      (Chain.genesis 0x0100 [] fun _ _ => none)
    ∀ id ∈ c.state.votingProposals, ∀ p, c.state.proposals id = some p →
      c.number < p.endVotingBlock ∧
        sampleGovConfig.talliedAt p.endVotingBlock p.proposalType = true :=
  voting_ends_after_last_block 0x0100 [] (fun _ _ => none) _
    fun txs member caller p submitted b bound => by
      rw [List.mem_singleton] at member
      subst member
      rw [List.mem_singleton, GovTx.submit.injEq] at submitted
      obtain ⟨rfl, rfl⟩ := submitted
      rw [List.length_singleton] at bound
      rcases Nat.le_one_iff_eq_zero_or_eq_one.mp bound with zero | one
      · rw [show b = 0 from UInt64.toNat_inj.mp zero]
        decide +kernel
      · rw [show b = 1 from UInt64.toNat_inj.mp one]
        decide +kernel

end Awaiting

/-! ## A cancel proposal whose end wraps stops the chain -/

section Wrapping

variable {isElection isEndOfEpoch : Bool} {id : Hash} {p : Proposal}

theorem beginBlock_voting (begun : beginBlock cfg stk n s = .ok s') :
    s'.votingProposals = s.votingProposals := by
  have accumulated : (if cfg.isBeginOfConsensus n ∧ cfg.isBeginOfEpoch n
      then accuVerifiersAtBeginOfSettlement stk n s else s).votingProposals = s.votingProposals := by
    split_ifs
    · exact congrArg Stages.votingProposals accuVerifiersAtBeginOfSettlement_stages
    · rfl
  rcases beginBlock_spec begun with rfl | ⟨-, q, rounds, tallyResult, -, -, -, -, rfl⟩
  · exact accumulated
  · exact accumulated

theorem GovTx.apply_keeps {tx : GovTx} (valid : s.stages.Valid) (voting : id ∈ s.votingProposals)
    (stored : s.proposals id = some p) (applied : (tx.op n).apply cfg stk s = .ok s') :
    id ∈ s'.votingProposals ∧ s'.proposals id = some p := by
  rcases GovTx.apply_places applied with
    ⟨caller, proposal, q, -, verified, voting', same⟩ | ⟨voting', same⟩
  · have other : id ≠ q.proposalID := fun fresh =>
      verified.admits.not_listed valid (fresh ▸ Stages.listed_of_voting (t := s.stages) voting)
    rw [voting', same, mem_addProposalByKey, Function.update_of_ne other]
    exact ⟨Or.inl voting, stored⟩
  · rw [voting', same]
    exact ⟨voting, stored⟩

theorem processBlock_before_endBlock {txs : List GovTx} (sound : s.Sound)
    (voting : id ∈ s.votingProposals) (stored : s.proposals id = some p)
    (processed : processBlock cfg stk n txs s = .ok s') :
    ∃ s₂, endBlock cfg stk n s₂ = .ok s' ∧ s₂.Sound ∧ id ∈ s₂.votingProposals ∧
      s₂.proposals id = some p := by
  obtain ⟨s₁, begun, ended⟩ := bind_eq_ok.mp processed
  have begunApplied : (GovOp.beginBlock n).apply cfg stk s = .ok s₁ := begun
  have same : s₁.proposals = s.proposals := (beginBlock_leaves begun).narrows.1
  have voting₁ : id ∈ s₁.votingProposals := by
    rw [beginBlock_voting begun]
    exact voting
  refine ⟨_, ended, govRun_txs_invariant (fun _ _ (state : GovState) _
      (holds : state.Sound ∧ id ∈ state.votingProposals ∧ state.proposals id = some p) applied =>
        ⟨GovOp.apply_sound holds.1 applied, GovTx.apply_keeps holds.1.1 holds.2.1 holds.2.2 applied⟩)
    ⟨GovOp.apply_sound sound begunApplied, voting₁, same ▸ stored⟩⟩

/-- The loop of `EndBlock` keeps at voting a cancel proposal whose voting does not end at the
block: it is the only cancel proposal at voting, so no turn ends it. -/
theorem endBlockLoop_spares (cancel : p.proposalType = .cancel) (later : p.endVotingBlock ≠ n) :
    ∀ {ids : List Hash} {s s' : GovState}, ids.Nodup → s.stages.Valid → s.stages.Pending n ids →
      endBlockLoop cfg stk n isElection isEndOfEpoch ids s = .ok s' →
      id ∈ s.votingProposals → s.proposals id = some p → id ∈ s'.votingProposals
  | [], _, _, _, _, _, looped, voting, _ => by
      cases looped
      exact voting
  | first :: rest, s, s', distinct, valid, pending, looped, voting, stored => by
      obtain ⟨q, s₁, storedQ, turned, left, pending₁, looped⟩ :=
        endBlockLoop_cons distinct valid pending looped
      obtain ⟨-, moved⟩ := endBlockTurn_moves valid.votingDistinct turned
      have same : s₁.proposals = s.proposals := left.narrows.1
      have kept : id ∈ s₁.votingProposals := by
        rcases moved with ⟨-, stages⟩ | ⟨ending, -, outcome⟩
        · rw [show s₁.votingProposals = s.votingProposals from
            congrArg Stages.votingProposals stages]
          exact voting
        have other : id ≠ first := by
          rintro rfl
          obtain rfl := Option.some_inj.mp (stored.symm.trans storedQ)
          exact later ending
        rw [valid.keyed storedQ] at outcome
        rcases outcome with stages | ⟨-, stages⟩ | ⟨rounds, target, body, -, -⟩
        · rw [show s₁.votingProposals = (s.stages.finish first).votingProposals from
            congrArg Stages.votingProposals stages]
          exact valid.votingDistinct.mem_erase_iff.mpr ⟨other, voting⟩
        · rw [show s₁.votingProposals = (s.stages.promote first).votingProposals from
            congrArg Stages.votingProposals stages]
          exact valid.votingDistinct.mem_erase_iff.mpr ⟨other, voting⟩
        · have firstCancel : s.stages.KindIn first [.cancel] :=
            ⟨q, storedQ, List.mem_singleton.mpr (by rw [Proposal.proposalType, body]; rfl)⟩
          exact absurd (valid.oneCancel voting (pending.voting storedQ ending)
            ⟨p, stored, List.mem_singleton.mpr cancel⟩ firstCancel) other
      exact endBlockLoop_spares cancel later (List.nodup_cons.mp distinct).2 (valid.leaves left)
        pending₁ looped kept (same ▸ stored)

theorem endBlock_spares (valid : s.stages.Valid) (ended : endBlock cfg stk n s = .ok s')
    (voting : id ∈ s.votingProposals) (stored : s.proposals id = some p)
    (cancel : p.proposalType = .cancel) (later : p.endVotingBlock ≠ n) :
    id ∈ s'.votingProposals := by
  unfold endBlock at ended
  extract_lets isElection isEndOfEpoch at ended
  split_ifs at ended
  · obtain rfl := Except.ok.inj ended
    exact voting
  · obtain rfl := Except.ok.inj ended
    exact voting
  · exact endBlockLoop_spares cancel later valid.votingDistinct valid (fun x member => Or.inl member)
      ended voting stored

theorem processBlock_misplaced {txs : List GovTx} (sound : s.Sound)
    (voting : id ∈ s.votingProposals) (stored : s.proposals id = some p)
    (kind : p.proposalType ≠ .param) (ending : p.endVotingBlock = n)
    (epochEnd : cfg.isEndOfEpoch n = true) (notElection : cfg.isElection n = false) :
    ∀ s', processBlock cfg stk n txs s ≠ .ok s' := by
  intro s' processed
  obtain ⟨s₂, ended, sound₂, voting₂, stored₂⟩ :=
    processBlock_before_endBlock sound voting stored processed
  rcases endBlock_tallies sound₂.1 ended voting₂ stored₂ ending with
    ⟨tallied, -⟩ | ⟨-, notEnd, -⟩
  · rw [GovConfig.talliedAt, notElection, epochEnd] at tallied
    revert tallied kind
    cases p.proposalType <;> simp [tallies]
  · rw [epochEnd] at notEnd
    cases notEnd

theorem processBlock_keeps {txs : List GovTx} (sound : s.Sound)
    (voting : id ∈ s.votingProposals) (stored : s.proposals id = some p)
    (cancel : p.proposalType = .cancel) (later : p.endVotingBlock ≠ n)
    (processed : processBlock cfg stk n txs s = .ok s') :
    id ∈ s'.votingProposals ∧ s'.proposals id = some p := by
  obtain ⟨s₂, ended, sound₂, voting₂, stored₂⟩ :=
    processBlock_before_endBlock sound voting stored processed
  have same : s'.proposals = s₂.proposals := (endBlock_leaves sound₂.1 ended).1.narrows.1
  exact ⟨endBlock_spares sound₂.1 ended voting₂ stored₂ cancel later, same ▸ stored₂⟩

theorem Chain.next_stalls {c : Chain} (sound : c.state.Sound)
    (voting : id ∈ c.state.votingProposals) (stored : c.state.proposals id = some p)
    (cancel : p.proposalType = .cancel) (before : c.number < p.endVotingBlock)
    (epochEnd : cfg.isEndOfEpoch p.endVotingBlock = true)
    (notElection : cfg.isElection p.endVotingBlock = false) (txs : List GovTx) :
    id ∈ (c.next cfg stk txs).state.votingProposals ∧
      (c.next cfg stk txs).state.proposals id = some p ∧
      (c.next cfg stk txs).number < p.endVotingBlock := by
  refine Chain.next_invariant (P := fun c' => id ∈ c'.state.votingProposals ∧
    c'.state.proposals id = some p ∧ c'.number < p.endVotingBlock) ⟨voting, stored, before⟩
    fun s' processed => ?_
  have other : c.number + 1 ≠ p.endVotingBlock := by
    intro ending
    rw [← ending] at epochEnd notElection
    exact processBlock_misplaced sound voting stored (by rw [cancel]; decide) ending.symm
      epochEnd notElection s' processed
  have kept := processBlock_keeps sound voting stored cancel (Ne.symm other) processed
  exact ⟨kept.1, kept.2, UInt64.lt_of_le_of_ne (next_le_of_lt before) other⟩

/-- Once a cancel proposal at voting ends at the last block of an epoch that is no election block,
the chain never reaches that block: whatever blocks follow, every block at its number fails. -/
theorem chain_stops_short {c : Chain} (sound : c.state.Sound)
    (voting : id ∈ c.state.votingProposals) (stored : c.state.proposals id = some p)
    (cancel : p.proposalType = .cancel) (before : c.number < p.endVotingBlock)
    (epochEnd : cfg.isEndOfEpoch p.endVotingBlock = true)
    (notElection : cfg.isElection p.endVotingBlock = false) (blocks : List (List GovTx)) :
    (chainRun cfg stk blocks c).number < p.endVotingBlock := by
  induction blocks generalizing c with
  | nil => exact before
  | cons txs blocks induction =>
      obtain ⟨voting', stored', before'⟩ :=
        Chain.next_stalls sound voting stored cancel before epochEnd notElection txs
      exact induction (Chain.next_sound sound txs) voting' stored' before'

/-- A cancel of `sampleVersionProposal` submitted at block `2`.  Its `EndVotingRounds` times the
round length of 430 blocks wraps around `2^64` so that its voting ends at block `10750`, the last
block of the first epoch and no election block; `Verify` has no bound on it. -/
def sampleWrappingCancel : Proposal :=
  ⟨(2 : BitVec 256), "2", 2, 0, sampleVerifier, .cancel 428994048225803550 (1 : BitVec 256)⟩

/-- The chain after block `1` submits `sampleVersionProposal` and block `2` its cancel. -/
def sampleWrappedChain : Chain :=
  chainRun sampleGovConfig sampleGovStaking
    [[.submit sampleStaker sampleVersionProposal], [.submit sampleStaker sampleWrappingCancel]]
    (Chain.genesis 0x0100 [] fun _ _ => none)

/-- The 10748 blocks that would take the chain from block `2` to block `10750` leave it short. -/
theorem wrapping_cancel_stops_chain :
    (chainRun sampleGovConfig sampleGovStaking (List.replicate 10748 [])
      sampleWrappedChain).number < 10750 :=
  chain_stops_short (p := { sampleWrappingCancel with endVotingBlock := 10750 })
    (chainRun_sound _ (genesis_sound 0x0100 [] fun _ _ => none))
    (show sampleWrappingCancel.proposalID ∈ sampleWrappedChain.state.votingProposals by
      decide +kernel)
    (by decide +kernel) rfl (by decide +kernel) (by decide +kernel) (by decide +kernel)
    (List.replicate 10748 [])

end Wrapping

end Gov
end Bubble
