import Bubble.Gov.Plugin
import Bubble.Gov.Ballots
import Bubble.Gov.Stages
import Bubble.Lib.Traverse

/-!
# What the plugin does to the stages and the ballots

Each tally moves the tallied proposal out of voting, and a passed cancellation its target too;
`EndBlock` runs the tallies of the block, `BeginBlock` accumulates verifiers and activates the
pre-active version, and `ClearProcessingProposals` ends every proposal in process.  On a voting
list without repeats `remove` is `List.erase`, so none of them panics, and each is a run of
`Stages.Leave` moves.  Only accumulating, a slashing and clearing touch the ballots.
-/

namespace Bubble
namespace Gov

open Rollback

variable {cfg : GovConfig} {stk : GovStaking} {s s' : GovState}

/-! ## Moving a proposal on -/

section Move

variable (s)

theorem moveVotingProposalIDToEnd_of_nodup (distinct : s.votingProposals.Nodup) (id : Hash) :
    s.moveVotingProposalIDToEnd id =
      .ok { s with votingProposals := s.votingProposals.erase id
                   endProposals := addProposalByKey s.endProposals id } := by
  rw [GovState.moveVotingProposalIDToEnd, remove_of_nodup distinct]

theorem moveVotingProposalIDToPreActive_of_nodup (distinct : s.votingProposals.Nodup) (id : Hash)
    (version : UInt32) :
    s.moveVotingProposalIDToPreActive id version =
      .ok { s with votingProposals := s.votingProposals.erase id
                   preActiveProposal := id
                   preActiveVersion := version } := by
  rw [GovState.moveVotingProposalIDToPreActive, remove_of_nodup distinct]

variable {s}

theorem moveVotingProposalIDToEnd_finishes {id : Hash}
    (moved : s.moveVotingProposalIDToEnd id = .ok s') (distinct : s.votingProposals.Nodup) :
    s'.stages = s.stages.finish id ∧ s'.ballots = s.ballots := by
  rw [moveVotingProposalIDToEnd_of_nodup s distinct] at moved
  cases moved
  exact ⟨rfl, rfl⟩

theorem moveVotingProposalIDToPreActive_promotes {id : Hash} {version : UInt32}
    (moved : s.moveVotingProposalIDToPreActive id version = .ok s')
    (distinct : s.votingProposals.Nodup) :
    s'.stages = s.stages.promote id ∧ s'.ballots = s.ballots := by
  rw [moveVotingProposalIDToPreActive_of_nodup s distinct] at moved
  cases moved
  exact ⟨rfl, rfl⟩

theorem GovState.updateGovernParamValue_keeps {module name newValue : String} {activeBlock : UInt64}
    (updated : s.updateGovernParamValue module name newValue activeBlock = .ok s') :
    s'.stages = s.stages ∧ s'.ballots = s.ballots := by
  unfold GovState.updateGovernParamValue at updated
  split at updated
  · cases updated
  · cases updated
    exact ⟨rfl, rfl⟩

end Move

/-! ## The tallies -/

section Tallies

variable {proposalType : ProposalType} {proposalID : Hash} {pipID : String} {pass : Bool}

theorem tally_records (cfg : GovConfig) (proposalType : ProposalType) (proposalID : Hash)
    (pipID : String) (s : GovState) :
    ∃ status : ProposalStatus, tally cfg proposalType proposalID pipID s =
      ((s.setTallyResult ⟨proposalID,
          UInt64.ofNat ((s.votes proposalID).countP (·.voteOption = .yes)),
          UInt64.ofNat ((s.votes proposalID).countP (·.voteOption = .no)),
          UInt64.ofNat ((s.votes proposalID).countP (·.voteOption = .abstention)),
          UInt64.ofNat (s.accuVerifiers proposalID).length, status, zeroHash⟩).moveVotingProposalIDToEnd
        proposalID >>= fun s₁ =>
          pure (decide (status = .pass), if status = .pass then s₁.addPIPID pipID else s₁)) :=
  ⟨_, rfl⟩

theorem tally_finishes (distinct : s.votingProposals.Nodup)
    (tallied : tally cfg proposalType proposalID pipID s = .ok (pass, s')) :
    s'.stages = s.stages.finish proposalID ∧ s'.ballots = s.ballots := by
  obtain ⟨status, shape⟩ := tally_records cfg proposalType proposalID pipID s
  rw [shape] at tallied
  obtain ⟨s₁, moved, tallied⟩ := bind_eq_ok.mp tallied
  obtain ⟨stages, ballots⟩ := moveVotingProposalIDToEnd_finishes moved distinct
  simp only [pure, Except.pure, Except.ok.injEq, Prod.mk.injEq] at tallied
  obtain ⟨-, rfl⟩ := tallied
  rw [GovState.stages_setTallyResult] at stages
  rw [GovState.ballots_setTallyResult] at ballots
  rw [apply_ite GovState.stages, apply_ite GovState.ballots, GovState.stages_addPIPID,
    GovState.ballots_addPIPID, ite_self, ite_self]
  exact ⟨stages, ballots⟩

/-- `tallyVersion` makes the proposal pre-active or ends it. -/
theorem tallyVersion_moves (distinct : s.votingProposals.Nodup) {proposal : Proposal}
    {newVersion : UInt32} {blockNumber : UInt64}
    (tallied : tallyVersion cfg stk proposal newVersion blockNumber s = .ok s') :
    (s'.stages = s.stages.promote proposal.proposalID ∨
      s'.stages = s.stages.finish proposal.proposalID) ∧ s'.ballots = s.ballots := by
  unfold tallyVersion at tallied
  extract_lets id verifiersCnt yeas supportRate record at tallied
  split_ifs at tallied with support
  · obtain ⟨s₁, promoted, tallied⟩ := bind_eq_ok.mp tallied
    obtain ⟨stages, ballots⟩ := moveVotingProposalIDToPreActive_promotes promoted distinct
    by_cases refused : (!stk.proposalPassedNotify blockNumber (s₁.activeNodes id) newVersion) = true
    · simp only [if_pos refused, throw_bind_eq_ok] at tallied
    simp only [if_neg refused, record, pure, Except.pure, bind, Except.bind, Except.ok.injEq] at tallied
    subst tallied
    refine ⟨Or.inl ?_, ?_⟩
    · rw [GovState.stages_setTallyResult, stages, GovState.stages_addPIPID]
    · rw [GovState.ballots_setTallyResult, ballots, GovState.ballots_addPIPID]
  · obtain ⟨s₁, moved, tallied⟩ := bind_eq_ok.mp tallied
    obtain ⟨stages, ballots⟩ := moveVotingProposalIDToEnd_finishes moved distinct
    simp only [record, pure, Except.pure, bind, Except.bind, Except.ok.injEq] at tallied
    subst tallied
    refine ⟨Or.inr ?_, ?_⟩
    · rw [GovState.stages_setTallyResult, GovState.stages_clearActiveNodes, stages]
    · rw [GovState.ballots_setTallyResult, GovState.ballots_clearActiveNodes, ballots]

private theorem cancel_finishes {s₁ : GovState} {tobeCanceled : Hash} {tallyResult : TallyResult}
    (distinct : s₁.votingProposals.Nodup)
    (moved : ((s₁.setTallyResult tallyResult).moveVotingProposalIDToEnd tobeCanceled >>=
      fun s₂ => pure (true, s₂) : Except GovError (Bool × GovState)) = .ok (pass, s')) :
    s'.stages = s₁.stages.finish tobeCanceled ∧ s'.ballots = s₁.ballots := by
  obtain ⟨s₂, moved, returned⟩ := bind_eq_ok.mp moved
  obtain ⟨stages, ballots⟩ := moveVotingProposalIDToEnd_finishes moved distinct
  simp only [pure, Except.pure, Except.ok.injEq, Prod.mk.injEq] at returned
  obtain ⟨-, rfl⟩ := returned
  exact ⟨stages, ballots⟩

/-- `tallyCancel` ends the cancel proposal and, when it passed, the proposal it cancels, which is
still at voting. -/
theorem tallyCancel_moves (distinct : s.votingProposals.Nodup) {proposal : Proposal}
    {tobeCanceled : Hash} (tallied : tallyCancel cfg proposal tobeCanceled s = .ok (pass, s')) :
    s'.ballots = s.ballots ∧
      (s'.stages = s.stages.finish proposal.proposalID ∨
        (tobeCanceled ∈ (s.stages.finish proposal.proposalID).votingProposals ∧
          s'.stages = (s.stages.finish proposal.proposalID).finish tobeCanceled)) := by
  unfold tallyCancel at tallied
  obtain ⟨⟨passed, s₁⟩, cancelTallied, tallied⟩ := bind_eq_ok.mp tallied
  obtain ⟨stages₁, ballots₁⟩ := tally_finishes distinct cancelTallied
  dsimp only at tallied
  by_cases failed : (!passed) = true
  · simp only [if_pos failed, pure, Except.pure, Except.ok.injEq, Prod.mk.injEq] at tallied
    obtain ⟨-, rfl⟩ := tallied
    exact ⟨ballots₁, Or.inl stages₁⟩
  simp only [if_neg failed] at tallied
  obtain ⟨target, -, tallied⟩ := bind_eq_ok.mp tallied
  by_cases kind : target.proposalType ≠ .version ∧ target.proposalType ≠ .param
  · simp only [if_pos kind, throw_bind_eq_ok] at tallied
  by_cases notVoting : tobeCanceled ∉ s₁.votingProposals
  · simp only [if_neg kind, if_pos notVoting, throw_bind_eq_ok] at tallied
  simp only [if_neg kind, if_neg notVoting] at tallied
  have voting : tobeCanceled ∈ (s.stages.finish proposal.proposalID).votingProposals := by
    rw [← stages₁]
    exact not_not.mp notVoting
  have distinct₁ : s₁.votingProposals.Nodup := by
    have erased := congrArg Stages.votingProposals stages₁
    rw [GovState.stages_votingProposals] at erased
    rw [erased]
    exact distinct.erase _
  split at tallied
  · simp only [pure_bind] at tallied
    obtain ⟨stages, ballots⟩ := cancel_finishes distinct₁ tallied
    exact ⟨ballots.trans ballots₁, Or.inr ⟨voting, stages.trans (by rw [stages₁])⟩⟩
  · split_ifs at tallied with settled
    · simp only [pure, Except.pure, Except.ok.injEq, Prod.mk.injEq] at tallied
      obtain ⟨-, rfl⟩ := tallied
      exact ⟨ballots₁, Or.inl stages₁⟩
    · simp only [pure_bind] at tallied
      obtain ⟨stages, ballots⟩ := cancel_finishes distinct₁ tallied
      exact ⟨ballots.trans ballots₁, Or.inr ⟨voting, stages.trans (by rw [stages₁])⟩⟩

theorem tallyParam_finishes (distinct : s.votingProposals.Nodup) {proposal : Proposal}
    {module name newValue : String} {blockNumber : UInt64}
    (tallied : tallyParam cfg proposal module name newValue blockNumber s = .ok (pass, s')) :
    s'.stages = s.stages.finish proposal.proposalID ∧ s'.ballots = s.ballots := by
  unfold tallyParam at tallied
  obtain ⟨⟨passed, s₁⟩, paramTallied, tallied⟩ := bind_eq_ok.mp tallied
  obtain ⟨stages₁, ballots₁⟩ := tally_finishes distinct paramTallied
  dsimp only at tallied
  split_ifs at tallied
  · obtain ⟨s₂, updated, returned⟩ := bind_eq_ok.mp tallied
    obtain ⟨stages₂, ballots₂⟩ := GovState.updateGovernParamValue_keeps updated
    simp only [pure, Except.pure, Except.ok.injEq, Prod.mk.injEq] at returned
    obtain ⟨-, rfl⟩ := returned
    exact ⟨stages₂.trans stages₁, ballots₂.trans ballots₁⟩
  · simp only [pure, Except.pure, Except.ok.injEq, Prod.mk.injEq] at tallied
    obtain ⟨-, rfl⟩ := tallied
    exact ⟨stages₁, ballots₁⟩

end Tallies

/-! ## The loop of `EndBlock` -/

section EndBlock

variable {n : UInt64} {isElection isEndOfEpoch : Bool}

private theorem snd_eq_ok {result : Except GovError (Bool × GovState)}
    (mapped : Prod.snd <$> result = .ok s') : ∃ pass, result = .ok (pass, s') := by
  cases result with
  | error failure => cases mapped
  | ok value =>
      cases mapped
      exact ⟨value.1, rfl⟩

/-- Whether a turn of `EndBlock` with these flags tallies a proposal of the kind: a parameter
proposal at the end of an epoch, any other at an election block. -/
def tallies (isElection isEndOfEpoch : Bool) : ProposalType → Bool
  | .param => isEndOfEpoch
  | _ => isElection

/-- One turn of `EndBlock`: nothing happens unless the proposal's voting ends at the block; then the
block must be of the proposal's kind, and the proposal ends or becomes pre-active, and a passed
cancellation ends its target, still at voting, too. -/
theorem endBlockTurn_moves (distinct : s.votingProposals.Nodup) {p : Proposal}
    (turned : endBlockTurn cfg stk n isElection isEndOfEpoch s p = .ok s') :
    s'.ballots = s.ballots ∧
      ((p.endVotingBlock ≠ n ∧ s'.stages = s.stages) ∨
        p.endVotingBlock = n ∧ tallies isElection isEndOfEpoch p.proposalType = true ∧
          (s'.stages = s.stages.finish p.proposalID ∨
            (p.proposalType = .version ∧ s'.stages = s.stages.promote p.proposalID) ∨
            ∃ rounds target, p.body = .cancel rounds target ∧
              target ∈ (s.stages.finish p.proposalID).votingProposals ∧
              s'.stages = (s.stages.finish p.proposalID).finish target)) := by
  unfold endBlockTurn at turned
  by_cases ending : p.endVotingBlock = n
  swap
  · simp only [if_neg ending, pure, Except.pure, Except.ok.injEq] at turned
    subst turned
    exact ⟨rfl, Or.inl ⟨ending, rfl⟩⟩
  simp only [if_pos ending] at turned
  cases body : p.body with
  | text =>
      simp only [body] at turned
      split_ifs at turned with election
      · have kind : tallies isElection isEndOfEpoch p.proposalType = true := by
          rw [Proposal.proposalType, body]; exact election
        obtain ⟨pass, tallied⟩ := snd_eq_ok turned
        obtain ⟨stages, ballots⟩ := tally_finishes distinct tallied
        exact ⟨ballots, Or.inr ⟨ending, kind, Or.inl stages⟩⟩
  | version rounds newVersion activeBlock =>
      simp only [body] at turned
      split_ifs at turned with election
      · have kind : tallies isElection isEndOfEpoch p.proposalType = true := by
          rw [Proposal.proposalType, body]; exact election
        obtain ⟨moved, ballots⟩ := tallyVersion_moves distinct turned
        have version : p.proposalType = .version := by rw [Proposal.proposalType, body]; rfl
        rcases moved with promoted | finished
        · exact ⟨ballots, Or.inr ⟨ending, kind, Or.inr (Or.inl ⟨version, promoted⟩)⟩⟩
        · exact ⟨ballots, Or.inr ⟨ending, kind, Or.inl finished⟩⟩
  | cancel rounds tobeCanceled =>
      simp only [body] at turned
      split_ifs at turned with election
      · have kind : tallies isElection isEndOfEpoch p.proposalType = true := by
          rw [Proposal.proposalType, body]; exact election
        obtain ⟨pass, tallied⟩ := snd_eq_ok turned
        obtain ⟨ballots, finished | ⟨voting, both⟩⟩ := tallyCancel_moves distinct tallied
        · exact ⟨ballots, Or.inr ⟨ending, kind, Or.inl finished⟩⟩
        · exact ⟨ballots,
            Or.inr ⟨ending, kind, Or.inr (Or.inr ⟨rounds, tobeCanceled, rfl, voting, both⟩)⟩⟩
  | param module name newValue =>
      simp only [body] at turned
      split_ifs at turned with epochEnd
      · have kind : tallies isElection isEndOfEpoch p.proposalType = true := by
          rw [Proposal.proposalType, body]; exact epochEnd
        obtain ⟨pass, tallied⟩ := snd_eq_ok turned
        obtain ⟨stages, ballots⟩ := tallyParam_finishes distinct tallied
        exact ⟨ballots, Or.inr ⟨ending, kind, Or.inl stages⟩⟩

/-- The IDs the loop of `EndBlock` has still to visit: each at voting, or ended already by a
cancellation and then ending its voting after the block. -/
def Stages.Pending (t : Stages) (n : UInt64) (ids : List Hash) : Prop :=
  ∀ x ∈ ids, x ∈ t.votingProposals ∨
    (x ∈ t.endProposals ∧ ∀ q, t.proposals x = some q → q.endVotingBlock ≠ n)

section Pending

variable {t : Stages} {rest : List Hash} {id : Hash}

theorem Stages.Pending.finish (pending : t.Pending n rest)
    (later : id ∉ rest ∨ ∀ q, t.proposals id = some q → q.endVotingBlock ≠ n) :
    (t.finish id).Pending n rest := fun x member => by
  by_cases same : x = id
  · subst same
    have later : ∀ q, t.proposals x = some q → q.endVotingBlock ≠ n := later.resolve_left (not_not.mpr member)
    exact Or.inr ⟨mem_addProposalByKey.mpr (Or.inr rfl), later⟩
  · rcases pending x member with voting | ⟨ended, later⟩
    · exact Or.inl (List.mem_erase_of_ne same |>.mpr voting)
    · exact Or.inr ⟨mem_addProposalByKey.mpr (Or.inl ended), later⟩

theorem Stages.Pending.promote (pending : t.Pending n rest) (outside : id ∉ rest) :
    (t.promote id).Pending n rest := fun x member => by
  have other : x ≠ id := fun same => outside (same ▸ member)
  rcases pending x member with voting | ended
  · exact Or.inl (List.mem_erase_of_ne other |>.mpr voting)
  · exact Or.inr ended

theorem Stages.Pending.voting (pending : t.Pending n (id :: rest)) {p : Proposal}
    (stored : t.proposals id = some p) (ending : p.endVotingBlock = n) : id ∈ t.votingProposals :=
  (pending id List.mem_cons_self).resolve_right fun ⟨_, later⟩ => later p stored ending

/-- One turn of the loop leaves the stages by valid moves and keeps the rest pending. -/
theorem Stages.Valid.turn (valid : t.Valid) (pending : t.Pending n (id :: rest))
    (distinct : (id :: rest).Nodup) {p : Proposal} (stored : t.proposals id = some p) {t' : Stages}
    (moved : t' = t ∨ p.endVotingBlock = n ∧
      (t' = t.finish p.proposalID ∨ (p.proposalType = .version ∧ t' = t.promote p.proposalID) ∨
        ∃ rounds target, p.body = .cancel rounds target ∧
          target ∈ (t.finish p.proposalID).votingProposals ∧
          t' = (t.finish p.proposalID).finish target)) :
    t.Leaves t' ∧ t'.Pending n rest := by
  have keyed : p.proposalID = id := valid.keyed stored
  have outside : id ∉ rest := (List.nodup_cons.mp distinct).1
  have tail : t.Pending n rest := fun x member => pending x (List.mem_cons_of_mem id member)
  rcases moved with rfl | ⟨ending, outcome⟩
  · exact ⟨.refl, tail⟩
  have voting := pending.voting stored ending
  rw [keyed] at outcome
  rcases outcome with rfl | ⟨version, rfl⟩ | ⟨rounds, target, cancel, targetVoting, rfl⟩
  · exact ⟨.single (.finish voting), tail.finish (Or.inl outside)⟩
  · have kind : t.KindIn id [.version] := ⟨p, stored, by simp [version]⟩
    exact ⟨.single (.promote voting kind), tail.promote outside⟩
  · obtain ⟨target', targetStored, before⟩ := valid.cancelsEarlier voting stored rounds target cancel
    have later : ∀ q, (t.finish id).proposals target = some q → q.endVotingBlock ≠ n :=
      fun q found => by
        rw [show (t.finish id).proposals = t.proposals from rfl, targetStored,
          Option.some_inj] at found
        subst found
        exact (UInt64.ne_of_lt (ending ▸ before)).symm
    exact ⟨.tail (.single (.finish voting)) (.finish targetVoting),
      (tail.finish (Or.inl outside)).finish (Or.inr later)⟩

end Pending

theorem endBlockLoop_cons {id : Hash} {rest : List Hash} (distinct : (id :: rest).Nodup)
    (valid : s.stages.Valid) (pending : s.stages.Pending n (id :: rest))
    (looped : endBlockLoop cfg stk n isElection isEndOfEpoch (id :: rest) s = .ok s') :
    ∃ p s₁, s.proposals id = some p ∧ endBlockTurn cfg stk n isElection isEndOfEpoch s p = .ok s₁ ∧
      s.stages.Leaves s₁.stages ∧ s₁.stages.Pending n rest ∧
      endBlockLoop cfg stk n isElection isEndOfEpoch rest s₁ = .ok s' := by
  unfold endBlockLoop at looped
  obtain ⟨p, found, looped⟩ := bind_eq_ok.mp looped
  obtain ⟨s₁, turned, looped⟩ := bind_eq_ok.mp looped
  have stored := GovState.getExistProposal_eq_ok.mp found
  obtain ⟨-, moved⟩ := endBlockTurn_moves valid.votingDistinct turned
  obtain ⟨left, pending₁⟩ := valid.turn pending distinct stored
    (moved.imp And.right fun moved => ⟨moved.1, moved.2.2⟩)
  exact ⟨p, s₁, stored, turned, left, pending₁, looped⟩

theorem endBlockLoop_leaves :
    ∀ {ids : List Hash} {s s' : GovState}, ids.Nodup → s.stages.Valid → s.stages.Pending n ids →
      endBlockLoop cfg stk n isElection isEndOfEpoch ids s = .ok s' →
      s.stages.Leaves s'.stages ∧ s'.ballots = s.ballots
  | [], s, s', _, _, _, looped => by
      cases looped
      exact ⟨.refl, rfl⟩
  | id :: rest, s, s', distinct, valid, pending, looped => by
      obtain ⟨p, s₁, -, turned, left, pending₁, looped⟩ :=
        endBlockLoop_cons distinct valid pending looped
      have ballots₁ := (endBlockTurn_moves valid.votingDistinct turned).1
      obtain ⟨leaves, ballots⟩ :=
        endBlockLoop_leaves (List.nodup_cons.mp distinct).2 (valid.leaves left) pending₁ looped
      exact ⟨left.trans leaves, ballots.trans ballots₁⟩

theorem endBlock_leaves (valid : s.stages.Valid) (ended : endBlock cfg stk n s = .ok s') :
    s.stages.Leaves s'.stages ∧ s'.ballots = s.ballots := by
  unfold endBlock at ended
  extract_lets isElection isEndOfEpoch at ended
  by_cases idle : (!isElection && !isEndOfEpoch) = true
  · rw [if_pos idle] at ended
    obtain rfl := Except.ok.inj ended
    exact ⟨.refl, rfl⟩
  rw [if_neg idle] at ended
  by_cases empty : s.votingProposals.isEmpty = true
  · rw [if_pos empty] at ended
    obtain rfl := Except.ok.inj ended
    exact ⟨.refl, rfl⟩
  rw [if_neg empty] at ended
  exact endBlockLoop_leaves valid.votingDistinct valid (fun x member => Or.inl member) ended

end EndBlock

/-! ## `BeginBlock` -/

section BeginBlock

variable {n : UInt64}

theorem accuVerifiersAtBeginOfSettlement_stages :
    (accuVerifiersAtBeginOfSettlement stk n s).stages = s.stages := by
  unfold accuVerifiersAtBeginOfSettlement
  split_ifs
  · rfl
  · exact Traverse.foldl_keeps GovState.stages (fun t id => GovState.stages_addAccuVerifiers t id _) _ _

theorem accuVerifiersAtBeginOfSettlement_ballots :
    (accuVerifiersAtBeginOfSettlement stk n s).ballots =
      s.ballots.accumulateAll s.votingProposals (stk.listVerifierNodeID n) := by
  unfold accuVerifiersAtBeginOfSettlement
  have fold : ∀ (ids : List Hash) (t : GovState),
      (ids.foldl (fun t id => t.addAccuVerifiers id (stk.listVerifierNodeID n)) t).ballots =
        t.ballots.accumulateAll ids (stk.listVerifierNodeID n) := by
    intro ids
    induction ids with
    | nil => exact fun _ => rfl
    | cons first rest induction => exact fun t => induction _
  split_ifs with empty
  · rw [List.isEmpty_iff.mp empty]
    rfl
  · exact fold _ _

/-- `BeginBlock` at a block `n`: at the first block of a round that begins an epoch the verifiers of
the block are accumulated for every proposal at voting; then, at the activation block of the
pre-active version proposal with a tally result, the proposal becomes active and ends, and its
version heads the active versions from block `n` on. -/
theorem beginBlock_spec (begun : beginBlock cfg stk n s = .ok s') :
    let accumulated := if cfg.isBeginOfConsensus n ∧ cfg.isBeginOfEpoch n
      then accuVerifiersAtBeginOfSettlement stk n s else s
    s' = accumulated ∨
      cfg.isBeginOfConsensus n ∧ ∃ p rounds tallyResult,
        accumulated.preActiveProposal ≠ zeroHash ∧
        accumulated.proposals accumulated.preActiveProposal = some p ∧
        p.body = .version rounds p.newVersion n ∧
        accumulated.tallyResults accumulated.preActiveProposal = some tallyResult ∧
        s' = (((accumulated.setTallyResult { tallyResult with status := .active }).movePreActiveProposalIDToEnd
          accumulated.preActiveProposal).clearActiveNodes accumulated.preActiveProposal).addActiveVersion
          p.newVersion n := by
  intro accumulated
  unfold beginBlock at begun
  by_cases consensus : cfg.isBeginOfConsensus n
  swap
  · simp only [consensus, Bool.not_false, if_true, pure, Except.pure, Except.ok.injEq] at begun
    subst begun
    left
    simp [accumulated, consensus]
  simp only [consensus, Bool.not_true, Bool.false_eq_true, if_false] at begun
  have same : (if cfg.isBeginOfEpoch n then accuVerifiersAtBeginOfSettlement stk n s else s) =
      accumulated := by
    simp [accumulated, consensus]
  rw [same] at begun
  by_cases empty : accumulated.preActiveProposal = zeroHash
  · simp only [empty, if_true, pure, Except.pure, Except.ok.injEq] at begun
    exact Or.inl begun.symm
  simp only [empty, if_false] at begun
  obtain ⟨p, found, begun⟩ := bind_eq_ok.mp begun
  have stored := GovState.getExistProposal_eq_ok.mp found
  cases body : p.body with
  | version rounds newVersion activeBlock =>
      simp only [body] at begun
      by_cases activating : n = activeBlock
      swap
      · simp only [activating, if_false, pure, Except.pure, Except.ok.injEq] at begun
        exact Or.inl begun.symm
      simp only [activating, if_true] at begun
      subst activating
      have version : p.newVersion = newVersion := by rw [Proposal.newVersion, body]
      cases result : accumulated.tallyResults accumulated.preActiveProposal with
      | none =>
          simp only [result, pure, Except.pure, Except.ok.injEq] at begun
          exact Or.inl begun.symm
      | some tallyResult =>
          simp only [result, pure, Except.pure, Except.ok.injEq] at begun
          refine Or.inr ⟨consensus, p, rounds, tallyResult, empty, stored, ?_, rfl, ?_⟩
          · rw [body, version]
          · rw [version, begun]
  | text => simp only [body, pure, Except.pure, Except.ok.injEq] at begun; exact Or.inl begun.symm
  | cancel rounds tobeCanceled =>
      simp only [body, pure, Except.pure, Except.ok.injEq] at begun
      exact Or.inl begun.symm
  | param module name newValue =>
      simp only [body, pure, Except.pure, Except.ok.injEq] at begun
      exact Or.inl begun.symm

end BeginBlock

/-! ## A slashing drops votes -/

section Punished

variable {punished : List NodeID}

private theorem punishStep_votes (t : GovState) (proposalID id : Hash) :
    (let kept := (t.votes proposalID).filter fun v => v.voteNodeID ∉ punished
     if kept.length < (t.votes proposalID).length then t.updateVoteValue proposalID kept
     else t).votes id =
      if id = proposalID then (t.votes id).filter (fun v => v.voteNodeID ∉ punished)
      else t.votes id := by
  dsimp only
  split_ifs with shorter same same
  · subst same
    simp
  · simp [Function.update_of_ne same]
  · -- nothing was filtered out
    subst same
    have whole := List.length_filter_le (fun v : VoteValue => decide (v.voteNodeID ∉ punished))
      (t.votes id)
    exact (List.filter_eq_self.mpr (List.length_filter_eq_length_iff.mp (by omega))).symm
  · rfl

/-- `NotifyPunishedVerifiers` drops exactly the votes of punished nodes on proposals at voting. -/
theorem notifyPunishedVerifiers_votes (id : Hash) :
    (notifyPunishedVerifiers punished s).votes id =
      if id ∈ s.votingProposals ∧ punished ≠ [] then
        (s.votes id).filter (fun v => v.voteNodeID ∉ punished)
      else s.votes id := by
  unfold notifyPunishedVerifiers
  split_ifs with none some some
  · exact absurd (List.isEmpty_iff.mp none) some.2
  · rfl
  · have fold : ∀ (ids : List Hash) (t : GovState),
        (ids.foldl (fun t proposalID =>
          let kept := (t.votes proposalID).filter fun v => v.voteNodeID ∉ punished
          if kept.length < (t.votes proposalID).length then t.updateVoteValue proposalID kept
          else t) t).votes id =
          if id ∈ ids then (t.votes id).filter (fun v => v.voteNodeID ∉ punished) else t.votes id := by
      intro ids
      induction ids with
      | nil => exact fun t => by simp
      | cons first rest induction =>
          intro t
          rw [List.foldl_cons, induction, punishStep_votes]
          by_cases same : id = first
          · subst same
            simp [List.filter_filter]
          · simp [same]
    rw [fold]
    exact if_pos some.1
  · have fold : ∀ (ids : List Hash) (t : GovState), id ∉ ids →
        (ids.foldl (fun t proposalID =>
          let kept := (t.votes proposalID).filter fun v => v.voteNodeID ∉ punished
          if kept.length < (t.votes proposalID).length then t.updateVoteValue proposalID kept
          else t) t).votes id = t.votes id := by
      intro ids
      induction ids with
      | nil => exact fun t _ => rfl
      | cons first rest induction =>
          intro t outside
          rw [List.foldl_cons, induction _ (fun member => outside (List.mem_cons_of_mem _ member)),
            punishStep_votes, if_neg (fun (same : id = first) => outside (same ▸ List.mem_cons_self))]
    exact fold _ _ fun member => some ⟨member, fun empty => none (by simp [empty])⟩

theorem notifyPunishedVerifiers_sublist (id : Hash) :
    ((notifyPunishedVerifiers punished s).votes id).Sublist (s.votes id) := by
  rw [notifyPunishedVerifiers_votes]
  split_ifs
  · exact List.filter_sublist
  · exact List.Sublist.refl _

theorem notifyPunishedVerifiers_keeps :
    (notifyPunishedVerifiers punished s).stages = s.stages ∧
      (notifyPunishedVerifiers punished s).accuVerifiers = s.accuVerifiers := by
  unfold notifyPunishedVerifiers
  split_ifs
  · exact ⟨rfl, rfl⟩
  · constructor
    · exact Traverse.foldl_keeps GovState.stages (fun _ _ => by dsimp only; split_ifs <;> rfl) _ _
    · exact Traverse.foldl_keeps GovState.accuVerifiers (fun _ _ => by dsimp only; split_ifs <;> rfl)
        _ _

end Punished

/-! ## Clearing the proposals in process -/

section Clear

variable {id : Hash}

theorem clearProcessingProposal_voting (cleared : clearProcessingProposal id true s = .ok s')
    (distinct : s.votingProposals.Nodup) :
    s'.stages = s.stages.finish id ∧ s'.ballots = s.ballots.clear id := by
  unfold clearProcessingProposal at cleared
  obtain ⟨s₁, moved, cleared⟩ := bind_eq_ok.mp cleared
  obtain ⟨stages, ballots⟩ := moveVotingProposalIDToEnd_finishes moved distinct
  obtain rfl := Except.ok.inj cleared
  constructor
  · rw [GovState.stages_setTallyResult, GovState.stages_clearAccuVerifiers,
      GovState.stages_clearVoteValue, stages]
  · rw [GovState.ballots_setTallyResult, GovState.ballots_clear, ballots]

theorem clearProcessingProposal_preActive (cleared : clearProcessingProposal id false s = .ok s') :
    s'.stages = s.stages.retire id ∧ s'.ballots = s.ballots.clear id := by
  unfold clearProcessingProposal at cleared
  obtain ⟨s₁, moved, cleared⟩ := bind_eq_ok.mp cleared
  obtain rfl := Except.ok.inj moved
  obtain rfl := Except.ok.inj cleared
  exact ⟨rfl, rfl⟩

/-- The loop of `ClearProcessingProposals` ends every listed proposal, one after the other. -/
theorem clearVotingLoop_leaves :
    ∀ {ids : List Hash} {s s' : GovState}, ids.Nodup → s.votingProposals.Nodup →
      (∀ x ∈ ids, x ∈ s.votingProposals) → clearVotingLoop ids s = .ok s' →
      s.stages.Leaves s'.stages ∧ s'.ballots = s.ballots.clearAll ids ∧
        ∀ x, x ∈ s'.votingProposals ↔ x ∈ s.votingProposals ∧ x ∉ ids
  | [], s, s', _, _, _, looped => by
      obtain rfl := Except.ok.inj looped
      exact ⟨.refl, rfl, fun x => by simp⟩
  | id :: rest, s, s', distinct, voting, listed, looped => by
      unfold clearVotingLoop at looped
      obtain ⟨s₁, cleared, looped⟩ := bind_eq_ok.mp looped
      obtain ⟨stages₁, ballots₁⟩ := clearProcessingProposal_voting cleared voting
      have outside : id ∉ rest := (List.nodup_cons.mp distinct).1
      have erased : s₁.votingProposals = s.votingProposals.erase id := by
        rw [← GovState.stages_votingProposals, stages₁]
        rfl
      have voting₁ : s₁.votingProposals.Nodup := erased ▸ voting.erase id
      have listed₁ : ∀ x ∈ rest, x ∈ s₁.votingProposals := fun x member => by
        rw [erased, voting.mem_erase_iff]
        exact ⟨fun same => outside (same ▸ member), listed x (List.mem_cons_of_mem id member)⟩
      obtain ⟨leaves, ballots, members⟩ :=
        clearVotingLoop_leaves (List.nodup_cons.mp distinct).2 voting₁ listed₁ looped
      have first : s.stages.Leave s₁.stages := stages₁ ▸ .finish (listed id List.mem_cons_self)
      refine ⟨.head first leaves, by rw [ballots, ballots₁]; rfl, fun x => ?_⟩
      rw [members, erased, voting.mem_erase_iff, List.mem_cons, not_or]
      constructor
      · rintro ⟨⟨other, member⟩, later⟩
        exact ⟨member, other, later⟩
      · rintro ⟨member, other, later⟩
        exact ⟨⟨other, member⟩, later⟩

/-- `ClearProcessingProposals` ends every proposal in process: nothing is left at voting or
pre-active, and the ballots of the cleared proposals are emptied. -/
theorem clearProcessingProposals_clears (valid : s.stages.Valid)
    (cleared : clearProcessingProposals s = .ok s') :
    s.stages.Leaves s'.stages ∧ s'.votingProposals = [] ∧ s'.preActiveProposal = zeroHash ∧
      ∃ ids, s'.ballots = s.ballots.clearAll ids := by
  unfold clearProcessingProposals at cleared
  obtain ⟨s₁, looped, cleared⟩ := bind_eq_ok.mp cleared
  obtain ⟨leaves, ballots, members⟩ :=
    clearVotingLoop_leaves valid.votingDistinct valid.votingDistinct (fun _ member => member) looped
  have empty : s₁.votingProposals = [] :=
    List.eq_nil_iff_forall_not_mem.mpr fun x member => ((members x).mp member).2 ((members x).mp member).1
  by_cases occupied : s₁.preActiveProposal ≠ zeroHash
  · rw [if_pos occupied] at cleared
    obtain ⟨stages₂, ballots₂⟩ := clearProcessingProposal_preActive cleared
    have last : s₁.stages.Leave s'.stages := stages₂ ▸ .retire occupied
    refine ⟨leaves.tail last, ?_, ?_, s.votingProposals ++ [s₁.preActiveProposal], ?_⟩
    · rw [← GovState.stages_votingProposals, stages₂]
      exact empty
    · rw [← GovState.stages_preActiveProposal, stages₂]
      rfl
    · rw [ballots₂, ballots, Ballots.clearAll, Ballots.clearAll, List.foldl_append]
      rfl
  · rw [if_neg occupied] at cleared
    obtain rfl := Except.ok.inj cleared
    exact ⟨leaves, empty, not_not.mp occupied, _, ballots⟩

end Clear

end Gov
end Bubble
