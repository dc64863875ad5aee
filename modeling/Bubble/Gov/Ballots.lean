import Bubble.Gov.State

/-!
# The ballots of the proposals

What a tally counts: per proposal the votes cast (`KeyVote`) and the verifiers accumulated as
entitled to vote (`KeyAccuVerifier`).  `Vote` casts a vote, `Submit` and the first block of each
epoch accumulate verifiers, a slashing drops the votes of punished verifiers, and clearing a
proposal empties both.

Two facts make a tally sound: the votes of a proposal come from distinct nodes (`Distinct`), and
each from a verifier accumulated for it (`Counted`).  Together they bound the votes counted by the
verifiers accumulated (`length_le`).
-/

namespace Bubble
namespace Gov

/-- The votes cast and the verifiers accumulated, per proposal. -/
structure Ballots where
  votes : Hash → List VoteValue
  accuVerifiers : Hash → List NodeID

/-- The ballots of the storage. -/
def GovState.ballots (s : GovState) : Ballots :=
  ⟨s.votes, s.accuVerifiers⟩

namespace Ballots

variable (b : Ballots)

/-- The nodes that voted on a proposal. -/
def voters (id : Hash) : List NodeID :=
  (b.votes id).map (·.voteNodeID)

/-- No node votes twice on a proposal. -/
def Distinct : Prop :=
  ∀ id, (b.voters id).Nodup

/-- Every vote on a proposal is cast by a verifier accumulated for it. -/
def Counted : Prop :=
  ∀ id, ∀ v ∈ b.votes id, v.voteNodeID ∈ b.accuVerifiers id

/-- `AddVoteValue`. -/
def cast (id : Hash) (v : VoteValue) : Ballots :=
  { b with votes := Function.update b.votes id (b.votes id ++ [v]) }

/-- `AccuVerifiers`. -/
def accumulate (id : Hash) (verifierList : List NodeID) : Ballots :=
  let accu := b.accuVerifiers id
  { b with accuVerifiers :=
      Function.update b.accuVerifiers id (accu ++ verifierList.filter fun n => n ∉ accu) }

/-- Accumulate the same verifiers for each of the proposals. -/
def accumulateAll (ids : List Hash) (verifierList : List NodeID) : Ballots :=
  ids.foldl (fun b id => b.accumulate id verifierList) b

/-- `ClearVoteValue` and `ClearAccuVerifiers`. -/
def clear (id : Hash) : Ballots :=
  ⟨Function.update b.votes id [], Function.update b.accuVerifiers id []⟩

/-- Clear each of the proposals. -/
def clearAll (ids : List Hash) : Ballots :=
  ids.foldl (fun b id => b.clear id) b

variable {b}

theorem length_le (distinct : b.Distinct) (counted : b.Counted) (id : Hash) :
    (b.votes id).length ≤ (b.accuVerifiers id).length := by
  have inside : b.voters id ⊆ b.accuVerifiers id := fun n member => by
    obtain ⟨v, cast, rfl⟩ := List.mem_map.mp member
    exact counted id v cast
  calc (b.votes id).length = (b.voters id).length := (List.length_map _).symm
    _ ≤ (b.accuVerifiers id).length := ((distinct id).subperm inside).length_le

section Preserve

variable {id : Hash}

theorem Distinct.cast (distinct : b.Distinct) {v : VoteValue} (fresh : v.voteNodeID ∉ b.voters id) :
    (b.cast id v).Distinct := fun x => by
  by_cases same : x = id
  · subst same
    simp only [voters, Ballots.cast, Function.update_self, List.map_append, List.map_cons,
      List.map_nil]
    exact (distinct x).append (List.nodup_singleton _) (by simpa using fresh)
  · simpa [voters, Ballots.cast, Function.update_of_ne same] using distinct x

theorem Counted.cast (counted : b.Counted) {v : VoteValue}
    (entitled : v.voteNodeID ∈ b.accuVerifiers id) : (b.cast id v).Counted := fun x w member => by
  by_cases same : x = id
  · subst same
    simp only [Ballots.cast, Function.update_self, List.mem_append, List.mem_singleton] at member
    rcases member with old | rfl
    · exact counted x w old
    · exact entitled
  · simp only [Ballots.cast, Function.update_of_ne same] at member
    exact counted x w member

theorem Distinct.accumulate (distinct : b.Distinct) (verifierList : List NodeID) :
    (b.accumulate id verifierList).Distinct :=
  distinct

theorem accuVerifiers_subset_accumulate (verifierList : List NodeID) (x : Hash) :
    b.accuVerifiers x ⊆ (b.accumulate id verifierList).accuVerifiers x := fun n member => by
  by_cases same : x = id
  · subst same
    simp only [Ballots.accumulate, Function.update_self]
    exact List.mem_append_left _ member
  · simpa [Ballots.accumulate, Function.update_of_ne same] using member

theorem mem_accumulate {verifierList : List NodeID} {n : NodeID} (listed : n ∈ verifierList) :
    n ∈ (b.accumulate id verifierList).accuVerifiers id := by
  simp only [Ballots.accumulate, Function.update_self, List.mem_append, List.mem_filter,
    decide_eq_true_eq]
  by_cases old : n ∈ b.accuVerifiers id
  · exact Or.inl old
  · exact Or.inr ⟨listed, old⟩

theorem Counted.accumulate (counted : b.Counted) (verifierList : List NodeID) :
    (b.accumulate id verifierList).Counted := fun x v member =>
  accuVerifiers_subset_accumulate verifierList x (counted x v member)

theorem Distinct.accumulateAll (distinct : b.Distinct) (ids : List Hash) (verifierList : List NodeID) :
    (b.accumulateAll ids verifierList).Distinct := by
  induction ids generalizing b with
  | nil => exact distinct
  | cons first rest induction => exact induction (distinct.accumulate verifierList)

theorem Counted.accumulateAll (counted : b.Counted) (ids : List Hash) (verifierList : List NodeID) :
    (b.accumulateAll ids verifierList).Counted := by
  induction ids generalizing b with
  | nil => exact counted
  | cons first rest induction => exact induction (counted.accumulate verifierList)

theorem accuVerifiers_subset_accumulateAll (ids : List Hash) (verifierList : List NodeID) (x : Hash) :
    b.accuVerifiers x ⊆ (b.accumulateAll ids verifierList).accuVerifiers x := by
  induction ids generalizing b with
  | nil => exact fun _ member => member
  | cons first rest induction =>
      exact fun n member => induction (accuVerifiers_subset_accumulate verifierList x member)

theorem mem_accumulateAll {ids : List Hash} {verifierList : List NodeID} {n : NodeID}
    (listed : n ∈ verifierList) (member : id ∈ ids) :
    n ∈ (b.accumulateAll ids verifierList).accuVerifiers id := by
  induction ids generalizing b with
  | nil => cases member
  | cons first rest induction =>
      rcases List.mem_cons.mp member with rfl | later
      · exact accuVerifiers_subset_accumulateAll rest verifierList _ (mem_accumulate listed)
      · exact induction later

theorem Distinct.clear (distinct : b.Distinct) : (b.clear id).Distinct := fun x => by
  by_cases same : x = id
  · subst same
    simp [voters, Ballots.clear]
  · simpa [voters, Ballots.clear, Function.update_of_ne same] using distinct x

theorem Distinct.clearAll (distinct : b.Distinct) (ids : List Hash) : (b.clearAll ids).Distinct := by
  induction ids generalizing b with
  | nil => exact distinct
  | cons first rest induction => exact induction distinct.clear

theorem Distinct.of_sublist (distinct : b.Distinct) {b' : Ballots}
    (shrank : ∀ id, (b'.votes id).Sublist (b.votes id)) : b'.Distinct := fun id =>
  (distinct id).sublist ((shrank id).map _)

theorem Counted.of_sublist (counted : b.Counted) {b' : Ballots}
    (shrank : ∀ id, (b'.votes id).Sublist (b.votes id)) (same : b'.accuVerifiers = b.accuVerifiers) :
    b'.Counted := fun id v member => by
  rw [same]
  exact counted id v ((shrank id).subset member)

end Preserve

end Ballots

/-! ## The writes of the storage on the ballots -/

section Writes

variable (s : GovState) (id : Hash)

theorem GovState.ballots_addVoteValue (voter : NodeID) (option : VoteOption) :
    (s.addVoteValue id voter option).ballots = s.ballots.cast id ⟨voter, option⟩ := rfl

theorem GovState.ballots_addAccuVerifiers (verifierList : List NodeID) :
    (s.addAccuVerifiers id verifierList).ballots = s.ballots.accumulate id verifierList := rfl

theorem GovState.ballots_clear :
    ((s.clearVoteValue id).clearAccuVerifiers id).ballots = s.ballots.clear id := rfl

@[simp] theorem GovState.ballots_setProposal (p : Proposal) : (s.setProposal p).ballots = s.ballots :=
  rfl
@[simp] theorem GovState.ballots_addVotingProposalID :
    (s.addVotingProposalID id).ballots = s.ballots := rfl
@[simp] theorem GovState.ballots_setTallyResult (tallyResult : TallyResult) :
    (s.setTallyResult tallyResult).ballots = s.ballots := rfl
@[simp] theorem GovState.ballots_addPIPID (pipID : String) : (s.addPIPID pipID).ballots = s.ballots :=
  rfl
@[simp] theorem GovState.ballots_addActiveNode (nodeID : NodeID) :
    (s.addActiveNode id nodeID).ballots = s.ballots := rfl
@[simp] theorem GovState.ballots_clearActiveNodes : (s.clearActiveNodes id).ballots = s.ballots := rfl
@[simp] theorem GovState.ballots_addActiveVersion (activeVersion : UInt32) (activeBlock : UInt64) :
    (s.addActiveVersion activeVersion activeBlock).ballots = s.ballots := rfl
@[simp] theorem GovState.ballots_movePreActiveProposalIDToEnd :
    (s.movePreActiveProposalIDToEnd id).ballots = s.ballots := rfl

end Writes

end Gov
end Bubble
