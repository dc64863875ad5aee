import Bubble.Gov.State

/-!
# Where a proposal is in its life

A proposal is at voting, pre-active or ended, and the storage says which by the three places of
the snapshot database.  `Stages` is that part of the storage, with the active versions.
`Stages.Valid` is what governance keeps true of it: every stored proposal is in exactly one place
and every listed ID is a stored proposal; at most one version or parameter proposal is at voting or
pre-active, and the pre-active one is a version proposal; at most one cancel proposal is at voting,
and it ends before the proposal it cancels; the active versions fall strictly, newest first, and
every version proposal still in process would raise the newest.

The stages move in five ways: a proposal enters at voting (`enter`), a proposal at voting ends
(`finish`) or becomes pre-active (`promote`), and the pre-active proposal ends (`retire`), possibly
activating its version (`activate`).  Each keeps `Valid` under the condition the code checks before
it.
-/

namespace Bubble
namespace Gov

/-- The part of the storage that says where each proposal is in its life. -/
structure Stages where
  proposals : Hash → Option Proposal
  votingProposals : List Hash
  preActiveProposal : Hash
  endProposals : List Hash
  activeVersions : List ActiveVersionValue

/-- The stages of the storage. -/
def GovState.stages (s : GovState) : Stages :=
  ⟨s.proposals, s.votingProposals, s.preActiveProposal, s.endProposals, s.activeVersions⟩

section Projection

variable (s : GovState)

@[simp] theorem GovState.stages_proposals : s.stages.proposals = s.proposals := rfl
@[simp] theorem GovState.stages_votingProposals : s.stages.votingProposals = s.votingProposals := rfl
@[simp] theorem GovState.stages_preActiveProposal :
    s.stages.preActiveProposal = s.preActiveProposal := rfl
end Projection

/-! ## The writes of the storage on the stages -/

section Writes

variable (s : GovState) (id : Hash)

@[simp] theorem GovState.stages_setTallyResult (tallyResult : TallyResult) :
    (s.setTallyResult tallyResult).stages = s.stages := rfl
@[simp] theorem GovState.stages_addPIPID (pipID : String) : (s.addPIPID pipID).stages = s.stages :=
  rfl
@[simp] theorem GovState.stages_clearVoteValue : (s.clearVoteValue id).stages = s.stages := rfl
@[simp] theorem GovState.stages_addAccuVerifiers (verifierList : List NodeID) :
    (s.addAccuVerifiers id verifierList).stages = s.stages := rfl
@[simp] theorem GovState.stages_clearAccuVerifiers : (s.clearAccuVerifiers id).stages = s.stages :=
  rfl
@[simp] theorem GovState.stages_clearActiveNodes : (s.clearActiveNodes id).stages = s.stages := rfl

end Writes

namespace Stages

variable (t : Stages)

/-- At voting, or in the pre-active slot. -/
def Processing (id : Hash) : Prop :=
  id ∈ t.votingProposals ∨ (id ≠ zeroHash ∧ id = t.preActiveProposal)

/-- In one of the three places. -/
def Listed (id : Hash) : Prop :=
  t.Processing id ∨ id ∈ t.endProposals

/-- A stored proposal of one of the kinds. -/
def KindIn (id : Hash) (kinds : List ProposalType) : Prop :=
  ∃ p, t.proposals id = some p ∧ p.proposalType ∈ kinds

/-- `GetCurrentActiveVersion`. -/
def currentVersion : UInt32 :=
  match t.activeVersions with
  | [] => 0
  | av :: _ => av.activeVersion

/-- A cancel proposal ends before the stored proposal it cancels. -/
def CancelsEarlier (p : Proposal) : Prop :=
  ∀ endVotingRounds tobeCanceled, p.body = .cancel endVotingRounds tobeCanceled →
    ∃ target, t.proposals tobeCanceled = some target ∧ p.endVotingBlock < target.endVotingBlock

/-- Where the stored proposals are: each in exactly one place, every listed ID stored under itself,
and a version proposal in the pre-active slot. -/
structure Placed : Prop where
  keyed : ∀ {id : Hash} {p : Proposal}, t.proposals id = some p → p.proposalID = id
  zeroFree : t.proposals zeroHash = none
  stored_iff : ∀ id, (t.proposals id).isSome ↔ t.Listed id
  votingDistinct : t.votingProposals.Nodup
  endDistinct : t.endProposals.Nodup
  votingApart : ∀ id ∈ t.votingProposals, id ∉ t.endProposals
  preActiveApart : t.preActiveProposal ≠ zeroHash →
    t.preActiveProposal ∉ t.votingProposals ∧ t.preActiveProposal ∉ t.endProposals
  preActiveVersion : t.preActiveProposal ≠ zeroHash → t.KindIn t.preActiveProposal [.version]

/-- What governance keeps true of the stages: the proposals are placed, and the rules on the
proposals in process and on the active versions hold. -/
structure Valid : Prop extends t.Placed where
  oneVersionOrParam : ∀ {a b : Hash}, t.Processing a → t.Processing b →
    t.KindIn a [.version, .param] → t.KindIn b [.version, .param] → a = b
  oneCancel : ∀ {a b : Hash}, a ∈ t.votingProposals → b ∈ t.votingProposals →
    t.KindIn a [.cancel] → t.KindIn b [.cancel] → a = b
  cancelsEarlier : ∀ {c : Hash} {p : Proposal}, c ∈ t.votingProposals → t.proposals c = some p →
    t.CancelsEarlier p
  versionsDecrease :
    (t.activeVersions.map fun av : ActiveVersionValue => av.activeVersion >>> (8 : UInt32)).Pairwise (· > ·)
  newer : ∀ {id : Hash} {p : Proposal}, t.Processing id → t.proposals id = some p →
    p.proposalType = .version → t.currentVersion >>> 8 < p.newVersion >>> 8

/-- What `Verify` checks of a proposal before it enters: a fresh non-zero ID, no rival in process,
a version above the active one, and a later-ending target for a cancel proposal. -/
structure Admits (p : Proposal) : Prop where
  nonzero : p.proposalID ≠ zeroHash
  fresh : t.proposals p.proposalID = none
  alone : p.proposalType ∈ [.version, .param] → ∀ id, t.Processing id → ¬ t.KindIn id [.version, .param]
  aloneCancel : p.proposalType = .cancel → ∀ id ∈ t.votingProposals, ¬ t.KindIn id [.cancel]
  newer : p.proposalType = .version → t.currentVersion >>> 8 < p.newVersion >>> 8
  earlier : t.CancelsEarlier p

/-- `Submit`: the proposal is stored and put at voting. -/
def enter (p : Proposal) : Stages :=
  { t with proposals := Function.update t.proposals p.proposalID (some p)
           votingProposals := addProposalByKey t.votingProposals p.proposalID }

/-- `MoveVotingProposalIDToEnd` on a list without repeats. -/
def finish (id : Hash) : Stages :=
  { t with votingProposals := t.votingProposals.erase id
           endProposals := addProposalByKey t.endProposals id }

/-- `MoveVotingProposalIDToPreActive` on a list without repeats. -/
def promote (id : Hash) : Stages :=
  { t with votingProposals := t.votingProposals.erase id, preActiveProposal := id }

/-- `MovePreActiveProposalIDToEnd`. -/
def retire (id : Hash) : Stages :=
  { t with preActiveProposal := zeroHash, endProposals := addProposalByKey t.endProposals id }

/-- The activation of the pre-active version: it ends, and its version heads the active ones. -/
def activate (id : Hash) (version : UInt32) (activeBlock : UInt64) : Stages :=
  { t.retire id with activeVersions := ⟨version, activeBlock⟩ :: t.activeVersions }

variable {t}

theorem Valid.ne_zero_of_listed (valid : t.Valid) {id : Hash} (listed : t.Listed id) :
    id ≠ zeroHash := by
  rintro rfl
  have stored := (valid.stored_iff zeroHash).mpr listed
  rw [valid.zeroFree] at stored
  cases stored

theorem listed_of_voting {id : Hash} (voting : id ∈ t.votingProposals) : t.Listed id :=
  Or.inl (Or.inl voting)

theorem Valid.preActive_zero (valid : t.Valid) {id : Hash} (voting : id ∈ t.votingProposals)
    (version : t.KindIn id [.version]) : t.preActiveProposal = zeroHash := by
  by_contra occupied
  have same := valid.oneVersionOrParam (Or.inr ⟨occupied, rfl⟩) (Or.inl voting)
    (by obtain ⟨p, stored, kind⟩ := valid.preActiveVersion occupied; exact ⟨p, stored, by simp_all⟩)
    (by obtain ⟨p, stored, kind⟩ := version; exact ⟨p, stored, by simp_all⟩)
  exact (valid.preActiveApart occupied).1 (same ▸ voting)

theorem CancelsEarlier.mono {t' : Stages} {p : Proposal}
    (grows : ∀ {id q}, t.proposals id = some q → t'.proposals id = some q)
    (earlier : t.CancelsEarlier p) : t'.CancelsEarlier p := fun rounds tobe body => by
  obtain ⟨target, stored, before⟩ := earlier rounds tobe body
  exact ⟨target, grows stored, before⟩

/-! ## A new proposal enters -/

section Enter

variable {p : Proposal}

theorem enter_proposals_of_ne {id : Hash} (other : id ≠ p.proposalID) :
    (t.enter p).proposals id = t.proposals id :=
  Function.update_of_ne other _ _

theorem enter_processing_iff {id : Hash} (other : id ≠ p.proposalID) :
    (t.enter p).Processing id ↔ t.Processing id := by
  simp only [Processing, enter, mem_addProposalByKey, other, or_false]

theorem enter_kindIn_iff {id : Hash} (other : id ≠ p.proposalID) (kinds : List ProposalType) :
    (t.enter p).KindIn id kinds ↔ t.KindIn id kinds := by
  simp only [KindIn, enter_proposals_of_ne other]

theorem Admits.not_listed (valid : t.Valid) (admits : t.Admits p) : ¬ t.Listed p.proposalID :=
  fun listed => by
    have stored := (valid.stored_iff _).mpr listed
    rw [admits.fresh] at stored
    cases stored

theorem Valid.enter (valid : t.Valid) (admits : t.Admits p) : (t.enter p).Valid := by
  have unlisted := admits.not_listed valid
  have notVoting : p.proposalID ∉ t.votingProposals := fun voting => unlisted (Or.inl (Or.inl voting))
  have notEnded : p.proposalID ∉ t.endProposals := fun ended => unlisted (Or.inr ended)
  have grows : ∀ {id q}, t.proposals id = some q → (t.enter p).proposals id = some q :=
    fun {id q} stored => by
      rw [enter_proposals_of_ne (by rintro rfl; rw [admits.fresh] at stored; cases stored)]
      exact stored
  have entered : (t.enter p).proposals p.proposalID = some p := Function.update_self _ _ _
  refine ⟨⟨?_, ?_, ?_, ?_, ?_, ?_, ?_, ?_⟩, ?_, ?_, ?_, ?_, ?_⟩
  · intro id q stored
    by_cases new : id = p.proposalID
    · subst new
      rw [entered] at stored
      cases stored
      rfl
    · exact valid.keyed (by rwa [enter_proposals_of_ne new] at stored)
  · rw [enter_proposals_of_ne (Ne.symm admits.nonzero)]
    exact valid.zeroFree
  · intro id
    by_cases new : id = p.proposalID
    · subst new
      simp only [entered, Option.isSome_some, true_iff]
      exact Or.inl (Or.inl (mem_addProposalByKey.mpr (Or.inr rfl)))
    · rw [enter_proposals_of_ne new, valid.stored_iff, Listed, Listed,
        enter_processing_iff new]
      rfl
  · exact nodup_addProposalByKey valid.votingDistinct _
  · exact valid.endDistinct
  · intro id voting
    rcases mem_addProposalByKey.mp voting with old | rfl
    · exact valid.votingApart id old
    · exact notEnded
  · intro occupied
    have listed : t.Listed t.preActiveProposal := Or.inl (Or.inr ⟨occupied, rfl⟩)
    have other : t.preActiveProposal ≠ p.proposalID := fun same => unlisted (same ▸ listed)
    refine ⟨fun voting => ?_, (valid.preActiveApart occupied).2⟩
    rcases mem_addProposalByKey.mp voting with old | same
    · exact (valid.preActiveApart occupied).1 old
    · exact other same
  · intro occupied
    have other : t.preActiveProposal ≠ p.proposalID :=
      fun same => unlisted (same ▸ Or.inl (Or.inr ⟨occupied, rfl⟩))
    exact (enter_kindIn_iff other _).mpr (valid.preActiveVersion occupied)
  · intro a b processingA processingB kindA kindB
    by_cases newA : a = p.proposalID <;> by_cases newB : b = p.proposalID
    · rw [newA, newB]
    · subst newA
      obtain ⟨q, stored, kind⟩ := kindA
      rw [entered] at stored
      cases stored
      exact absurd ((enter_kindIn_iff newB _).mp kindB)
        (admits.alone kind b ((enter_processing_iff newB).mp processingB))
    · subst newB
      obtain ⟨q, stored, kind⟩ := kindB
      rw [entered] at stored
      cases stored
      exact absurd ((enter_kindIn_iff newA _).mp kindA)
        (admits.alone kind a ((enter_processing_iff newA).mp processingA))
    · exact valid.oneVersionOrParam ((enter_processing_iff newA).mp processingA)
        ((enter_processing_iff newB).mp processingB)
        ((enter_kindIn_iff newA _).mp kindA) ((enter_kindIn_iff newB _).mp kindB)
  · intro a b votingA votingB kindA kindB
    have voting : ∀ {x}, x ≠ p.proposalID → x ∈ (t.enter p).votingProposals → x ∈ t.votingProposals :=
      fun {x} other member => (mem_addProposalByKey.mp member).resolve_right other
    by_cases newA : a = p.proposalID <;> by_cases newB : b = p.proposalID
    · rw [newA, newB]
    · subst newA
      obtain ⟨q, stored, kind⟩ := kindA
      rw [entered] at stored
      cases stored
      exact absurd ((enter_kindIn_iff newB _).mp kindB)
        (admits.aloneCancel (by simpa using kind) b (voting newB votingB))
    · subst newB
      obtain ⟨q, stored, kind⟩ := kindB
      rw [entered] at stored
      cases stored
      exact absurd ((enter_kindIn_iff newA _).mp kindA)
        (admits.aloneCancel (by simpa using kind) a (voting newA votingA))
    · exact valid.oneCancel (voting newA votingA) (voting newB votingB)
        ((enter_kindIn_iff newA _).mp kindA) ((enter_kindIn_iff newB _).mp kindB)
  · intro c q voting stored
    by_cases new : c = p.proposalID
    · subst new
      rw [entered] at stored
      cases stored
      exact admits.earlier.mono grows
    · rcases mem_addProposalByKey.mp voting with old | same
      · rw [enter_proposals_of_ne new] at stored
        exact (valid.cancelsEarlier old stored).mono grows
      · exact absurd same new
  · exact valid.versionsDecrease
  · intro id q processing stored version
    by_cases new : id = p.proposalID
    · subst new
      rw [entered] at stored
      cases stored
      exact admits.newer version
    · rw [enter_proposals_of_ne new] at stored
      exact valid.newer ((enter_processing_iff new).mp processing) stored version

end Enter

/-! ## Proposals leave the process -/

/-- Stages with the same proposals and versions and fewer proposals in process keep the rules on
the proposals in process; only where they are placed has to be shown. -/
theorem Valid.narrow (valid : t.Valid) {t' : Stages} (placed : t'.Placed)
    (same : t'.proposals = t.proposals) (versions : t'.activeVersions = t.activeVersions)
    (voting : ∀ {id}, id ∈ t'.votingProposals → id ∈ t.votingProposals)
    (processing : ∀ {id}, t'.Processing id → t.Processing id) : t'.Valid := by
  have kind : ∀ {id} kinds, t'.KindIn id kinds → t.KindIn id kinds := fun kinds kindIn => by
    rwa [KindIn, same] at kindIn
  have current : t'.currentVersion = t.currentVersion := by
    rw [currentVersion, currentVersion, versions]
  refine ⟨placed, ?_, ?_, ?_, ?_, ?_⟩
  · intro a b processingA processingB kindA kindB
    exact valid.oneVersionOrParam (processing processingA) (processing processingB)
      (kind _ kindA) (kind _ kindB)
  · intro a b votingA votingB kindA kindB
    exact valid.oneCancel (voting votingA) (voting votingB) (kind _ kindA) (kind _ kindB)
  · intro c p votingC stored
    rw [same] at stored
    exact (valid.cancelsEarlier (voting votingC) stored).mono fun found => by rwa [same]
  · rw [versions]
    exact valid.versionsDecrease
  · intro id p processingId stored version
    rw [current]
    exact valid.newer (processing processingId) (by rwa [same] at stored) version

section Leave

variable {id : Hash}

theorem finish_listed_iff (valid : t.Valid) (voting : id ∈ t.votingProposals) {x : Hash} :
    (t.finish id).Listed x ↔ t.Listed x := by
  by_cases moved : x = id
  · subst moved
    exact iff_of_true (Or.inr (mem_addProposalByKey.mpr (Or.inr rfl))) (listed_of_voting voting)
  · simp only [Listed, Processing, finish, valid.votingDistinct.mem_erase_iff, mem_addProposalByKey,
      moved, ne_eq, not_false_eq_true, true_and, or_false]

theorem finish_placed (valid : t.Valid) (voting : id ∈ t.votingProposals) : (t.finish id).Placed where
  keyed := valid.keyed
  zeroFree := valid.zeroFree
  stored_iff x := (valid.stored_iff x).trans (finish_listed_iff valid voting).symm
  votingDistinct := valid.votingDistinct.erase id
  endDistinct := nodup_addProposalByKey valid.endDistinct id
  votingApart x kept := by
    obtain ⟨other, old⟩ := valid.votingDistinct.mem_erase_iff.mp kept
    rw [finish, mem_addProposalByKey, not_or]
    exact ⟨valid.votingApart x old, other⟩
  preActiveApart occupied := by
    obtain ⟨notVoting, notEnded⟩ := valid.preActiveApart occupied
    have other : t.preActiveProposal ≠ id := fun same => notVoting (same ▸ voting)
    refine ⟨fun kept => notVoting (List.mem_of_mem_erase kept), ?_⟩
    rw [finish, mem_addProposalByKey, not_or]
    exact ⟨notEnded, other⟩
  preActiveVersion := valid.preActiveVersion

theorem Valid.finish (valid : t.Valid) (voting : id ∈ t.votingProposals) : (t.finish id).Valid :=
  valid.narrow (finish_placed valid voting) rfl rfl List.mem_of_mem_erase fun {_} processing =>
    processing.imp_left List.mem_of_mem_erase

theorem promote_listed_iff (valid : t.Valid) (voting : id ∈ t.votingProposals)
    (empty : t.preActiveProposal = zeroHash) {x : Hash} :
    (t.promote id).Listed x ↔ t.Listed x := by
  have nonzero : id ≠ zeroHash := valid.ne_zero_of_listed (listed_of_voting voting)
  by_cases moved : x = id
  · subst moved
    exact iff_of_true (Or.inl (Or.inr ⟨nonzero, rfl⟩)) (listed_of_voting voting)
  · simp only [Listed, Processing, promote, valid.votingDistinct.mem_erase_iff, moved, empty,
      ne_eq, not_false_eq_true, true_and, and_false, not_and_self, or_false]

theorem promote_placed (valid : t.Valid) (voting : id ∈ t.votingProposals)
    (version : t.KindIn id [.version]) : (t.promote id).Placed := by
  have empty := valid.preActive_zero voting version
  exact {
    keyed := valid.keyed
    zeroFree := valid.zeroFree
    stored_iff := fun x => (valid.stored_iff x).trans (promote_listed_iff valid voting empty).symm
    votingDistinct := valid.votingDistinct.erase id
    endDistinct := valid.endDistinct
    votingApart := fun x kept => valid.votingApart x (List.mem_of_mem_erase kept)
    preActiveApart := fun _ => ⟨valid.votingDistinct.not_mem_erase, valid.votingApart id voting⟩
    preActiveVersion := fun _ => version }

theorem Valid.promote (valid : t.Valid) (voting : id ∈ t.votingProposals)
    (version : t.KindIn id [.version]) : (t.promote id).Valid := by
  have empty := valid.preActive_zero voting version
  refine valid.narrow (promote_placed valid voting version) rfl rfl List.mem_of_mem_erase ?_
  rintro x (kept | ⟨-, rfl⟩)
  · exact Or.inl (List.mem_of_mem_erase kept)
  · exact Or.inl voting

theorem retire_listed_iff (occupied : t.preActiveProposal ≠ zeroHash) {x : Hash} :
    (t.retire t.preActiveProposal).Listed x ↔ t.Listed x := by
  by_cases moved : x = t.preActiveProposal
  · rw [moved]
    exact iff_of_true (Or.inr (mem_addProposalByKey.mpr (Or.inr rfl))) (Or.inl (Or.inr ⟨occupied, rfl⟩))
  · simp only [Listed, Processing, retire, mem_addProposalByKey, moved, ne_eq, not_and_self,
      or_false, and_false]

theorem retire_placed (valid : t.Valid) (occupied : t.preActiveProposal ≠ zeroHash) :
    (t.retire t.preActiveProposal).Placed where
  keyed := valid.keyed
  zeroFree := valid.zeroFree
  stored_iff x := (valid.stored_iff x).trans (retire_listed_iff occupied).symm
  votingDistinct := valid.votingDistinct
  endDistinct := nodup_addProposalByKey valid.endDistinct _
  votingApart x voting := by
    rw [retire, mem_addProposalByKey, not_or]
    exact ⟨valid.votingApart x voting, fun same => (valid.preActiveApart occupied).1 (same ▸ voting)⟩
  preActiveApart cleared := absurd rfl cleared
  preActiveVersion cleared := absurd rfl cleared

theorem retire_processing {x : Hash} (processing : (t.retire t.preActiveProposal).Processing x) :
    x ∈ t.votingProposals := by
  rcases processing with voting | ⟨cleared, same⟩
  · exact voting
  · exact absurd same cleared

theorem Valid.retire (valid : t.Valid) (occupied : t.preActiveProposal ≠ zeroHash) :
    (t.retire t.preActiveProposal).Valid :=
  valid.narrow (retire_placed valid occupied) rfl rfl id fun processing =>
    Or.inl (retire_processing processing)

/-- The pre-active version proposal ends and its version heads the active versions. -/
theorem Valid.activate (valid : t.Valid) (occupied : t.preActiveProposal ≠ zeroHash) {p : Proposal}
    (stored : t.proposals t.preActiveProposal = some p) (activeBlock : UInt64) :
    (t.activate t.preActiveProposal p.newVersion activeBlock).Valid := by
  have retired := valid.retire occupied
  obtain ⟨q, found, kind⟩ := valid.preActiveVersion occupied
  rw [stored, Option.some_inj] at found
  subst found
  have version : p.proposalType = .version := by simpa using kind
  have above : t.currentVersion >>> 8 < p.newVersion >>> 8 :=
    valid.newer (Or.inr ⟨occupied, rfl⟩) stored version
  refine ⟨⟨retired.keyed, retired.zeroFree, retired.stored_iff, retired.votingDistinct,
    retired.endDistinct, retired.votingApart, retired.preActiveApart, retired.preActiveVersion⟩,
    retired.oneVersionOrParam, retired.oneCancel, retired.cancelsEarlier, ?_, ?_⟩
  · show ((⟨p.newVersion, activeBlock⟩ :: t.activeVersions).map _).Pairwise _
    rw [List.map_cons, List.pairwise_cons]
    refine ⟨fun x older => ?_, valid.versionsDecrease⟩
    have decreasing := valid.versionsDecrease
    rw [currentVersion] at above
    cases versions : t.activeVersions with
    | nil => simp [versions] at older
    | cons newest rest =>
        rw [versions] at older above decreasing
        rw [List.map_cons, List.pairwise_cons] at decreasing
        rcases List.mem_cons.mp older with rfl | deeper
        · exact above
        · exact UInt32.lt_trans (decreasing.1 x deeper) above
  · intro x r processing stored' version'
    have voting := retire_processing processing
    have same := valid.oneVersionOrParam (Or.inl voting) (Or.inr ⟨occupied, rfl⟩)
      ⟨r, stored', by simp [version']⟩ ⟨p, stored, by simp [version]⟩
    exact absurd (same ▸ voting) (valid.preActiveApart occupied).1

end Leave

/-! ## Runs of the stages -/

/-- How proposals leave the process: a proposal at voting ends or, being a version proposal,
becomes pre-active; the pre-active proposal ends, possibly activating its version. -/
inductive Leave : Stages → Stages → Prop
  | finish {t : Stages} {id : Hash} : id ∈ t.votingProposals → Leave t (t.finish id)
  | promote {t : Stages} {id : Hash} : id ∈ t.votingProposals → t.KindIn id [.version] →
      Leave t (t.promote id)
  | retire {t : Stages} : t.preActiveProposal ≠ zeroHash → Leave t (t.retire t.preActiveProposal)
  | activate {t : Stages} {p : Proposal} (activeBlock : UInt64) : t.preActiveProposal ≠ zeroHash →
      t.proposals t.preActiveProposal = some p →
      Leave t (t.activate t.preActiveProposal p.newVersion activeBlock)

/-- Any number of proposals leave the process. -/
def Leaves : Stages → Stages → Prop :=
  Relation.ReflTransGen Leave

/-- A proposal enters, or proposals leave. -/
def Moves (t t' : Stages) : Prop :=
  (∃ p, t.Admits p ∧ t' = t.enter p) ∨ t.Leaves t'

theorem Valid.leave (valid : t.Valid) {t' : Stages} (left : t.Leave t') : t'.Valid := by
  cases left with
  | finish voting => exact valid.finish voting
  | promote voting version => exact valid.promote voting version
  | retire occupied => exact valid.retire occupied
  | activate activeBlock occupied stored => exact valid.activate occupied stored activeBlock

theorem Valid.leaves (valid : t.Valid) {t' : Stages} (left : t.Leaves t') : t'.Valid := by
  induction left with
  | refl => exact valid
  | tail _ last holds => exact holds.leave last

theorem Valid.moves (valid : t.Valid) {t' : Stages} (moved : t.Moves t') : t'.Valid := by
  rcases moved with ⟨p, admits, rfl⟩ | left
  · exact valid.enter admits
  · exact valid.leaves left

theorem Leave.narrows {t' : Stages} (left : t.Leave t') :
    t'.proposals = t.proposals ∧ t'.votingProposals ⊆ t.votingProposals := by
  cases left with
  | finish voting => exact ⟨rfl, fun _ => List.mem_of_mem_erase⟩
  | promote voting version => exact ⟨rfl, fun _ => List.mem_of_mem_erase⟩
  | retire occupied => exact ⟨rfl, fun _ member => member⟩
  | activate activeBlock occupied stored => exact ⟨rfl, fun _ member => member⟩

theorem Leaves.narrows {t' : Stages} (left : t.Leaves t') :
    t'.proposals = t.proposals ∧ t'.votingProposals ⊆ t.votingProposals := by
  induction left with
  | refl => exact ⟨rfl, fun _ member => member⟩
  | tail _ last holds =>
      obtain ⟨same, shrinks⟩ := last.narrows
      exact ⟨same.trans holds.1, fun _ member => holds.2 (shrinks member)⟩

/-- What the stages never lose: the records of stored proposals, the ended proposals, and the
active versions, which only grow at the front. -/
structure Keeps (t t' : Stages) : Prop where
  records : ∀ {id : Hash} {p : Proposal}, t.proposals id = some p → t'.proposals id = some p
  ended : t.endProposals ⊆ t'.endProposals
  versions : t.activeVersions <:+ t'.activeVersions

theorem Keeps.refl : t.Keeps t :=
  ⟨fun stored => stored, fun _ member => member, List.suffix_refl _⟩

theorem Keeps.trans {t' t'' : Stages} (first : t.Keeps t') (second : t'.Keeps t'') : t.Keeps t'' :=
  ⟨fun stored => second.records (first.records stored),
    fun _ member => second.ended (first.ended member), first.versions.trans second.versions⟩

theorem Leave.keeps {t' : Stages} (left : t.Leave t') : t.Keeps t' := by
  cases left with
  | finish voting =>
      exact ⟨fun stored => stored, fun _ member => mem_addProposalByKey.mpr (Or.inl member),
        List.suffix_refl _⟩
  | promote voting version => exact ⟨fun stored => stored, fun _ member => member, List.suffix_refl _⟩
  | retire occupied =>
      exact ⟨fun stored => stored, fun _ member => mem_addProposalByKey.mpr (Or.inl member),
        List.suffix_refl _⟩
  | activate activeBlock occupied stored =>
      exact ⟨fun stored => stored, fun _ member => mem_addProposalByKey.mpr (Or.inl member),
        List.suffix_cons _ _⟩

theorem Leaves.keeps {t' : Stages} (left : t.Leaves t') : t.Keeps t' := by
  induction left with
  | refl => exact .refl
  | tail _ last holds => exact holds.trans last.keeps

theorem Moves.keeps {t' : Stages} (moved : t.Moves t') : t.Keeps t' := by
  rcases moved with ⟨p, admits, rfl⟩ | left
  · refine ⟨@fun id q stored => ?_, fun _ member => member, List.suffix_refl _⟩
    have other : id ≠ p.proposalID := fun same => by
      rw [same, admits.fresh] at stored
      cases stored
    exact (enter_proposals_of_ne other).trans stored
  · exact left.keeps

/-- The stages at genesis: no proposal, and the genesis version active from block `0`. -/
def genesis (genesisVersion : UInt32) : Stages :=
  ⟨fun _ => none, [], zeroHash, [], [⟨genesisVersion, 0⟩]⟩

theorem genesis_valid (genesisVersion : UInt32) : (genesis genesisVersion).Valid := by
  refine ⟨⟨?_, rfl, ?_, List.nodup_nil, List.nodup_nil, ?_, ?_, ?_⟩, ?_, ?_, ?_, ?_, ?_⟩
  · intro id p stored
    cases stored
  · intro id
    simp [genesis, Listed, Processing]
  · intro id voting
    cases voting
  · intro occupied
    exact absurd rfl occupied
  · intro occupied
    exact absurd rfl occupied
  · intro a b processing
    simp [genesis, Processing] at processing
  · intro a b voting
    cases voting
  · intro c p voting
    cases voting
  · simp [genesis]
  · intro id p processing
    simp [genesis, Processing] at processing

end Stages

end Gov
end Bubble
