import Bubble.Restricting.Conservation

/-!
# The release schedule of restricting records

`releaseRestricting(epoch)` finds the accounts it pays through the index
`ReleaseAccount(epoch, i)`, for `i` from `ReleaseEpochNumber(epoch)` down to `1`, and pays each
`ReleaseAmount(epoch, account)`.  A record is released at an epoch of its `ReleaseList` only if the
index lists it there.  The invariant here makes that so: every stored record keeps its bounds and
the debt rule (`NeedRelease > 0` only when all its locked funds are lent), repeats no epoch, and has
for each of its epochs a positive amount and a place in the index.

The index counter is a `uint32`, and `initEpochInfo` writes the account at `counter + 1`, which
wraps to `0` on a full counter.  An operation adds at most one place to each epoch's index, so a run
of `n` operations keeps the invariant from any state whose counters have `n` places left.
-/

namespace Bubble
namespace Restricting

open Ledger RestrictingState

/-! ## The invariant -/

/-- A record's bounds, the debt rule, and its epochs without repetition. -/
structure RestrictingInfo.Sound (info : RestrictingInfo) : Prop extends info.Bounded where
  owing_lent : 0 < info.needRelease → info.cachePlanAmount = info.advanceAmount
  releaseList_nodup : info.releaseList.Nodup

/-- The index of `epoch` lists `account` among its first `bound` places. -/
def ListedBelow (state : RestrictingState) (epoch : UInt64) (account : Address) (bound : ℕ) :
    Prop :=
  ∃ index, 0 < index ∧ index ≤ bound ∧ state.releaseAccount (epoch, UInt32.ofNat index) = account

/-- The release of `epoch` pays `account` a positive amount: the index lists it. -/
def DueAt (state : RestrictingState) (epoch : UInt64) (account : Address) : Prop :=
  0 < state.releaseAmount (epoch, account) ∧
    ListedBelow state epoch account (state.releaseEpochNumber epoch).toNat

/-- The release schedule keeps every epoch of the record. -/
def Due (state : RestrictingState) (account : Address) (info : RestrictingInfo) : Prop :=
  ∀ epoch ∈ info.releaseList, DueAt state epoch account

/-- The invariant of the restricting records. -/
structure Scheduled (state : RestrictingState) : Prop where
  sound : ∀ account info, state.restrictingInfo account = some info → info.Sound
  due : ∀ account info, state.restrictingInfo account = some info → Due state account info

/-- The counter of `epoch` has a place left. -/
def Room (state : RestrictingState) (epoch : UInt64) : Prop :=
  (state.releaseEpochNumber epoch).toNat + 1 < 2 ^ 32

/-! ## Record arithmetic -/

@[simp]
theorem transferAmount_releaseEpochNumber (state : RestrictingState) (src dst : Address)
    (amount : ℤ) :
    (state.transferAmount src dst amount).releaseEpochNumber = state.releaseEpochNumber := rfl

@[simp]
theorem returnInfo_releaseList (info : RestrictingInfo) (amount : ℤ) :
    (returnInfo info amount).1.releaseList = info.releaseList := by
  unfold returnInfo
  split_ifs <;> rfl

@[simp]
theorem releaseInfo_releaseList (info : RestrictingInfo) (releaseAmount : ℤ) :
    (releaseInfo info releaseAmount).1.releaseList = info.releaseList := by
  dsimp only [releaseInfo]
  split_ifs <;> rfl

namespace RestrictingInfo.Sound

variable {info : RestrictingInfo} (sound : info.Sound)
include sound

theorem lend {lent : ℤ} (nonneg : 0 ≤ lent)
    (covered : lent ≤ info.cachePlanAmount - info.advanceAmount) :
    { info with advanceAmount := info.advanceAmount + lent }.Sound := by
  have lent_nonneg := sound.advanceAmount_nonneg
  refine ⟨⟨sound.needRelease_nonneg, by dsimp only; omega, by dsimp only; omega⟩,
    fun owing => ?_, sound.releaseList_nodup⟩
  have lent_all := sound.owing_lent owing
  dsimp only
  omega

theorem slash {amount : ℤ} (covered : amount ≤ info.advanceAmount) :
    { info with
      advanceAmount := info.advanceAmount - amount
      cachePlanAmount := info.cachePlanAmount - amount }.Sound := by
  have := sound.advance_le_cache
  refine ⟨⟨sound.needRelease_nonneg, by dsimp only; omega, by dsimp only; omega⟩,
    fun owing => ?_, sound.releaseList_nodup⟩
  have lent_all := sound.owing_lent owing
  dsimp only
  omega

theorem returnInfo {amount : ℤ} (positive : 0 < amount) (covered : amount ≤ info.advanceAmount) :
    (Restricting.returnInfo info amount).1.Sound := by
  have bounded := (returnInfo_spec sound.toBounded positive covered).1
  have := sound.needRelease_nonneg
  refine ⟨bounded, fun owing => ?_, by rw [returnInfo_releaseList]; exact sound.releaseList_nodup⟩
  unfold Restricting.returnInfo at owing ⊢
  split_ifs at owing ⊢ with debt settles
  · have lent_all := sound.owing_lent debt
    dsimp only
    omega
  · simp at owing
  · dsimp only at owing
    omega

theorem releaseInfo {releaseAmount : ℤ} (nonneg : 0 ≤ releaseAmount) :
    (Restricting.releaseInfo info releaseAmount).1.Sound := by
  have bounded := (releaseInfo_spec sound.toBounded nonneg).1
  refine ⟨bounded, fun owing => ?_, by rw [releaseInfo_releaseList]; exact sound.releaseList_nodup⟩
  dsimp only [Restricting.releaseInfo] at owing ⊢
  split_ifs at owing ⊢ with debt covered
  · exact sound.owing_lent debt
  · dsimp only at owing
    omega
  · dsimp only
    omega

theorem removeEpoch (epoch : UInt64) : (info.removeEpoch epoch).Sound :=
  ⟨⟨sound.needRelease_nonneg, sound.advanceAmount_nonneg, sound.advance_le_cache⟩,
    sound.owing_lent, sound.releaseList_nodup.erase epoch⟩

theorem payNeedRelease (state : RestrictingState) (account : Address) {totalAmount : ℤ}
    (nonneg : 0 ≤ totalAmount) :
    (Restricting.payNeedRelease state account info totalAmount).2.Sound := by
  have := sound.needRelease_nonneg
  have := sound.advanceAmount_nonneg
  have := sound.advance_le_cache
  unfold Restricting.payNeedRelease
  split_ifs with debt settles
  · exact ⟨⟨by dsimp only; omega, sound.advanceAmount_nonneg, sound.advance_le_cache⟩,
      fun _ => sound.owing_lent debt, sound.releaseList_nodup⟩
  · exact ⟨⟨le_rfl, sound.advanceAmount_nonneg, by dsimp only; omega⟩,
      fun owing => absurd owing (lt_irrefl 0), sound.releaseList_nodup⟩
  · exact ⟨⟨sound.needRelease_nonneg, sound.advanceAmount_nonneg, by dsimp only; omega⟩,
      fun owing => absurd owing (by dsimp only; omega), sound.releaseList_nodup⟩

end RestrictingInfo.Sound

/-! ## The index -/

theorem DueAt.congr {state next : RestrictingState} {epoch : UInt64} {account : Address}
    (due : DueAt state epoch account)
    (number : next.releaseEpochNumber epoch = state.releaseEpochNumber epoch)
    (accounts : ∀ index, next.releaseAccount (epoch, index) = state.releaseAccount (epoch, index))
    (amount : next.releaseAmount (epoch, account) = state.releaseAmount (epoch, account)) :
    DueAt next epoch account := by
  obtain ⟨paid, index, index_pos, index_le, listed⟩ := due
  exact ⟨amount ▸ paid, index, index_pos, number ▸ index_le, (accounts _).trans listed⟩

theorem UInt32.ofNat_injOn {i j : ℕ} (hi : i < 2 ^ 32) (hj : j < 2 ^ 32)
    (same : UInt32.ofNat i = UInt32.ofNat j) : i = j := by
  have := congrArg UInt32.toNat same
  simp at this
  omega

section InitEpochInfo

variable {state : RestrictingState} {epoch : UInt64} {account : Address} {amount : ℤ}

theorem initEpochInfo_releaseEpochNumber (other : UInt64) :
    (initEpochInfo state epoch account amount).releaseEpochNumber other =
      if other = epoch then state.releaseEpochNumber epoch + 1
      else state.releaseEpochNumber other := by
  simp [initEpochInfo, Function.update_apply]

theorem Room.toNat_add_one (room : Room state epoch) :
    (state.releaseEpochNumber epoch + 1).toNat = (state.releaseEpochNumber epoch).toNat + 1 := by
  rw [UInt32.toNat_add]
  simp only [UInt32.toNat_one]
  unfold Room at room
  omega

theorem dueAt_initEpochInfo (room : Room state epoch) (positive : 0 < amount) :
    DueAt (initEpochInfo state epoch account amount) epoch account := by
  refine ⟨by simp [initEpochInfo]; omega, (state.releaseEpochNumber epoch).toNat + 1, by omega,
    ?_, ?_⟩
  · rw [initEpochInfo_releaseEpochNumber, if_pos rfl, room.toNat_add_one]
  · simp [initEpochInfo]

/-- A place below the counter is not overwritten, so every due release stays due. -/
theorem DueAt.initEpochInfo {other : UInt64} {holder : Address} (room : Room state epoch)
    (positive : 0 < amount) (due : DueAt state other holder) :
    DueAt (Restricting.initEpochInfo state epoch account amount) other holder := by
  obtain ⟨paid, index, index_pos, index_le, listed⟩ := due
  refine ⟨?_, index, index_pos, ?_, ?_⟩
  · simp only [Restricting.initEpochInfo, Function.update_apply]
    split_ifs
    · exact Int.natAbs_pos.mpr positive.ne'
    · exact paid
  · rw [initEpochInfo_releaseEpochNumber]
    split_ifs with same
    · subst same
      rw [room.toNat_add_one]
      omega
    · exact index_le
  · simp only [Restricting.initEpochInfo, Function.update_apply, Prod.mk.injEq]
    split_ifs with fresh
    · obtain ⟨rfl, wrote⟩ := fresh
      have wrote := congrArg UInt32.toNat wrote
      rw [room.toNat_add_one] at wrote
      simp only [UInt32.toNat_ofNat'] at wrote
      have := (state.releaseEpochNumber other).toNat_lt
      omega
    · exact listed

end InitEpochInfo

/-! ## Writing records -/

namespace Scheduled

variable {state : RestrictingState} (scheduled : Scheduled state)
include scheduled

theorem update (account : Address) (slot : Option RestrictingInfo)
    (fits : ∀ info, slot = some info → info.Sound ∧ Due state account info) :
    Scheduled { state with restrictingInfo := Function.update state.restrictingInfo account slot } := by
  have found : ∀ holder info, Function.update state.restrictingInfo account slot holder = some info →
      (holder = account ∧ slot = some info) ∨ state.restrictingInfo holder = some info := by
    intro holder info stored
    by_cases same : holder = account
    · subst same
      exact .inl ⟨rfl, by simpa using stored⟩
    · exact .inr (by rwa [Function.update_of_ne same] at stored)
  constructor
  · intro holder info stored
    rcases found holder info stored with ⟨-, written⟩ | kept
    · exact (fits info written).1
    · exact scheduled.sound holder info kept
  · intro holder info stored
    rcases found holder info stored with ⟨rfl, written⟩ | kept
    · exact (fits info written).2
    · exact scheduled.due holder info kept

theorem transferAmount (src dst : Address) (amount : ℤ) :
    Scheduled (state.transferAmount src dst amount) :=
  ⟨scheduled.sound, scheduled.due⟩

theorem of_dueAt {next : RestrictingState} (records : next.restrictingInfo = state.restrictingInfo)
    (keeps : ∀ epoch account, DueAt state epoch account → DueAt next epoch account) :
    Scheduled next :=
  ⟨fun account info found => scheduled.sound account info (records ▸ found),
    fun account info found epoch mem =>
      keeps epoch account (scheduled.due account info (records ▸ found) epoch mem)⟩

theorem store {account : Address} {info written : RestrictingInfo} {next : RestrictingState}
    (found : state.restrictingInfo account = some info) (sound : written.Sound)
    (epochs : written.releaseList = info.releaseList)
    (success : state.storeRestrictingInfo account written = .ok next) : Scheduled next := by
  obtain ⟨-, rfl⟩ := storeRestrictingInfo_eq_ok.mp success
  refine scheduled.update account _ fun stored same => ?_
  cases same
  exact ⟨sound, fun epoch mem => scheduled.due account info found epoch (epochs ▸ mem)⟩

theorem storeOrClear {account : Address} {info written : RestrictingInfo} {next : RestrictingState}
    {clear : Bool} (found : state.restrictingInfo account = some info) (sound : written.Sound)
    (epochs : ∀ epoch ∈ written.releaseList, epoch ∈ info.releaseList)
    (success : Restricting.storeOrClear state account written clear = .ok next) :
    Scheduled next := by
  rw [storeOrClear_eq_ok success]
  refine scheduled.update account _ fun stored same => ?_
  split_ifs at same
  cases same
  exact ⟨sound, fun epoch mem => scheduled.due account info found epoch (epochs epoch mem)⟩

end Scheduled

/-! ## Lending -/

theorem advanceLockedFunds_scheduled {state next : RestrictingState} {account : Address}
    {amount : ℤ} (scheduled : Scheduled state)
    (success : advanceLockedFunds state account amount = .ok next) : Scheduled next := by
  unfold advanceLockedFunds at success
  cases found : state.restrictingInfo account with
  | none => simp [mustGetRestrictingInfo, found] at success
  | some info =>
      simp only [mustGetRestrictingInfo, found] at success
      split_ifs at success with negative zero short
      · cases success
        exact scheduled
      cases stored : state.storeRestrictingInfo account
          { info with advanceAmount := info.advanceAmount + amount } with
      | error failure => simp [stored] at success
      | ok written =>
          simp only [stored, Except.ok.injEq] at success
          subst success
          exact (scheduled.store found ((scheduled.sound account info found).lend (by omega)
            (by omega)) rfl stored).transferAmount _ _ _

theorem mixAdvanceLockedFunds_scheduled {state next : RestrictingState} {account : Address}
    {amount forRestricting forFree : ℤ} (scheduled : Scheduled state)
    (success : mixAdvanceLockedFunds state account amount = .ok (next, forRestricting, forFree)) :
    Scheduled next := by
  unfold mixAdvanceLockedFunds at success
  cases found : state.restrictingInfo account with
  | none =>
      simp only [mustGetRestrictingInfo, found] at success
      split_ifs at success
      cases success
      exact scheduled.transferAmount _ _ _
  | some info =>
      simp only [mustGetRestrictingInfo, found] at success
      have sound := scheduled.sound account info found
      have := sound.advance_le_cache
      split_ifs at success with negative zero poor shortfall
      · cases success
        exact scheduled
      · rw [add_sub_cancel] at success
        cases stored : (state.transferAmount account stakingContractAddr
            (amount - (info.cachePlanAmount - info.advanceAmount))).storeRestrictingInfo account
            { info with advanceAmount := info.cachePlanAmount } with
        | error failure => simp [stored] at success
        | ok written =>
            simp only [stored, Except.ok.injEq, Prod.mk.injEq] at success
            obtain ⟨rfl, -, -⟩ := success
            have lent_all : { info with advanceAmount :=
                info.advanceAmount + (info.cachePlanAmount - info.advanceAmount) }.Sound :=
              sound.lend (by omega) le_rfl
            rw [add_sub_cancel] at lent_all
            exact ((scheduled.transferAmount _ _ _).store found lent_all rfl
              stored).transferAmount _ _ _
      · cases stored : state.storeRestrictingInfo account
            { info with advanceAmount := info.advanceAmount + amount } with
        | error failure => simp [stored] at success
        | ok written =>
            simp only [stored, Except.ok.injEq, Prod.mk.injEq] at success
            obtain ⟨rfl, -, -⟩ := success
            exact (scheduled.store found (sound.lend (by omega) (by omega)) rfl
              stored).transferAmount _ _ _

theorem slashingNotify_scheduled {state next : RestrictingState} {account : Address}
    {amount : ℤ} (scheduled : Scheduled state)
    (success : slashingNotify state account amount = .ok next) : Scheduled next := by
  unfold slashingNotify at success
  cases found : state.restrictingInfo account with
  | none => simp [mustGetRestrictingInfo, found] at success
  | some info =>
      simp only [mustGetRestrictingInfo, found] at success
      split_ifs at success with negative zero empty tooMuch
      · cases success
        exact scheduled
      · exact scheduled.storeOrClear found
          ((scheduled.sound account info found).slash (by omega)) (fun _ => id) success

theorem returnLockFunds_scheduled {state next : RestrictingState} {account : Address}
    {amount : ℤ} (scheduled : Scheduled state)
    (success : returnLockFunds state account amount = .ok next) : Scheduled next := by
  unfold returnLockFunds at success
  split_ifs at success with zero negative
  · cases success
    exact scheduled
  cases found : state.restrictingInfo account with
  | none => simp [mustGetRestrictingInfo, found] at success
  | some info =>
      simp only [mustGetRestrictingInfo, found] at success
      split_ifs at success with short
      exact ((scheduled.transferAmount _ _ _).transferAmount _ _ _).storeOrClear found
        ((scheduled.sound account info found).returnInfo (by omega) (by omega))
        (fun epoch mem => by simpa using mem) success

theorem releaseGenesisRestrictingPlans_scheduled {state next : RestrictingState}
    (scheduled : Scheduled state) (success : releaseGenesisRestrictingPlans state = .ok next) :
    Scheduled next := by
  unfold releaseGenesisRestrictingPlans at success
  split at success <;> cases success
  · exact scheduled
  · exact ⟨scheduled.sound, scheduled.due⟩
  · exact ⟨scheduled.sound, scheduled.due⟩

/-! ## Releasing -/

/-- The invariant inside the loop of `releaseRestricting(epoch)` with the places `1..count` still to
visit: the records are sound, their other epochs due, and `epoch` due at a place still ahead. -/
structure Releasing (state : RestrictingState) (epoch : UInt64) (count : ℕ) : Prop where
  sound : ∀ account info, state.restrictingInfo account = some info → info.Sound
  due : ∀ account info, state.restrictingInfo account = some info →
    ∀ other ∈ info.releaseList, other ≠ epoch → DueAt state other account
  ahead : ∀ account info, state.restrictingInfo account = some info → epoch ∈ info.releaseList →
    0 < state.releaseAmount (epoch, account) ∧ ListedBelow state epoch account count
  count_le : count ≤ (state.releaseEpochNumber epoch).toNat

theorem Scheduled.releasing {state : RestrictingState} (scheduled : Scheduled state)
    (epoch : UInt64) : Releasing state epoch (state.releaseEpochNumber epoch).toNat :=
  ⟨scheduled.sound, fun account info found other mem _ => scheduled.due account info found other mem,
    fun account info found mem => scheduled.due account info found epoch mem, le_rfl⟩

theorem ListedBelow.below {state : RestrictingState} {epoch : UInt64} {account : Address}
    {count : ℕ} (listed : ListedBelow state epoch account (count + 1))
    (other : state.releaseAccount (epoch, UInt32.ofNat (count + 1)) ≠ account) :
    ListedBelow state epoch account count := by
  obtain ⟨index, index_pos, index_le, at_index⟩ := listed
  rcases Nat.lt_or_eq_of_le index_le with lt | rfl
  · exact ⟨index, index_pos, Nat.lt_succ_iff.mp lt, at_index⟩
  · exact absurd at_index other

/-- One visit of the loop settles the place it visits. -/
theorem Releasing.releaseAt {state next : RestrictingState} {epoch : UInt64} {count : ℕ}
    (releasing : Releasing state epoch (count + 1))
    (success : Restricting.releaseAt epoch state (UInt32.ofNat (count + 1)) = .ok next) :
    Releasing next epoch count := by
  have bound : count + 1 < 2 ^ 32 :=
    Nat.lt_of_le_of_lt releasing.count_le (state.releaseEpochNumber epoch).toNat_lt
  unfold Restricting.releaseAt at success
  generalize visited : state.releaseAccount (epoch, UInt32.ofNat (count + 1)) = account at success
  cases found : state.restrictingInfo account with
  | none =>
      simp only [mustGetRestrictingInfo, found, Except.ok.injEq] at success
      subst success
      refine ⟨releasing.sound, releasing.due, fun holder info stored mem => ?_,
        Nat.le_of_succ_le releasing.count_le⟩
      obtain ⟨paid, listed⟩ := releasing.ahead holder info stored mem
      refine ⟨paid, listed.below fun same => ?_⟩
      rw [visited] at same
      subst same
      rw [found] at stored
      cases stored
  | some info =>
      simp only [mustGetRestrictingInfo, found] at success
      have next_eq := storeOrClear_eq_ok success
      generalize kept_def : (releaseInfo info (state.releaseAmount (epoch, account))).1.removeEpoch
        epoch = kept at next_eq
      obtain ⟨kept_sound, gone, narrower⟩ : kept.Sound ∧ epoch ∉ kept.releaseList ∧
          ∀ other ∈ kept.releaseList, other ∈ info.releaseList := by
        have released := (releasing.sound account info found).releaseInfo
          (Int.natCast_nonneg (state.releaseAmount (epoch, account)))
        subst kept_def
        refine ⟨released.removeEpoch epoch, released.releaseList_nodup.not_mem_erase,
          fun other mem => ?_⟩
        simpa using List.mem_of_mem_erase mem
      have records : ∀ holder, next.restrictingInfo holder =
          if holder = account then (if kept.isReleased then none else some kept)
          else state.restrictingInfo holder := by
        intro holder
        simp [next_eq, Function.update_apply, transferAmount]
      have places : ∀ other index, next.releaseAccount (other, index) =
          if other = epoch ∧ index = UInt32.ofNat (count + 1) then zeroAddress
          else state.releaseAccount (other, index) := by
        intro other index
        simp [next_eq, Function.update_apply, transferAmount]
      have amounts : ∀ other holder, next.releaseAmount (other, holder) =
          if other = epoch ∧ holder = account then 0 else state.releaseAmount (other, holder) := by
        intro other holder
        simp [next_eq, Function.update_apply, transferAmount]
      have numbers : next.releaseEpochNumber = state.releaseEpochNumber := by
        rw [next_eq]
        rfl
      have lower : ∀ index, 0 < index → index ≤ count →
          UInt32.ofNat index ≠ UInt32.ofNat (count + 1) := fun index _ index_le same =>
        absurd (UInt32.ofNat_injOn (by omega) bound same) (by omega)
      have other_due : ∀ holder old, state.restrictingInfo holder = some old →
          ∀ other ∈ old.releaseList, other ≠ epoch → DueAt next other holder :=
        fun holder old was other mem ne =>
          (releasing.due holder old was other mem ne).congr (congrFun numbers other)
            (fun index => by rw [places, if_neg fun same => ne same.1])
            (by rw [amounts, if_neg fun same => ne same.1])
      refine ⟨fun holder stored found' => ?_, fun holder stored found' other mem ne => ?_,
        fun holder stored found' mem => ?_, numbers ▸ Nat.le_of_succ_le releasing.count_le⟩
      · rw [records] at found'
        split_ifs at found' with same released
        · cases found'
          exact kept_sound
        · exact releasing.sound holder stored found'
      · rw [records] at found'
        split_ifs at found' with same released
        · cases found'
          subst same
          exact other_due holder info found other (narrower other mem) ne
        · exact other_due holder stored found' other mem ne
      · rw [records] at found'
        split_ifs at found' with same released
        · cases found'
          exact absurd mem gone
        · obtain ⟨paid, listed⟩ := releasing.ahead holder stored found' mem
          obtain ⟨index, index_pos, index_le, at_index⟩ :=
            listed.below (by rw [visited]; exact Ne.symm same)
          refine ⟨by rw [amounts, if_neg fun both => same both.2]; exact paid, index, index_pos,
            index_le, ?_⟩
          rw [places, if_neg fun both => lower index index_pos index_le both.2]
          exact at_index

theorem Releasing.releaseLoop {epoch : UInt64} (count : ℕ) {state next : RestrictingState}
    (releasing : Releasing state epoch count)
    (success : Restricting.releaseLoop epoch count state = .ok next) :
    Releasing next epoch 0 := by
  induction count generalizing state with
  | zero =>
      simp only [Restricting.releaseLoop, Except.ok.injEq] at success
      exact success ▸ releasing
  | succ count ih =>
      rw [Restricting.releaseLoop] at success
      cases released : Restricting.releaseAt epoch state (UInt32.ofNat (count + 1)) with
      | error failure => rw [released] at success; cases success
      | ok mid =>
          rw [released] at success
          exact ih (releasing.releaseAt released) success

theorem Releasing.finish {state : RestrictingState} {epoch : UInt64}
    (releasing : Releasing state epoch 0) :
    Scheduled { state with
      releaseEpochNumber := Function.update state.releaseEpochNumber epoch 0 } := by
  refine ⟨releasing.sound, fun account info found other mem => ?_⟩
  have ne : other ≠ epoch := by
    rintro rfl
    obtain ⟨-, index, index_pos, index_le, -⟩ := releasing.ahead account info found mem
    omega
  exact (releasing.due account info found other mem ne).congr (by simp [ne]) (fun _ => rfl) rfl

theorem releaseRestricting_scheduled {state next : RestrictingState} {epoch : UInt64}
    (scheduled : Scheduled state) (success : releaseRestricting state epoch = .ok next) :
    Scheduled next := by
  dsimp only [releaseRestricting] at success
  split_ifs at success with none_due
  · cases success
    exact scheduled
  cases looped : releaseLoop epoch (state.releaseEpochNumber epoch).toNat state with
  | error failure => simp [looped] at success
  | ok mid =>
      simp only [looped, Except.ok.injEq] at success
      subst success
      have releasing := (scheduled.releasing epoch).releaseLoop _ looped
      exact releasing.finish

/-! ## Creating plans -/

/-- The plan map of `mergeAmount`: one entry per epoch, each with a positive amount. -/
def PlanMap (planMap : List (UInt64 × ℤ)) : Prop :=
  (planMap.map Prod.fst).Nodup ∧ ∀ entry ∈ planMap, 0 < entry.2

theorem PlanMap.addPlan {planMap : List (UInt64 × ℤ)} (plan : PlanMap planMap) {epoch : UInt64}
    {amount : ℤ} (positive : 0 < amount) : PlanMap (Restricting.addPlan planMap epoch amount) := by
  induction planMap with
  | nil => exact ⟨by simp [Restricting.addPlan], by simpa [Restricting.addPlan] using positive⟩
  | cons entry rest ih =>
      obtain ⟨key, value⟩ := entry
      obtain ⟨nodup, values⟩ := plan
      rw [List.map_cons, List.nodup_cons] at nodup
      have value_pos : 0 < value := values (key, value) List.mem_cons_self
      have rest_plan : PlanMap rest := ⟨nodup.2, fun e mem => values e (List.mem_cons_of_mem _ mem)⟩
      unfold Restricting.addPlan
      split_ifs with same
      · refine ⟨by simpa using nodup, fun e mem => ?_⟩
        rcases List.mem_cons.mp mem with rfl | tail
        · dsimp only
          omega
        · exact rest_plan.2 e tail
      · obtain ⟨added_nodup, added_values⟩ := ih rest_plan
        refine ⟨List.nodup_cons.mpr ⟨fun mem => ?_, added_nodup⟩, fun e mem => ?_⟩
        · obtain ⟨e, e_mem, e_key⟩ := List.mem_map.mp mem
          rcases mem_addPlan e_mem with rfl | old
          · exact same e_key.symm
          · exact nodup.1 (List.mem_map.mpr ⟨e, old, e_key⟩)
        · rcases List.mem_cons.mp mem with rfl | tail
          · exact value_pos
          · exact added_values e tail
where
  mem_addPlan {planMap : List (UInt64 × ℤ)} {epoch : UInt64} {amount : ℤ} {e : UInt64 × ℤ}
      (mem : e ∈ Restricting.addPlan planMap epoch amount) :
      e.1 = epoch ∨ e ∈ planMap := by
    induction planMap with
    | nil => simp_all [Restricting.addPlan]
    | cons entry rest ih =>
        unfold Restricting.addPlan at mem
        split_ifs at mem with same
        · rcases List.mem_cons.mp mem with rfl | tail
          · exact .inl same
          · exact .inr (List.mem_cons_of_mem _ tail)
        · rcases List.mem_cons.mp mem with rfl | tail
          · exact .inr List.mem_cons_self
          · exact (ih tail).imp_right (List.mem_cons_of_mem _)

theorem mergeAmountLoop_planMap {latestEpoch : UInt64} {minimumAmount : ℤ} :
    ∀ {totalAmount : ℤ} {planMap : List (UInt64 × ℤ)} {plans : List RestrictingPlan}
      {result : ℤ × List (UInt64 × ℤ)}, PlanMap planMap →
      mergeAmountLoop latestEpoch minimumAmount totalAmount planMap plans = .ok result →
      PlanMap result.2
  | _, _, [], _, plan, success => by
      simp only [mergeAmountLoop, Except.ok.injEq] at success
      exact success ▸ plan
  | _, _, _ :: _, _, plan, success => by
      unfold mergeAmountLoop at success
      split_ifs at success with zero nonpositive small
      exact mergeAmountLoop_planMap (plan.addPlan (by omega)) success

theorem mergeAmount_planMap {blocksEachEpoch blockNum : UInt64}
    {minimumAmount : Except RestrictingError ℤ} {plans : List RestrictingPlan}
    {totalAmount : ℤ} {planMap : List (UInt64 × ℤ)}
    (success : mergeAmount blocksEachEpoch blockNum minimumAmount plans =
      .ok (totalAmount, planMap)) : PlanMap planMap := by
  unfold mergeAmount at success
  cases minimumAmount with
  | error failure => cases success
  | ok minimum => exact mergeAmountLoop_planMap ⟨by simp, by simp⟩ success

theorem initEpochInfo_room {state : RestrictingState} {epoch other : UInt64} {account : Address}
    {amount : ℤ} (ne : other ≠ epoch) (room : Room state other) :
    Room (initEpochInfo state epoch account amount) other := by
  rwa [Room, initEpochInfo_releaseEpochNumber, if_neg ne]

/-- Scheduling a new record: every due release stays due and each epoch of the plan map becomes
due for the account. -/
theorem foldl_initEpochInfo_due (account : Address) :
    ∀ (planMap : List (UInt64 × ℤ)) (state : RestrictingState), PlanMap planMap →
      (∀ entry ∈ planMap, Room state entry.1) →
      let scheduled :=
        planMap.foldl (fun current entry => initEpochInfo current entry.1 account entry.2) state
      (∀ epoch holder, DueAt state epoch holder → DueAt scheduled epoch holder) ∧
        ∀ entry ∈ planMap, DueAt scheduled entry.1 account
  | [], _, _, _ => ⟨fun _ _ => id, by simp⟩
  | (epoch, amount) :: rest, state, ⟨nodup, values⟩, rooms => by
      rw [List.map_cons, List.nodup_cons] at nodup
      have positive : 0 < amount := values (epoch, amount) List.mem_cons_self
      have room : Room state epoch := rooms (epoch, amount) List.mem_cons_self
      obtain ⟨keeps, rest_due⟩ := foldl_initEpochInfo_due account rest
        (initEpochInfo state epoch account amount)
        ⟨nodup.2, fun e mem => values e (List.mem_cons_of_mem _ mem)⟩
        (fun e mem => initEpochInfo_room (fun same => nodup.1 (List.mem_map.mpr ⟨e, mem, same⟩))
          (rooms e (List.mem_cons_of_mem _ mem)))
      refine ⟨fun other holder due => keeps other holder (due.initEpochInfo room positive),
        fun e mem => ?_⟩
      rcases List.mem_cons.mp mem with rfl | tail
      · exact keeps _ _ (dueAt_initEpochInfo room positive)
      · exact rest_due e tail

theorem DueAt.raise {state : RestrictingState} {epoch other : UInt64} {account holder : Address}
    {amount : ℕ} (positive : 0 < amount) (due : DueAt state other holder) :
    DueAt { state with
      releaseAmount := Function.update state.releaseAmount (epoch, account) amount }
      other holder := by
  obtain ⟨paid, listed⟩ := due
  refine ⟨?_, listed⟩
  dsimp only
  rw [Function.update_apply]
  split_ifs
  · exact positive
  · exact paid

/-- Scheduling an existing record: every due release stays due, and the record's epochs, old and
new, are due without repetition. -/
theorem foldl_scheduleRelease_due (account : Address) :
    ∀ (planMap : List (UInt64 × ℤ)) (current : RestrictingState × RestrictingInfo),
      PlanMap planMap → (∀ entry ∈ planMap, Room current.1 entry.1) →
      Due current.1 account current.2 → current.2.releaseList.Nodup →
      let scheduled := planMap.foldl (scheduleRelease account) current
      (∀ epoch holder, DueAt current.1 epoch holder → DueAt scheduled.1 epoch holder) ∧
        Due scheduled.1 account scheduled.2 ∧ scheduled.2.releaseList.Nodup
  | [], _, _, _, due, nodup => ⟨fun _ _ => id, due, nodup⟩
  | (epoch, amount) :: rest, (state, info), ⟨keys, values⟩, rooms, due, nodup => by
      dsimp only at rooms due nodup
      rw [List.map_cons, List.nodup_cons] at keys
      have positive : 0 < amount := values (epoch, amount) List.mem_cons_self
      have room : Room state epoch := rooms (epoch, amount) List.mem_cons_self
      have rest_plan : PlanMap rest := ⟨keys.2, fun e mem => values e (List.mem_cons_of_mem _ mem)⟩
      have fresh_key : ∀ e ∈ rest, e.1 ≠ epoch :=
        fun e mem same => keys.1 (List.mem_map.mpr ⟨e, mem, same⟩)
      simp only [List.foldl_cons]
      by_cases unscheduled : state.releaseAmount (epoch, account) = 0
      · have step : scheduleRelease account (state, info) (epoch, amount) =
            (initEpochInfo state epoch account amount,
              { info with releaseList := info.releaseList ++ [epoch] }) := by
          simp [scheduleRelease, unscheduled]
        rw [step]
        have absent : epoch ∉ info.releaseList := fun mem => by
          have := (due epoch mem).1
          omega
        obtain ⟨keeps, rest_due, rest_nodup⟩ := foldl_scheduleRelease_due account rest
          (initEpochInfo state epoch account amount,
            { info with releaseList := info.releaseList ++ [epoch] }) rest_plan
          (fun e mem => initEpochInfo_room (fresh_key e mem) (rooms e (List.mem_cons_of_mem _ mem)))
          (fun e mem => by
            rcases List.mem_append.mp mem with old | new
            · exact (due e old).initEpochInfo room positive
            · rw [List.mem_singleton.mp new]
              exact dueAt_initEpochInfo room positive)
          (nodup.append (List.nodup_singleton epoch) (by simpa using absent))
        exact ⟨fun e holder due => keeps e holder (due.initEpochInfo room positive), rest_due,
          rest_nodup⟩
      · have step : scheduleRelease account (state, info) (epoch, amount) =
            ({ state with releaseAmount := (Function.update state.releaseAmount (epoch, account)
                ((state.releaseAmount (epoch, account) : ℤ) + amount).natAbs) }, info) := by
          simp [scheduleRelease, unscheduled]
        rw [step]
        have grown : 0 < ((state.releaseAmount (epoch, account) : ℤ) + amount).natAbs :=
          Int.natAbs_pos.mpr (by omega)
        obtain ⟨keeps, rest_due, rest_nodup⟩ := foldl_scheduleRelease_due account rest
          ({ state with releaseAmount := (Function.update state.releaseAmount (epoch, account)
              ((state.releaseAmount (epoch, account) : ℤ) + amount).natAbs) }, info) rest_plan
          (fun e mem => rooms e (List.mem_cons_of_mem _ mem))
          (fun e mem => (due e mem).raise grown) nodup
        exact ⟨fun e holder due => keeps e holder (due.raise grown), rest_due, rest_nodup⟩

@[simp]
theorem payNeedRelease_restrictingInfo (state : RestrictingState) (account : Address)
    (info : RestrictingInfo) (totalAmount : ℤ) :
    (payNeedRelease state account info totalAmount).1.restrictingInfo = state.restrictingInfo := by
  unfold payNeedRelease
  split_ifs <;> rfl

@[simp]
theorem payNeedRelease_releaseEpochNumber (state : RestrictingState) (account : Address)
    (info : RestrictingInfo) (totalAmount : ℤ) :
    (payNeedRelease state account info totalAmount).1.releaseEpochNumber =
      state.releaseEpochNumber := by
  unfold payNeedRelease
  split_ifs <;> rfl

@[simp]
theorem payNeedRelease_releaseList (state : RestrictingState) (account : Address)
    (info : RestrictingInfo) (totalAmount : ℤ) :
    (payNeedRelease state account info totalAmount).2.releaseList = info.releaseList := by
  unfold payNeedRelease
  split_ifs <;> rfl

theorem DueAt.payNeedRelease {state : RestrictingState} {epoch : UInt64} {holder : Address}
    (due : DueAt state epoch holder) (account : Address) (info : RestrictingInfo)
    (totalAmount : ℤ) :
    DueAt (Restricting.payNeedRelease state account info totalAmount).1 epoch holder := by
  unfold Restricting.payNeedRelease
  split_ifs <;> exact due

theorem sortReleaseList_perm (epochs : List UInt64) : (sortReleaseList epochs).Perm epochs :=
  List.mergeSort_perm _ _

theorem addRestrictingRecord_scheduled {blocksEachEpoch : UInt64} {state next : RestrictingState}
    {sender account : Address} {blockNum : UInt64} {minimumAmount : Except RestrictingError ℤ}
    {plans : List RestrictingPlan} {txhash : Hash} (scheduled : Scheduled state)
    (room : ∀ epoch, Room state epoch)
    (success : addRestrictingRecord blocksEachEpoch state sender account blockNum minimumAmount
      plans txhash = .ok next) : Scheduled next := by
  unfold addRestrictingRecord at success
  by_cases count : plans.length = 0 ∨ restrictTxPlanSize < plans.length
  · rw [if_pos count] at success
    cases success
  rw [if_neg count] at success
  cases merged : mergeAmount blocksEachEpoch blockNum minimumAmount plans with
  | error failure => simp [merged] at success
  | ok result =>
      obtain ⟨totalAmount, planMap⟩ := result
      have total_nonneg : 0 ≤ totalAmount := mergeAmount_total_nonneg merged
      have plan := mergeAmount_planMap merged
      simp only [merged] at success
      by_cases poor : state.balance sender < totalAmount
      · simp [poor] at success
      simp only [poor, if_false] at success
      by_cases unsent : txhash = zeroHash
      · simp only [unsent, if_true, Except.ok.injEq] at success
        exact success ▸ scheduled
      simp only [unsent, if_false, transferAmount_restrictingInfo] at success
      have funded := scheduled.transferAmount sender restrictingContractAddr totalAmount
      have mid_room : ∀ epoch,
          Room (state.transferAmount sender restrictingContractAddr totalAmount) epoch := room
      have mid_records :
          (state.transferAmount sender restrictingContractAddr totalAmount).restrictingInfo =
            state.restrictingInfo := rfl
      generalize state.transferAmount sender restrictingContractAddr totalAmount = mid
        at success funded mid_room mid_records
      cases found : state.restrictingInfo account with
      | none =>
          simp only [found] at success
          obtain ⟨-, rfl⟩ := storeRestrictingInfo_eq_ok.mp success
          obtain ⟨keeps, new_due⟩ := foldl_initEpochInfo_due account planMap mid plan
            (fun entry _ => mid_room entry.1)
          refine (funded.of_dueAt (foldl_initEpochInfo_frame account planMap mid).2.1 keeps).update
            account _ fun stored same => ?_
          cases same
          refine ⟨⟨⟨le_rfl, le_rfl, total_nonneg⟩, fun owing => absurd owing (lt_irrefl 0),
            (sortReleaseList_perm _).nodup_iff.mpr plan.1⟩, fun epoch mem => ?_⟩
          obtain ⟨entry, entry_mem, rfl⟩ :=
            List.mem_map.mp ((sortReleaseList_perm _).mem_iff.mp mem)
          exact new_due entry entry_mem
      | some info =>
          simp only [found] at success
          rw [← mid_records] at found
          have sound := funded.sound account info found
          obtain ⟨keeps, due, nodup⟩ := foldl_scheduleRelease_due account planMap
            (payNeedRelease mid account info totalAmount) plan
            (fun entry _ => by simpa [Room] using mid_room entry.1)
            (fun epoch mem => (funded.due account info found epoch (by simpa using mem)).payNeedRelease
              account info totalAmount)
            (by simpa using sound.releaseList_nodup)
          obtain ⟨-, records, -, debt, lent, cache⟩ :=
            foldl_scheduleRelease_frame account planMap (payNeedRelease mid account info totalAmount)
          have settled := sound.payNeedRelease mid account total_nonneg
          obtain ⟨-, rfl⟩ := storeRestrictingInfo_eq_ok.mp success
          refine (funded.of_dueAt (by simp [records]) fun epoch holder was =>
            keeps epoch holder (was.payNeedRelease account info totalAmount)).update
            account _ fun stored same => ?_
          cases same
          refine ⟨⟨⟨?_, ?_, ?_⟩, fun owing => ?_, (sortReleaseList_perm _).nodup_iff.mpr nodup⟩,
            fun epoch mem => due epoch ((sortReleaseList_perm _).mem_iff.mp mem)⟩
          · simpa [debt] using settled.needRelease_nonneg
          · simpa [lent] using settled.advanceAmount_nonneg
          · simpa [lent, cache] using settled.advance_le_cache
          · simp only [debt, lent, cache] at owing ⊢
            exact settled.owing_lent owing

/-! ## Counters -/

/-- A step adds at most one place to each epoch's index. -/
def Grows (state next : RestrictingState) : Prop :=
  ∀ epoch, (next.releaseEpochNumber epoch).toNat ≤ (state.releaseEpochNumber epoch).toNat + 1

theorem Grows.of_eq {state next : RestrictingState}
    (same : next.releaseEpochNumber = state.releaseEpochNumber) : Grows state next :=
  fun epoch => by rw [same]; omega

theorem storeRestrictingInfo_releaseEpochNumber {state next : RestrictingState} {account : Address}
    {info : RestrictingInfo} (success : state.storeRestrictingInfo account info = .ok next) :
    next.releaseEpochNumber = state.releaseEpochNumber := by
  obtain ⟨-, rfl⟩ := storeRestrictingInfo_eq_ok.mp success
  rfl

theorem storeOrClear_releaseEpochNumber {state next : RestrictingState} {account : Address}
    {info : RestrictingInfo} {clear : Bool} (success : storeOrClear state account info clear = .ok next) :
    next.releaseEpochNumber = state.releaseEpochNumber := by
  rw [storeOrClear_eq_ok success]

theorem advanceLockedFunds_grows {state next : RestrictingState} {account : Address} {amount : ℤ}
    (success : advanceLockedFunds state account amount = .ok next) : Grows state next := by
  unfold advanceLockedFunds at success
  cases found : state.restrictingInfo account with
  | none => simp [mustGetRestrictingInfo, found] at success
  | some info =>
      simp only [mustGetRestrictingInfo, found] at success
      split_ifs at success
      · cases success
        exact Grows.of_eq rfl
      cases stored : state.storeRestrictingInfo account
          { info with advanceAmount := info.advanceAmount + amount } with
      | error failure => simp [stored] at success
      | ok written =>
          simp only [stored, Except.ok.injEq] at success
          subst success
          have same := storeRestrictingInfo_releaseEpochNumber stored
          exact Grows.of_eq same

theorem mixAdvanceLockedFunds_grows {state next : RestrictingState} {account : Address}
    {amount forRestricting forFree : ℤ}
    (success : mixAdvanceLockedFunds state account amount = .ok (next, forRestricting, forFree)) :
    Grows state next := by
  unfold mixAdvanceLockedFunds at success
  cases found : state.restrictingInfo account with
  | none =>
      simp only [mustGetRestrictingInfo, found] at success
      split_ifs at success
      cases success
      exact Grows.of_eq rfl
  | some info =>
      simp only [mustGetRestrictingInfo, found] at success
      split_ifs at success
      · cases success
        exact Grows.of_eq rfl
      all_goals
        split at success
        · cases success
        · rename_i written stored
          simp only [Except.ok.injEq, Prod.mk.injEq] at success
          obtain ⟨rfl, -, -⟩ := success
          have same := storeRestrictingInfo_releaseEpochNumber stored
          exact Grows.of_eq same

theorem slashingNotify_grows {state next : RestrictingState} {account : Address} {amount : ℤ}
    (success : slashingNotify state account amount = .ok next) : Grows state next := by
  unfold slashingNotify at success
  cases found : state.restrictingInfo account with
  | none => simp [mustGetRestrictingInfo, found] at success
  | some info =>
      simp only [mustGetRestrictingInfo, found] at success
      split_ifs at success
      · cases success
        exact Grows.of_eq rfl
      · exact Grows.of_eq (storeOrClear_releaseEpochNumber success)

theorem returnLockFunds_grows {state next : RestrictingState} {account : Address} {amount : ℤ}
    (success : returnLockFunds state account amount = .ok next) : Grows state next := by
  unfold returnLockFunds at success
  split_ifs at success
  · cases success
    exact Grows.of_eq rfl
  cases found : state.restrictingInfo account with
  | none => simp [mustGetRestrictingInfo, found] at success
  | some info =>
      simp only [mustGetRestrictingInfo, found] at success
      split_ifs at success
      have same := storeOrClear_releaseEpochNumber success
      exact Grows.of_eq same

theorem releaseGenesisRestrictingPlans_grows {state next : RestrictingState}
    (success : releaseGenesisRestrictingPlans state = .ok next) : Grows state next := by
  unfold releaseGenesisRestrictingPlans at success
  split at success <;> cases success <;> exact Grows.of_eq rfl

theorem releaseAt_releaseEpochNumber {state next : RestrictingState} {epoch : UInt64}
    {index : UInt32} (success : releaseAt epoch state index = .ok next) :
    next.releaseEpochNumber = state.releaseEpochNumber := by
  unfold releaseAt at success
  generalize state.releaseAccount (epoch, index) = account at success
  cases found : state.restrictingInfo account with
  | none =>
      simp only [mustGetRestrictingInfo, found, Except.ok.injEq] at success
      rw [← success]
  | some info =>
      simp only [mustGetRestrictingInfo, found] at success
      rw [storeOrClear_releaseEpochNumber success]
      rfl

theorem releaseLoop_releaseEpochNumber {epoch : UInt64} (count : ℕ) {state next : RestrictingState}
    (success : releaseLoop epoch count state = .ok next) :
    next.releaseEpochNumber = state.releaseEpochNumber := by
  induction count generalizing state with
  | zero =>
      simp only [releaseLoop, Except.ok.injEq] at success
      rw [success]
  | succ count ih =>
      rw [releaseLoop] at success
      cases released : releaseAt epoch state (UInt32.ofNat (count + 1)) with
      | error failure => rw [released] at success; cases success
      | ok mid =>
          rw [released] at success
          rw [ih success, releaseAt_releaseEpochNumber released]

theorem releaseRestricting_grows {state next : RestrictingState} {epoch : UInt64}
    (success : releaseRestricting state epoch = .ok next) : Grows state next := by
  dsimp only [releaseRestricting] at success
  split_ifs at success
  · cases success
    exact Grows.of_eq rfl
  cases looped : releaseLoop epoch (state.releaseEpochNumber epoch).toNat state with
  | error failure => simp [looped] at success
  | ok mid =>
      simp only [looped, Except.ok.injEq] at success
      subst success
      intro other
      simp only [Function.update_apply, releaseLoop_releaseEpochNumber _ looped]
      split_ifs <;> simp

theorem foldl_initEpochInfo_releaseEpochNumber (account : Address) (epoch : UInt64) :
    ∀ (planMap : List (UInt64 × ℤ)) (state : RestrictingState), epoch ∉ planMap.map Prod.fst →
      (planMap.foldl (fun current entry => initEpochInfo current entry.1 account entry.2)
        state).releaseEpochNumber epoch = state.releaseEpochNumber epoch
  | [], _, _ => rfl
  | (key, amount) :: rest, state, absent => by
      rw [List.map_cons, List.mem_cons, not_or] at absent
      rw [List.foldl_cons, foldl_initEpochInfo_releaseEpochNumber account epoch rest _ absent.2,
        initEpochInfo_releaseEpochNumber, if_neg absent.1]

theorem foldl_initEpochInfo_grows (account : Address) :
    ∀ (planMap : List (UInt64 × ℤ)) (state : RestrictingState), (planMap.map Prod.fst).Nodup →
      (∀ entry ∈ planMap, Room state entry.1) →
      Grows state
        (planMap.foldl (fun current entry => initEpochInfo current entry.1 account entry.2) state)
  | [], _, _, _ => Grows.of_eq rfl
  | (key, amount) :: rest, state, nodup, rooms => by
      rw [List.map_cons, List.nodup_cons] at nodup
      have room : Room state key := rooms (key, amount) List.mem_cons_self
      intro epoch
      rw [List.foldl_cons]
      by_cases same : epoch = key
      · subst same
        rw [foldl_initEpochInfo_releaseEpochNumber account epoch rest _ nodup.1,
          initEpochInfo_releaseEpochNumber, if_pos rfl, room.toNat_add_one]
      · have rest_grows := foldl_initEpochInfo_grows account rest
          (initEpochInfo state key account amount) nodup.2
          (fun e mem => initEpochInfo_room (fun eq => nodup.1 (List.mem_map.mpr ⟨e, mem, eq⟩))
            (rooms e (List.mem_cons_of_mem _ mem))) epoch
        rwa [initEpochInfo_releaseEpochNumber, if_neg same] at rest_grows

theorem scheduleRelease_releaseEpochNumber (account : Address)
    (current : RestrictingState × RestrictingInfo) (entry : UInt64 × ℤ) (epoch : UInt64) :
    (scheduleRelease account current entry).1.releaseEpochNumber epoch =
      if epoch = entry.1 ∧ current.1.releaseAmount (entry.1, account) = 0 then
        current.1.releaseEpochNumber entry.1 + 1
      else current.1.releaseEpochNumber epoch := by
  obtain ⟨state, info⟩ := current
  obtain ⟨key, amount⟩ := entry
  by_cases unscheduled : state.releaseAmount (key, account) = 0
  · simp [scheduleRelease, unscheduled, initEpochInfo_releaseEpochNumber]
  · simp [scheduleRelease, unscheduled]

theorem foldl_scheduleRelease_releaseEpochNumber (account : Address) (epoch : UInt64) :
    ∀ (planMap : List (UInt64 × ℤ)) (current : RestrictingState × RestrictingInfo),
      epoch ∉ planMap.map Prod.fst →
      (planMap.foldl (scheduleRelease account) current).1.releaseEpochNumber epoch =
        current.1.releaseEpochNumber epoch
  | [], _, _ => rfl
  | entry :: rest, current, absent => by
      rw [List.map_cons, List.mem_cons, not_or] at absent
      rw [List.foldl_cons, foldl_scheduleRelease_releaseEpochNumber account epoch rest _ absent.2,
        scheduleRelease_releaseEpochNumber, if_neg fun both => absent.1 both.1]

theorem foldl_scheduleRelease_grows (account : Address) :
    ∀ (planMap : List (UInt64 × ℤ)) (current : RestrictingState × RestrictingInfo),
      (planMap.map Prod.fst).Nodup → (∀ entry ∈ planMap, Room current.1 entry.1) →
      Grows current.1 (planMap.foldl (scheduleRelease account) current).1
  | [], _, _, _ => Grows.of_eq rfl
  | entry :: rest, current, nodup, rooms => by
      rw [List.map_cons, List.nodup_cons] at nodup
      have room : Room current.1 entry.1 := rooms entry List.mem_cons_self
      intro epoch
      rw [List.foldl_cons]
      by_cases same : epoch = entry.1
      · subst same
        rw [foldl_scheduleRelease_releaseEpochNumber account _ rest _ nodup.1,
          scheduleRelease_releaseEpochNumber]
        split_ifs
        · rw [room.toNat_add_one]
        · omega
      · have rest_grows := foldl_scheduleRelease_grows account rest
          (scheduleRelease account current entry) nodup.2
          (fun e mem => by
            have := rooms e (List.mem_cons_of_mem _ mem)
            unfold Room at this ⊢
            rwa [scheduleRelease_releaseEpochNumber,
              if_neg fun both => nodup.1 (List.mem_map.mpr ⟨e, mem, both.1⟩)]) epoch
        rwa [scheduleRelease_releaseEpochNumber, if_neg fun both => same both.1] at rest_grows

theorem addRestrictingRecord_grows {blocksEachEpoch : UInt64} {state next : RestrictingState}
    {sender account : Address} {blockNum : UInt64} {minimumAmount : Except RestrictingError ℤ}
    {plans : List RestrictingPlan} {txhash : Hash} (room : ∀ epoch, Room state epoch)
    (success : addRestrictingRecord blocksEachEpoch state sender account blockNum minimumAmount
      plans txhash = .ok next) : Grows state next := by
  unfold addRestrictingRecord at success
  by_cases count : plans.length = 0 ∨ restrictTxPlanSize < plans.length
  · rw [if_pos count] at success
    cases success
  rw [if_neg count] at success
  cases merged : mergeAmount blocksEachEpoch blockNum minimumAmount plans with
  | error failure => simp [merged] at success
  | ok result =>
      obtain ⟨totalAmount, planMap⟩ := result
      have plan := mergeAmount_planMap merged
      simp only [merged] at success
      by_cases poor : state.balance sender < totalAmount
      · simp [poor] at success
      simp only [poor, if_false] at success
      by_cases unsent : txhash = zeroHash
      · simp only [unsent, if_true, Except.ok.injEq] at success
        exact success ▸ Grows.of_eq rfl
      simp only [unsent, if_false, transferAmount_restrictingInfo] at success
      cases found : state.restrictingInfo account with
      | none =>
          simp only [found] at success
          have same := storeRestrictingInfo_releaseEpochNumber success
          intro epoch
          rw [same]
          simpa using foldl_initEpochInfo_grows account planMap
            (state.transferAmount sender restrictingContractAddr totalAmount) plan.1
            (fun entry _ => by simpa [Room] using room entry.1) epoch
      | some info =>
          simp only [found] at success
          have same := storeRestrictingInfo_releaseEpochNumber success
          intro epoch
          rw [same]
          have settled := foldl_scheduleRelease_grows account planMap
            (payNeedRelease (state.transferAmount sender restrictingContractAddr totalAmount)
              account info totalAmount) plan.1
            (fun entry _ => by simpa [Room] using room entry.1) epoch
          simpa using settled

/-! ## Runs -/

/-- The step lemma: with a place left in every counter, an operation keeps the invariant and adds
at most one place to each counter. -/
theorem RestrictingOp.step_scheduled (blocksEachEpoch : UInt64) (op : RestrictingOp)
    {state next : RestrictingState} (room : ∀ epoch, Room state epoch)
    (scheduled : Scheduled state) (success : op.step blocksEachEpoch state = .ok next) :
    Scheduled next ∧ Grows state next := by
  cases op with
  | addRestrictingRecord sender account blockNum minimumAmount plans txhash =>
      exact ⟨addRestrictingRecord_scheduled scheduled room success,
        addRestrictingRecord_grows room success⟩
  | advanceLockedFunds account amount =>
      exact ⟨advanceLockedFunds_scheduled scheduled success, advanceLockedFunds_grows success⟩
  | mixAdvanceLockedFunds account amount =>
      obtain ⟨⟨mid, forRestricting, forFree⟩, mixed, rfl⟩ := Rollback.map_eq_ok.mp success
      exact ⟨mixAdvanceLockedFunds_scheduled scheduled mixed, mixAdvanceLockedFunds_grows mixed⟩
  | returnLockFunds account amount =>
      exact ⟨returnLockFunds_scheduled scheduled success, returnLockFunds_grows success⟩
  | slashingNotify account amount =>
      exact ⟨slashingNotify_scheduled scheduled success, slashingNotify_grows success⟩
  | releaseRestricting epoch =>
      exact ⟨releaseRestricting_scheduled scheduled success, releaseRestricting_grows success⟩
  | releaseGenesisRestrictingPlans =>
      exact ⟨releaseGenesisRestrictingPlans_scheduled scheduled success,
        releaseGenesisRestrictingPlans_grows success⟩

/-- The release schedule over runs: from a state that keeps the invariant, every run of the
restricting operations, failed ones rolled back, keeps it, as long as each epoch's counter has a
place left for every operation of the run. -/
theorem restricting_records_scheduled (blocksEachEpoch : UInt64) (ops : List RestrictingOp)
    {state : RestrictingState} (scheduled : Scheduled state)
    (room : ∀ epoch, (state.releaseEpochNumber epoch).toNat + ops.length < 2 ^ 32) :
    Scheduled (Rollback.run (RestrictingOp.step blocksEachEpoch) ops state) := by
  induction ops generalizing state with
  | nil => exact scheduled
  | cons op ops ih =>
      have place : ∀ epoch, Room state epoch := fun epoch => by
        have := room epoch
        simp only [List.length_cons] at this
        unfold Room
        omega
      rw [Rollback.run_cons]
      cases stepped : op.step blocksEachEpoch state with
      | error failure =>
          rw [Rollback.commit_of_error stepped]
          exact ih scheduled fun epoch => by
            have := room epoch
            simp only [List.length_cons] at this
            omega
      | ok next =>
          rw [Rollback.commit_of_ok stepped]
          obtain ⟨kept, grows⟩ :=
            RestrictingOp.step_scheduled blocksEachEpoch op place scheduled stepped
          exact ih kept fun epoch => by
            have := room epoch
            have := grows epoch
            simp only [List.length_cons] at *
            omega

theorem scheduled_fresh (balance : Address → ℤ) : Scheduled (RestrictingState.fresh balance) :=
  ⟨fun _ _ found => (by cases found), fun _ _ found => (by cases found)⟩

theorem restricting_records_scheduled_on_sample :
    Scheduled (Rollback.run (RestrictingOp.step 250)
      [.addRestrictingRecord sampleSender sampleAccount 1 (.ok 1) [⟨1, 10⟩, ⟨2, 5⟩] 1#256,
        .advanceLockedFunds sampleAccount 12, .releaseRestricting 1,
        .slashingNotify sampleAccount 2, .returnLockFunds sampleAccount 10,
        .mixAdvanceLockedFunds sampleAccount 4]
      (RestrictingState.fresh (Function.update 0 sampleSender 100))) :=
  restricting_records_scheduled 250 _ (scheduled_fresh _) fun _ => by simp [RestrictingState.fresh]

/-! ## A full counter -/

/-- `xcom.FloorMinimumRelease`: 100 BUB, the lowest minimum release the economic model admits. -/
def floorMinimumRelease : ℤ := 100 * 10 ^ 18

/-- The account of the `i`-th plan of `fillEpoch`. -/
def planAccount (i : ℕ) : Address := BitVec.ofNat 160 (2 ^ 40 + i)

/-- One plan of `floorMinimumRelease`, the minimum release, for each of `count` accounts, all
released at the first epoch. -/
def fillEpoch (count : ℕ) : List RestrictingOp :=
  (List.range count).map fun i =>
    .addRestrictingRecord sampleSender (planAccount i) 1 (.ok floorMinimumRelease)
      [⟨1, floorMinimumRelease⟩] 1#256

/-- A chain where the plan creator holds the funds of `2 ^ 32` plans. -/
def fillStart : RestrictingState :=
  RestrictingState.fresh (Function.update 0 sampleSender (2 ^ 32 * floorMinimumRelease))

/-- The record each plan of `fillEpoch` writes. -/
def unitRecord : RestrictingInfo := ⟨0, 0, floorMinimumRelease, [1]⟩

theorem planAccount_injective {i j : ℕ} (hi : i < 2 ^ 32) (hj : j < 2 ^ 32)
    (same : planAccount i = planAccount j) : i = j := by
  have := congrArg BitVec.toNat same
  simp only [planAccount, BitVec.toNat_ofNat] at this
  rw [Nat.mod_eq_of_lt (by omega), Nat.mod_eq_of_lt (by omega)] at this
  omega

theorem addRestrictingRecord_unit {state : RestrictingState} {account : Address}
    (funded : floorMinimumRelease ≤ state.balance sampleSender)
    (absent : state.restrictingInfo account = none) :
    addRestrictingRecord 250 state sampleSender account 1 (.ok floorMinimumRelease)
        [⟨1, floorMinimumRelease⟩] 1#256 =
      .ok { initEpochInfo (state.transferAmount sampleSender restrictingContractAddr
          floorMinimumRelease) 1 account floorMinimumRelease
        with restrictingInfo := Function.update state.restrictingInfo account (some unitRecord) } := by
  have merged : mergeAmount 250 1 (.ok floorMinimumRelease) [⟨1, floorMinimumRelease⟩] =
      .ok (floorMinimumRelease, [(1, floorMinimumRelease)]) := by decide
  have sent : ¬ (1#256 : Hash) = zeroHash := (by decide : ¬ (1#256 : BitVec 256) = 0#256)
  have positive : ¬ floorMinimumRelease < 0 := by decide
  unfold addRestrictingRecord
  simp [merged, not_lt.mpr funded, absent, restrictTxPlanSize, storeRestrictingInfo,
    sortReleaseList, unitRecord, positive]
  exact fun zero => absurd zero sent

/-- After `count` unit plans the counter of epoch `1` is `count` modulo `2 ^ 32`. -/
theorem fillEpoch_run (count : ℕ) (fits : count ≤ 2 ^ 32) :
    let state := Rollback.run (RestrictingOp.step 250) (fillEpoch count) fillStart
    state.releaseEpochNumber 1 = UInt32.ofNat count ∧
      state.balance sampleSender = (2 ^ 32 - count) * floorMinimumRelease ∧
      ∀ i < 2 ^ 32, state.restrictingInfo (planAccount i) =
        if i < count then some unitRecord else none := by
  induction count with
  | zero =>
      exact ⟨rfl, by simp [fillEpoch, fillStart, RestrictingState.fresh],
        fun i _ => by simp [fillEpoch, fillStart, RestrictingState.fresh]⟩
  | succ count ih =>
      obtain ⟨counter, balance, records⟩ := ih (by omega)
      intro state
      have absent := records count (by omega)
      rw [if_neg (lt_irrefl count)] at absent
      have funded : floorMinimumRelease ≤ (Rollback.run (RestrictingOp.step 250) (fillEpoch count)
          fillStart).balance sampleSender := by
        rw [balance, floorMinimumRelease]
        omega
      have step := addRestrictingRecord_unit funded absent
      simp only [state, fillEpoch, List.range_succ, List.map_append, List.map_cons, List.map_nil,
        Rollback.run_append, Rollback.run_cons, Rollback.run_nil]
      rw [Rollback.commit_of_ok step]
      refine ⟨?_, ?_, fun i hi => ?_⟩
      · simp [initEpochInfo, counter]
      · simp [initEpochInfo, RestrictingState.transferAmount, Ledger.transfer_src (by decide :
          sampleSender ≠ restrictingContractAddr), balance]
        ring
      · simp only [Function.update_apply, records i hi]
        by_cases same : i = count
        · subst same
          simp
        · have : planAccount i ≠ planAccount count := fun eq =>
            same (planAccount_injective hi (by omega) eq)
          have below : i < count + 1 ↔ i < count := by omega
          simp only [this, if_false, below]

/-- The counter of an epoch is a `uint32`: the `2 ^ 32`-th account scheduled at one epoch wraps it
to `0`, and the index then lists none of the records that hold the epoch. -/
theorem release_index_wraps :
    Scheduled fillStart ∧
      ¬ Scheduled (Rollback.run (RestrictingOp.step 250) (fillEpoch (2 ^ 32)) fillStart) := by
  refine ⟨scheduled_fresh _, fun scheduled => ?_⟩
  obtain ⟨counter, -, records⟩ := fillEpoch_run (2 ^ 32) le_rfl
  have stored := records 0 (by norm_num)
  rw [if_pos (by norm_num)] at stored
  obtain ⟨-, index, index_pos, index_le, -⟩ :=
    scheduled.due (planAccount 0) unitRecord stored 1 (by simp [unitRecord])
  rw [counter] at index_le
  simp at index_le
  omega

end Restricting
end Bubble
