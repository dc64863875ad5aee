import Bubble.Staking.Validator
import Bubble.Lib.Sweep

/-!
# Zero-production slashing

`SlashingPlugin.zeroProduceProcess` of `x/plugin/slashing_plugin.go`, run at the election block of
each consensus round for the round before it.  A node that was a validator of that round and
produced no block goes on watch in a `WaitSlashingNode`: `round` is the first round it produced
nothing in, and bit `i` of `countBit` marks round `round + i` as another.  A node on watch that
produces a block leaves the list.  The window of `ZeroProduceCumulativeTime` rounds moves on with
the rounds: bits that fall out of it are shifted away, and the record moves up to its next marked
round.  When the window is full and at least `ZeroProduceNumberThreshold` of its rounds are marked,
`checkSlashing` slashes the node for a low block ratio and it leaves the list.

The loop over the list deletes in place through `delFunc`; `Sweep` says what it computes.  Go's
shifts of `uint64` give zero once the shift reaches the width, which `shiftRight` and `shiftLeft`
model.  What the reads of the chain return (the governed parameters, the blocks produced so far in
the current round, the candidate's balance, the block reward) are parameters of a call.
-/

namespace Bubble
namespace Slashing

open Staking Sweep

variable {ε : Type}

/-- `staking.SlashNodeItem`. -/
structure SlashNodeItem where
  nodeId : NodeID
  amount : ℤ
  slashType : CandidateStatus
  benefitAddr : Address

/-- `WaitSlashingNode`. -/
structure WaitSlashingNode where
  nodeId : NodeID
  /-- The first round of the window in which the node produced no block. -/
  round : UInt64
  /-- Bit `i`: round `round + i` was another such round. -/
  countBit : UInt64
  deriving DecidableEq, Repr, Inhabited

/-- `xcom.MaxZeroProduceCumulativeTime`. -/
def maxZeroProduceCumulativeTime : UInt16 := 50

/-- `xcom.CheckZeroProduceCumulativeTime` passes. -/
def checkZeroProduceCumulativeTime (zeroProduceCumulativeTime zeroProduceNumberThreshold : UInt16) :
    Bool :=
  !(zeroProduceCumulativeTime < zeroProduceNumberThreshold ||
    zeroProduceCumulativeTime > maxZeroProduceCumulativeTime)

/-- `xcom.CheckZeroProduceNumberThreshold` passes. -/
def checkZeroProduceNumberThreshold (zeroProduceCumulativeTime zeroProduceNumberThreshold : UInt16) :
    Bool :=
  !(zeroProduceNumberThreshold < 1 || zeroProduceNumberThreshold > zeroProduceCumulativeTime)

/-- Go's `x >> s` on `uint64`. -/
def shiftRight (x s : UInt64) : UInt64 := if s < 64 then x >>> s else 0

/-- Go's `x << s` on `uint64`. -/
def shiftLeft (x s : UInt64) : UInt64 := if s < 64 then x <<< s else 0

/-- What one call reads from the chain. -/
structure ZeroProduceReads (ε : Type) where
  /-- `xutil.CalculateRound(blockNumber) - 1`. -/
  preRound : UInt64
  /-- `gov.GovernZeroProduceNumberThreshold`. -/
  zeroProduceNumberThreshold : Except ε UInt16
  /-- `gov.GovernZeroProduceCumulativeTime`. -/
  zeroProduceCumulativeTime : Except ε UInt16
  /-- `getPackAmount`: the blocks a node produced so far in the current round. -/
  packAmount : NodeID → Except ε UInt32
  /-- `GetCanMutableByIrr` read through `calcCanTotalBalance`; `none` for `ErrNotFound`. -/
  canTotalBalance : NodeID → Except ε (Option ℤ)
  /-- `gov.GovernSlashBlocksReward`. -/
  slashBlocksReward : Except ε UInt32
  /-- `calcSlashBlockRewards`. -/
  calcSlashBlockRewards : UInt64 → Except ε ℤ

/-! ## Moving the window -/

/-- The loop of `zeroProduceProcess` that moves the record up past rounds with no mark. -/
def dropTrailingZeros : (fuel : ℕ) → WaitSlashingNode → WaitSlashingNode
  | 0, node => node
  | fuel + 1, node =>
    if node.countBit &&& 1 ≠ 0 then node
    else
      let node := { node with countBit := node.countBit >>> 1 }
      if node.countBit = 0 then node
      else dropTrailingZeros fuel { node with round := node.round + 1 }

/-- The window moves on: bits of rounds that fall out of it are shifted away, and the record moves
up to its next marked round. -/
def shiftWindow (zeroProduceCumulativeTime : UInt16) (preRound : UInt64)
    (node : WaitSlashingNode) : WaitSlashingNode :=
  let diff := (preRound - node.round).toUInt16
  if diff ≥ zeroProduceCumulativeTime then
    let moveNumber := (diff + 1) - zeroProduceCumulativeTime
    let node := { node with countBit := shiftRight node.countBit moveNumber.toUInt64 }
    if node.countBit > 0 then
      dropTrailingZeros 64 { node with round := node.round + moveNumber.toUInt64 }
    else node
  else node

/-- The previous round marked: a record with no mark left starts again at it. -/
def markZero (preRound : UInt64) (node : WaitSlashingNode) : WaitSlashingNode :=
  if node.countBit = 0 then { node with round := preRound, countBit := 1 }
  else { node with countBit := node.countBit ||| shiftLeft 1 (preRound - node.round) }

/-- The window of a node on watch moves on to the round `preRound`, which it marks when the node
was a validator of that round and produced nothing. -/
def moveWindow (zeroProduceCumulativeTime : UInt16) (preRound : UInt64) (entry : Option Bool)
    (node : WaitSlashingNode) : WaitSlashingNode :=
  let node := shiftWindow zeroProduceCumulativeTime preRound node
  if entry = some false then markZero preRound node else node

/-! Moving the window keeps the node. -/

@[simp] theorem dropTrailingZeros_nodeId (fuel : ℕ) (node : WaitSlashingNode) :
    (dropTrailingZeros fuel node).nodeId = node.nodeId := by
  induction fuel generalizing node with
  | zero => rfl
  | succ fuel ih =>
    unfold dropTrailingZeros
    dsimp only
    split_ifs <;> simp [ih]

@[simp] theorem shiftWindow_nodeId (w : UInt16) (preRound : UInt64) (node : WaitSlashingNode) :
    (shiftWindow w preRound node).nodeId = node.nodeId := by
  unfold shiftWindow
  dsimp only
  split_ifs <;> simp

@[simp] theorem markZero_nodeId (preRound : UInt64) (node : WaitSlashingNode) :
    (markZero preRound node).nodeId = node.nodeId := by
  unfold markZero
  split_ifs <;> rfl

@[simp] theorem moveWindow_nodeId (w : UInt16) (preRound : UInt64) (entry : Option Bool)
    (node : WaitSlashingNode) : (moveWindow w preRound entry node).nodeId = node.nodeId := by
  unfold moveWindow
  split_ifs <;> simp

/-! ## The window as marks by lag

A record stands for the rounds it marks.  `lag preRound node` is how many rounds before `preRound`
its first round lies, and `MarkedLag preRound node k` says that it marks the round `k` rounds
before `preRound`.  The lemmas below say what the window operations do to those marks.
-/

/-- How many rounds before `preRound` the record's first round lies. -/
def lag (preRound : UInt64) (node : WaitSlashingNode) : ℕ := (preRound - node.round).toNat

/-- The record marks the round `k` rounds before `preRound`. -/
def MarkedLag (preRound : UInt64) (node : WaitSlashingNode) (k : ℕ) : Prop :=
  k ≤ lag preRound node ∧ node.countBit.toNat.testBit (lag preRound node - k)

theorem lag_add_one {preRound : UInt64} {node : WaitSlashingNode}
    (small : lag preRound node + 1 < 2 ^ 64) :
    lag (preRound + 1) node = lag preRound node + 1 := by
  unfold lag at *
  rw [show preRound + 1 - node.round = (preRound - node.round) + 1 by grind, UInt64.toNat_add]
  simpa using small

theorem markedLag_add_one {preRound : UInt64} {node : WaitSlashingNode}
    (small : lag preRound node + 1 < 2 ^ 64) (k : ℕ) :
    MarkedLag (preRound + 1) node (k + 1) ↔ MarkedLag preRound node k := by
  unfold MarkedLag
  rw [lag_add_one small, Nat.add_sub_add_right, Nat.add_le_add_iff_right]

theorem not_markedLag_zero {preRound : UInt64} {node : WaitSlashingNode}
    (bits : node.countBit.toNat < 2 ^ lag preRound node) : ¬ MarkedLag preRound node 0 := by
  rintro ⟨-, marked⟩
  rw [Nat.sub_zero, Nat.testBit_lt_two_pow bits] at marked
  cases marked

/-- `node'` is `node` moved up `s` rounds: bit `i` of `node'` is bit `i + s` of `node`. -/
structure Shifted (node node' : WaitSlashingNode) (s : ℕ) : Prop where
  nodeId : node'.nodeId = node.nodeId
  round : node'.round = node.round + UInt64.ofNat s
  countBit : node'.countBit.toNat = node.countBit.toNat >>> s

theorem Shifted.refl (node : WaitSlashingNode) : Shifted node node 0 :=
  ⟨rfl, by simp, by simp⟩

theorem Shifted.trans {node node' node'' : WaitSlashingNode} {s t : ℕ} (first : Shifted node node' s)
    (second : Shifted node' node'' t) : Shifted node node'' (s + t) where
  nodeId := second.nodeId.trans first.nodeId
  round := by rw [second.round, first.round, UInt64.ofNat_add]; grind
  countBit := by rw [second.countBit, first.countBit, Nat.shiftRight_add]

theorem Shifted.lag_eq {preRound : UInt64} {node node' : WaitSlashingNode} {s : ℕ}
    (shifted : Shifted node node' s) (le : s ≤ lag preRound node) :
    lag preRound node' = lag preRound node - s := by
  unfold lag at *
  have bound := UInt64.toNat_lt (preRound - node.round)
  rw [shifted.round, show preRound - (node.round + UInt64.ofNat s) =
      (preRound - node.round) - UInt64.ofNat s by grind,
    UInt64.toNat_sub_of_le _ _ (UInt64.le_iff_toNat_le.mpr ?_)] <;>
  rw [UInt64.toNat_ofNat', Nat.mod_eq_of_lt (by omega)]
  omega

theorem Shifted.markedLag_iff {preRound : UInt64} {node node' : WaitSlashingNode} {s : ℕ}
    (shifted : Shifted node node' s) (le : s ≤ lag preRound node) (k : ℕ) :
    MarkedLag preRound node' k ↔ MarkedLag preRound node k ∧ k ≤ lag preRound node - s := by
  unfold MarkedLag
  rw [shifted.lag_eq le, shifted.countBit, Nat.testBit_shiftRight]
  constructor
  · rintro ⟨below, marked⟩
    exact ⟨⟨by omega, by rwa [show s + (lag preRound node - s - k) = lag preRound node - k by omega]
      at marked⟩, below⟩
  · rintro ⟨⟨-, marked⟩, below⟩
    exact ⟨below, by rwa [show s + (lag preRound node - s - k) = lag preRound node - k by omega]⟩

theorem Shifted.markedLag_iff_of_clear {preRound : UInt64} {node node' : WaitSlashingNode} {s : ℕ}
    (shifted : Shifted node node' s) (le : s ≤ lag preRound node)
    (clear : ∀ i < s, node.countBit.toNat.testBit i = false) (k : ℕ) :
    MarkedLag preRound node' k ↔ MarkedLag preRound node k := by
  rw [shifted.markedLag_iff le]
  constructor
  · exact And.left
  · rintro ⟨within, set⟩
    refine ⟨⟨within, set⟩, ?_⟩
    by_contra far
    rw [clear _ (by omega)] at set
    cases set

theorem shiftRight_toNat (x s : UInt64) : (shiftRight x s).toNat = x.toNat >>> s.toNat := by
  unfold shiftRight
  split_ifs with small
  · rw [UInt64.toNat_shiftRight, Nat.mod_eq_of_lt (by simpa [UInt64.lt_iff_toNat_lt] using small)]
  · rw [UInt64.toNat_zero, eq_comm, Nat.shiftRight_eq_div_pow, Nat.div_eq_zero_iff_lt (by positivity)]
    calc x.toNat < 2 ^ 64 := x.toNat_lt
      _ ≤ 2 ^ s.toNat :=
        Nat.pow_le_pow_right (by omega) (by simpa [UInt64.lt_iff_toNat_lt] using small)

theorem shiftLeft_one_toNat {s : UInt64} (small : s.toNat < 64) :
    (shiftLeft 1 s).toNat = 2 ^ s.toNat := by
  rw [shiftLeft, if_pos (by simpa [UInt64.lt_iff_toNat_lt] using small), UInt64.toNat_shiftLeft,
    Nat.mod_eq_of_lt small]
  simpa [Nat.one_shiftLeft] using Nat.pow_lt_pow_right (by norm_num) small

theorem and_one_ne_zero_iff (x : UInt64) : x &&& 1 ≠ 0 ↔ x.toNat.testBit 0 := by
  rw [ne_eq, ← UInt64.toNat_inj, UInt64.toNat_and]
  simp [Nat.testBit_zero, Nat.and_one_is_mod]

theorem shiftRight_lt_two_pow {x d s : ℕ} (bits : x < 2 ^ d) (le : s ≤ d) :
    x >>> s < 2 ^ (d - s) := by
  rw [Nat.shiftRight_eq_div_pow, Nat.div_lt_iff_lt_mul (by positivity), ← Nat.pow_add,
    Nat.sub_add_cancel le]
  exact bits

/-- The loop moves the record up to its lowest mark, past clear bits only. -/
theorem dropTrailingZeros_spec : ∀ (fuel : ℕ) (node : WaitSlashingNode), node.countBit ≠ 0 →
    node.countBit.toNat < 2 ^ fuel →
    ∃ s, Shifted node (dropTrailingZeros fuel node) s ∧
      (dropTrailingZeros fuel node).countBit.toNat.testBit 0 ∧
      ∀ i < s, node.countBit.toNat.testBit i = false
  | 0, node, nonzero, bits => by
    rw [pow_zero, Nat.lt_one_iff, ← UInt64.toNat_zero, UInt64.toNat_inj] at bits
    exact absurd bits nonzero
  | fuel + 1, node, nonzero, bits => by
    rw [dropTrailingZeros]
    by_cases low : node.countBit &&& 1 ≠ 0
    · rw [if_pos low]
      exact ⟨0, .refl node, (and_one_ne_zero_iff _).mp low, by omega⟩
    · rw [if_neg low]
      rw [and_one_ne_zero_iff, Bool.not_eq_true] at low
      have rest : node.countBit >>> 1 ≠ 0 := by
        rw [ne_eq, ← UInt64.toNat_inj] at nonzero ⊢
        rw [UInt64.toNat_shiftRight]
        simp only [Nat.testBit_zero, decide_eq_false_iff_not] at low
        simp only [UInt64.toNat_zero, UInt64.reduceToNat, Nat.reduceMod, Nat.shiftRight_one] at *
        omega
      dsimp only
      rw [if_neg rest]
      have rest_bits : (node.countBit >>> 1).toNat < 2 ^ fuel := by
        rw [UInt64.toNat_shiftRight]
        simpa [pow_succ, Nat.shiftRight_eq_div_pow] using Nat.div_lt_of_lt_mul (by omega)
      obtain ⟨s, shifted, first, clear⟩ := dropTrailingZeros_spec fuel
        { node with countBit := node.countBit >>> 1, round := node.round + 1 } rest rest_bits
      have once : Shifted node { node with countBit := node.countBit >>> 1, round := node.round + 1 } 1 :=
        ⟨rfl, rfl, by simp [UInt64.toNat_shiftRight]⟩
      refine ⟨1 + s, once.trans shifted, first, fun i below => ?_⟩
      cases i with
      | zero => exact low
      | succ i =>
        have clear_i := clear i (by omega)
        rwa [UInt64.toNat_shiftRight, show (1 : UInt64).toNat % 64 = 1 from rfl,
          Nat.testBit_shiftRight, Nat.add_comm] at clear_i

/-- What moving the window does to a record with no mark yet for `preRound`: it keeps the marks
of the last `w` rounds and no others, its bits stay below its lag, its first round only moves up,
and a record with a mark left starts at one, within the window. -/
structure WindowMoved (w : ℕ) (preRound : UInt64) (node node' : WaitSlashingNode) : Prop where
  nodeId : node'.nodeId = node.nodeId
  marks : ∀ k, MarkedLag preRound node' k ↔ MarkedLag preRound node k ∧ k < w
  bits : node'.countBit.toNat < 2 ^ lag preRound node'
  lag_le : lag preRound node' ≤ lag preRound node
  first : node'.countBit ≠ 0 → node'.countBit.toNat.testBit 0 ∧ lag preRound node' < w

theorem diff_toNat {preRound : UInt64} {node : WaitSlashingNode}
    (small : lag preRound node + 1 < 2 ^ 16) :
    (preRound - node.round).toUInt16.toNat = lag preRound node := by
  rw [lag] at small ⊢
  rw [UInt64.toNat_toUInt16, Nat.mod_eq_of_lt (by omega)]

theorem moveNumber_toNat {w : UInt16} {preRound : UInt64} {node : WaitSlashingNode}
    (small : lag preRound node + 1 < 2 ^ 16) (full : w ≤ (preRound - node.round).toUInt16) :
    ((preRound - node.round).toUInt16 + 1 - w).toUInt64.toNat = lag preRound node + 1 - w.toNat := by
  rw [UInt16.le_iff_toNat_le, diff_toNat small] at full
  rw [UInt16.toNat_toUInt64, UInt16.toNat_sub_of_le _ _ (UInt16.le_iff_toNat_le.mpr ?_)] <;>
  rw [UInt16.toNat_add, diff_toNat small, show (1 : UInt16).toNat = 1 from rfl,
    Nat.mod_eq_of_lt small]
  omega

/-- `shiftWindow` keeps the marks of the last `w` rounds, on a record whose bits lie below its lag
and whose first round is marked. -/
theorem shiftWindow_spec {w : UInt16} {preRound : UInt64} {node : WaitSlashingNode}
    (one_le : 1 ≤ w.toNat) (small : lag preRound node + 1 < 2 ^ 16)
    (bits : node.countBit.toNat < 2 ^ lag preRound node) (first : node.countBit.toNat.testBit 0) :
    WindowMoved w.toNat preRound node (shiftWindow w preRound node) := by
  unfold shiftWindow
  dsimp only
  split_ifs with full nonzero
  · have move := moveNumber_toNat small full
    rw [ge_iff_le, UInt16.le_iff_toNat_le, diff_toNat small] at full
    set m := lag preRound node + 1 - w.toNat with m_eq
    set moved : WaitSlashingNode := { node with
      countBit := shiftRight node.countBit ((preRound - node.round).toUInt16 + 1 - w).toUInt64,
      round := node.round + ((preRound - node.round).toUInt16 + 1 - w).toUInt64 } with moved_eq
    have shifted : Shifted node moved m := by
      refine ⟨rfl, ?_, by rw [shiftRight_toNat, move]⟩
      rw [← move, UInt64.ofNat_toNat]
    have moved_bits : moved.countBit.toNat < 2 ^ (lag preRound node - m) := by
      rw [shifted.countBit]
      exact shiftRight_lt_two_pow bits (by omega)
    have moved_nonzero : moved.countBit ≠ 0 := by
      simpa [moved_eq, ← UInt64.lt_iff_toNat_lt, UInt64.pos_iff_ne_zero] using nonzero
    obtain ⟨s, dropped, low, clear⟩ := dropTrailingZeros_spec 64 moved moved_nonzero moved.countBit.toNat_lt
    have s_lt : s < lag preRound node - m := by
      by_contra far
      rw [dropped.countBit, Nat.testBit_shiftRight, Nat.add_zero,
        Nat.testBit_lt_two_pow (lt_of_lt_of_le moved_bits (Nat.pow_le_pow_right (by omega) (by omega)))]
        at low
      cases low
    have lag_moved : lag preRound moved = lag preRound node - m := shifted.lag_eq (by omega)
    have both := shifted.trans dropped
    refine ⟨both.nodeId, fun k => ?_, ?_, ?_, fun _ => ⟨low, ?_⟩⟩
    · rw [dropped.markedLag_iff_of_clear (by omega) clear, shifted.markedLag_iff (by omega)]
      exact and_congr_right fun _ => by omega
    · rw [both.lag_eq (by omega), both.countBit]
      exact shiftRight_lt_two_pow bits (by omega)
    · rw [both.lag_eq (by omega)]
      omega
    · rw [both.lag_eq (by omega)]
      omega
  · have empty : shiftRight node.countBit ((preRound - node.round).toUInt16 + 1 - w).toUInt64 = 0 := by
      simpa [UInt64.pos_iff_ne_zero] using nonzero
    have move := moveNumber_toNat small full
    rw [ge_iff_le, UInt16.le_iff_toNat_le, diff_toNat small] at full
    refine ⟨rfl, fun k => ⟨?_, ?_⟩, by rw [empty, UInt64.toNat_zero]; positivity, le_rfl,
      fun zero => absurd empty zero⟩
    · rintro ⟨-, set⟩
      rw [empty] at set
      simp at set
    · rintro ⟨⟨within, set⟩, inside⟩
      have cleared := congrArg (fun x : UInt64 => x.toNat.testBit (lag preRound node - k -
        (lag preRound node + 1 - w.toNat))) empty
      simp only [shiftRight_toNat, move, Nat.testBit_shiftRight, UInt64.toNat_zero,
        Nat.zero_testBit] at cleared
      rw [show lag preRound node + 1 - w.toNat + (lag preRound node - k -
        (lag preRound node + 1 - w.toNat)) = lag preRound node - k by omega, set] at cleared
      cases cleared
  · rw [ge_iff_le, UInt16.le_iff_toNat_le, diff_toNat small, not_le] at full
    refine ⟨rfl, fun k => ⟨fun marked => ⟨marked, ?_⟩, And.left⟩, bits, le_rfl, fun _ => ⟨first, full⟩⟩
    have := marked.1
    omega

/-- A record as the list keeps it: its window ends within `w` rounds of `preRound`, starts at a
mark, and marks nothing after `preRound`. -/
structure Window (w : ℕ) (preRound : UInt64) (node : WaitSlashingNode) : Prop where
  lag_lt : lag preRound node < w
  first : node.countBit.toNat.testBit 0
  bits : node.countBit.toNat < 2 ^ (lag preRound node + 1)

theorem Window.le_lag {w : ℕ} {preRound : UInt64} {node : WaitSlashingNode} {i : ℕ}
    (window : Window w preRound node) (set : node.countBit.toNat.testBit i) :
    i ≤ lag preRound node := by
  have low := Nat.ge_two_pow_of_testBit set
  have high := window.bits
  have := (Nat.pow_lt_pow_iff_right (by norm_num : 1 < 2)).mp (lt_of_le_of_lt low high)
  omega

theorem WindowMoved.window {w : ℕ} {preRound : UInt64} {node node' : WaitSlashingNode}
    (moved : WindowMoved w preRound node node') (nonzero : node'.countBit ≠ 0) :
    Window w preRound node' :=
  ⟨(moved.first nonzero).2, (moved.first nonzero).1,
    moved.bits.trans (Nat.pow_lt_pow_right (by norm_num) (by omega))⟩

/-- `markZero` adds the mark of the round `preRound` to a moved record. -/
theorem markZero_spec {w : ℕ} {preRound : UInt64} {node : WaitSlashingNode}
    (moved : node.countBit ≠ 0 → node.countBit.toNat.testBit 0 ∧ lag preRound node < w)
    (bits : node.countBit.toNat < 2 ^ lag preRound node) (one_le : 1 ≤ w) (w_le : w ≤ 64) :
    (markZero preRound node).nodeId = node.nodeId ∧
      (∀ k, MarkedLag preRound (markZero preRound node) k ↔ MarkedLag preRound node k ∨ k = 0) ∧
      Window w preRound (markZero preRound node) ∧
      lag preRound (markZero preRound node) ≤ lag preRound node := by
  unfold markZero
  split_ifs with zero
  · have fresh : lag preRound { node with round := preRound, countBit := 1 } = 0 := by simp [lag]
    refine ⟨rfl, fun k => ?_, ⟨by omega, by simp, by simp [fresh]⟩, by omega⟩
    simp [MarkedLag, fresh, zero]
  · obtain ⟨first, lag_lt⟩ := moved zero
    have mark : (shiftLeft 1 (preRound - node.round)).toNat = 2 ^ lag preRound node :=
      shiftLeft_one_toNat (by unfold lag at lag_lt; omega)
    have same : lag preRound
        { node with countBit := node.countBit ||| shiftLeft 1 (preRound - node.round) } =
          lag preRound node := rfl
    refine ⟨rfl, fun k => ?_, ⟨by omega, ?_, ?_⟩, le_of_eq same⟩
    · simp only [MarkedLag, same, UInt64.toNat_or, mark, Nat.testBit_or, Nat.testBit_two_pow,
        Bool.or_eq_true, decide_eq_true_eq]
      constructor
      · rintro ⟨within, set | top⟩
        exacts [.inl ⟨within, set⟩, .inr (by omega)]
      · rintro (⟨within, set⟩ | rfl)
        exacts [⟨within, .inl set⟩, ⟨by omega, .inr (by omega)⟩]
    · rw [UInt64.toNat_or, Nat.testBit_or, first, Bool.true_or]
    · rw [same, UInt64.toNat_or, mark]
      exact Nat.or_lt_two_pow (bits.trans (Nat.pow_lt_pow_right (by norm_num) (by omega)))
        (Nat.pow_lt_pow_right (by norm_num) (by omega))

/-- `moveWindow` on a record the list keeps, one round on: the marks of the last `w` rounds stay,
the round `preRound` is marked when the node produced nothing in it, and a record with a mark left
is one the list can keep. -/
theorem moveWindow_spec {w : UInt16} {preRound : UInt64} {entry : Option Bool}
    {node : WaitSlashingNode} (one_le : 1 ≤ w.toNat) (w_le : w.toNat ≤ 64)
    (small : lag preRound node + 1 < 2 ^ 16) (bits : node.countBit.toNat < 2 ^ lag preRound node)
    (first : node.countBit.toNat.testBit 0)
    (nonzero : (moveWindow w preRound entry node).countBit ≠ 0) :
    (moveWindow w preRound entry node).nodeId = node.nodeId ∧
      (∀ k, MarkedLag preRound (moveWindow w preRound entry node) k ↔
        MarkedLag preRound node k ∧ k < w.toNat ∨ k = 0 ∧ entry = some false) ∧
      Window w.toNat preRound (moveWindow w preRound entry node) ∧
      lag preRound (moveWindow w preRound entry node) ≤ lag preRound node := by
  have moved := shiftWindow_spec one_le small bits first
  unfold moveWindow at nonzero ⊢
  dsimp only at nonzero ⊢
  split_ifs at nonzero ⊢ with zero
  · obtain ⟨same, marks, window, lag_le⟩ := markZero_spec moved.first moved.bits one_le w_le
    refine ⟨same.trans moved.nodeId, fun k => ?_, window, lag_le.trans moved.lag_le⟩
    rw [marks, moved.marks]
    simp [zero]
  · refine ⟨moved.nodeId, fun k => ?_, moved.window nonzero, moved.lag_le⟩
    rw [moved.marks]
    simp [zero]

/-! ## Slashing -/

/-- The loop of `calcBitFunc`: `compareValue` walks up the bits. -/
def calcBitLoop (countBit : UInt64) : (number : ℕ) → (compareValue : UInt64) → UInt16 → UInt16
  | 0, _, count => count
  | number + 1, compareValue, count =>
    calcBitLoop countBit number (compareValue <<< 1)
      (if countBit &&& compareValue > 0 then count + 1 else count)

/-- `calcBitFunc`: the marks among the first `number` bits. -/
def calcBitFunc (countBit : UInt64) (number : ℕ) : UInt16 :=
  calcBitLoop countBit number 1 0

/-- The number of marks of a record. -/
def popcount (countBit : UInt64) : ℕ := (List.range 64).countP fun i => countBit.toNat.testBit i

theorem and_pos_iff {countBit compareValue : UInt64} {k : ℕ}
    (single : compareValue.toNat = 2 ^ k % 2 ^ 64) :
    countBit &&& compareValue > 0 ↔ countBit.toNat.testBit k := by
  rw [gt_iff_lt, UInt64.lt_iff_toNat_lt, UInt64.toNat_and, single, UInt64.toNat_zero]
  by_cases inside : k < 64
  · rw [Nat.mod_eq_of_lt (Nat.pow_lt_pow_right (by norm_num) inside), Nat.and_two_pow]
    cases countBit.toNat.testBit k <;> simp
  · rw [Nat.mod_eq_zero_of_dvd (Nat.pow_dvd_pow 2 (by omega)), Nat.and_zero,
      Nat.testBit_lt_two_pow (countBit.toNat_lt.trans_le
        (Nat.pow_le_pow_right (by norm_num) (by omega)))]
    simp

/-- `calcBitLoop` counts the bits from `k` on, `compareValue` being bit `k`. -/
theorem calcBitLoop_toNat (countBit : UInt64) :
    ∀ (number k : ℕ) (compareValue : UInt64) (count : UInt16),
      compareValue.toNat = 2 ^ k % 2 ^ 64 → count.toNat + number < 2 ^ 16 →
      (calcBitLoop countBit number compareValue count).toNat =
        count.toNat + (List.range' k number).countP fun i => countBit.toNat.testBit i := by
  intro number
  induction number with
  | zero => intro k compareValue count _ _; rfl
  | succ number ih =>
    intro k compareValue count single small
    have next : (compareValue <<< 1).toNat = 2 ^ (k + 1) % 2 ^ 64 := by
      rw [UInt64.toNat_shiftLeft, single, show (1 : UInt64).toNat % 64 = 1 from rfl,
        Nat.shiftLeft_eq, pow_one, Nat.mod_mul_mod, (pow_succ 2 k).symm]
    rw [calcBitLoop, List.range'_succ, List.countP_cons]
    simp only [and_pos_iff single]
    by_cases set : countBit.toNat.testBit k
    · rw [if_pos set, ih (k + 1) _ _ next (by rw [UInt16.toNat_add]; simp; omega), if_pos set,
        UInt16.toNat_add, show (1 : UInt16).toNat = 1 from rfl, Nat.mod_eq_of_lt (by omega)]
      omega
    · rw [if_neg set, ih (k + 1) _ _ next (by omega), if_neg set]
      rfl

theorem calcBitFunc_eq_popcount {countBit : UInt64} {number : ℕ} (le : number ≤ 64)
    (bits : countBit.toNat < 2 ^ number) :
    (calcBitFunc countBit number).toNat = popcount countBit := by
  rw [calcBitFunc, calcBitLoop_toNat countBit number 0 1 0 rfl (by simp; omega), popcount,
    ← List.range_eq_range', ← Nat.add_sub_cancel' le, List.range_add, List.countP_append]
  have above : (List.map (fun x => number + x) (List.range (64 - number))).countP
      (fun i => countBit.toNat.testBit i) = 0 := by
    rw [List.countP_eq_zero]
    simp only [List.mem_map, List.mem_range]
    rintro _ ⟨i, -, rfl⟩
    rw [Nat.testBit_lt_two_pow (bits.trans_le (Nat.pow_le_pow_right (by norm_num) (by omega)))]
    simp
  rw [above]
  simp

/-- `checkSlashing`: a full window with enough marks slashes the node for a low block ratio, unless
it has no candidate record. -/
def checkSlashing (reads : ZeroProduceReads ε) (preRound : UInt64)
    (zeroProduceCumulativeTime zeroProduceNumberThreshold : UInt16) (node : WaitSlashingNode) :
    Except ε (Option SlashNodeItem) :=
  if (preRound - node.round + 1).toUInt16 = zeroProduceCumulativeTime then
    if calcBitFunc node.countBit zeroProduceCumulativeTime.toNat ≥ zeroProduceNumberThreshold then do
      match ← reads.canTotalBalance node.nodeId with
      | none => pure none
      | some totalBalance =>
        let blocksReward ← reads.slashBlocksReward
        let slashAmount ← if blocksReward > 0 then do
            let amount ← reads.calcSlashBlockRewards blocksReward.toUInt64
            pure (if amount > totalBalance then totalBalance else amount)
          else pure 0
        pure (some ⟨node.nodeId, slashAmount, lowRatio, rewardManagerPoolAddr⟩)
    else pure none
  else pure none

/-- The window is full: its first round is `w - 1` rounds before `preRound`, and it has at least
`threshold` marks. -/
def Full (w threshold : ℕ) (preRound : UInt64) (node : WaitSlashingNode) : Prop :=
  lag preRound node + 1 = w ∧ threshold ≤ popcount node.countBit

/-- `GetCanMutableByIrr` finds the candidate of the node. -/
def HasRecord (reads : ZeroProduceReads ε) (nodeId : NodeID) : Prop :=
  ∃ totalBalance, reads.canTotalBalance nodeId = .ok (some totalBalance)

theorem window_end_iff {preRound : UInt64} {w : UInt16} {node : WaitSlashingNode}
    (small : lag preRound node + 1 < 2 ^ 16) :
    (preRound - node.round + 1).toUInt16 = w ↔ lag preRound node + 1 = w.toNat := by
  unfold lag at *
  rw [← UInt16.toNat_inj, UInt64.toNat_toUInt16, UInt64.toNat_add,
    show (1 : UInt64).toNat = 1 from rfl, Nat.mod_eq_of_lt (by omega : _ < 2 ^ 64),
    Nat.mod_eq_of_lt small]

/-- `checkSlashing` slashes exactly a full window of a node with a candidate record, for a low
block ratio. -/
theorem checkSlashing_spec {reads : ZeroProduceReads ε} {preRound : UInt64} {w threshold : UInt16}
    {node : WaitSlashingNode} {result : Option SlashNodeItem} (w_le : w.toNat ≤ 64)
    (small : lag preRound node + 1 < 2 ^ 16) (bits : node.countBit.toNat < 2 ^ w.toNat)
    (checked : checkSlashing reads preRound w threshold node = .ok result) :
    (result.isSome ↔ Full w.toNat threshold.toNat preRound node ∧ HasRecord reads node.nodeId) ∧
      ∀ item ∈ result, item.nodeId = node.nodeId ∧ item.slashType = lowRatio := by
  have enough : calcBitFunc node.countBit w.toNat ≥ threshold ↔
      threshold.toNat ≤ popcount node.countBit := by
    rw [ge_iff_le, UInt16.le_iff_toNat_le, calcBitFunc_eq_popcount w_le bits]
  unfold checkSlashing at checked
  by_cases full : Full w.toNat threshold.toNat preRound node
  · rw [if_pos ((window_end_iff small).mpr full.1), if_pos (enough.mpr full.2)] at checked
    rcases balance : reads.canTotalBalance node.nodeId with e | _ | totalBalance
    · simp [balance, bind, Except.bind] at checked
    · simp only [balance, bind, Except.bind, pure, Except.pure, Except.ok.injEq] at checked
      subst checked
      simp [HasRecord, balance]
    · have slashed : ∃ amount, result = some ⟨node.nodeId, amount, lowRatio, rewardManagerPoolAddr⟩ := by
        simp only [balance, bind, Except.bind] at checked
        rcases reward : reads.slashBlocksReward with e | blocksReward
        · simp [reward] at checked
        · rcases amount : reads.calcSlashBlockRewards blocksReward.toUInt64 with e | amount <;>
            simp only [reward, amount] at checked <;> split_ifs at checked <;>
            simp only [pure, Except.pure, Except.ok.injEq] at checked <;>
            exact ⟨_, checked.symm⟩
      obtain ⟨amount, rfl⟩ := slashed
      simp [full, HasRecord, balance]
  · have none : result = none := by
      by_cases at_end : lag preRound node + 1 = w.toNat
      · rw [if_pos ((window_end_iff small).mpr at_end),
          if_neg fun many => full ⟨at_end, enough.mp many⟩] at checked
        simpa [pure, Except.pure] using checked.symm
      · rw [if_neg (mt (window_end_iff small).mp at_end)] at checked
        simpa [pure, Except.pure] using checked.symm
    subst none
    simp [full]

/-! ## The call -/

/-- The deletion closure of `zeroProduceProcess`. -/
def delFunc (nodeList : List WaitSlashingNode) (index : ℤ) : List WaitSlashingNode × ℤ :=
  if nodeList.length = 1 then ([], index)
  else if (nodeList.length : ℤ) - 1 = index then (nodeList.take index.toNat, index)
  else (nodeList.take index.toNat ++ nodeList.drop (index.toNat + 1), index - 1)

theorem delFunc_deletes : Deletes delFunc := by
  intro done rest x
  unfold delFunc
  by_cases single : (done ++ x :: rest).length = 1
  · have empty : done = [] ∧ rest = [] := by
      simp only [List.length_append, List.length_cons] at single
      exact ⟨List.eq_nil_of_length_eq_zero (by omega), List.eq_nil_of_length_eq_zero (by omega)⟩
    obtain ⟨rfl, rfl⟩ := empty
    simp
  · rw [if_neg single]
    by_cases last : ((done ++ x :: rest).length : ℤ) - 1 = done.length
    · have : rest = [] := by simp at last; exact List.eq_nil_of_length_eq_zero (by omega)
      subst this
      simp
    · rw [if_neg last]
      left
      simp

/-- The body of the loop over the nodes on watch, for one node: it leaves the list when it produced
a block, when it has no mark left, or when it is slashed. -/
def processNode (reads : ZeroProduceReads ε) (preRound : UInt64)
    (zeroProduceCumulativeTime zeroProduceNumberThreshold : UInt16)
    (state : (NodeID → Option Bool) × List SlashNodeItem) (node : WaitSlashingNode) :
    Except ε (((NodeID → Option Bool) × List SlashNodeItem) × Option WaitSlashingNode) := do
  let (validatorMap, slashQueue) := state
  let nodeId := node.nodeId
  let entry := validatorMap nodeId
  let validatorMap := Function.update validatorMap nodeId none
  let isDelete ← if entry = some true then pure true else do
    let amount ← reads.packAmount nodeId
    pure (decide (amount > 0))
  if isDelete then return ((validatorMap, slashQueue), none)
  let node := moveWindow zeroProduceCumulativeTime preRound entry node
  if node.countBit = 0 then return ((validatorMap, slashQueue), none)
  match ← checkSlashing reads preRound zeroProduceCumulativeTime zeroProduceNumberThreshold node with
  | some slashItem => return ((validatorMap, slashQueue ++ [slashItem]), none)
  | none => return ((validatorMap, slashQueue), some node)

/-- A node on watch that produced no block reaches `checkSlashing` as `node'`: its window moved on,
with a mark left. -/
def Reached (reads : ZeroProduceReads ε) (preRound : UInt64) (zeroProduceCumulativeTime : UInt16)
    (entry : Option Bool) (node node' : WaitSlashingNode) : Prop :=
  entry ≠ some true ∧ reads.packAmount node.nodeId = .ok 0 ∧
    node' = moveWindow zeroProduceCumulativeTime preRound entry node ∧ node'.countBit ≠ 0

/-- What the loop body does with a node on watch: it drops the node's entry from the map, and either
the node leaves the list unchecked, or it reaches `checkSlashing`, which slashes it or keeps it. -/
theorem processNode_spec {reads : ZeroProduceReads ε} {preRound : UInt64} {w threshold : UInt16}
    {validatorMap validatorMap' : NodeID → Option Bool} {slashQueue slashQueue' : List SlashNodeItem}
    {node : WaitSlashingNode} {result : Option WaitSlashingNode}
    (ok : processNode reads preRound w threshold (validatorMap, slashQueue) node =
      .ok ((validatorMap', slashQueue'), result)) :
    validatorMap' = Function.update validatorMap node.nodeId none ∧
      ((¬∃ node', Reached reads preRound w (validatorMap node.nodeId) node node') ∧
          slashQueue' = slashQueue ∧ result = none ∨
        ∃ node' checked, Reached reads preRound w (validatorMap node.nodeId) node node' ∧
          checkSlashing reads preRound w threshold node' = .ok checked ∧
          slashQueue' = slashQueue ++ checked.toList ∧
          result = if checked.isSome then none else some node') := by
  unfold processNode at ok
  by_cases produced : validatorMap node.nodeId = some true
  · simp only [produced, if_true, pure, Except.pure, bind, Except.bind, Except.ok.injEq,
      Prod.mk.injEq] at ok
    obtain ⟨⟨rfl, rfl⟩, rfl⟩ := ok
    exact ⟨rfl, .inl ⟨fun ⟨_, reached⟩ => reached.1 produced, rfl, rfl⟩⟩
  rcases pack : reads.packAmount node.nodeId with e | amount
  · simp [produced, pack, bind, Except.bind] at ok
  by_cases busy : amount > 0
  · simp only [produced, pack, busy, if_false, if_true, decide_true, pure, Except.pure, bind,
      Except.bind, Except.ok.injEq, Prod.mk.injEq] at ok
    obtain ⟨⟨rfl, rfl⟩, rfl⟩ := ok
    refine ⟨rfl, .inl ⟨fun ⟨_, _, zero, _⟩ => ?_, rfl, rfl⟩⟩
    rw [pack, Except.ok.injEq] at zero
    simp [zero] at busy
  have idle : amount = 0 := by simpa [UInt32.lt_iff_toNat_lt, ← UInt32.toNat_inj] using busy
  subst idle
  by_cases empty : (moveWindow w preRound (validatorMap node.nodeId) node).countBit = 0
  · -- no mark is left
    simp only [produced, pack, busy, empty, if_false, if_true, decide_false, pure, Except.pure, bind,
      Except.bind] at ok
    obtain ⟨⟨rfl, rfl⟩, rfl⟩ := ok
    exact ⟨rfl, .inl ⟨fun ⟨_, _, _, rfl, nonzero⟩ => nonzero empty, rfl, rfl⟩⟩
  rcases check : checkSlashing reads preRound w threshold
      (moveWindow w preRound (validatorMap node.nodeId) node) with e | checked
  · simp [produced, pack, busy, empty, check, bind, Except.bind, pure, Except.pure] at ok
  simp only [produced, pack, busy, empty, check, if_false, decide_false, pure, Except.pure, bind,
      Except.bind] at ok
  refine ⟨?_, .inr ⟨_, checked, ⟨produced, pack, rfl, empty⟩, check, ?_⟩⟩ <;>
    cases checked <;> simp_all
/-- The loop over the validators of the previous round: one that produced nothing and is not on
watch yet is slashed at once or goes on watch. -/
def appendFirstZero (reads : ZeroProduceReads ε) (preRound : UInt64)
    (zeroProduceCumulativeTime zeroProduceNumberThreshold : UInt16)
    (validatorMap : NodeID → Option Bool) :
    List Validator → List SlashNodeItem × List WaitSlashingNode →
      Except ε (List SlashNodeItem × List WaitSlashingNode)
  | [], result => .ok result
  | validator :: rest, (slashQueue, waitSlashingNodeList) =>
    if validatorMap validator.nodeId = some false then do
      let waitSlashingNode : WaitSlashingNode := ⟨validator.nodeId, preRound, 1⟩
      match ← checkSlashing reads preRound zeroProduceCumulativeTime zeroProduceNumberThreshold
          waitSlashingNode with
      | some slashItem =>
        appendFirstZero reads preRound zeroProduceCumulativeTime zeroProduceNumberThreshold
          validatorMap rest (slashQueue ++ [slashItem], waitSlashingNodeList)
      | none =>
        appendFirstZero reads preRound zeroProduceCumulativeTime zeroProduceNumberThreshold
          validatorMap rest (slashQueue, waitSlashingNodeList ++ [waitSlashingNode])
    else
      appendFirstZero reads preRound zeroProduceCumulativeTime zeroProduceNumberThreshold
        validatorMap rest (slashQueue, waitSlashingNodeList)

/-- `zeroProduceProcess`: the nodes to slash and the list to store. -/
def zeroProduceProcess (reads : ZeroProduceReads ε) (waitSlashingNodeList : List WaitSlashingNode)
    (validatorMap : NodeID → Option Bool) (validatorQueue : List Validator) :
    Except ε (List SlashNodeItem × List WaitSlashingNode) := do
  let zeroProduceNumberThreshold ← reads.zeroProduceNumberThreshold
  let zeroProduceCumulativeTime ← reads.zeroProduceCumulativeTime
  let preRound := reads.preRound
  let (waitSlashingNodeList, validatorMap, slashQueue) ←
    sweepLoop delFunc
      (processNode reads preRound zeroProduceCumulativeTime zeroProduceNumberThreshold)
      waitSlashingNodeList.length waitSlashingNodeList 0 (validatorMap, [])
  appendFirstZero reads preRound zeroProduceCumulativeTime zeroProduceNumberThreshold validatorMap
    validatorQueue (slashQueue, waitSlashingNodeList)

/-- The map `BeginBlock` builds: for each validator of the previous round, whether it produced a
block in it. -/
def buildValidatorMap (preRoundVal : List Validator) (result : NodeID → UInt32) :
    NodeID → Option Bool :=
  preRoundVal.foldl (fun validatorMap validator =>
    Function.update validatorMap validator.nodeId (some (decide (result validator.nodeId > 0))))
    fun _ => none

theorem buildValidatorMap_apply (preRoundVal : List Validator) (result : NodeID → UInt32)
    (nodeId : NodeID) :
    buildValidatorMap preRoundVal result nodeId =
      if nodeId ∈ preRoundVal.map (·.nodeId) then some (decide (result nodeId > 0)) else none := by
  unfold buildValidatorMap
  suffices folded : ∀ (validators : List Validator) (validatorMap : NodeID → Option Bool),
      validators.foldl (fun (validatorMap : NodeID → Option Bool) (validator : Validator) =>
        Function.update validatorMap validator.nodeId (some (decide (result validator.nodeId > 0))))
        validatorMap nodeId =
      if nodeId ∈ validators.map (·.nodeId) then some (decide (result nodeId > 0))
      else validatorMap nodeId by
    rw [folded]
  intro validators
  induction validators with
  | nil => simp
  | cons validator rest ih =>
    intro validatorMap
    rw [List.foldl_cons, ih]
    by_cases same : nodeId = validator.nodeId
    · subst same
      simp
    · simp [same]

end Slashing
end Bubble
