import Mathlib
import Bubble.Lib.Layers

/-!
# The ranking heap

`rankingHeap` of `core/snapshotdb/heap.go`, which `Ranking` fills from iterators over blocks,
newest first, and last from the base: the keys already handled, a max-heap of pairs
(`kvsMaxToMin`), and the most pairs to keep, with no bound when that is not positive.  A key is
taken from the first iterator that has it; an empty value is a delete, handled but not kept; past
the bound the largest key is dropped; and an iterator is left at the first key not handled at or
above the top of a full heap, since its later keys lie above the top too.

The heap is held as its pairs from the largest key down, which is what `Len`, `heap[0]` and
`heap.Pop` read of it.  Under a bound `itr2Heap` keeps the smallest non-empty pairs of the
iterators so far (`Bounded`), and without one all of them (`Unbounded`), so that the filled heap,
read from its smallest key, is the first pairs of the iterators pressed together, each key with
the value of the first iterator that has it (`foldl_itr2Heap`).
-/

namespace Bubble
namespace Snapshotdb

variable {κ : Type} [LinearOrder κ]

/-- `heap.Push` on `kvsMaxToMin`, the heap held as its pairs from the largest key down. -/
def heapPush (e : κ × List UInt8) : List (κ × List UInt8) → List (κ × List UInt8)
  | [] => [e]
  | top :: rest => if top.1 ≤ e.1 then e :: top :: rest else top :: heapPush e rest

/-- `for r.heap.Len() > r.hepMaxNum { heap.Pop(&r.heap) }`, each `heap.Pop` taking the top. -/
def popWhileOver (hepMaxNum : ℤ) : List (κ × List UInt8) → List (κ × List UInt8)
  | [] => []
  | top :: rest =>
    if hepMaxNum < ((top :: rest).length : ℤ) then popWhileOver hepMaxNum rest else top :: rest

/-- `rankingHeap`. -/
structure RankingHeap (κ : Type) where
  handledKey : List κ
  /-- `heap`, from the largest key down. -/
  heap : List (κ × List UInt8)
  hepMaxNum : ℤ

namespace RankingHeap

/-- `newRankingHeap`. -/
def newRankingHeap (hepNum : ℤ) : RankingHeap κ :=
  ⟨[], [], hepNum⟩

/-- `findHandledKey`. -/
def findHandledKey (r : RankingHeap κ) (key : κ) : Bool :=
  decide (key ∈ r.handledKey)

/-- `addHandledKey`. -/
def addHandledKey (r : RankingHeap κ) (key : κ) : RankingHeap κ :=
  { r with handledKey := key :: r.handledKey }

/-- `push2Heap`: an empty value is not kept. -/
def push2Heap (r : RankingHeap κ) (k : κ) (v : List UInt8) : RankingHeap κ :=
  if v = [] then r else { r with heap := heapPush (k, v) r.heap }

/-- The loop that pops the heap back down to `hepMaxNum` pairs. -/
def popOver (r : RankingHeap κ) : RankingHeap κ :=
  { r with heap := popWhileOver r.hepMaxNum r.heap }

/-- `itr2Heap`'s loop without a bound. -/
def itr2HeapUnlimited : RankingHeap κ → List (κ × List UInt8) → RankingHeap κ
  | r, [] => r
  | r, (k, v) :: rest =>
    if r.findHandledKey k then itr2HeapUnlimited r rest
    else itr2HeapUnlimited ((r.push2Heap k v).addHandledKey k) rest

/-- `itr2Heap`'s loop under the bound: it stops at the first key not handled at or above the top
of a full heap. -/
def itr2HeapLimited : RankingHeap κ → List (κ × List UInt8) → RankingHeap κ
  | r, [] => r
  | r, (k, v) :: rest =>
    if r.findHandledKey k then itr2HeapLimited r rest
    else if r.hepMaxNum ≤ r.heap.length ∧ (r.heap.head?.any fun top => top.1 ≤ k) then
      r.addHandledKey k
    else itr2HeapLimited ((r.push2Heap k v).addHandledKey k).popOver rest

/-- `itr2Heap` over an iterator's pairs, in key order. -/
def itr2Heap (r : RankingHeap κ) (itr : List (κ × List UInt8)) : RankingHeap κ :=
  if r.hepMaxNum ≤ 0 then itr2HeapUnlimited r itr else itr2HeapLimited r itr

end RankingHeap

/-! ## What the heap is for -/

/-- The value of `k` in the first of `itrs` that has it. -/
def firstWrite (itrs : List (List (κ × List UInt8))) (k : κ) : Option (List UInt8) :=
  itrs.findSome? (SortedMap.lookup k)

/-- The first `n` of a list, and all of it when `n` is not positive. -/
def select {α : Type} (n : ℤ) (l : List α) : List α :=
  if 0 < n then l.take n.toNat else l

theorem select_sublist {α : Type} (n : ℤ) (l : List α) : (select n l).Sublist l := by
  unfold select
  split_ifs
  · exact List.take_sublist _ _
  · exact List.Sublist.refl l

theorem mem_of_firstWrite {itrs : List (List (κ × List UInt8))} {k : κ} {v : List UInt8}
    (found : firstWrite itrs k = some v) : ∃ itr ∈ itrs, ∃ w, (k, w) ∈ itr := by
  obtain ⟨itr, mem, read⟩ := List.exists_of_findSome?_eq_some found
  exact ⟨itr, mem, v, SortedMap.mem_of_lookup read⟩

theorem firstWrite_of_new {done todo : List (List (κ × List UInt8))} {itr : List (κ × List UInt8)}
    (ascending : itr.Pairwise fun a b => a.1 < b.1) {e : κ × List UInt8} (mem : e ∈ itr)
    (new : ¬ ∃ src ∈ done, ∃ w, (e.1, w) ∈ src) : firstWrite (done ++ itr :: todo) e.1 = some e.2 := by
  have unread : done.findSome? (SortedMap.lookup e.1) = none :=
    List.findSome?_eq_none_iff.mpr fun src member => by
      cases read : SortedMap.lookup e.1 src with
      | none => rfl
      | some w => exact absurd ⟨src, member, w, SortedMap.mem_of_lookup read⟩ new
  have read : SortedMap.lookup e.1 itr = some e.2 :=
    (SortedMap.lookup_eq_some_iff (ascending.imp ne_of_lt)).mpr mem
  simp [firstWrite, List.findSome?_append, unread, read]

/-! ## The heap as a list -/

section HeapList

variable {e : κ × List UInt8} {heap : List (κ × List UInt8)}

@[simp]
theorem mem_heapPush {a : κ × List UInt8} : a ∈ heapPush e heap ↔ a = e ∨ a ∈ heap := by
  induction heap with
  | nil => simp [heapPush]
  | cons top rest ih =>
    by_cases above : top.1 ≤ e.1
    · simp [heapPush, above]
    · simp [heapPush, above, ih, or_left_comm]

@[simp]
theorem length_heapPush : (heapPush e heap).length = heap.length + 1 := by
  induction heap with
  | nil => rfl
  | cons top rest ih => by_cases above : top.1 ≤ e.1 <;> simp [heapPush, above, ih]

theorem heapPush_descending (descending : heap.Pairwise fun a b => b.1 < a.1)
    (fresh : ∀ a ∈ heap, a.1 ≠ e.1) : (heapPush e heap).Pairwise fun a b => b.1 < a.1 := by
  induction heap with
  | nil => simp [heapPush]
  | cons top rest ih =>
    rw [List.pairwise_cons] at descending
    unfold heapPush
    split_ifs with above
    · have higher : top.1 < e.1 := lt_of_le_of_ne above (fresh top List.mem_cons_self)
      refine List.Pairwise.cons (fun a mem => ?_) (List.Pairwise.cons descending.1 descending.2)
      rcases List.mem_cons.mp mem with rfl | later
      · exact higher
      · exact lt_trans (descending.1 a later) higher
    · refine List.Pairwise.cons (fun a mem => ?_)
        (ih descending.2 fun a mem => fresh a (List.mem_cons_of_mem _ mem))
      rcases mem_heapPush.mp mem with rfl | later
      · exact lt_of_not_ge above
      · exact descending.1 a later

theorem heapPush_below {top : κ × List UInt8} {rest : List (κ × List UInt8)} (below : e.1 < top.1) :
    heapPush e (top :: rest) = top :: heapPush e rest := by
  simp [heapPush, not_le.mpr below]

omit [LinearOrder κ] in
theorem popWhileOver_of_le {n : ℤ} (short : (heap.length : ℤ) ≤ n) : popWhileOver n heap = heap := by
  cases heap with
  | nil => rfl
  | cons top rest => rw [popWhileOver, if_neg (not_lt.mpr short)]

omit [LinearOrder κ] in
theorem popWhileOver_cons {n : ℤ} {top : κ × List UInt8} {rest : List (κ × List UInt8)}
    (long : ((top :: rest).length : ℤ) = n + 1) : popWhileOver n (top :: rest) = rest := by
  rw [popWhileOver, if_pos (by omega), popWhileOver_of_le (by simp at long; omega)]

theorem le_top (descending : heap.Pairwise fun a b => b.1 < a.1) {a top : κ × List UInt8}
    (mem : a ∈ heap) (isTop : top ∈ heap.head?) : a.1 ≤ top.1 := by
  cases heap with
  | nil => simp at mem
  | cons first rest =>
    simp only [List.head?_cons, Option.mem_def, Option.some.injEq] at isTop
    subst isTop
    rcases List.mem_cons.mp mem with rfl | later
    · exact le_rfl
    · exact ((List.pairwise_cons.mp descending).1 a later).le

end HeapList

/-! ## Keys seen -/

section Seen

variable {seen : κ → Prop} {k : κ} {v : List UInt8} {rest : List (κ × List UInt8)}

omit [LinearOrder κ] in
theorem seen_cons_iff (x : κ) :
    (seen x ∨ ∃ w, (x, w) ∈ (k, v) :: rest) ↔ ((seen x ∨ x = k) ∨ ∃ w, (x, w) ∈ rest) := by
  simp only [List.mem_cons, Prod.mk.injEq]
  constructor
  · rintro (old | ⟨w, ⟨rfl, -⟩ | later⟩)
    · exact .inl (.inl old)
    · exact .inl (.inr rfl)
    · exact .inr ⟨w, later⟩
  · rintro ((old | rfl) | ⟨w, later⟩)
    · exact .inl old
    · exact .inr ⟨v, .inl ⟨rfl, rfl⟩⟩
    · exact .inr ⟨w, .inr later⟩

omit [LinearOrder κ] in
theorem seen_cons_iff_of_seen (old : seen k) (x : κ) :
    (seen x ∨ ∃ w, (x, w) ∈ (k, v) :: rest) ↔ (seen x ∨ ∃ w, (x, w) ∈ rest) := by
  rw [seen_cons_iff]
  constructor
  · rintro ((old' | rfl) | later)
    · exact .inl old'
    · exact .inl old
    · exact .inr later
  · rintro (old' | later)
    · exact .inl (.inl old')
    · exact .inr later

end Seen

/-! ## Under a bound -/

section Bounded

variable (n : ℕ) (found : κ → Option (List UInt8)) (seen : κ → Prop)

/-- A heap of `n` pairs whose top lies below `k`. -/
def FullBelow (heap : List (κ × List UInt8)) (k : κ) : Prop :=
  heap.length = n ∧ ∀ top ∈ heap.head?, top.1 < k

/-- What `itr2Heap` keeps under the bound `n`, with `found` the value of each key in the first
iterator that has it and `seen` the keys of the iterators gone through: a heap from the largest
key down of at most `n` pairs found, non-empty and handled; handled keys are seen; and a key seen
but not handled, or found non-empty but not kept, lies above a full heap. -/
structure Bounded (r : RankingHeap κ) : Prop where
  bound : r.hepMaxNum = n
  descending : r.heap.Pairwise fun a b => b.1 < a.1
  short : r.heap.length ≤ n
  kept : ∀ e ∈ r.heap, e.1 ∈ r.handledKey ∧ found e.1 = some e.2 ∧ e.2 ≠ []
  handled : ∀ k ∈ r.handledKey, seen k
  skipped : ∀ k, seen k → k ∉ r.handledKey → FullBelow n r.heap k
  dropped : ∀ k v, seen k → found k = some v → v ≠ [] → (k, v) ∉ r.heap → FullBelow n r.heap k

variable {n found seen} {r : RankingHeap κ}

theorem Bounded.congr {seen' : κ → Prop} (inv : Bounded n found seen r)
    (same : ∀ k, seen k ↔ seen' k) : Bounded n found seen' r :=
  ⟨inv.bound, inv.descending, inv.short, inv.kept, fun k mem => (same k).mp (inv.handled k mem),
    fun k mem => inv.skipped k ((same k).mpr mem),
    fun k v mem => inv.dropped k v ((same k).mpr mem)⟩

theorem Bounded.fresh (inv : Bounded n found seen r) {k : κ} (fresh : k ∉ r.handledKey) :
    ∀ a ∈ r.heap, a.1 ≠ k :=
  fun a mem same => fresh (same ▸ (inv.kept a mem).1)

/-- The loop stops at a key not handled at or above the top of a full heap: the key is handled,
and it and the iterator's later keys lie above the heap. -/
theorem Bounded.stop (inv : Bounded n found seen r) {k : κ} (fresh : k ∉ r.handledKey)
    (full : (n : ℤ) ≤ r.heap.length) (atTop : ∀ top ∈ r.heap.head?, top.1 ≤ k)
    {rest : List (κ × List UInt8)} (later : ∀ e ∈ rest, k < e.1) :
    Bounded n found (fun x => seen x ∨ x = k ∨ ∃ w, (x, w) ∈ rest) (r.addHandledKey k) := by
  have below : FullBelow n r.heap k :=
    ⟨le_antisymm inv.short (by exact_mod_cast full), fun top isTop =>
      lt_of_le_of_ne (atTop top isTop) (inv.fresh fresh top (List.mem_of_mem_head? isTop))⟩
  have beyond : ∀ x, k ≤ x → FullBelow n r.heap x :=
    fun x above => ⟨below.1, fun top isTop => lt_of_lt_of_le (below.2 top isTop) above⟩
  have placed : ∀ x, x = k ∨ (∃ w, (x, w) ∈ rest) → FullBelow n r.heap x := by
    rintro x (rfl | ⟨w, mem⟩)
    · exact below
    · exact beyond x (later _ mem).le
  refine ⟨inv.bound, inv.descending, inv.short, fun e mem => ?_, fun x mem => ?_,
    fun x seen' left => ?_, fun x v seen' read nonempty out => ?_⟩
  · obtain ⟨handled, rest⟩ := inv.kept e mem
    exact ⟨List.mem_cons_of_mem _ handled, rest⟩
  · rcases List.mem_cons.mp mem with rfl | old
    · exact .inr (.inl rfl)
    · exact .inl (inv.handled x old)
  · rcases seen' with old | new
    · exact inv.skipped x old fun mem => left (List.mem_cons_of_mem _ mem)
    · exact placed x new
  · rcases seen' with old | new
    · exact inv.dropped x v old read nonempty out
    · exact placed x new

/-- One pair pushed: a key new to the iterators reads its value there, and past the bound the
top goes. -/
theorem Bounded.push (pos : 0 < n) (inv : Bounded n found seen r) {k : κ} {v : List UInt8}
    (fresh : k ∉ r.handledKey) (first : ¬ seen k → found k = some v)
    (goOn : ¬ ((n : ℤ) ≤ r.heap.length ∧ ∀ top ∈ r.heap.head?, top.1 ≤ k)) :
    Bounded n found (fun x => seen x ∨ x = k) ((r.push2Heap k v).addHandledKey k).popOver := by
  have read : found k = some v := first fun old => goOn
    ⟨by rw [(inv.skipped k old fresh).1], fun top isTop => ((inv.skipped k old fresh).2 top isTop).le⟩
  have handledNew : ∀ x, (seen x ∨ x = k) → x ∉ k :: r.handledKey → seen x ∧ x ∉ r.handledKey := by
    rintro x (old | rfl) left
    · exact ⟨old, fun mem => left (List.mem_cons_of_mem _ mem)⟩
    · exact absurd List.mem_cons_self left
  by_cases empty : v = []
  · have same : ((r.push2Heap k v).addHandledKey k).popOver = r.addHandledKey k := by
      simp only [RankingHeap.popOver, RankingHeap.push2Heap, RankingHeap.addHandledKey, empty,
        if_true, inv.bound]
      rw [popWhileOver_of_le (by exact_mod_cast inv.short)]
    rw [same]
    refine ⟨inv.bound, inv.descending, inv.short, fun e mem => ?_, fun x mem => ?_,
      fun x seen' left => ?_, fun x w seen' found' nonempty out => ?_⟩
    · obtain ⟨handled, rest⟩ := inv.kept e mem
      exact ⟨List.mem_cons_of_mem _ handled, rest⟩
    · rcases List.mem_cons.mp mem with rfl | old
      · exact .inr rfl
      · exact .inl (inv.handled x old)
    · obtain ⟨old, notHandled⟩ := handledNew x seen' left
      exact inv.skipped x old notHandled
    · rcases seen' with old | rfl
      · exact inv.dropped x w old found' nonempty out
      · rw [read, empty] at found'
        cases found'
        exact absurd rfl nonempty
  · have notKey := inv.fresh fresh
    by_cases room : r.heap.length < n
    · have same : ((r.push2Heap k v).addHandledKey k).popOver =
          { r with handledKey := k :: r.handledKey, heap := heapPush (k, v) r.heap } := by
        simp only [RankingHeap.popOver, RankingHeap.push2Heap, RankingHeap.addHandledKey, empty,
          if_false, inv.bound]
        rw [popWhileOver_of_le (by simp; omega)]
      rw [same]
      refine ⟨inv.bound, heapPush_descending inv.descending notKey, by simp; omega,
        fun e mem => ?_, fun x mem => ?_, fun x seen' left => ?_,
        fun x w seen' found' nonempty out => ?_⟩
      · rcases mem_heapPush.mp mem with rfl | old
        · exact ⟨List.mem_cons_self, read, empty⟩
        · obtain ⟨handled, rest⟩ := inv.kept e old
          exact ⟨List.mem_cons_of_mem _ handled, rest⟩
      · rcases List.mem_cons.mp mem with rfl | old
        · exact .inr rfl
        · exact .inl (inv.handled x old)
      · obtain ⟨old, notHandled⟩ := handledNew x seen' left
        exact absurd (inv.skipped x old notHandled).1 (by omega)
      · rcases seen' with old | rfl
        · by_cases was : (x, w) ∈ r.heap
          · exact absurd (mem_heapPush.mpr (.inr was)) out
          · exact absurd (inv.dropped x w old found' nonempty was).1 (by omega)
        · rw [read] at found'
          cases found'
          exact absurd (mem_heapPush.mpr (.inl rfl)) out
    · have full : r.heap.length = n := le_antisymm inv.short (not_lt.mp room)
      obtain ⟨top, rest, split⟩ : ∃ top rest, r.heap = top :: rest := by
        cases h : r.heap with
        | nil => rw [h] at full; simp at full; omega
        | cons top rest => exact ⟨top, rest, rfl⟩
      have below : k < top.1 := by
        by_contra atTop
        exact goOn ⟨by rw [full], fun t isTop => by
          rw [split] at isTop
          simp only [List.head?_cons, Option.mem_def, Option.some.injEq] at isTop
          rw [← isTop]
          exact not_lt.mp atTop⟩
      have descending := inv.descending
      rw [split, List.pairwise_cons] at descending
      have long : ((top :: heapPush (k, v) rest).length : ℤ) = n + 1 := by
        rw [split] at full
        simp at full ⊢
        omega
      have same : ((r.push2Heap k v).addHandledKey k).popOver =
          { r with handledKey := k :: r.handledKey, heap := heapPush (k, v) rest } := by
        simp only [RankingHeap.popOver, RankingHeap.push2Heap, RankingHeap.addHandledKey, empty,
          if_false, inv.bound, split, heapPush_below (e := (k, v)) below]
        rw [popWhileOver_cons long]
      have lower : ∀ t ∈ (heapPush (k, v) rest).head?, t.1 < top.1 := by
        intro t isTop
        rcases mem_heapPush.mp (List.mem_of_mem_head? isTop) with rfl | old
        · exact below
        · exact descending.1 t old
      have beyond : ∀ x, top.1 ≤ x → FullBelow n (heapPush (k, v) rest) x := by
        intro x above
        refine ⟨?_, fun t isTop => lt_of_lt_of_le (lower t isTop) above⟩
        rw [split] at full
        simpa using full
      rw [same]
      refine ⟨inv.bound, heapPush_descending descending.2 fun a mem => notKey a (split ▸
        List.mem_cons_of_mem _ mem), ?_, fun e mem => ?_, fun x mem => ?_,
        fun x seen' left => ?_, fun x w seen' found' nonempty out => ?_⟩
      · rw [split] at full
        simp at full ⊢
        omega
      · rcases mem_heapPush.mp mem with rfl | old
        · exact ⟨List.mem_cons_self, read, empty⟩
        · obtain ⟨handled, rest⟩ := inv.kept e (split ▸ List.mem_cons_of_mem _ old)
          exact ⟨List.mem_cons_of_mem _ handled, rest⟩
      · rcases List.mem_cons.mp mem with rfl | old
        · exact .inr rfl
        · exact .inl (inv.handled x old)
      · obtain ⟨old, notHandled⟩ := handledNew x seen' left
        obtain ⟨_, above⟩ := inv.skipped x old notHandled
        exact beyond x (above top (by simp [split])).le
      · rcases seen' with old | rfl
        · by_cases was : (x, w) ∈ r.heap
          · rw [split] at was
            rcases List.mem_cons.mp was with same | later
            · exact beyond x (le_of_eq (by rw [← same]))
            · exact absurd (mem_heapPush.mpr (.inr later)) out
          · obtain ⟨_, above⟩ := inv.dropped x w old found' nonempty was
            exact beyond x (above top (by simp [split])).le
        · rw [read] at found'
          cases found'
          exact absurd (mem_heapPush.mpr (.inl rfl)) out

/-- The loop under the bound keeps `Bounded` over an ascending iterator whose keys new to the
iterators before it read their value there. -/
theorem Bounded.itr2HeapLimited (pos : 0 < n) (inv : Bounded n found seen r)
    {itr : List (κ × List UInt8)} (ascending : itr.Pairwise fun a b => a.1 < b.1)
    (first : ∀ e ∈ itr, ¬ seen e.1 → found e.1 = some e.2) :
    Bounded n found (fun x => seen x ∨ ∃ w, (x, w) ∈ itr) (r.itr2HeapLimited itr) := by
  induction itr generalizing r seen with
  | nil => exact inv.congr fun x => by simp
  | cons e rest ih =>
    obtain ⟨k, v⟩ := e
    rw [List.pairwise_cons] at ascending
    unfold RankingHeap.itr2HeapLimited
    by_cases handled : k ∈ r.handledKey
    · have old := inv.handled k handled
      rw [if_pos (by simpa [RankingHeap.findHandledKey] using handled)]
      exact (ih inv ascending.2 fun e mem new => first e (List.mem_cons_of_mem _ mem) new).congr
        fun x => (seen_cons_iff_of_seen old x).symm
    · rw [if_neg (by simpa [RankingHeap.findHandledKey] using handled)]
      split_ifs with stop
      · refine (inv.stop handled (by rw [inv.bound] at stop; exact stop.1) (fun top isTop => ?_)
          fun e mem => ascending.1 e mem).congr fun x => ?_
        · obtain ⟨_, atTop⟩ := stop
          cases heap : r.heap with
          | nil => rw [heap] at isTop; simp at isTop
          | cons first rest =>
            rw [heap] at isTop atTop
            simp only [List.head?_cons, Option.mem_def, Option.some.injEq] at isTop
            simpa [← isTop] using atTop
        · rw [seen_cons_iff]
          tauto
      · have goOn : ¬ ((n : ℤ) ≤ r.heap.length ∧ ∀ top ∈ r.heap.head?, top.1 ≤ k) := by
          rintro ⟨full, atTop⟩
          refine stop ⟨by rw [inv.bound]; exact full, ?_⟩
          cases heap : r.heap with
          | nil =>
            rw [heap] at full
            simp at full
            omega
          | cons first rest =>
            rw [heap] at atTop
            simpa using atTop first rfl
        have pushed := inv.push pos handled (first (k, v) List.mem_cons_self) goOn
        refine (ih pushed ascending.2 fun e mem new => first e (List.mem_cons_of_mem _ mem)
          fun old => new (.inl old)).congr fun x => (seen_cons_iff x).symm

end Bounded

/-! ## Without a bound -/

section Unbounded

variable (found : κ → Option (List UInt8)) (seen : κ → Prop)

/-- What `itr2Heap` keeps without a bound: a heap from the largest key down of pairs found,
non-empty and handled; the handled keys are the keys seen; and each key seen and found non-empty
is kept. -/
structure Unbounded (r : RankingHeap κ) : Prop where
  bound : r.hepMaxNum ≤ 0
  descending : r.heap.Pairwise fun a b => b.1 < a.1
  kept : ∀ e ∈ r.heap, e.1 ∈ r.handledKey ∧ found e.1 = some e.2 ∧ e.2 ≠ []
  handled : ∀ k, k ∈ r.handledKey ↔ seen k
  complete : ∀ k v, seen k → found k = some v → v ≠ [] → (k, v) ∈ r.heap

variable {found seen} {r : RankingHeap κ}

theorem Unbounded.congr {seen' : κ → Prop} (inv : Unbounded found seen r)
    (same : ∀ k, seen k ↔ seen' k) : Unbounded found seen' r :=
  ⟨inv.bound, inv.descending, inv.kept, fun k => (inv.handled k).trans (same k),
    fun k v mem => inv.complete k v ((same k).mpr mem)⟩

/-- A key not handled is new to the iterators, reads its value there, and is kept unless the
value is empty. -/
theorem Unbounded.push (inv : Unbounded found seen r) {k : κ} {v : List UInt8}
    (fresh : k ∉ r.handledKey) (first : ¬ seen k → found k = some v) :
    Unbounded found (fun x => seen x ∨ x = k) ((r.push2Heap k v).addHandledKey k) := by
  have read : found k = some v := first fun old => fresh ((inv.handled k).mpr old)
  have notKey : ∀ a ∈ r.heap, a.1 ≠ k := fun a mem same => fresh (same ▸ (inv.kept a mem).1)
  have handled : ∀ x, x ∈ k :: r.handledKey ↔ seen x ∨ x = k := by
    intro x
    rw [List.mem_cons, inv.handled x, or_comm]
  by_cases empty : v = []
  · simp only [RankingHeap.push2Heap, empty, if_true, RankingHeap.addHandledKey]
    refine ⟨inv.bound, inv.descending, fun e mem => ?_, handled,
      fun x w seen' found' nonempty => ?_⟩
    · obtain ⟨old, rest⟩ := inv.kept e mem
      exact ⟨List.mem_cons_of_mem _ old, rest⟩
    · rcases seen' with old | rfl
      · exact inv.complete x w old found' nonempty
      · rw [read, empty] at found'
        cases found'
        exact absurd rfl nonempty
  · simp only [RankingHeap.push2Heap, empty, if_false, RankingHeap.addHandledKey]
    refine ⟨inv.bound, heapPush_descending inv.descending notKey, fun e mem => ?_, handled,
      fun x w seen' found' nonempty => ?_⟩
    · rcases mem_heapPush.mp mem with rfl | old
      · exact ⟨List.mem_cons_self, read, empty⟩
      · obtain ⟨handledOld, rest⟩ := inv.kept e old
        exact ⟨List.mem_cons_of_mem _ handledOld, rest⟩
    · rcases seen' with old | rfl
      · exact mem_heapPush.mpr (.inr (inv.complete x w old found' nonempty))
      · rw [read] at found'
        cases found'
        exact mem_heapPush.mpr (.inl rfl)

theorem Unbounded.itr2HeapUnlimited (inv : Unbounded found seen r) {itr : List (κ × List UInt8)}
    (first : ∀ e ∈ itr, ¬ seen e.1 → found e.1 = some e.2) :
    Unbounded found (fun x => seen x ∨ ∃ w, (x, w) ∈ itr) (r.itr2HeapUnlimited itr) := by
  induction itr generalizing r seen with
  | nil => exact inv.congr fun x => by simp
  | cons e rest ih =>
    obtain ⟨k, v⟩ := e
    unfold RankingHeap.itr2HeapUnlimited
    by_cases handled : k ∈ r.handledKey
    · rw [if_pos (by simpa [RankingHeap.findHandledKey] using handled)]
      exact (ih inv fun e mem new => first e (List.mem_cons_of_mem _ mem) new).congr
        fun x => (seen_cons_iff_of_seen ((inv.handled k).mp handled) x).symm
    · rw [if_neg (by simpa [RankingHeap.findHandledKey] using handled)]
      have pushed := inv.push handled (first (k, v) List.mem_cons_self)
      exact (ih pushed fun e mem new => first e (List.mem_cons_of_mem _ mem)
        fun old => new (.inl old)).congr fun x => (seen_cons_iff x).symm

end Unbounded

/-! ## Filling the heap -/

/-- Filling the heap from iterators in order: what `itr2Heap` keeps over each iterator, given
that its keys new to the iterators before it read their value there, holds of the whole fill. -/
theorem foldl_itr2Heap_keeps {Keeps : (κ → Prop) → RankingHeap κ → Prop}
    (itrs : List (List (κ × List UInt8)))
    (ascending : ∀ itr ∈ itrs, itr.Pairwise fun a b => a.1 < b.1)
    (step : ∀ seen r itr, Keeps seen r → itr.Pairwise (fun a b => a.1 < b.1) →
      (∀ e ∈ itr, ¬ seen e.1 → firstWrite itrs e.1 = some e.2) →
      Keeps (fun x => seen x ∨ ∃ w, (x, w) ∈ itr) (r.itr2Heap itr))
    (congr : ∀ seen seen' r, (∀ k, seen k ↔ seen' k) → Keeps seen r → Keeps seen' r)
    {r : RankingHeap κ} (start : Keeps (fun _ => False) r) :
    Keeps (fun k => ∃ itr ∈ itrs, ∃ w, (k, w) ∈ itr) (itrs.foldl RankingHeap.itr2Heap r) := by
  -- induction on the iterators still to come, the keys seen being those of the ones done
  suffices fill : ∀ todo done (r : RankingHeap κ), done ++ todo = itrs →
      Keeps (fun k => ∃ itr ∈ done, ∃ w, (k, w) ∈ itr) r →
      Keeps (fun k => ∃ itr ∈ itrs, ∃ w, (k, w) ∈ itr) (todo.foldl RankingHeap.itr2Heap r) by
    exact fill itrs [] r rfl (congr _ _ r (by simp) start)
  intro todo
  induction todo with
  | nil =>
    intro done r split keeps
    rw [List.append_nil] at split
    subst split
    exact keeps
  | cons itr todo ih =>
    intro done r split keeps
    have member : itr ∈ itrs := by simp [← split]
    rw [List.foldl_cons]
    refine ih (done ++ [itr]) _ (by rw [List.append_assoc]; exact split)
      (congr _ _ _ (fun k => ?_) (step _ r itr keeps (ascending itr member) fun e mem new => ?_))
    · simp only [List.mem_append, List.mem_singleton]
      constructor
      · rintro (⟨src, mem, found⟩ | found)
        · exact ⟨src, .inl mem, found⟩
        · exact ⟨itr, .inr rfl, found⟩
      · rintro ⟨src, mem | rfl, found⟩
        · exact .inl ⟨src, mem, found⟩
        · exact .inr found
    · rw [← split]
      exact firstWrite_of_new (ascending itr member) mem new

/-- `Ranking`'s fill of the heap: read from its smallest key, the heap holds the first
`rangeNumber` pairs (all of them when `rangeNumber` is not positive) of the iterators pressed
together, each key with the value of the first iterator that has it, when that is not empty. -/
theorem foldl_itr2Heap (itrs : List (List (κ × List UInt8)))
    (ascending : ∀ itr ∈ itrs, itr.Pairwise fun a b => a.1 < b.1) (rangeNumber : ℤ)
    {candidates : List (κ × List UInt8)} (sorted : candidates.Pairwise fun a b => a.1 < b.1)
    (members : ∀ e, e ∈ candidates ↔ firstWrite itrs e.1 = some e.2 ∧ e.2 ≠ []) :
    (itrs.foldl RankingHeap.itr2Heap (RankingHeap.newRankingHeap rangeNumber)).heap.reverse =
      select rangeNumber candidates := by
  by_cases bounded : 0 < rangeNumber
  · obtain ⟨n, rfl⟩ : ∃ n : ℕ, rangeNumber = n := ⟨rangeNumber.toNat, by omega⟩
    have pos : 0 < n := by exact_mod_cast bounded
    have inv : Bounded n (firstWrite itrs) (fun k => ∃ itr ∈ itrs, ∃ w, (k, w) ∈ itr)
        (itrs.foldl RankingHeap.itr2Heap (RankingHeap.newRankingHeap n)) := by
      refine foldl_itr2Heap_keeps itrs ascending (fun seen r itr keeps sorted first => ?_)
        (fun _ _ _ same keeps => keeps.congr same) ?_
      · rw [RankingHeap.itr2Heap, if_neg (by rw [keeps.bound]; omega)]
        exact keeps.itr2HeapLimited pos sorted first
      · refine ⟨rfl, List.Pairwise.nil, Nat.zero_le _, ?_, ?_, ?_, ?_⟩ <;>
          simp [RankingHeap.newRankingHeap]
    rw [select, if_pos bounded, Int.toNat_natCast]
    refine SortedMap.eq_take_of_above (List.pairwise_reverse.mpr inv.descending) sorted
      (fun e mem => ?_) (by simpa using inv.short) (fun e mem out => ?_)
    · obtain ⟨_, read, nonempty⟩ := inv.kept e (List.mem_reverse.mp mem)
      exact (members e).mpr ⟨read, nonempty⟩
    · obtain ⟨read, nonempty⟩ := (members e).mp mem
      obtain ⟨full, below⟩ := inv.dropped e.1 e.2 (mem_of_firstWrite read) read nonempty
        fun kept => out (List.mem_reverse.mpr kept)
      refine ⟨by simpa using full, fun a kept => ?_⟩
      have heapMem := List.mem_reverse.mp kept
      obtain ⟨top, isTop⟩ : ∃ top, top ∈ (itrs.foldl RankingHeap.itr2Heap
          (RankingHeap.newRankingHeap n)).heap.head? := by
        cases heap : (itrs.foldl RankingHeap.itr2Heap (RankingHeap.newRankingHeap n)).heap with
        | nil => rw [heap] at heapMem; simp at heapMem
        | cons first rest => exact ⟨first, rfl⟩
      exact lt_of_le_of_lt (le_top inv.descending heapMem isTop) (below top isTop)
  · have inv : Unbounded (firstWrite itrs) (fun k => ∃ itr ∈ itrs, ∃ w, (k, w) ∈ itr)
        (itrs.foldl RankingHeap.itr2Heap (RankingHeap.newRankingHeap rangeNumber)) := by
      refine foldl_itr2Heap_keeps itrs ascending (fun seen r itr keeps _ first => ?_)
        (fun _ _ _ same keeps => keeps.congr same) ?_
      · rw [RankingHeap.itr2Heap, if_pos keeps.bound]
        exact keeps.itr2HeapUnlimited first
      · refine ⟨not_lt.mp bounded, List.Pairwise.nil, ?_, ?_, ?_⟩ <;>
          simp [RankingHeap.newRankingHeap]
    rw [select, if_neg bounded]
    refine SortedMap.eq_of_mem_iff (List.pairwise_reverse.mpr inv.descending) sorted fun e => ?_
    rw [List.mem_reverse, members]
    constructor
    · intro kept
      exact (inv.kept e kept).2
    · rintro ⟨read, nonempty⟩
      exact inv.complete e.1 e.2 (mem_of_firstWrite read) read nonempty


end Snapshotdb
end Bubble
