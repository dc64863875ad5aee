import Mathlib
import Bubble.Snapshotdb.Heap
import Bubble.Snapshotdb.Read

/-!
# Ranking

`Ranking` of `core/snapshotdb/snapshotdb.go`: from a block's hash, the iterators over the keys
with a prefix in the uncommitted blocks along parents, then in the committed blocks from the
newest that continue the walk, then in the base, are filled into a `rankingHeap` of at most
`rangeNumber` pairs, which is popped into a memory database whose iterator `Ranking` returns.

From a live block of a sound database, with no record key in range, `Ranking` iterates, in key
order, the keys in range whose last write along the committed blocks and the walk is not empty,
with that write, and the first `rangeNumber` of them when it is positive (`ranking_of_chain`).
What `Get` reads from the block, and that `Compaction` changes none of it, come from
`Snapshotdb.Read`; `read_semantics` gathers the three for the runs the read semantics speaks of.
-/

namespace Bubble
namespace Snapshotdb

open SortedMap (lastWrite flatten)

variable {κ : Type} [LinearOrder κ] (layout : Layout κ)

/-- What `Ranking` should read: the keys in range whose last write in `layers` is not empty, in
key order, with that write, and the first `rangeNumber` of them when it is positive. -/
def rankingSpec (layers : List (MemDB κ)) (inRange : κ → Bool) (rangeNumber : ℤ) :
    List (κ × List UInt8) :=
  select rangeNumber ((flatten layers).entries.filter fun e => inRange e.1 && !e.2.isEmpty)

namespace SnapshotDB

/-- The loop of `Ranking` over the committed blocks from the newest: a block joins when its hash
is `hash` or the parent hash reached so far. -/
def rankCommitted (hash : Hash) : Hash → List (BlockData κ) → List (BlockData κ)
  | _, [] => []
  | parentHash, block :: rest =>
    if block.blockHash = hash ∨ block.blockHash = parentHash then
      block :: rankCommitted hash block.parentHash rest
    else rankCommitted hash parentHash rest

variable (s : SnapshotDB κ)

/-- The loop of `Ranking` over the uncommitted blocks from `hash` along parents, allowed `fuel`
blocks: the blocks met, newest first, and the hash it stops at; `none` is a walk longer than the
blocks there are, which goes round a cycle for ever. -/
def rankUnCommit : ℕ → Hash → Option (List (BlockData κ) × Hash)
  | 0, _ => none
  | fuel + 1, hash =>
    match s.findBlock hash with
    | none => some ([], hash)
    | some block =>
      (rankUnCommit fuel block.parentHash).map fun walked => (block :: walked.1, walked.2)

/-- `Ranking` of the keys in `inRange`, those with the prefix, from `hash`: the pairs the
returned iterator goes through, in key order. -/
def ranking (hash : Hash) (inRange : κ → Bool) (rangeNumber : ℤ) :
    Option (List (κ × List UInt8)) :=
  (s.rankUnCommit (s.unCommit.length + 1) hash).map fun walked =>
    let itrs := (walked.1 ++ rankCommitted hash walked.2 s.committed.reverse).map fun block =>
      block.data.entries.filter fun e => inRange e.1
    let rankingHeap := itrs.foldl RankingHeap.itr2Heap (RankingHeap.newRankingHeap rangeNumber)
    let rankingHeap := rankingHeap.itr2Heap ((s.baseDB.entries.filter fun e => inRange e.1).map
      fun e => (e.1, e.2.toBytes layout.keyBytes))
    (rankingHeap.heap.foldl (fun mdb kv => mdb.put kv.1 kv.2) (SortedMap.empty : MemDB κ)).entries

/-! ## The walks of `Ranking` -/

variable {s}

theorem rankUnCommit_of_chain {hash : Hash} {path : List (BlockData κ)} (chain : s.Chain hash path)
    {fuel : ℕ} (enough : path.length < fuel) :
    s.rankUnCommit fuel hash = some (path, s.highest.2) := by
  induction chain generalizing fuel with
  | head absent =>
    obtain ⟨fuel, rfl⟩ : ∃ f, fuel = f + 1 := ⟨fuel - 1, by simp at enough; omega⟩
    simp [rankUnCommit, absent]
  | block found _ ih =>
    obtain ⟨fuel, rfl⟩ : ∃ f, fuel = f + 1 := ⟨fuel - 1, by simp at enough; omega⟩
    simp [rankUnCommit, found, ih (by simpa using enough)]

theorem rankCommitted_linked (hash : Hash) (committed : List (BlockData κ)) :
    ∀ parentHash, committed.IsChain (fun a b => b.parentHash = a.blockHash) →
      (∀ c ∈ committed.getLast?, c.blockHash = parentHash) →
      rankCommitted hash parentHash committed.reverse = committed.reverse := by
  induction committed using List.reverseRecOn with
  | nil => intros; rfl
  | append_singleton committed block ih =>
    intro parentHash linked last
    rw [List.isChain_append] at linked
    have onTop : block.blockHash = parentHash := last block (by simp)
    rw [List.reverse_append, List.reverse_singleton, List.singleton_append, rankCommitted,
      if_pos (.inr onTop)]
    refine congrArg _ (ih block.parentHash linked.1 fun c lastOne => ?_)
    exact (linked.2.2 c lastOne block (by simp)).symm

/-! ## What `Ranking` reads -/

theorem firstWrite_blocks (blocks : List (BlockData κ)) (inRange : κ → Bool) (k : κ) :
    firstWrite (blocks.map fun b => b.data.entries.filter fun e => inRange e.1) k =
      if inRange k then blocks.findSome? (fun b => b.data.get k) else none := by
  simp only [firstWrite, List.findSome?_map, Function.comp_def, SortedMap.lookup_filter_key]
  split_ifs
  · rfl
  · simp

theorem entries_foldl_put {heap : List (κ × List UInt8)}
    (ascending : heap.reverse.Pairwise fun a b => a.1 < b.1) :
    (heap.foldl (fun mdb kv => mdb.put kv.1 kv.2) (SortedMap.empty : MemDB κ)).entries =
      heap.reverse := by
  have distinct : heap.Pairwise fun a b => a.1 ≠ b.1 :=
    (List.pairwise_reverse.mp ascending).imp fun lt => (ne_of_lt lt).symm
  have reads : ∀ (m : MemDB κ) (e : κ × List UInt8) k,
      (m.put e.1 e.2).get k = if e.1 = k then some e.2 else m.get k := fun m e k =>
    SortedMap.get_put ..
  refine SortedMap.eq_of_mem_iff (SortedMap.sorted _) ascending fun e => ?_
  rw [SortedMap.mem_entries_iff, SortedMap.get_foldl_of_distinct reads distinct, List.mem_reverse,
    ← SortedMap.lookup_eq_some_iff distinct]
  cases SortedMap.lookup e.1 heap <;> simp

theorem or_filter_nonempty (newer older : Option (List UInt8)) (v : List UInt8) :
    ((newer.or (older.filter fun w => !w.isEmpty)) = some v ∧ v ≠ []) ↔
      (newer.or older = some v ∧ v ≠ []) := by
  cases newer with
  | some w => simp
  | none =>
    cases older with
    | none => simp
    | some w =>
      by_cases empty : w = [] <;> simp [Option.filter_some, empty]

variable {blocks : List (BlockData κ)}

/-- From a live block of a sound database, with no record key in range, `Ranking` iterates the
keys in range whose last write along the committed blocks and the walk is not empty, with that
write, and the first `rangeNumber` of them when it is positive. -/
theorem ranking_of_chain (sound : s.Sound layout blocks) {hash : Hash}
    {path : List (BlockData κ)} (chain : s.Chain hash path) {inRange : κ → Bool}
    (users : ∀ k, inRange k = true → ¬ layout.IsRecord k) (rangeNumber : ℤ) :
    s.ranking layout hash inRange rangeNumber =
      some (rankingSpec ((blocks ++ path.reverse).map BlockData.data) inRange rangeNumber) := by
  obtain ⟨⟨⟨compacted, split, holds⟩, _, linked, last⟩, _⟩ := sound
  rw [ranking, rankUnCommit_of_chain chain (Nat.lt_succ_of_le chain.length_le), Option.map_some,
    rankCommitted_linked hash s.committed s.highest.2 linked last]
  have filled : ∀ (itrs : List (List (κ × List UInt8))) (base : List (κ × List UInt8)),
      (itrs.foldl RankingHeap.itr2Heap (RankingHeap.newRankingHeap rangeNumber)).itr2Heap base =
        (itrs ++ [base]).foldl RankingHeap.itr2Heap (RankingHeap.newRankingHeap rangeNumber) := by
    simp [List.foldl_append]
  simp only [filled]
  generalize itrsDef : (path ++ s.committed.reverse).map (fun block =>
      block.data.entries.filter fun e => inRange e.1) ++
    [(s.baseDB.entries.filter fun e => inRange e.1).map
      fun e => (e.1, e.2.toBytes layout.keyBytes)] = itrs
  have ascending : ∀ itr ∈ itrs, itr.Pairwise fun a b => a.1 < b.1 := by
    intro itr mem
    rw [← itrsDef] at mem
    simp only [List.mem_append, List.mem_map, List.mem_singleton] at mem
    rcases mem with ⟨block, _, rfl⟩ | rfl
    · exact block.data.sorted.filter _
    · exact List.Pairwise.map _ (fun _ _ lt => lt) (s.baseDB.sorted.filter _)
  have reads : ∀ k, firstWrite itrs k = if inRange k then
      (lastWrite ((s.committed ++ path.reverse).map BlockData.data) k).or
        ((lastWrite (compacted.map BlockData.data) k).filter fun v => !v.isEmpty) else none := by
    intro k
    rw [← itrsDef, firstWrite, List.findSome?_append, ← firstWrite, firstWrite_blocks,
      SortedMap.lastWrite_map, List.reverse_append, List.reverse_reverse]
    simp only [List.findSome?_cons, List.findSome?_nil, SortedMap.lookup_map_value,
      SortedMap.lookup_filter_key]
    split_ifs with inside
    · have base := holds k (users k inside)
      simp only [SortedMap.get] at base
      rw [base]
      cases (List.findSome? (fun b => b.data.get k) (path ++ s.committed.reverse)) <;>
        cases (lastWrite (compacted.map BlockData.data) k).filter fun v => !v.isEmpty <;> rfl
    · simp
  have candidates := foldl_itr2Heap itrs ascending rangeNumber
    (((flatten ((blocks ++ path.reverse).map BlockData.data)).sorted).filter
      fun e => inRange e.1 && !e.2.isEmpty) fun e => by
    rw [List.mem_filter, SortedMap.mem_entries_iff, SortedMap.get_flatten, reads, split,
      List.append_assoc, List.map_append, SortedMap.lastWrite_append]
    by_cases inside : inRange e.1
    · simp only [inside, if_true, Bool.true_and, Bool.not_eq_true', List.isEmpty_eq_false_iff]
      rw [or_filter_nonempty]
    · simp [inside]
  have ascending : (itrs.foldl RankingHeap.itr2Heap
      (RankingHeap.newRankingHeap rangeNumber)).heap.reverse.Pairwise fun a b => a.1 < b.1 := by
    rw [candidates]
    exact (((flatten _).sorted).filter _).sublist (select_sublist _ _)
  rw [entries_foldl_put ascending, candidates, rankingSpec]

end SnapshotDB

/-! ## The read semantics -/

variable (generateKVHash : κ → List UInt8 → Hash → Hash)

/-- The read semantics of the snapshot database, over the runs that keep to it: from a live
block, `Get` of a user key reads the last write to it along the committed blocks and the walk, and
`ErrNotFound` when that write is empty or there is none; `Compaction` changes no such read; and
`Ranking` of a range with no record key in it iterates, in key order, the keys whose read
succeeds, with the values read, the first `rangeNumber` of them when it is positive. -/
theorem read_semantics {s : SnapshotDB κ} {blocks : List (BlockData κ)}
    (run : SnapshotDB.ProperRun layout generateKVHash s blocks) {hash : Hash}
    {path : List (BlockData κ)} (chain : s.Chain hash path) :
    (∀ key, ¬ layout.IsRecord key →
      s.get layout hash key =
        some (readValue (lastWrite ((blocks ++ path.reverse).map BlockData.data) key)) ∧
      ∀ chainHead, (s.compaction layout chainHead).get layout hash key = s.get layout hash key) ∧
    ∀ inRange rangeNumber, (∀ k, inRange k = true → ¬ layout.IsRecord k) →
      s.ranking layout hash inRange rangeNumber =
        some (rankingSpec ((blocks ++ path.reverse).map BlockData.data) inRange rangeNumber) := by
  have sound := run.sound
  refine ⟨fun key user => ⟨s.get_of_chain layout sound.1.represents chain user, fun chainHead =>
    SnapshotDB.get_compaction_of_chain layout sound chain user chainHead⟩,
    fun inRange rangeNumber users => SnapshotDB.ranking_of_chain layout sound chain users rangeNumber⟩

/-- Block 1, made on the head of a fresh database, writes keys 4 and 6 and is committed; block 2,
made on it, writes key 4 again.  From block 2, `Get` reads key 4's write in block 2 and key 6's in
the committed block 1, and `Compaction` leaves the read of key 4 as it is. -/
theorem read_semantics_two_blocks :
    ∃ (s : SnapshotDB ℕ) (blocks path : List (BlockData ℕ)),
      SnapshotDB.ProperRun numberedLayout (fun _ _ kvHash => kvHash) s blocks ∧
      s.Chain blockTwoHash path ∧
      s.get numberedLayout blockTwoHash 4 = some (.ok [2]) ∧
      s.get numberedLayout blockTwoHash 6 = some (.ok [5]) ∧
      (s.compaction numberedLayout none).get numberedLayout blockTwoHash 4 = some (.ok [2]) := by
  obtain ⟨s, blocks, path, run, chain, four, six⟩ : ∃ (s : SnapshotDB ℕ) (blocks path : List (BlockData ℕ)),
      SnapshotDB.ProperRun numberedLayout (fun _ _ kvHash => kvHash) s blocks ∧
      s.Chain blockTwoHash path ∧
      readValue (lastWrite ((blocks ++ path.reverse).map BlockData.data) 4) = .ok [2] ∧
      readValue (lastWrite ((blocks ++ path.reverse).map BlockData.data) 6) = .ok [5] :=
    ⟨_, _, _,
      .step (.put blockTwoHash 4 [2])
        (.step (.newBlock 2 blockOneHash blockTwoHash)
          (.step (.commit blockOneHash)
            (.step (.put blockOneHash 6 [5])
              (.step (.put blockOneHash 4 [1])
                (.step (.newBlock 1 zeroHash blockOneHash) .openFresh
                  ⟨⟨by decide, by decide⟩, by decide, fun _ => rfl, fun _ found => by cases found⟩
                  rfl)
                trivial rfl)
              trivial rfl)
            (fun _ found => by cases found; exact .inr rfl) rfl)
          ⟨⟨by decide, by decide⟩, by decide, fun _ => rfl, fun _ found => by cases found⟩ rfl)
        trivial rfl,
      .block rfl (.head rfl), rfl, rfl⟩
  have user : ∀ k, k = 4 ∨ k = 6 → ¬ numberedLayout.IsRecord k := by
    rintro k (rfl | rfl) (same | same | same | ⟨n, same⟩) <;> simp [numberedLayout] at same
    omega
  have reads := (read_semantics numberedLayout _ run chain).1
  obtain ⟨readsFour, compacted⟩ := reads 4 (user 4 (.inl rfl))
  refine ⟨s, blocks, path, run, chain, by rw [readsFour, four], ?_, ?_⟩
  · rw [(reads 6 (user 6 (.inr rfl))).1, six]
  · rw [compacted none, readsFour, four]

end Snapshotdb
end Bubble
