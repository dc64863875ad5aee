import Bubble.Slashing.Digest
import Bubble.Lib.Keyed

/-!
# The evidence pool

`baseEvidencePool` of `consensus/cbft/evidence/evidencePool.go` and the number-ordered lists of
`evidence.go`.  For each signer identity (`"epoch|view|index"`) the pool keeps the first proposal
of each block number, the first vote of each block number and the first view change of the view;
a later message of the same signer and number (for view changes, of the same view) with another
block makes a duplicate pair, which goes to the evidence database and back to the caller.  The
pair is ordered by block hash, smaller first; on equal hashes the new message comes first.

The lists are sorted by view number after each insertion; every entry of one identity's list has
that identity's view, and a list holds one entry of each key, so the order `find` meets them in
does not matter and the model keeps them in arrival order.  Writing to the evidence database does
not fail.
-/

namespace Bubble
namespace Slashing

open Cbft Rlp

variable {Blk ε Key Signature : Type}

/-- `evidence.Identity` of a message: its epoch, view and signer index, which `verifyIdentity`
prints as `"epoch|view|index"`, one string for each triple. -/
structure Identity where
  epoch : UInt64
  viewNumber : UInt64
  index : UInt32
  deriving DecidableEq

/-- The messages the pool takes. -/
inductive ConsensusMsg (Blk Signature : Type)
  | prepareBlock (pb : PrepareBlock Blk Signature)
  | prepareVote (pv : PrepareVote Signature)
  | viewChange (vc : ViewChange Signature)

/-- `verifyIdentity`. -/
def verifyIdentity : ConsensusMsg Blk Signature → Identity
  | .prepareBlock pb => ⟨pb.epoch, pb.viewNumber, pb.proposalIndex⟩
  | .prepareVote pv => ⟨pv.epoch, pv.viewNumber, pv.validatorIndex⟩
  | .viewChange vc => ⟨vc.epoch, vc.viewNumber, vc.validatorIndex⟩

/-! ## Number-ordered lists -/

/-- The pair `Add` returns: ordered by block hash as big integers, the smaller first, and the new
message `m` first when the hashes are equal. -/
def orderPair {M : Type} (blockHash : M → Hash) (m stored : M) : M × M :=
  if (BitVec.toNat (blockHash m)) > BitVec.toNat (blockHash stored) then (stored, m) else (m, stored)

/-- The `Add` of a number-ordered list of one signer's messages: the new message is compared with
the stored one of its key; the two make a pair when they `conflict`, and a message of a new key is
stored. -/
def orderedAdd {M κ : Type} [DecidableEq κ] (key : M → κ) (blockHash : M → Hash)
    (conflict : M → M → Bool) (l : List M) (m : M) : List M × Option (M × M) :=
  match Keyed.find key l (key m) with
  | some ev => (l, if conflict ev m then some (orderPair blockHash m ev) else none)
  | none => (l ++ [m], none)

/-- What `find` of `NumberOrderPrepareBlock` compares: epoch, view and block number. -/
def EvidencePrepare.key (ep : EvidencePrepare Key Signature) : UInt64 × UInt64 × UInt64 :=
  (ep.epoch, ep.viewNumber, ep.blockNumber)

/-- What `find` of `NumberOrderPrepareVote` compares: epoch, view and block number. -/
def EvidenceVote.key (ev : EvidenceVote Key Signature) : UInt64 × UInt64 × UInt64 :=
  (ev.epoch, ev.viewNumber, ev.blockNumber)

/-- What `find` of `NumberOrderViewChange` compares: epoch and view. -/
def EvidenceView.key (ev : EvidenceView Key Signature) : UInt64 × UInt64 :=
  (ev.epoch, ev.viewNumber)

/-- `NumberOrderPrepareBlock.Add`: two proposals of one number conflict on their hashes. -/
def NumberOrderPrepareBlock.add (l : List (EvidencePrepare Key Signature))
    (pb : EvidencePrepare Key Signature) :
    List (EvidencePrepare Key Signature) × Option (EvidencePrepare Key Signature × EvidencePrepare Key Signature) :=
  orderedAdd EvidencePrepare.key (·.blockHash) (fun ev pb => ev.blockHash != pb.blockHash) l pb

/-- `NumberOrderPrepareVote.Add`: two votes of one number conflict on their hashes. -/
def NumberOrderPrepareVote.add (l : List (EvidenceVote Key Signature))
    (pv : EvidenceVote Key Signature) :
    List (EvidenceVote Key Signature) × Option (EvidenceVote Key Signature × EvidenceVote Key Signature) :=
  orderedAdd EvidenceVote.key (·.blockHash) (fun ev pv => ev.blockHash != pv.blockHash) l pv

/-- `NumberOrderViewChange.Add`: two view changes of one view conflict on their block numbers or
on their hashes. -/
def NumberOrderViewChange.add (l : List (EvidenceView Key Signature))
    (vc : EvidenceView Key Signature) :
    List (EvidenceView Key Signature) × Option (EvidenceView Key Signature × EvidenceView Key Signature) :=
  orderedAdd EvidenceView.key (·.blockHash)
    (fun ev vc => ev.blockNumber != vc.blockNumber || ev.blockHash != vc.blockHash) l vc

/-- `PrepareBlockEvidence.Add` and its kin: the signer's list takes the message, and the pair it
makes, if any, is returned. -/
def addToMap {M : Type} (add : List M → M → List M × Option (M × M)) (lists : Identity → List M)
    (m : M) (id : Identity) : (Identity → List M) × Option (M × M) :=
  let (l, dup) := add (lists id) m
  (Function.update lists id l, dup)

/-! ## Ordering a pair -/

section Ordered

variable {M κ : Type} [DecidableEq κ] (key : M → κ) (blockHash : M → Hash)
  (conflict : M → M → Bool)

theorem orderedAdd_fst (l : List M) (m : M) :
    (orderedAdd key blockHash conflict l m).1 = Keyed.insertNew key l m := by
  unfold orderedAdd Keyed.insertNew
  cases Keyed.find key l (key m) <;> rfl

theorem orderedAdd_snd (l : List M) (m : M) :
    (orderedAdd key blockHash conflict l m).2 = (Keyed.find key l (key m)).bind
      fun ev => if conflict ev m then some (orderPair blockHash m ev) else none := by
  unfold orderedAdd
  cases Keyed.find key l (key m) <;> rfl

theorem orderedAdd_snd_foldl (earlier : List M) (m : M) :
    (orderedAdd key blockHash conflict (earlier.foldl (Keyed.insertNew key) []) m).2 =
      (Keyed.find key earlier (key m)).bind
        fun ev => if conflict ev m then some (orderPair blockHash m ev) else none := by
  rw [orderedAdd_snd, Keyed.find_foldl_insertNew]

end Ordered

/-! ## The pool and its database -/

/-- `DuplicatePrepareBlockEvidence` and its kin: the epoch and view of the first message. -/
def Evidence.epoch : Evidence Key Signature → UInt64
  | .duplicatePrepareBlock prepareA _ => prepareA.epoch
  | .duplicatePrepareVote voteA _ => voteA.epoch
  | .duplicateViewChange viewA _ => viewA.epoch

def Evidence.viewNumber : Evidence Key Signature → UInt64
  | .duplicatePrepareBlock prepareA _ => prepareA.viewNumber
  | .duplicatePrepareVote voteA _ => voteA.viewNumber
  | .duplicateViewChange viewA _ => viewA.viewNumber

/-- The hash `Hash` takes of two signed messages: of the list of the first's bytes and signature
and the second's. -/
def pairHash (keccak256 : List UInt8 → Hash) (first firstSign second secondSign : List UInt8) :
    List UInt8 :=
  (keccak256 (encodeToBytes (.list [.bytes first, .bytes firstSign, .bytes second, .bytes secondSign]))).bytes

/-- `Hash` of the three kinds of evidence; `sigBytes` is `Signature.Bytes`. -/
def Evidence.hash (keccak256 : List UInt8 → Hash) (sigBytes : Signature → List UInt8) :
    Evidence Key Signature → List UInt8
  | .duplicatePrepareBlock a b =>
      pairHash keccak256 (a.cannibalizeBytes.digest keccak256) (sigBytes a.signature)
        (b.cannibalizeBytes.digest keccak256) (sigBytes b.signature)
  | .duplicatePrepareVote a b =>
      pairHash keccak256 (a.cannibalizeBytes.digest keccak256) (sigBytes a.signature)
        (b.cannibalizeBytes.digest keccak256) (sigBytes b.signature)
  | .duplicateViewChange a b =>
      pairHash keccak256 (a.cannibalizeBytes.digest keccak256) (sigBytes a.signature)
        (b.cannibalizeBytes.digest keccak256) (sigBytes b.signature)

/-- `prepareDualPrefix`, `voteDualPrefix` and `viewDualPrefix`. -/
def dualPrefix : Evidence Key Signature → UInt8
  | .duplicatePrepareBlock _ _ => 0x1
  | .duplicatePrepareVote _ _ => 0x2
  | .duplicateViewChange _ _ => 0x3

/-- A key of the evidence database: the prefix, eight bytes each of epoch, view and block number,
the identity and the hash.  All parts but the identity have fixed widths, so the bytes are these
parts. -/
structure DbKey where
  dualPrefix : UInt8
  epoch : UInt64
  viewNumber : UInt64
  blockNumber : UInt64
  identity : Identity
  hash : List UInt8
  deriving DecidableEq

/-- `encodeKey`. -/
def encodeKey (keccak256 : List UInt8 → Hash) (sigBytes : Signature → List UInt8)
    (e : Evidence Key Signature) (id : Identity) : DbKey :=
  ⟨dualPrefix e, e.epoch, e.viewNumber, e.blockNumber, id, e.hash keccak256 sigBytes⟩

/-- `baseEvidencePool`: the three maps of first messages and the evidence database. -/
structure EvidencePool (Key Signature : Type) where
  pb : Identity → List (EvidencePrepare Key Signature)
  pv : Identity → List (EvidenceVote Key Signature)
  vc : Identity → List (EvidenceView Key Signature)
  db : List (DbKey × Evidence Key Signature)

/-- `NewBaseEvidencePool`: empty maps, and the database as the node left it. -/
def EvidencePool.empty (db : List (DbKey × Evidence Key Signature)) : EvidencePool Key Signature :=
  ⟨fun _ => [], fun _ => [], fun _ => [], db⟩

/-- What the pool reads of the environment: Keccak-256, the block codec and `Signature.Bytes`. -/
structure PoolEnv (Blk ε Signature : Type) where
  keccak256 : List UInt8 → Hash
  codec : BlockCodec Blk ε
  sigBytes : Signature → List UInt8

/-- Why the `Add` methods of the pool return an error. -/
inductive AddError (Key Signature : Type)
  /-- `cannibalize bytes error`. -/
  | cannibalizeBytes
  /-- The duplicate evidence the message makes. -/
  | duplicate (evidence : Evidence Key Signature)

namespace EvidencePool

variable (env : PoolEnv Blk ε Signature)

/-- `commit`: store the evidence under its key unless the key is there. -/
def commit (pool : EvidencePool Key Signature) (e : Evidence Key Signature) (id : Identity) :
    EvidencePool Key Signature :=
  let key := encodeKey env.keccak256 env.sigBytes e id
  if pool.db.any (·.1 == key) then pool else { pool with db := pool.db ++ [(key, e)] }

/-- What `AddPrepareBlock` and its kin do once the pair is known: a pair is committed and
returned as the error. -/
def settle (pool : EvidencePool Key Signature) (id : Identity) :
    Option (Evidence Key Signature) → EvidencePool Key Signature × Except (AddError Key Signature) Unit
  | some e => (pool.commit env e id, .error (.duplicate e))
  | none => (pool, .ok ())

/-- `AddPrepareBlock`. -/
def addPrepareBlock (pool : EvidencePool Key Signature) (pb : PrepareBlock Blk Signature)
    (node : ValidateNode Key) : EvidencePool Key Signature × Except (AddError Key Signature) Unit :=
  let id := verifyIdentity (.prepareBlock pb)
  match newEvidencePrepare env.keccak256 env.codec pb node with
  | .error _ => (pool, .error .cannibalizeBytes)
  | .ok evidencePrepare =>
      let (pb, dup) := addToMap NumberOrderPrepareBlock.add pool.pb evidencePrepare id
      settle env { pool with pb } id (dup.map fun (a, b) => .duplicatePrepareBlock a b)

/-- `AddPrepareVote`. -/
def addPrepareVote (pool : EvidencePool Key Signature) (pv : PrepareVote Signature)
    (node : ValidateNode Key) : EvidencePool Key Signature × Except (AddError Key Signature) Unit :=
  let id := verifyIdentity (.prepareVote pv : ConsensusMsg Blk Signature)
  let (pv, dup) := addToMap NumberOrderPrepareVote.add pool.pv (newEvidenceVote pv node) id
  settle env { pool with pv } id (dup.map fun (a, b) => .duplicatePrepareVote a b)

/-- `AddViewChange`. -/
def addViewChange (pool : EvidencePool Key Signature) (vc : ViewChange Signature)
    (node : ValidateNode Key) : EvidencePool Key Signature × Except (AddError Key Signature) Unit :=
  let id := verifyIdentity (.viewChange vc : ConsensusMsg Blk Signature)
  let (vc, dup) := addToMap NumberOrderViewChange.add pool.vc (newEvidenceView vc node) id
  settle env { pool with vc } id (dup.map fun (a, b) => .duplicateViewChange a b)

/-- `Cbft.doubtDuplicate` on a message whose signer `GetValidatorByIndex` found: the message goes
to the pool's `Add` of its kind. -/
def add (validatorByIndex : UInt64 → UInt32 → ValidateNode Key) (pool : EvidencePool Key Signature) :
    ConsensusMsg Blk Signature → EvidencePool Key Signature × Except (AddError Key Signature) Unit
  | .prepareBlock pb => pool.addPrepareBlock env pb (validatorByIndex pb.epoch pb.proposalIndex)
  | .prepareVote pv => pool.addPrepareVote env pv (validatorByIndex pv.epoch pv.validatorIndex)
  | .viewChange vc => pool.addViewChange env vc (validatorByIndex vc.epoch vc.validatorIndex)

/-- A run of `add` calls: the pool at the end and the result of each call. -/
def run (validatorByIndex : UInt64 → UInt32 → ValidateNode Key) :
    List (ConsensusMsg Blk Signature) → EvidencePool Key Signature →
      EvidencePool Key Signature × List (Except (AddError Key Signature) Unit)
  | [], pool => (pool, [])
  | msg :: msgs, pool =>
      let (pool, result) := pool.add env validatorByIndex msg
      let (pool, results) := run validatorByIndex msgs pool
      (pool, result :: results)

/-! ## What a call leaves in the signer's lists -/

@[simp]
theorem commit_pb (pool : EvidencePool Key Signature) (e : Evidence Key Signature) (id : Identity) :
    (pool.commit env e id).pb = pool.pb := by
  dsimp only [commit]
  split_ifs <;> rfl

@[simp]
theorem commit_vc (pool : EvidencePool Key Signature) (e : Evidence Key Signature) (id : Identity) :
    (pool.commit env e id).vc = pool.vc := by
  dsimp only [commit]
  split_ifs <;> rfl

@[simp]
theorem settle_fst_pb (pool : EvidencePool Key Signature) (id : Identity)
    (dup : Option (Evidence Key Signature)) : (settle env pool id dup).1.pb = pool.pb := by
  cases dup <;> simp [settle]

@[simp]
theorem settle_fst_vc (pool : EvidencePool Key Signature) (id : Identity)
    (dup : Option (Evidence Key Signature)) : (settle env pool id dup).1.vc = pool.vc := by
  cases dup <;> simp [settle]

theorem settle_snd (pool : EvidencePool Key Signature) (id : Identity)
    (dup : Option (Evidence Key Signature)) :
    (settle env pool id dup).2 = match dup with
      | some e => .error (.duplicate e)
      | none => .ok () := by
  cases dup <;> rfl

variable (validatorByIndex : UInt64 → UInt32 → ValidateNode Key)

/-- The evidence `AddPrepareBlock` stores of a message in the list of `id`, if it takes it. -/
def preparedBy (msg : ConsensusMsg Blk Signature) (id : Identity) :
    Option (EvidencePrepare Key Signature) :=
  match msg with
  | .prepareBlock pb =>
      if verifyIdentity msg = id then
        (newEvidencePrepare env.keccak256 env.codec pb
          (validatorByIndex pb.epoch pb.proposalIndex)).toOption
      else none
  | _ => none

/-- The evidence `AddViewChange` stores of a message in the list of `id`, if it takes it. -/
def viewedBy (msg : ConsensusMsg Blk Signature) (id : Identity) :
    Option (EvidenceView Key Signature) :=
  match msg with
  | .viewChange vc =>
      if verifyIdentity msg = id then some (newEvidenceView vc (validatorByIndex vc.epoch vc.validatorIndex))
      else none
  | _ => none

theorem add_pb (pool : EvidencePool Key Signature) (msg : ConsensusMsg Blk Signature)
    (id : Identity) :
    (pool.add env validatorByIndex msg).1.pb id =
      (preparedBy env validatorByIndex msg id).toList.foldl (Keyed.insertNew EvidencePrepare.key)
        (pool.pb id) := by
  cases msg with
  | prepareBlock pb =>
    cases built : newEvidencePrepare env.keccak256 env.codec pb
        (validatorByIndex pb.epoch pb.proposalIndex) with
    | error failure => simp [add, addPrepareBlock, preparedBy, built, Except.toOption]
    | ok e =>
      by_cases mine : verifyIdentity (.prepareBlock pb : ConsensusMsg Blk Signature) = id
      · subst mine
        simp [add, addPrepareBlock, preparedBy, built, addToMap, NumberOrderPrepareBlock.add,
          orderedAdd_fst, Except.toOption]
      · simp [add, addPrepareBlock, preparedBy, built, addToMap, mine,
          Function.update_of_ne (Ne.symm mine)]
  | prepareVote pv => simp [add, addPrepareVote, preparedBy, addToMap]
  | viewChange vc => simp [add, addViewChange, preparedBy, addToMap]

theorem add_vc (pool : EvidencePool Key Signature) (msg : ConsensusMsg Blk Signature)
    (id : Identity) :
    (pool.add env validatorByIndex msg).1.vc id =
      (viewedBy validatorByIndex msg id).toList.foldl (Keyed.insertNew EvidenceView.key)
        (pool.vc id) := by
  cases msg with
  | prepareBlock pb =>
    cases built : newEvidencePrepare env.keccak256 env.codec pb
        (validatorByIndex pb.epoch pb.proposalIndex) <;>
      simp [add, addPrepareBlock, viewedBy, addToMap, built]
  | prepareVote pv => simp [add, addPrepareVote, viewedBy, addToMap]
  | viewChange vc =>
    by_cases mine : verifyIdentity (.viewChange vc : ConsensusMsg Blk Signature) = id
    · subst mine
      simp [add, addViewChange, viewedBy, addToMap, NumberOrderViewChange.add, orderedAdd_fst]
    · simp [add, addViewChange, viewedBy, addToMap, mine, Function.update_of_ne (Ne.symm mine)]

theorem run_lists {M κ : Type} [DecidableEq κ] (key : M → κ)
    (select : EvidencePool Key Signature → Identity → List M)
    (taken : ConsensusMsg Blk Signature → Identity → Option M)
    (step : ∀ pool msg id, select (pool.add env validatorByIndex msg).1 id =
      (taken msg id).toList.foldl (Keyed.insertNew key) (select pool id)) :
    ∀ msgs pool id, select (run env validatorByIndex msgs pool).1 id =
      (msgs.filterMap (taken · id)).foldl (Keyed.insertNew key) (select pool id) := by
  intro msgs
  induction msgs with
  | nil => intro pool id; rfl
  | cons msg msgs ih =>
    intro pool id
    simp only [run]
    rw [ih, step, List.filterMap_cons]
    cases taken msg id <;> rfl

/-! ## What a call returns -/

theorem add_prepareBlock_snd (pool : EvidencePool Key Signature) (pb : PrepareBlock Blk Signature)
    {e : EvidencePrepare Key Signature}
    (built : newEvidencePrepare env.keccak256 env.codec pb
      (validatorByIndex pb.epoch pb.proposalIndex) = .ok e) :
    (pool.add env validatorByIndex (.prepareBlock pb)).2 =
      match (NumberOrderPrepareBlock.add (pool.pb (verifyIdentity (.prepareBlock pb))) e).2 with
      | some (a, b) => .error (.duplicate (.duplicatePrepareBlock a b))
      | none => .ok () := by
  simp only [add, addPrepareBlock, built, addToMap, settle_snd]
  cases (NumberOrderPrepareBlock.add (pool.pb (verifyIdentity (.prepareBlock pb))) e).2 <;> rfl

theorem add_viewChange_snd (pool : EvidencePool Key Signature) (vc : ViewChange Signature) :
    (pool.add env validatorByIndex (.viewChange vc)).2 =
      match (NumberOrderViewChange.add (pool.vc (verifyIdentity (.viewChange vc : ConsensusMsg Blk Signature)))
          (newEvidenceView vc (validatorByIndex vc.epoch vc.validatorIndex))).2 with
      | some (a, b) => .error (.duplicate (.duplicateViewChange a b))
      | none => .ok () := by
  simp only [add, addViewChange, addToMap, settle_snd]
  cases (NumberOrderViewChange.add (pool.vc (verifyIdentity (.viewChange vc : ConsensusMsg Blk Signature)))
    (newEvidenceView vc (validatorByIndex vc.epoch vc.validatorIndex))).2 <;> rfl

/-- After any run from a fresh pool, a proposal meets the first earlier proposal of its signer and
number; with another block the call returns the two, ordered by block hash. -/
theorem run_prepareBlock_detects (db : List (DbKey × Evidence Key Signature))
    (earlier : List (ConsensusMsg Blk Signature)) (pb : PrepareBlock Blk Signature)
    {first e : EvidencePrepare Key Signature}
    (built : newEvidencePrepare env.keccak256 env.codec pb
      (validatorByIndex pb.epoch pb.proposalIndex) = .ok e)
    (found : Keyed.find EvidencePrepare.key
      (earlier.filterMap (preparedBy env validatorByIndex · (verifyIdentity (.prepareBlock pb))))
        e.key = some first)
    (differ : first.blockHash ≠ e.blockHash) :
    ((run env validatorByIndex earlier (.empty db)).1.add env validatorByIndex (.prepareBlock pb)).2 =
      .error (.duplicate (.duplicatePrepareBlock (orderPair (·.blockHash) e first).1
        (orderPair (·.blockHash) e first).2)) := by
  have kept := run_lists env validatorByIndex EvidencePrepare.key (·.pb) (preparedBy env validatorByIndex)
    (add_pb env validatorByIndex) earlier (.empty db) (verifyIdentity (.prepareBlock pb))
  rw [add_prepareBlock_snd env validatorByIndex _ pb built, kept]
  simp only [NumberOrderPrepareBlock.add, EvidencePool.empty, orderedAdd_snd_foldl, found,
    Option.bind_some, bne_iff_ne, ne_eq, differ, not_false_eq_true, if_true]

/-- After any run from a fresh pool, a view change meets the first earlier view change of its
signer and view; when the two name different blocks the call returns them as a pair ordered by
block hash, the new one first on equal hashes. -/
theorem run_viewChange_detects (db : List (DbKey × Evidence Key Signature))
    (earlier : List (ConsensusMsg Blk Signature)) (vc : ViewChange Signature)
    {first : EvidenceView Key Signature}
    (found : Keyed.find EvidenceView.key
      (earlier.filterMap (viewedBy validatorByIndex ·
        (verifyIdentity (.viewChange vc : ConsensusMsg Blk Signature))))
        (newEvidenceView vc (validatorByIndex vc.epoch vc.validatorIndex)).key = some first)
    (differ : first.blockNumber ≠ vc.blockNumber ∨ first.blockHash ≠ vc.blockHash) :
    ((run env validatorByIndex earlier (.empty db)).1.add env validatorByIndex (.viewChange vc)).2 =
      .error (.duplicate (.duplicateViewChange
        (orderPair (·.blockHash) (newEvidenceView vc (validatorByIndex vc.epoch vc.validatorIndex)) first).1
        (orderPair (·.blockHash) (newEvidenceView vc (validatorByIndex vc.epoch vc.validatorIndex)) first).2)) := by
  have kept := run_lists env validatorByIndex EvidenceView.key (·.vc) (viewedBy validatorByIndex)
    (add_vc env validatorByIndex) earlier (.empty db)
    (verifyIdentity (.viewChange vc : ConsensusMsg Blk Signature))
  have conflict : (first.blockNumber !=
      (newEvidenceView vc (validatorByIndex vc.epoch vc.validatorIndex)).blockNumber ||
      first.blockHash != (newEvidenceView vc (validatorByIndex vc.epoch vc.validatorIndex)).blockHash) =
        true := by
    rcases differ with number | hash
    · simp [newEvidenceView, number]
    · simp [newEvidenceView, hash]
  rw [add_viewChange_snd env validatorByIndex _ vc, kept]
  simp only [NumberOrderViewChange.add, EvidencePool.empty, orderedAdd_snd_foldl, found,
    Option.bind_some, conflict, if_true]

end EvidencePool

/-! ## Two view changes with one hash -/

/-- An environment whose hashes are all zero and whose blocks encode to nothing. -/
def samplePoolEnv : PoolEnv Unit Unit ℕ :=
  ⟨fun _ => zeroHash, ⟨fun _ => zeroHash, fun _ => 0, fun _ => .ok []⟩, fun _ => []⟩

/-- Validator zero, the signer of the two view changes. -/
def viewSigner : ValidateNode ℕ := ⟨0, BitVec.zero 512, 7⟩

/-- Validator zero's view change of epoch one, view two, naming block `7` at height ten. -/
def viewAtTen : ViewChange ℕ := ⟨1, 2, 7#256, 10, 0, none, 0⟩

/-- Its view change of the same view naming the same hash at height eleven. -/
def viewAtEleven : ViewChange ℕ := ⟨1, 2, 7#256, 11, 0, none, 1⟩

/-- Two view changes of one validator and view that name one hash at two heights: the pool
detects them in either order and the evidence passes `Validate`, but the message that arrives
second comes first, so the two orders make different evidence, reported under different block
numbers and stored under different database keys. -/
theorem view_change_evidence_depends_on_arrival :
    (EvidencePool.run samplePoolEnv (fun _ _ => viewSigner)
        [.viewChange viewAtTen, .viewChange viewAtEleven] (.empty [])).2 =
      [.ok (), .error (.duplicate (.duplicateViewChange (newEvidenceView viewAtEleven viewSigner)
        (newEvidenceView viewAtTen viewSigner)))] ∧
    (EvidencePool.run samplePoolEnv (fun _ _ => viewSigner)
        [.viewChange viewAtEleven, .viewChange viewAtTen] (.empty [])).2 =
      [.ok (), .error (.duplicate (.duplicateViewChange (newEvidenceView viewAtTen viewSigner)
        (newEvidenceView viewAtEleven viewSigner)))] ∧
    (Evidence.duplicateViewChange (newEvidenceView viewAtEleven viewSigner)
        (newEvidenceView viewAtTen viewSigner)).validate
      (Bls.ofDigest samplePoolEnv.keccak256 (fun _ => true) fun _ _ _ => true) = .ok () ∧
    (Evidence.duplicateViewChange (newEvidenceView viewAtTen viewSigner)
        (newEvidenceView viewAtEleven viewSigner)).validate
      (Bls.ofDigest samplePoolEnv.keccak256 (fun _ => true) fun _ _ _ => true) = .ok () ∧
    (Evidence.duplicateViewChange (newEvidenceView viewAtEleven viewSigner)
        (newEvidenceView viewAtTen viewSigner)).blockNumber = 11 ∧
    (Evidence.duplicateViewChange (newEvidenceView viewAtTen viewSigner)
        (newEvidenceView viewAtEleven viewSigner)).blockNumber = 10 ∧
    encodeKey samplePoolEnv.keccak256 samplePoolEnv.sigBytes
        (.duplicateViewChange (newEvidenceView viewAtEleven viewSigner)
          (newEvidenceView viewAtTen viewSigner)) ⟨1, 2, 0⟩ ≠
      encodeKey samplePoolEnv.keccak256 samplePoolEnv.sigBytes
        (.duplicateViewChange (newEvidenceView viewAtTen viewSigner)
          (newEvidenceView viewAtEleven viewSigner)) ⟨1, 2, 0⟩ := by
  refine ⟨rfl, rfl, rfl, rfl, rfl, rfl, fun same => ?_⟩
  have numbers := congrArg DbKey.blockNumber same
  exact absurd numbers (by decide)

theorem viewAtEleven_meets_viewAtTen :
    Keyed.find EvidenceView.key
        ([(.viewChange viewAtTen : ConsensusMsg Unit ℕ)].filterMap
          (EvidencePool.viewedBy (fun _ _ => viewSigner) ·
            (verifyIdentity (.viewChange viewAtEleven : ConsensusMsg Unit ℕ))))
        (newEvidenceView viewAtEleven viewSigner).key = some (newEvidenceView viewAtTen viewSigner) ∧
      ((newEvidenceView viewAtTen viewSigner).blockNumber ≠ viewAtEleven.blockNumber ∨
        (newEvidenceView viewAtTen viewSigner).blockHash ≠ viewAtEleven.blockHash) ∧
      ((EvidencePool.run samplePoolEnv (fun _ _ => viewSigner) [.viewChange viewAtTen]
          (.empty [])).1.add samplePoolEnv (fun _ _ => viewSigner) (.viewChange viewAtEleven)).2 =
        .error (.duplicate (.duplicateViewChange
          (orderPair (·.blockHash) (newEvidenceView viewAtEleven viewSigner)
            (newEvidenceView viewAtTen viewSigner)).1
          (orderPair (·.blockHash) (newEvidenceView viewAtEleven viewSigner)
            (newEvidenceView viewAtTen viewSigner)).2)) :=
  ⟨rfl, .inl (by decide), EvidencePool.run_viewChange_detects samplePoolEnv (fun _ _ => viewSigner)
    [] [.viewChange viewAtTen] viewAtEleven rfl (.inl (by decide))⟩

/-- An environment whose blocks are their own hashes, all at height five. -/
def hashPoolEnv : PoolEnv Hash Unit ℕ :=
  ⟨fun _ => zeroHash, ⟨id, fun _ => 5, fun _ => .ok []⟩, fun _ => []⟩

/-- Validator zero's proposal of epoch one, view zero, for the block of a given hash. -/
def proposalOf (block : Hash) : Cbft.PrepareBlock Hash ℕ := ⟨1, 0, block, 0, 0, 0⟩

/-- The evidence a proposal of `proposalOf` makes. -/
def proposalEvidence (block : Hash) : EvidencePrepare ℕ ℕ :=
  ⟨1, 0, block, 5, 0, bytesToHash (zeroHash).bytes, newEvidenceNode viewSigner, 0⟩

theorem second_proposal_detected :
    newEvidencePrepare hashPoolEnv.keccak256 hashPoolEnv.codec (proposalOf 2#256)
        ((fun _ _ => viewSigner) (proposalOf 2#256).epoch (proposalOf 2#256).proposalIndex) =
      .ok (proposalEvidence 2#256) ∧
    Keyed.find EvidencePrepare.key
        ([(.prepareBlock (proposalOf 1#256) : ConsensusMsg Hash ℕ)].filterMap
          (EvidencePool.preparedBy hashPoolEnv (fun _ _ => viewSigner) ·
            (verifyIdentity (.prepareBlock (proposalOf 2#256) : ConsensusMsg Hash ℕ))))
        (proposalEvidence 2#256).key = some (proposalEvidence 1#256) ∧
      (proposalEvidence 1#256).blockHash ≠ (proposalEvidence 2#256).blockHash ∧
      ((EvidencePool.run hashPoolEnv (fun _ _ => viewSigner) [.prepareBlock (proposalOf 1#256)]
          (.empty [])).1.add hashPoolEnv (fun _ _ => viewSigner) (.prepareBlock (proposalOf 2#256))).2 =
        .error (.duplicate (.duplicatePrepareBlock
          (orderPair (·.blockHash) (proposalEvidence 2#256) (proposalEvidence 1#256)).1
          (orderPair (·.blockHash) (proposalEvidence 2#256) (proposalEvidence 1#256)).2)) :=
  ⟨rfl, rfl, by decide, EvidencePool.run_prepareBlock_detects hashPoolEnv (fun _ _ => viewSigner)
    [] [.prepareBlock (proposalOf 1#256)] (proposalOf 2#256) rfl rfl (by decide)⟩

end Slashing
end Bubble
