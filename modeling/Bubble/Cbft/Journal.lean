import Bubble.Lib.Bytes

/-!
# The write-ahead log's journal frames

`encodeJournal` and `journal.loadJournal` of `consensus/cbft/wal/wal_journal.go`, with `WALDecode`
of `wal_decoder.go`.  A frame is a ten-byte header (the CRC-32C of the payload, its length as a
`uint32` and the message type as a `uint16`, all big-endian) followed by the payload, the RLP
encoding of the message.  The loader peeks at a header, reads `length + 10` bytes computed in
`uint32`, and takes a last `Read` of no byte for the end of the file.

What the loader does with the frames of a file is `replay`: check each frame's checksum, decode it
and hand it to `recovery`, stopping at the first failure.  `loadLoop_frames` proves that the bytes
of frames are loaded so whenever each payload is shorter than `2 ^ 32 - 10` bytes, which every
journaled message is: a consensus message is at most `CbftProtocolMaxMsgSize`, 10 MiB.

RLP stays a parameter (`WalCodec`): the encoding of a message and the decoding of a payload into the
message of a type.  Go's bufio reader is modelled by what it returns from a file: a `Peek` past the
end shows bytes its buffer still holds (`stale`), and a `Read` returns bytes while any remain and
none after.
-/

namespace Bubble
namespace Cbft

variable {Msg Info ε : Type}

/-! ## Frames -/

/-- The message types of the journal. -/
inductive WalMsgType
  | confirmedViewChange
  | sendViewChange
  | sendPrepareBlock
  | sendPrepareVote
  deriving DecidableEq, Repr

/-- `ConfirmedViewChangeMsg` and the other codes of `protocols`, as the header's `uint16`. -/
def WalMsgType.code : WalMsgType → UInt16
  | .confirmedViewChange => 0x01
  | .sendViewChange => 0x02
  | .sendPrepareBlock => 0x03
  | .sendPrepareVote => 0x04

/-- The type of a code, as the cases of `WALDecode` read it. -/
def WalMsgType.ofCode (code : UInt16) : Option WalMsgType :=
  if code = 0x01 then some .confirmedViewChange
  else if code = 0x02 then some .sendViewChange
  else if code = 0x03 then some .sendPrepareBlock
  else if code = 0x04 then some .sendPrepareVote
  else none

@[simp] theorem WalMsgType.ofCode_code (t : WalMsgType) : WalMsgType.ofCode t.code = some t := by
  cases t <;> rfl

/-- What the journal reads of the messages and of RLP. -/
structure WalCodec (Msg Info ε : Type) where
  /-- `rlp.EncodeToBytes` of a `Message`. -/
  encodeToBytes : Msg → Except ε (List UInt8)
  /-- `protocols.WalMessageType` of the message's `Data`. -/
  walMessageType : Msg → WalMsgType
  /-- `rlp.DecodeBytes` into the `Message` struct of a type, giving its `Data`. -/
  decodeBytes : WalMsgType → List UInt8 → Except ε Info

/-- The reflected Castagnoli polynomial, `crc32.Castagnoli`. -/
def castagnoli : UInt32 := 0x82F63B78

/-- One byte into the CRC register, a bit at a time. -/
def crcUpdateByte (crc : UInt32) (b : UInt8) : UInt32 :=
  (List.range 8).foldl (fun crc _ => if crc &&& 1 = 1 then crc >>> 1 ^^^ castagnoli else crc >>> 1)
    (crc ^^^ b.toUInt32)

/-- `crc32.Checksum(data, crc32c)`. -/
def checksum (data : List UInt8) : UInt32 :=
  ~~~(data.foldl crcUpdateByte (~~~0))

example : checksum [0x31, 0x32, 0x33, 0x34, 0x35, 0x36, 0x37, 0x38, 0x39] = 0xE3069283 := by
  decide +kernel

/-- `encodeJournal`: the header and the payload.  The frame is `10 + length` bytes, `length` being
the payload's length as a `uint32`, and `copy` fills it with as much of the payload as fits. -/
def encodeJournal (codec : WalCodec Msg Info ε) (msg : Msg) : Except ε (List UInt8) := do
  let data ← codec.encodeToBytes msg
  let crc := checksum data
  let length := data.length.toUInt32
  pure (Bytes.toBytes 4 crc.toNat ++ Bytes.toBytes 4 length.toNat ++
    Bytes.toBytes 2 (codec.walMessageType msg).code.toNat ++ data.take length.toNat)

/-- `WALDecode`; `none` where it panics, on a type it does not know. -/
def walDecode (codec : WalCodec Msg Info ε) (pack : List UInt8) (msgType : UInt16) :
    Option (Except ε Info) :=
  (WalMsgType.ofCode msgType).map fun t => codec.decodeBytes t pack

/-- How loading a journal fails. -/
inductive LoadError (ε : Type)
  /-- `errLoadJournal`: a checksum that does not match, or a payload that does not decode. -/
  | errLoadJournal
  /-- The error `recovery` returned. -/
  | recovery (err : ε)
  /-- A Go panic: an unknown message type, or a frame shorter than its header. -/
  | panic
  deriving DecidableEq, Repr

/-- What `loadJournal` does with a frame read in full: check the checksum, then decode. -/
def checkPack (codec : WalCodec Msg Info ε) (crc : ℕ) (msgType : UInt16) (payload : List UInt8) :
    Except (LoadError ε) Info :=
  if crc ≠ (checksum payload).toNat then .error .errLoadJournal
  else match walDecode codec payload msgType with
    | none => .error .panic
    | some (.error _) => .error .errLoadJournal
    | some (.ok msgInfo) => .ok msgInfo

/-- The read loop of `loadJournal`: `size` bytes of the file, or `none` when its last `Read`
returned no byte, because none was asked for or the file ended first. -/
def readPack (rest : List UInt8) (size : ℕ) : Option (List UInt8 × List UInt8) :=
  if size = 0 ∨ rest.length < size then none else some (rest.take size, rest.drop size)

/-- The loop of `loadJournal` over what is left of the file: the messages handed to `recovery`, in
order, and how it ended.  `fuel` bounds the frames; each frame read in full is ten bytes at least. -/
def loadLoop (codec : WalCodec Msg Info ε) (recovery : Info → Except ε Unit)
    (stale : Vector UInt8 10) : (fuel : ℕ) → List UInt8 → List Info × Except (LoadError ε) Unit
  | 0, _ => ([], .ok ())
  | fuel + 1, rest =>
    -- `Peek(10)` past the end of the file shows the bytes the reader's buffer still holds
    let index := (rest ++ stale.toList).take 10
    let crc := Bytes.ofBytes (index.take 4)
    let length := Bytes.ofBytes ((index.drop 4).take 4)
    let msgType := (Bytes.ofBytes (index.drop 8)).toUInt16
    match readPack rest ((length + 10) % 2 ^ 32) with
    | none => ([], .ok ())
    | some (pack, rest) =>
      if pack.length < 10 then ([], .error .panic)
      else match checkPack codec crc msgType (pack.drop 10) with
        | .error err => ([], .error err)
        | .ok msgInfo =>
          match recovery msgInfo with
          | .error err => ([msgInfo], .error (.recovery err))
          | .ok () =>
            let (recovered, result) := loadLoop codec recovery stale fuel rest
            (msgInfo :: recovered, result)

/-- `journal.loadJournal` of a file from the byte `seq`: `Discard(int(seq))` skips nothing when
`int(seq)` is negative. -/
def loadJournal (codec : WalCodec Msg Info ε) (recovery : Info → Except ε Unit)
    (stale : Vector UInt8 10) (file : List UInt8) (seq : UInt64) :
    List Info × Except (LoadError ε) Unit :=
  let skip := if seq.toNat < 2 ^ 63 then seq.toNat else 0
  loadLoop codec recovery stale (file.length + 1) (file.drop skip)

/-! ## Loading the frames of a file -/

/-- A frame of a journal file: the checksum and the type its header records, and the payload,
whose length the header records. -/
structure Frame where
  crc : UInt32
  msgType : UInt16
  payload : List UInt8

/-- The ten bytes of a frame's header. -/
def Frame.header (frame : Frame) : List UInt8 :=
  Bytes.toBytes 4 frame.crc.toNat ++ Bytes.toBytes 4 frame.payload.length ++
    Bytes.toBytes 2 frame.msgType.toNat

/-- The bytes of a frame, as `encodeJournal` lays them out. -/
def Frame.bytes (frame : Frame) : List UInt8 := frame.header ++ frame.payload

@[simp] theorem Frame.length_header (frame : Frame) : frame.header.length = 10 := by
  simp [Frame.header]

@[simp] theorem Frame.length_bytes (frame : Frame) :
    frame.bytes.length = frame.payload.length + 10 := by
  simp [Frame.bytes]
  omega

/-- What loading a file of frames does: each frame's checksum checked and its payload decoded,
and the message handed to `recovery`, up to the first failure. -/
def replay (codec : WalCodec Msg Info ε) (recovery : Info → Except ε Unit) :
    List Frame → List Info × Except (LoadError ε) Unit
  | [] => ([], .ok ())
  | frame :: frames =>
    match checkPack codec frame.crc.toNat frame.msgType frame.payload with
    | .error err => ([], .error err)
    | .ok msgInfo =>
      match recovery msgInfo with
      | .error err => ([msgInfo], .error (.recovery err))
      | .ok () =>
        let (recovered, result) := replay codec recovery frames
        (msgInfo :: recovered, result)

variable {codec : WalCodec Msg Info ε} {recovery : Info → Except ε Unit} {stale : Vector UInt8 10}

theorem Frame.fields (frame : Frame) (rest : List UInt8) (short : frame.payload.length < 2 ^ 32) :
    Bytes.ofBytes (((frame.bytes ++ rest).take 10).take 4) = frame.crc.toNat ∧
      Bytes.ofBytes ((((frame.bytes ++ rest).take 10).drop 4).take 4) = frame.payload.length ∧
      (Bytes.ofBytes (((frame.bytes ++ rest).take 10).drop 8)).toUInt16 = frame.msgType := by
  have header : (frame.bytes ++ rest).take 10 = frame.header := by
    rw [Frame.bytes, List.append_assoc, List.take_left' (Frame.length_header frame)]
  simp only [header, Frame.header, List.append_assoc]
  refine ⟨?_, ?_, ?_⟩
  · rw [List.take_left' (Bytes.length_toBytes 4 _), Bytes.ofBytes_toBytes,
      Nat.mod_eq_of_lt (by simpa using frame.crc.toNat_lt)]
  · rw [List.drop_left' (Bytes.length_toBytes 4 _), List.take_left' (Bytes.length_toBytes 4 _),
      Bytes.ofBytes_toBytes, Nat.mod_eq_of_lt (by simpa using short)]
  · rw [show (8 : ℕ) = 4 + 4 from rfl, ← List.drop_drop, List.drop_left' (Bytes.length_toBytes 4 _),
      List.drop_left' (Bytes.length_toBytes 4 _), Bytes.ofBytes_toBytes,
      Nat.mod_eq_of_lt (by simpa using frame.msgType.toNat_lt)]
    simp

/-- One step of the loop over a frame read in full: the frame is checked and its message handed
on as `replay` does. -/
theorem loadLoop_frame (fuel : ℕ) (frame : Frame) (rest : List UInt8)
    (short : frame.payload.length + 10 < 2 ^ 32) :
    loadLoop codec recovery stale (fuel + 1) (frame.bytes ++ rest) =
      match checkPack codec frame.crc.toNat frame.msgType frame.payload with
      | .error err => ([], .error err)
      | .ok msgInfo =>
        match recovery msgInfo with
        | .error err => ([msgInfo], .error (.recovery err))
        | .ok () =>
          let (recovered, result) := loadLoop codec recovery stale fuel rest
          (msgInfo :: recovered, result) := by
  obtain ⟨crc, length, msgType⟩ := Frame.fields frame (rest ++ stale.toList) (by omega)
  have read : readPack (frame.bytes ++ rest) ((frame.payload.length + 10) % 2 ^ 32) =
      some (frame.bytes, rest) := by
    rw [Nat.mod_eq_of_lt short, readPack, if_neg (by simp), List.take_left' (by simp),
      List.drop_left' (by simp)]
  have payload : frame.bytes.drop 10 = frame.payload :=
    List.drop_left' (Frame.length_header frame)
  rw [loadLoop]
  simp only [List.append_assoc, crc, length, msgType, read, Frame.length_bytes, payload]
  rw [if_neg (by omega)]

theorem loadLoop_nil (fuel : ℕ) : loadLoop codec recovery stale fuel [] = ([], .ok ()) := by
  cases fuel with
  | zero => rfl
  | succ fuel =>
    rw [loadLoop]
    simp only [readPack, List.nil_append, List.length_nil]
    rw [if_pos (by omega)]

theorem loadLoop_frames :
    ∀ (frames : List Frame) (fuel : ℕ), frames.length < fuel →
      (∀ frame ∈ frames, frame.payload.length + 10 < 2 ^ 32) →
      loadLoop codec recovery stale fuel (frames.flatMap Frame.bytes) =
        replay codec recovery frames := by
  intro frames
  induction frames with
  | nil =>
    intro fuel _ _
    exact loadLoop_nil fuel
  | cons frame frames ih =>
    intro fuel enough short
    obtain ⟨fuel, rfl⟩ : ∃ f, fuel = f + 1 := ⟨fuel - 1, by simp at enough; omega⟩
    rw [List.flatMap_cons, loadLoop_frame fuel frame _ (short frame List.mem_cons_self), replay,
      ih fuel (by simp at enough; omega) fun frame mem => short frame (List.mem_cons_of_mem _ mem)]

/-- `loadJournal` from the boundary after the first `k` frames of a file, at an offset that Go's
`int` holds, does what `replay` does with the frames from the `k`-th on. -/
theorem loadJournal_frames (frames : List Frame)
    (short : ∀ frame ∈ frames, frame.payload.length + 10 < 2 ^ 32) (k : ℕ) (seq : UInt64)
    (boundary : seq.toNat = ((frames.take k).flatMap Frame.bytes).length)
    (small : seq.toNat < 2 ^ 63) :
    loadJournal codec recovery stale (frames.flatMap Frame.bytes) seq =
      replay codec recovery (frames.drop k) := by
  have rest : (frames.flatMap Frame.bytes).drop seq.toNat = (frames.drop k).flatMap Frame.bytes := by
    rw [boundary, ← List.take_append_drop k frames, List.flatMap_append, List.drop_left',
      List.take_append_drop]
    simp
  have enough : (frames.drop k).length < (frames.flatMap Frame.bytes).length + 1 := by
    have each : ∀ (frames : List Frame), frames.length ≤ (frames.flatMap Frame.bytes).length := by
      intro frames
      induction frames with
      | nil => simp
      | cons frame frames ih => simp only [List.flatMap_cons, List.length_append,
          Frame.length_bytes, List.length_cons]; omega
    have := each frames
    simp only [List.length_drop]
    omega
  rw [loadJournal, if_pos small, rest, loadLoop_frames (frames.drop k) _ enough
    fun frame mem => short frame (List.mem_of_mem_drop mem)]

/-! ## What `replay` does -/

theorem checkPack_of_crc_ne {crc : UInt32} {msgType : UInt16} {payload : List UInt8}
    (mismatch : crc ≠ checksum payload) :
    checkPack codec crc.toNat msgType payload = .error .errLoadJournal := by
  rw [checkPack, if_pos (fun same => mismatch (UInt32.toNat_inj.mp same))]

theorem checkPack_checksum (msgType : UInt16) (payload : List UInt8) {msgInfo : Info}
    (decoded : walDecode codec payload msgType = some (.ok msgInfo)) :
    checkPack codec (checksum payload).toNat msgType payload = .ok msgInfo := by
  rw [checkPack, if_neg (not_not.mpr rfl), decoded]

theorem replay_append (frames rest : List Frame) (info : Frame → Info)
    (accepted : ∀ frame ∈ frames,
      checkPack codec frame.crc.toNat frame.msgType frame.payload = .ok (info frame) ∧
        recovery (info frame) = .ok ()) :
    replay codec recovery (frames ++ rest) =
      (frames.map info ++ (replay codec recovery rest).1, (replay codec recovery rest).2) := by
  induction frames with
  | nil => rfl
  | cons frame frames ih =>
    obtain ⟨checked, accepts⟩ := accepted frame List.mem_cons_self
    rw [List.cons_append, replay, checked]
    simp only [accepts, ih fun frame mem => accepted frame (List.mem_cons_of_mem _ mem),
      List.map_cons, List.cons_append]

/-! ## Round trip -/

/-- `frame` is the frame `encodeJournal` writes for `msg`. -/
def Encodes (codec : WalCodec Msg Info ε) (msg : Msg) (frame : Frame) : Prop :=
  codec.encodeToBytes msg = .ok frame.payload ∧ frame.crc = checksum frame.payload ∧
    frame.msgType = (codec.walMessageType msg).code

theorem encodeJournal_eq {msg : Msg} {data : List UInt8} (encoded : codec.encodeToBytes msg = .ok data)
    (short : data.length < 2 ^ 32) :
    encodeJournal codec msg = .ok (Frame.bytes ⟨checksum data, (codec.walMessageType msg).code, data⟩) := by
  have length : data.length.toUInt32.toNat = data.length := by
    rw [Nat.toUInt32_eq, UInt32.toNat_ofNat', Nat.mod_eq_of_lt short]
  simp only [encodeJournal, encoded, bind, Except.bind, pure, Except.pure, length, List.take_length,
    Frame.bytes, Frame.header, List.append_assoc]

/-- The packs `encodeJournal` writes for messages whose payloads are shorter than `2 ^ 32 - 10`
bytes are the bytes of the frames of the messages. -/
theorem mapM_encodeJournal :
    ∀ (msgs : List Msg) (packs : List (List UInt8)), msgs.mapM (encodeJournal codec) = .ok packs →
      (∀ msg ∈ msgs, ∀ data, codec.encodeToBytes msg = .ok data → data.length + 10 < 2 ^ 32) →
      ∃ frames : List Frame, packs = frames.map Frame.bytes ∧ List.Forall₂ (Encodes codec) msgs frames := by
  intro msgs
  induction msgs with
  | nil =>
    intro packs encoded _
    simp only [List.mapM_nil, pure, Except.pure, Except.ok.injEq] at encoded
    exact ⟨[], by simp [← encoded], .nil⟩
  | cons msg msgs ih =>
    intro packs encoded short
    rcases data_eq : codec.encodeToBytes msg with e | data
    · simp [List.mapM_cons, encodeJournal, data_eq, bind, Except.bind] at encoded
    have fits := short msg List.mem_cons_self data data_eq
    rw [List.mapM_cons, encodeJournal_eq data_eq (by omega)] at encoded
    rcases rest_eq : msgs.mapM (encodeJournal codec) with e | rest
    · simp [rest_eq, bind, Except.bind] at encoded
    simp only [rest_eq, bind, Except.bind, pure, Except.pure, Except.ok.injEq] at encoded
    obtain ⟨frames, rfl, encodes⟩ := ih rest rest_eq
      fun msg mem => short msg (List.mem_cons_of_mem _ mem)
    exact ⟨⟨checksum data, (codec.walMessageType msg).code, data⟩ :: frames, by simp [← encoded],
      .cons ⟨data_eq, rfl, rfl⟩ encodes⟩

theorem encodes_short :
    ∀ {msgs : List Msg} {frames : List Frame}, List.Forall₂ (Encodes codec) msgs frames →
      (∀ msg ∈ msgs, ∀ data, codec.encodeToBytes msg = .ok data → data.length + 10 < 2 ^ 32) →
      ∀ frame ∈ frames, frame.payload.length + 10 < 2 ^ 32
  | [], [], .nil, _ => by simp
  | msg :: _, frame :: _, .cons ⟨encoded, _⟩ encodes, short => by
    rintro other (_ | ⟨_, mem⟩)
    · exact short msg List.mem_cons_self _ encoded
    · exact encodes_short encodes (fun msg mem => short msg (List.mem_cons_of_mem _ mem)) other mem

theorem replay_encoded (info : Msg → Info) :
    ∀ {msgs : List Msg} {frames : List Frame}, List.Forall₂ (Encodes codec) msgs frames →
      (∀ msg ∈ msgs, ∀ data, codec.encodeToBytes msg = .ok data →
        walDecode codec data (codec.walMessageType msg).code = some (.ok (info msg))) →
      (∀ msg ∈ msgs, recovery (info msg) = .ok ()) →
      replay codec recovery frames = (msgs.map info, .ok ())
  | [], [], .nil, _, _ => rfl
  | msg :: msgs, frame :: frames, .cons ⟨encoded, crc, msgType⟩ encodes, decodes, accepts => by
    have decoded := decodes msg List.mem_cons_self _ encoded
    rw [← msgType] at decoded
    rw [replay, crc, checkPack_checksum _ _ decoded]
    simp only [accepts msg List.mem_cons_self, List.map_cons,
      replay_encoded info encodes (fun msg mem => decodes msg (List.mem_cons_of_mem _ mem))
        (fun msg mem => accepts msg (List.mem_cons_of_mem _ mem))]

/-- The journal round trip.  The bytes `encodeJournal` writes for messages whose payloads are
shorter than `2 ^ 32 - 10` bytes, loaded from the boundary after the first `k` frames at an offset
Go's `int` holds, have `recovery` receive the decoded message of each frame after it, in order, and
the load end with no error, when each decodes and `recovery` accepts each.  In a file of such
frames, a frame whose checksum does not match its payload ends the load with `errLoadJournal`,
`recovery` having received the messages of the frames before it and not its own. -/
theorem loadJournal_encodeJournal (codec : WalCodec Msg Info ε) (recovery : Info → Except ε Unit)
    (stale : Vector UInt8 10) :
    (∀ (msgs : List Msg) (packs : List (List UInt8)), msgs.mapM (encodeJournal codec) = .ok packs →
      (∀ msg ∈ msgs, ∀ data, codec.encodeToBytes msg = .ok data → data.length + 10 < 2 ^ 32) →
      ∀ (k : ℕ) (seq : UInt64), seq.toNat = (packs.take k).flatten.length →
        seq.toNat < 2 ^ 63 → ∀ info : Msg → Info,
        (∀ msg ∈ msgs.drop k, ∀ data, codec.encodeToBytes msg = .ok data →
          walDecode codec data (codec.walMessageType msg).code = some (.ok (info msg))) →
        (∀ msg ∈ msgs.drop k, recovery (info msg) = .ok ()) →
        loadJournal codec recovery stale packs.flatten seq = ((msgs.drop k).map info, .ok ())) ∧
    ∀ (before good : List Frame) (bad : Frame) (rest : List Frame),
      (∀ frame ∈ before ++ good ++ bad :: rest, frame.payload.length + 10 < 2 ^ 32) →
      bad.crc ≠ checksum bad.payload →
      ∀ seq : UInt64, seq.toNat = (before.flatMap Frame.bytes).length → seq.toNat < 2 ^ 63 →
      ∀ info : Frame → Info,
        (∀ frame ∈ good, frame.crc = checksum frame.payload ∧
          walDecode codec frame.payload frame.msgType = some (.ok (info frame)) ∧
          recovery (info frame) = .ok ()) →
        loadJournal codec recovery stale ((before ++ good ++ bad :: rest).flatMap Frame.bytes) seq =
          (good.map info, .error .errLoadJournal) := by
  refine ⟨fun msgs packs encoded short k seq boundary small info decodes accepts => ?_,
    fun before good bad rest short mismatch seq boundary small info accepted => ?_⟩
  · obtain ⟨frames, rfl, encodes⟩ := mapM_encodeJournal msgs packs encoded short
    rw [← List.map_take, ← List.flatMap_def] at boundary
    rw [← List.flatMap_def, loadJournal_frames frames (encodes_short encodes short) k seq boundary small,
      replay_encoded info (List.forall₂_drop k encodes) decodes accepts]
  · have at_boundary : seq.toNat =
        (((before ++ good ++ bad :: rest).take before.length).flatMap Frame.bytes).length := by
      rw [boundary, List.append_assoc, List.take_left' rfl]
    rw [loadJournal_frames _ short before.length seq at_boundary small, List.append_assoc,
      List.drop_left' rfl, replay_append good (bad :: rest) info fun frame mem => ?_]
    · rw [replay, checkPack_of_crc_ne mismatch]
      simp
    · obtain ⟨crc, decoded, accepts⟩ := accepted frame mem
      exact ⟨crc ▸ checkPack_checksum _ _ decoded, accepts⟩

/-- A codec for tests: a message is its own encoding, a `SendPrepareBlock`, and decodes to itself. -/
def bytesCodec : WalCodec (List UInt8) (List UInt8) Unit where
  encodeToBytes data := .ok data
  walMessageType _ := .sendPrepareBlock
  decodeBytes _ data := .ok data

theorem loadJournal_encodeJournal_sample :
    ∃ packs, [[1, 2, 3]].mapM (encodeJournal bytesCodec) = .ok packs ∧
      loadJournal bytesCodec (fun _ => .ok ()) (Vector.replicate 10 0) packs.flatten 0 =
        ([[1, 2, 3]], .ok ()) :=
  ⟨_, rfl, (loadJournal_encodeJournal bytesCodec (fun _ => .ok ()) (Vector.replicate 10 0)).1
    [[1, 2, 3]] _ rfl (by simp [bytesCodec]) 0 0 rfl (by decide) id
    (by simp [bytesCodec, walDecode]) (by simp)⟩

end Cbft
end Bubble
