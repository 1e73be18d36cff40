import RdWeb.Clipboard.ServeRuns
import RdWeb.Fuse.Tree

/-!
# The request of a read, and what the peer makes of it

`read_node` splits the offset into two `i32` words and sends the size as an `i32`
of the same bits; the peer casts all three back to 64 bits, which extends signs.
-/

namespace RdWeb.Fuse

open RdWeb.Clipboard

/-- The request `read_node` builds: `offset` is an `i64`, `size` a `u32`. -/
def FuseNode.readRequest (node : FuseNode) (offset : BitVec 64) (size : BitVec 32) :
    FileContentsRequest where
  streamId := node.streamId
  listIndex := .ofNat 32 node.index
  dwFlags := 2#32
  nPositionLow := (offset &&& 0xFFFFFFFF#64).setWidth 32
  nPositionHigh := (offset.sshiftRight 32).setWidth 32
  cbRequested := size
  haveClipDataId := false
  clipDataId := 0

/-- The mask keeps the low 32 bits. -/
theorem getLsbD_low_mask : ∀ i < 32, (0xFFFFFFFF#64).getLsbD i = true := by decide

/-- Bit by bit, the decoded offset is the offset, with bit 31 or-ed into the high word. -/
theorem getLsbD_decoded_offset (offset : BitVec 64) {i : ℕ} (hi : i < 64) :
    (((offset.sshiftRight 32).setWidth 32).signExtend 64 <<< 32 |||
      ((offset &&& 0xFFFFFFFF#64).setWidth 32).signExtend 64).getLsbD i =
      (offset.getLsbD i || (decide (32 ≤ i) && offset.getLsbD 31)) := by
  simp only [BitVec.getLsbD_or, BitVec.getLsbD_shiftLeft, BitVec.getLsbD_signExtend,
    BitVec.getLsbD_setWidth, BitVec.getLsbD_sshiftRight, BitVec.getLsbD_and,
    BitVec.msb_eq_getLsbD_last]
  by_cases hlow : i < 32
  · have hnot : ¬ 32 ≤ i := by omega
    have hmask := getLsbD_low_mask i hlow
    simp only [hlow, hi, hnot, hmask, decide_true, decide_false, Bool.true_and, Bool.and_true,
      Bool.not_true, Bool.false_and, Bool.and_false, Bool.false_or, Bool.or_false, if_true]
  · have hhigh : 32 ≤ i := by omega
    have hword : i - 32 < 32 := by omega
    have hfits : i - 32 < 64 := by omega
    have hin : ¬ 64 ≤ i - 32 := by omega
    have hback : 32 + (i - 32) = i := by omega
    simp [hlow, hi, hhigh, hword, hfits, hin, hback]

/-- The offset survives exactly when its bit 31 is clear. -/
theorem readRequest_offset_iff (node : FuseNode) {offset : BitVec 64} (size : BitVec 32)
    (hoffset : offset.toNat < 2 ^ 63) :
    (node.readRequest offset size).offset = offset.toNat ↔ offset.getLsbD 31 = false := by
  have hsign : offset.getLsbD 63 = false := by
    have hmsb := BitVec.msb_eq_decide offset
    rw [BitVec.msb_eq_getLsbD_last, decide_eq_false (by omega)] at hmsb
    exact hmsb
  constructor
  · intro h
    have hbits := congrArg (BitVec.getLsbD · 63) (BitVec.eq_of_toNat_eq h)
    simp only [FuseNode.readRequest] at hbits
    rw [getLsbD_decoded_offset offset (by omega), hsign] at hbits
    simpa using hbits
  · intro h
    refine congrArg BitVec.toNat (BitVec.eq_of_getLsbD_eq fun i hi => ?_)
    simp only [FuseNode.readRequest]
    rw [getLsbD_decoded_offset offset hi, h, Bool.and_false, Bool.or_false]

/-- The size survives exactly when it is not negative as an `i32`. -/
theorem readRequest_length_iff (node : FuseNode) (offset : BitVec 64) (size : BitVec 32) :
    (node.readRequest offset size).length = size.toNat ↔ size.toNat < 2 ^ 31 := by
  show (size.signExtend 64).toNat = size.toNat ↔ _
  have hlt := size.isLt
  have hwidth : (size.setWidth 64).toNat = size.toNat := BitVec.toNat_setWidth_of_le (by omega)
  rw [BitVec.toNat_signExtend, BitVec.msb_eq_decide, hwidth]
  split_ifs with hmsb
  · rw [decide_eq_true_eq] at hmsb
    omega
  · rw [decide_eq_true_eq] at hmsb
    omega

/-- The file can be read from the disk, all its bytes included. -/
structure OnDisk (fs : FileSystem) (file : LocalFile) (content : FileContent) : Prop where
  not_dir : file.isDir = false
  opens : LocalFile.openReader fs file.path = .ok ⟨content, 0⟩
  complete : file.size ≤ content.bytes.length

/-- Through a synced file's reader one reads what is on disk. -/
theorem OnDisk.reader {fs : FileSystem} {file : LocalFile} {content : FileContent}
    (h : OnDisk fs file content) (hsync : file.Synced fs) :
    ∃ r, file.reader fs = .ok r ∧ r.content = content := by
  unfold LocalFile.reader
  cases hhandle : file.handle with
  | none => exact ⟨_, h.opens, rfl⟩
  | some r =>
    have hdisk := hsync.on_disk r hhandle
    rw [h.opens] at hdisk
    exact ⟨r, rfl, (congrArg FileReader.content (Except.ok.inj hdisk)).symm⟩

section RoundTrip

variable (fs : FileSystem) (checked : Bool) (s : ClipFiles) (connId : BitVec 32)
  (node : FuseNode) (offset : BitVec 64) (size : BitVec 32)

/-- The peer decodes the request of a read into exactly its offset and size, and from a
readable file returns exactly the bytes there. -/
structure RoundTrips : Prop where
  decoded : ∃ fileIdx, (node.readRequest offset size).decode =
    .ok (.range node.streamId fileIdx offset.toNat size.toNat)
  contents : ∀ file content,
    s.fileList[(node.readRequest offset size).fileIdx]? = some file → OnDisk fs file content →
    offset.toNat ≤ file.size → ∃ data,
      (readFileContents fs checked s connId (node.readRequest offset size)).2 =
        .ok (.ok ⟨0x1, node.streamId, data⟩) ∧
      data.length = min size.toNat (file.size - offset.toNat) ∧
      data <+: content.bytes.drop offset.toNat

/-- No bit of the offset or the size is taken for a sign, and where there is something
to return, the file after it opens. -/
structure SurvivesCasts : Prop where
  offset_bit : offset.getLsbD 31 = false
  size_lt : size.toNat < 2 ^ 31
  next_opens : ∀ file content,
    s.fileList[(node.readRequest offset size).fileIdx]? = some file → OnDisk fs file content →
    offset.toNat ≤ file.size →
    ClipFiles.FirstOpens fs (s.fileList.drop ((node.readRequest offset size).fileIdx + 1))

variable {fs checked s connId node offset size}

/-- A request is decoded as asked for if its two numbers fit the signed fields. -/
theorem decoded_iff (hoffset : offset.toNat < 2 ^ 63) :
    (∃ fileIdx, (node.readRequest offset size).decode =
      .ok (.range node.streamId fileIdx offset.toNat size.toNat)) ↔
      offset.getLsbD 31 = false ∧ size.toNat < 2 ^ 31 := by
  rw [← readRequest_offset_iff node size hoffset, ← readRequest_length_iff node offset size]
  have hdecode : (node.readRequest offset size).decode =
      .ok (.range node.streamId (node.readRequest offset size).fileIdx
        (node.readRequest offset size).offset (node.readRequest offset size).length) := rfl
  rw [hdecode]
  simp

/-- The response to an exact request, from a complete file in step with its reader. -/
theorem readFileContents_exact (hsync : s.Synced fs) {file : LocalFile} {content : FileContent}
    (hbit : offset.getLsbD 31 = false) (hsize : size.toNat < 2 ^ 31)
    (hfile : s.fileList[(node.readRequest offset size).fileIdx]? = some file)
    (hdisk : OnDisk fs file content) (hoffset : offset.toNat ≤ file.size)
    (hnext : ClipFiles.FirstOpens fs
      (s.fileList.drop ((node.readRequest offset size).fileIdx + 1))) :
    (readFileContents fs checked s connId (node.readRequest offset size)).2 =
      .ok (.ok ⟨0x1, node.streamId,
        (content.bytes.drop offset.toNat).take (min size.toNat (file.size - offset.toNat))⟩) := by
  have hsmall : offset.toNat < 2 ^ 63 := lt_of_le_of_lt hoffset file.size_lt
  have hcomplete := hdisk.complete
  have hfsync := hsync file (List.mem_of_getElem? hfile)
  obtain ⟨r, hreader, rfl⟩ := hdisk.reader hfsync
  have hstart := hfsync.startPos_eq hreader hcomplete offset.toNat
  have hread := LocalFile.readExactAt_eq
    (n := min size.toNat (file.size - offset.toNat)) hdisk.not_dir hreader hsmall
  have hsum : offset.toNat + size.toNat < 2 ^ 64 := by omega
  have hinside : min size.toNat (file.size - offset.toNat) ≤
      r.content.bytes.length - offset.toNat := by omega
  rw [hstart, LocalFile.readExact_of_le (r := { r with pos := offset.toNat }) hinside] at hread
  rw [readFileContents_range rfl, (readRequest_offset_iff node size hsmall).mpr hbit,
    (readRequest_length_iff node offset size).mpr hsize, ClipFiles.serveFileContents]
  simp only [ClipFiles.serveRange_of_lt hfile hoffset hsum, hread, ClipFiles.answerRead]
  rw [ClipFiles.hotReload_isOk_iff]
  refine ⟨?_, rfl⟩
  rwa [List.drop_set_of_lt (Nat.lt_succ_self _)]

/-- **Request round trip.** After any requests on a constructed list, a read round-trips
exactly when no bit of its offset or size is taken for a sign and the next file opens. -/
theorem roundTrips_iff {cached : ClipFiles} {fuel : ℕ} {paths : List PathBuf}
    (hlist : constructFileList fs fuel paths = some (.ok cached.fileList))
    (hs : (serveMachine fs checked cached).Reachable s) (hoffset : offset.toNat < 2 ^ 63) :
    RoundTrips fs checked s connId node offset size ↔ SurvivesCasts fs s node offset size := by
  have hsync := synced_of_reachable hlist hs
  constructor
  · intro h
    obtain ⟨hbit, hsize⟩ := (decoded_iff hoffset).mp h.decoded
    refine ⟨hbit, hsize, ?_⟩
    intro file content hfile hdisk hin
    obtain ⟨data, hdata, -⟩ := h.contents file content hfile hdisk hin
    obtain ⟨r, hreader, rfl⟩ := hdisk.reader (hsync file (List.mem_of_getElem? hfile))
    rw [readFileContents_range rfl] at hdata
    have hsum : (node.readRequest offset size).offset +
        (node.readRequest offset size).length < 2 ^ 64 := by
      rw [(readRequest_offset_iff node size hoffset).mpr hbit,
        (readRequest_length_iff node offset size).mpr hsize]
      omega
    have hin' : (node.readRequest offset size).offset ≤ file.size := by
      rwa [(readRequest_offset_iff node size hoffset).mpr hbit]
    exact ((ClipFiles.serve_range_isOk_iff hfile hdisk.not_dir hreader hin' hsum).mp
      ⟨_, hdata⟩).2
  · rintro ⟨hbit, hsize, hnext⟩
    refine ⟨(decoded_iff hoffset).mpr ⟨hbit, hsize⟩, ?_⟩
    intro file content hfile hdisk hin
    have hcomplete := hdisk.complete
    refine ⟨_, readFileContents_exact hsync hbit hsize hfile hdisk hin
      (hnext file content hfile hdisk hin), ?_, List.take_prefix _ _⟩
    rw [List.length_take, List.length_drop]
    omega

end RoundTrip

/-- The list of `/a` on the disk of three-byte files. -/
def threeByteFiles : ClipFiles := ⟨["/a"], [threeByteFile [47, 97]], []⟩

/-- The node of that file on the other side. -/
def threeByteNode : FuseNode := .fromDescription 2 7 { emptyFile [97] with size := 3 }

/-- `roundTrips_iff` on the whole of the file. -/
theorem roundTrips_iff_three_bytes :
    RoundTrips threeByteDisk true threeByteFiles 0 threeByteNode 0 3 ↔
      SurvivesCasts threeByteDisk threeByteFiles threeByteNode 0 3 :=
  roundTrips_iff (constructFileList_threeByteDisk (by decide) (by decide))
    Machine.reachable_init (by decide)

/-- A read of that node at `2 ^ 31` is decoded into another offset. -/
theorem not_roundTrips_bit31 :
    ¬ RoundTrips threeByteDisk true threeByteFiles 0 threeByteNode 0x80000000 1 := by
  intro h
  have hbit := ((decoded_iff (by decide)).mp h.decoded).1
  exact absurd hbit (by decide)

end RdWeb.Fuse
