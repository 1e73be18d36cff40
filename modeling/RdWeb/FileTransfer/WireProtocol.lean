import RdWeb.FileTransfer.Messages
import RdWeb.FileTransfer.WireMessages
import RdWeb.Lib.Varint

/-!
# What a file-transfer connection puts on the wire

The builders of the messages to the host, and what the host can tell from the bytes.
-/

namespace RdWeb.FileTransfer

/-- `file_action` and `file_response` of a message. -/
inductive WireMessage
  | action (m : Wire.FileAction)
  | response (m : Wire.FileResponse)
  deriving DecidableEq

namespace WireMessage

variable (rt : WireRuntime)

/-- The bytes of a message. -/
def encode : WireMessage → List UInt8
  | action m => (Wire.fileAction rt).encode rt m
  | response m => (Wire.fileResponse rt).encode rt m

/-- Read the bytes of a message of the same kind. -/
def decodeLike : WireMessage → List UInt8 → Option WireMessage
  | action _, bytes => ((Wire.fileAction rt).decode rt bytes).map action
  | response _, bytes => ((Wire.fileResponse rt).decode rt bytes).map response

/-- What the members of a message can hold. -/
def Fits : WireMessage → Prop
  | action m => m.Fits
  | response m => m.Fits

/-- The chunks of another encoding are those of the message, with chunks of unknown fields
anywhere between them. -/
def Interspersed : WireMessage → List (List UInt8) → Prop
  | action m, mixed =>
    MessageType.Interspersed (Wire.fileAction rt) rt ((Wire.fileAction rt).chunks rt m) mixed
  | response m, mixed =>
    MessageType.Interspersed (Wire.fileResponse rt) rt ((Wire.fileResponse rt).chunks rt m) mixed

variable {rt}

/-- A message is read back with unknown fields between its own. -/
theorem decodeLike_interspersed {m : WireMessage} (hfits : m.Fits) (hshort : Short (m.encode rt))
    {mixed : List (List UInt8)} (hmixed : m.Interspersed rt mixed) :
    m.decodeLike rt mixed.flatten = some m := by
  cases m with
  | action m =>
    have h : (Wire.fileAction rt).decode rt mixed.flatten = some m :=
      MessageType.decode_interspersed hfits hshort hmixed
    rw [decodeLike, h, Option.map_some]
  | response m =>
    have h : (Wire.fileResponse rt).decode rt mixed.flatten = some m :=
      MessageType.decode_interspersed hfits hshort hmixed
    rw [decodeLike, h, Option.map_some]

/-- A message is read back from its bytes. -/
theorem decodeLike_encode {m : WireMessage} (hfits : m.Fits) (hshort : Short (m.encode rt)) :
    m.decodeLike rt (m.encode rt) = some m := by
  cases m with
  | action m =>
    have h : (Wire.fileAction rt).decode rt ((Wire.fileAction rt).encode rt m) = some m :=
      MessageType.decode_encode hfits hshort
    rw [decodeLike, encode, h, Option.map_some]
  | response m =>
    have h : (Wire.fileResponse rt).decode rt ((Wire.fileResponse rt).encode rt m) = some m :=
      MessageType.decode_encode hfits hshort
    rw [decodeLike, encode, h, Option.map_some]

/-- What is read fits its fields. -/
theorem fits_of_decodeLike {like m : WireMessage} {bytes : List UInt8}
    (h : like.decodeLike rt bytes = some m) : m.Fits := by
  cases like with
  | action =>
    obtain ⟨read, hread, rfl⟩ := Option.map_eq_some_iff.mp h
    exact MessageType.fits_of_decode hread
  | response =>
    obtain ⟨read, hread, rfl⟩ := Option.map_eq_some_iff.mp h
    exact MessageType.fits_of_decode hread

/-- What is read is of the kind that was asked for. -/
theorem decodeLike_of_decodeLike {like m : WireMessage} {bytes : List UInt8}
    (h : like.decodeLike rt bytes = some m) : m.decodeLike rt = like.decodeLike rt := by
  cases like with
  | action =>
    obtain ⟨read, _, rfl⟩ := Option.map_eq_some_iff.mp h
    rfl
  | response =>
    obtain ⟨read, _, rfl⟩ := Option.map_eq_some_iff.mp h
    rfl

/-- **Round trip.** A message whose attributes are in range is read back from its bytes, and
only messages in range are ever read: each of them is read back from its own bytes too. -/
theorem roundTrip_and_wellFormed (rt : WireRuntime) (like m : WireMessage) :
    (m.Fits → Short (m.encode rt) → m.decodeLike rt (m.encode rt) = some m) ∧
    ∀ bytes, like.decodeLike rt bytes = some m →
      m.Fits ∧ (Short (m.encode rt) → like.decodeLike rt (m.encode rt) = some m) := by
  constructor
  · exact decodeLike_encode
  · intro bytes hread
    have hfits := fits_of_decodeLike hread
    refine ⟨hfits, fun hshort => ?_⟩
    rw [← decodeLike_of_decodeLike hread]
    exact decodeLike_encode hfits hshort

/-- The request to remove a file of a job, with numbers of two bytes and of a sign. -/
def removal : WireMessage :=
  action { Wire.createBaseFileAction with removeFile := some ⟨300, "a", -1⟩ }

/-- The request that removes the demo file fits its fields. -/
theorem removal_fits : removal.Fits := by
  constructor <;> simp [Wire.createBaseFileAction]
  constructor <;> decide

/-- Its bytes are short. -/
theorem short_removal : Short (removal.encode Varint.runtime) := by decide

/-- It is read back, as it fits its fields. -/
theorem removal_roundTrip :
    removal.decodeLike Varint.runtime (removal.encode Varint.runtime) = some removal ∧
    removal.Fits := by
  have hread := (roundTrip_and_wellFormed Varint.runtime removal removal).1 removal_fits
    short_removal
  exact ⟨hread, ((roundTrip_and_wellFormed Varint.runtime removal removal).2 _ hread).1⟩

end WireMessage

namespace OutMessage

open Wire WireMessage

/-- An entry of `receiveAction`. -/
def fileEntry (entry : FileEntry) : Wire.FileEntry :=
  ⟨entry.entryType, entry.name, false, entry.size, entry.modifiedTime.toNat⟩

/-- The message a builder makes: `receiveAction`, `digestResponse`, `blockResponse` and so on. -/
def build : OutMessage → WireMessage
  | .receive id path files fileNum totalSize =>
    action { createBaseFileAction with
      receive := some ⟨id, path, files.map fileEntry, fileNum, totalSize⟩ }
  | .digest id fileNum fileSize lastModified =>
    response { createBaseFileResponse with
      digest := some ⟨id, fileNum, lastModified.toNat, fileSize, true, false⟩ }
  | .block id fileNum data compressed blkId =>
    response { createBaseFileResponse with block := some ⟨id, fileNum, data, compressed, blkId⟩ }
  | .done id fileNum => response { createBaseFileResponse with done := some ⟨id, fileNum⟩ }
  | .send id path fileNum includeHidden =>
    action { createBaseFileAction with send := some ⟨id, path, includeHidden, fileNum⟩ }
  | .sendConfirm id fileNum skip offsetBlk =>
    action { createBaseFileAction with
      sendConfirm := some
        (if skip then ⟨id, fileNum, some true, none⟩ else ⟨id, fileNum, none, some offsetBlk⟩) }
  | .cancel id => action { createBaseFileAction with cancel := some ⟨id⟩ }
  | .removeFile id path fileNum =>
    action { createBaseFileAction with removeFile := some ⟨id, path, fileNum⟩ }
  | .createDir id path => action { createBaseFileAction with create := some ⟨id, path⟩ }
  | .rename id path newName =>
    action { createBaseFileAction with rename := some ⟨id, path, newName⟩ }
  | .allFiles id path includeHidden =>
    action { createBaseFileAction with allFiles := some ⟨id, path, includeHidden⟩ }
  | .removeDir id path =>
    action { createBaseFileAction with removeDir := some ⟨id, path, true⟩ }
  | .readDir path includeHidden =>
    action { createBaseFileAction with readDir := some ⟨path, includeHidden⟩ }
  | .readEmptyDirs path includeHidden =>
    action { createBaseFileAction with readEmptyDirs := some ⟨path, includeHidden⟩ }

/-- The times are not before the epoch, so that the wire has room for them. -/
def NonnegTimes : OutMessage → Prop
  | .receive _ _ files _ _ => ∀ entry ∈ files, 0 ≤ entry.modifiedTime
  | .digest _ _ _ lastModified => 0 ≤ lastModified
  | _ => True

/-- A skipped file has no offset on the wire. -/
def onWire : OutMessage → OutMessage
  | .sendConfirm id fileNum true _ => .sendConfirm id fileNum true 0
  | m => m

/-- The entry as the builder was given it. -/
def entryOf (entry : Wire.FileEntry) : FileEntry :=
  ⟨entry.name, entry.size, entry.modifiedTime, entry.entryType.toNat⟩

/-- An entry is read as it was written, if its time is not negative. -/
theorem entryOf_fileEntry {entry : FileEntry} (h : 0 ≤ entry.modifiedTime) :
    entryOf (fileEntry entry) = entry := by
  cases entry
  simp only [entryOf, fileEntry] at h ⊢
  simp [Int.toNat_of_nonneg h]

/-- Entries are read as they were written, if their times are not negative. -/
theorem map_entryOf_fileEntry {files : List FileEntry}
    (h : ∀ entry ∈ files, 0 ≤ entry.modifiedTime) :
    (files.map fileEntry).map entryOf = files := by
  induction files with
  | nil => rfl
  | cons entry files ih =>
    obtain ⟨hentry, hfiles⟩ := List.forall_mem_cons.mp h
    rw [List.map_cons, List.map_cons, entryOf_fileEntry hentry, ih hfiles]

/-- The call a message stands for, by the attribute that is set. -/
def ofWire : WireMessage → Option OutMessage
  | action m =>
    (m.readDir.map fun d => .readDir d.path d.includeHidden) <|>
    (m.send.map fun r => .send r.id r.path r.fileNum r.includeHidden) <|>
    (m.receive.map fun r => .receive r.id r.path (r.files.map entryOf) r.fileNum r.totalSize) <|>
    (m.create.map fun d => .createDir d.id d.path) <|>
    (m.removeDir.map fun d => .removeDir d.id d.path) <|>
    (m.removeFile.map fun f => .removeFile f.id f.path f.fileNum) <|>
    (m.allFiles.map fun f => .allFiles f.id f.path f.includeHidden) <|>
    (m.cancel.map fun c => .cancel c.id) <|>
    (m.sendConfirm.map fun c =>
      .sendConfirm c.id c.fileNum (c.skip.getD false) (c.offsetBlk.getD 0)) <|>
    (m.rename.map fun r => .rename r.id r.path r.newName) <|>
    (m.readEmptyDirs.map fun d => .readEmptyDirs d.path d.includeHidden)
  | response m =>
    (m.block.map fun b => .block b.id b.fileNum b.data b.compressed b.blkId) <|>
    (m.done.map fun d => .done d.id d.fileNum) <|>
    (m.digest.map fun d => .digest d.id d.fileNum d.fileSize d.lastModified)

/-- A message that is built is read as what goes over the wire. -/
theorem ofWire_build {m : OutMessage} (h : m.NonnegTimes) : ofWire m.build = some m.onWire := by
  cases m with
  | receive id path files fileNum totalSize =>
    have hfiles := map_entryOf_fileEntry h
    simp only [build, ofWire, createBaseFileAction, onWire, Option.map_none, Option.map_some,
      hfiles]
    rfl
  | digest id fileNum fileSize lastModified =>
    have htime : (lastModified.toNat : ℤ) = lastModified := Int.toNat_of_nonneg h
    simp only [build, ofWire, createBaseFileResponse, onWire, Option.map_none, Option.map_some,
      htime]
    rfl
  | sendConfirm id fileNum skip offsetBlk => cases skip <;> rfl
  | _ => rfl

/-- **What is sent arrives.** The host reads from the bytes of a queued message exactly this
message, also when fields it does not know stand between the others; only the offset of a
skipped file is not there. -/
theorem sent_arrives (rt : WireRuntime) {m : OutMessage} (hfits : m.build.Fits)
    (htimes : m.NonnegTimes) (hshort : Short (m.build.encode rt)) {mixed : List (List UInt8)}
    (hmixed : m.build.Interspersed rt mixed) :
    (m.build.decodeLike rt mixed.flatten).bind ofWire = some m.onWire := by
  rw [decodeLike_interspersed hfits hshort hmixed, Option.bind_some]
  exact ofWire_build htimes

/-- A field fifteen of a later version in front of the request to remove a file. -/
theorem removeFile_arrives :
    ((OutMessage.removeFile 300 "a" (-1)).build.decodeLike Varint.runtime
      ([[120, 1], removal.encode Varint.runtime].flatten)).bind ofWire =
      some (.removeFile 300 "a" (-1)) := by
  have hunknown : MessageType.Unknown (fileAction Varint.runtime) Varint.runtime
      [120, 1] 120 [1] :=
    { chunk_eq := by decide
      tag_lt := by decide
      tag_ne := by decide
      not_end := by decide
      no_field := by decide
      skipped := fun rest => rfl }
  have hown : removal.Interspersed Varint.runtime [[120, 1], removal.encode Varint.runtime] := by
    have hchunks : (fileAction Varint.runtime).chunks Varint.runtime
        { createBaseFileAction with removeFile := some ⟨300, "a", -1⟩ } =
        [removal.encode Varint.runtime] := by decide
    show MessageType.Interspersed _ _ ((fileAction Varint.runtime).chunks Varint.runtime _) _
    rw [hchunks]
    exact .unknown hunknown (MessageType.interspersed_self _)
  exact sent_arrives Varint.runtime (m := .removeFile 300 "a" (-1)) removal_fits trivial
    short_removal hown

end OutMessage

end RdWeb.FileTransfer
