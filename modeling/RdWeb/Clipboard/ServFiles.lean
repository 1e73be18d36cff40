import RdWeb.Clipboard.LocalFile
import RdWeb.Lib.LittleEndian

/-!
# Serving file contents to a peer

`serv_files.rs`: the fields of a request are cast to 64 bits, the range is clamped
to the file, the bytes are read into a fresh buffer, and the next file of the list
is opened ahead of time. A panic is an outcome of its own.
-/

namespace RdWeb.Clipboard

/-- A call that panics, or returns a response or an error. -/
abbrev Served := Except Panic (Except CliprdrError FileContentsResponse)

/-- The cached file list. -/
structure ClipFiles where
  files : List String
  fileList : List LocalFile
  filesPdu : List UInt8

namespace ClipFiles

/-- `FileContentsRequest` of `serv_files.rs`, decoded from the message. -/
inductive FileContentsRequest
  | size (streamId : BitVec 32) (fileIdx : ℕ)
  | range (streamId : BitVec 32) (fileIdx offset length : ℕ)
  deriving DecidableEq

/-- The clamp of the range. `checked` says whether the build checks for overflow. -/
def readSize (checked : Bool) (size offset length : ℕ) : Except Panic ℕ :=
  if 2 ^ 64 ≤ offset + length ∧ checked then .error .arithmeticOverflow
  else if size < (offset + length) % 2 ^ 64 then .ok (size - offset)
  else .ok length

/-- `vec![0u8; n]`, which panics when `n` exceeds `isize::MAX`. -/
def allocate (n : ℕ) : Except Panic ℕ :=
  if n < 2 ^ 63 then .ok n else .error .capacityOverflow

/-- The error for a file that is not in the list. -/
def invalidIndex (fileIdx : ℕ) (connId : BitVec 32) : CliprdrError :=
  let conn := connId.toInt
  .invalidRequest s!"invalid file index {fileIdx} requested from conn: {conn}"

/-- The error for an offset past the end. -/
def invalidOffset (connId : BitVec 32) : CliprdrError :=
  let conn := connId.toInt
  .invalidRequest s!"invalid reading offset requested from conn: {conn}"

/-- The size branch of `serve_file_contents`. -/
def serveSize (s : ClipFiles) (connId streamId : BitVec 32) (fileIdx : ℕ) : Served :=
  match s.fileList[fileIdx]? with
  | none => .ok (.error (invalidIndex fileIdx connId))
  | some file => .ok (.ok ⟨0x1, streamId, LittleEndian.toBytes 8 file.size⟩)

/-- The response to a range once its bytes are read. -/
def answerRead (s : ClipFiles) (streamId : BitVec 32) (fileIdx : ℕ) :
    LocalFile × Except CliprdrError (List UInt8) → ClipFiles × Served
  | (file, .error e) =>
    ({ s with fileList := s.fileList.set fileIdx file }, .ok (.error e))
  | (file, .ok buf) =>
    ({ s with fileList := s.fileList.set fileIdx file }, .ok (.ok ⟨0x1, streamId, buf⟩))

/-- The range branch of `serve_file_contents`. -/
def serveRange (fs : FileSystem) (checked : Bool) (s : ClipFiles) (connId streamId : BitVec 32)
    (fileIdx offset length : ℕ) : ClipFiles × Served :=
  match s.fileList[fileIdx]? with
  | none => (s, .ok (.error (invalidIndex fileIdx connId)))
  | some file =>
    if file.size < offset then (s, .ok (.error (invalidOffset connId)))
    else
      match (readSize checked file.size offset length).bind allocate with
      | .error p => (s, .error p)
      | .ok n => s.answerRead streamId fileIdx (file.readExactAt fs n offset)

/-- The loop that opens the first file that is not a directory. -/
def loadFirstFile (fs : FileSystem) :
    List LocalFile → List LocalFile × Except CliprdrError Unit
  | [] => ([], .ok ())
  | file :: rest =>
    if file.isDir then
      let (rest, result) := loadFirstFile fs rest
      (file :: rest, result)
    else
      let (file, result) := file.loadHandle fs
      (file :: rest, result)

/-- The end of `serve_file_contents`: after a response, load the next file. -/
def hotReload (fs : FileSystem) (s : ClipFiles) (fileIdx : ℕ) (response : FileContentsResponse) :
    ClipFiles × Served :=
  let (later, result) := loadFirstFile fs (s.fileList.drop (fileIdx + 1))
  let s := { s with fileList := s.fileList.take (fileIdx + 1) ++ later }
  match result with
  | .error e => (s, .ok (.error e))
  | .ok () => (s, .ok (.ok response))

/-- A request is answered, and a panic stays a panic. -/
def serveFileContents (fs : FileSystem) (checked : Bool) (s : ClipFiles) (connId : BitVec 32)
    (request : FileContentsRequest) : ClipFiles × Served :=
  let (fileIdx, s, served) :=
    match request with
    | .size streamId fileIdx => (fileIdx, s, s.serveSize connId streamId fileIdx)
    | .range streamId fileIdx offset length =>
      (fileIdx, s.serveRange fs checked connId streamId fileIdx offset length)
  match served with
  | .ok (.ok response) => s.hotReload fs fileIdx response
  | .ok (.error e) => (s, .ok (.error e))
  | .error p => (s, .error p)

end ClipFiles

namespace FileContentsRequest

/-- `list_index as usize`. -/
def fileIdx (r : FileContentsRequest) : ℕ := (r.listIndex.signExtend 64).toNat

/-- `(n_position_high as u64) << 32 | n_position_low as u64`. -/
def offset (r : FileContentsRequest) : ℕ :=
  (r.nPositionHigh.signExtend 64 <<< 32 ||| r.nPositionLow.signExtend 64).toNat

/-- `cb_requested as u64`. -/
def length (r : FileContentsRequest) : ℕ := (r.cbRequested.signExtend 64).toNat

/-- The request that `read_file_contents` serves, if the flags name one. -/
def decode (r : FileContentsRequest) : Except CliprdrError ClipFiles.FileContentsRequest :=
  let dwFlags := r.dwFlags.toInt
  if r.dwFlags = 1#32 then .ok (.size r.streamId r.fileIdx)
  else if r.dwFlags = 2#32 then .ok (.range r.streamId r.fileIdx r.offset r.length)
  else .error (.invalidRequest s!"got invalid FileContentsRequest, dw_flats: {dwFlags}")

end FileContentsRequest

/-- `read_file_contents` on the fields of a message. -/
def readFileContents (fs : FileSystem) (checked : Bool) (s : ClipFiles) (connId : BitVec 32)
    (r : FileContentsRequest) : ClipFiles × Served :=
  match r.decode with
  | .error e => (s, .ok (.error e))
  | .ok request => s.serveFileContents fs checked connId request

end RdWeb.Clipboard
