import RdWeb.Clipboard.Descriptor

/-!
# What of a file list survives its encoding

Reading a written list always succeeds unless a name is longer than its field, and
gives the entries computed by `described`. They agree with the files exactly for
names in UTF-8 and times the format can hold.
-/

namespace RdWeb.Clipboard

open FileDescription

namespace LocalFile

/-- The entry that reading the record of a file gives. -/
def described (connId : BitVec 32) (f : LocalFile) : FileDescription :=
  let time : SystemTime := (f.lastWriteTime.toNat % 2 ^ 64 / 100 * 100 : ℕ)
  { connId := connId
    name := .ofString (.ofList (nameOf f.nameChars))
    kind := if f.isDir then .directory else .file
    atime := time
    lastModified := time
    lastMetadataChanged := time
    creationTime := time
    size := .ofNat 64 f.size
    perm := f.perm.setWidth 16 }

/-- The directory bit is set for directories. -/
theorem fileAttributes_directory (f : LocalFile) :
    f.fileAttributes &&& 0x10 ≠ 0 ↔ f.isDir = true := by
  unfold fileAttributes
  generalize f.readOnly = readOnly, f.hidden = hidden, f.system = system, f.isDir = isDir,
    f.archive = archive, f.normal = normal
  revert readOnly hidden system isDir archive normal
  decide

/-- The padding of a name is not part of it. -/
theorem nameOf_append_nulls (text : List Char) (k : ℕ) :
    nameOf (text ++ List.replicate k '\x00') = nameOf text := by
  induction k with
  | zero => simp
  | succ k ih =>
    rw [List.replicate_succ', ← List.append_assoc, ← ih]
    unfold nameOf
    rw [List.map_append, List.map_singleton, List.rdropWhile_concat_pos _ _ _ (by decide)]

/-- The length of the name field before padding. -/
def nameUnits (f : LocalFile) : ℕ := (Utf16.encode f.nameChars).length

/-- A name fits its field up to 520 bytes. -/
theorem namePadding_isOk_iff (checked : Bool) {nameLen : ℕ} :
    (∃ padding, namePadding checked nameLen = .ok padding) ↔ nameLen ≤ 520 := by
  unfold namePadding
  split_ifs with hfits <;> simp [hfits]

/-- Writing a record panics exactly when the name is longer than its field. -/
theorem asBin_isOk_iff (checked : Bool) {f : LocalFile} :
    (∃ bin, f.asBin checked = .ok bin) ↔ f.nameUnits ≤ 260 := by
  have hunits : f.nameUnits ≤ 260 ↔ (Utf16.encodeLE f.nameChars).length ≤ 520 := by
    rw [Utf16.length_encodeLE, nameUnits]
    omega
  rw [hunits, ← namePadding_isOk_iff checked, asBin]
  rcases namePadding checked (Utf16.encodeLE f.nameChars).length with p | padding
  · simp [Except.map]
  · simp [Except.map]

/-- The name field, padding included, as the encoding of a padded text. -/
theorem namePadding_eq {checked : Bool} {f : LocalFile} {padding : List UInt8}
    (h : namePadding checked (Utf16.encodeLE f.nameChars).length = .ok padding) :
    Utf16.encodeLE f.nameChars ++ padding =
      Utf16.encodeLE (f.nameChars ++ List.replicate (260 - f.nameUnits) '\x00') ∧
    (Utf16.encodeLE f.nameChars ++ padding).length = 520 := by
  unfold namePadding at h
  split_ifs at h with hfits
  obtain rfl := Except.ok.inj h
  rw [Utf16.length_encodeLE] at hfits ⊢
  have hhalf : 520 - 2 * (Utf16.encode f.nameChars).length = 2 * (260 - f.nameUnits) := by
    unfold nameUnits
    omega
  refine ⟨?_, ?_⟩
  · rw [Utf16.encodeLE_append, hhalf, Utf16.replicate_zero_eq_encodeLE]
  · rw [List.length_append, List.length_replicate, Utf16.length_encodeLE]
    omega

/-- The time of a file is read back in steps of 100 nanoseconds, modulo the field. -/
theorem lastModifiedOf_win32Time (checked : Bool) (f : LocalFile) :
    lastModifiedOf checked descriptorFlags f.win32Time =
      .ok (f.lastWriteTime.toNat % 2 ^ 64 / 100 * 100 : ℕ) := by
  have hflag : descriptorFlags &&& FLAGS_FD_LAST_WRITE ≠ 0 := by decide
  have hdelta : LDAP_EPOCH_DELTA ≤ f.win32Time := Nat.le_add_left _ _
  have hdiff : f.win32Time - LDAP_EPOCH_DELTA = f.lastWriteTime.toNat % 2 ^ 64 / 100 :=
    Nat.add_sub_cancel _ _
  have hlt : f.lastWriteTime.toNat % 2 ^ 64 / 100 * 100 < 2 ^ 64 := by omega
  rw [lastModifiedOf, if_pos ⟨hflag, hdelta⟩, hdiff]
  simp only [Nat.not_le.mpr hlt, false_and, if_false, Nat.mod_eq_of_lt hlt]

/-- A record has 592 bytes. -/
theorem length_record (f : LocalFile) {nameField : List UInt8} (h : nameField.length = 520) :
    (f.record nameField).length = 592 := by
  simp [record, h]

/-- Dropping the padding leaves the rest. -/
theorem drop_replicate_append (n : ℕ) (rest : List UInt8) :
    (List.replicate n 0 ++ rest).drop n = rest := by
  simp

/-- The fields that reading a record gives. -/
def rawRecord (f : LocalFile) (nameField : List UInt8) : RawRecord where
  flags := descriptorFlags
  attributes := f.fileAttributes
  perm := f.perm.toNat
  lastWriteTime := f.win32Time
  fileSizeHigh := f.size / 2 ^ 32
  fileSizeLow := f.size % 2 ^ 32
  block := nameField

/-- A time fits its eight bytes. -/
theorem win32Time_lt (f : LocalFile) : f.win32Time < 256 ^ 8 := by
  unfold win32Time LDAP_EPOCH_DELTA
  omega

/-- A word is read back from its four bytes. -/
theorem get_word (x : BitVec 32) (rest : List UInt8) :
    LittleEndian.get 4 (LittleEndian.toBytes 4 x.toNat ++ rest) = (x.toNat, rest) :=
  LittleEndian.get_toBytes_append_of_lt x.isLt rest

/-- A record is read back field by field. -/
theorem readRecord_record (f : LocalFile) {nameField : List UInt8} (hlength : nameField.length = 520)
    (rest : List UInt8) :
    readRecord (f.record nameField ++ rest) = (f.rawRecord nameField, rest) := by
  have hhigh : f.size / 2 ^ 32 < 256 ^ 4 := by
    have hlt := f.size_lt
    omega
  have hlow : f.size % 2 ^ 32 < 256 ^ 4 := by omega
  have hofNat : ∀ x : BitVec 32, BitVec.ofNat 32 x.toNat = x := fun x => by
    rw [BitVec.ofNat_toNat, BitVec.setWidth_eq]
  unfold readRecord record rawRecord
  repeat rw [List.append_assoc]
  rw [get_word]
  dsimp only
  rw [drop_replicate_append, get_word]
  dsimp only
  rw [drop_replicate_append, get_word]
  dsimp only
  rw [LittleEndian.get_toBytes_append_of_lt f.win32Time_lt]
  dsimp only
  rw [LittleEndian.get_toBytes_append_of_lt hhigh]
  dsimp only
  rw [LittleEndian.get_toBytes_append_of_lt hlow]
  dsimp only
  rw [List.take_left' hlength, List.drop_left' hlength, hofNat, hofNat]

/-- Parsing a record with valid attributes, once its name and time are known. -/
theorem parseFileDescriptor_of {checked : Bool} {connId : BitVec 32} {r : RawRecord}
    {wstr : List Char} {lastModified : SystemTime} (hname : Utf16.decodeLE r.block = some wstr)
    (hvalid : r.flags &&& FLAGS_FD_ATTRIBUTES ≠ 0)
    (hlast : lastModifiedOf checked r.flags r.lastWriteTime = .ok lastModified) :
    parseFileDescriptor checked connId r = .ok (.ok {
      connId := connId
      name := .ofString (.ofList (nameOf wstr))
      kind := if r.attributes &&& 0x10 ≠ 0 then .directory else .file
      atime := lastModified
      lastModified := lastModified
      lastMetadataChanged := lastModified
      creationTime := lastModified
      size := .ofNat 64 (r.fileSizeHigh * 2 ^ 32 + r.fileSizeLow)
      perm := permOf r.flags r.attributes r.perm }) := by
  unfold parseFileDescriptor
  rw [hname, hlast]
  simp only [if_neg hvalid, Except.map]

/-- Parsing the fields of a record whose name field holds a text. -/
theorem parseFileDescriptor_rawRecord {checked : Bool} {connId : BitVec 32} {f : LocalFile}
    {nameField : List UInt8} {wstr : List Char} (hname : Utf16.decodeLE nameField = some wstr)
    (hwstr : nameOf wstr = nameOf f.nameChars) :
    parseFileDescriptor checked connId (f.rawRecord nameField) =
      .ok (.ok (f.described connId)) := by
  have hvalid : descriptorFlags &&& FLAGS_FD_ATTRIBUTES ≠ 0 := by decide
  have hperm : permOf descriptorFlags f.fileAttributes f.perm.toNat = f.perm.setWidth 16 := by
    have hunix : descriptorFlags &&& FLAGS_FD_UNIX_MODE ≠ 0 := by decide
    rw [permOf, if_pos hunix, BitVec.ofNat_toNat]
  have hsize : f.size / 2 ^ 32 * 2 ^ 32 + f.size % 2 ^ 32 = f.size := by omega
  rw [parseFileDescriptor_of (r := f.rawRecord nameField) hname hvalid
    (lastModifiedOf_win32Time checked f)]
  unfold rawRecord described
  dsimp only
  rw [hwstr, hperm, hsize]
  simp only [fileAttributes_directory]

/-- **One record.** Reading a written record gives the described entry and the bytes
after the record. -/
theorem parse_asBin {checked : Bool} {f : LocalFile} {bin : List UInt8}
    (h : f.asBin checked = .ok bin) :
    bin.length = 592 ∧ ∀ (connId : BitVec 32) (rest : List UInt8), ∃ record,
      readRecord (bin ++ rest) = (record, rest) ∧
        parseFileDescriptor checked connId record = .ok (.ok (f.described connId)) := by
  unfold asBin at h
  cases hpad : namePadding checked (Utf16.encodeLE f.nameChars).length with
  | error p => simp [hpad, Except.map] at h
  | ok padding =>
    obtain ⟨hname, hlength⟩ := namePadding_eq hpad
    obtain rfl : f.record (Utf16.encodeLE f.nameChars ++ padding) = bin := by
      simpa [hpad, Except.map] using h
    refine ⟨f.length_record hlength, fun connId rest =>
      ⟨_, f.readRecord_record hlength rest, ?_⟩⟩
    have hdecode := Utf16.decodeLE_encodeLE
      (f.nameChars ++ List.replicate (260 - f.nameUnits) '\x00')
    rw [← hname] at hdecode
    exact parseFileDescriptor_rawRecord hdecode (nameOf_append_nulls _ _)

/-- An entry agrees with the file it stands for; times are truncated to 100 ns. -/
structure Agrees (f : LocalFile) (d : FileDescription) : Prop where
  name : d.name = f.relativePath
  kind : d.kind = if f.isDir then .directory else .file
  size : d.size.toNat = f.size
  perm : d.perm = f.perm.setWidth 16
  time : d.lastModified = f.lastWriteTime.tdiv 100 * 100

/-- The record of a file can hold its name and time. -/
structure Portable (f : LocalFile) : Prop where
  utf8 : f.relativePath.toStr.isSome = true
  short : f.nameUnits ≤ 260
  after_epoch : -100 < f.lastWriteTime
  before_overflow : f.lastWriteTime < 2 ^ 64

/-- A time is read back exactly where the field holds it. -/
theorem time_eq_iff (t : ℤ) :
    ((t.toNat % 2 ^ 64 / 100 * 100 : ℕ) : ℤ) = t.tdiv 100 * 100 ↔ -100 < t ∧ t < 2 ^ 64 := by
  obtain ⟨n, rfl | rfl⟩ := t.eq_nat_or_neg
  · have hdiv : (n : ℤ).tdiv 100 = (n / 100 : ℕ) := by
      rw [Int.tdiv_eq_ediv_of_nonneg (by omega)]
      omega
    rw [hdiv, Int.toNat_natCast]
    omega
  · have hdiv : (-(n : ℤ)).tdiv 100 = -(n / 100 : ℕ) := by
      rw [Int.neg_tdiv, Int.tdiv_eq_ediv_of_nonneg (by omega)]
      omega
    have hzero : (-(n : ℤ)).toNat = 0 := by omega
    rw [hdiv, hzero]
    omega

/-- A text without backslashes and nulls is its own name. -/
theorem nameOf_eq_self {text : List Char} (hback : '\\' ∉ text) (hnull : '\x00' ∉ text) :
    nameOf text = text := by
  have hmap : (text.map fun c => if c = '\\' then '/' else c) = text := by
    conv_rhs => rw [← List.map_id text]
    refine List.map_congr_left fun c hc => ?_
    have hne : c ≠ '\\' := fun h => hback (h ▸ hc)
    rw [if_neg hne, id]
  rw [nameOf, hmap, List.rdropWhile_eq_self_iff]
  intro hne hlast
  rw [decide_eq_true_eq] at hlast
  exact hnull (hlast ▸ List.getLast_mem hne)

/-- A name is read back exactly if it is text. -/
theorem described_name_iff (connId : BitVec 32) {f : LocalFile} (hback : 92 ∉ f.relativePath)
    (hnull : 0 ∉ f.relativePath) :
    (f.described connId).name = f.relativePath ↔ f.relativePath.toStr.isSome = true := by
  have hname : (f.described connId).name = PathBuf.ofString (.ofList (nameOf f.nameChars)) := by
    dsimp only [described]
  rw [hname]
  constructor
  · intro h
    rw [← h, PathBuf.toStr_ofString]
    rfl
  · intro h
    obtain ⟨s, hs⟩ := Option.isSome_iff_exists.mp h
    have hbytes := PathBuf.ofString_of_toStr hs
    have hchars : f.nameChars = s.toList := by
      simp [nameChars, PathBuf.toStringLossy, hs]
    have hself : nameOf s.toList = s.toList := by
      refine nameOf_eq_self (fun hc => hback ?_) (fun hc => hnull ?_)
      · rw [← hbytes]
        exact PathBuf.mem_ofString hc (by decide)
      · rw [← hbytes]
        exact PathBuf.mem_ofString hc (by decide)
    rw [hchars, hself, String.ofList_toList, hbytes]

/-- The entry that is read agrees with the file exactly for names in UTF-8 and times the
format holds. -/
theorem agrees_described_iff {connId : BitVec 32} {f : LocalFile} (hback : 92 ∉ f.relativePath)
    (hnull : 0 ∉ f.relativePath) :
    f.Agrees (f.described connId) ↔
      f.relativePath.toStr.isSome = true ∧ -100 < f.lastWriteTime ∧ f.lastWriteTime < 2 ^ 64 := by
  rw [← described_name_iff connId hback hnull, ← time_eq_iff]
  constructor
  · intro h
    exact ⟨h.name, by simpa only [described] using h.time⟩
  · rintro ⟨hname, htime⟩
    have hsize : (BitVec.ofNat 64 f.size).toNat = f.size := by
      have hlt := f.size_lt
      rw [BitVec.toNat_ofNat]
      omega
    exact ⟨hname, by dsimp only [described], by simpa only [described] using hsize,
      by dsimp only [described], by simpa only [described] using htime⟩

end LocalFile

section Lists

variable {checked : Bool} {connId : BitVec 32} {files : List LocalFile}

variable (checked) in
/-- A list of records is built if every name fits. -/
theorem recordsOf_isOk_iff :
    (∃ data, recordsOf checked files = .ok data) ↔ ∀ f ∈ files, f.nameUnits ≤ 260 := by
  induction files with
  | nil => simp [recordsOf]
  | cons f files ih =>
    rw [List.forall_mem_cons, ← ih, ← LocalFile.asBin_isOk_iff checked, recordsOf]
    rcases f.asBin checked with p | bin
    · simp [Except.bind]
    · rcases recordsOf checked files with p | data
      · simp [Except.bind, Except.map]
      · simp [Except.bind, Except.map]

variable (connId) in
/-- **Every record.** Reading the written records gives every described entry, in order. -/
theorem parseRecords_recordsOf {data : List UInt8} (h : recordsOf checked files = .ok data) :
    data.length = 592 * files.length ∧
      parseRecords checked connId files.length data =
        .ok (.ok (files.map (LocalFile.described connId))) := by
  induction files generalizing data with
  | nil =>
    obtain rfl : [] = data := by simpa [recordsOf] using h
    exact ⟨rfl, rfl⟩
  | cons f files ih =>
    rw [recordsOf] at h
    cases hbin : f.asBin checked with
    | error p => simp [hbin, Except.bind] at h
    | ok bin =>
      cases hrest : recordsOf checked files with
      | error p => simp [hbin, hrest, Except.bind, Except.map] at h
      | ok rest =>
        obtain rfl : bin ++ rest = data := by
          simpa [hbin, hrest, Except.bind, Except.map] using h
        obtain ⟨hlength, hparse⟩ := LocalFile.parse_asBin hbin
        obtain ⟨hrestLength, hrestParse⟩ := ih hrest
        obtain ⟨record, hread, hrecord⟩ := hparse connId rest
        refine ⟨?_, ?_⟩
        · rw [List.length_append, hlength, hrestLength, List.length_cons]
          omega
        · rw [List.length_cons, parseRecords, hread]
          simp [hrecord, hrestParse, Except.map]

variable (connId) in
/-- Reading a written list succeeds exactly when its length fits the count. -/
theorem parseFileDescriptors_build {pdu : List UInt8}
    (h : buildFileListPdu checked files = .ok pdu) :
    pdu.length = 4 + 592 * files.length ∧
      parseFileDescriptors checked pdu connId =
        if files.length < 2 ^ 32 then .ok (.ok (files.map (LocalFile.described connId)))
        else .ok (.error (.invalidRequest "file descriptor request with invalid length")) := by
  unfold buildFileListPdu at h
  cases hdata : recordsOf checked files with
  | error p => simp [hdata, Except.map] at h
  | ok data =>
    obtain rfl : LittleEndian.toBytes 4 files.length ++ data = pdu := by
      simpa [hdata, Except.map] using h
    obtain ⟨hlength, hparse⟩ := parseRecords_recordsOf connId hdata
    have hfour : ¬ (LittleEndian.toBytes 4 files.length ++ data).length < 4 := by simp
    refine ⟨by simp [hlength], ?_⟩
    rw [parseFileDescriptors, if_neg hfour, LittleEndian.get_toBytes_append]
    dsimp only
    rcases Nat.lt_or_ge files.length (2 ^ 32) with hsmall | hlarge
    · have hcount : files.length % 256 ^ 4 = files.length := Nat.mod_eq_of_lt hsmall
      rw [hcount, if_pos hsmall, hparse]
      split_ifs with hempty hwrong
      · have hnil : files = [] := List.length_eq_zero_iff.mp hempty.2
        rw [hnil]
        rfl
      · exact absurd hlength hwrong
      · rfl
    · have hwrong : data.length ≠ 592 * (files.length % 256 ^ 4) := by omega
      have hsome : ¬ (data.length = 0 ∧ files.length % 256 ^ 4 = 0) := by omega
      rw [if_neg hsome, if_pos hwrong, if_neg (by omega)]

variable (checked connId files) in
/-- The list is written in full without a panic, and reading it gives an agreeing entry
for every file, in order. -/
def Carried : Prop :=
  ∃ pdu, buildFileListPdu checked files = .ok pdu ∧ pdu.length = 4 + 592 * files.length ∧
    ∃ entries, parseFileDescriptors checked pdu connId = .ok (.ok entries) ∧
      List.Forall₂ LocalFile.Agrees files entries

/-- Files of a constructed list have no null byte in their paths. -/
theorem zero_notMem_relativePath {fs : FileSystem} {relativeRoot path : PathBuf} {f : LocalFile}
    (h : LocalFile.tryOpen fs relativeRoot path = .ok f) : 0 ∉ f.relativePath := by
  obtain ⟨hsame, hnull, -, -⟩ := LocalFile.tryOpen_spec h
  have hpath : 0 ∉ f.path := by rwa [hsame]
  intro hmem
  unfold LocalFile.relativePath at hmem
  cases hstrip : f.path.stripPrefix f.relativeRoot with
  | none =>
    rw [hstrip] at hmem
    exact hpath hmem
  | some q =>
    rw [hstrip] at hmem
    exact hpath (PathBuf.mem_of_mem_stripPrefix hstrip (by decide) (by decide) hmem)

/-- **File descriptor codec.** A constructed list without backslashes is carried exactly
when its length fits the count and every file is portable. -/
theorem carried_iff {fs : FileSystem} {fuel : ℕ} {paths : List PathBuf}
    (hlist : constructFileList fs fuel paths = some (.ok files))
    (hback : ∀ f ∈ files, 92 ∉ f.relativePath) :
    Carried checked connId files ↔ files.length < 2 ^ 32 ∧ ∀ f ∈ files, f.Portable := by
  have hnull : ∀ f ∈ files, 0 ∉ f.relativePath :=
    forall_of_constructFileList (fun _ _ _ => zero_notMem_relativePath) hlist
  have hagrees : List.Forall₂ LocalFile.Agrees files (files.map (LocalFile.described connId)) ↔
      ∀ f ∈ files, f.relativePath.toStr.isSome = true ∧ -100 < f.lastWriteTime ∧
        f.lastWriteTime < 2 ^ 64 := by
    rw [List.forall₂_map_right_iff, List.forall₂_same]
    exact forall₂_congr fun f hf => LocalFile.agrees_described_iff (hback f hf) (hnull f hf)
  constructor
  · rintro ⟨pdu, hpdu, -, entries, hentries, hall⟩
    obtain ⟨-, hparse⟩ := parseFileDescriptors_build connId hpdu
    rw [hentries] at hparse
    split_ifs at hparse with hsmall
    · rw [Except.ok.inj (Except.ok.inj hparse)] at hall
      have hshort : ∀ f ∈ files, f.nameUnits ≤ 260 := by
        cases hdata : recordsOf checked files with
        | error p => simp [buildFileListPdu, hdata, Except.map] at hpdu
        | ok data => exact (recordsOf_isOk_iff _).mp ⟨data, hdata⟩
      refine ⟨hsmall, fun f hf => ?_⟩
      obtain ⟨hutf8, hlower, hupper⟩ := hagrees.mp hall f hf
      exact ⟨hutf8, hshort f hf, hlower, hupper⟩
    · cases Except.ok.inj hparse
  · rintro ⟨hsmall, hportable⟩
    obtain ⟨data, hdata⟩ := (recordsOf_isOk_iff checked).mpr fun f hf =>
      (hportable f hf).short
    have hpdu : buildFileListPdu checked files =
        .ok (LittleEndian.toBytes 4 files.length ++ data) := by
      simp [buildFileListPdu, hdata, Except.map]
    obtain ⟨hlength, hparse⟩ := parseFileDescriptors_build connId hpdu
    rw [if_pos hsmall] at hparse
    refine ⟨_, hpdu, hlength, _, hparse, hagrees.mpr fun f hf => ?_⟩
    exact ⟨(hportable f hf).utf8, (hportable f hf).after_epoch, (hportable f hf).before_overflow⟩

end Lists

/-- `carried_iff` on a list of one short name. -/
theorem carried_iff_short_name :
    Carried true 0 [threeByteFile [47, 97]] ↔
      [threeByteFile [47, 97]].length < 2 ^ 32 ∧ ∀ f ∈ [threeByteFile [47, 97]], f.Portable :=
  carried_iff (constructFileList_threeByteDisk (by decide) (by decide)) (by decide)

/-- A path directly under the root with a name of `n` letters. -/
def namePath (n : ℕ) : PathBuf := 47 :: List.replicate n 97

/-- A name of letters has no separator and is no dot name. -/
private theorem replicate_letter {n : ℕ} (hn : 3 ≤ n) :
    (47 : UInt8) ∉ List.replicate n 97 ∧ List.replicate n (97 : UInt8) ≠ [] ∧
      List.replicate n (97 : UInt8) ≠ [46] ∧ List.replicate n (97 : UInt8) ≠ [46, 46] := by
  have hlength : (List.replicate n (97 : UInt8)).length = n := List.length_replicate
  refine ⟨?_, ?_, ?_, ?_⟩
  · intro hmem
    exact absurd (List.eq_of_mem_replicate hmem) (by decide)
  · intro h
    simp only [h, List.length_nil] at hlength
    omega
  · intro h
    simp only [h, List.length_cons, List.length_nil] at hlength
    omega
  · intro h
    simp only [h, List.length_cons, List.length_nil] at hlength
    omega

/-- The relative path of a file named by letters. -/
theorem relativePath_namePath {n : ℕ} (hn : 3 ≤ n) :
    (threeByteFile (namePath n)).relativePath = List.replicate n 97 := by
  obtain ⟨hslash, hempty, hdot, hdots⟩ := replicate_letter hn
  exact congrArg (Option.getD · (namePath n))
    (PathBuf.stripPrefix_root hslash hempty hdot hdots)

/-- Its length in units. -/
theorem nameUnits_namePath {n : ℕ} (hn : 3 ≤ n) :
    (threeByteFile (namePath n)).nameUnits = n := by
  have hbytes : PathBuf.ofString (.ofList (List.replicate n 'a')) = List.replicate n 97 := by
    have hletter : String.utf8EncodeChar 'a' = [97] := by decide
    rw [PathBuf.ofString, String.toByteArray_ofList, List.utf8Encode, List.toList_data_toByteArray,
      List.flatMap_replicate, hletter, List.flatten_replicate_singleton]
  have hchars : (threeByteFile (namePath n)).nameChars = List.replicate n 'a' := by
    rw [LocalFile.nameChars, relativePath_namePath hn, ← hbytes, PathBuf.toStringLossy,
      PathBuf.toStr_ofString]
    exact String.toList_ofList
  have hletter : Utf16.units 'a' = [97] := by decide
  rw [LocalFile.nameUnits, hchars, Utf16.encode, List.flatMap_replicate, hletter,
    List.flatten_replicate_singleton, List.length_replicate]

/-- The list that is built from such a file. -/
theorem constructFileList_namePath {n : ℕ} (hn : 3 ≤ n) :
    constructFileList threeByteDisk 2 [namePath n] = some (.ok [threeByteFile (namePath n)]) := by
  obtain ⟨hslash, hempty, hdot, hdots⟩ := replicate_letter hn
  refine constructFileList_threeByteDisk ?_ (PathBuf.parent_root hslash hempty hdot hdots)
  intro hmem
  rcases List.mem_cons.mp hmem with hmem | hmem
  · exact absurd hmem (by decide)
  · exact absurd (List.eq_of_mem_replicate hmem) (by decide)

/-- A name that is too long for its field is not carried. -/
theorem not_carried_namePath {n : ℕ} (hn : 260 < n) {checked : Bool} {connId : BitVec 32} :
    ¬ Carried checked connId [threeByteFile (namePath n)] := by
  rintro ⟨pdu, hpdu, -⟩
  cases hdata : recordsOf checked [threeByteFile (namePath n)] with
  | error p => simp [buildFileListPdu, hdata, Except.map] at hpdu
  | ok data =>
    have hshort := (recordsOf_isOk_iff _).mp ⟨data, hdata⟩ _ (List.mem_singleton_self _)
    rw [nameUnits_namePath (by omega)] at hshort
    omega

/-- A name of 261 code units is a constructed list that is not carried. -/
theorem not_carried_long_name :
    ¬ ∀ checked connId fs fuel paths files, constructFileList fs fuel paths = some (.ok files) →
      (∀ f ∈ files, 92 ∉ f.relativePath) → Carried checked connId files := by
  intro h
  have hthree : 3 ≤ 261 := by omega
  refine not_carried_namePath (n := 261) (by omega)
    (h true 0 threeByteDisk 2 [namePath 261] _ (constructFileList_namePath hthree) ?_)
  intro f hf
  rw [List.mem_singleton.mp hf, relativePath_namePath hthree]
  intro hmem
  exact absurd (List.eq_of_mem_replicate hmem) (by decide)

end RdWeb.Clipboard
