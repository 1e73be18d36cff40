import RdWeb.Lib.Base64
import RdWeb.Lib.OrderedMap
import RdWeb.Lib.Trim
import RdWeb.Web.ApiServer

/-!
# The custom configuration

`helpers/config.ts` reads the text that the page carries: sections of settings, one to a line,
between comments. Its settings go to the storage of the browser, under both spellings of their
names.

The engine lists the keys of an object that are array indices before the others, where a map of the
model keeps the order of the text. No two keys of which one is an array index share a spelling, so
that what is stored does not depend on it; configurations are compared by what they look up.
-/

namespace RdWeb.Web

/-- Trimming as strings of the page do. -/
def trim (s : List Char) : List Char := Trim.trim isStrWhiteSpace s

/-- The keys of a section with their values. -/
abbrev IniSection : Type := OrderedMap String String

/-- The sections of a configuration. -/
abbrev IniConfig : Type := OrderedMap String IniSection

/-- What a line says. -/
inductive IniLine
  | ignored
  | sectionHeader (name : List Char)
  | setting (key value : List Char)
  deriving DecidableEq, Repr

/-- A trimmed line. -/
def readTrimmed (line : List Char) : IniLine :=
  if line = [] ∨ line.head? = some '#' ∨ line.head? = some ';' then .ignored
  else if line.head? = some '[' ∧ line.getLast? = some ']' then
    .sectionHeader (trim line.tail.dropLast)
  else
    let eqIdx := line.idxOf '='
    if 0 < eqIdx ∧ eqIdx < line.length then
      .setting (trim (line.take eqIdx)) (trim (line.drop (eqIdx + 1)))
    else .ignored

/-- A line is read without the white space around it. -/
def readLine (line : List Char) : IniLine := readTrimmed (trim line)

/-- The property that every object has from its prototype, and that holds the prototype. -/
def protoName : String := "__proto__"

/-- A text that is assigned to the prototype of a section is ignored. -/
def IniSection.assign (settings : IniSection) (key value : String) : IniSection :=
  if key = protoName then settings else settings.set key value

/-- What has been read so far. -/
structure IniReader where
  result : IniConfig
  currentSection : String

namespace IniReader

/-- Nothing was read, and the section has no name. -/
def initial : IniReader := ⟨.empty, ""⟩

/-- A section that a header has named is there; the one without a name is made when it is needed.
A header for the prototype replaces it, and its settings do not become sections. -/
def step (r : IniReader) : IniLine → IniReader
  | .ignored => r
  | .sectionHeader name =>
    if String.ofList name = protoName then { r with currentSection := protoName }
    else ⟨r.result.set (.ofList name) .empty, .ofList name⟩
  | .setting key value =>
    if r.currentSection = protoName then r
    else
      let settings := (r.result.get? r.currentSection).getD .empty
      { r with
        result := r.result.set r.currentSection (settings.assign (.ofList key) (.ofList value)) }

/-- The lines are read one after the other. -/
def run (r : IniReader) (lines : List IniLine) : IniReader := lines.foldl step r

end IniReader

/-- The configuration that a text gives. -/
def parseIniConfig (text : List Char) : IniConfig :=
  (IniReader.initial.run ((text.splitOn '\n').map readLine)).result

/-- A binary string: a character for a byte. -/
def atob (text : List Char) : Option (List Char) :=
  (Base64.decode text).map fun bytes => bytes.map fun b => Char.ofNat b.toNat

/-- An item is stored under a key. -/
def LocalStorage.setItem (storage : LocalStorage) (key value : String) : LocalStorage :=
  fun k => if k = key then some value else storage k

/-- Every underscore is a dash. -/
def dashes (key : String) : String :=
  .ofList (key.toList.map fun c => if c = '_' then '-' else c)

/-- Every dash is an underscore. -/
def underscores (key : String) : String :=
  .ofList (key.toList.map fun c => if c = '-' then '_' else c)

/-- One setting, under both spellings. -/
def storeSetting (mode : String) (storage : LocalStorage) (setting : String × String) :
    LocalStorage :=
  let normalized := dashes setting.1
  let storage := storage.setItem (mode ++ ":" ++ normalized) setting.2
  let underscored := underscores normalized
  storage.setItem (mode ++ ":" ++ underscored) setting.2

/-- The settings of a section are stored under their names. -/
def normalizeSettingName (mode : String) (settings : IniSection) (storage : LocalStorage) :
    LocalStorage :=
  settings.entries.foldl (storeSetting mode) storage

/-- The configuration that a page carries, in base64 or as it stands. -/
def customConfig (text : List Char) : IniConfig :=
  let text := trim text
  if text = [] then .empty else parseIniConfig ((atob text).getD text)

/-- The name of the application is stored, if there is one. -/
def storeAppName (config : IniConfig) (storage : LocalStorage) : LocalStorage :=
  match (config.get? "").bind (·.get? "app-name") with
  | some name => if name = "" then storage else storage.setItem "app-name" name
  | none => storage

/-- The settings of a section, if it is there. -/
def storeSection (config : IniConfig) (part mode : String) (storage : LocalStorage) :
    LocalStorage :=
  match config.get? part with
  | some settings => normalizeSettingName mode settings storage
  | none => storage

/-- A custom configuration is stored. -/
def loadCustomConfig (text : List Char) (storage : LocalStorage) : LocalStorage :=
  let config := customConfig text
  storeSection config "override-settings" "override"
    (storeSection config "default-settings" "default" (storeAppName config storage))

/-! ### Writing a configuration -/

/-- The lines of a section. -/
def sectionLines (name : String) (settings : IniSection) : List (List Char) :=
  ('[' :: name.toList ++ [']']) ::
    settings.entries.map fun setting => setting.1.toList ++ '=' :: setting.2.toList

/-- The text of a configuration. -/
def renderIniConfig (config : IniConfig) : List Char :=
  ['\n'].intercalate (config.entries.flatMap fun part => sectionLines part.1 part.2)

/-- What the two sides of a setting are: a line of them alone is neither a comment nor a header,
and its first equals sign is the one between them. -/
structure IsSetting (key value : List Char) : Prop where
  key_ne_nil : key ≠ []
  key_trimmed : trim key = key
  value_trimmed : trim value = value
  key_plain : '=' ∉ key
  not_comment : key.head? ≠ some '#' ∧ key.head? ≠ some ';'
  not_header : key.head? = some '[' → value.getLast? ≠ some ']'

/-- Every name and every setting fits on its line, and none is that of the prototype. -/
def IniConfig.WellFormed (config : IniConfig) : Prop :=
  ∀ name settings, config.get? name = some settings →
    name ≠ protoName ∧ trim name.toList = name.toList ∧ '\n' ∉ name.toList ∧
      ∀ key value, settings.get? key = some value →
        key ≠ protoName ∧ IsSetting key.toList value.toList ∧ '\n' ∉ key.toList ∧
          '\n' ∉ value.toList

/-- The same sections with the same settings, in any order. -/
def IniConfig.Same (config other : IniConfig) : Prop :=
  ∀ name, (config.get? name).map OrderedMap.get? = (other.get? name).map OrderedMap.get?

/-- Being well formed does not depend on the order. -/
theorem IniConfig.Same.wellFormed {config other : IniConfig} (h : config.Same other)
    (hconfig : config.WellFormed) : other.WellFormed := by
  intro name settings hget
  have hsame := h name
  rw [hget, Option.map_some] at hsame
  obtain ⟨own, hown, hlookup⟩ := Option.map_eq_some_iff.mp hsame
  obtain ⟨hproto, htrimmed, hname, hsettings⟩ := hconfig name own hown
  exact ⟨hproto, htrimmed, hname, fun key value hkey =>
    hsettings key value ((congrFun hlookup key).trans hkey)⟩

/-! ### One line -/

/-- A line in brackets is a header. -/
theorem readTrimmed_header (name : List Char) :
    readTrimmed ('[' :: name ++ [']']) = .sectionHeader (trim name) := by
  have hlast : ('[' :: name ++ [']']).getLast? = some ']' := List.getLast?_concat
  have hinner : ('[' :: name ++ [']']).tail.dropLast = name := by simp
  rw [readTrimmed, if_neg (by simp), if_pos ⟨by simp, hlast⟩, hinner]

/-- A header with a trimmed name is read as it stands. -/
theorem readLine_header {name : List Char} (h : trim name = name) :
    readLine ('[' :: name ++ [']']) = .sectionHeader name := by
  have htrim : trim ('[' :: name ++ [']']) = '[' :: name ++ [']'] := by
    refine Trim.trim_eq_self ?_ ?_
    · intro c hc
      obtain rfl : '[' = c := by simpa using hc
      rfl
    · intro c hc
      rw [List.getLast?_concat] at hc
      exact Option.some.inj hc ▸ rfl
  rw [readLine, htrim, readTrimmed_header, h]

/-- The name of a header is trimmed, and part of its line. -/
theorem trim_of_readLine_header {line name : List Char} (h : readLine line = .sectionHeader name) :
    trim name = name ∧ ∀ c ∈ name, c ∈ line := by
  unfold readLine readTrimmed at h
  dsimp only at h
  split_ifs at h with hignored hheader
  obtain rfl := IniLine.sectionHeader.inj h
  refine ⟨Trim.trim_trim _ _, fun c hc => ?_⟩
  have hinner := Trim.mem_of_mem_trim hc
  exact Trim.mem_of_mem_trim (List.mem_of_mem_tail (List.mem_of_mem_dropLast hinner))

/-- A setting alone on a line is read as it stands. -/
theorem readLine_setting {key value : List Char} (h : IsSetting key value) :
    readLine (key ++ '=' :: value) = .setting key value := by
  obtain ⟨first, rest, hkey⟩ := List.exists_cons_of_ne_nil h.key_ne_nil
  have hhead : (key ++ '=' :: value).head? = key.head? := by rw [hkey]; rfl
  have hlast : (key ++ '=' :: value).getLast? = some (value.getLast?.getD '=') := by
    simp [List.getLast?_cons]
  have htrim : trim (key ++ '=' :: value) = key ++ '=' :: value := by
    refine Trim.trim_eq_self ?_ ?_
    · intro c hc
      rw [hhead, ← h.key_trimmed] at hc
      exact Trim.not_of_head?_trim hc
    · intro c hc
      rw [hlast] at hc
      cases hvalue : value.getLast? with
      | none =>
        rw [hvalue] at hc
        exact Option.some.inj hc ▸ rfl
      | some last =>
        rw [hvalue] at hc
        rw [← h.value_trimmed] at hvalue
        exact Option.some.inj hc ▸ Trim.not_of_getLast?_trim hvalue
  have hheader : ¬((key ++ '=' :: value).head? = some '[' ∧
      (key ++ '=' :: value).getLast? = some ']') := by
    rintro ⟨hopen, hclose⟩
    rw [hhead] at hopen
    rw [hlast] at hclose
    cases hvalue : value.getLast? with
    | none => simp [hvalue] at hclose
    | some last =>
      rw [hvalue] at hclose
      exact h.not_header hopen (hvalue.trans hclose)
  have hidx : (key ++ '=' :: value).idxOf '=' = key.length := by
    rw [List.idxOf_append_of_notMem h.key_plain, List.idxOf_cons_self, Nat.add_zero]
  have hdrop : (key ++ '=' :: value).drop (key.length + 1) = value := by
    simp [List.drop_append, List.drop_eq_nil_of_le]
  have hpos := List.length_pos_of_ne_nil h.key_ne_nil
  rw [readLine, htrim, readTrimmed, if_neg, if_neg hheader]
  · dsimp only
    rw [hidx, if_pos (by simp [hpos]), List.take_left, hdrop, h.key_trimmed, h.value_trimmed]
  · rw [hhead]
    rintro (hnil | hhash | hsemicolon)
    · simp at hnil
    · exact h.not_comment.1 hhash
    · exact h.not_comment.2 hsemicolon

/-- What a line says fits on a line by itself. -/
theorem isSetting_of_readLine {line key value : List Char}
    (h : readLine line = .setting key value) :
    IsSetting key value ∧ (∀ c ∈ key, c ∈ line) ∧ ∀ c ∈ value, c ∈ line := by
  unfold readLine readTrimmed at h
  dsimp only at h
  split_ifs at h with hignored hheader hidx
  obtain ⟨rfl, rfl⟩ : trim ((trim line).take ((trim line).idxOf '=')) = key ∧
      trim ((trim line).drop ((trim line).idxOf '=' + 1)) = value := by
    simpa using h
  have hfirst (c : Char) (hc : (trim line).head? = some c) : isStrWhiteSpace c = false :=
    Trim.not_of_head?_trim hc
  have hlast (c : Char) (hc : (trim line).getLast? = some c) : isStrWhiteSpace c = false :=
    Trim.not_of_getLast?_trim hc
  have hsub (c : Char) (hc : c ∈ trim line) : c ∈ line := Trim.mem_of_mem_trim hc
  generalize trim line = t at hignored hheader hidx hfirst hlast hsub
  have htake : (t.take (t.idxOf '=')).head? = t.head? := by
    rw [List.head?_take, if_neg (by omega)]
  have hkey : (trim (t.take (t.idxOf '='))).head? = t.head? := by
    rw [← htake]
    refine Trim.head?_trim fun c hc => hfirst c ?_
    rw [← htake]
    exact hc
  have hdrop (c : Char) (hc : (t.drop (t.idxOf '=' + 1)).getLast? = some c) :
      t.getLast? = some c := by
    rw [List.getLast?_drop] at hc
    split_ifs at hc
    exact hc
  refine ⟨⟨?_, Trim.trim_trim _ _, Trim.trim_trim _ _, ?_, ?_, ?_⟩, ?_, ?_⟩
  · intro hnil
    rw [hnil] at hkey
    exact hignored (.inl (List.head?_eq_none_iff.mp hkey.symm))
  · intro hmem
    have htaken := Trim.mem_of_mem_trim hmem
    exact absurd ((List.mem_take_iff_idxOf_lt (List.mem_of_mem_take htaken)).mp htaken)
      (Nat.lt_irrefl _)
  · rw [hkey]
    tauto
  · intro hopen hclose
    rw [hkey] at hopen
    have hwhole := Trim.getLast?_trim fun c hc => hlast c (hdrop c hc)
    exact hheader ⟨hopen, hdrop _ (hwhole.symm.trans hclose)⟩
  · exact fun c hc => hsub c (List.mem_of_mem_take (Trim.mem_of_mem_trim hc))
  · exact fun c hc => hsub c (List.mem_of_mem_drop (Trim.mem_of_mem_trim hc))

/-! ### Reading lines -/

/-- The name of the prototype has no white space around it. -/
theorem trim_protoName : trim protoName.toList = protoName.toList := by decide

/-- Nor has it a line break. -/
theorem newline_notMem_protoName : '\n' ∉ protoName.toList := by decide

/-- A key of another name is set. -/
theorem IniSection.assign_of_ne {key : String} (h : key ≠ protoName) (settings : IniSection)
    (value : String) : settings.assign key value = settings.set key value := if_neg h

/-- What an assignment leaves under a key is new or was there. -/
theorem IniSection.get?_assign {settings : IniSection} {key value key' value' : String}
    (h : (settings.assign key value).get? key' = some value') :
    key' = key ∧ value' = value ∧ key ≠ protoName ∨ settings.get? key' = some value' := by
  rw [assign] at h
  split_ifs at h with hproto
  · exact .inr h
  · rw [OrderedMap.get?_set] at h
    split_ifs at h with hkey
    · obtain rfl := Option.some.inj h
      exact .inl ⟨hkey, rfl, hproto⟩
    · exact .inr h

namespace IniReader

variable {r : IniReader}

/-- Reading lines, part by part. -/
theorem run_append (r : IniReader) (first second : List IniLine) :
    r.run (first ++ second) = (r.run first).run second := List.foldl_append

/-- What is read fits on lines. -/
theorem wellFormed_step (h : r.result.WellFormed ∧ trim r.currentSection.toList =
      r.currentSection.toList ∧ '\n' ∉ r.currentSection.toList)
    {line : List Char} (hline : '\n' ∉ line) :
    (r.step (readLine line)).result.WellFormed ∧
      trim (r.step (readLine line)).currentSection.toList =
        (r.step (readLine line)).currentSection.toList ∧
      '\n' ∉ (r.step (readLine line)).currentSection.toList := by
  obtain ⟨hresult, htrimmed, hsection⟩ := h
  cases hread : readLine line with
  | ignored => exact ⟨hresult, htrimmed, hsection⟩
  | sectionHeader header =>
    obtain ⟨hname, hsub⟩ := trim_of_readLine_header hread
    have hfits : '\n' ∉ header := fun hmem => hline (hsub _ hmem)
    rw [step]
    split_ifs with hproto
    · exact ⟨hresult, trim_protoName, newline_notMem_protoName⟩
    refine ⟨?_, by simpa using hname, by simpa using hfits⟩
    intro name settings hget
    rw [OrderedMap.get?_set] at hget
    split_ifs at hget with heq
    · obtain rfl := Option.some.inj hget
      rw [heq, String.toList_ofList]
      exact ⟨hproto, hname, hfits, by simp⟩
    · exact hresult name settings hget
  | setting key value =>
    obtain ⟨hsetting, hkey, hvalue⟩ := isSetting_of_readLine hread
    rw [step]
    split_ifs with hproto
    · exact ⟨hresult, htrimmed, hsection⟩
    refine ⟨?_, htrimmed, hsection⟩
    intro name settings hget
    rw [OrderedMap.get?_set] at hget
    split_ifs at hget with heq
    · obtain rfl := Option.some.inj hget
      refine ⟨heq ▸ hproto, heq ▸ htrimmed, heq ▸ hsection, fun key' value' hget' => ?_⟩
      rcases IniSection.get?_assign hget' with ⟨rfl, rfl, hkeyProto⟩ | hold
      · rw [String.toList_ofList, String.toList_ofList]
        exact ⟨hkeyProto, hsetting, fun hmem => hline (hkey _ hmem),
          fun hmem => hline (hvalue _ hmem)⟩
      · cases hsettings : r.result.get? r.currentSection with
        | none => simp [hsettings] at hold
        | some old =>
          rw [hsettings] at hold
          exact (hresult _ old hsettings).2.2.2 key' value' hold
    · exact hresult name settings hget

/-- Whatever is read, the configuration is well formed. -/
theorem wellFormed_run (h : r.result.WellFormed ∧ trim r.currentSection.toList =
      r.currentSection.toList ∧ '\n' ∉ r.currentSection.toList)
    {lines : List (List Char)} (hlines : ∀ line ∈ lines, '\n' ∉ line) :
    (r.run (lines.map readLine)).result.WellFormed := by
  induction lines generalizing r with
  | nil => exact h.1
  | cons line lines ih =>
    obtain ⟨hline, hrest⟩ := List.forall_mem_cons.mp hlines
    exact ih (wellFormed_step h hline) hrest

end IniReader

/-- A line has no line break. -/
theorem not_mem_of_mem_splitOn {text line : List Char} (h : line ∈ text.splitOn '\n') :
    '\n' ∉ line := by
  rw [List.splitOn_eq_splitOnP] at h
  intro hmem
  simpa using forall_mem_splitOnP _ _ line h _ hmem

/-- Whatever the text is. -/
theorem wellFormed_parseIniConfig (text : List Char) : (parseIniConfig text).WellFormed := by
  refine IniReader.wellFormed_run ?_ fun line hline => not_mem_of_mem_splitOn hline
  exact ⟨fun name settings hget => by simp [IniReader.initial] at hget, rfl, by
    simp [IniReader.initial]⟩

/-! ### Reading what was written -/

namespace IniReader

variable {r : IniReader}

/-- The settings of the last section go to its end. -/
theorem run_settings {base : List (String × IniSection)} {name : String} {settings : IniSection}
    (hsection : r.currentSection = name) (hproto : name ≠ protoName)
    (hentries : r.result.entries = base ++ [(name, settings)]) {more : List (String × String)}
    (hkeys : ∀ setting ∈ more, setting.1 ≠ protoName)
    (hnodup : ((settings.entries ++ more).map Prod.fst).Nodup) :
    (r.run (more.map fun s => .setting s.1.toList s.2.toList)).result.entries =
      base ++ [(name, ⟨settings.entries ++ more, hnodup⟩)] := by
  induction more generalizing r settings with
  | nil =>
    have hsame : (⟨settings.entries ++ [], hnodup⟩ : IniSection) = settings :=
      OrderedMap.ext_entries (List.append_nil _)
    rw [hsame]
    exact hentries
  | cons setting more ih =>
    obtain ⟨key, value⟩ := setting
    obtain ⟨hkey, hmore⟩ : key ≠ protoName ∧ ∀ setting ∈ more, setting.1 ≠ protoName :=
      List.forall_mem_cons.mp hkeys
    have hget : r.result.get? name = some settings :=
      OrderedMap.get?_of_mem_entries (by rw [hentries]; simp)
    have hfresh : key ∉ settings.keys := by
      rw [List.map_append, List.map_cons] at hnodup
      exact (List.nodup_middle.mp hnodup).notMem ∘ List.mem_append_left _
    have hset : (settings.set key value).entries = settings.entries ++ [(key, value)] :=
      OrderedMap.entries_set_of_not_mem hfresh value
    have hstep : (r.step (.setting key.toList value.toList)).result.entries =
        base ++ [(name, settings.set key value)] := by
      rw [← IniSection.assign_of_ne hkey, step, hsection, if_neg hproto, hget,
        String.ofList_toList, String.ofList_toList]
      exact OrderedMap.entries_set_of_last hentries _
    have hnodup' : (((settings.set key value).entries ++ more).map Prod.fst).Nodup := by
      rw [hset, List.append_assoc]
      exact hnodup
    have hcurrent : (r.step (.setting key.toList value.toList)).currentSection = name := by
      rw [step, hsection, if_neg hproto]
    have hrest := ih hcurrent hstep hmore hnodup'
    have hsame : (⟨(settings.set key value).entries ++ more, hnodup'⟩ : IniSection) =
        ⟨settings.entries ++ (key, value) :: more, hnodup⟩ :=
      OrderedMap.ext_entries (by simp [hset])
    rw [← hsame]
    exact hrest

/-- A new section is read as it was written. -/
theorem run_sectionLines {name : String} {settings : IniSection} (hname : name ∉ r.result.keys)
    (hproto : name ≠ protoName) (htrimmed : trim name.toList = name.toList)
    (hsettings : ∀ key value, settings.get? key = some value →
      key ≠ protoName ∧ IsSetting key.toList value.toList) :
    (r.run ((sectionLines name settings).map readLine)).result.entries =
      r.result.entries ++ [(name, settings)] := by
  have hlines : (sectionLines name settings).map readLine =
      .sectionHeader name.toList ::
        settings.entries.map fun s => .setting s.1.toList s.2.toList := by
    rw [sectionLines, List.map_cons, readLine_header htrimmed, List.map_map]
    refine congrArg _ (List.map_congr_left fun setting hmem => ?_)
    exact readLine_setting (hsettings _ _ (OrderedMap.get?_of_mem_entries hmem)).2
  have hheader : (r.step (.sectionHeader name.toList)).result.entries =
      r.result.entries ++ [(name, .empty)] := by
    rw [step, String.ofList_toList, if_neg hproto]
    exact OrderedMap.entries_set_of_not_mem hname _
  have hcurrent : (r.step (.sectionHeader name.toList)).currentSection = name := by
    rw [step, String.ofList_toList, if_neg hproto]
  rw [hlines]
  exact run_settings hcurrent hproto hheader
    (fun setting hmem => (hsettings _ _ (OrderedMap.get?_of_mem_entries hmem)).1)
    settings.nodup_keys

/-- The lines of well formed sections add these sections. -/
theorem run_parts {parts : List (String × IniSection)}
    (hnodup : ((r.result.entries ++ parts).map Prod.fst).Nodup)
    (hparts : ∀ part ∈ parts, part.1 ≠ protoName ∧ trim part.1.toList = part.1.toList ∧
      ∀ key value, part.2.get? key = some value →
        key ≠ protoName ∧ IsSetting key.toList value.toList) :
    (r.run ((parts.flatMap fun part => sectionLines part.1 part.2).map readLine)).result.entries =
      r.result.entries ++ parts := by
  induction parts generalizing r with
  | nil => simp [run]
  | cons part parts ih =>
    obtain ⟨hpart, hrest⟩ := List.forall_mem_cons.mp hparts
    have hname : part.1 ∉ r.result.keys := by
      rw [List.map_append, List.map_cons] at hnodup
      exact (List.nodup_middle.mp hnodup).notMem ∘ List.mem_append_left _
    have hsection := run_sectionLines hname hpart.1 hpart.2.1 hpart.2.2
    rw [List.flatMap_cons, List.map_append, run_append, ih ?_ hrest, hsection, List.append_assoc]
    · rfl
    · rw [hsection, List.append_assoc]
      exact hnodup

end IniReader

/-- A well formed configuration is read back. -/
theorem parse_render_of_wellFormed {config : IniConfig} (h : config.WellFormed) :
    parseIniConfig (renderIniConfig config) = config := by
  have hparts (part : String × IniSection) (hmem : part ∈ config.entries) :=
    h part.1 part.2 (OrderedMap.get?_of_mem_entries hmem)
  have hlines : ∀ line ∈ config.entries.flatMap fun part => sectionLines part.1 part.2,
      '\n' ∉ line := by
    intro line hline
    obtain ⟨part, hmem, hpart⟩ := List.mem_flatMap.mp hline
    obtain ⟨-, -, hname, hsettings⟩ := hparts part hmem
    rcases List.mem_cons.mp hpart with rfl | hsetting
    · simpa using hname
    · obtain ⟨setting, hmem', rfl⟩ := List.mem_map.mp hsetting
      obtain ⟨-, -, hkey, hvalue⟩ := hsettings _ _ (OrderedMap.get?_of_mem_entries hmem')
      simp [hkey, hvalue]
  have hread : (IniReader.initial.run
      ((config.entries.flatMap fun part => sectionLines part.1 part.2).map readLine)).result.entries =
        config.entries :=
    IniReader.run_parts (r := .initial) config.nodup_keys fun part hmem => by
      obtain ⟨hproto, htrimmed, -, hsettings⟩ := hparts part hmem
      refine ⟨hproto, htrimmed, fun key value hget => ?_⟩
      obtain ⟨hkey, hsetting, -⟩ := hsettings key value hget
      exact ⟨hkey, hsetting⟩
  refine OrderedMap.ext_entries ?_
  by_cases hnil : (config.entries.flatMap fun part => sectionLines part.1 part.2) = []
  · rw [← hread, parseIniConfig, renderIniConfig, hnil]
    rfl
  · rw [parseIniConfig, renderIniConfig, List.splitOn_intercalate _ hlines hnil, hread]

/-- **Normal form.** A configuration is what some text says, the order apart, exactly when its names
and settings fit on lines and none names the prototype, and then the text that is written for it
says it. -/
theorem parse_render_iff (config : IniConfig) :
    ((parseIniConfig (renderIniConfig config)).Same config ↔ config.WellFormed) ∧
      ((∃ text, (parseIniConfig text).Same config) ↔ config.WellFormed) := by
  have hwell {text : List Char} (h : (parseIniConfig text).Same config) : config.WellFormed :=
    h.wellFormed (wellFormed_parseIniConfig text)
  have hsame (h : config.WellFormed) : (parseIniConfig (renderIniConfig config)).Same config := by
    intro name
    rw [parse_render_of_wellFormed h]
  exact ⟨⟨hwell, hsame⟩, ⟨fun ⟨_, h⟩ => hwell h, fun h => ⟨_, hsame h⟩⟩⟩

/-! ### What is stored -/

/-- The names a setting is stored under. -/
def spellings (key : String) : List String := [dashes key, underscores (dashes key)]

/-- The last setting of a section that is stored under the name. -/
def settingOf (config : IniConfig) (part name : String) : Option String :=
  (config.get? part).bind fun settings =>
    (settings.entries.filter fun setting => name ∈ spellings setting.1).getLast?.map Prod.snd

/-- A name that neither layer of the configuration is stored under. -/
def Plain (name : String) : Prop :=
  name ≠ "app-name" ∧ ∀ rest, name ≠ "override:" ++ rest ∧ name ≠ "default:" ++ rest

/-- A prefix does not matter for which keys are equal. -/
theorem append_right_inj (mode a b : String) : mode ++ a = mode ++ b ↔ a = b := by
  rw [← String.toList_inj, String.toList_append, String.toList_append, List.append_cancel_left_eq,
    String.toList_inj]

/-- A setting is stored under the spellings of its name. -/
theorem storeSetting_apply (mode : String) (storage : LocalStorage) (setting : String × String)
    (name : String) :
    storeSetting mode storage setting (mode ++ ":" ++ name) =
      if name ∈ spellings setting.1 then some setting.2 else storage (mode ++ ":" ++ name) := by
  simp only [storeSetting, LocalStorage.setItem, append_right_inj, spellings, List.mem_cons,
    List.not_mem_nil, or_false]
  by_cases hunderscores : name = underscores (dashes setting.1)
  · simp [hunderscores]
  · by_cases hdashes : name = dashes setting.1 <;> simp [hunderscores, hdashes]

/-- A setting touches no key without the prefix. -/
theorem storeSetting_of_ne {mode key : String} (h : ∀ name, key ≠ mode ++ ":" ++ name)
    (storage : LocalStorage) (setting : String × String) :
    storeSetting mode storage setting key = storage key := by
  simp only [storeSetting, LocalStorage.setItem, if_neg (h _)]

/-- The last setting with a spelling of the name is stored. -/
theorem foldl_storeSetting (mode : String) (storage : LocalStorage)
    (settings : List (String × String)) (name : String) :
    settings.foldl (storeSetting mode) storage (mode ++ ":" ++ name) =
      ((settings.filter fun setting => name ∈ spellings setting.1).getLast?.map Prod.snd).or
        (storage (mode ++ ":" ++ name)) := by
  induction settings using List.reverseRecOn with
  | nil => rfl
  | append_singleton settings setting ih =>
    rw [List.foldl_append, List.foldl_cons, List.foldl_nil, storeSetting_apply, List.filter_append]
    by_cases hname : name ∈ spellings setting.1
    · simp [hname]
    · rw [if_neg hname, ih]
      simp [hname]

/-- The settings touch no key without the prefix. -/
theorem foldl_storeSetting_of_ne {mode key : String} (h : ∀ name, key ≠ mode ++ ":" ++ name)
    (storage : LocalStorage) (settings : List (String × String)) :
    settings.foldl (storeSetting mode) storage key = storage key := by
  induction settings generalizing storage with
  | nil => rfl
  | cons setting settings ih => rw [List.foldl_cons, ih, storeSetting_of_ne h]

/-- The two prefixes have no key in common. -/
theorem override_ne_default (a b : String) : "override:" ++ a ≠ "default:" ++ b := by
  intro h
  have hlist := congrArg String.toList h
  rw [String.toList_append, String.toList_append] at hlist
  exact absurd (List.head_eq_of_cons_eq hlist) (by decide)

/-- A section is stored over what was there. -/
theorem storeSection_apply (config : IniConfig) (part mode : String) (storage : LocalStorage)
    (name : String) :
    storeSection config part mode storage (mode ++ ":" ++ name) =
      (settingOf config part name).or (storage (mode ++ ":" ++ name)) := by
  unfold storeSection settingOf
  cases config.get? part with
  | none => rfl
  | some settings => exact foldl_storeSetting mode storage settings.entries name

/-- A section touches no key without the prefix. -/
theorem storeSection_of_ne {mode key : String} (h : ∀ name, key ≠ mode ++ ":" ++ name)
    (config : IniConfig) (part : String) (storage : LocalStorage) :
    storeSection config part mode storage key = storage key := by
  unfold storeSection
  cases config.get? part with
  | none => rfl
  | some settings => exact foldl_storeSetting_of_ne h storage settings.entries

/-- The name of the application touches its own key only. -/
theorem storeAppName_of_ne {key : String} (h : key ≠ "app-name") (config : IniConfig)
    (storage : LocalStorage) : storeAppName config storage key = storage key := by
  unfold storeAppName
  cases (config.get? "").bind (·.get? "app-name") with
  | none => rfl
  | some name =>
    dsimp only
    split_ifs
    · rfl
    · exact if_neg h

/-- No key with a prefix is that of the name. -/
theorem prefix_ne_appName (first : Char) (hfirst : first ≠ 'a') (front rest : String)
    (hfront : front.toList.head? = some first) : front ++ rest ≠ "app-name" := by
  intro h
  have hlist := congrArg (fun s => s.toList.head?) h
  simp only [String.toList_append, List.head?_append, hfront, Option.some_or] at hlist
  exact hfirst (Option.some.inj hlist)

/-- What a configuration overrides. -/
theorem loadCustomConfig_override (text : List Char) (storage : LocalStorage) (name : String) :
    loadCustomConfig text storage ("override:" ++ name) =
      (settingOf (customConfig text) "override-settings" name).or
        (storage ("override:" ++ name)) := by
  have happly := storeSection_apply (customConfig text) "override-settings" "override"
    (storeSection (customConfig text) "default-settings" "default"
      (storeAppName (customConfig text) storage)) name
  have hdefault (n : String) : "override:" ++ name ≠ "default" ++ ":" ++ n :=
    override_ne_default name n
  have hname : "override:" ++ name ≠ "app-name" := prefix_ne_appName 'o' (by decide) _ _ (by decide)
  refine happly.trans ?_
  change (settingOf (customConfig text) "override-settings" name).or
    (storeSection _ _ "default" _ ("override:" ++ name)) = _
  rw [storeSection_of_ne hdefault, storeAppName_of_ne hname]

/-- What it gives where the user has set nothing. -/
theorem loadCustomConfig_default (text : List Char) (storage : LocalStorage) (name : String) :
    loadCustomConfig text storage ("default:" ++ name) =
      (settingOf (customConfig text) "default-settings" name).or
        (storage ("default:" ++ name)) := by
  have hoverride (n : String) : "default:" ++ name ≠ "override" ++ ":" ++ n :=
    fun h => override_ne_default n name h.symm
  have hname : "default:" ++ name ≠ "app-name" := prefix_ne_appName 'd' (by decide) _ _ (by decide)
  rw [loadCustomConfig, storeSection_of_ne hoverride]
  refine (storeSection_apply (customConfig text) "default-settings" "default"
    (storeAppName (customConfig text) storage) name).trans ?_
  change (settingOf (customConfig text) "default-settings" name).or
    (storeAppName _ _ ("default:" ++ name)) = _
  rw [storeAppName_of_ne hname]

/-- It leaves the options of the user alone. -/
theorem loadCustomConfig_plain {name : String} (h : Plain name) (text : List Char)
    (storage : LocalStorage) : loadCustomConfig text storage name = storage name := by
  have hoverride (n : String) : name ≠ "override" ++ ":" ++ n := (h.2 n).1
  have hdefault (n : String) : name ≠ "default" ++ ":" ++ n := (h.2 n).2
  rw [loadCustomConfig, storeSection_of_ne hoverride, storeSection_of_ne hdefault,
    storeAppName_of_ne h.1]

end RdWeb.Web
