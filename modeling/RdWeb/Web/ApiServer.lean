import Mathlib.Algebra.Order.Ring.Int
import Mathlib.Data.List.Basic
import Mathlib.Data.List.Infix
import Mathlib.Data.List.TakeWhile
import Mathlib.Tactic.SplitIfs

/-!
# The address of the API server

`helpers/server_config.js` derives it from the rendezvous server that the user has set. Numbers
are integers: `parseInt` rounds what has more than fifteen digits, which no port has.
-/

namespace RdWeb.Web

/-- The port of the rendezvous server. -/
def PORT : ℤ := 21116

/-- What the browser has stored under a key. -/
abbrev LocalStorage : Type := String → Option String

/-- An option as an administrator, the user or the defaults set it, in this order. -/
def getEffectiveOption (storage : LocalStorage) (key : String) : String :=
  match storage ("override:" ++ key), storage key, storage ("default:" ++ key) with
  | some override, _, _ => override
  | none, some userSet, _ => userSet
  | none, none, some defaultVal => defaultVal
  | none, none, none => ""

/-- The value of a digit, in any radix. -/
def digitValue (c : Char) : ℕ :=
  if c.isDigit then c.toNat - '0'.toNat
  else if 'a' ≤ c ∧ c ≤ 'z' then c.toNat - 'a'.toNat + 10
  else if 'A' ≤ c ∧ c ≤ 'Z' then c.toNat - 'A'.toNat + 10
  else 36

/-- A digit of a number in base 16. -/
def isHexDigit (c : Char) : Bool := digitValue c < 16

/-- The white space that `parseInt` skips first. -/
def isStrWhiteSpace (c : Char) : Bool :=
  9 ≤ c.toNat ∧ c.toNat ≤ 13 ∨ 0x2000 ≤ c.toNat ∧ c.toNat ≤ 0x200A ∨
    c.toNat ∈ [0x20, 0xA0, 0x1680, 0x2028, 0x2029, 0x202F, 0x205F, 0x3000, 0xFEFF]

/-- `parseInt` of a text; `none` is `NaN`. -/
def parseInt (s : List Char) : Option ℤ :=
  let s := s.dropWhile isStrWhiteSpace
  let (sign, s) : ℤ × List Char := match s with
    | '-' :: s => (-1, s)
    | '+' :: s => (1, s)
    | s => (1, s)
  let (radix, s) : ℕ × List Char := match s with
    | '0' :: 'x' :: s => (16, s)
    | '0' :: 'X' :: s => (16, s)
    | s => (10, s)
  let digits := s.takeWhile fun c => digitValue c < radix
  if digits = [] then none
  else some (sign * digits.foldl (fun n c => radix * n + digitValue c) 0)

/-- Whether `/^([0-9a-fA-F]{0,4}:){1,7}[0-9a-fA-F]{0,4}$/` matches. -/
def isIPv6 (str : List Char) : Bool :=
  let groups := str.splitOn ':'
  2 ≤ groups.length ∧ groups.length ≤ 8 ∧
    ∀ group ∈ groups, group.length ≤ 4 ∧ group.all isHexDigit

/-- The port of an address, moved by an offset, where the address names one. -/
def increasePort (host : String) (offset : ℤ) : String :=
  if isIPv6 host.toList then
    if host.toList.head? = some '[' then
      match host.splitOn "]:" with
      | [address, port] =>
        let port := (parseInt port.toList).getD 0
        if 0 < port then address ++ "]:" ++ toString (port + offset) else host
      | _ => host
    else host
  else if ':' ∈ host.toList then
    match host.toList.splitOn ':' with
    | [name, port] =>
      let port := (parseInt port).getD 0
      if 0 < port then String.ofList name ++ ":" ++ toString (port + offset) else host
    | _ => host
  else host

/-- The server for the requests of the page. -/
def getApiServer (storage : LocalStorage) : String :=
  let apiServer := getEffectiveOption storage "api-server"
  if apiServer ≠ "" then apiServer
  else
    let customRendezvousServer := getEffectiveOption storage "custom-rendezvous-server"
    if customRendezvousServer ≠ "" then
      let s := increasePort customRendezvousServer (-2)
      if s = customRendezvousServer then "http://" ++ s ++ ":" ++ toString (PORT - 2)
      else "http://" ++ s
    else "https://admin.rustdesk.com"

/-! ## What a URL names -/

/-- The number that digits write. -/
def portOf (digits : List Char) : Option ℕ :=
  if digits ≠ [] ∧ digits.all Char.isDigit then some (Nat.ofDigitChars 10 digits 0) else none

/-- The host and the port of `host:port`. A host with colons stands in brackets. -/
def authority : List Char → Option (List Char × ℕ)
  | '[' :: rest =>
    match rest.dropWhile (· ≠ ']') with
    | ']' :: ':' :: port => (portOf port).map fun n => (rest.takeWhile (· ≠ ']'), n)
    | _ => none
  | text =>
    match text.dropWhile (· ≠ ':') with
    | ':' :: port => (portOf port).map fun n => (text.takeWhile (· ≠ ':'), n)
    | _ => none

/-- The host and the port of a URL `http://host:port`. -/
def httpTarget (url : String) : Option (List Char × ℕ) :=
  match url.toList with
  | 'h' :: 't' :: 't' :: 'p' :: ':' :: '/' :: '/' :: rest => authority rest
  | _ => none

/-! ## The forms of a rendezvous server -/

/-- A domain name or an IPv4 address. -/
structure HostName where
  text : List Char
  ne_nil : text ≠ []
  plain : ∀ c ∈ text, c.isAlphanum ∨ c ∈ ['-', '.', '_'] ∨ 128 ≤ c.toNat

/-- An IPv6 address. All that matters is that it has two colons at least and no bracket. -/
structure IPv6 where
  text : List Char
  plain : ∀ c ∈ text, isHexDigit c ∨ c ∈ [':', '.']
  colons : 2 ≤ text.count ':'

/-- A port that is given, larger than 2. -/
structure GivenPort where
  digits : List Char
  digit : ∀ c ∈ digits, c.isDigit
  value_gt : 2 < Nat.ofDigitChars 10 digits 0
  value_lt : Nat.ofDigitChars 10 digits 0 < 65536

/-- The number of a port. -/
def GivenPort.value (port : GivenPort) : ℕ := Nat.ofDigitChars 10 port.digits 0

/-- The forms in which a server may be given. -/
inductive ServerAddress
  | host (name : HostName)
  | hostPort (name : HostName) (port : GivenPort)
  | ipv6 (address : IPv6)
  | bracketed (address : IPv6)
  | bracketedPort (address : IPv6) (port : GivenPort)

namespace ServerAddress

/-- The text of an address. -/
def text : ServerAddress → List Char
  | host name => name.text
  | hostPort name port => name.text ++ ':' :: port.digits
  | ipv6 address => address.text
  | bracketed address => '[' :: address.text ++ [']']
  | bracketedPort address port => '[' :: address.text ++ ']' :: ':' :: port.digits

/-- The port that an address names. -/
def port? : ServerAddress → Option GivenPort
  | host _ | ipv6 _ | bracketed _ => none
  | hostPort _ port | bracketedPort _ port => some port

/-- The host, and the port that the API server is at. -/
def target : ServerAddress → List Char × ℕ
  | host name => (name.text, 21114)
  | hostPort name port => (name.text, port.value - 2)
  | ipv6 address | bracketed address => (address.text, 21114)
  | bracketedPort address port => (address.text, port.value - 2)

/-- The server is set, and no API server is. -/
structure SetIn (s : ServerAddress) (storage : LocalStorage) : Prop where
  apiServer : getEffectiveOption storage "api-server" = ""
  rendezvous : getEffectiveOption storage "custom-rendezvous-server" = String.ofList s.text

/-- The address of the API server names the same host and the shifted port, and an address
without a port is left as it is. -/
structure Derives (s : ServerAddress) : Prop where
  target : ∀ storage, s.SetIn storage → httpTarget (getApiServer storage) = some s.target
  unchanged : s.port? = none → ∀ offset,
    increasePort (String.ofList s.text) offset = String.ofList s.text

/-- A form that the derivation tells apart: neither an IPv6 address without brackets or with a
port, nor a host name and a port that look like the two groups of an IPv6 address. -/
def ToldApart : ServerAddress → Prop
  | host _ | bracketed _ => True
  | hostPort name port =>
    ¬ (name.text.length ≤ 4 ∧ (∀ c ∈ name.text, isHexDigit c) ∧ port.digits.length ≤ 4)
  | ipv6 _ | bracketedPort _ _ => False

end ServerAddress

/-! ## Ports -/

/-- The value of a decimal digit. -/
theorem digitValue_of_isDigit {c : Char} (h : c.isDigit) : digitValue c = c.toNat - '0'.toNat :=
  if_pos h

/-- It is below ten. -/
theorem digitValue_lt_of_isDigit {c : Char} (h : c.isDigit) : digitValue c < 10 := by
  rw [digitValue_of_isDigit h]
  simp only [Char.isDigit, Bool.and_eq_true, decide_eq_true_eq] at h
  have hle : c.toNat ≤ 57 := UInt32.le_iff_toNat_le.mp h.2
  have hzero : '0'.toNat = 48 := rfl
  omega

/-- A digit is no white space. -/
theorem not_white_of_isDigit {c : Char} (h : c.isDigit) : isStrWhiteSpace c = false := by
  simp only [Char.isDigit, Bool.and_eq_true, decide_eq_true_eq] at h
  have hge : 48 ≤ c.toNat := UInt32.le_iff_toNat_le.mp h.1
  have hle : c.toNat ≤ 57 := UInt32.le_iff_toNat_le.mp h.2
  simp only [isStrWhiteSpace, List.mem_cons, List.not_mem_nil, or_false, decide_eq_false_iff_not]
  omega

/-- A port has digits. -/
theorem GivenPort.ne_nil (port : GivenPort) : port.digits ≠ [] := by
  intro h
  have hvalue := port.value_gt
  rw [h, Nat.ofDigitChars_nil] at hvalue
  omega

/-- `parseInt` reads the digits of a port. -/
theorem parseInt_digits (port : GivenPort) : parseInt port.digits = some (port.value : ℤ) := by
  obtain ⟨c, rest, hdigits⟩ := List.exists_cons_of_ne_nil port.ne_nil
  have hdigit : ∀ d ∈ c :: rest, d.isDigit := hdigits ▸ port.digit
  have hne (d : Char) (hd : d.isDigit = false) : d ∉ c :: rest := fun hmem => by
    simp [hdigit d hmem] at hd
  have hskip : (c :: rest).dropWhile isStrWhiteSpace = c :: rest :=
    List.dropWhile_cons_of_neg (by simp [not_white_of_isDigit (hdigit c List.mem_cons_self)])
  have hall : (c :: rest).takeWhile (fun d => digitValue d < 10) = c :: rest :=
    List.takeWhile_eq_self_iff.mpr fun d hd => by simp [digitValue_lt_of_isDigit (hdigit d hd)]
  have hvalue : (c :: rest).foldl (fun n d => 10 * n + digitValue d) 0 = port.value := by
    rw [GivenPort.value, hdigits, Nat.ofDigitChars_eq_foldl]
    exact List.foldl_ext _ _ _ fun n d hd => by rw [digitValue_of_isDigit (hdigit d hd)]
  have hminus : c ≠ '-' := fun h => hne '-' rfl (h ▸ List.mem_cons_self)
  have hplus : c ≠ '+' := fun h => hne '+' rfl (h ▸ List.mem_cons_self)
  rw [parseInt, hdigits, hskip]
  split
  rename_i sign s hsign
  obtain ⟨rfl, rfl⟩ : sign = 1 ∧ s = c :: rest := by
    split at hsign <;> simp_all
  split
  rename_i radix s hradix
  obtain ⟨rfl, rfl⟩ : radix = 10 ∧ s = c :: rest := by
    split at hradix
    · exact absurd (by simp_all) (hne 'x' rfl)
    · exact absurd (by simp_all) (hne 'X' rfl)
    · simp_all
  rw [hall, if_neg (List.cons_ne_nil c rest), one_mul, hvalue]

/-- A port that is written down is read back. -/
theorem portOf_toString (n : ℕ) : portOf (toString (n : ℤ)).toList = some n := by
  have htext : (toString (n : ℤ)).toList = Nat.toDigits 10 n := by
    simp [Int.repr_eq_if]
  have hne : Nat.toDigits 10 n ≠ [] := by
    intro h
    have := Nat.length_toDigits_pos (b := 10) (n := n)
    simp [h] at this
  have hdigits : (Nat.toDigits 10 n).all Char.isDigit :=
    List.all_eq_true.mpr fun c hc => Nat.isDigit_of_mem_toDigits (by decide) (by decide) hc
  rw [portOf, htext, if_pos ⟨hne, hdigits⟩, Nat.ofDigitChars_ten_toDigits]

/-- The default port. -/
theorem portOf_default : portOf "21114".toList = some 21114 := by decide

/-- A port is read back from its digits. -/
theorem portOf_digits (port : GivenPort) : portOf port.digits = some port.value :=
  if_pos ⟨port.ne_nil, List.all_eq_true.mpr port.digit⟩

/-- Two ports in a row are none. -/
theorem portOf_eq_none {text : List Char} (h : ':' ∈ text) : portOf text = none := by
  refine if_neg fun hport => ?_
  have hcolon := List.all_eq_true.mp hport.2 ':' h
  cases hcolon

/-! ## Hosts -/

/-- A host name has no colon and no brackets. -/
theorem HostName.not_mem (name : HostName) {c : Char} (hc : c ∈ [':', '[', ']']) :
    c ∉ name.text := by
  intro hmem
  have hplain := name.plain c hmem
  simp only [List.mem_cons, List.not_mem_nil, or_false] at hc
  rcases hc with rfl | rfl | rfl <;> revert hplain <;> decide

/-- An IPv6 address has no brackets. -/
theorem IPv6.not_mem (address : IPv6) {c : Char} (hc : c ∈ ['[', ']']) : c ∉ address.text := by
  intro hmem
  have hplain := address.plain c hmem
  simp only [List.mem_cons, List.not_mem_nil, or_false] at hc
  rcases hc with rfl | rfl <;> revert hplain <;> decide

/-- The authority of a host without colons and brackets. -/
theorem authority_plain {host : List Char} (rest : List Char) (hcolon : ':' ∉ host)
    (hbracket : '[' ∉ host) :
    authority (host ++ ':' :: rest) = (portOf rest).map fun n => (host, n) := by
  have hhost : ∀ c ∈ host, decide (c ≠ ':') = true := fun c hc =>
    decide_eq_true fun h => hcolon (h ▸ hc)
  have htake : (host ++ ':' :: rest).takeWhile (· ≠ ':') = host := by
    rw [List.takeWhile_append_of_pos hhost, List.takeWhile_cons_of_neg (by simp),
      List.append_nil]
  have hdrop : (host ++ ':' :: rest).dropWhile (· ≠ ':') = ':' :: rest := by
    rw [List.dropWhile_append_of_pos hhost, List.dropWhile_cons_of_neg (by simp)]
  unfold authority
  split
  · rename_i tail heq
    cases host with
    | nil => cases heq
    | cons c host =>
      obtain ⟨rfl, -⟩ := List.cons.inj heq
      exact absurd List.mem_cons_self hbracket
  · simp only [hdrop, htake]

/-- The authority of a host in brackets. -/
theorem authority_bracketed {host : List Char} (rest : List Char) (hhost : ']' ∉ host) :
    authority ('[' :: host ++ ']' :: ':' :: rest) = (portOf rest).map fun n => (host, n) := by
  have hother : ∀ c ∈ host, decide (c ≠ ']') = true := fun c hc =>
    decide_eq_true fun h => hhost (h ▸ hc)
  have htake : (host ++ ']' :: ':' :: rest).takeWhile (· ≠ ']') = host := by
    rw [List.takeWhile_append_of_pos hother, List.takeWhile_cons_of_neg (by simp),
      List.append_nil]
  have hdrop : (host ++ ']' :: ':' :: rest).dropWhile (· ≠ ']') = ']' :: ':' :: rest := by
    rw [List.dropWhile_append_of_pos hother, List.dropWhile_cons_of_neg (by simp)]
  rw [List.cons_append, authority]
  simp only [hdrop, htake]

/-- With two colons before the port and no brackets, the port is not told from the host. -/
theorem authority_eq_none {host rest : List Char} (hcolons : 2 ≤ (host ++ rest).count ':')
    (hbracket : '[' ∉ host ++ rest) : authority (host ++ rest) = none := by
  obtain ⟨first, second, heq, hfirst⟩ :=
    List.eq_append_cons_of_mem (List.count_pos_iff.mp (by omega : 0 < (host ++ rest).count ':'))
  rw [heq] at hcolons hbracket ⊢
  have hsecond : ':' ∈ second := by
    rw [List.count_append, List.count_cons_self, List.count_eq_zero_of_not_mem hfirst] at hcolons
    exact List.count_pos_iff.mp (by omega)
  rw [authority_plain _ hfirst fun h => hbracket (List.mem_append_left _ h),
    portOf_eq_none hsecond, Option.map_none]

/-! ## The shifted port -/

/-- Splitting makes one part more than there are separators. -/
theorem length_splitOn (c : Char) (s : List Char) : (s.splitOn c).length = s.count c + 1 := by
  induction s with
  | nil => rfl
  | cons d s ih =>
    rw [List.splitOn_cons_eq_if_modifyHead, List.count_cons]
    split_ifs with h
    · rw [List.length_cons, ih]
    · rw [List.length_modifyHead, ih, Nat.add_zero]

/-- A text in brackets is not matched. -/
theorem not_isIPv6_bracket (rest : List Char) : isIPv6 ('[' :: rest) = false := by
  have hhead : ∃ group ∈ ('[' :: rest).splitOn ':', '[' ∈ group := by
    rw [List.splitOn_cons_eq_if_modifyHead, if_neg (by decide)]
    obtain ⟨group, groups, hgroups⟩ :=
      List.exists_cons_of_ne_nil (List.splitOn_ne_nil ':' rest)
    rw [hgroups]
    exact ⟨'[' :: group, List.mem_cons_self, List.mem_cons_self⟩
  obtain ⟨group, hgroup, hmem⟩ := hhead
  refine decide_eq_false fun h => ?_
  have hhex := List.all_eq_true.mp (h.2.2 group hgroup).2 '[' hmem
  revert hhex
  decide

/-- Without a colon, or with more than one, nothing is shifted. -/
theorem increasePort_of_count {host : String} (h : host.toList.count ':' ≠ 1) (offset : ℤ) :
    increasePort host offset = host := by
  have hlength := length_splitOn ':' host.toList
  unfold increasePort
  split_ifs with hipv6 hbracket hcolon
  · obtain ⟨rest, hrest⟩ : ∃ rest, host.toList = '[' :: rest := List.head?_eq_some_iff.mp hbracket
    rw [hrest, not_isIPv6_bracket] at hipv6
    cases hipv6
  · rfl
  · split
    · rename_i name port hsplit
      rw [hsplit] at hlength
      exact absurd (by simpa using hlength.symm) h
    · rfl
  · rfl

/-- A host with a port splits into the two. -/
theorem splitOn_hostPort (name : HostName) (port : GivenPort) :
    (name.text ++ ':' :: port.digits).splitOn ':' = [name.text, port.digits] := by
  have hport : ':' ∉ port.digits := fun h => by simpa using port.digit ':' h
  rw [List.splitOn_append_cons_self_of_not_mem (name.not_mem (by simp)),
    List.splitOn_eq_singleton hport]

/-- A host name and a port are matched where both are groups of an IPv6 address. -/
theorem isIPv6_hostPort (name : HostName) (port : GivenPort) :
    isIPv6 (name.text ++ ':' :: port.digits) = true ↔
      name.text.length ≤ 4 ∧ (∀ c ∈ name.text, isHexDigit c) ∧ port.digits.length ≤ 4 := by
  have hhex : ∀ c ∈ port.digits, isHexDigit c := fun c hc =>
    decide_eq_true ((digitValue_lt_of_isDigit (port.digit c hc)).trans (by decide))
  rw [isIPv6, splitOn_hostPort]
  simp only [List.length_cons, List.length_nil, List.mem_cons, List.not_mem_nil, or_false,
    forall_eq_or_imp, forall_eq, List.all_eq_true, decide_eq_true_eq]
  constructor
  · rintro ⟨-, -, ⟨hlength, hname⟩, hport, -⟩
    exact ⟨hlength, hname, hport⟩
  · rintro ⟨hlength, hname, hport⟩
    exact ⟨by omega, by omega, ⟨hlength, hname⟩, hport, hhex⟩

/-- What is matched is left as it is: it has no brackets. -/
theorem increasePort_of_isIPv6 {host : String} (h : isIPv6 host.toList = true) (offset : ℤ) :
    increasePort host offset = host := by
  unfold increasePort
  rw [if_pos h]
  split_ifs with hbracket
  · obtain ⟨rest, hrest⟩ : ∃ rest, host.toList = '[' :: rest := List.head?_eq_some_iff.mp hbracket
    rw [hrest, not_isIPv6_bracket] at h
    cases h
  · rfl

/-- The port after another host name is shifted. -/
theorem increasePort_hostPort {name : HostName} {port : GivenPort}
    (h : isIPv6 (name.text ++ ':' :: port.digits) = false) (offset : ℤ) :
    increasePort (String.ofList (name.text ++ ':' :: port.digits)) offset =
      String.ofList name.text ++ ":" ++ toString ((port.value : ℤ) + offset) := by
  have hcolon : ':' ∈ name.text ++ ':' :: port.digits := by simp
  have hpos : (0 : ℤ) < port.value := by
    have hgt : 2 < port.value := port.value_gt
    omega
  unfold increasePort
  rw [String.toList_ofList, if_neg (by simp [h]), if_pos hcolon, splitOn_hostPort]
  simp only [parseInt_digits, Option.getD_some, if_pos hpos]

/-- The target of a plain address is its authority. -/
theorem httpTarget_http (rest : String) :
    httpTarget ("http://" ++ rest) = authority rest.toList := by
  rw [httpTarget, String.toList_append]
  rfl

namespace ServerAddress

variable (s : ServerAddress)

/-- No address is empty. -/
theorem text_ne_nil : s.text ≠ [] := by
  cases s with
  | host name => exact name.ne_nil
  | ipv6 address =>
    intro h
    have hcolons := address.colons
    simp [show address.text = [] from h] at hcolons
  | hostPort => simp [text]
  | bracketed => simp [text]
  | bracketedPort => simp [text]

variable {s}

/-- The server of a given address, by whether its port was moved. -/
theorem SetIn.getApiServer_eq {storage : LocalStorage} (h : s.SetIn storage) :
    getApiServer storage =
      if increasePort (String.ofList s.text) (-2) = String.ofList s.text then
        "http://" ++ (String.ofList s.text ++ ":21114")
      else "http://" ++ increasePort (String.ofList s.text) (-2) := by
  have hne : String.ofList s.text ≠ "" := fun heq =>
    s.text_ne_nil (String.ofList_eq_empty_iff.mp heq)
  have hport : ":" ++ toString (PORT - 2) = ":21114" := by decide
  rw [getApiServer, h.apiServer, h.rendezvous, if_neg (by simp), if_pos hne]
  dsimp only
  split_ifs with hsame
  · rw [hsame, String.append_assoc, String.append_assoc, hport]
  · rfl

/-- What is derived from an address that `increasePort` leaves as it is. -/
theorem SetIn.httpTarget_of_unchanged {storage : LocalStorage} (h : s.SetIn storage)
    (hsame : increasePort (String.ofList s.text) (-2) = String.ofList s.text) :
    httpTarget (getApiServer storage) = authority (s.text ++ ':' :: "21114".toList) := by
  have hport : ":21114".toList = ':' :: "21114".toList := by decide
  rw [h.getApiServer_eq, if_pos hsame, httpTarget_http, String.toList_append,
    String.toList_ofList, hport]

/-- What is derived from an address whose port is shifted. -/
theorem SetIn.httpTarget_of_shifted {storage : LocalStorage} {name : HostName} {port : GivenPort}
    (h : (hostPort name port).SetIn storage)
    (hplain : isIPv6 (name.text ++ ':' :: port.digits) = false) :
    httpTarget (getApiServer storage) = some (name.text, port.value - 2) := by
  have hgt : 2 < port.value := port.value_gt
  have hvalue : (port.value : ℤ) + -2 = ((port.value - 2 : ℕ) : ℤ) := by omega
  have hshift := increasePort_hostPort hplain (-2)
  rw [hvalue, String.append_assoc] at hshift
  have hne : increasePort (String.ofList (hostPort name port).text) (-2) ≠
      String.ofList (hostPort name port).text := by
    intro heq
    rw [text, hshift] at heq
    have hlist := congrArg String.toList heq
    simp only [String.toList_append, String.toList_ofList, List.append_cancel_left_eq] at hlist
    have hdigits : (toString ((port.value - 2 : ℕ) : ℤ)).toList = port.digits :=
      (List.cons.inj hlist).2
    have hread := portOf_toString (port.value - 2)
    rw [hdigits, portOf_digits] at hread
    have := Option.some.inj hread
    omega
  have hauthority := authority_plain (toString ((port.value - 2 : ℕ) : ℤ)).toList
    (name.not_mem (by simp)) (name.not_mem (by simp))
  rw [portOf_toString, Option.map_some] at hauthority
  rw [h.getApiServer_eq, if_neg hne, httpTarget_http, text, hshift, String.toList_append,
    String.toList_append, String.toList_ofList]
  exact hauthority

/-- Every address can be set. -/
theorem exists_setIn (s : ServerAddress) : ∃ storage, s.SetIn storage :=
  ⟨fun key => if key = "custom-rendezvous-server" then some (String.ofList s.text) else none,
    rfl, rfl⟩

/-- A server is told apart where nothing is shifted and the default port completes a URL. -/
theorem derives_iff_of_unchanged
    (hsame : ∀ offset, increasePort (String.ofList s.text) offset = String.ofList s.text) :
    s.Derives ↔ authority (s.text ++ ':' :: "21114".toList) = some s.target := by
  constructor
  · intro h
    obtain ⟨storage, hset⟩ := s.exists_setIn
    rw [← hset.httpTarget_of_unchanged (hsame (-2))]
    exact h.target storage hset
  · intro h
    refine ⟨fun storage hset => ?_, fun _ => hsame⟩
    rw [hset.httpTarget_of_unchanged (hsame (-2)), h]

/-- A host name alone derives its server. -/
theorem derives_host (name : HostName) : (host name).Derives := by
  have hcount : (String.ofList (host name).text).toList.count ':' ≠ 1 := by
    rw [String.toList_ofList, text,
      List.count_eq_zero_of_not_mem (name.not_mem (by simp))]
    exact Nat.zero_ne_one
  have hauthority := authority_plain "21114".toList
    (name.not_mem (c := ':') (by simp)) (name.not_mem (c := '[') (by simp))
  rw [portOf_default, Option.map_some] at hauthority
  rw [derives_iff_of_unchanged (increasePort_of_count hcount), text, hauthority]
  rfl

/-- So does an IPv6 address in brackets. -/
theorem derives_bracketed (address : IPv6) : (bracketed address).Derives := by
  have hcount : (String.ofList (bracketed address).text).toList.count ':' ≠ 1 := by
    have hcolons := address.colons
    rw [String.toList_ofList]
    simp only [text, List.cons_append, List.count_cons, List.count_append]
    omega
  have hauthority := authority_bracketed "21114".toList
    (address.not_mem (c := ']') (by simp))
  rw [portOf_default, Option.map_some, List.cons_append] at hauthority
  rw [derives_iff_of_unchanged (increasePort_of_count hcount), text, List.cons_append,
    List.cons_append, List.append_assoc, List.singleton_append, hauthority]
  rfl

/-- The brackets that a URL needs are missing. -/
theorem not_derives_ipv6 (address : IPv6) : ¬ (ipv6 address).Derives := by
  have hcolons := address.colons
  have hcount : (String.ofList (ipv6 address).text).toList.count ':' ≠ 1 := by
    rw [String.toList_ofList, text]
    omega
  rw [derives_iff_of_unchanged (increasePort_of_count hcount), text, authority_eq_none]
  · simp
  · rw [List.count_append]
    omega
  · rw [List.mem_append, not_or]
    exact ⟨address.not_mem (by simp), by decide⟩

/-- The default port follows the one that is given. -/
theorem not_derives_bracketedPort (address : IPv6) (port : GivenPort) :
    ¬ (bracketedPort address port).Derives := by
  have hcount : (String.ofList (bracketedPort address port).text).toList.count ':' ≠ 1 := by
    have hcolons := address.colons
    rw [String.toList_ofList]
    simp only [text, List.cons_append, List.count_cons, List.count_append]
    omega
  have hauthority := authority_bracketed (port.digits ++ ':' :: "21114".toList)
    (address.not_mem (c := ']') (by simp))
  rw [portOf_eq_none (List.mem_append_right _ List.mem_cons_self), Option.map_none,
    List.cons_append] at hauthority
  rw [derives_iff_of_unchanged (increasePort_of_count hcount), text, List.cons_append,
    List.cons_append, List.append_assoc, List.cons_append, List.cons_append, hauthority]
  simp

/-- A host name and a port that are taken for an IPv6 address get the default port. -/
theorem not_derives_of_isIPv6 {name : HostName} {port : GivenPort}
    (h : isIPv6 (name.text ++ ':' :: port.digits) = true) :
    ¬ (hostPort name port).Derives := by
  have hauthority := authority_plain (port.digits ++ ':' :: "21114".toList)
    (name.not_mem (c := ':') (by simp)) (name.not_mem (c := '[') (by simp))
  rw [portOf_eq_none (List.mem_append_right _ List.mem_cons_self), Option.map_none] at hauthority
  rw [derives_iff_of_unchanged (increasePort_of_isIPv6 (by rwa [String.toList_ofList])), text,
    List.append_assoc, List.cons_append, hauthority]
  simp

/-- **The derived address** names the host and the shifted port if and only if the form of the
server can be told apart. -/
theorem derives_iff (s : ServerAddress) : s.Derives ↔ s.ToldApart := by
  cases s with
  | host name => exact iff_of_true (derives_host name) trivial
  | bracketed address => exact iff_of_true (derives_bracketed address) trivial
  | ipv6 address => exact iff_of_false (not_derives_ipv6 address) id
  | bracketedPort address port => exact iff_of_false (not_derives_bracketedPort address port) id
  | hostPort name port =>
    rw [ToldApart, ← isIPv6_hostPort, Bool.not_eq_true]
    constructor
    · exact fun h => Bool.eq_false_iff.mpr fun hipv6 => not_derives_of_isIPv6 hipv6 h
    · exact fun hplain => ⟨fun _ hset => hset.httpTarget_of_shifted hplain, fun h => by cases h⟩

/-- `[::1]:21116`. -/
def loopback : ServerAddress :=
  bracketedPort ⟨"::1".toList, by simp [isHexDigit, digitValue], by decide⟩
    ⟨"21116".toList, by simp, by decide, by decide⟩

/-- The browser with this server set. -/
def loopbackStorage : LocalStorage := fun key =>
  if key = "custom-rendezvous-server" then some "[::1]:21116" else none

/-- The loopback address without brackets gets a port behind its port. -/
theorem not_derives_loopback :
    getApiServer loopbackStorage = "http://[::1]:21116:21114" ∧ ¬ loopback.Derives := by
  have haddress : getApiServer loopbackStorage = "http://[::1]:21116:21114" := by decide
  refine ⟨haddress, fun h => ?_⟩
  have htarget := h.target loopbackStorage ⟨rfl, rfl⟩
  rw [haddress] at htarget
  revert htarget
  decide

end ServerAddress

end RdWeb.Web
