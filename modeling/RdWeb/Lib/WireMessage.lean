import Mathlib.Algebra.Order.Ring.Int
import Mathlib.Algebra.Order.Ring.Nat
import Mathlib.Data.List.Basic
import Mathlib.Data.List.Nodup
import Mathlib.Tactic.SplitIfs

/-!
# Messages as tagged fields

A message is written as the fields that differ from their defaults, each behind a tag
with its number and wire type, and read back by a loop that dispatches on the tag. The
scalars are a parameter; what is proved of one scalar carries over to the messages
built from it, and a message is itself a scalar of the messages that hold it.
-/

/-- A length prefix has room for the length of the bytes. -/
def Short (bytes : List UInt8) : Prop := bytes.length < 2 ^ 32
  deriving Decidable

/-- A writer and a reader of one type. The reader takes a value off the front of the
bytes that are left, or fails. -/
structure Scalar (wireType : ℕ) (Value : Type*) where
  write : Value → List UInt8
  read : List UInt8 → Option (Value × List UInt8)
  /-- The values the format has room for. -/
  Fits : Value → Prop
  read_write : ∀ value rest, Fits value → Short (write value) →
    read (write value ++ rest) = some (value, rest)
  fits_of_read : ∀ bytes value rest, read bytes = some (value, rest) → Fits value
  length_of_read : ∀ bytes value rest, read bytes = some (value, rest) →
    rest.length ≤ bytes.length

/-- A scalar whose values stand for those of another; not every value of that one need stand
for anything. -/
def Scalar.via {wireType : ℕ} {Value Raw : Type*} (scalar : Scalar wireType Raw)
    (toRaw : Value → Raw) (ofRaw : Raw → Option Value) (Fits : Value → Prop)
    (ofRaw_toRaw : ∀ value, Fits value →
      scalar.Fits (toRaw value) ∧ ofRaw (toRaw value) = some value)
    (fits_of_ofRaw : ∀ raw value, scalar.Fits raw → ofRaw raw = some value → Fits value) :
    Scalar wireType Value where
  write value := scalar.write (toRaw value)
  read bytes := (scalar.read bytes).bind fun (raw, rest) =>
    (ofRaw raw).map fun value => (value, rest)
  Fits := Fits
  read_write value rest hfits hshort := by
    obtain ⟨hraw, hback⟩ := ofRaw_toRaw value hfits
    simp [scalar.read_write _ rest hraw hshort, hback]
  fits_of_read bytes value rest h := by
    obtain ⟨⟨raw, after⟩, hread, h⟩ := Option.bind_eq_some_iff.mp h
    obtain ⟨other, hother, heq⟩ := Option.map_eq_some_iff.mp h
    cases heq
    exact fits_of_ofRaw raw value (scalar.fits_of_read _ _ _ hread) hother
  length_of_read bytes value rest h := by
    obtain ⟨⟨raw, after⟩, hread, h⟩ := Option.bind_eq_some_iff.mp h
    obtain ⟨other, hother, heq⟩ := Option.map_eq_some_iff.mp h
    cases heq
    exact scalar.length_of_read _ _ _ hread

/-- What a message runtime provides: the scalars, and how to step over a value whose
field is unknown. -/
structure WireRuntime where
  uint32 : Scalar 0 ℕ
  int32 : Scalar 0 ℤ
  sint32 : Scalar 0 ℤ
  uint64 : Scalar 0 ℕ
  bool : Scalar 0 Bool
  bytes : Scalar 2 (List UInt8)
  string : Scalar 2 String
  skipType : ℕ → List UInt8 → Option (List UInt8)
  uint32_fits : ∀ n, uint32.Fits n ↔ n < 2 ^ 32
  int32_fits : ∀ z, int32.Fits z ↔ -2 ^ 31 ≤ z ∧ z < 2 ^ 31
  sint32_fits : ∀ z, sint32.Fits z ↔ -2 ^ 31 ≤ z ∧ z < 2 ^ 31
  uint64_fits : ∀ n, uint64.Fits n ↔ n < 2 ^ 64
  bool_fits : ∀ b, bool.Fits b
  bytes_fits : ∀ data, bytes.Fits data
  string_fits : ∀ text, string.Fits text
  uint32_length : ∀ n < 2 ^ 32, (uint32.write n).length ≤ 5
  uint32_consumes : ∀ bytes n rest, uint32.read bytes = some (n, rest) →
    rest.length < bytes.length
  skipType_length : ∀ wireType bytes rest, skipType wireType bytes = some rest →
    rest.length ≤ bytes.length

/-- Access to one attribute of a message. -/
structure Attribute (Message Value : Type*) where
  get : Message → Value
  set : Message → Value → Message
  set_get : ∀ message, set message (get message) = message := by intro _; rfl
  get_set : ∀ message value, get (set message value) = value := by intro _ _; rfl
  set_set : ∀ message first second, set (set message first) second = set message second := by
    intro _ _ _; rfl

/-- A field of a message: its number and wire type, the payloads the writer puts behind
the tag (none, one or many), and what the reader does with one payload. -/
structure MessageField (Message : Type*) where
  number : ℕ
  wireType : ℕ
  payloads : Message → List (List UInt8)
  read : Message → List UInt8 → Option (Message × List UInt8)

namespace MessageField

variable {Message Value : Type*} {wireType : ℕ}

/-- The number in front of every payload of the field. -/
def tag (field : MessageField Message) : ℕ := field.number * 8 + field.wireType

/-- A field whose reader takes a scalar and puts it into the message. -/
def ofPut (number : ℕ) (scalar : Scalar wireType Value) (payloads : Message → List (List UInt8))
    (put : Message → Value → Message) : MessageField Message where
  number := number
  wireType := wireType
  payloads := payloads
  read message bytes := (scalar.read bytes).map fun (value, rest) => (put message value, rest)

/-- A field that is written unless it has its default. -/
def implicit [DecidableEq Value] (number : ℕ) (scalar : Scalar wireType Value) (default : Value)
    (attr : Attribute Message Value) : MessageField Message :=
  ofPut number scalar
    (fun message =>
      if attr.get message = default then [] else [scalar.write (attr.get message)])
    attr.set

/-- A field that is written when it is defined. -/
def explicit (number : ℕ) (scalar : Scalar wireType Value)
    (attr : Attribute Message (Option Value)) : MessageField Message :=
  ofPut number scalar (fun message => (attr.get message).toList.map scalar.write)
    fun message value => attr.set message (some value)

/-- A field that is written once for each element. -/
def repeated (number : ℕ) (scalar : Scalar wireType Value)
    (attr : Attribute Message (List Value)) : MessageField Message :=
  ofPut number scalar (fun message => (attr.get message).map scalar.write)
    fun message value => attr.set message (attr.get message ++ [value])

section Numbers

variable (number : ℕ) (scalar : Scalar wireType Value)

/-- The number of a field with a default. -/
@[simp] theorem number_implicit [DecidableEq Value] (default : Value)
    (attr : Attribute Message Value) : (implicit number scalar default attr).number = number := rfl

/-- The wire type of a field with a default. -/
@[simp] theorem wireType_implicit [DecidableEq Value] (default : Value)
    (attr : Attribute Message Value) :
    (implicit number scalar default attr).wireType = wireType := rfl

/-- The number of an optional field. -/
@[simp] theorem number_explicit (attr : Attribute Message (Option Value)) :
    (explicit number scalar attr).number = number := rfl

/-- The wire type of an optional field. -/
@[simp] theorem wireType_explicit (attr : Attribute Message (Option Value)) :
    (explicit number scalar attr).wireType = wireType := rfl

/-- The number of a repeated field. -/
@[simp] theorem number_repeated (attr : Attribute Message (List Value)) :
    (repeated number scalar attr).number = number := rfl

/-- The wire type of a repeated field. -/
@[simp] theorem wireType_repeated (attr : Attribute Message (List Value)) :
    (repeated number scalar attr).wireType = wireType := rfl

end Numbers

/-- Reading the payloads one after the other turns the first message into the second,
whatever follows each of them. -/
inductive Reads (field : MessageField Message) : Message → List (List UInt8) → Message → Prop
  | nil (m : Message) : Reads field m [] m
  | cons {m n o : Message} {payload : List UInt8} {payloads : List (List UInt8)} :
      (∀ rest, field.read m (payload ++ rest) = some (n, rest)) → Reads field n payloads o →
      Reads field m (payload :: payloads) o

variable {number : ℕ} {scalar : Scalar wireType Value}

/-- One payload that the scalar's writer made. -/
theorem Reads.single {payloads : Message → List (List UInt8)} {put : Message → Value → Message}
    {m : Message} {value : Value} (hfits : scalar.Fits value)
    (hshort : Short (scalar.write value)) :
    (ofPut number scalar payloads put).Reads m [scalar.write value] (put m value) := by
  refine .cons (fun rest => ?_) (.nil _)
  simp [ofPut, scalar.read_write value rest hfits hshort]

/-- A field with a default is read back into a message where it has its default. -/
theorem reads_implicit [DecidableEq Value] {default : Value} {attr : Attribute Message Value}
    {source m : Message} (hfits : scalar.Fits (attr.get source))
    (hfresh : attr.get m = default)
    (hshort : ∀ payload ∈ (implicit number scalar default attr).payloads source, Short payload) :
    (implicit number scalar default attr).Reads m
      ((implicit number scalar default attr).payloads source)
      (attr.set m (attr.get source)) := by
  by_cases hdefault : attr.get source = default
  · have hsame : attr.set m (attr.get source) = m := by
      rw [hdefault, ← hfresh]
      exact attr.set_get m
    simp only [implicit, ofPut, if_pos hdefault, hsame]
    exact .nil m
  · simp only [implicit, ofPut, if_neg hdefault, List.mem_singleton, forall_eq] at hshort ⊢
    exact .single hfits hshort

/-- An optional field is read back into a message where it is absent. -/
theorem reads_explicit {attr : Attribute Message (Option Value)} {source m : Message}
    (hfits : ∀ value ∈ attr.get source, scalar.Fits value) (hfresh : attr.get m = none)
    (hshort : ∀ payload ∈ (explicit number scalar attr).payloads source, Short payload) :
    (explicit number scalar attr).Reads m ((explicit number scalar attr).payloads source)
      (attr.set m (attr.get source)) := by
  cases hvalue : attr.get source with
  | none =>
    have hsame : attr.set m none = m := by
      rw [← hfresh]
      exact attr.set_get m
    rw [hsame]
    simp only [explicit, ofPut, hvalue]
    exact .nil m
  | some value =>
    have hpayloads : (explicit number scalar attr).payloads source = [scalar.write value] := by
      simp [explicit, ofPut, hvalue]
    rw [hpayloads] at hshort ⊢
    exact .single (hfits value hvalue) (hshort _ (List.mem_singleton_self _))

/-- The elements read so far stay in front. -/
theorem reads_repeated_from {attr : Attribute Message (List Value)} (values : List Value)
    (m : Message) (hfits : ∀ value ∈ values, scalar.Fits value)
    (hshort : ∀ value ∈ values, Short (scalar.write value)) :
    (repeated number scalar attr).Reads m (values.map scalar.write)
      (attr.set m (attr.get m ++ values)) := by
  induction values generalizing m with
  | nil =>
    rw [List.append_nil, attr.set_get]
    exact .nil m
  | cons value values ih =>
    obtain ⟨hvalue, hvalues⟩ := List.forall_mem_cons.mp hfits
    obtain ⟨hvalueShort, hvaluesShort⟩ := List.forall_mem_cons.mp hshort
    have hrest := ih (attr.set m (attr.get m ++ [value])) hvalues hvaluesShort
    rw [attr.get_set, attr.set_set, List.append_assoc, List.singleton_append] at hrest
    refine .cons (fun rest => ?_) hrest
    simp [repeated, ofPut, scalar.read_write _ rest hvalue hvalueShort]

/-- A repeated field is read back into a message where it is empty. -/
theorem reads_repeated {attr : Attribute Message (List Value)} {source m : Message}
    (hfits : ∀ value ∈ attr.get source, scalar.Fits value) (hfresh : attr.get m = [])
    (hshort : ∀ payload ∈ (repeated number scalar attr).payloads source, Short payload) :
    (repeated number scalar attr).Reads m ((repeated number scalar attr).payloads source)
      (attr.set m (attr.get source)) := by
  have hvalues : ∀ value ∈ attr.get source, Short (scalar.write value) := by
    intro value hvalue
    exact hshort _ (List.mem_map_of_mem hvalue)
  have h : (repeated number scalar attr).Reads m _ _ :=
    reads_repeated_from (attr.get source) m hfits hvalues
  rwa [hfresh, List.nil_append] at h

/-- Reading the field keeps a property of messages and takes bytes off the front only. -/
structure Keeps (P : Message → Prop) (field : MessageField Message) : Prop where
  keeps : ∀ m bytes n rest, P m → field.read m bytes = some (n, rest) → P n
  length : ∀ m bytes n rest, field.read m bytes = some (n, rest) → rest.length ≤ bytes.length

/-- A field keeps a property that its put keeps. -/
theorem keeps_ofPut {P : Message → Prop} {payloads : Message → List (List UInt8)}
    {put : Message → Value → Message}
    (hput : ∀ m value, P m → scalar.Fits value → P (put m value)) :
    Keeps P (ofPut number scalar payloads put) := by
  constructor
  · intro m bytes n rest hm hread
    obtain ⟨⟨value, rest'⟩, hvalue, heq⟩ := Option.map_eq_some_iff.mp hread
    cases heq
    exact hput m value hm (scalar.fits_of_read _ _ _ hvalue)
  · intro m bytes n rest hread
    obtain ⟨⟨value, rest'⟩, hvalue, heq⟩ := Option.map_eq_some_iff.mp hread
    cases heq
    exact scalar.length_of_read _ _ _ hvalue

/-- A field with a default keeps a property that setting it keeps. -/
theorem keeps_implicit [DecidableEq Value] {P : Message → Prop} {default : Value}
    {attr : Attribute Message Value}
    (hset : ∀ m value, P m → scalar.Fits value → P (attr.set m value)) :
    Keeps P (implicit number scalar default attr) :=
  keeps_ofPut hset

/-- An optional field keeps a property that setting it keeps. -/
theorem keeps_explicit {P : Message → Prop} {attr : Attribute Message (Option Value)}
    (hset : ∀ m value, P m → scalar.Fits value → P (attr.set m (some value))) :
    Keeps P (explicit number scalar attr) :=
  keeps_ofPut hset

/-- A repeated field keeps a property that appending to it keeps. -/
theorem keeps_repeated {P : Message → Prop} {attr : Attribute Message (List Value)}
    (hset : ∀ m value, P m → scalar.Fits value → P (attr.set m (attr.get m ++ [value]))) :
    Keeps P (repeated number scalar attr) :=
  keeps_ofPut hset

/-- No field breaks a property. -/
theorem keeps_nil {P : Message → Prop} : ∀ field ∈ [], Keeps P field := by simp

/-- A list of fields keeps a property that its head and its tail keep. -/
theorem keeps_cons {P : Message → Prop} {field : MessageField Message}
    {fields : List (MessageField Message)} (hfield : Keeps P field)
    (hfields : ∀ other ∈ fields, Keeps P other) : ∀ other ∈ field :: fields, Keeps P other :=
  List.forall_mem_cons.mpr ⟨hfield, hfields⟩

/-- Reading the fields of a list in their order, each from what the writer puts down for
the source, turns the first message into the second, as long as every payload is short. -/
inductive Builds (source : Message) :
    List (MessageField Message) → Message → Message → Prop
  | nil (m : Message) : Builds source [] m m
  | cons {field : MessageField Message} {fields : List (MessageField Message)} {m n o : Message} :
      ((∀ payload ∈ field.payloads source, Short payload) →
        field.Reads m (field.payloads source) n) → Builds source fields n o →
      Builds source (field :: fields) m o

/-- What the first fields build, the others build on. -/
theorem Builds.append {source m n o : Message} {fields others : List (MessageField Message)}
    (h : Builds source fields m n) (hothers : Builds source others n o) :
    Builds source (fields ++ others) m o := by
  induction h with
  | nil m => exact hothers
  | cons hreads _ ih => exact .cons hreads (ih hothers)

end MessageField

/-- A type of messages: where the reader starts, and the fields with what makes them
readable. -/
structure MessageType (Message : Type*) where
  base : Message
  fields : List (MessageField Message)
  /-- Every attribute is in the range of its field. -/
  Fits : Message → Prop
  numbers_nodup : (fields.map MessageField.number).Nodup
  field_bounds : ∀ field ∈ fields,
    0 < field.number ∧ field.number < 2 ^ 29 ∧ field.wireType < 8
  base_fits : Fits base
  builds : ∀ m, Fits m → MessageField.Builds m fields base m
  keeps : ∀ field ∈ fields, field.Keeps Fits

namespace MessageType

variable {Message : Type*}

/-- One tag and payload of the wire after the other. -/
def chunks (type : MessageType Message) (rt : WireRuntime) (m : Message) : List (List UInt8) :=
  type.fields.flatMap fun field =>
    (field.payloads m).map fun payload => rt.uint32.write field.tag ++ payload

/-- The bytes of a message, field after field. -/
def encode (type : MessageType Message) (rt : WireRuntime) (m : Message) : List UInt8 :=
  (type.chunks rt m).flatten

/-- The loop of a decoder over the `left` bytes before its end. A tag whose number or wire
type is not that of a field is stepped over; an end of a group or a zero stops the loop. Each
turn takes at least the tag, so `left` turns are enough. -/
def decodeLoop (type : MessageType Message) (rt : WireRuntime) :
    ℕ → ℕ → Message → List UInt8 → Option (Message × List UInt8)
  | 0, _, m, bytes => some (m, bytes)
  | turns + 1, left, m, bytes =>
    if left = 0 then some (m, bytes)
    else
      (rt.uint32.read bytes).bind fun (tag, rest) =>
        match type.fields.find? fun field => field.tag = tag with
        | some field =>
          (field.read m rest).bind fun (n, rest) =>
            type.decodeLoop rt turns (left - (bytes.length - rest.length)) n rest
        | none =>
          if tag % 8 = 4 ∨ tag = 0 then some (m, rest)
          else
            (rt.skipType (tag % 8) rest).bind fun rest =>
              type.decodeLoop rt turns (left - (bytes.length - rest.length)) m rest

/-- Decode a message that is `length` bytes long. -/
def decodeFrom (type : MessageType Message) (rt : WireRuntime) (length : ℕ)
    (bytes : List UInt8) : Option (Message × List UInt8) :=
  type.decodeLoop rt length length type.base bytes

/-- Decode all the bytes. -/
def decode (type : MessageType Message) (rt : WireRuntime) (bytes : List UInt8) :
    Option Message :=
  (type.decodeFrom rt bytes.length bytes).map Prod.fst

variable {type : MessageType Message} {rt : WireRuntime}

/-- A tag is found at its own field. -/
theorem find?_tag {field : MessageField Message} (hmem : field ∈ type.fields) :
    (type.fields.find? fun other => other.tag = field.tag) = some field := by
  have hnumber : ∀ other ∈ type.fields, other.tag = field.tag → other.number = field.number := by
    intro other hother htag
    have hfield := (type.field_bounds field hmem).2.2
    have hother := (type.field_bounds other hother).2.2
    unfold MessageField.tag at htag
    omega
  have hsome : (type.fields.find? fun other => other.tag = field.tag).isSome := by
    rw [List.find?_isSome]
    exact ⟨field, hmem, by simp⟩
  obtain ⟨found, hfound⟩ := Option.isSome_iff_exists.mp hsome
  have htag : found.tag = field.tag := by simpa using List.find?_some hfound
  have hfoundMem := List.mem_of_find?_eq_some hfound
  have heq : found = field :=
    List.inj_on_of_nodup_map type.numbers_nodup hfoundMem hmem (hnumber found hfoundMem htag)
  rw [hfound, heq]

/-- The tag of a field is a `uint32`. -/
theorem tag_lt {field : MessageField Message} (hmem : field ∈ type.fields) :
    field.tag < 2 ^ 32 := by
  have hbounds := type.field_bounds field hmem
  unfold MessageField.tag
  omega

/-- A `uint32` is short. -/
theorem short_uint32 {n : ℕ} (hn : n < 2 ^ 32) : Short (rt.uint32.write n) := by
  have hlength := rt.uint32_length n hn
  unfold Short
  omega

/-- What the writer of tags puts down is not empty. -/
theorem length_write_pos (rt : WireRuntime) {tag : ℕ} (htag : tag < 2 ^ 32) :
    0 < (rt.uint32.write tag).length := by
  have hread := rt.uint32.read_write tag [] ((rt.uint32_fits tag).mpr htag) (short_uint32 htag)
  have hlt := rt.uint32_consumes _ _ _ hread
  simpa using hlt

/-- A chunk whose tag is not that of a field, and whose payload can be stepped over. -/
structure Unknown (type : MessageType Message) (rt : WireRuntime) (chunk : List UInt8)
    (tag : ℕ) (payload : List UInt8) : Prop where
  chunk_eq : chunk = rt.uint32.write tag ++ payload
  tag_lt : tag < 2 ^ 32
  tag_ne : tag ≠ 0
  not_end : tag % 8 ≠ 4
  no_field : ∀ field ∈ type.fields, field.tag ≠ tag
  skipped : ∀ rest, rt.skipType (tag % 8) (payload ++ rest) = some rest

/-- The chunks turn the first message into the second. -/
inductive Consumes (type : MessageType Message) (rt : WireRuntime) :
    Message → List (List UInt8) → Message → Prop
  | nil (m : Message) : Consumes type rt m [] m
  | known {m n o : Message} {field : MessageField Message} {payload : List UInt8}
      {chunks : List (List UInt8)} : field ∈ type.fields →
      (∀ rest, field.read m (payload ++ rest) = some (n, rest)) → Consumes type rt n chunks o →
      Consumes type rt m ((rt.uint32.write field.tag ++ payload) :: chunks) o
  | unknown {m o : Message} {chunk payload : List UInt8} {tag : ℕ} {chunks : List (List UInt8)} :
      Unknown type rt chunk tag payload → Consumes type rt m chunks o →
      Consumes type rt m (chunk :: chunks) o

/-- The loop goes through the chunks and leaves what comes after them. -/
theorem Consumes.decodeLoop {m n : Message} {chunks : List (List UInt8)}
    (h : Consumes type rt m chunks n) (turns : ℕ) (hturns : chunks.flatten.length ≤ turns)
    (rest : List UInt8) :
    type.decodeLoop rt turns chunks.flatten.length m (chunks.flatten ++ rest) =
      some (n, rest) := by
  induction h generalizing turns with
  | nil m => cases turns <;> simp [MessageType.decodeLoop]
  | @known m n o field payload chunks hmem hread _ ih =>
    have htag := (rt.uint32_fits _).mpr (tag_lt hmem)
    have hpos := length_write_pos rt (tag_lt hmem)
    simp only [List.flatten_cons, List.length_append] at hturns ⊢
    obtain ⟨turns, rfl⟩ : ∃ k, turns = k + 1 := ⟨turns - 1, by omega⟩
    have hne : (rt.uint32.write field.tag).length + payload.length + chunks.flatten.length ≠ 0 := by
      omega
    have hleft : (rt.uint32.write field.tag).length + payload.length + chunks.flatten.length -
        ((rt.uint32.write field.tag ++ (payload ++ (chunks.flatten ++ rest))).length -
          (chunks.flatten ++ rest).length) = chunks.flatten.length := by
      simp only [List.length_append]
      omega
    simp only [MessageType.decodeLoop, if_neg hne, List.append_assoc,
      rt.uint32.read_write _ _ htag (short_uint32 (tag_lt hmem)), Option.bind_some, find?_tag hmem,
      hread, hleft]
    exact ih turns (by omega)
  | @unknown m o chunk payload tag chunks hunknown _ ih =>
    obtain ⟨rfl, htag, hne, hend, hfield, hskip⟩ := hunknown
    have hfits := (rt.uint32_fits _).mpr htag
    have hpos := length_write_pos rt htag
    have hfind : (type.fields.find? fun field => field.tag = tag) = none := by
      simpa using hfield
    simp only [List.flatten_cons, List.length_append] at hturns ⊢
    obtain ⟨turns, rfl⟩ : ∃ k, turns = k + 1 := ⟨turns - 1, by omega⟩
    have hnz : (rt.uint32.write tag).length + payload.length + chunks.flatten.length ≠ 0 := by
      omega
    have hleft : (rt.uint32.write tag).length + payload.length + chunks.flatten.length -
        ((rt.uint32.write tag ++ (payload ++ (chunks.flatten ++ rest))).length -
          (chunks.flatten ++ rest).length) = chunks.flatten.length := by
      simp only [List.length_append]
      omega
    simp only [MessageType.decodeLoop, if_neg hnz, List.append_assoc,
      rt.uint32.read_write _ _ hfits (short_uint32 htag), Option.bind_some, hfind, hskip, hleft]
    rw [if_neg (by tauto)]
    exact ih turns (by omega)

/-- Chunks of unknown fields put anywhere between those of a message. -/
inductive Interspersed (type : MessageType Message) (rt : WireRuntime) :
    List (List UInt8) → List (List UInt8) → Prop
  | nil : Interspersed type rt [] []
  | known {chunk : List UInt8} {own mixed : List (List UInt8)} :
      Interspersed type rt own mixed → Interspersed type rt (chunk :: own) (chunk :: mixed)
  | unknown {chunk payload : List UInt8} {tag : ℕ} {own mixed : List (List UInt8)} :
      Unknown type rt chunk tag payload → Interspersed type rt own mixed →
      Interspersed type rt own (chunk :: mixed)

/-- Nothing is lost by the unknown fields. -/
theorem Interspersed.length_le {own mixed : List (List UInt8)}
    (h : Interspersed type rt own mixed) : own.flatten.length ≤ mixed.flatten.length := by
  induction h with
  | nil => exact Nat.le_refl _
  | known _ ih =>
    simp only [List.flatten_cons, List.length_append]
    omega
  | unknown _ _ ih =>
    simp only [List.flatten_cons, List.length_append]
    omega

/-- A message interspersed with nothing is itself. -/
theorem interspersed_self (own : List (List UInt8)) : Interspersed type rt own own := by
  induction own with
  | nil => exact .nil
  | cons chunk own ih => exact .known ih

/-- The chunks of one field, in front of others. -/
theorem consumes_of_reads {field : MessageField Message} (hmem : field ∈ type.fields)
    {m n o : Message} {payloads chunks : List (List UInt8)} (hreads : field.Reads m payloads n)
    (hrest : Consumes type rt n chunks o) :
    Consumes type rt m
      ((payloads.map fun payload => rt.uint32.write field.tag ++ payload) ++ chunks) o := by
  induction hreads with
  | nil m => exact hrest
  | cons hread _ ih => exact .known hmem hread (ih hrest)

/-- The chunks that build a message are consumed to it, field after field. -/
theorem consumes_of_builds {source m n : Message} {fields : List (MessageField Message)}
    (hsubset : ∀ field ∈ fields, field ∈ type.fields)
    (hshort : ∀ field ∈ fields, ∀ payload ∈ field.payloads source, Short payload)
    (h : MessageField.Builds source fields m n) :
    Consumes type rt m (fields.flatMap fun field =>
      (field.payloads source).map fun payload => rt.uint32.write field.tag ++ payload) n := by
  induction h with
  | nil m => exact .nil m
  | @cons field fields m n o hreads _ ih =>
    obtain ⟨hmem, hmems⟩ := List.forall_mem_cons.mp hsubset
    obtain ⟨hfieldShort, hfieldsShort⟩ := List.forall_mem_cons.mp hshort
    rw [List.flatMap_cons]
    exact consumes_of_reads hmem (hreads hfieldShort) (ih hmems hfieldsShort)

/-- Unknown fields between the chunks change nothing. -/
theorem Consumes.interspersed {m n : Message} {own mixed : List (List UInt8)}
    (h : Consumes type rt m own n) (hmixed : Interspersed type rt own mixed) :
    Consumes type rt m mixed n := by
  induction hmixed generalizing m with
  | nil => exact h
  | known _ ih =>
    cases h with
    | known hmem hread hrest => exact .known hmem hread (ih hrest)
    | unknown hunknown hrest => exact .unknown hunknown (ih hrest)
  | unknown hunknown _ ih => exact .unknown hunknown (ih h)

/-- No payload is longer than the whole encoding. -/
theorem short_of_encode {m : Message} (hshort : Short (type.encode rt m))
    {field : MessageField Message} (hmem : field ∈ type.fields) {payload : List UInt8}
    (hpayload : payload ∈ field.payloads m) : Short payload := by
  have hchunk : rt.uint32.write field.tag ++ payload ∈ type.chunks rt m :=
    List.mem_flatMap.mpr ⟨field, hmem, List.mem_map_of_mem hpayload⟩
  have hle := (List.sublist_flatten_of_mem hchunk).length_le
  rw [List.length_append] at hle
  unfold Short encode at hshort
  unfold Short
  omega

/-- The chunks of a message are consumed to that message. -/
theorem consumes_chunks {m : Message} (hfits : type.Fits m) (hshort : Short (type.encode rt m)) :
    Consumes type rt type.base (type.chunks rt m) m :=
  consumes_of_builds (fun _ hmem => hmem)
    (fun _ hmem _ hpayload => short_of_encode hshort hmem hpayload) (type.builds m hfits)

/-- Chunks that turn the first message into another are decoded to that one. -/
theorem Consumes.decode {m : Message} {chunks : List (List UInt8)}
    (h : Consumes type rt type.base chunks m) : type.decode rt chunks.flatten = some m := by
  have hloop := h.decodeLoop chunks.flatten.length (Nat.le_refl _) []
  rw [List.append_nil] at hloop
  rw [MessageType.decode, decodeFrom, hloop]
  rfl

/-- **Unknown fields.** A message is read back whatever unknown fields are put between its
own. -/
theorem decode_interspersed {m : Message} (hfits : type.Fits m)
    (hshort : Short (type.encode rt m)) {mixed : List (List UInt8)}
    (hmixed : Interspersed type rt (type.chunks rt m) mixed) :
    type.decode rt mixed.flatten = some m :=
  ((consumes_chunks hfits hshort).interspersed hmixed).decode

/-- What the writer puts down is read back, whatever follows it. -/
theorem decodeFrom_encode {m : Message} (hfits : type.Fits m)
    (hshort : Short (type.encode rt m)) (rest : List UInt8) :
    type.decodeFrom rt (type.encode rt m).length (type.encode rt m ++ rest) =
      some (m, rest) :=
  (consumes_chunks hfits hshort).decodeLoop _ (Nat.le_refl _) rest

/-- **Round trip.** -/
theorem decode_encode {m : Message} (hfits : type.Fits m) (hshort : Short (type.encode rt m)) :
    type.decode rt (type.encode rt m) = some m :=
  decode_interspersed hfits hshort (interspersed_self _)

/-- The loop keeps the ranges and takes bytes off the front only. -/
theorem fits_of_decodeLoop {turns left : ℕ} {m n : Message} {bytes rest : List UInt8}
    (hm : type.Fits m) (h : type.decodeLoop rt turns left m bytes = some (n, rest)) :
    type.Fits n ∧ rest.length ≤ bytes.length := by
  induction turns generalizing left m bytes with
  | zero =>
    obtain ⟨rfl, rfl⟩ : m = n ∧ bytes = rest := by simpa [decodeLoop] using h
    exact ⟨hm, (Nat.le_refl _)⟩
  | succ turns ih =>
    rw [decodeLoop] at h
    split_ifs at h with hleft
    · obtain ⟨rfl, rfl⟩ : m = n ∧ bytes = rest := by simpa using h
      exact ⟨hm, (Nat.le_refl _)⟩
    obtain ⟨⟨tag, afterTag⟩, htag, h⟩ := Option.bind_eq_some_iff.mp h
    have hshorter := rt.uint32.length_of_read _ _ _ htag
    dsimp only at h
    split at h
    · rename_i field hfind
      have hkeeps := type.keeps field (List.mem_of_find?_eq_some hfind)
      obtain ⟨⟨next, afterField⟩, hread, h⟩ := Option.bind_eq_some_iff.mp h
      have hlength := hkeeps.length _ _ _ _ hread
      dsimp only at hlength h
      obtain ⟨hfits, hrest⟩ := ih (hkeeps.keeps _ _ _ _ hm hread) h
      exact ⟨hfits, by omega⟩
    · split_ifs at h with hend
      · obtain ⟨rfl, rfl⟩ : m = n ∧ afterTag = rest := by simpa using h
        exact ⟨hm, hshorter⟩
      · obtain ⟨afterSkip, hskip, h⟩ := Option.bind_eq_some_iff.mp h
        have hlength := rt.skipType_length _ _ _ hskip
        obtain ⟨hfits, hrest⟩ := ih hm h
        exact ⟨hfits, by omega⟩

/-- More turns than bytes left change nothing: the fuel is never what stops the loop. -/
theorem decodeLoop_add {turns left : ℕ} (hleft : left ≤ turns) (more : ℕ) (m : Message)
    (bytes : List UInt8) :
    type.decodeLoop rt (turns + more) left m bytes = type.decodeLoop rt turns left m bytes := by
  induction turns generalizing left m bytes with
  | zero =>
    obtain rfl : left = 0 := by omega
    cases more <;> simp [decodeLoop]
  | succ turns ih =>
    rw [Nat.succ_add]
    simp only [decodeLoop]
    split_ifs with hzero
    · rfl
    refine Option.bind_congr fun ⟨tag, afterTag⟩ htag => ?_
    have hshorter := rt.uint32_consumes _ _ _ htag
    dsimp only
    split
    · rename_i field hfind
      have hkeeps := type.keeps field (List.mem_of_find?_eq_some hfind)
      refine Option.bind_congr fun ⟨next, afterField⟩ hread => ?_
      have hlength := hkeeps.length _ _ _ _ hread
      exact ih (by dsimp only at hlength ⊢; omega) next afterField
    · split_ifs
      · rfl
      refine Option.bind_congr fun afterSkip hskip => ?_
      have hlength := rt.skipType_length _ _ _ hskip
      exact ih (by omega) m afterSkip

/-- Whatever is accepted is in range. -/
theorem fits_of_decode {m : Message} {bytes : List UInt8} (h : type.decode rt bytes = some m) :
    type.Fits m := by
  obtain ⟨⟨n, rest⟩, hloop, rfl⟩ := Option.map_eq_some_iff.mp h
  exact (fits_of_decodeLoop type.base_fits hloop).1

/-- The messages of a type as a scalar of those that hold them: the length, then the
fields. -/
def scalar (type : MessageType Message) (rt : WireRuntime) : Scalar 2 Message where
  write m := rt.uint32.write (type.encode rt m).length ++ type.encode rt m
  read bytes := (rt.uint32.read bytes).bind fun (length, rest) => type.decodeFrom rt length rest
  Fits m := type.Fits m
  read_write m rest hfits hshort := by
    have hencode : Short (type.encode rt m) := by
      unfold Short at hshort ⊢
      rw [List.length_append] at hshort
      omega
    have hlength := (rt.uint32_fits _).mpr hencode
    rw [List.append_assoc, rt.uint32.read_write _ _ hlength (short_uint32 hencode)]
    exact decodeFrom_encode hfits hencode rest
  fits_of_read bytes m rest h := by
    obtain ⟨⟨length, after⟩, _, h⟩ := Option.bind_eq_some_iff.mp h
    exact (fits_of_decodeLoop type.base_fits h).1
  length_of_read bytes m rest h := by
    obtain ⟨⟨length, after⟩, hlength, h⟩ := Option.bind_eq_some_iff.mp h
    have hafter := rt.uint32.length_of_read _ _ _ hlength
    have hrest := (fits_of_decodeLoop type.base_fits h).2
    exact Nat.le_trans hrest hafter

/-- Chunks behind their length are read as the message they are decoded to. -/
theorem Consumes.read_scalar {m : Message} {chunks : List (List UInt8)}
    (h : Consumes type rt type.base chunks m) (hshort : Short chunks.flatten) (rest : List UInt8) :
    (type.scalar rt).read
      (rt.uint32.write chunks.flatten.length ++ chunks.flatten ++ rest) = some (m, rest) := by
  have hlength := (rt.uint32_fits _).mpr hshort
  rw [List.append_assoc]
  simp only [scalar, rt.uint32.read_write _ _ hlength (short_uint32 hshort), Option.bind_some]
  exact h.decodeLoop _ (Nat.le_refl _) rest

end MessageType
