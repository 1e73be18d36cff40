import Mathlib.Logic.Function.Basic
import RdWeb.FileTransfer.WireProtocol

/-!
# The message around an action or a response

The envelope that the builders put around what they build, and what is read from it. The
members that no transfer sets keep their numbers; how they are written is a parameter.
-/

namespace RdWeb.FileTransfer.Wire

open MessageField

/-- The members of a message other than `file_action` and `file_response`. -/
inductive OtherMember
  | signedId | publicKey | testDelay | videoFrame | loginRequest | loginResponse | hash
  | mouseEvent | audioFrame | cursorData | cursorPosition | cursorId | keyEvent | clipboard
  | misc | cliprdr | messageBox | switchSidesResponse | voiceCallRequest | voiceCallResponse
  | peerInfo | pointerDeviceEvent | auth2fa | multiClipboards
  deriving DecidableEq

namespace OtherMember

/-- The number of the field. -/
def number : OtherMember → ℕ
  | signedId => 3
  | publicKey => 4
  | testDelay => 5
  | videoFrame => 6
  | loginRequest => 7
  | loginResponse => 8
  | hash => 9
  | mouseEvent => 10
  | audioFrame => 11
  | cursorData => 12
  | cursorPosition => 13
  | cursorId => 14
  | keyEvent => 15
  | clipboard => 16
  | misc => 19
  | cliprdr => 20
  | messageBox => 21
  | switchSidesResponse => 22
  | voiceCallRequest => 23
  | voiceCallResponse => 24
  | peerInfo => 25
  | pointerDeviceEvent => 26
  | auth2fa => 27
  | multiClipboards => 28

/-- Every member is a message of its own but the id of a cursor, which is a number. -/
def wireType : OtherMember → ℕ
  | cursorId => 0
  | _ => 2

/-- The members that are written before the action. -/
def before : List OtherMember :=
  [signedId, publicKey, testDelay, videoFrame, loginRequest, loginResponse, hash, mouseEvent,
    audioFrame, cursorData, cursorPosition, cursorId, keyEvent, clipboard]

/-- The members that are written after the response. -/
def after : List OtherMember :=
  [misc, cliprdr, messageBox, switchSidesResponse, voiceCallRequest, voiceCallResponse, peerInfo,
    pointerDeviceEvent, auth2fa, multiClipboards]

/-- A member that is not written after the response is written before the action. -/
theorem mem_before_of_notMem_after {member : OtherMember} (h : member ∉ after) :
    member ∈ before := by
  cases member <;> first | decide | exact absurd (by decide) h

/-- No member is written twice. -/
theorem notMem_before_of_mem_after {member : OtherMember} (h : member ∈ after) :
    member ∉ before := by
  cases member <;> first | decide | exact absurd h (by decide)

/-- The tags of the members are small enough. -/
theorem bounds (member : OtherMember) :
    0 < member.number ∧ member.number < 2 ^ 29 ∧ member.wireType < 8 := by
  cases member <;> decide

end OtherMember

/-- What is sent over a connection: one of the members is set. -/
structure Message (Value : OtherMember → Type) where
  other : ∀ member, Option (Value member)
  fileAction : Option FileAction
  fileResponse : Option FileResponse

variable {Value : OtherMember → Type}

/-- A message without any of its members. -/
def createBaseMessage : Message Value := ⟨fun _ => none, none, none⟩

variable (rt : WireRuntime) (codec : ∀ member, Scalar member.wireType (Value member))

/-- What the members of a message can hold. -/
structure Message.Fits (m : Message Value) : Prop where
  other : ∀ member, ∀ value ∈ m.other member, (codec member).Fits value
  fileAction : ∀ value ∈ m.fileAction, value.Fits
  fileResponse : ∀ value ∈ m.fileResponse, value.Fits

/-- The field of a member other than the two. -/
def otherField (member : OtherMember) : MessageField (Message Value) :=
  .explicit member.number (codec member)
    { get := (·.other member)
      set := fun m value => { m with other := Function.update m.other member value }
      set_get := by simp
      get_set := by simp
      set_set := by simp }

variable {codec}

/-- The fields of other members read what the writer puts down for them. -/
theorem builds_others {source : Message Value} (hfits : source.Fits codec)
    (members : List OtherMember) (hnodup : members.Nodup) (m : Message Value)
    (hfresh : ∀ member ∈ members, m.other member = none) :
    Builds source (members.map (otherField codec)) m
      { m with other := fun member =>
          if member ∈ members then source.other member else m.other member } := by
  induction members generalizing m with
  | nil => exact .nil m
  | cons member members ih =>
    obtain ⟨hnotMem, hnodups⟩ := List.nodup_cons.mp hnodup
    obtain ⟨hmember, hmembers⟩ := List.forall_mem_cons.mp hfresh
    refine .cons (reads_explicit (hfits.other member) hmember) ?_
    have hrest := ih hnodups
      { m with other := Function.update m.other member (source.other member) }
      (fun other hother => by
        have hne : other ≠ member := ne_of_mem_of_not_mem hother hnotMem
        simpa [hne] using hmembers other hother)
    convert hrest using 3 with other
    by_cases heq : other = member
    · subst heq
      simp [hnotMem]
    · simp [heq]

/-- Setting another member keeps the message in range. -/
theorem keeps_others (members : List OtherMember) :
    ∀ field ∈ members.map (otherField codec), field.Keeps (Message.Fits codec) := by
  intro field hmem
  obtain ⟨member, -, rfl⟩ := List.mem_map.mp hmem
  refine keeps_explicit fun m value h hvalue => { h with other := fun other => ?_ }
  by_cases heq : other = member
  · subst heq
    simpa using hvalue
  · simpa [heq] using h.other other

variable (codec)

/-- The field of `file_action`. -/
def fileActionField : MessageField (Message Value) :=
  .explicit 17 ((fileAction rt).scalar rt)
    { get := (·.fileAction), set := fun m fileAction => { m with fileAction } }

/-- The field of `file_response`. -/
def fileResponseField : MessageField (Message Value) :=
  .explicit 18 ((fileResponse rt).scalar rt)
    { get := (·.fileResponse), set := fun m fileResponse => { m with fileResponse } }

/-- The codec of a message. -/
def message : MessageType (Message Value) where
  base := createBaseMessage
  fields :=
    OtherMember.before.map (otherField codec) ++ fileActionField rt :: fileResponseField rt ::
      OtherMember.after.map (otherField codec)
  Fits := Message.Fits codec
  numbers_nodup := by
    show [3, 4, 5, 6, 7, 8, 9, 10, 11, 12, 13, 14, 15, 16, 17, 18, 19, 20, 21, 22, 23, 24, 25, 26,
      27, 28].Nodup
    decide
  field_bounds := by
    intro field hmem
    simp only [List.mem_append, List.mem_cons, List.mem_map] at hmem
    rcases hmem with ⟨member, -, rfl⟩ | rfl | rfl | ⟨member, -, rfl⟩
    · exact member.bounds
    · simp [fileActionField]
    · simp [fileResponseField]
    · exact member.bounds
  base_fits := by constructor <;> simp [createBaseMessage]
  builds m h := by
    refine (builds_others h OtherMember.before (by decide) _ fun _ _ => rfl).append <|
      .cons (reads_explicit h.fileAction rfl) <| .cons (reads_explicit h.fileResponse rfl) ?_
    convert builds_others h OtherMember.after (by decide) _ ?_ using 1
    · cases m with
      | mk other fileAction fileResponse =>
        congr 1
        funext member
        by_cases hmem : member ∈ OtherMember.after
        · simp [hmem]
        · simp [hmem, OtherMember.mem_before_of_notMem_after hmem]
    · intro member hmem
      simp [OtherMember.notMem_before_of_mem_after hmem, createBaseMessage]
  keeps := by
    intro field hmem
    simp only [List.mem_append, List.mem_cons] at hmem
    rcases hmem with hmem | rfl | rfl | hmem
    · exact keeps_others _ _ hmem
    · exact keeps_explicit fun _ _ h hvalue => { h with fileAction := forall_mem_some hvalue }
    · exact keeps_explicit fun _ _ h hvalue => { h with fileResponse := forall_mem_some hvalue }
    · exact keeps_others _ _ hmem

/-- The message around an action. -/
def makeFileAction (msg : FileAction) : Message Value :=
  { createBaseMessage with fileAction := some msg }

/-- The message around a response. -/
def makeFileResponse (msg : FileResponse) : Message Value :=
  { createBaseMessage with fileResponse := some msg }

/-- A message has nothing to write for members it does not have. -/
theorem chunks_others (source : Message Value) (members : List OtherMember)
    (habsent : ∀ member ∈ members, source.other member = none) :
    ((members.map (otherField codec)).flatMap fun field =>
      (field.payloads source).map fun payload => rt.uint32.write field.tag ++ payload) = [] := by
  simp only [List.flatMap_eq_nil_iff, List.mem_map, List.map_eq_nil_iff]
  rintro _ ⟨member, hmem, rfl⟩
  simp [otherField, explicit, ofPut, habsent member hmem]

end RdWeb.FileTransfer.Wire

namespace RdWeb.FileTransfer

open Wire

variable {Value : OtherMember → Type} (rt : WireRuntime)
  (codec : ∀ member, Scalar member.wireType (Value member))

namespace WireMessage

/-- The message around an action or a response. -/
def make : WireMessage → Message Value
  | action m => makeFileAction m
  | response m => makeFileResponse m

/-- The number of the member of the envelope. -/
def number : WireMessage → ℕ
  | action _ => 17
  | response _ => 18

/-- The chunk of the envelope that holds the chunks of an action or a response: the tag of
the member, their length and then they. -/
def chunk (m : WireMessage) (inner : List (List UInt8)) : List UInt8 :=
  rt.uint32.write (m.number * 8 + 2) ++ (rt.uint32.write inner.flatten.length ++ inner.flatten)

/-- The chunks of an action or a response. -/
def chunks : WireMessage → List (List UInt8)
  | action m => (fileAction rt).chunks rt m
  | response m => (fileResponse rt).chunks rt m

/-- The chunks of an envelope around the message: unknown fields may stand around the member
and within it. -/
inductive Spread (m : WireMessage) (outer : List (List UInt8)) : Prop
  | intro (inner : List (List UInt8)) : m.Interspersed rt inner → Short inner.flatten →
      MessageType.Interspersed (message rt codec) rt [m.chunk rt inner] outer → Spread m outer

variable {rt codec}

/-- The envelope of a message has one chunk, with the chunks of the message in it. -/
theorem chunks_make (m : WireMessage) :
    (message rt codec).chunks rt m.make = [m.chunk rt (m.chunks rt)] := by
  have habsent : ∀ member, (m.make : Message Value).other member = none := by
    cases m <;> exact fun _ => rfl
  have hbefore := chunks_others rt codec m.make OtherMember.before fun member _ => habsent member
  have hafter := chunks_others rt codec m.make OtherMember.after fun member _ => habsent member
  unfold MessageType.chunks
  simp only [message, List.flatMap_append, List.flatMap_cons, hbefore, hafter]
  cases m <;> rfl

/-- What is built is spread with nothing around it and nothing in it. -/
theorem spread_chunks {m : WireMessage} (hshort : Short ((message rt codec).encode rt m.make)) :
    m.Spread rt codec ((message rt codec).chunks rt m.make) := by
  have hinner : Short (m.chunks rt).flatten := by
    unfold MessageType.encode at hshort
    rw [chunks_make, List.flatten_singleton] at hshort
    unfold Short chunk at hshort
    simp only [List.length_append] at hshort
    unfold Short
    omega
  refine .intro (m.chunks rt) ?_ hinner ?_
  · cases m <;> exact MessageType.interspersed_self _
  · rw [chunks_make]
    exact MessageType.interspersed_self _

/-- The chunk of the envelope is consumed to the message around what is in it. -/
theorem consumes_chunk {m : WireMessage} (hfits : m.Fits) {inner : List (List UInt8)}
    (hinner : m.Interspersed rt inner) (hshort : Short inner.flatten) :
    MessageType.Consumes (message rt codec) rt createBaseMessage [m.chunk rt inner] m.make := by
  have hown : ∀ own : List (List UInt8), own.flatten.length ≤ inner.flatten.length →
      Short own.flatten := fun own hle => Nat.lt_of_le_of_lt hle hshort
  cases m with
  | action m =>
    have hinside :=
      (MessageType.consumes_chunks hfits (hown _ hinner.length_le)).interspersed hinner
    have hmem : fileActionField rt ∈ (message rt codec).fields := by simp [message]
    refine .known hmem (fun rest => ?_) (.nil _)
    simp only [fileActionField, MessageField.explicit, MessageField.ofPut,
      hinside.read_scalar hshort rest, Option.map_some]
    rfl
  | response m =>
    have hinside :=
      (MessageType.consumes_chunks hfits (hown _ hinner.length_le)).interspersed hinner
    have hmem : fileResponseField rt ∈ (message rt codec).fields := by simp [message]
    refine .known hmem (fun rest => ?_) (.nil _)
    simp only [fileResponseField, MessageField.explicit, MessageField.ofPut,
      hinside.read_scalar hshort rest, Option.map_some]
    rfl

/-- The message around what was sent is read, whatever unknown fields are spread over it. -/
theorem decode_spread {m : WireMessage} (hfits : m.Fits) {outer : List (List UInt8)}
    (h : m.Spread rt codec outer) : (message rt codec).decode rt outer.flatten = some m.make := by
  obtain ⟨inner, hinner, hshort, houter⟩ := h
  exact ((consumes_chunk hfits hinner hshort).interspersed houter).decode

end WireMessage

namespace OutMessage

open WireMessage

/-- The message a builder hands over: the envelope around what it builds. -/
def toMessage (m : OutMessage) : Message Value := m.build.make

/-- The call a message stands for, by the member that is set. -/
def ofMessage (m : Message Value) : Option OutMessage :=
  (m.fileAction.bind fun action => ofWire (.action action)) <|>
  (m.fileResponse.bind fun response => ofWire (.response response))

/-- The call of an envelope is that of what is in it. -/
theorem ofMessage_make (m : WireMessage) :
    ofMessage (m.make : Message Value) = ofWire m := by
  cases m <;> simp [ofMessage, make, makeFileAction, makeFileResponse, createBaseMessage]

/-- **What is sent arrives, envelope and all.** From the bytes of a message alone the other
side tells the action or the response and what was asked, whatever unknown fields stand around
the member and within it; the message as it is built is such bytes. -/
theorem message_arrives {m : OutMessage} (hfits : m.build.Fits) (htimes : m.NonnegTimes)
    (hshort : Short ((message rt codec).encode rt m.toMessage)) :
    m.build.Spread rt codec ((message rt codec).chunks rt m.toMessage) ∧
    ∀ outer, m.build.Spread rt codec outer →
      ((message rt codec).decode rt outer.flatten).bind ofMessage = some m.onWire := by
  refine ⟨spread_chunks hshort, fun outer houter => ?_⟩
  rw [decode_spread hfits houter, Option.bind_some, ofMessage_make]
  exact ofWire_build htimes

/-- The other members as the bytes they are; the id of a cursor is a number. -/
def Raw : OtherMember → Type
  | .cursorId => ℕ
  | _ => List UInt8

/-- The bytes of a member are written behind their length. -/
def rawCodec : ∀ member : OtherMember, Scalar member.wireType (Raw member)
  | .cursorId => long rt
  | .signedId | .publicKey | .testDelay | .videoFrame | .loginRequest | .loginResponse | .hash
  | .mouseEvent | .audioFrame | .cursorData | .cursorPosition | .keyEvent | .clipboard
  | .misc | .cliprdr | .messageBox | .switchSidesResponse | .voiceCallRequest
  | .voiceCallResponse | .peerInfo | .pointerDeviceEvent | .auth2fa | .multiClipboards => rt.bytes

/-- A field of a later version in the request to remove a file, and another around it. -/
theorem message_arrives_removeFile :
    ((message Varint.runtime (rawCodec Varint.runtime)).decode Varint.runtime
      ([[232, 1, 5], removal.chunk Varint.runtime
        [[120, 1], removal.encode Varint.runtime]].flatten)).bind ofMessage =
      some (.removeFile 300 "a" (-1)) := by
  have hshort : Short ((message Varint.runtime (rawCodec Varint.runtime)).encode Varint.runtime
      (OutMessage.removeFile 300 "a" (-1)).toMessage) := by decide
  have hinside : MessageType.Unknown (fileAction Varint.runtime) Varint.runtime
      [120, 1] 120 [1] :=
    { chunk_eq := by decide
      tag_lt := by decide
      tag_ne := by decide
      not_end := by decide
      no_field := by decide
      skipped := fun rest => rfl }
  have haround : MessageType.Unknown (message Varint.runtime (rawCodec Varint.runtime))
      Varint.runtime [232, 1, 5] 232 [5] :=
    { chunk_eq := by decide
      tag_lt := by decide
      tag_ne := by decide
      not_end := by decide
      no_field := by decide
      skipped := fun rest => rfl }
  have hinner : removal.Interspersed Varint.runtime [[120, 1], removal.encode Varint.runtime] := by
    have hchunks : removal.chunks Varint.runtime = [removal.encode Varint.runtime] := by decide
    show MessageType.Interspersed _ _ (removal.chunks Varint.runtime) _
    rw [hchunks]
    exact .unknown hinside (MessageType.interspersed_self _)
  exact (message_arrives Varint.runtime (rawCodec Varint.runtime)
    (m := .removeFile 300 "a" (-1)) removal_fits trivial hshort).2 _
    (.intro _ hinner (by decide) (.unknown haround (MessageType.interspersed_self _)))

end OutMessage

end RdWeb.FileTransfer
