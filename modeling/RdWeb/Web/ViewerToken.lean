import RdWeb.Clipboard.Path
import RdWeb.Lib.Base64

/-!
# The token of a viewer

`helpers/viewer-crypto.js`: the page that opens a viewer sends it the password in an envelope, a
token of three parts in base64 whose second part holds the ciphertext, its nonce and the public key
of the page. `JSON.parse` and the operations of `crypto.subtle` are parameters.
-/

namespace RdWeb.Web

open RdWeb.Clipboard

/-- `TextDecoder.decode`: a byte order mark is not part of the text. -/
def textDecode (bytes : List UInt8) : String :=
  match bytes with
  | 0xEF :: 0xBB :: 0xBF :: rest => PathBuf.toStringLossy rest
  | bytes => PathBuf.toStringLossy bytes

/-- What the second part of a token says. -/
structure JwtPayload where
  encryptedToken : String
  iv : String
  ephemeralPublicKey : String
  deriving DecidableEq, Repr

/-- An error object that was thrown. -/
structure Thrown where
  name : String
  message : String
  deriving DecidableEq, Repr

/-- `String(err)`. -/
def Thrown.toString (err : Thrown) : String :=
  if err.message = "" then err.name else err.name ++ ": " ++ err.message

/-- What a viewer uses of the browser. A field the JSON text does not have is empty here: both are
refused. -/
structure ViewerCrypto (PrivateKey PublicKey AesKey : Type) where
  /-- What `atob` throws. -/
  invalidCharacter : Thrown
  /-- `JSON.parse`. -/
  parsePayload : String → Except Thrown JwtPayload
  /-- `importKey` of an SPKI document. -/
  importSpki : List UInt8 → Except Thrown PublicKey
  /-- `deriveAesKey`. -/
  deriveAesKey : PrivateKey → PublicKey → AesKey
  /-- `decrypt` with AES-GCM: key, nonce and ciphertext. -/
  decrypt : AesKey → List UInt8 → List UInt8 → Except Thrown (List UInt8)

/-- The error for an envelope with too few parts. -/
def invalidEnvelope : Thrown := ⟨"Error", "invalid JWT envelope"⟩

/-- The error for a payload without one of its fields. -/
def missingFields : Thrown := ⟨"Error", "JWT envelope missing crypto fields"⟩

/-- Back from the characters of base64url. -/
def fromUrl (c : Char) : Char := if c = '-' then '+' else if c = '_' then '/' else c

variable {PrivateKey PublicKey AesKey : Type}

namespace ViewerCrypto

variable (crypto : ViewerCrypto PrivateKey PublicKey AesKey)

/-- The bytes of a text in base64. -/
def base64ToArrayBuffer (b64 : List Char) : Except Thrown (List UInt8) :=
  match Base64.decode b64 with
  | some bytes => .ok bytes
  | none => .error crypto.invalidCharacter

/-- The bytes of a text in the alphabet for URLs, padded first. -/
def base64UrlToArrayBuffer (b64url : List Char) : Except Thrown (List UInt8) :=
  let b64 := b64url.map fromUrl
  let pad := b64.length % 4
  crypto.base64ToArrayBuffer
    (if pad = 2 then b64 ++ ['=', '=']
    else if pad = 3 then b64 ++ ['=']
    else if pad = 1 then b64 ++ ['=', '=', '=']
    else b64)

/-- The payload of a token that nobody has signed. -/
def parseUnsignedJwtPayload (jwt : String) : Except Thrown JwtPayload :=
  match jwt.toList.splitOn '.' with
  | _ :: part :: _ => do
    let json := textDecode (← crypto.base64UrlToArrayBuffer part)
    crypto.parsePayload json
  | _ => .error invalidEnvelope

/-- The token is decrypted with the key that the envelope agrees on. -/
def decryptToken (privateKey : PrivateKey) (encryptedTokenB64 : String) :
    Except Thrown String := do
  let jwt := textDecode (← crypto.base64ToArrayBuffer encryptedTokenB64.toList)
  let payload ← crypto.parseUnsignedJwtPayload jwt
  if payload.encryptedToken = "" ∨ payload.iv = "" ∨ payload.ephemeralPublicKey = "" then
    .error missingFields
  else do
    let spki ← crypto.base64ToArrayBuffer payload.ephemeralPublicKey.toList
    let ephemeralPub ← crypto.importSpki spki
    let aesKey := crypto.deriveAesKey privateKey ephemeralPub
    let iv ← crypto.base64ToArrayBuffer payload.iv.toList
    let ciphertext ← crypto.base64ToArrayBuffer payload.encryptedToken.toList
    let plaintext ← crypto.decrypt aesKey iv ciphertext
    return textDecode plaintext

end ViewerCrypto

/-! ### What the opener writes -/

/-- The characters of base64url. -/
def toUrl (c : Char) : Char := if c = '+' then '-' else if c = '/' then '_' else c

/-- Base64 in the alphabet for URLs, without padding. -/
def base64Url (bytes : List UInt8) : List Char := (Base64.unpadded bytes).map toUrl

/-- The text does not begin with what a decoder takes for a byte order mark. -/
def Unmarked (s : String) : Prop := s.toList.head? ≠ some '\uFEFF'

/-- Whether a text starts with a mark is decided by its first character. -/
instance (s : String) : Decidable (Unmarked s) := inferInstanceAs (Decidable (_ ≠ _))

/-- The envelope of a token: any header, and anything or nothing behind the payload. -/
structure Envelope where
  header : List Char
  json : String
  /-- The parts behind the payload. -/
  rest : List (List Char)
  header_plain : '.' ∉ header
  rest_plain : ∀ part ∈ rest, '.' ∉ part
  /-- The header is not what a decoder takes for a byte order mark. -/
  header_unmarked : header.head? ≠ some '\uFEFF'
  json_unmarked : Unmarked json

/-- The envelope as a token of three parts. -/
def Envelope.jwt (envelope : Envelope) : String :=
  .ofList (['.'].intercalate
    (envelope.header :: base64Url (PathBuf.ofString envelope.json) :: envelope.rest))

/-- The text that is handed over. -/
def Envelope.text (envelope : Envelope) : String :=
  .ofList (Base64.encode (PathBuf.ofString envelope.jwt))

/-! ### Reading it back -/

/-- Encoded bytes are decoded. -/
theorem base64ToArrayBuffer_encode (crypto : ViewerCrypto PrivateKey PublicKey AesKey)
    (data : List UInt8) : crypto.base64ToArrayBuffer (Base64.encode data) = .ok data := by
  rw [ViewerCrypto.base64ToArrayBuffer, Base64.decode_encode]

/-- A digit is read back from the alphabet for URLs. -/
theorem fromUrl_toUrl {c : Char} (h : Base64.IsDigit c) : fromUrl (toUrl c) = c := by
  obtain ⟨digit, hdigit, rfl⟩ := h
  obtain ⟨-, -, hminus, hunderscore, -, -⟩ := Base64.toChar_plain hdigit
  unfold toUrl
  split_ifs with hplus hslash
  · rw [hplus]
    rfl
  · rw [hslash]
    rfl
  · rw [fromUrl, if_neg hminus, if_neg hunderscore]

/-- The padding that base64url leaves out is put back. -/
theorem base64UrlToArrayBuffer_base64Url (crypto : ViewerCrypto PrivateKey PublicKey AesKey)
    (data : List UInt8) : crypto.base64UrlToArrayBuffer (base64Url data) = .ok data := by
  have hback : (base64Url data).map fromUrl = Base64.unpadded data := by
    rw [base64Url, List.map_map]
    refine (List.map_congr_left fun c hc => ?_).trans (List.map_id _)
    exact fromUrl_toUrl (Base64.isDigit_of_mem_unpadded hc)
  have hmod := Base64.length_unpadded_mod data
  have hpadded : (if (Base64.unpadded data).length % 4 = 2 then Base64.unpadded data ++ ['=', '=']
      else if (Base64.unpadded data).length % 4 = 3 then Base64.unpadded data ++ ['=']
      else if (Base64.unpadded data).length % 4 = 1 then Base64.unpadded data ++ ['=', '=', '=']
      else Base64.unpadded data) = Base64.encode data := by
    have hcases : (Base64.unpadded data).length % 4 = 0 ∨
        (Base64.unpadded data).length % 4 = 2 ∨ (Base64.unpadded data).length % 4 = 3 := by omega
    rw [Base64.encode, Base64.padding]
    rcases hcases with hzero | htwo | hthree
    · simp [hzero]
    · simp [htwo]
    · simp [hthree]
  dsimp only [ViewerCrypto.base64UrlToArrayBuffer]
  rw [hback, hpadded, base64ToArrayBuffer_encode]

/-- The bytes of a text, one character at a time. -/
theorem ofString_cons (c : Char) (rest : List Char) :
    PathBuf.ofString (.ofList (c :: rest)) =
      String.utf8EncodeChar c ++ PathBuf.ofString (.ofList rest) := by
  rw [PathBuf.ofString, PathBuf.ofString, String.toByteArray_ofList, String.toByteArray_ofList,
    List.utf8Encode, List.utf8Encode, List.toList_data_toByteArray, List.toList_data_toByteArray,
    List.flatMap_cons]

/-- Only the byte order mark has its bytes at the front of a text. -/
theorem unmarked_of_bytes {s : String} (h : Unmarked s) (rest : List UInt8) :
    PathBuf.ofString s ≠ 0xEF :: 0xBB :: 0xBF :: rest := by
  intro heq
  have hs : s = .ofList s.toList := String.ofList_toList.symm
  cases hchars : s.toList with
  | nil =>
    rw [hs, hchars] at heq
    exact absurd heq (by simp [PathBuf.ofString])
  | cons c cs =>
    rw [hs, hchars, ofString_cons] at heq
    have hfirst : ByteArray.utf8DecodeChar?
        ⟨(String.utf8EncodeChar c ++ PathBuf.ofString (.ofList cs)).toArray⟩ 0 = some c := by
      have hdecode := ByteArray.utf8DecodeChar?_utf8EncodeChar_append
        (b := ⟨(PathBuf.ofString (.ofList cs)).toArray⟩) (c := c)
      rw [← hdecode]
      congr 1
      ext1
      simp
    have hmark : ByteArray.utf8DecodeChar? ⟨(0xEF :: 0xBB :: 0xBF :: rest).toArray⟩ 0 =
        some '\uFEFF' := by
      have hdecode := ByteArray.utf8DecodeChar?_utf8EncodeChar_append (b := ⟨rest.toArray⟩)
        (c := '\uFEFF')
      rw [← hdecode]
      congr 1
    rw [heq, hmark] at hfirst
    refine h ?_
    rw [hchars, List.head?_cons, Option.some.inj hfirst]

/-- A text comes back from its bytes, if it does not begin with a byte order mark. -/
theorem textDecode_ofString {s : String} (h : Unmarked s) :
    textDecode (PathBuf.ofString s) = s := by
  unfold textDecode
  split
  · rename_i rest heq
    exact absurd heq (unmarked_of_bytes h rest)
  · exact PathBuf.toStringLossy_ofString s

/-- A byte order mark is lost. -/
theorem textDecode_ofString_of_marked {s : String} (h : ¬ Unmarked s) :
    textDecode (PathBuf.ofString s) ≠ s := by
  have hs : s = .ofList s.toList := String.ofList_toList.symm
  obtain ⟨cs, hchars⟩ := List.head?_eq_some_iff.mp (not_not.mp h)
  have hbytes : PathBuf.ofString s = 0xEF :: 0xBB :: 0xBF :: PathBuf.ofString (.ofList cs) := by
    conv_lhs => rw [hs, hchars]
    rw [ofString_cons]
    rfl
  have hdecode : textDecode (PathBuf.ofString s) = .ofList cs := by
    rw [hbytes, textDecode, PathBuf.toStringLossy_ofString]
  rw [hdecode]
  intro heq
  have hlength := congrArg (fun t : String => t.toList.length) heq
  simp [hchars] at hlength

/-- A part of the token has no dot. -/
theorem dot_not_mem_base64Url (data : List UInt8) : '.' ∉ base64Url data := by
  intro hmem
  obtain ⟨c, hc, hdot⟩ := List.mem_map.mp hmem
  obtain ⟨digit, hdigit, rfl⟩ := Base64.isDigit_of_mem_unpadded hc
  obtain ⟨-, -, -, -, hplain, -⟩ := Base64.toChar_plain hdigit
  unfold toUrl at hdot
  split_ifs at hdot with hplus hslash
  · exact absurd hdot (by decide)
  · exact absurd hdot (by decide)
  · exact hplain hdot

namespace Envelope

variable (envelope : Envelope)

/-- The token splits into its parts. -/
theorem splitOn_jwt :
    envelope.jwt.toList.splitOn '.' =
      envelope.header :: base64Url (PathBuf.ofString envelope.json) :: envelope.rest := by
  rw [jwt, String.toList_ofList]
  refine List.splitOn_intercalate _ (fun part hpart => ?_) (List.cons_ne_nil _ _)
  simp only [List.mem_cons] at hpart
  rcases hpart with rfl | rfl | hrest
  · exact envelope.header_plain
  · exact dot_not_mem_base64Url _
  · exact envelope.rest_plain part hrest

/-- The token does not start with a mark. -/
theorem unmarked_jwt : Unmarked envelope.jwt := by
  have hmark := envelope.header_unmarked
  rw [Unmarked, jwt, String.toList_ofList]
  cases hheader : envelope.header with
  | nil =>
    simp [List.intercalate]
  | cons c cs =>
    rw [hheader] at hmark
    simpa [List.intercalate] using hmark

/-- The payload of an envelope is that of its text. -/
theorem parseUnsignedJwtPayload_jwt (crypto : ViewerCrypto PrivateKey PublicKey AesKey) :
    crypto.parseUnsignedJwtPayload envelope.jwt = crypto.parsePayload envelope.json := by
  rw [ViewerCrypto.parseUnsignedJwtPayload, envelope.splitOn_jwt]
  dsimp only
  rw [base64UrlToArrayBuffer_base64Url]
  exact congrArg crypto.parsePayload (textDecode_ofString envelope.json_unmarked)

end Envelope

/-- What the opener seals for the holder of a private key: the public half of its own key, and
under the key both derive, the bytes of the token. -/
structure SealedToken (crypto : ViewerCrypto PrivateKey PublicKey AesKey) (privateKey : PrivateKey)
    (token : String) where
  ciphertext : List UInt8
  iv : List UInt8
  spki : List UInt8
  ephemeralPub : PublicKey
  ciphertext_ne_nil : ciphertext ≠ []
  iv_ne_nil : iv ≠ []
  spki_ne_nil : spki ≠ []
  importSpki : crypto.importSpki spki = .ok ephemeralPub
  decrypt : crypto.decrypt (crypto.deriveAesKey privateKey ephemeralPub) iv ciphertext =
    .ok (PathBuf.ofString token)

/-- The payload that seals a token. -/
def SealedToken.payload {crypto : ViewerCrypto PrivateKey PublicKey AesKey}
    {privateKey : PrivateKey} {token : String} (t : SealedToken crypto privateKey token) :
    JwtPayload where
  encryptedToken := .ofList (Base64.encode t.ciphertext)
  iv := .ofList (Base64.encode t.iv)
  ephemeralPublicKey := .ofList (Base64.encode t.spki)

/-- The text of some bytes is not empty. -/
theorem ofList_encode_ne_empty {data : List UInt8} (h : data ≠ []) :
    String.ofList (Base64.encode data) ≠ "" := by
  intro heq
  have hnil : Base64.encode data = [] := by
    have hlist := congrArg String.toList heq
    rwa [String.toList_ofList] at hlist
  have hround := Base64.decode_encode data
  rw [hnil] at hround
  exact h (Option.some.inj hround).symm

/-- What the viewer reads from an envelope, whatever the token is. -/
theorem decryptToken_text {crypto : ViewerCrypto PrivateKey PublicKey AesKey}
    {privateKey : PrivateKey} {token : String} (t : SealedToken crypto privateKey token)
    (envelope : Envelope) (hjson : crypto.parsePayload envelope.json = .ok t.payload) :
    crypto.decryptToken privateKey envelope.text = .ok (textDecode (PathBuf.ofString token)) := by
  have hfields : ¬(t.payload.encryptedToken = "" ∨ t.payload.iv = "" ∨
      t.payload.ephemeralPublicKey = "") := by
    rintro (h | h | h)
    · exact ofList_encode_ne_empty t.ciphertext_ne_nil h
    · exact ofList_encode_ne_empty t.iv_ne_nil h
    · exact ofList_encode_ne_empty t.spki_ne_nil h
  rw [ViewerCrypto.decryptToken, Envelope.text, String.toList_ofList, base64ToArrayBuffer_encode]
  simp only [bind, Except.bind]
  rw [textDecode_ofString envelope.unmarked_jwt, envelope.parseUnsignedJwtPayload_jwt, hjson]
  dsimp only
  rw [if_neg hfields]
  simp only [SealedToken.payload, String.toList_ofList, base64ToArrayBuffer_encode, t.importSpki,
    t.decrypt]
  rfl

/-- **Round trip.** The viewer whose key a token was sealed for reads that token from the
envelope, unless the token begins with a byte order mark: that one is always lost. -/
theorem decryptToken_text_iff {crypto : ViewerCrypto PrivateKey PublicKey AesKey}
    {privateKey : PrivateKey} {token : String} (t : SealedToken crypto privateKey token)
    (envelope : Envelope) (hjson : crypto.parsePayload envelope.json = .ok t.payload) :
    crypto.decryptToken privateKey envelope.text = .ok token ↔ Unmarked token := by
  rw [decryptToken_text t envelope hjson]
  constructor
  · intro hok
    by_contra hmarked
    exact textDecode_ofString_of_marked hmarked (Except.ok.inj hok)
  · intro hunmarked
    rw [textDecode_ofString hunmarked]

/-! ### One token -/

namespace SampleToken

/-- The payload of the sample, as it is written. -/
def json : String :=
  "\x7b\"encryptedToken\":\"dmBmd2Bx\",\"iv\":\"AQID\",\"ephemeralPublicKey\":\"MAc=\"\x7d"

/-- A parser that knows this payload. -/
def parsePayload (text : String) : Except Thrown JwtPayload :=
  if text = json then .ok ⟨"dmBmd2Bx", "AQID", "MAc="⟩
  else .error ⟨"SyntaxError", "Unexpected token"⟩

/-- A browser whose keys are single bytes; both sides derive the exclusive or of theirs. -/
def crypto : ViewerCrypto UInt8 UInt8 UInt8 where
  invalidCharacter := ⟨"InvalidCharacterError", "The string is not correctly encoded."⟩
  parsePayload := parsePayload
  importSpki
    | [0x30, key] => .ok key
    | _ => .error ⟨"DataError", ""⟩
  deriveAesKey privateKey publicKey := privateKey ^^^ publicKey
  decrypt key iv ciphertext :=
    if iv.length = 3 then .ok (ciphertext.map (· ^^^ key))
    else .error ⟨"OperationError", ""⟩

/-- The token of the sample, encrypted. -/
def ciphertext : List UInt8 := [118, 96, 102, 119, 96, 113]

/-- It is decrypted to the token. -/
theorem decrypt_ciphertext : crypto.decrypt (crypto.deriveAesKey 2 7) [1, 2, 3] ciphertext =
    .ok (PathBuf.ofString "secret") := by
  decide +kernel

/-- It is not empty. -/
theorem ciphertext_ne_nil : ciphertext ≠ [] := List.cons_ne_nil _ _

/-- Nor is its nonce. -/
theorem iv_ne_nil : ([1, 2, 3] : List UInt8) ≠ [] := List.cons_ne_nil _ _

/-- Nor is its key. -/
theorem spki_ne_nil : ([0x30, 7] : List UInt8) ≠ [] := List.cons_ne_nil _ _

/-- The key of the sample is read. -/
theorem importSpki_spki : crypto.importSpki [0x30, 7] = .ok 7 := rfl

/-- The sealed token of the sample. -/
def sealed : SealedToken crypto 2 "secret" where
  ciphertext := ciphertext
  iv := [1, 2, 3]
  spki := [0x30, 7]
  ephemeralPub := 7
  ciphertext_ne_nil := ciphertext_ne_nil
  iv_ne_nil := iv_ne_nil
  spki_ne_nil := spki_ne_nil
  importSpki := importSpki_spki
  decrypt := decrypt_ciphertext

/-- The header of a token without a signature. -/
def header : List Char := "eyJhbGciOiJub25lIn0".toList

/-- It has no dot and no mark. -/
theorem header_plain : '.' ∉ header ∧ header.head? ≠ some '\uFEFF' := by decide

/-- Nor has what follows the payload. -/
theorem rest_plain : ∀ part ∈ ([[]] : List (List Char)), '.' ∉ part := by decide

/-- The payload does not start with a mark. -/
theorem json_unmarked : Unmarked json := by decide

/-- The envelope of the sample. -/
def envelope : Envelope where
  header := header
  json := json
  rest := [[]]
  header_plain := header_plain.1
  rest_plain := rest_plain
  header_unmarked := header_plain.2
  json_unmarked := json_unmarked

/-- The fields of its payload. -/
theorem payload_sealed : sealed.payload = ⟨"dmBmd2Bx", "AQID", "MAc="⟩ := by decide +kernel

/-- Its payload is parsed. -/
theorem parsePayload_json : parsePayload json = .ok sealed.payload := by
  rw [parsePayload, if_pos rfl, payload_sealed]

end SampleToken

/-- The sample is decrypted. -/
theorem decryptToken_text_iff_secret :
    SampleToken.crypto.decryptToken 2 SampleToken.envelope.text = .ok "secret" :=
  (decryptToken_text_iff SampleToken.sealed SampleToken.envelope
    SampleToken.parsePayload_json).mpr (by decide)

end RdWeb.Web
