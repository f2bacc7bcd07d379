import Lifecycle.ControlModel
import Lifecycle.ParsedJson
import Mathlib.Data.List.GetD

/-!
# The frames of the authorization channel

What crosses the private socket of one invocation
(`invocation-private-authorization-channel-v1.ts`): the challenge that names
the invocation, the request frame with the challenge and the authority
secret, and the response frame with the result of the handler, a refusal or
the note that the result is unavailable.

A decoded refusal counts only where this side decoded it itself: the source
remembers the errors it made in two sets, here marks on the error. Where the
transport cuts a response short, what arrives is no response
(`eq_of_prefix_responseFrame`), and what is decoded is what was sent
(`HandoffResponse.of_decoded`).
-/

open Fallible Json StrictJson

namespace Authorization

/-! ## Errors -/

/-- **An error of the channel**, with its membership in `noHandlerRefusals`
and `unavailableObservations`. -/
structure ChannelError where
  error : FoundationError
  retryable : Bool := false
  observedInvocation : Option String := none
  noHandlerRefusal : Bool := false
  unavailableObservation : Bool := false
deriving DecidableEq

/-- `fail`. -/
def channelError (code message : String) (retryable : Bool := false) : ChannelError :=
  { error := lifecycleError code message, retryable := retryable }

def observationUnavailable (invocationId : String) : ChannelError :=
  { error := lifecycleError "runtime.authorization-result-unavailable"
      ("Authorization may have been submitted, but its result could not be observed. Return to "
        ++ "the originating view and refresh the Delivery before choosing another action.")
    observedInvocation := some invocationId
    unavailableObservation := true }

def challengeInvalid : ChannelError :=
  channelError "runtime.authorization-challenge-invalid"
    "Invocation-private authorization requires one exact challenge"

def responseInvalid : ChannelError :=
  channelError "runtime.authorization-channel-response"
    "The authorization invocation returned an invalid response" true

/-- The error of a refusal this side has decoded. -/
def handlerNotStarted : ChannelError :=
  { error := lifecycleError "runtime.authorization-refused"
      "The selected invocation refused this authorization challenge before starting its handler"
    noHandlerRefusal := true }

/-! ## Bounds -/

def challengeMaximumBytes : Nat := 96
def secretMinimumBytes : Nat := 32
def secretMaximumBytes : Nat := 4096
def requestHeaderBytes : Nat := 8
def responseHeaderBytes : Nat := 8
def responseMaximumBytes : Nat := 4096
def requestMaximumBytes : Nat := requestHeaderBytes + challengeMaximumBytes + secretMaximumBytes

/-- `LCW1`. -/
def requestMagic : List UInt8 := [76, 67, 87, 49]

/-- `LCWR`. -/
def responseMagic : List UInt8 := [76, 67, 87, 82]

/-! ## Challenges -/

/-- A text character by character within some classes. -/
def matchesClasses (classes : List (Char → Bool)) (cs : List Char) : Bool :=
  decide (classes.length = cs.length) && (List.zipWith (fun k c => k c) classes cs).all id

/-- The classes of a fixed text. -/
def exactly (text : String) : List (Char → Bool) := text.toList.map fun c d => decide (d = c)

/-- `[a-f0-9]`. -/
def lowerHex (c : Char) : Bool := isDigit c || (97 ≤ c.toNat && c.toNat ≤ 102)

/-- `[A-Za-z0-9_-]`. -/
def base64Url (c : Char) : Bool :=
  isDigit c || (97 ≤ c.toNat && c.toNat ≤ 122) || (65 ≤ c.toNat && c.toNat ≤ 90)
    || c = '_' || c = '-'

/-- `[\x20-\x7e]`. -/
def printable (c : Char) : Bool := 32 ≤ c.toNat && c.toNat ≤ 126

/-- `UUID_PATTERN`. -/
def uuidClasses : List (Char → Bool) :=
  List.replicate 8 lowerHex ++ exactly "-" ++ List.replicate 4 lowerHex ++ exactly "-"
    ++ List.replicate 4 lowerHex ++ exactly "-" ++ List.replicate 4 lowerHex ++ exactly "-"
    ++ List.replicate 12 lowerHex

/-- `CHALLENGE_PATTERN`. -/
def challengeClasses : List (Char → Bool) :=
  exactly "lcw1." ++ uuidClasses ++ exactly "." ++ List.replicate 43 base64Url

def isUuid (value : String) : Bool := matchesClasses uuidClasses value.toList

def exactInvocationId (value : String) : Except ChannelError String := do
  failIf (isUuid value = false) challengeInvalid
  return value

/-- **A challenge** and the invocation it names. -/
structure Challenge where
  token : String
  invocationId : String
deriving DecidableEq

def parseInvocationPrivateAuthorizationChallenge (value : String) : Option Challenge :=
  let cs := value.toList
  if challengeMaximumBytes < codeUnits cs ∨ cs = [] ∨ cs.all printable = false then none
  else if matchesClasses challengeClasses cs then
    some ⟨value, String.ofList ((cs.drop 5).take 36)⟩
  else none

/-! ## Requests -/

/-- `new TextDecoder("utf-8", { fatal: true }).decode`, which drops a byte
order mark. -/
def decodeText (bytes : List UInt8) : Option String :=
  decodeUtf8 (if bytes.take 3 = [239, 187, 191] then bytes.drop 3 else bytes)

def exactSecretBytes (value : List UInt8) : Except ChannelError (List UInt8) := do
  failIf (value.length < secretMinimumBytes ∨ secretMaximumBytes < value.length)
    (channelError "cli.authority-secret-file"
      "--authority-secret-file must contain 32 through 4096 UTF-8 secret bytes")
  let decoded ← orFail (decodeText value) (channelError "cli.authority-secret-file"
    "--authority-secret-file must contain valid UTF-8 secret bytes")
  failIf (Char.ofNat 0 ∈ decoded.toList) (channelError "cli.authority-secret-file"
    "--authority-secret-file must not contain NUL bytes")
  return value

/-- The bytes of an ASCII text. -/
def asciiBytes (text : String) : List UInt8 := text.toList.map fun c => UInt8.ofNat c.toNat

/-- The ASCII text of some bytes. -/
def asciiText (bytes : List UInt8) : String :=
  String.ofList (bytes.map fun b => Char.ofNat b.toNat)

def writeUInt16BE (n : Nat) : List UInt8 := [UInt8.ofNat (n / 256), UInt8.ofNat n]

def readUInt16BE (frame : List UInt8) (offset : Nat) : Nat :=
  256 * (frame.getD offset 0).toNat + (frame.getD (offset + 1) 0).toNat

/-- The frame of a token and a secret. -/
def requestFrame (token secret : List UInt8) : List UInt8 :=
  requestMagic ++ writeUInt16BE token.length ++ writeUInt16BE secret.length ++ token ++ secret

def encodeRequest (challenge : String) (authoritySecret : List UInt8) :
    Except ChannelError (List UInt8) := do
  let parsed ← orFail (parseInvocationPrivateAuthorizationChallenge challenge) challengeInvalid
  let secret ← exactSecretBytes authoritySecret
  return requestFrame (asciiBytes parsed.token) secret

/-- What a credential may be used for. -/
inductive AuthorityCredentialPurpose
  | initialization
  | directorDecision
deriving DecidableEq

/-- **A credential**: what the registry of credentials keeps of it. -/
structure AuthorityCredential where
  secret : String
  purpose : AuthorityCredentialPurpose
deriving DecidableEq

def validateAuthoritySecret (value : String) : Except FoundationError String := do
  failIf (byteLength value < 32 ∨ 4096 < byteLength value ∨ Char.ofNat 0 ∈ value.toList)
    (lifecycleError "lifecycle.authority.secret"
      "Authority operation requires 32 to 4096 secret bytes from an owner-private carrier")
  return value

def receiveAuthorityCredential (authoritySecret : String)
    (purpose : AuthorityCredentialPurpose) : Except FoundationError AuthorityCredential := do
  let secret ← validateAuthoritySecret authoritySecret
  return ⟨secret, purpose⟩

/-- **What the handler is given.** -/
structure ChannelRequest where
  challenge : String
  authorityCredential : AuthorityCredential
deriving DecidableEq

/-- The lengths a request header may give. -/
def lengthsRefused (tokenLength secretLength : Nat) : Prop :=
  tokenLength = 0 ∨ challengeMaximumBytes < tokenLength ∨ secretLength < secretMinimumBytes
    ∨ secretMaximumBytes < secretLength

instance {t s : Nat} : Decidable (lengthsRefused t s) :=
  inferInstanceAs (Decidable (_ ∨ _ ∨ _ ∨ _))

/-- **`decodeRequest`**: nothing where the frame is refused; an error is one
the source throws. -/
def decodeRequest (frame : List UInt8) (invocationId : String) :
    Except FoundationError (Option ChannelRequest) :=
  if frame.length < requestHeaderBytes ∨ frame.take 4 ≠ requestMagic then .ok none
  else
    let tokenLength := readUInt16BE frame 4
    let secretLength := readUInt16BE frame 6
    if lengthsRefused tokenLength secretLength
        ∨ frame.length ≠ requestHeaderBytes + tokenLength + secretLength then .ok none
    else
      let tokenBytes := (frame.drop requestHeaderBytes).take tokenLength
      if tokenBytes.any (fun b => b.toNat < 32 || 126 < b.toNat) then .ok none
      else
        let challenge := asciiText tokenBytes
        if (parseInvocationPrivateAuthorizationChallenge challenge).map (·.invocationId)
            ≠ some invocationId then .ok none
        else
          match decodeText (frame.drop (requestHeaderBytes + tokenLength)) with
          | none => .ok none
          | some authoritySecret =>
            if Char.ofNat 0 ∈ authoritySecret.toList then .ok none
            else
              (receiveAuthorityCredential authoritySecret .directorDecision).map fun credential =>
                some ⟨challenge, credential⟩

/-! ## Results -/

inductive HandoffOperation
  | admission
  | accept
  | noShip
deriving DecidableEq

def HandoffOperation.text : HandoffOperation → String
  | admission => "delivery.admit"
  | accept => "delivery.accept"
  | noShip => "delivery.no-ship"

def HandoffOperation.ofText (s : String) : Option HandoffOperation :=
  [admission, accept, noShip].find? fun operation => decide (s = operation.text)

inductive HandoffStatus
  | completed
  | refused
  | recoveryRequired
deriving DecidableEq

def HandoffStatus.text : HandoffStatus → String
  | completed => "completed"
  | refused => "refused"
  | recoveryRequired => "recovery-required"

def HandoffStatus.ofText (s : String) : Option HandoffStatus :=
  [completed, refused, recoveryRequired].find? fun status => decide (s = status.text)

/-- **The result of a handler.** Its kind is fixed. -/
structure HandoffResult where
  invocationId : String
  operation : HandoffOperation
  deliveryId : String
  status : HandoffStatus
  resultDigest : Sha256Digest
deriving DecidableEq

def resultKind : String := "invocation-private-authorization-result"
def refusalKind : String := "invocation-private-authorization-refusal"
def unavailableKind : String := "invocation-private-authorization-observation-unavailable"

/-- Texts joined with NUL. -/
def nulJoined (names : List String) : String :=
  (String.singleton (Char.ofNat 0)).intercalate names

/-- The members of an object are the expected ones, as the source compares
them. -/
def hasExactNames (o : JsonObject) (names : List String) : Bool :=
  nulJoined (sortKeys (keys o)) = nulJoined (sortKeys names)

/-- **`retainResult`**: the result a value is, when it is one. -/
def retainResult (value : Json) : Option HandoffResult := do
  let o ← asObject (some value)
  if hasExactNames o ["deliveryId", "invocationId", "kind", "operation", "resultDigest", "status"]
      = false then none
  else
    let kind ← asString (member "kind" o)
    let invocationId ← asString (member "invocationId" o)
    let deliveryId ← asString (member "deliveryId" o)
    let operation ← (asString (member "operation" o)).bind HandoffOperation.ofText
    let status ← (asString (member "status" o)).bind HandoffStatus.ofText
    let resultDigest ← asString (member "resultDigest" o)
    if kind = resultKind ∧ isUuid invocationId = true ∧ codeUnits deliveryId.toList ≤ 512
        ∧ ControlModel.matchesIdPattern deliveryId = true ∧ isSha256 resultDigest = true then
      some ⟨invocationId, operation, deliveryId, status, resultDigest⟩
    else none

def createAuthorizationHandoffResult (value : Json) : Except ChannelError HandoffResult :=
  orFail (retainResult value) (channelError "runtime.authorization-channel-result"
    "Invocation-private authorization returned an invalid bounded result")

/-! ## Responses -/

inductive HandoffResponse
  | result (r : HandoffResult)
  | refusal (invocationId : String)
  | unavailable (invocationId : String)
deriving DecidableEq

namespace HandoffResponse

def invocationId : HandoffResponse → String
  | result r => r.invocationId
  | refusal invocationId => invocationId
  | unavailable invocationId => invocationId

/-- The members of a response, in the order they are written. -/
def members : HandoffResponse → List (String × String)
  | result r => [("kind", resultKind), ("invocationId", r.invocationId),
      ("operation", r.operation.text), ("deliveryId", r.deliveryId), ("status", r.status.text),
      ("resultDigest", r.resultDigest)]
  | refusal invocationId => [("kind", refusalKind), ("invocationId", invocationId),
      ("code", "authorization-refused")]
  | unavailable invocationId => [("kind", unavailableKind), ("invocationId", invocationId),
      ("code", "authorization-result-unavailable")]

/-- The payload of a response. -/
def payload (v : HandoffResponse) : List UInt8 := utf8 (stringifyTexts v.members)

/-- The response that is sent: one beyond the bound is not. -/
def bounded (v : HandoffResponse) : HandoffResponse :=
  if responseMaximumBytes < v.payload.length then unavailable v.invocationId else v

end HandoffResponse

open HandoffResponse

def writeUInt32BE (n : Nat) : List UInt8 :=
  [UInt8.ofNat (n / 16777216), UInt8.ofNat (n / 65536), UInt8.ofNat (n / 256), UInt8.ofNat n]

def readUInt32BE (frame : List UInt8) (offset : Nat) : Nat :=
  16777216 * (frame.getD offset 0).toNat + 65536 * (frame.getD (offset + 1) 0).toNat
    + 256 * (frame.getD (offset + 2) 0).toNat + (frame.getD (offset + 3) 0).toNat

/-- The frame of a payload. -/
def responseFrame (payload : List UInt8) : List UInt8 :=
  responseMagic ++ writeUInt32BE payload.length ++ payload

/-- `encodeResponse`. The note that a result is unavailable is within the
bound, so the source encodes at most twice. -/
def encodeResponse (v : HandoffResponse) : List UInt8 := responseFrame v.bounded.payload

/-- A refusal or an unavailability, by its kind and code. -/
def isNotice (o : JsonObject) (kind invocationId code : String) : Bool :=
  hasExactNames o ["code", "invocationId", "kind"]
    && strictEq (member "kind" o) (some (.string kind))
    && strictEq (member "invocationId" o) (some (.string invocationId))
    && strictEq (member "code" o) (some (.string code))

/-- What a decoded response tells, for one invocation. -/
def readResponse (decoded : Json) (invocationId : String) : Except ChannelError HandoffResult :=
  match (retainResult decoded).filter fun r => decide (r.invocationId = invocationId) with
  | some r => .ok r
  | none =>
    match asObject (some decoded) with
    | none => .error responseInvalid
    | some o =>
      if isNotice o refusalKind invocationId "authorization-refused" = true then
        .error handlerNotStarted
      else if isNotice o unavailableKind invocationId "authorization-result-unavailable" = true then
        .error (observationUnavailable invocationId)
      else .error responseInvalid

/-- **`decodeResponse`.** -/
def decodeResponse (number : String → JsNumber) (frame : List UInt8) (invocationId : String) :
    Except ChannelError HandoffResult := do
  failIf (frame.length < responseHeaderBytes ∨ frame.take 4 ≠ responseMagic) responseInvalid
  let payloadLength := readUInt32BE frame 4
  failIf (payloadLength = 0 ∨ responseMaximumBytes < payloadLength
    ∨ frame.length ≠ responseHeaderBytes + payloadLength) responseInvalid
  let decoded ← orFail ((decodeText (frame.drop 8)).bind (parseJson number)) responseInvalid
  readResponse decoded invocationId

/-! ## What a request frame carries -/

/-- **A well-formed frame for an invocation**: a token that is one of the
invocation's challenges, and the bytes of the secret. -/
structure Carries (invocationId : String) (frame : List UInt8) (r : ChannelRequest) : Prop where
  framed : ∃ token secret, frame = requestFrame token secret
    ∧ ¬ lengthsRefused token.length secret.length ∧ (∀ b ∈ token, 32 ≤ b.toNat ∧ b.toNat ≤ 126)
    ∧ r.challenge = asciiText token ∧ decodeText secret = some r.authorityCredential.secret
  challenge : ∃ c, parseInvocationPrivateAuthorizationChallenge r.challenge = some c
    ∧ c.invocationId = invocationId
  secret : validateAuthoritySecret r.authorityCredential.secret = .ok r.authorityCredential.secret
  purpose : r.authorityCredential.purpose = .directorDecision

/-- A number of two bytes is written back. -/
theorem writeUInt16BE_of_bytes (a b : UInt8) :
    writeUInt16BE (256 * a.toNat + b.toNat) = [a, b] := by
  have ha := a.toNat_lt
  have hb := b.toNat_lt
  have hhigh : (256 * a.toNat + b.toNat) / 256 = a.toNat := by omega
  have hlow : UInt8.ofNat (256 * a.toNat + b.toNat) = b := by
    apply UInt8.toNat_inj.mp
    rw [UInt8.toNat_ofNat']
    omega
  rw [writeUInt16BE, hhigh, hlow, UInt8.ofNat_toNat]

/-- The front of a frame with a header. -/
theorem exists_header {magic frame : List UInt8} (hmagic : frame.take 4 = magic)
    (hlength : 8 ≤ frame.length) : ∃ a b c d, frame = magic ++ [a, b, c, d] ++ frame.drop 8 := by
  have hfour : ((frame.drop 4).take 4).length = 4 := by
    rw [List.length_take, List.length_drop]
    omega
  obtain ⟨a, b, c, d, hheader⟩ := List.length_eq_four.mp hfour
  refine ⟨a, b, c, d, ?_⟩
  rw [← hmagic, ← hheader, List.append_assoc, show frame.drop 8 = (frame.drop 4).drop 4 by
    rw [List.drop_drop], List.take_append_drop, List.take_append_drop]

/-- **A frame is what its header says**, when its length is. -/
theorem eq_requestFrame {frame : List UInt8} (hmagic : frame.take 4 = requestMagic)
    (hlength : frame.length
      = requestHeaderBytes + readUInt16BE frame 4 + readUInt16BE frame 6) :
    frame = requestFrame ((frame.drop requestHeaderBytes).take (readUInt16BE frame 4))
        (frame.drop (requestHeaderBytes + readUInt16BE frame 4))
      ∧ ((frame.drop requestHeaderBytes).take (readUInt16BE frame 4)).length = readUInt16BE frame 4
      ∧ (frame.drop (requestHeaderBytes + readUInt16BE frame 4)).length = readUInt16BE frame 6 := by
  have hlong : 8 ≤ frame.length := by
    rw [hlength]
    show 8 ≤ 8 + _ + _
    omega
  have htoken : ((frame.drop requestHeaderBytes).take (readUInt16BE frame 4)).length
      = readUInt16BE frame 4 := by
    rw [List.length_take, List.length_drop]
    omega
  have hsecret : (frame.drop (requestHeaderBytes + readUInt16BE frame 4)).length
      = readUInt16BE frame 6 := by
    rw [List.length_drop]
    omega
  refine ⟨?_, htoken, hsecret⟩
  obtain ⟨a, b, c, d, hframe⟩ := exists_header hmagic hlong
  have hfirst : readUInt16BE frame 4 = 256 * a.toNat + b.toNat := by
    rw [hframe]
    rfl
  have hsecond : readUInt16BE frame 6 = 256 * c.toNat + d.toNat := by
    rw [hframe]
    rfl
  have hbody : (frame.drop requestHeaderBytes).take (readUInt16BE frame 4)
      ++ frame.drop (requestHeaderBytes + readUInt16BE frame 4) = frame.drop 8 := by
    rw [← List.drop_drop]
    exact List.take_append_drop _ _
  rw [requestFrame, htoken, hsecret, List.append_assoc, hbody, hfirst, hsecond,
    writeUInt16BE_of_bytes, writeUInt16BE_of_bytes, List.append_assoc requestMagic]
  exact hframe

/-- **What decoding a request tests**: the frame is refused, or it is one of a
printable token that names the invocation and of a secret without NUL. -/
theorem decodeRequest_cases (frame : List UInt8) (invocationId : String) :
    decodeRequest frame invocationId = .ok none
      ∨ ∃ token secret c authoritySecret, frame = requestFrame token secret
        ∧ ¬ lengthsRefused token.length secret.length
        ∧ (∀ b ∈ token, 32 ≤ b.toNat ∧ b.toNat ≤ 126)
        ∧ parseInvocationPrivateAuthorizationChallenge (asciiText token) = some c
        ∧ c.invocationId = invocationId ∧ decodeText secret = some authoritySecret
        ∧ Char.ofNat 0 ∉ authoritySecret.toList
        ∧ decodeRequest frame invocationId
          = (receiveAuthorityCredential authoritySecret .directorDecision).map fun credential =>
              some ⟨asciiText token, credential⟩ := by
  unfold decodeRequest
  split
  · exact .inl rfl
  rename_i hheader
  simp only
  split
  · exact .inl rfl
  rename_i hlengths
  split
  · exact .inl rfl
  rename_i hprintable
  split
  · exact .inl rfl
  rename_i hchallenge
  split
  · exact .inl rfl
  rename_i authoritySecret hsecret
  split
  · exact .inl rfl
  rename_i hnul
  obtain ⟨-, hmagic⟩ := not_or.mp hheader
  obtain ⟨hlengths, hlength⟩ := not_or.mp hlengths
  obtain ⟨hframe, htoken, hbehind⟩ := eq_requestFrame (not_not.mp hmagic) (not_not.mp hlength)
  obtain ⟨c, hc, hid⟩ := Option.map_eq_some_iff.mp (not_not.mp hchallenge)
  refine .inr ⟨_, _, c, authoritySecret, hframe, ?_, fun b hb => ?_, hc, hid, hsecret, hnul, rfl⟩
  · rw [htoken, hbehind]
    exact hlengths
  · have hplain : ¬ ((b.toNat < 32 || 126 < b.toNat) = true) := fun hc =>
      hprintable (List.any_eq_true.mpr ⟨b, hb, hc⟩)
    rw [Bool.or_eq_true, decide_eq_true_eq, decide_eq_true_eq] at hplain
    omega

/-- A credential keeps the secret it was made of. -/
theorem receiveAuthorityCredential_eq_ok {authoritySecret : String}
    {purpose : AuthorityCredentialPurpose} {credential : AuthorityCredential} :
    receiveAuthorityCredential authoritySecret purpose = .ok credential
      ↔ validateAuthoritySecret authoritySecret = .ok authoritySecret
        ∧ credential = ⟨authoritySecret, purpose⟩ := by
  have hvalid : ∀ value, validateAuthoritySecret authoritySecret = .ok value →
      value = authoritySecret := by
    intro value hvalue
    simp only [validateAuthoritySecret, bind_eq_ok, failIf_eq_ok, exists_unit, pure_eq_ok] at hvalue
    exact hvalue.2.symm
  simp only [receiveAuthorityCredential, bind_eq_ok, pure_eq_ok]
  constructor
  · rintro ⟨value, hvalue, rfl⟩
    obtain rfl := hvalid value hvalue
    exact ⟨hvalue, rfl⟩
  · rintro ⟨hvalue, rfl⟩
    exact ⟨authoritySecret, hvalue, rfl⟩

/-- **What is decoded was carried.** -/
theorem carries_of_decodeRequest {frame : List UInt8} {invocationId : String} {r : ChannelRequest}
    (h : decodeRequest frame invocationId = .ok (some r)) : Carries invocationId frame r := by
  obtain hnone | ⟨token, secret, c, authoritySecret, hframe, hlengths, hprintable, hc, hid, htext,
    -, hequal⟩ := decodeRequest_cases frame invocationId
  · rw [hnone] at h
    cases h
  rw [hequal] at h
  cases hcredential : receiveAuthorityCredential authoritySecret .directorDecision with
  | error e =>
    rw [hcredential] at h
    cases h
  | ok credential =>
    rw [hcredential] at h
    obtain rfl := Option.some.inj (Except.ok.inj h)
    obtain ⟨hvalid, rfl⟩ := receiveAuthorityCredential_eq_ok.mp hcredential
    exact ⟨⟨token, secret, hframe, hlengths, hprintable, rfl, htext⟩, ⟨c, hc, hid⟩, hvalid, rfl⟩

/-! ## What a response frame carries -/

/-- A number of four bytes is read back. -/
theorem readUInt32BE_responseFrame {payload : List UInt8} (h : payload.length < 4294967296) :
    readUInt32BE (responseFrame payload) 4 = payload.length := by
  show 16777216 * (UInt8.ofNat (payload.length / 16777216)).toNat
    + 65536 * (UInt8.ofNat (payload.length / 65536)).toNat
    + 256 * (UInt8.ofNat (payload.length / 256)).toNat + (UInt8.ofNat payload.length).toNat = _
  simp only [UInt8.toNat_ofNat']
  omega

theorem length_responseFrame (payload : List UInt8) :
    (responseFrame payload).length = responseHeaderBytes + payload.length := by
  rw [responseFrame, List.length_append]
  rfl

/-- **A frame cut short is no frame**: what begins a frame and has the length
of its own header is the whole frame. -/
theorem eq_of_prefix_responseFrame {frame payload : List UInt8} (hpayload : payload.length ≤ 4096)
    (h : frame <+: responseFrame payload) (hheader : responseHeaderBytes ≤ frame.length)
    (hlength : frame.length = responseHeaderBytes + readUInt32BE frame 4) :
    frame = responseFrame payload := by
  refine h.eq_of_length ?_
  obtain ⟨rest, hrest⟩ := h
  have hsame : readUInt32BE frame 4 = readUInt32BE (responseFrame payload) 4 := by
    have hget (i : Nat) (hi : i < 8) : frame.getD i 0 = (responseFrame payload).getD i 0 := by
      rw [← hrest, List.getD_append _ _ _ _ (by
        show i < frame.length
        have : responseHeaderBytes = 8 := rfl
        omega)]
    unfold readUInt32BE
    rw [hget 4 (by omega), hget (4 + 1) (by omega), hget (4 + 2) (by omega),
      hget (4 + 3) (by omega)]
  rw [hlength, hsame, readUInt32BE_responseFrame (by omega), length_responseFrame]

variable {number : String → JsNumber} {invocationId : String}

/-- **What decoding a response tests**, before it reads the payload. -/
theorem decodeResponse_cases (number : String → JsNumber) (frame : List UInt8)
    (invocationId : String) :
    decodeResponse number frame invocationId = .error responseInvalid
      ∨ ∃ decoded, responseHeaderBytes ≤ frame.length
        ∧ frame.length = responseHeaderBytes + readUInt32BE frame 4
        ∧ (decodeText (frame.drop 8)).bind (parseJson number) = some decoded
        ∧ decodeResponse number frame invocationId = readResponse decoded invocationId := by
  unfold decodeResponse
  simp only
  by_cases hheader : frame.length < responseHeaderBytes ∨ frame.take 4 ≠ responseMagic
  · exact .inl (by rw [failIf_pos hheader, error_bind])
  rw [failIf_neg hheader, ok_bind]
  by_cases hlength : readUInt32BE frame 4 = 0 ∨ responseMaximumBytes < readUInt32BE frame 4
    ∨ frame.length ≠ responseHeaderBytes + readUInt32BE frame 4
  · exact .inl (by rw [failIf_pos hlength, error_bind])
  rw [failIf_neg hlength, ok_bind]
  cases hdecoded : (decodeText (frame.drop 8)).bind (parseJson number) with
  | none => exact .inl rfl
  | some decoded =>
    obtain ⟨hlong, -⟩ := not_or.mp hheader
    obtain ⟨-, hlength⟩ := not_or.mp hlength
    obtain ⟨-, hlength⟩ := not_or.mp hlength
    exact .inr ⟨decoded, Nat.le_of_not_lt hlong, not_not.mp hlength, rfl, rfl⟩

/-- The errors a response may be read as. -/
theorem handlerNotStarted_of_marked {frame : List UInt8} {e : ChannelError}
    (h : decodeResponse number frame invocationId = .error e) (hmark : e.noHandlerRefusal = true) :
    e = handlerNotStarted := by
  have hread (decoded : Json) (hdecoded : readResponse decoded invocationId = .error e) :
      e = handlerNotStarted := by
    unfold readResponse at hdecoded
    split at hdecoded
    · cases hdecoded
    · split at hdecoded
      · obtain rfl := Except.error.inj hdecoded
        cases hmark
      · split at hdecoded
        · exact (Except.error.inj hdecoded).symm
        · split at hdecoded
          · obtain rfl := Except.error.inj hdecoded
            cases hmark
          · obtain rfl := Except.error.inj hdecoded
            cases hmark
  obtain hinvalid | ⟨decoded, -, -, -, hequal⟩ := decodeResponse_cases number frame invocationId
  · rw [hinvalid] at h
    obtain rfl := Except.error.inj h
    cases hmark
  · exact hread decoded (hequal.symm.trans h)

/-! ### The token of a frame -/

/-- A challenge is as long as its pattern, and printable. -/
theorem printable_of_parse {value : String} {c : Challenge}
    (h : parseInvocationPrivateAuthorizationChallenge value = some c) :
    c.token = value ∧ value.toList.length = 85 ∧ ∀ d ∈ value.toList, printable d = true := by
  unfold parseInvocationPrivateAuthorizationChallenge at h
  simp only at h
  split at h
  · cases h
  · next hplain =>
    split at h
    · next hclasses =>
      obtain ⟨-, hplain⟩ := not_or.mp hplain
      obtain ⟨-, hplain⟩ := not_or.mp hplain
      rw [matchesClasses, Bool.and_eq_true, decide_eq_true_eq] at hclasses
      refine ⟨congrArg Challenge.token (Option.some.inj h).symm, hclasses.1.symm, ?_⟩
      exact List.all_eq_true.mp (Bool.not_eq_false _ ▸ hplain)
    · cases h

theorem asciiText_asciiBytes {value : String} (h : ∀ d ∈ value.toList, printable d = true) :
    asciiText (asciiBytes value) = value := by
  have hsame : (value.toList.map fun c => UInt8.ofNat c.toNat).map (fun b => Char.ofNat b.toNat)
      = value.toList := by
    rw [List.map_map]
    refine (List.map_congr_left fun c hc => ?_).trans (List.map_id _)
    have hc := h c hc
    simp only [printable, Bool.and_eq_true, decide_eq_true_eq] at hc
    show Char.ofNat (UInt8.ofNat c.toNat).toNat = c
    rw [UInt8.toNat_ofNat', Nat.mod_eq_of_lt (by omega), Char.ofNat_toNat]
  rw [asciiText, asciiBytes, hsame, String.ofList_toList]

theorem requestFrame_ne_nil {token secret : List UInt8} : requestFrame token secret ≠ [] :=
  List.cons_ne_nil _ _

/-- **A request frame is told from its beginning**: no frame begins another. -/
theorem requestFrame_inj {token secret token' secret' : List UInt8}
    (ht : token.length < 65536) (hs : secret.length < 65536) (ht' : token'.length < 65536)
    (hs' : secret'.length < 65536) (h : requestFrame token secret <+: requestFrame token' secret') :
    token = token' ∧ secret = secret' := by
  have hbyte {n m : Nat} (hn : n < 65536) (hm : m < 65536)
      (hwrite : writeUInt16BE n = writeUInt16BE m) : n = m := by
    obtain ⟨hhigh, hrest⟩ := List.cons.inj hwrite
    obtain ⟨hlow, -⟩ := List.cons.inj hrest
    have hhigh := congrArg UInt8.toNat hhigh
    have hlow := congrArg UInt8.toNat hlow
    rw [UInt8.toNat_ofNat', UInt8.toNat_ofNat'] at hhigh hlow
    omega
  obtain ⟨rest, hrest⟩ := h
  rw [requestFrame, requestFrame, List.append_assoc, List.append_assoc, List.append_assoc,
    List.append_assoc, List.append_assoc, List.append_assoc, List.append_assoc] at hrest
  obtain ⟨-, hrest⟩ := List.append_inj hrest rfl
  obtain ⟨htoken, hrest⟩ := List.append_inj hrest rfl
  obtain ⟨hsecret, hrest⟩ := List.append_inj hrest rfl
  obtain rfl : token = token' := List.append_inj_left hrest (hbyte ht ht' htoken)
  have hbehind : secret ++ rest = secret' ++ [] := by
    rw [List.append_nil]
    exact List.append_cancel_left hrest
  exact ⟨rfl, List.append_inj_left hbehind (hbyte hs hs' hsecret)⟩

/-- **What a request carries is the challenge it was encoded from.** -/
theorem Carries.challenge_eq {challenge : String} {secret frame sent : List UInt8}
    {r : ChannelRequest} (h : Carries invocationId frame r)
    (hsent : encodeRequest challenge secret = .ok sent) (hframe : frame <+: sent) :
    r.challenge = challenge := by
  obtain ⟨token, bytes, rfl, hlengths, -, htext, -⟩ := h.framed
  simp only [encodeRequest, bind_eq_ok, orFail_eq_ok, pure_eq_ok] at hsent
  obtain ⟨c, hc, secret', hsecret, rfl⟩ := hsent
  obtain ⟨htoken, hlength, hprintable⟩ := printable_of_parse hc
  have hsame : secret' = secret ∧ secret.length ≤ secretMaximumBytes := by
    simp only [exactSecretBytes, bind_eq_ok, orFail_eq_ok, failIf_eq_ok, exists_unit, pure_eq_ok]
      at hsecret
    exact ⟨hsecret.2.choose_spec.2.2.symm, Nat.le_of_not_lt (not_or.mp hsecret.1).2⟩
  obtain ⟨rfl, hlong⟩ := hsame
  unfold lengthsRefused at hlengths
  have hbounds : challengeMaximumBytes = 96 ∧ secretMaximumBytes = 4096 := ⟨rfl, rfl⟩
  have hascii : (asciiBytes c.token).length = 85 := by
    rw [asciiBytes, List.length_map, htoken, hlength]
  obtain ⟨rfl, -⟩ := requestFrame_inj (by omega) (by omega) (by omega) (by omega) hframe
  rw [htext, htoken, asciiText_asciiBytes hprintable]

namespace HandoffResponse

theorem nodup_names (v : HandoffResponse) : (v.members.map Prod.fst).Nodup := by
  cases v with
  | result r =>
    show ["kind", "invocationId", "operation", "deliveryId", "status", "resultDigest"].Nodup
    decide
  | refusal invocationId =>
    show ["kind", "invocationId", "code"].Nodup
    decide
  | unavailable invocationId =>
    show ["kind", "invocationId", "code"].Nodup
    decide

theorem members_ne_nil (v : HandoffResponse) : v.members ≠ [] := by
  cases v <;> exact List.cons_ne_nil _ _

/-- **A payload is read back.** -/
theorem parse_payload (v : HandoffResponse) :
    (decodeText v.payload).bind (parseJson number) = some (.object (recordOfTexts v.members)) := by
  have hmark : v.payload.take 3 ≠ [239, 187, 191] := by
    intro h
    have hhead : (v.payload.take 3).head? = some 239 := by rw [h]; rfl
    have hbrace : (v.payload.take 3).head? = some 123 := rfl
    rw [hbrace] at hhead
    exact absurd hhead (by decide)
  rw [decodeText, if_neg hmark, payload, decodeUtf8_utf8]
  exact parseJson_stringifyTexts v.members_ne_nil v.nodup_names

/-- **A response within the bound is read back.** -/
theorem decodeResponse_encodeResponse {v : HandoffResponse}
    (h : v.payload.length ≤ responseMaximumBytes) :
    decodeResponse number (encodeResponse v) invocationId
      = readResponse (.object (recordOfTexts v.members)) invocationId := by
  have hbounded : v.bounded = v := if_neg (Nat.not_lt.mpr h)
  have hmaximum : responseMaximumBytes = 4096 := rfl
  have hlength : readUInt32BE (responseFrame v.payload) 4 = v.payload.length :=
    readUInt32BE_responseFrame (by omega)
  have hnonempty : v.payload.length ≠ 0 := fun h0 => by
    have hbrace : v.payload.head? = some 123 := rfl
    rw [List.length_eq_zero_iff.mp h0] at hbrace
    cases hbrace
  have hframe := length_responseFrame v.payload
  have hheader : ¬ ((responseFrame v.payload).length < responseHeaderBytes
      ∨ (responseFrame v.payload).take 4 ≠ responseMagic) := by
    refine not_or.mpr ⟨by omega, not_not.mpr rfl⟩
  have hpayload : (responseFrame v.payload).drop 8 = v.payload := rfl
  rw [encodeResponse, hbounded]
  unfold decodeResponse
  simp only [hlength, hpayload]
  rw [failIf_neg hheader, ok_bind, failIf_neg (by omega), ok_bind, parse_payload]
  rfl

/-- A value that is no result of its own members is none. -/
theorem retainResult_members (r : HandoffResult) :
    ∀ s ∈ retainResult (.object (recordOfTexts (result r).members)), s = r := by
  intro s hs
  have hoperation : HandoffOperation.ofText r.operation.text = some r.operation := by
    cases r.operation <;> decide
  have hstatus : HandoffStatus.ofText r.status.text = some r.status := by
    cases r.status <;> decide
  have hmember (name text : String) (h : member name (recordOfTexts (result r).members)
      = some (.string text)) :
      asString (member name (recordOfTexts (result r).members)) = some text := by
    rw [h]
    rfl
  unfold retainResult at hs
  simp only [asObject, Option.bind_eq_bind, Option.bind_some] at hs
  split at hs
  · cases hs
  rw [hmember "kind" resultKind rfl, hmember "invocationId" r.invocationId rfl,
    hmember "deliveryId" r.deliveryId rfl, hmember "operation" r.operation.text rfl,
    hmember "status" r.status.text rfl, hmember "resultDigest" r.resultDigest rfl] at hs
  simp only [Option.bind_some, hoperation, hstatus] at hs
  split at hs
  · exact (Option.some.inj hs).symm
  · cases hs

/-- What names no Delivery is no result. -/
theorem retainResult_of_member {o : JsonObject} (h : member "deliveryId" o = none) :
    retainResult (.object o) = none := by
  have hmissing : asString (member "deliveryId" o) = none := by
    rw [h]
    rfl
  unfold retainResult
  simp only [asObject, Option.bind_eq_bind, Option.bind_some, hmissing, Option.bind_none]
  split
  · rfl
  · cases asString (member "kind" o) with
    | none => rfl
    | some kind => cases asString (member "invocationId" o) <;> rfl

/-- A notice is one of its own kind and invocation. -/
theorem isNotice_texts {o : JsonObject} {kind code : String}
    (h : isNotice o kind invocationId code = true) :
    member "kind" o = some (.string kind)
      ∧ member "invocationId" o = some (.string invocationId) := by
  simp only [isNotice, Bool.and_eq_true, strictEq_string] at h
  exact ⟨h.1.1.2, h.1.2⟩

/-- **What the members of a response tell is the response.** -/
theorem readResponse_members (v : HandoffResponse) :
    (∀ r, readResponse (.object (recordOfTexts v.members)) invocationId = .ok r →
        v = .result r ∧ r.invocationId = invocationId)
      ∧ ∀ e, readResponse (.object (recordOfTexts v.members)) invocationId = .error e →
        e.noHandlerRefusal = true → v = .refusal invocationId := by
  have hrefusal (h : isNotice (recordOfTexts v.members) refusalKind invocationId
      "authorization-refused" = true) : v = .refusal invocationId := by
    obtain ⟨hkind, hid⟩ := isNotice_texts h
    cases v with
    | result r => exact absurd (Json.string.inj (Option.some.inj hkind)) (by decide)
    | refusal id => exact congrArg refusal (Json.string.inj (Option.some.inj hid))
    | unavailable id => exact absurd (Json.string.inj (Option.some.inj hkind)) (by decide)
  unfold readResponse
  split
  · rename_i r hr
    obtain ⟨hretained, hid⟩ := Option.filter_eq_some_iff.mp hr
    refine ⟨fun s hs => ?_, fun e he => absurd he (by simp)⟩
    obtain rfl := Except.ok.inj hs
    cases v with
    | result r' => exact ⟨congrArg result (retainResult_members r' r hretained).symm,
        of_decide_eq_true hid⟩
    | refusal id =>
      rw [retainResult_of_member rfl] at hretained
      cases hretained
    | unavailable id =>
      rw [retainResult_of_member rfl] at hretained
      cases hretained
  · simp only [asObject]
    split
    · rename_i hnotice
      exact ⟨fun r hr => absurd hr (by simp), fun e _ _ => hrefusal hnotice⟩
    · split
      · refine ⟨fun r hr => absurd hr (by simp), fun e he hmark => ?_⟩
        obtain rfl := Except.error.inj he
        cases hmark
      · refine ⟨fun r hr => absurd hr (by simp), fun e he hmark => ?_⟩
        obtain rfl := Except.error.inj he
        cases hmark

/-! ### The bound of a notice -/

/-- A character `JSON.stringify` writes as one byte. -/
def Plainly (c : Char) : Prop := 32 ≤ c.toNat ∧ c.toNat < 127 ∧ c.toNat ≠ 34 ∧ c.toNat ≠ 92

theorem utf8_escapeChar_of_plainly {c : Char} (h : Plainly c) :
    (utf8 (escapeChar c)).length = 1 := by
  obtain ⟨hlow, hhigh, hquote, hslash⟩ := h
  have hself : escapeChar c = [c] := by
    unfold escapeChar
    split
    all_goals first | omega | skip
    exact if_neg (by omega)
  have hsize : c.val.toNat ≤ 127 := by
    show c.toNat ≤ 127
    omega
  rw [hself, utf8, List.flatMap_cons, List.flatMap_nil, List.append_nil, String.utf8EncodeChar]
  simp only [hsize, if_true]
  rfl

theorem length_utf8_stringified {cs : List Char} (h : ∀ c ∈ cs, Plainly c) :
    (utf8 (stringified (String.ofList cs))).length = cs.length + 2 := by
  have hbody : (utf8 (cs.flatMap escapeChar)).length = cs.length := by
    induction cs with
    | nil => rfl
    | cons c cs ih =>
      rw [List.flatMap_cons, utf8_append, List.length_append,
        utf8_escapeChar_of_plainly (h c List.mem_cons_self),
        ih fun d hd => h d (List.mem_cons_of_mem c hd), List.length_cons, Nat.add_comm]
  rw [stringified, String.toList_ofList, List.cons_append, utf8_cons, utf8_append,
    List.length_append, List.length_append, hbody]
  show 1 + (cs.length + 1) = _
  omega

/-- What every class of a pattern admits, a text within it consists of. -/
theorem forall_of_matchesClasses {P : Char → Prop} : ∀ {classes : List (Char → Bool)}
    {cs : List Char}, matchesClasses classes cs = true →
    (∀ k ∈ classes, ∀ c, k c = true → P c) → ∀ c ∈ cs, P c
  | [], [], _, _ => List.forall_mem_nil _
  | k :: classes, c :: cs, h, hP => by
    simp only [matchesClasses, List.length_cons, List.zipWith_cons_cons, List.all_cons,
      Bool.and_eq_true, decide_eq_true_eq, Nat.add_right_cancel_iff, id_eq] at h
    have hrest : matchesClasses classes cs = true := by
      rw [matchesClasses, Bool.and_eq_true, decide_eq_true_eq]
      exact ⟨h.1, h.2.2⟩
    refine List.forall_mem_cons.mpr ⟨hP k List.mem_cons_self c h.2.1,
      forall_of_matchesClasses hrest fun j hj => hP j (List.mem_cons_of_mem k hj)⟩
  | [], _ :: _, h, _ => by cases h
  | _ :: _, [], h, _ => by cases h

theorem plainly_of_isUuid {value : String} (h : isUuid value = true) :
    value.toList.length = 36 ∧ ∀ c ∈ value.toList, Plainly c := by
  have hlength : uuidClasses.length = value.toList.length := by
    rw [isUuid, matchesClasses, Bool.and_eq_true, decide_eq_true_eq] at h
    exact h.1
  refine ⟨hlength.symm, forall_of_matchesClasses h fun k hk c hc => ?_⟩
  have hclass : k = lowerHex ∨ k = fun c => decide (c = '-') := by
    simp only [uuidClasses, exactly, List.mem_append, List.mem_replicate, List.mem_map] at hk
    have hdash (d : Char) (hd : d ∈ "-".toList) : d = '-' := List.mem_singleton.mp hd
    grind
  obtain rfl | rfl := hclass
  · simp only [lowerHex, isDigit, Bool.or_eq_true, Bool.and_eq_true, decide_eq_true_eq] at hc
    unfold Plainly
    omega
  · obtain rfl := of_decide_eq_true hc
    exact ⟨by decide, by decide, by decide, by decide⟩

/-- **What is sent is within the bound.** -/
theorem length_bounded {v : HandoffResponse} (h : isUuid v.invocationId = true) :
    v.bounded.payload.length ≤ 4096 := by
  unfold bounded
  split
  · obtain ⟨hlength, hplain⟩ := plainly_of_isUuid h
    have hid : (utf8 (stringified v.invocationId)).length = 38 := by
      rw [← String.ofList_toList (s := v.invocationId), length_utf8_stringified hplain, hlength]
    have hpayload : (unavailable v.invocationId).payload
        = utf8 ('{' :: (stringified "kind" ++ ':' :: stringified unavailableKind))
          ++ utf8 (',' :: (stringified "invocationId" ++ [':'])) ++ utf8 (stringified v.invocationId)
          ++ utf8 (',' :: (stringified "code"
            ++ ':' :: (stringified "authorization-result-unavailable" ++ ['}']))) := by
      rw [← utf8_append, ← utf8_append, ← utf8_append]
      refine congrArg utf8 ?_
      simp only [stringifyTexts, members, List.map_cons, List.map_nil, separated, stringifyText,
        List.append_assoc, List.cons_append, List.nil_append]
    have hkind : (utf8 ('{' :: (stringified "kind" ++ ':' :: stringified unavailableKind))).length
        ≤ 100 := by decide
    have hname : (utf8 (',' :: (stringified "invocationId" ++ [':']))).length ≤ 100 := by decide
    have hcode : (utf8 (',' :: (stringified "code" ++ ':'
        :: (stringified "authorization-result-unavailable" ++ ['}'])))).length ≤ 100 := by decide
    rw [hpayload, List.length_append, List.length_append, List.length_append, hid]
    omega
  · rename_i hle
    exact Nat.le_of_not_lt hle

/-- **What is decoded of a response was sent**: a result is the one the
response carried, and a refusal was one, however much of the frame arrived. -/
theorem of_decoded {v : HandoffResponse} {bytes : List UInt8} (hid : isUuid v.invocationId = true)
    (h : bytes <+: encodeResponse v) :
    (∀ r, decodeResponse number bytes invocationId = .ok r →
        v = .result r ∧ r.invocationId = invocationId)
      ∧ ∀ e, decodeResponse number bytes invocationId = .error e →
        e.noHandlerRefusal = true → v = .refusal invocationId := by
  have hsent (w : HandoffResponse) (hw : ∀ i, w ≠ .unavailable i) (heq : v.bounded = w) : v = w := by
    unfold bounded at heq
    split at heq
    · exact absurd heq.symm (hw _)
    · exact heq
  obtain hinvalid | ⟨decoded, hheader, hlength, hdecoded, hread⟩ :=
    decodeResponse_cases number bytes invocationId
  · rw [hinvalid]
    refine ⟨fun r hr => absurd hr (by simp), fun e he hmark => ?_⟩
    obtain rfl := Except.error.inj he
    cases hmark
  · have hframe : bytes = responseFrame v.bounded.payload :=
      eq_of_prefix_responseFrame (length_bounded hid) h hheader hlength
    have hpayload : bytes.drop 8 = v.bounded.payload := by
      rw [hframe]
      rfl
    rw [hpayload, parse_payload] at hdecoded
    obtain rfl := Option.some.inj hdecoded
    obtain ⟨hresult, hrefusal⟩ := @readResponse_members invocationId v.bounded
    rw [hread]
    refine ⟨fun r hr => ?_, fun e he hmark => ?_⟩
    · obtain ⟨heq, hsame⟩ := hresult r hr
      exact ⟨hsent _ (fun _ hne => by cases hne) heq, hsame⟩
    · exact hsent _ (fun _ hne => by cases hne) (hrefusal e he hmark)

end HandoffResponse

end Authorization
