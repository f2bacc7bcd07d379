import Lifecycle.ChannelPrograms

/-!
# What crosses the authorization channel

A request is encoded on one side of the socket, arrives in chunks, is put
together again by `readRequest` and decoded by `decodeRequest`. The chunks do
not matter (`readRequest_chunks`), and a task of the server starts its handler
for nothing but one whole frame for its invocation
(`decodeRequest_of_not_carriesOne`). A response comes back as the value that
was sent (`decodeResponse_of_formed`).

The secret is the exception. Both sides check its bytes, but the server keeps
the text the bytes decode into, and `TextDecoder` drops a leading byte order
mark: the bytes of such a secret are not those of its credential, and fewer
than thirty-two of them may be left, so that the server refuses what the
client has accepted.
-/

open Fallible Json StrictJson Asking

namespace Authorization

/-! ## Secrets -/

/-- The byte order mark. -/
def byteOrderMark : List UInt8 := [239, 187, 191]

/-- What is decoded is what stands behind a byte order mark. -/
theorem utf8Bytes_of_decodeText {bytes : List UInt8} {text : String}
    (h : decodeText bytes = some text) :
    utf8Bytes text = if bytes.take 3 = byteOrderMark then bytes.drop 3 else bytes :=
  utf8Bytes_of_decodeUtf8 h

theorem exactSecretBytes_eq_ok {value secret : List UInt8} :
    exactSecretBytes value = .ok secret ↔ secret = value
      ∧ ¬ (value.length < secretMinimumBytes ∨ secretMaximumBytes < value.length)
      ∧ ∃ text, decodeText value = some text ∧ Char.ofNat 0 ∉ text.toList := by
  simp only [exactSecretBytes, bind_eq_ok, orFail_eq_ok, failIf_eq_ok, exists_unit, pure_eq_ok]
  constructor
  · rintro ⟨hlength, text, htext, hnul, rfl⟩
    exact ⟨rfl, hlength, text, htext, hnul⟩
  · rintro ⟨rfl, hlength, text, htext, hnul⟩
    exact ⟨hlength, text, htext, hnul, rfl⟩

/-- **What a client encodes**: the frame of its challenge and its secret. -/
theorem encodeRequest_eq_ok {challenge : String} {secret frame : List UInt8} :
    encodeRequest challenge secret = .ok frame
      ↔ (∃ c, parseInvocationPrivateAuthorizationChallenge challenge = some c)
        ∧ exactSecretBytes secret = .ok secret
        ∧ frame = requestFrame (asciiBytes challenge) secret := by
  simp only [encodeRequest, bind_eq_ok, orFail_eq_ok, pure_eq_ok]
  constructor
  · rintro ⟨c, hc, secret', hsecret, rfl⟩
    obtain ⟨rfl, -⟩ := exactSecretBytes_eq_ok.mp hsecret
    rw [(printable_of_parse hc).1]
    exact ⟨⟨c, hc⟩, hsecret, rfl⟩
  · rintro ⟨⟨c, hc⟩, hsecret, rfl⟩
    refine ⟨c, hc, secret, hsecret, ?_⟩
    rw [(printable_of_parse hc).1]

/-! ## Frames -/

theorem readUInt16BE_requestFrame (token secret : List UInt8) (ht : token.length < 65536)
    (hs : secret.length < 65536) :
    readUInt16BE (requestFrame token secret) 4 = token.length
      ∧ readUInt16BE (requestFrame token secret) 6 = secret.length := by
  constructor
  · show 256 * (UInt8.ofNat (token.length / 256)).toNat + (UInt8.ofNat token.length).toNat = _
    simp only [UInt8.toNat_ofNat']
    omega
  · show 256 * (UInt8.ofNat (secret.length / 256)).toNat + (UInt8.ofNat secret.length).toNat = _
    simp only [UInt8.toNat_ofNat']
    omega

theorem length_requestFrame (token secret : List UInt8) :
    (requestFrame token secret).length = requestHeaderBytes + token.length + secret.length := by
  rw [requestFrame, List.length_append, List.length_append]
  rfl

/-- The bytes of a challenge are printable, and few. -/
theorem asciiBytes_of_parse {challenge : String} {c : Challenge}
    (h : parseInvocationPrivateAuthorizationChallenge challenge = some c) :
    (asciiBytes challenge).length = 85
      ∧ ∀ b ∈ asciiBytes challenge, 32 ≤ b.toNat ∧ b.toNat ≤ 126 := by
  obtain ⟨-, hlength, hprintable⟩ := printable_of_parse h
  refine ⟨by rw [asciiBytes, List.length_map, hlength], fun b hb => ?_⟩
  obtain ⟨d, hd, rfl⟩ := List.mem_map.mp hb
  have hplain := hprintable d hd
  simp only [printable, Bool.and_eq_true, decide_eq_true_eq] at hplain
  rw [UInt8.toNat_ofNat', Nat.mod_eq_of_lt (by omega)]
  exact hplain

/-- A printable token is the bytes of its text. -/
theorem asciiBytes_asciiText {token : List UInt8}
    (h : ∀ b ∈ token, 32 ≤ b.toNat ∧ b.toNat ≤ 126) : asciiBytes (asciiText token) = token := by
  rw [asciiBytes, asciiText, String.toList_ofList, List.map_map]
  refine (List.map_congr_left fun b hb => ?_).trans (List.map_id _)
  obtain ⟨-, hhigh⟩ := h b hb
  have hvalid : (Char.ofNat b.toNat).toNat = b.toNat := by
    have hchar : b.toNat.isValidChar := .inl (by omega)
    rw [Char.ofNat, dif_pos hchar]
    rfl
  show UInt8.ofNat (Char.ofNat b.toNat).toNat = b
  rw [hvalid, UInt8.ofNat_toNat]

/-- The bounds of an encoded request are those its reader wants. -/
theorem bounded_of_encoded {challenge : String} {c : Challenge} {secret : List UInt8}
    (hc : parseInvocationPrivateAuthorizationChallenge challenge = some c)
    (hsecret : exactSecretBytes secret = .ok secret) :
    ¬ lengthsRefused (asciiBytes challenge).length secret.length
      ∧ (asciiBytes challenge).length ≤ 96 ∧ secret.length ≤ 4096 := by
  obtain ⟨-, hlength, -⟩ := exactSecretBytes_eq_ok.mp hsecret
  obtain ⟨htoken, -⟩ := asciiBytes_of_parse hc
  have hbounds : challengeMaximumBytes = 96 ∧ secretMinimumBytes = 32 ∧ secretMaximumBytes = 4096 :=
    ⟨rfl, rfl, rfl⟩
  unfold lengthsRefused
  omega

/-- **What is decoded of an encoded request**: its challenge, with the
credential made of the text of its secret. -/
theorem decodeRequest_encoded {challenge : String} {c : Challenge} {secret : List UInt8}
    {text : String} (hc : parseInvocationPrivateAuthorizationChallenge challenge = some c)
    (hsecret : exactSecretBytes secret = .ok secret) (htext : decodeText secret = some text)
    (hnul : Char.ofNat 0 ∉ text.toList) :
    decodeRequest (requestFrame (asciiBytes challenge) secret) c.invocationId
      = (receiveAuthorityCredential text .directorDecision).map fun credential =>
          some ⟨challenge, credential⟩ := by
  obtain ⟨hlengths, htoken, hlong⟩ := bounded_of_encoded hc hsecret
  obtain ⟨-, hprintable⟩ := asciiBytes_of_parse hc
  obtain ⟨hfirst, hsecond⟩ := readUInt16BE_requestFrame (asciiBytes challenge) secret
    (by omega) (by omega)
  have hlength := length_requestFrame (asciiBytes challenge) secret
  have hbody : (requestFrame (asciiBytes challenge) secret).drop requestHeaderBytes
      = asciiBytes challenge ++ secret := rfl
  have hbytes : ((requestFrame (asciiBytes challenge) secret).drop requestHeaderBytes).take
      (asciiBytes challenge).length = asciiBytes challenge := by
    rw [hbody, List.take_left]
  have hbehind : (requestFrame (asciiBytes challenge) secret).drop
      (requestHeaderBytes + (asciiBytes challenge).length) = secret := by
    rw [← List.drop_drop, hbody, List.drop_left]
  have hplain : ¬ ((asciiBytes challenge).any fun b => b.toNat < 32 || 126 < b.toNat) = true := by
    intro hany
    obtain ⟨b, hb, hout⟩ := List.any_eq_true.mp hany
    obtain ⟨hlow, hhigh⟩ := hprintable b hb
    rw [Bool.or_eq_true, decide_eq_true_eq, decide_eq_true_eq] at hout
    omega
  have hchallenge : asciiText (asciiBytes challenge) = challenge :=
    asciiText_asciiBytes (printable_of_parse hc).2.2
  have hheader : ¬ ((requestFrame (asciiBytes challenge) secret).length < requestHeaderBytes
      ∨ (requestFrame (asciiBytes challenge) secret).take 4 ≠ requestMagic) :=
    not_or.mpr ⟨by omega, not_not.mpr rfl⟩
  have hinvocation : ¬ (Option.map (·.invocationId) (some c) ≠ some c.invocationId) :=
    not_not.mpr rfl
  unfold decodeRequest
  rw [if_neg hheader]
  simp only [hfirst, hsecond, hbytes, hbehind, hchallenge, htext]
  rw [if_neg (not_or.mpr ⟨hlengths, not_not.mpr hlength⟩), if_neg hplain, hc,
    if_neg hinvocation, if_neg hnul]

/-- **A frame is encoded or refused**: what a request is decoded from, or what
decoding it throws on, is a frame a client encodes for the invocation. -/
theorem decodeRequest_of_not_encoded {frame : List UInt8} {invocationId : String}
    (h : ∀ challenge c secret, parseInvocationPrivateAuthorizationChallenge challenge = some c →
      c.invocationId = invocationId → encodeRequest challenge secret ≠ .ok frame) :
    decodeRequest frame invocationId = .ok none := by
  obtain hnone | ⟨token, secret, c, text, rfl, hlengths, hprintable, hc, hid, htext, hnul, -⟩ :=
    decodeRequest_cases frame invocationId
  · exact hnone
  have hsecret : exactSecretBytes secret = .ok secret := by
    refine exactSecretBytes_eq_ok.mpr ⟨rfl, fun hout => hlengths ?_, text, htext, hnul⟩
    exact .inr (.inr hout)
  refine absurd ?_ (h (asciiText token) c secret hc hid)
  refine encodeRequest_eq_ok.mpr ⟨⟨c, hc⟩, hsecret, ?_⟩
  rw [asciiBytes_asciiText hprintable]

/-! ## Reading a request -/

/-- `expectedLength` once some of a frame has arrived. -/
def expectedOf (frame retained : List UInt8) : Option Nat :=
  if requestHeaderBytes ≤ retained.length then some frame.length else none

/-- The header of a frame is read from any beginning that holds it. -/
theorem header_of_prefix {retained frame : List UInt8} (h : retained <+: frame)
    (hlong : requestHeaderBytes ≤ retained.length) :
    retained.take 4 = frame.take 4 ∧ readUInt16BE retained 4 = readUInt16BE frame 4
      ∧ readUInt16BE retained 6 = readUInt16BE frame 6 := by
  have hheader : requestHeaderBytes = 8 := rfl
  obtain ⟨rest, rfl⟩ := h
  have hget (i : Nat) (hi : i < 8) : retained.getD i 0 = (retained ++ rest).getD i 0 :=
    (List.getD_append _ _ _ _ (by omega)).symm
  refine ⟨(List.take_append_of_le_length (by omega)).symm, ?_, ?_⟩
  · rw [readUInt16BE, readUInt16BE, hget 4 (by omega), hget (4 + 1) (by omega)]
  · rw [readUInt16BE, readUInt16BE, hget 6 (by omega), hget (6 + 1) (by omega)]

/-- **One chunk of a frame** is retained, and no beginning of a frame is
refused. -/
theorem hear_chunk {token secret retained chunk : List UInt8}
    (hlengths : ¬ lengthsRefused token.length secret.length) (ht : token.length ≤ 96)
    (hs : secret.length ≤ 4096) (h : retained ++ chunk <+: requestFrame token secret) :
    (RequestReading.reading retained (expectedOf (requestFrame token secret) retained)).hear
        (.data chunk)
      = .reading (retained ++ chunk)
          (expectedOf (requestFrame token secret) (retained ++ chunk)) := by
  have hheader : requestHeaderBytes = 8 := rfl
  have hmaximum : requestMaximumBytes = 4200 := rfl
  have hlength := length_requestFrame token secret
  have hbound := h.length_le
  have happend : (retained ++ chunk).length = retained.length + chunk.length := List.length_append
  have hexpected : expectedAfter (expectedOf (requestFrame token secret) retained)
      (retained ++ chunk) = some (expectedOf (requestFrame token secret) (retained ++ chunk)) := by
    unfold expectedAfter expectedOf
    by_cases hbefore : requestHeaderBytes ≤ retained.length
    · rw [if_pos hbefore, if_neg (by simp), if_pos (by omega)]
    · rw [if_neg hbefore]
      by_cases hafter : requestHeaderBytes ≤ (retained ++ chunk).length
      · obtain ⟨hmagic, hfirst, hsecond⟩ := header_of_prefix h hafter
        obtain ⟨htoken, hsecret⟩ := readUInt16BE_requestFrame token secret (by omega) (by omega)
        have haccepted : ¬ ((retained ++ chunk).take 4 ≠ requestMagic
            ∨ lengthsRefused token.length secret.length) :=
          not_or.mpr ⟨not_not.mpr hmagic, hlengths⟩
        rw [if_pos ⟨rfl, hafter⟩, if_pos hafter, hfirst, hsecond, htoken, hsecret,
          if_neg haccepted, hlength]
      · rw [if_neg (fun hboth => hafter hboth.2), if_neg hafter]
  have hwithin : ¬ (expectedOf (requestFrame token secret) (retained ++ chunk)).any
      (fun n => decide (n < (retained ++ chunk).length)) = true := by
    unfold expectedOf
    split
    · rw [Option.any_some, decide_eq_true_eq]
      omega
    · simp
  show RequestReading.data retained _ chunk = _
  unfold RequestReading.data
  rw [if_neg (by omega), hexpected]
  exact if_neg hwithin

/-- **A frame is read back from its chunks**, however it was split. -/
theorem readRequest_chunks {token secret : List UInt8} {chunks : List (List UInt8)}
    (hlengths : ¬ lengthsRefused token.length secret.length) (ht : token.length ≤ 96)
    (hs : secret.length ≤ 4096) (hchunks : chunks.flatten = requestFrame token secret) :
    readRequest (chunks.map .data ++ [.ended]) = .settled (some (requestFrame token secret)) := by
  have hfed : ∀ (retained : List UInt8), retained ++ chunks.flatten = requestFrame token secret →
      (chunks.map SocketEvent.data).foldl RequestReading.hear
          (.reading retained (expectedOf (requestFrame token secret) retained))
        = .reading (requestFrame token secret)
            (expectedOf (requestFrame token secret) (requestFrame token secret)) := by
    clear hchunks
    induction chunks with
    | nil =>
      intro retained hall
      rw [List.flatten_nil, List.append_nil] at hall
      rw [hall]
      rfl
    | cons chunk chunks ih =>
      intro retained hall
      rw [List.flatten_cons, ← List.append_assoc] at hall
      rw [List.map_cons, List.foldl_cons,
        hear_chunk hlengths ht hs (hall ▸ List.prefix_append _ _)]
      exact ih (retained ++ chunk) hall
  have hlong : requestHeaderBytes ≤ (requestFrame token secret).length := by
    rw [length_requestFrame, Nat.add_assoc]
    exact Nat.le_add_right _ _
  have hwhole : expectedOf (requestFrame token secret) (requestFrame token secret)
      = some (requestFrame token secret).length := if_pos hlong
  rw [readRequest, List.foldl_append]
  show RequestReading.hear ((chunks.map SocketEvent.data).foldl RequestReading.hear
    (.reading [] (expectedOf (requestFrame token secret) []))) .ended = _
  rw [hfed [] hchunks, hwhole]
  exact congrArg RequestReading.settled (if_pos rfl)

/-- **What was read is everything** that arrived before the peer ended. -/
theorem exists_ended_of_readRequest {events : List SocketEvent} {frame : List UInt8}
    (h : readRequest events = .settled (some frame)) :
    ∃ earlier later, events = earlier ++ .ended :: later ∧ delivered earlier = frame := by
  induction events using List.reverseRecOn with
  | nil => cases h
  | append_singleton events event ih =>
    have hstep : readRequest (events ++ [event]) = (readRequest events).hear event :=
      List.foldl_concat ..
    rw [hstep] at h
    cases hbefore : readRequest events with
    | settled frame' =>
      rw [hbefore] at h
      obtain ⟨earlier, later, rfl, hframe⟩ := ih (hbefore.trans h)
      exact ⟨earlier, later ++ [event], by simp, hframe⟩
    | reading retained expected =>
      rw [hbefore] at h
      have hheld : delivered events = retained := (readRequest_spec events).1 _ _ hbefore
      cases event with
      | ended =>
        have hframe := RequestReading.settled.inj h
        split at hframe
        · exact ⟨events, [], rfl, hheld.trans (Option.some.inj hframe)⟩
        · cases hframe
      | data chunk =>
        simp only [RequestReading.hear, RequestReading.data] at h
        split at h
        · cases h
        · split at h
          · cases h
          · split at h <;> cases h
      | failed => cases h
      | timedOut => cases h
      | closed => cases h

/-! ## Handlers that are not started -/

/-- **The stream carries one frame**: what a peer sent before it ended is a
frame that some client encodes for the invocation. -/
def CarriesOne (invocationId : String) (events : List SocketEvent) : Prop :=
  ∃ earlier later challenge c secret, events = earlier ++ .ended :: later
    ∧ parseInvocationPrivateAuthorizationChallenge challenge = some c
    ∧ c.invocationId = invocationId ∧ encodeRequest challenge secret = .ok (delivered earlier)

/-- A program that starts no handler, whatever it is answered. -/
def Startless {α : Type} (c : ChannelProgram α) : Prop :=
  Keeps (fun _ _ : Unit => True) (fun _ _ _ _ => True) (fun _ q => ∀ k r, q ≠ .start k r)
    (fun _ _ => True) (fun _ _ => True) c ()

namespace Startless

theorem bind {α β : Type} {c : ChannelProgram α} {f : α → ChannelProgram β} (hc : Startless c)
    (hf : ∀ a, Startless (f a)) : Startless (c >>= f) :=
  Keeps.bind (fun _ => trivial) hc fun a _ _ => hf a

theorem rescue {α : Type} {c : ChannelProgram α} {h : Thrown → ChannelProgram α}
    (hc : Startless c) (hh : ∀ e, Startless (h e)) : Startless (c.rescue h) :=
  Keeps.rescue (fun _ => trivial) hc fun e _ _ => hh e

theorem ask {q : ChannelCall} (hq : ∀ k r, q ≠ .start k r) : Startless (Authorization.ask q) :=
  Keeps.question (fun _ _ => hq) fun _ _ _ _ _ _ _ => trivial

theorem pure {α : Type} {a : α} : Startless (Pure.pure a : ChannelProgram α) :=
  fun _ _ => trivial

theorem lift {α : Type} {x : Except Thrown α} : Startless (Asking.lift x) :=
  Keeps.lift (fun _ _ _ _ => trivial) fun _ _ _ _ => trivial

theorem writeResponse {k : Nat} {value : HandoffResponse} {beforeWrite : Bool} :
    Startless (Authorization.writeResponse k value beforeWrite) := by
  refine (ask fun _ _ hq => by cases hq).bind fun writing => ?_
  split
  · exact (ask fun _ _ hq => by cases hq).bind fun _ => lift
  · exact pure

theorem excuse {invocationId : String} {k : Nat} :
    Startless (Authorization.excuse invocationId k) := by
  refine (ask fun _ _ hq => by cases hq).bind fun started => ?_
  split
  · exact pure
  · exact (ask fun _ _ hq => by cases hq).bind fun _ => writeResponse.rescue fun _ => pure

/-- What is left of such a program starts none. -/
theorem not_asks {α : Type} {c : ChannelProgram α} (h : Startless c)
    {transcript : List ((q : ChannelCall) × ChannelAnswer q)} {k : Nat} {r : ChannelRequest} :
    ¬ Asks c transcript (.start k r) := by
  intro hasks
  have hserved : Served (fun _ _ _ _ => True) () transcript () := by
    clear hasks
    induction transcript with
    | nil => exact .nil
    | cons answer rest ih => exact .cons trivial ih
  exact Keeps.asks (fun _ => trivial) h hasks hserved k r rfl

end Startless

/-- **A task that refuses what it has read**: it goes on with the refusal, and
starts no handler, however the refusal is written. -/
structure Refuses (invocationId : String) (entered : Entered) (frame : Option (List UInt8)) :
    Prop where
  refusal : Reaches (attend invocationId entered.socket) [⟨.readRequest entered.socket, frame⟩]
    (respond entered.socket (.refusal invocationId))
  notStarted : ∀ rest k r, ¬ Asks (serveConnection invocationId)
    (⟨.enter, entered⟩ :: ⟨.readRequest entered.socket, frame⟩ :: rest) (.start k r)

/-- What a program asks further on, what is left of it asks. -/
theorem asks_of_reaches {α : Type} {c d : ChannelProgram α}
    {first rest : List ((q : ChannelCall) × ChannelAnswer q)} {q : ChannelCall}
    (h : Reaches c first d) (hasks : Asks c (first ++ rest) q) : Asks d rest q := by
  induction h with
  | refl => exact hasks
  | answer _ ih =>
    obtain ⟨further, hreaches⟩ := hasks
    cases hreaches with
    | answer hrest => exact ih ⟨further, hrest⟩

/-- Where no request is found, the task goes on with the refusal. -/
theorem reaches_attend {invocationId : String} {k : Nat} {frame : Option (List UInt8)}
    (h : requestIn frame invocationId = .ok none) :
    Reaches (attend invocationId k) [⟨.readRequest k, frame⟩]
      (respond k (.refusal invocationId)) := by
  refine .answer ?_
  show Reaches (checked (requestIn frame invocationId) >>= _) _ _
  rw [h]
  exact .refl

theorem refuses_of_requestIn {invocationId : String} {entered : Entered}
    {frame : Option (List UInt8)} (h : requestIn frame invocationId = .ok none) :
    Refuses invocationId entered frame := by
  refine ⟨reaches_attend h, fun rest k r hasks => ?_⟩
  obtain ⟨socket, admitted⟩ := entered
  cases admitted with
  | true =>
    have hreaches : Reaches (serveConnection invocationId)
        [⟨.enter, ⟨socket, true⟩⟩, ⟨.readRequest socket, frame⟩] _ :=
      .answer ((reaches_attend h).rescue.bind (f := fun _ => ask (.leave socket)))
    refine Startless.not_asks ?_ (asks_of_reaches hreaches hasks)
    refine (Startless.writeResponse.rescue fun _ => .excuse).bind fun _ => ?_
    exact .ask fun _ _ hq => by cases hq
  | false =>
    have hreaches : Reaches (serveConnection invocationId)
        [⟨.enter, ⟨socket, false⟩⟩, ⟨.readRequest socket, frame⟩] _ :=
      .answer (.answer .refl)
    refine Startless.not_asks ?_ (asks_of_reaches hreaches hasks)
    refine (Startless.writeResponse.rescue fun _ => .pure).bind fun _ => ?_
    exact .ask fun _ _ hq => by cases hq

/-- **Anything but one frame for the invocation is refused.** -/
theorem refuses_of_not_carriesOne {invocationId : String} {entered : Entered}
    {events : List SocketEvent} {frame : Option (List UInt8)}
    (h : ¬ CarriesOne invocationId events) (hread : readRequest events = .settled frame) :
    Refuses invocationId entered frame := by
  refine refuses_of_requestIn ?_
  cases frame with
  | none => rfl
  | some frame =>
    obtain ⟨earlier, later, rfl, rfl⟩ := exists_ended_of_readRequest hread
    rw [requestIn, decodeRequest_of_not_encoded fun challenge c secret hc hid henc =>
      h ⟨earlier, later, challenge, c, secret, rfl, hc, hid, henc⟩]
    rfl

/-- **Reading is over** once the peer has ended, failed or stayed silent too
long. -/
theorem exists_settled {events : List SocketEvent}
    (h : .ended ∈ events ∨ .failed ∈ events ∨ .timedOut ∈ events) :
    ∃ frame, readRequest events = .settled frame := by
  have hkept : ∀ (later : List SocketEvent) (frame : Option (List UInt8)),
      later.foldl RequestReading.hear (.settled frame) = .settled frame := by
    intro later frame
    induction later with
    | nil => rfl
    | cons event later ih => exact ih
  have hover (event : SocketEvent) (hevent : ∀ s : RequestReading, ∃ frame,
      s.hear event = .settled frame) (hmem : event ∈ events) :
      ∃ frame, readRequest events = .settled frame := by
    obtain ⟨earlier, later, rfl⟩ := List.append_of_mem hmem
    obtain ⟨frame, hframe⟩ := hevent (readRequest earlier)
    refine ⟨frame, ?_⟩
    rw [readRequest, List.foldl_append, List.foldl_cons]
    show later.foldl _ ((readRequest earlier).hear event) = _
    rw [hframe, hkept]
  obtain hended | hfailed | htimedOut := h
  · exact hover .ended (fun s => by cases s <;> exact ⟨_, rfl⟩) hended
  · exact hover .failed (fun s => by cases s <;> exact ⟨_, rfl⟩) hfailed
  · exact hover .timedOut (fun s => by cases s <;> exact ⟨_, rfl⟩) htimedOut

/-! ## Responses -/

namespace HandoffResponse

/-- **The responses of a server**: a result that was created, or a notice for
an invocation. -/
def Formed : HandoffResponse → Prop
  | result r => ∃ value, createAuthorizationHandoffResult value = .ok r
  | refusal invocationId => isUuid invocationId = true
  | unavailable invocationId => isUuid invocationId = true

/-- What a response means to the client it is for. -/
def outcome : HandoffResponse → Except ChannelError HandoffResult
  | result r => .ok r
  | refusal _ => .error handlerNotStarted
  | unavailable invocationId => .error (observationUnavailable invocationId)

end HandoffResponse

open HandoffResponse

/-- What `retainResult` has tested. -/
structure HandoffResult.Bounded (r : HandoffResult) : Prop where
  invocationId : isUuid r.invocationId = true
  deliveryId : codeUnits r.deliveryId.toList ≤ 512 ∧ ControlModel.matchesIdPattern r.deliveryId = true
  resultDigest : isSha256 r.resultDigest = true

theorem bounded_of_retainResult {value : Json} {r : HandoffResult}
    (h : retainResult value = some r) : r.Bounded := by
  unfold retainResult at h
  simp only [Option.bind_eq_bind, Option.bind_eq_some_iff] at h
  obtain ⟨o, -, h⟩ := h
  split at h
  · cases h
  simp only [Option.bind_eq_some_iff] at h
  obtain ⟨kind, -, invocationId, -, deliveryId, -, operation, -, status, -, resultDigest, -, h⟩ := h
  split at h
  · rename_i hall
    obtain ⟨-, hid, hunits, hpattern, hdigest⟩ := hall
    obtain rfl := Option.some.inj h
    exact ⟨hid, ⟨hunits, hpattern⟩, hdigest⟩
  · cases h

/-- A response names its invocation. -/
theorem HandoffResponse.Formed.isUuid {v : HandoffResponse} (h : v.Formed) :
    Authorization.isUuid v.invocationId = true := by
  cases v with
  | result r =>
    obtain ⟨value, hcreated⟩ := h
    exact (bounded_of_retainResult (orFail_eq_ok.mp hcreated)).invocationId
  | refusal invocationId => exact h
  | unavailable invocationId => exact h

/-! ### The bound of a result -/

/-- An identity byte is written as it is. -/
theorem escapeByte_of_identityByte {b : UInt8} (h : ControlModel.identityByte b = true) :
    escapeByte b = [b] := by
  have hall : ∀ n < 256, ControlModel.identityByte (UInt8.ofNat n) = true →
      escapeByte (UInt8.ofNat n) = [UInt8.ofNat n] := by
    decide +kernel
  have hb := hall b.toNat b.toNat_lt
  rw [UInt8.ofNat_toNat] at hb
  exact hb h

/-- A text of identity bytes is written as it is, in quotes. -/
theorem length_quoted {s : String} (h : ∀ b ∈ utf8Bytes s, ControlModel.identityByte b = true) :
    (quoted s).length = byteLength s + 2 :=
  length_quoted_of_unescaped fun b hb => escapeByte_of_identityByte (h b hb)

/-- A text has at most three bytes a code unit. -/
theorem byteLength_le_codeUnits (s : String) : byteLength s ≤ 3 * codeUnits s.toList := by
  have hchar (c : Char) : (String.utf8EncodeChar c).length ≤ 3 * (utf16Units c).length := by
    have hvalue : c.val.toNat = c.toNat := rfl
    unfold String.utf8EncodeChar utf16Units
    simp only [hvalue]
    split
    · split <;> simp
    · split
      · split <;> simp
      · split
        · rw [if_pos (by omega)]
          simp
        · rw [if_neg (by omega)]
          simp
  rw [byteLength, utf8Bytes_eq]
  generalize s.toList = cs
  induction cs with
  | nil => exact Nat.le_refl _
  | cons c cs ih =>
    have hc := hchar c
    rw [utf8, List.flatMap_cons, List.length_append, codeUnits, List.flatMap_cons,
      List.length_append]
    rw [utf8, codeUnits] at ih
    omega

theorem identityByte_of_matchesIdPattern {s : String} (h : ControlModel.matchesIdPattern s = true) :
    ∀ b ∈ utf8Bytes s, ControlModel.identityByte b = true := by
  unfold ControlModel.matchesIdPattern at h
  split at h
  · cases h
  · rename_i b bs hbytes
    rw [Bool.and_eq_true, List.all_eq_true] at h
    rw [hbytes]
    refine List.forall_mem_cons.mpr ⟨?_, h.2⟩
    rw [ControlModel.identityByte, h.1]
    rfl

theorem identityByte_of_isSha256 {s : String} (h : isSha256 s = true) :
    ∀ b ∈ utf8Bytes s, ControlModel.identityByte b = true := by
  have hclass : ∀ b : UInt8, hexClass b = true → ControlModel.identityByte b = true := by
    intro b hb
    simp only [hexClass, ControlModel.identityByte, ControlModel.alphanumeric, Bool.or_eq_true,
      Bool.and_eq_true, Nat.ble_eq] at hb ⊢
    omega
  simp only [isSha256, Bool.and_eq_true, decide_eq_true_eq, List.all_eq_true] at h
  obtain ⟨⟨-, hfront⟩, hdigits⟩ := h
  intro b hb
  rw [← List.take_append_drop 7 (utf8Bytes s), List.mem_append, hfront] at hb
  obtain hb | hb := hb
  · exact List.all_eq_true.mp (by decide) b hb
  · exact hclass b (hdigits b hb)

/-- What the members of a response come to. -/
theorem length_utf8_separated : ∀ members : List (String × String),
    (utf8 (separated [] (members.map stringifyText))).length
      ≤ (members.map fun m => (quoted m.1).length + (quoted m.2).length + 2).sum
  | [] => Nat.le_refl _
  | [m] => by
    rw [List.map_cons, List.map_nil, separated, stringifyText, utf8_append, utf8_cons,
      ← quoted_eq, ← quoted_eq, List.length_append, List.length_append, List.map_cons, List.sum_cons]
    show _ + (1 + _) ≤ _
    omega
  | m :: n :: ms => by
    have ih := length_utf8_separated (n :: ms)
    rw [List.map_cons, List.map_cons, separated, stringifyText, List.nil_append, utf8_append,
      utf8_append, utf8_cons ':', utf8_cons ',', ← quoted_eq, ← quoted_eq, List.length_append,
      List.length_append, List.length_append, List.length_append, List.map_cons, List.sum_cons]
    rw [List.map_cons] at ih
    show _ + (1 + _) + (1 + _) ≤ _
    omega

theorem length_payload_le (v : HandoffResponse) : v.payload.length
    ≤ (v.members.map fun m => (quoted m.1).length + (quoted m.2).length + 2).sum + 2 := by
  have hmembers := length_utf8_separated v.members
  rw [payload, stringifyTexts, List.cons_append, utf8_cons, utf8_append, List.length_append,
    List.length_append]
  show 1 + (_ + 1) ≤ _
  omega

theorem length_quoted_of_isUuid {value : String} (h : isUuid value = true) :
    (quoted value).length = 38 := by
  obtain ⟨hlength, hplain⟩ := plainly_of_isUuid h
  rw [quoted_eq, ← String.ofList_toList (s := value), length_utf8_stringified hplain, hlength]

/-- **A response of a server fits**: its texts are bounded. -/
theorem length_payload_of_formed {v : HandoffResponse} (h : v.Formed) :
    v.payload.length ≤ responseMaximumBytes := by
  have hpayload := length_payload_le v
  have hmaximum : responseMaximumBytes = 4096 := rfl
  have hnames : (quoted "kind").length + (quoted "invocationId").length + (quoted "code").length
      + (quoted "operation").length + (quoted "deliveryId").length + (quoted "status").length
      + (quoted "resultDigest").length ≤ 300 := by
    decide
  have hkinds : (quoted resultKind).length + (quoted refusalKind).length
      + (quoted unavailableKind).length + (quoted "authorization-refused").length
      + (quoted "authorization-result-unavailable").length ≤ 300 := by
    decide
  cases v with
  | result r =>
    obtain ⟨value, hcreated⟩ := h
    have hr := bounded_of_retainResult (orFail_eq_ok.mp hcreated)
    have hinvocation := length_quoted_of_isUuid hr.invocationId
    have hdelivery : (quoted r.deliveryId).length ≤ 1538 := by
      have hbytes := byteLength_le_codeUnits r.deliveryId
      obtain ⟨hunits, hpattern⟩ := hr.deliveryId
      rw [length_quoted (identityByte_of_matchesIdPattern hpattern)]
      omega
    have hdigest : (quoted r.resultDigest).length = 73 := by
      have hbytes := hr.resultDigest
      simp only [isSha256, Bool.and_eq_true, decide_eq_true_eq] at hbytes
      rw [length_quoted (identityByte_of_isSha256 hr.resultDigest), byteLength, hbytes.1.1]
    have hoperation : (quoted r.operation.text).length ≤ 100 := by
      cases r.operation <;> decide
    have hstatus : (quoted r.status.text).length ≤ 100 := by
      cases r.status <;> decide
    simp only [members, List.map_cons, List.map_nil, List.sum_cons, List.sum_nil] at hpayload
    omega
  | refusal invocationId =>
    have hinvocation := length_quoted_of_isUuid h
    simp only [members, List.map_cons, List.map_nil, List.sum_cons, List.sum_nil] at hpayload
    omega
  | unavailable invocationId =>
    have hinvocation := length_quoted_of_isUuid h
    simp only [members, List.map_cons, List.map_nil, List.sum_cons, List.sum_nil] at hpayload
    omega

/-! ### Decoding -/

/-- A result is retained from its own members. -/
theorem retainResult_own {r : HandoffResult} (h : r.Bounded) :
    retainResult (.object (recordOfTexts (result r).members)) = some r := by
  have hoperation : HandoffOperation.ofText r.operation.text = some r.operation := by
    cases r.operation <;> decide
  have hstatus : HandoffStatus.ofText r.status.text = some r.status := by
    cases r.status <;> decide
  have hnames : hasExactNames (recordOfTexts (result r).members)
      ["deliveryId", "invocationId", "kind", "operation", "resultDigest", "status"] = true := by
    show decide (nulJoined (sortKeys ["kind", "invocationId", "operation", "deliveryId", "status",
      "resultDigest"]) = _) = true
    decide +kernel
  have hmember (name text : String) (h : member name (recordOfTexts (result r).members)
      = some (.string text)) :
      asString (member name (recordOfTexts (result r).members)) = some text := by
    rw [h]
    rfl
  unfold retainResult
  simp only [asObject, Option.bind_eq_bind, Option.bind_some, hnames, Bool.true_eq_false, if_false]
  rw [hmember "kind" resultKind rfl, hmember "invocationId" r.invocationId rfl,
    hmember "deliveryId" r.deliveryId rfl, hmember "operation" r.operation.text rfl,
    hmember "status" r.status.text rfl, hmember "resultDigest" r.resultDigest rfl]
  simp only [Option.bind_some, hoperation, hstatus]
  exact if_pos ⟨trivial, h.invocationId, h.deliveryId.1, h.deliveryId.2, h.resultDigest⟩

/-- A notice is known by its three texts. -/
theorem isNotice_own (kind invocationId code : String) :
    isNotice (recordOfTexts [("kind", kind), ("invocationId", invocationId), ("code", code)]) kind
      invocationId code = true := by
  have hnames : hasExactNames
      (recordOfTexts [("kind", kind), ("invocationId", invocationId), ("code", code)])
      ["code", "invocationId", "kind"] = true := by
    show decide (nulJoined (sortKeys ["kind", "invocationId", "code"]) = _) = true
    decide +kernel
  rw [isNotice, hnames, Bool.true_and, Bool.and_eq_true, Bool.and_eq_true, strictEq_string,
    strictEq_string, strictEq_string]
  exact ⟨⟨rfl, rfl⟩, rfl⟩

/-- **What a response means** to the client it is for. -/
theorem decodeResponse_of_formed {number : String → JsNumber} {v : HandoffResponse}
    (h : v.Formed) : decodeResponse number (encodeResponse v) v.invocationId = v.outcome := by
  rw [decodeResponse_encodeResponse (length_payload_of_formed h)]
  unfold readResponse
  cases v with
  | result r =>
    obtain ⟨value, hcreated⟩ := h
    have hr := bounded_of_retainResult (orFail_eq_ok.mp hcreated)
    have hown : decide (r.invocationId = (result r).invocationId) = true := decide_eq_true rfl
    rw [retainResult_own hr, Option.filter_some, if_pos hown]
    rfl
  | refusal invocationId =>
    rw [retainResult_of_member rfl]
    exact if_pos (isNotice_own refusalKind invocationId "authorization-refused")
  | unavailable invocationId =>
    have hother : isNotice (recordOfTexts (unavailable invocationId).members) refusalKind
        invocationId "authorization-refused" ≠ true := by
      intro hnotice
      exact absurd (Json.string.inj (Option.some.inj (isNotice_texts hnotice).1)) (by decide)
    rw [retainResult_of_member rfl]
    exact (if_neg hother).trans
      (if_pos (isNotice_own unavailableKind invocationId "authorization-result-unavailable"))

/-- A response tells another invocation of no result. -/
theorem decodeResponse_foreign {number : String → JsNumber} {v : HandoffResponse}
    {invocationId : String} {r : HandoffResult} (h : v.Formed)
    (hother : invocationId ≠ v.invocationId) :
    decodeResponse number (encodeResponse v) invocationId ≠ .ok r := by
  intro hread
  obtain ⟨rfl, hid⟩ := (of_decoded h.isUuid (List.prefix_refl _)).1 r hread
  exact hother hid.symm

/-! ## The law of the frames -/

/-- **The framing law** for a challenge and the frame of it with a secret. -/
structure FramingLaw (number : String → JsNumber) (challenge : String)
    (secret frame : List UInt8) : Prop where
  roundTrip : ∀ c, parseInvocationPrivateAuthorizationChallenge challenge = some c →
    ∀ chunks : List (List UInt8), chunks.flatten = frame →
      readRequest (chunks.map .data ++ [.ended]) = .settled (some frame)
        ∧ ∃ credential, decodeRequest frame c.invocationId = .ok (some ⟨challenge, credential⟩)
          ∧ utf8Bytes credential.secret = secret
  settled : ∀ events : List SocketEvent,
    .ended ∈ events ∨ .failed ∈ events ∨ .timedOut ∈ events →
      ∃ read, readRequest events = .settled read
  refused : ∀ invocationId entered events read, ¬ CarriesOne invocationId events →
    readRequest events = .settled read → Refuses invocationId entered read
  answered : ∀ v : HandoffResponse, v.Formed →
    decodeResponse number (encodeResponse v) v.invocationId = v.outcome
  foreign : ∀ v : HandoffResponse, v.Formed → ∀ invocationId, invocationId ≠ v.invocationId →
    ∀ r, decodeResponse number (encodeResponse v) invocationId ≠ .ok r

/-- **The credential of an encoded request** has the bytes of the secret
behind a byte order mark. -/
theorem secret_of_decodeRequest {challenge : String} {c : Challenge} {secret frame : List UInt8}
    {r : ChannelRequest} (hc : parseInvocationPrivateAuthorizationChallenge challenge = some c)
    (hframe : encodeRequest challenge secret = .ok frame)
    (h : decodeRequest frame c.invocationId = .ok (some r)) :
    utf8Bytes r.authorityCredential.secret
      = if secret.take 3 = byteOrderMark then secret.drop 3 else secret := by
  obtain ⟨-, hsecret, rfl⟩ := encodeRequest_eq_ok.mp hframe
  obtain ⟨-, -, text, htext, hnul⟩ := exactSecretBytes_eq_ok.mp hsecret
  rw [decodeRequest_encoded hc hsecret htext hnul] at h
  cases hcredential : receiveAuthorityCredential text .directorDecision with
  | error e =>
    rw [hcredential] at h
    cases h
  | ok credential =>
    rw [hcredential] at h
    obtain rfl := Option.some.inj (Except.ok.inj h)
    obtain ⟨-, rfl⟩ := receiveAuthorityCredential_eq_ok.mp hcredential
    exact utf8Bytes_of_decodeText htext

/-- A secret behind a byte order mark is not kept. -/
theorem not_framingLaw_of_mark {number : String → JsNumber} {challenge : String}
    {secret frame : List UInt8} (hframe : encodeRequest challenge secret = .ok frame)
    (hmark : secret.take 3 = byteOrderMark) : ¬ FramingLaw number challenge secret frame := by
  intro hlaw
  obtain ⟨⟨c, hc⟩, -, -⟩ := encodeRequest_eq_ok.mp hframe
  have hwhole : [frame].flatten = frame := by simp
  obtain ⟨-, credential, hdecoded, hkept⟩ := hlaw.roundTrip c hc [frame] hwhole
  have hbytes := secret_of_decodeRequest hc hframe hdecoded
  rw [if_pos hmark] at hbytes
  have hlength : (secret.drop 3).length = secret.length :=
    congrArg List.length (hbytes.symm.trans hkept)
  have hthree : (secret.take 3).length = 3 := congrArg List.length hmark
  rw [List.length_drop] at hlength
  rw [List.length_take] at hthree
  omega

/-- **The frames keep what they carry**, for every secret that starts with no
byte order mark and for no other. -/
theorem framingLaw_iff (number : String → JsNumber) {challenge : String}
    {secret frame : List UInt8} (hframe : encodeRequest challenge secret = .ok frame) :
    FramingLaw number challenge secret frame ↔ secret.take 3 ≠ byteOrderMark := by
  refine ⟨fun hlaw hmark => not_framingLaw_of_mark hframe hmark hlaw, fun hmark => ?_⟩
  refine ⟨fun c hc chunks hchunks => ?_, fun _ => exists_settled,
    fun _ _ _ _ => refuses_of_not_carriesOne, fun _ => decodeResponse_of_formed,
    fun _ hv _ hother _ => decodeResponse_foreign hv hother⟩
  obtain ⟨-, hsecret, rfl⟩ := encodeRequest_eq_ok.mp hframe
  obtain ⟨-, hlength, text, htext, hnul⟩ := exactSecretBytes_eq_ok.mp hsecret
  obtain ⟨hlengths, htoken, hlong⟩ := bounded_of_encoded hc hsecret
  refine ⟨readRequest_chunks hlengths htoken hlong hchunks, ⟨text, .directorDecision⟩, ?_, ?_⟩
  · have hbytes := utf8Bytes_of_decodeText htext
    rw [if_neg hmark] at hbytes
    have hvalid : validateAuthoritySecret text = .ok text := by
      simp only [validateAuthoritySecret, bind_eq_ok, failIf_eq_ok, exists_unit, pure_eq_ok,
        byteLength, hbytes, and_true]
      exact fun hout => hlength (by tauto)
    rw [decodeRequest_encoded hc hsecret htext hnul,
      receiveAuthorityCredential_eq_ok.mpr ⟨hvalid, rfl⟩]
    rfl
  · have hbytes := utf8Bytes_of_decodeText htext
    rwa [if_neg hmark] at hbytes

/-- A secret that decodes into its own bytes. -/
theorem framingLaw_sample : FramingLaw (fun _ => .integer 0) Sample.token Sample.secret
    (requestFrame (asciiBytes Sample.token) Sample.secret) := by
  have hframe : encodeRequest Sample.token Sample.secret
      = .ok (requestFrame (asciiBytes Sample.token) Sample.secret) := by
    decide +kernel
  exact (framingLaw_iff _ hframe).mpr (by decide)

/-- **A secret behind a byte order mark**: its thirty-five bytes are accepted,
and the credential keeps thirty-two of them. -/
theorem not_framingLaw_marked : ∃ frame,
    encodeRequest Sample.token (byteOrderMark ++ Sample.secret) = .ok frame
      ∧ decodeRequest frame "00000000-0000-0000-0000-000000000000" = .ok (some Sample.request)
      ∧ utf8Bytes Sample.request.authorityCredential.secret = Sample.secret
      ∧ ¬ FramingLaw (fun _ => .integer 0) Sample.token (byteOrderMark ++ Sample.secret) frame := by
  have hframe : encodeRequest Sample.token (byteOrderMark ++ Sample.secret)
      = .ok (requestFrame (asciiBytes Sample.token) (byteOrderMark ++ Sample.secret)) := by
    decide +kernel
  exact ⟨_, hframe, by decide +kernel, by decide +kernel, not_framingLaw_of_mark hframe rfl⟩

end Authorization
