import Lifecycle.AskingPrograms
import Lifecycle.AuthorizationFrames

/-!
# The authorization channel of one invocation

The server of one invocation's private socket, the clients that send it an
authority secret and any other peers, as programs that ask
(`startFoundationInvocationPrivateAuthorizationChannelServerV1`,
`sendFoundationInvocationPrivateAuthorizationV1`). What runs without an
`await` in between is one question: the connection callback up to its first
`await`, the start of the handler, the `finally` block of a task, `close`.
Between any two questions of a program the others go on.

The transport delivers what was written in any pieces and may stop at any
point: a socket may end, fail, time out or close behind any prefix. A socket
that nobody accepts is one whose server has gone.

Which program dialled a socket and which accepted it, the calls of the
handler and the reports of the clients are kept for the statements.
-/

open Fallible Json Asking

namespace Authorization

/-! ## Reading from a socket -/

/-- **What a listener on a socket hears.** -/
inductive SocketEvent
  | data (chunk : List UInt8)
  | ended
  | failed
  | timedOut
  | closed

def SocketEvent.bytes : SocketEvent → List UInt8
  | data chunk => chunk
  | _ => []

/-- The bytes that arrive with some events. -/
def delivered (events : List SocketEvent) : List UInt8 := events.flatMap SocketEvent.bytes

/-- **`readRequest`**, before and after its promise is settled. -/
inductive RequestReading
  | reading (retained : List UInt8) (expectedLength : Option Nat)
  | settled (frame : Option (List UInt8))
deriving DecidableEq

/-- `expectedLength` with some bytes retained: nothing where the header is
refused. -/
def expectedAfter (expectedLength : Option Nat) (retained : List UInt8) : Option (Option Nat) :=
  if expectedLength = none ∧ requestHeaderBytes ≤ retained.length then
    if retained.take 4 ≠ requestMagic
        ∨ lengthsRefused (readUInt16BE retained 4) (readUInt16BE retained 6) then none
    else some (some (requestHeaderBytes + readUInt16BE retained 4 + readUInt16BE retained 6))
  else some expectedLength

/-- `onData`. -/
def RequestReading.data (retained : List UInt8) (expectedLength : Option Nat)
    (chunk : List UInt8) : RequestReading :=
  if requestMaximumBytes + 1 < retained.length + chunk.length then settled none
  else
    match expectedAfter expectedLength (retained ++ chunk) with
    | none => settled none
    | some expected =>
      if expected.any (fun n => decide (n < (retained ++ chunk).length)) then settled none
      else reading (retained ++ chunk) expected

/-- The listeners of `readRequest`. -/
def RequestReading.hear : RequestReading → SocketEvent → RequestReading
  | settled frame, _ => settled frame
  | reading retained expected, .data chunk => data retained expected chunk
  | reading retained expected, .ended =>
    settled (if expected = some retained.length then some retained else none)
  | reading _ _, .failed => settled none
  | reading _ _, .timedOut => settled none
  | reading retained expected, .closed => reading retained expected

def readRequest (events : List SocketEvent) : RequestReading :=
  events.foldl RequestReading.hear (.reading [] none)

/-- What a program of the channel throws: an error of the channel, or
anything else. -/
abbrev Thrown := Option ChannelError

/-- **`readAuthorizationResponse`**, before and after its promise is
settled. -/
inductive ResponseReading
  | reading (chunks : List UInt8)
  | settled (response : Except Thrown (List UInt8))
deriving DecidableEq

def responseExceedsBound : ChannelError :=
  channelError "runtime.authorization-channel-response"
    "The authorization invocation response exceeds its bound" true

/-- The listeners of `readAuthorizationResponse`. -/
def ResponseReading.hear : ResponseReading → SocketEvent → ResponseReading
  | settled response, _ => settled response
  | reading chunks, .data chunk =>
    if responseHeaderBytes + responseMaximumBytes < chunks.length + chunk.length then
      settled (.error (some responseExceedsBound))
    else reading (chunks ++ chunk)
  | reading chunks, .ended => settled (.ok chunks)
  | reading _, .failed => settled (.error none)
  | reading _, .closed => settled (.error none)
  | reading chunks, .timedOut => reading chunks

def readAuthorizationResponse (events : List SocketEvent) : ResponseReading :=
  events.foldl ResponseReading.hear (.reading [])

/-! ## The custody of the socket -/

/-- What `lstat` tells of a file. -/
structure FileStatus where
  isDirectory : Bool
  isSocket : Bool
  isSymbolicLink : Bool
  mode : Nat
  uid : Nat
  dev : Nat
  ino : Nat

structure SocketIdentity where
  device : Nat
  inode : Nat
deriving DecidableEq

def exactPrivateDirectory (currentUid : Option Nat) (status : Option FileStatus) :
    Except ChannelError Unit := do
  let status ← orFail status (channelError "runtime.authorization-channel-unavailable"
    "Invocation-private authorization socket custody is unavailable")
  failIf (status.isDirectory = false ∨ status.isSymbolicLink = true ∨ status.mode % 512 ≠ 448
      ∨ ∃ uid ∈ currentUid, status.uid ≠ uid)
    (channelError "runtime.authorization-channel-unavailable"
      "Invocation-private authorization socket custody is not owner-private")

def exactPrivateSocket (currentUid : Option Nat) (status : Option FileStatus) :
    Except ChannelError SocketIdentity := do
  let status ← orFail status (channelError "runtime.authorization-invocation-unavailable"
    "The selected authorization invocation is unavailable" true)
  failIf (status.isSocket = false ∨ status.isSymbolicLink = true ∨ status.mode % 512 ≠ 384
      ∨ ∃ uid ∈ currentUid, status.uid ≠ uid)
    (channelError "runtime.authorization-invocation-unavailable"
      "The selected authorization invocation is not owner-private" true)
  return ⟨status.dev, status.ino⟩

/-! ## Questions -/

/-- How a task enters: the socket it serves, and whether it is the active
one. -/
structure Entered where
  socket : Nat
  admitted : Bool

/-- **What the programs of a channel ask.** -/
inductive ChannelCall
  | enter
  | readRequest (socket : Nat)
  | start (socket : Nat) (request : ChannelRequest)
  | handled (socket : Nat)
  | responseStarted (socket : Nat)
  | handlerStarted
  | endWith (socket : Nat) (response : List UInt8) (beforeWrite : Bool)
  | written (socket : Nat)
  | destroy (socket : Nat)
  | leave (socket : Nat)
  | close
  | aborted
  | lstat (path : String)
  | createConnection
  | connected (socket : Nat)
  | submit (socket : Nat) (bytes : List UInt8)
  | response (socket : Nat)
  | report (socket : Option Nat) (challenge : String) (outcome : Except Thrown HandoffResult)

/-- The answers. A handler that throws returns no value; `endWith` tells
whether the socket was still there. -/
abbrev ChannelAnswer : ChannelCall → Type
  | .enter => Entered
  | .readRequest _ => Option (List UInt8)
  | .handled _ => Option Json
  | .responseStarted _ | .handlerStarted | .endWith _ _ _ | .written _ | .aborted | .connected _ =>
    Bool
  | .lstat _ => Option FileStatus
  | .createConnection => Nat
  | .response _ => Except Thrown (List UInt8)
  | .start _ _ | .destroy _ | .leave _ | .close | .submit _ _ | .report _ _ _ => Unit

abbrev ChannelProgram := Asking ChannelCall ChannelAnswer Thrown

/-- Asks one question. -/
def ask (q : ChannelCall) : ChannelProgram (ChannelAnswer q) := question q

/-- A part that asks nothing and may throw an error of the channel. -/
def checked {α : Type} (x : Except ChannelError α) : ChannelProgram α :=
  Asking.lift (x.mapError some)

/-- The outcome of a program as a value. -/
def attempt {α : Type} (c : ChannelProgram α) : ChannelProgram (Except Thrown α) :=
  (Except.ok <$> c).rescue fun e => pure (.error e)

/-! ## The server -/

/-- **`writeResponse`.** -/
def writeResponse (socket : Nat) (value : HandoffResponse) (beforeWrite : Bool) :
    ChannelProgram Unit := do
  let writing : Bool ← ask (.endWith socket (encodeResponse value) beforeWrite)
  if writing = true then do
    let written : Bool ← ask (.written socket)
    Asking.lift (failIf (written = false) none)
  else pure ()

/-- `respond`, of the task of the active socket. -/
def respond (socket : Nat) (value : HandoffResponse) : ChannelProgram Unit :=
  writeResponse socket value true

/-- The request in what `readRequest` returned. -/
def requestIn (frame : Option (List UInt8)) (invocationId : String) :
    Except ChannelError (Option ChannelRequest) :=
  match frame with
  | none => .ok none
  | some frame => (decodeRequest frame invocationId).mapError fun e => { error := e }

/-- The value of a handler, which may have thrown. -/
def resultOf (value : Option Json) : Except Thrown HandoffResult :=
  (orFail value none).bind fun v => (createAuthorizationHandoffResult v).mapError some

/-- The handler and its answer. -/
def handle (invocationId : String) (socket : Nat) (request : ChannelRequest) :
    ChannelProgram Unit := do
  ask (.start socket request)
  let value ← ask (.handled socket)
  let result ← Asking.lift (resultOf value)
  if result.invocationId ≠ invocationId then respond socket (.unavailable invocationId)
  else respond socket (.result result)

/-- The `try` block of a task. -/
def attend (invocationId : String) (socket : Nat) : ChannelProgram Unit := do
  let requestFrame ← ask (.readRequest socket)
  let request ← checked (requestIn requestFrame invocationId)
  match request with
  | none => respond socket (.refusal invocationId)
  | some request => handle invocationId socket request

/-- The `catch` block of a task. -/
def excuse (invocationId : String) (socket : Nat) : ChannelProgram Unit := do
  let responseStarted : Bool ← ask (.responseStarted socket)
  if responseStarted = true then pure ()
  else do
    let handlerStarted : Bool ← ask .handlerStarted
    (respond socket (if handlerStarted = true then .unavailable invocationId
      else .refusal invocationId)).rescue fun _ => pure ()

/-- What a socket gets that comes while another is served, or while the
channel closes. -/
def reject (invocationId : String) (socket : Nat) : ChannelProgram Unit := do
  let _ ← ask (.readRequest socket)
  writeResponse socket (.refusal invocationId) false

/-- **The connection callback of the server.** -/
def serveConnection (invocationId : String) : ChannelProgram Unit := do
  let entered ← ask .enter
  if entered.admitted = true then do
    (attend invocationId entered.socket).rescue fun _ => excuse invocationId entered.socket
    ask (.leave entered.socket)
  else do
    (reject invocationId entered.socket).rescue fun _ => pure ()
    ask (.destroy entered.socket)

/-- `close`, as far as its effect on the sockets goes: what follows removes
the socket's file. -/
def closeServer : ChannelProgram Unit := ask .close

/-! ## The client -/

/-- **The input of a client.** The address is what
`foundationInvocationPrivateAuthorizationSocketPathV1` makes of the
invocation and the socket root. -/
structure SendInput where
  challenge : String
  authoritySecret : List UInt8
  socketRoot : String
  socketPath : String → Except FoundationError String
  currentUid : Option Nat

def interruptedBefore : ChannelError :=
  channelError "runtime.interrupted" "Lifecycle was interrupted before authorization started" true

def invocationUnavailable : ChannelError :=
  channelError "runtime.authorization-invocation-unavailable"
    "The selected authorization invocation is unavailable" true

/-- What a client holds before it connects. -/
structure Prepared where
  challenge : Challenge
  socketPath : String
  socketIdentity : SocketIdentity
  request : List UInt8

/-- `resolveInvocationPrivateAuthorizationAvailability`, and the request. -/
def prepare (input : SendInput) : ChannelProgram Prepared := do
  let aborted : Bool ← ask .aborted
  checked (failIf (aborted = true) interruptedBefore)
  let challenge ← checked
    (orFail (parseInvocationPrivateAuthorizationChallenge input.challenge) challengeInvalid)
  let socketPath ← checked
    ((input.socketPath challenge.invocationId).mapError fun e => { error := e })
  let directory ← ask (.lstat input.socketRoot)
  checked (exactPrivateDirectory input.currentUid directory)
  let status ← ask (.lstat socketPath)
  let identity ← checked (exactPrivateSocket input.currentUid status)
  let request ← checked (encodeRequest challenge.token input.authoritySecret)
  pure ⟨challenge, socketPath, identity, request⟩

/-- The `catch` block of a client, `submissionMayHaveStarted` or not. -/
def caught {α : Type} (invocationId : String) (submissionMayHaveStarted : Bool) (error : Thrown) :
    ChannelProgram α :=
  if submissionMayHaveStarted = true then
    if error.any (·.noHandlerRefusal) = true then Asking.fail error
    else Asking.fail (some (observationUnavailable invocationId))
  else do
    let aborted : Bool ← ask .aborted
    if aborted = true then
      Asking.fail (some
        (channelError "runtime.interrupted" "Lifecycle authorization was interrupted" true))
    else Asking.fail (some (error.getD invocationUnavailable))

/-- The `try` block of a client before anything is submitted. -/
def reach (input : SendInput) (p : Prepared) (socket : Nat) : ChannelProgram Unit := do
  let connected : Bool ← ask (.connected socket)
  Asking.lift (failIf (connected = false) none)
  let status ← ask (.lstat p.socketPath)
  let after ← checked (exactPrivateSocket input.currentUid status)
  checked (failIf (p.socketIdentity ≠ after)
    (channelError "runtime.authorization-invocation-unavailable"
      "The selected authorization invocation changed during connection" true))
  let aborted : Bool ← ask .aborted
  checked (failIf (aborted = true) interruptedBefore)

/-- The `try` block of a client from the submission on. -/
def exchange (number : String → JsNumber) (p : Prepared) (socket : Nat) :
    ChannelProgram HandoffResult := do
  ask (.submit socket p.request)
  let response ← ask (.response socket)
  let frame ← Asking.lift response
  checked (decodeResponse number frame p.challenge.invocationId)

/-- A client once it holds a socket. -/
def converse (number : String → JsNumber) (input : SendInput) (p : Prepared) (socket : Nat) :
    ChannelProgram HandoffResult := do
  (reach input p socket).rescue (caught p.challenge.invocationId false)
  (exchange number p socket).rescue (caught p.challenge.invocationId true)

/-- **`sendFoundationInvocationPrivateAuthorizationV1`.** -/
def sendAuthorization (number : String → JsNumber) (input : SendInput) :
    ChannelProgram HandoffResult := do
  let p ← prepare input
  let socket ← ask .createConnection
  converse number input p socket

/-- What a client does with what it holds, and its report. -/
def connectAndReport (number : String → JsNumber) (input : SendInput) :
    Except Thrown Prepared → ChannelProgram Unit
  | .error e => ask (.report none input.challenge (.error e))
  | .ok p => do
    let socket ← ask .createConnection
    let outcome ← attempt (converse number input p socket)
    ask (.report (some socket) input.challenge outcome)

/-- **A client that reports what it returned or threw**, and on which socket
it did. -/
def authorizationClient (number : String → JsNumber) (input : SendInput) :
    ChannelProgram Unit := do
  let prepared ← attempt (prepare input)
  connectAndReport number input prepared

/-- **Any other peer**, a liveness probe among them: it connects, writes what
it likes and reads what it likes. -/
def otherPeer (chunks : List (List UInt8)) : ChannelProgram Unit := do
  let socket ← ask .createConnection
  chunks.forM fun chunk => ask (.submit socket chunk)

/-! ## The channel -/

/-- **One socket**: the program that dialled it and what it wrote, the task
that serves it, what the task wrote, and the variables of the task. -/
structure Socket where
  peer : Nat
  inbound : List UInt8 := []
  task : Option Nat := none
  responseStarted : Bool := false
  outbound : List UInt8 := []
  destroyed : Bool := false

/-- **A call of the handler**: its outcome once there is one, a value unless
it threw. -/
structure HandlerCall where
  socket : Nat
  request : ChannelRequest
  outcome : Option (Option Json)

/-- **What a client reported.** -/
structure Report where
  socket : Option Nat
  challenge : String
  outcome : Except Thrown HandoffResult

/-- **The variables of the server**, the sockets, the calls of the handler
and the reports of the clients. -/
structure Channel where
  busy : Bool
  closing : Bool
  activeSocket : Option Nat
  handlerStarted : Bool
  sockets : List Socket
  calls : List HandlerCall
  reports : List Report

namespace Channel

/-- A server that listens. -/
def listening : Channel := ⟨false, false, none, false, [], [], []⟩

/-- A change of one socket. -/
def modify (s : Channel) (k : Nat) (f : Socket → Socket) : Channel :=
  { s with sockets := s.sockets.modify k f }

/-- The connection callback up to its first `await`. -/
def enter (s : Channel) (author k : Nat) : Channel :=
  if s.closing = true ∨ s.busy = true then s.modify k fun a => { a with task := some author }
  else { s.modify k fun a => { a with task := some author } with
    busy := true, activeSocket := some k }

/-- The handler is called. -/
def start (s : Channel) (k : Nat) (request : ChannelRequest) : Channel :=
  { s with handlerStarted := true, calls := s.calls ++ [⟨k, request, none⟩] }

/-- The handler returns or throws. -/
def handled (s : Channel) (k : Nat) (value : Option Json) : Channel :=
  { s with calls := s.calls.map fun c =>
      if c.socket = k then { c with outcome := some value } else c }

/-- The `finally` block of a task. -/
def leave (s : Channel) (k : Nat) : Channel :=
  { s.modify k fun a => { a with destroyed := true } with
    busy := false, activeSocket := none, handlerStarted := false }

/-- `close`. -/
def close (s : Channel) : Channel :=
  if s.handlerStarted = true then { s with closing := true }
  else
    match s.activeSocket with
    | none => { s with closing := true }
    | some k => { s.modify k fun a => { a with destroyed := true } with closing := true }

end Channel

/-- **How the questions of a program are answered.** -/
inductive Serve (author : Nat) : (q : ChannelCall) → Channel → ChannelAnswer q → Channel → Prop
  | enter {s : Channel} {k : Nat} {a : Socket} : s.sockets[k]? = some a → a.task = none →
      Serve author .enter s ⟨k, !(s.closing || s.busy)⟩ (s.enter author k)
  | readRequest {s : Channel} {k : Nat} {a : Socket} {events : List SocketEvent}
      {frame : Option (List UInt8)} : s.sockets[k]? = some a → delivered events <+: a.inbound →
      readRequest events = .settled frame → Serve author (.readRequest k) s frame s
  | start {s : Channel} {k : Nat} {request : ChannelRequest} :
      Serve author (.start k request) s () (s.start k request)
  | handled {s : Channel} {k : Nat} {value : Option Json} :
      Serve author (.handled k) s value (s.handled k value)
  | responseStarted {s : Channel} {k : Nat} {a : Socket} : s.sockets[k]? = some a →
      Serve author (.responseStarted k) s a.responseStarted s
  | handlerStarted {s : Channel} : Serve author .handlerStarted s s.handlerStarted s
  | ended {s : Channel} {k : Nat} {response : List UInt8} {beforeWrite : Bool} {a : Socket} :
      s.sockets[k]? = some a → a.destroyed = false →
      Serve author (.endWith k response beforeWrite) s true (s.modify k fun a =>
        { a with outbound := response, responseStarted := a.responseStarted || beforeWrite })
  | gone {s : Channel} {k : Nat} {response : List UInt8} {beforeWrite : Bool} :
      Serve author (.endWith k response beforeWrite) s false s
  | written {s : Channel} {k : Nat} {ok : Bool} : Serve author (.written k) s ok s
  | destroy {s : Channel} {k : Nat} : Serve author (.destroy k) s ()
      (s.modify k fun a => { a with destroyed := true })
  | leave {s : Channel} {k : Nat} : Serve author (.leave k) s () (s.leave k)
  | close {s : Channel} : Serve author .close s () s.close
  | aborted {s : Channel} {aborted : Bool} : Serve author .aborted s aborted s
  | lstat {s : Channel} {path : String} {status : Option FileStatus} :
      Serve author (.lstat path) s status s
  | createConnection {s : Channel} : Serve author .createConnection s s.sockets.length
      { s with sockets := s.sockets ++ [{ peer := author }] }
  | connected {s : Channel} {k : Nat} {ok : Bool} : Serve author (.connected k) s ok s
  | submit {s : Channel} {k : Nat} {bytes : List UInt8} : Serve author (.submit k bytes) s ()
      (s.modify k fun a => { a with inbound := a.inbound ++ bytes })
  | response {s : Channel} {k : Nat} {a : Socket} {events : List SocketEvent}
      {response : Except Thrown (List UInt8)} : s.sockets[k]? = some a →
      delivered events <+: a.outbound → readAuthorizationResponse events = .settled response →
      Serve author (.response k) s response s
  | report {s : Channel} {socket : Option Nat} {challenge : String}
      {outcome : Except Thrown HandoffResult} : Serve author (.report socket challenge outcome) s ()
      { s with reports := s.reports ++ [⟨socket, challenge, outcome⟩] }

/-- **The programs of a channel**: tasks of the server, calls of `close`,
clients and any other peers. -/
def MayJoin (number : String → JsNumber) (invocationId : String) (c : ChannelProgram Unit) : Prop :=
  c = serveConnection invocationId ∨ c = closeServer
    ∨ (∃ input, c = authorizationClient number input) ∨ ∃ chunks, c = otherPeer chunks

/-- **The channel of one invocation**, with any number of peers. -/
def authorizationChannel (number : String → JsNumber) (invocationId : String) :
    TransitionSystem (Pool ChannelCall ChannelAnswer Thrown Channel) (Option (Nat × ChannelCall)) :=
  Pool.system Serve (fun _ => MayJoin number invocationId) (· = Channel.listening)

end Authorization
