import Lightstreamer.Protocol.Escaping
import Lightstreamer.Protocol.Request

/-!
# Parsing of the lines the server sends

Notifications and request responses share one syntax, `<tag>,<argument1>,...,<argumentN>`, and one
entry point, `parseLine`: strip one line terminator, split at the first comma, and let the tag
decide how many arguments follow; the last one keeps any further commas. Text arguments are
percent-decoded, except the value list of a `U`, which `ItemState.apply` decodes later.
-/

namespace Lightstreamer.Protocol

/-- The maximum update frequency reported by a `CONF`. -/
inductive MaxFrequency
  | limited (updatesPerSecond : String)
  | unlimited
  | unrecognized (literal : String)
  deriving DecidableEq

/-- Whether a subscription's updates may be filtered. -/
inductive FilteringMode
  | filtered
  | unfiltered
  | unrecognized (literal : String)
  deriving DecidableEq

/-- The session bandwidth constraint reported by a `CONS`. -/
inductive Bandwidth
  | limited (kbps : String)
  | unlimited
  | unmanaged
  | unrecognized (literal : String)
  deriving DecidableEq

/-- The sequence a message was sent in, as echoed by `MSGDONE` and `MSGFAIL`. -/
inductive MessageSequence
  | unspecified
  | named (name : String)
  deriving DecidableEq

/-- One line received from the server, parsed: one constructor for each wire tag. -/
inductive Notification
  | update (subscriptionId itemIndex : ℕ) (rawValues : String)
  | subscriptionOk (subscriptionId itemCount fieldCount : ℕ)
  | subscriptionCommandOk (subscriptionId itemCount fieldCount keyFieldIndex commandFieldIndex : ℕ)
  | unsubscribed (subscriptionId : ℕ)
  | endOfSnapshot (subscriptionId itemIndex : ℕ)
  | clearSnapshot (subscriptionId itemIndex : ℕ)
  | overflow (subscriptionId itemIndex droppedCount : ℕ)
  | subscriptionReconfigured (subscriptionId : ℕ) (maxFrequency : MaxFrequency)
      (filtering : FilteringMode)
  | messageDone (sequence : MessageSequence) (prog : ℕ) (response : String)
  | messageFailed (sequence : MessageSequence) (prog : ℕ) (code : ℤ) (message : String)
  | constraintsChanged (bandwidth : Bandwidth)
  | sync (elapsedSeconds : ℕ)
  | clientIp (address : String)
  | serverName (name : String)
  | progressive (progressive : ℕ)
  | noOp (preamble : String)
  | probe
  | loop (expectedDelayMillis : ℕ)
  | «end» (causeCode : ℤ) (causeMessage : String)
  | connectionOk (sessionId : String) (requestLimitBytes keepAliveMillis : ℕ)
      (controlLink : Option String)
  | connectionError (code : ℤ) (message : String)
  | requestOk (requestId : Option String)
  | requestError (requestId : String) (code : ℤ) (message : String)
  | error (code : ℤ) (message : String)
  | wsOk
  deriving DecidableEq

/-- Remove at most one trailing line terminator. -/
def stripTerminator (line : List Char) : List Char :=
  match line.reverse with
  | '\n' :: '\r' :: rest => rest.reverse
  | '\n' :: rest => rest.reverse
  | '\r' :: rest => rest.reverse
  | _ => line

/-- Split the part of the line after the tag into exactly `n` arguments. -/
def splitFixed (n : ℕ) (tag : String) (rest : Option (List Char)) :
    Except ProtocolError (Fin n → List Char) :=
  match rest with
  | none => if h : n = 0 then .ok fun i => (h ▸ i).elim0 else .error (.argumentCount tag n 0)
  | some rest =>
    if n = 0 then .error (.argumentCount tag 0 (rest.splitOn ',').length)
    else
      let parts := splitN ',' n rest
      if h : parts.length = n then .ok fun i => parts[i]
      else .error (.argumentCount tag n parts.length)

/-- Percent-decode one argument. -/
def decode (argument : List Char) : Except ProtocolError String :=
  percentDecode (String.ofList argument)

/-- Parse an argument the protocol types as an unsigned number. -/
def number (max : ℕ) (tag argument : String) (value : List Char) : Except ProtocolError ℕ :=
  match parseUnsigned max value with
  | some n => .ok n
  | none => .error (.notNumeric tag argument (String.ofList value))

/-- Parse an argument the protocol types as a signed code. -/
def signedNumber (tag argument : String) (value : List Char) : Except ProtocolError ℤ :=
  match parseI64 value with
  | some n => .ok n
  | none => .error (.notNumeric tag argument (String.ofList value))

/-- Whether a `CONF` or `CONS` argument is the decimal alternative. -/
def isDecimalNumber (argument : String) : Bool := (DecimalNumber.tryNew argument).isOk

def parseMaxFrequency (argument : String) : MaxFrequency :=
  if argument = "unlimited" then .unlimited
  else if isDecimalNumber argument then .limited argument
  else .unrecognized argument

def parseBandwidth (argument : String) : Bandwidth :=
  if argument = "unlimited" then .unlimited
  else if argument = "unmanaged" then .unmanaged
  else if isDecimalNumber argument then .limited argument
  else .unrecognized argument

def parseFiltering (argument : String) : FilteringMode :=
  if argument = "filtered" then .filtered
  else if argument = "unfiltered" then .unfiltered
  else .unrecognized argument

def parseSequence (argument : String) : MessageSequence :=
  if argument = "*" then .unspecified else .named argument

/-- Parse one line of the TLCP response and notification syntax. -/
def parseLine (line : String) : Except ProtocolError Notification :=
  let line := stripTerminator line.toList
  let (tag, rest) := match splitOnce ',' line with
    | some (tag, rest) => (String.ofList tag, some rest)
    | none => (String.ofList line, none)
  match tag with
  | "U" => do
    let args ← splitFixed 3 tag rest
    return .update (← number u32Max tag "subscription-ID" (args 0))
      (← number u32Max tag "item" (args 1)) (String.ofList (args 2))
  | "SUBOK" => do
    let args ← splitFixed 3 tag rest
    return .subscriptionOk (← number u32Max tag "subscription-ID" (args 0))
      (← number u32Max tag "num-items" (args 1)) (← number u32Max tag "num-fields" (args 2))
  | "SUBCMD" => do
    let args ← splitFixed 5 tag rest
    return .subscriptionCommandOk (← number u32Max tag "subscription-ID" (args 0))
      (← number u32Max tag "num-items" (args 1)) (← number u32Max tag "num-fields" (args 2))
      (← number u32Max tag "key-field" (args 3)) (← number u32Max tag "command-field" (args 4))
  | "UNSUB" => do
    let args ← splitFixed 1 tag rest
    return .unsubscribed (← number u32Max tag "subscription-ID" (args 0))
  | "EOS" => do
    let args ← splitFixed 2 tag rest
    return .endOfSnapshot (← number u32Max tag "subscription-ID" (args 0))
      (← number u32Max tag "item" (args 1))
  | "CS" => do
    let args ← splitFixed 2 tag rest
    return .clearSnapshot (← number u32Max tag "subscription-ID" (args 0))
      (← number u32Max tag "item" (args 1))
  | "OV" => do
    let args ← splitFixed 3 tag rest
    return .overflow (← number u32Max tag "subscription-ID" (args 0))
      (← number u32Max tag "item" (args 1)) (← number u64Max tag "overflow-size" (args 2))
  | "CONF" => do
    let args ← splitFixed 3 tag rest
    return .subscriptionReconfigured (← number u32Max tag "subscription-ID" (args 0))
      (parseMaxFrequency (← decode (args 1))) (parseFiltering (← decode (args 2)))
  | "MSGDONE" => do
    let args ← splitFixed 3 tag rest
    return .messageDone (parseSequence (← decode (args 0)))
      (← number u64Max tag "prog" (args 1)) (← decode (args 2))
  | "MSGFAIL" => do
    let args ← splitFixed 4 tag rest
    return .messageFailed (parseSequence (← decode (args 0)))
      (← number u64Max tag "prog" (args 1)) (← signedNumber tag "error-code" (args 2))
      (← decode (args 3))
  | "CONS" => do
    let args ← splitFixed 1 tag rest
    return .constraintsChanged (parseBandwidth (← decode (args 0)))
  | "SYNC" => do
    let args ← splitFixed 1 tag rest
    return .sync (← number u64Max tag "seconds-since-initial-header" (args 0))
  | "CLIENTIP" => do
    let args ← splitFixed 1 tag rest
    return .clientIp (← decode (args 0))
  | "SERVNAME" => do
    let args ← splitFixed 1 tag rest
    return .serverName (← decode (args 0))
  | "PROG" => do
    let args ← splitFixed 1 tag rest
    return .progressive (← number u64Max tag "progressive" (args 0))
  | "NOOP" => do
    let args ← splitFixed 1 tag rest
    return .noOp (← decode (args 0))
  | "PROBE" => do
    let _ ← splitFixed 0 tag rest
    return .probe
  | "LOOP" => do
    let args ← splitFixed 1 tag rest
    return .loop (← number u64Max tag "expected-delay" (args 0))
  | "END" => do
    let args ← splitFixed 2 tag rest
    return .end (← signedNumber tag "cause-code" (args 0)) (← decode (args 1))
  | "CONOK" => do
    let args ← splitFixed 4 tag rest
    let controlLink ← decode (args 3)
    return .connectionOk (← decode (args 0)) (← number u64Max tag "request-limit" (args 1))
      (← number u64Max tag "keep-alive" (args 2))
      (if controlLink = "*" then none else some controlLink)
  | "CONERR" => do
    let args ← splitFixed 2 tag rest
    return .connectionError (← signedNumber tag "error-code" (args 0)) (← decode (args 1))
  | "REQOK" =>
    match rest with
    | none => .ok (.requestOk none)
    | some _ => do
      let args ← splitFixed 1 tag rest
      return .requestOk (some (← decode (args 0)))
  | "REQERR" => do
    let args ← splitFixed 3 tag rest
    return .requestError (← decode (args 0)) (← signedNumber tag "error-code" (args 1))
      (← decode (args 2))
  | "ERROR" => do
    let args ← splitFixed 2 tag rest
    return .error (← signedNumber tag "error-code" (args 0)) (← decode (args 1))
  | "WSOK" => do
    let _ ← splitFixed 0 tag rest
    return .wsOk
  | _ => .error (.unknownTag tag (String.ofList line))

end Lightstreamer.Protocol
