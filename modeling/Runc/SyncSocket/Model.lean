import Runc.Lib.Channel
import Runc.Lib.JsonDecode

/-!
# The messages of the sync socket

`doWriteSync` puts a message on a sequenced-packet socket: a packet with its JSON text
and, if a file is attached, one with its name and descriptor. `doReadSync` takes the
packets of one message from the other end.

Of the kernel the model has the packets, in order, and the answers to the two system calls
of a write.  The reads of the other end only fail at the end of the stream.
-/

namespace Runc.SyncSocket

open Lib

structure File where
  name : Text
  description : Nat
deriving DecidableEq

/-- The text of the argument is kept as the value it stands for. -/
structure SyncT where
  type : Text
  flags : BitVec 64
  arg : Option Json
  file : Option File

def procError : Text :=
  "procError".toList

def syncFlagHasFd : BitVec 64 :=
  1

structure InitError where
  message : Text

structure Packet where
  data : Text
  rights : Option Nat
deriving DecidableEq

structure Answers where
  write : Option Text
  sendmsg : Option Text

inductive WriteErr
  | marshal (type err : Text)
  | writing (type err : Text)
  | sending (type err : Text)

def WriteErr.error (unicode : Unicode) : WriteErr → Text
  | .marshal type err => "marshal sync ".toList ++ type ++ ": ".toList ++ err
  | .writing type err => "writing sync ".toList ++ type ++ ": ".toList ++ err
  | .sending type err =>
      "sending file after sync ".toList ++ quote unicode type ++ ": ".toList ++ err

def SyncT.withFlag (sync : SyncT) : SyncT :=
  match sync.file with
  | none => { sync with flags := sync.flags &&& ~~~syncFlagHasFd }
  | some _ => { sync with flags := (sync.flags &&& ~~~syncFlagHasFd) ||| syncFlagHasFd }

def argMember : Option Json → Members
  | none => .nil
  | some v => .cons "arg".toList v .nil

def SyncT.value (sync : SyncT) : Json :=
  .obj (.cons "type".toList (.str sync.type)
    (.cons "flags".toList (.num (intLiteral sync.flags.toInt)) (argMember sync.arg)))

def InitError.value (err : InitError) : Json :=
  .obj (if err.message = [] then .nil else .cons "message".toList (.str err.message) .nil)

def argDepth : Option Json → Nat
  | none => 0
  | some v => v.depth

/-- `json.Marshal` of a message.  The text of the argument is gone through on its own. -/
def SyncT.marshal (sync : SyncT) : Except Text Text :=
  if argDepth sync.arg ≤ maxNestingDepth then .ok sync.value.render
  else
    .error "json: error calling MarshalJSON for type *json.RawMessage: exceeded max depth".toList

def maxNameLen : Nat :=
  4096

/-- A descriptor is never sent without a byte of data. -/
def sendRawFd (answer : Option Text) (msg : Text) (fd : Nat) : List Packet × Except Text Unit :=
  match answer with
  | some err => ([], .error ("sendmsg: ".toList ++ err))
  | none => ([⟨if msg = [] then ['\x00'] else msg, some fd⟩], .ok ())

def sendFile (answer : Option Text) (file : File) : List Packet × Except Text Unit :=
  if maxNameLen ≤ file.name.length then
    ([], .error ("sendfd: filename too long: ".toList ++ file.name))
  else sendRawFd answer file.name file.description

def sendAttached (answer : Option Text) (type : Text) :
    Option File → List Packet × Except WriteErr Unit
  | none => ([], .ok ())
  | some file =>
      match sendFile answer file with
      | (packets, .ok ()) => (packets, .ok ())
      | (packets, .error err) => (packets, .error (.sending type err))

/-- The packets it puts on the socket, and how it ends. -/
def doWriteSync (answers : Answers) (sync : SyncT) : List Packet × Except WriteErr Unit :=
  match sync.withFlag.marshal with
  | .error err => ([], .error (.marshal sync.type err))
  | .ok data =>
      match answers.write with
      | some err => ([], .error (.writing sync.type err))
      | none =>
          match sendAttached answers.sendmsg sync.type sync.file with
          | (packets, result) => (⟨data, none⟩ :: packets, result)

inductive ReadErr
  | eof
  | unmarshal
  | missingPayload
  | unmarshalPayload
  | initError (err : InitError)
  | receiving (type err : Text)

abbrev Result := Except ReadErr SyncT

def storedArg : Json → Option Json
  | .null => none
  | v => some v

def storeString (old : Text) : Json → Option Text
  | .str s => some s
  | .null => some old
  | .bool _ | .num _ | .arr _ | .obj _ => none

def storeInt (old : BitVec 64) : Json → Option (BitVec 64)
  | .num literal => (readInt literal).map (BitVec.ofInt 64)
  | .null => some old
  | .bool _ | .str _ | .arr _ | .obj _ => none

def SyncT.store (sync : SyncT) (key : Text) (v : Json) : Option SyncT :=
  if foldName key = "TYPE".toList then
    (storeString sync.type v).map fun s => { sync with type := s }
  else if foldName key = "FLAGS".toList then
    (storeInt sync.flags v).map fun n => { sync with flags := n }
  else if foldName key = "ARG".toList then some { sync with arg := storedArg v }
  else some sync

/-- `json.Unmarshal` into a message. -/
def unmarshalSync (data : Text) : Option SyncT :=
  (parse data).bind (Json.decode SyncT.store ⟨[], 0, none, none⟩)

def InitError.store (err : InitError) (key : Text) (v : Json) : Option InitError :=
  if foldName key = "MESSAGE".toList then
    (storeString err.message v).map fun s => { err with message := s }
  else some err

def procErrorOf : Option Json → ReadErr
  | none => .missingPayload
  | some arg =>
      match arg.decode InitError.store ⟨[]⟩ with
      | none => .unmarshalPayload
      | some err => .initError err

/-- The size of the next packet first, then the packet. -/
def readPacket (next : Option Text → Reading Packet Result) : Reading Packet Result :=
  .peek fun head =>
    match head with
    | none => next none
    | some packet =>
        if packet.data.length = 0 then next none
        else .recv fun packet => next (packet.map Packet.data)

def oobSpace : Nat :=
  24

def incorrectNumber (n oobn : Nat) : Text :=
  "recvfile: incorrect number of bytes read (n=".toList ++ Nat.toDigits 10 n ++
    " oobn=".toList ++ Nat.toDigits 10 oobn ++ ")".toList

/-- `RecvFile`, with the packet `recvmsg` finds.  What does not fit is cut off. -/
def recvFile : Option Packet → Except Text File
  | none => .error (incorrectNumber 0 0)
  | some ⟨data, none⟩ => .error (incorrectNumber (min data.length maxNameLen) 0)
  | some ⟨data, some fd⟩ =>
      if maxNameLen ≤ data.length then .error (incorrectNumber maxNameLen oobSpace)
      else .ok ⟨data, fd⟩

def receiveAttached (sync : SyncT) : Reading Packet Result :=
  if sync.flags &&& syncFlagHasFd ≠ 0 then
    .recv fun packet =>
      match recvFile packet with
      | .error err => .done (.error (.receiving sync.type err))
      | .ok file => .done (.ok { sync with file := some file })
  else .done (.ok sync)

def doReadSync : Reading Packet Result :=
  readPacket fun packet =>
    match packet with
    | none => .done (.error .eof)
    | some data =>
        match unmarshalSync data with
        | none => .done (.error .unmarshal)
        | some sync =>
            if sync.type = procError then .done (.error (procErrorOf sync.arg))
            else receiveAttached sync

end Runc.SyncSocket
