import Ice.Stream.Encoding

/-!
# Ice protocol messages

The messages of the Ice protocol (`cpp/src/Ice/Protocol.h`), the header that
`ConnectionI::message` checks (`cpp/src/Ice/ConnectionI.cpp:1258-1317`), the body that
`ConnectionI::parseMessage` reads (`3112-3390`) and the bytes that are sent for a message
(`2732-2789`, `2843-2918`). Compression is the `bzip2` library, given by its two functions.
-/

namespace Ice.Connection

/-- What a `ProtocolException` reports. -/
inductive ProtocolReason where
  /-- `bad magic in message header` -/
  | badMagic (m : List UInt8)
  /-- `invalid protocol version in message header` -/
  | protocolVersion (major minor : UInt8)
  /-- `invalid protocol encoding version in message header` -/
  | encodingVersion (major minor : UInt8)
  /-- `received Ice protocol message with unknown type` -/
  | unknownMessageType (messageType : UInt8)
  /-- `received message of type ... over a connection that is not yet validated` -/
  | notValidated (messageType : UInt8)
  /-- `cannot compress message` -/
  | compress
  /-- `cannot decompress message` -/
  | decompress
deriving DecidableEq, Repr

/-- What a `MarshalException` of the connection reports. -/
inductive MessageReason where
  /-- `received Ice message with too few bytes in header` -/
  | tooFewBytes
  /-- `received Ice message with unexpected size` -/
  | unexpectedSize (size : Int)
  /-- `received ValidateConnection message with unexpected size` -/
  | unexpectedValidateSize (size : Int)
  /-- the limit `Ice.MessageSizeMax` is exceeded -/
  | memoryLimit (size max : Nat)
  /-- `unexpected message size after uncompress` -/
  | uncompressedSize (size : Int)
  /-- `received batch request with ... batches` -/
  | negativeBatch (count : Int)
  /-- `received batch request with ... batches, more than the message can contain` -/
  | batchTooLarge (count : Int)
  /-- the body ends before a number that has to be read -/
  | endOfBuffer
  /-- a reply whose contents cannot be read -/
  | reply
deriving DecidableEq, Repr

/-- The local exceptions that close a connection or end an invocation. -/
inductive LocalException where
  /-- `SocketException` and its derived classes, `ConnectionLostException` among them -/
  | socket
  | protocol (reason : ProtocolReason)
  | marshal (reason : MessageReason)
  | featureNotSupported
  | closeConnection
  | connectionClosed (closedByApplication : Bool)
  | connectionAborted (closedByApplication : Bool)
  | connectTimeout
  | closeTimeout
  | communicatorDestroyed
  | objectAdapterDeactivated
  | objectAdapterDestroyed
  | invocationCanceled
  | invocationTimeout
  | objectNotExist
  | facetNotExist
  | operationNotExist
  | unknown
  | unknownLocal
  | unknownUser
  | dispatch (replyStatus : UInt8)
deriving DecidableEq, Repr

def headerSize : Nat := 14

/-- `magic`: the letters `IceP`. -/
def magic : List UInt8 := [0x49, 0x63, 0x65, 0x50]

/-- The five message types (`Protocol.h:66-70`). -/
inductive MessageType where
  | request
  | requestBatch
  | reply
  | validateConnection
  | closeConnection
deriving DecidableEq, Repr

namespace MessageType

def code : MessageType → UInt8
  | request => 0
  | requestBatch => 1
  | reply => 2
  | validateConnection => 3
  | closeConnection => 4

def ofCode (code : UInt8) : Option MessageType :=
  if code = 0 then some request
  else if code = 1 then some requestBatch
  else if code = 2 then some reply
  else if code = 3 then some validateConnection
  else if code = 4 then some closeConnection
  else none

end MessageType

/-- The contents of a message behind its header and its number. The message has to fit the 32-bit
    size of the header. -/
structure Payload where
  bytes : List UInt8
  fits : bytes.length + 18 < 2 ^ 31

namespace Payload

def empty : Payload := ⟨[], by decide⟩

end Payload

/-- A message of the protocol. -/
inductive Message where
  | request (requestId : Int) (params : Payload)
  | requestBatch (requestCount : Int) (requests : Payload)
  | reply (requestId : Int) (result : Payload)
  | validateConnection
  | closeConnection

namespace Message

def type : Message → MessageType
  | request _ _ => .request
  | requestBatch _ _ => .requestBatch
  | reply _ _ => .reply
  | validateConnection => .validateConnection
  | closeConnection => .closeConnection

/-- The bytes behind the header. -/
def body : Message → List UInt8
  | request requestId params => encodeInt32 requestId ++ params.bytes
  | requestBatch requestCount requests => encodeInt32 requestCount ++ requests.bytes
  | reply requestId result => encodeInt32 requestId ++ result.bytes
  | validateConnection => []
  | closeConnection => []

end Message

/-- The header of a message: magic, protocol version 1.0, protocol encoding 1.0, message type,
    compression status and message size. -/
def header (messageType compress : UInt8) (size : Nat) : List UInt8 :=
  magic ++ [1, 0, 1, 0, messageType, compress] ++ encodeInt32 size

/-- `bzip2`: `BZ2_bzBuffToBuffCompress`, and the contents of a buffer of the given length after
    `BZ2_bzBuffToBuffDecompress`. Decompression gives back what was compressed. -/
class Bzip2 where
  /-- whether the library is built with `ICE_HAS_BZIP2` -/
  available : Bool
  compress : List UInt8 → Option (List UInt8)
  decompress : List UInt8 → Nat → Option (List UInt8)
  fits : ∀ {data z}, compress data = some z → z.length + 18 < 2 ^ 31
  lossless : ∀ {data z}, compress data = some z → decompress z data.length = some data

/-- A build without `ICE_HAS_BZIP2`. -/
@[reducible] def Bzip2.absent : Bzip2 where
  available := false
  compress _ := none
  decompress _ _ := none
  fits h := by cases h
  lossless h := by cases h

/-- The bytes that are sent for a message (`sendMessage`, `sendNextMessages`): compressed by
    `doCompress` if that is asked for and the message has 100 bytes, or as they are. -/
def Message.wire [Bzip2] (compress : Bool) (m : Message) : Except LocalException (List UInt8) :=
  let size := headerSize + m.body.length
  if compress ∧ Bzip2.available ∧ 100 ≤ size then
    match Bzip2.compress m.body with
    | none => .error (.protocol .compress)
    | some z =>
      .ok (header m.type.code 2 (headerSize + 4 + z.length) ++ encodeInt32 size ++ z)
  else .ok (header m.type.code (if compress then 1 else 0) size ++ m.body)

/-- The check of a message header (`ConnectionI.cpp:1278-1316`) up to the message size. -/
def readMessageHeader : List UInt8 → Except LocalException Int
  | m0 :: m1 :: m2 :: m3 :: pMajor :: pMinor :: eMajor :: eMinor :: _ :: _ :: size =>
    if [m0, m1, m2, m3] ≠ magic then .error (.protocol (.badMagic [m0, m1, m2, m3]))
    else if (pMajor, pMinor) ≠ (1, 0) then .error (.protocol (.protocolVersion pMajor pMinor))
    else if (eMajor, eMinor) ≠ (1, 0) then .error (.protocol (.encodingVersion eMajor eMinor))
    else .ok (toInt32 (ofLittleEndian (size.take 4)))
  | _ => .error (.marshal .tooFewBytes)

/-- The size of the message whose header has been read, if it is acceptable
    (`ConnectionI.cpp:1301-1316`). -/
def checkMessageSize (messageSizeMax : Nat) (size : Int) : Except LocalException Nat :=
  if size < headerSize then .error (.marshal (.unexpectedSize size))
  else if (messageSizeMax : Int) < size then
    .error (.marshal (.memoryLimit size.toNat messageSizeMax))
  else .ok size.toNat

/-- `stream.read(std::int32_t&)` on the rest of a message. -/
def readNumber (bytes : List UInt8) : Except LocalException (Int × List UInt8) :=
  if bytes.length < 4 then .error (.marshal .endOfBuffer)
  else .ok (toInt32 (ofLittleEndian (bytes.take 4)), bytes.drop 4)

/-- The body of a received message (`ConnectionI.cpp:3139-3150`), uncompressed by `doUncompress`
    (`3068-3109`) if its compression status is 2. -/
def readBody [Bzip2] (messageSizeMax : Nat) (compress : UInt8) (body : List UInt8) :
    Except LocalException (List UInt8) :=
  if compress ≠ 2 then .ok body
  else if ¬ Bzip2.available then .error .featureNotSupported
  else do
    let (uncompressedSize, data) ← readNumber body
    if uncompressedSize ≤ headerSize then .error (.marshal (.uncompressedSize uncompressedSize))
    else if (messageSizeMax : Int) < uncompressedSize then
      .error (.marshal (.memoryLimit uncompressedSize.toNat messageSizeMax))
    else match Bzip2.decompress data (uncompressedSize.toNat - headerSize) with
      | none => .error (.protocol .decompress)
      | some bytes => .ok bytes

end Ice.Connection
