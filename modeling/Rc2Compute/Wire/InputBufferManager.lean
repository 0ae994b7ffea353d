import Rc2Compute.Support.BigEndian

/-!
# The frame decoder and the socket callbacks around it

`InputBufferManager` collects the bytes read from the client socket and cuts
one JSON string out of them.  `handleJsonStatic` is the libevent read callback
that feeds it, and `sendJsonToClientSource` is the framing the session itself
uses for its replies.  Strings are byte strings, as `std::string` is.
-/

namespace Rc2Compute.Wire

def kRSessionMagicNumber : ℕ := 0x21

/-- Host to network order for a 32-bit word; longer values are truncated as
the conversion to `int32_t` truncates them. -/
def htonl (value : ℕ) : Bytes :=
  BigEndian.encode 4 value

def ntohl (word : Bytes) : ℕ :=
  BigEndian.decode word

/-- The bytes of one outgoing message: magic, length and payload. -/
def sendJsonToClientSource (json : Bytes) : Bytes :=
  if json.length < 1 then
    []
  else
    htonl kRSessionMagicNumber ++ htonl json.length ++ json

/-- The decoder: `_buffer` holds the bytes not yet removed and `_currentJson`
the payload extracted so far. -/
structure InputBufferManager where
  buffer : Bytes
  currentJson : Bytes
deriving DecidableEq, Repr

namespace InputBufferManager

def new : InputBufferManager where
  buffer := []
  currentJson := []

def reset (_ib : InputBufferManager) : InputBufferManager where
  buffer := []
  currentJson := []

/-- Append the bytes of one read and extract a frame if there is one.  The
result `none` is undefined behaviour: the length test is made in 32-bit
unsigned arithmetic, so it can accept a payload longer than the buffer. -/
def appendData (ib : InputBufferManager) (inBuffer : Bytes) :
    Option InputBufferManager :=
  let buffer := ib.buffer ++ inBuffer
  let dataSize := buffer.length
  if dataSize > 8 then
    let magicIdent := ntohl (buffer.take 4)
    let jsonSize := ntohl ((buffer.drop 4).take 4)
    if magicIdent ≠ kRSessionMagicNumber then
      some (reset { ib with buffer := buffer })
    else if (jsonSize + 8) % 2 ^ 32 ≤ dataSize then
      -- `evbuffer_remove` empties the buffer, whatever follows the frame
      if 8 + jsonSize ≤ dataSize then
        some
          { buffer := []
            currentJson := ib.currentJson ++ (buffer.drop 8).take jsonSize }
      else
        none
    else
      some { ib with buffer := buffer }
  else
    some { ib with buffer := buffer }

def hasCompleteMessage (ib : InputBufferManager) : Bool :=
  ib.currentJson.length > 0

def popCurrentMessage (ib : InputBufferManager) :
    Bytes × InputBufferManager :=
  (ib.currentJson, { ib with currentJson := [] })

end InputBufferManager

/-- What the read callback works on, with the strings it has handed to
`handleJsonCommand` so far. -/
structure Reader where
  inputBuffer : InputBufferManager
  handled : List Bytes
deriving DecidableEq, Repr

def Reader.new : Reader where
  inputBuffer := InputBufferManager.new
  handled := []

/-- The read callback for one chunk of input.  Exceptions of the command
handler are caught in the callback and leave the decoder as it is. -/
def handleJsonStatic (me : Reader) (input : Bytes) : Option Reader := do
  let inputBuffer ← me.inputBuffer.appendData input
  if inputBuffer.hasCompleteMessage then
    let (json, inputBuffer) := inputBuffer.popCurrentMessage
    some { inputBuffer, handled := me.handled ++ [json] }
  else
    some { me with inputBuffer }

/-- The read callback for one chunk after the other. -/
def readChunks (me : Reader) (chunks : List Bytes) : Option Reader :=
  chunks.foldlM handleJsonStatic me

@[simp] theorem readChunks_nil (me : Reader) :
    readChunks me [] = some me := rfl

@[simp] theorem readChunks_cons (me : Reader) (chunk : Bytes)
    (chunks : List Bytes) :
    readChunks me (chunk :: chunks) =
      (handleJsonStatic me chunk).bind (readChunks · chunks) := rfl

end Rc2Compute.Wire
