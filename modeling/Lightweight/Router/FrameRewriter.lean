import Lightweight.Core.SseBytes
import Lightweight.Core.SseRoundTrip
import Lightweight.Router.Json

/-! The rewriter that a node's event stream passes on its way to the client. It forwards the bytes of
every frame but one that names a model, which it writes anew, and it ends a stream that the node left
without an end. -/

namespace Lightweight.Router

open Framing Utf8 Lightweight.Core

def frameLimit : Nat := 8 * 1024 * 1024

structure FrameRewriter where
  publicModel : List Char
  buffer : List UInt8
  sawDone : Bool
  sawError : Bool
  finished : Bool
  generated : Bool
  promptTokens : Option Nat

def FrameRewriter.new (publicModel : List Char) : FrameRewriter :=
  { publicModel, buffer := [], sawDone := false, sawError := false, finished := false,
    generated := false, promptTokens := none }

/-- Whether any frame forwarded so far carried generated output. -/
def FrameRewriter.hasGenerated (rewriter : FrameRewriter) : Bool := rewriter.generated

/-- Whether the stream reached `[DONE]`. -/
def FrameRewriter.completed (rewriter : FrameRewriter) : Bool := rewriter.sawDone

/-- The rewriter with another buffer. -/
def FrameRewriter.hold (rewriter : FrameRewriter) (buffer : List UInt8) : FrameRewriter :=
  { rewriter with buffer }

def modelKey : List Char := "model".toList
def errorKey : List Char := "error".toList

def nonEmpty : Option Value → Bool
  | some (.string text) => !text.isEmpty
  | some (.array items) => !items.isEmpty
  | _ => false

/-- Whether one choice of an event carries text, or a delta with output. -/
def choiceCarriesOutput (choice : Value) : Bool :=
  nonEmpty (choice.get "text".toList) ||
    (match choice.get "delta".toList with
    | some delta =>
        nonEmpty (delta.get "content".toList) || nonEmpty (delta.get "reasoning_content".toList) ||
          nonEmpty (delta.get "tool_calls".toList)
    | none => false)

def carriesOutput (event : Map) : Bool :=
  match Map.get "choices".toList event with
  | some (.array choices) => choices.any choiceCarriesOutput
  | _ => false

/-- `usage.prompt_tokens`, if it is an unsigned 32-bit number. -/
def promptTokens (object : Map) : Option Nat :=
  match Map.get "usage".toList object with
  | none => none
  | some usage =>
      match (usage.get "prompt_tokens".toList).bind Value.asU64 with
      | some tokens => if tokens < UInt32.size then some tokens else none
      | none => none

def dataMark : List Char := ['d', 'a', 't', 'a', ':']

/-- The value of a line that starts with `data:`. -/
def dataValue (line : List Char) : Option (List Char) :=
  if dataMark.isPrefixOf line then some (stripSpace (line.drop dataMark.length)) else none

def dataLines (text : List Char) : List (List Char) :=
  (linesOf text).filterMap dataValue

def otherLines (text : List Char) : List (List Char) :=
  (linesOf text).filter fun line => (dataValue line).isNone

/-- What the rewriter notes of an event it has parsed. -/
def FrameRewriter.note (rewriter : FrameRewriter) (event : Map) : FrameRewriter :=
  { rewriter with
    sawError := rewriter.sawError || Map.containsKey errorKey event
    -- an error frame is no output, whatever else it carries
    generated := rewriter.generated || (!Map.containsKey errorKey event && carriesOutput event)
    promptTokens := (Router.promptTokens event).or rewriter.promptTokens }

/-- Whether `model` is a string. -/
def namesModel (event : Map) : Bool :=
  match Map.get modelKey event with
  | some (.string _) => true
  | _ => false

/-- A frame with its event renamed: the other lines as they were, then the data. -/
def rewrite (serde : Serde) (publicModel : List Char) (otherLines : List (List Char)) (event : Map) :
    List UInt8 :=
  (otherLines.flatMap fun line => encode line ++ [0x0A]) ++
    encode (encodeData
      (serde.toString (.object (Map.insert modelKey (.string publicModel) event))))

def FrameRewriter.emit (serde : Serde) (rewriter : FrameRewriter) (content raw : List UInt8) :
    FrameRewriter × List UInt8 :=
  match fromUtf8 content with
  | none => (rewriter, raw)
  | some text =>
      if (dataLines text).isEmpty then (rewriter, raw)
      else
        let data := ['\n'].intercalate (dataLines text)
        if trim data = doneData then ({ rewriter with sawDone := true }, raw)
        else
          match serde.fromStr data with
          | some (.object event) =>
              if namesModel event then
                (rewriter.note event, rewrite serde rewriter.publicModel (otherLines text) event)
              else (rewriter.note event, raw)
          | _ => (rewriter, raw)

/-- The body of the error frame that ends a stream. -/
def errorBody (code message : List Char) : Value :=
  .object [(errorKey, .object [("code".toList, .string code), ("message".toList, .string message),
    ("type".toList, .string "server_error".toList)])]

def FrameRewriter.fail (serde : Serde) (rewriter : FrameRewriter) (code message : List Char) :
    FrameRewriter × List UInt8 :=
  ({ rewriter with finished := true, sawError := true },
    encode (encodeData (serde.toString (errorBody code message))))

/-- The loop of `push`; every frame uses up fuel. -/
def FrameRewriter.pushLoop (serde : Serde) : Nat → FrameRewriter → FrameRewriter × List UInt8
  | 0, rewriter => (rewriter, [])
  | fuel + 1, rewriter =>
      match earliest byteTerminators rewriter.buffer with
      | none => (rewriter, [])
      | some (content, total) =>
          let frame := rewriter.buffer.take total
          let emitted := (rewriter.hold (rewriter.buffer.drop total)).emit serde
            (frame.take content) frame
          let later := pushLoop serde fuel emitted.1
          (later.1, emitted.2 ++ later.2)

def invalidCode : List Char := "upstream_stream_invalid".toList
def tooLargeMessage : List Char :=
  "the upstream node sent an event larger than the router accepts".toList
def interruptedCode : List Char := "upstream_stream_interrupted".toList
def endedMessage : List Char := "the upstream node ended the stream before it was complete".toList
def failedMessage : List Char :=
  "the connection to the upstream node failed during the response".toList

/-- The bodies of the error frames that the rewriter writes. -/
def failureBodies : List Value :=
  [errorBody invalidCode tooLargeMessage, errorBody interruptedCode endedMessage,
    errorBody interruptedCode failedMessage]

def FrameRewriter.push (serde : Serde) (rewriter : FrameRewriter) (chunk : List UInt8) :
    FrameRewriter × List UInt8 :=
  if rewriter.finished then (rewriter, [])
  else
    let grown := rewriter.hold (rewriter.buffer ++ chunk)
    let pushed := pushLoop serde (grown.buffer.length + 1) grown
    if pushed.1.buffer.length > frameLimit then
      let failed := fail serde (pushed.1.hold []) invalidCode tooLargeMessage
      (failed.1, pushed.2 ++ failed.2)
    else pushed

def FrameRewriter.finish (serde : Serde) (rewriter : FrameRewriter) : FrameRewriter × List UInt8 :=
  if rewriter.finished then (rewriter, [])
  else if rewriter.sawDone || rewriter.sawError then ({ rewriter with finished := true }, [])
  else fail serde rewriter interruptedCode endedMessage

def FrameRewriter.abort (serde : Serde) (rewriter : FrameRewriter) : FrameRewriter × List UInt8 :=
  if rewriter.finished || rewriter.sawDone || rewriter.sawError then
    ({ rewriter with finished := true }, [])
  else fail serde rewriter interruptedCode failedMessage

/-- What is sent on over a sequence of chunks. -/
def FrameRewriter.pushAll (serde : Serde) :
    FrameRewriter → List (List UInt8) → FrameRewriter × List UInt8
  | rewriter, [] => (rewriter, [])
  | rewriter, chunk :: chunks =>
      let pushed := push serde rewriter chunk
      let later := pushAll serde pushed.1 chunks
      (later.1, pushed.2 ++ later.2)

end Lightweight.Router
