import Lightweight.Router.Json
import Lightweight.Utf8Stream

/-! How the panel reads a streamed reply (`send` of `frontend/src/screens/Chat.tsx`): the bytes as they
arrive, through the browser's decoder into a buffer, from there frame by frame into the answer. -/

namespace Lightweight.Panel

open Framing Utf8 Core Router

/-- What a script trims off a text. -/
def isJsSpace (c : Char) : Bool :=
  (isWhitespace c && c.toNat != 0x85) || c == byteOrderMark

def jsTrim (text : List Char) : List Char :=
  (text.dropWhile isJsSpace).rdropWhile isJsSpace

/-- `JSON.parse`, and the text as which a value that is no text is appended. -/
structure JavaScript where
  parse : List Char → Option Value
  asText : Value → List Char

/-- JSON spells no number that is none. -/
def truthy : Value → Bool
  | .null => false
  | .bool b => b
  | .number (.posInt n) => n != 0
  | .number (.negInt n) => n != 0
  | .number (.float bits) => bits != 0 && bits != 0x8000000000000000
  | .string text => !text.isEmpty
  | .array _ => true
  | .object _ => true

/-- `value?.[0]`. Of a text it is a character, of which no member is read. -/
def firstOf : Value → Option Value
  | .array items => items.head?
  | .object members => Map.get ['0'] members
  | _ => none

/-- `value ?? otherwise`. -/
def orElse (otherwise : Value) : Option Value → Value
  | none => otherwise
  | some .null => otherwise
  | some value => value

/-- `if (value) text += value`. -/
def JavaScript.append (js : JavaScript) (text : List Char) : Option Value → List Char
  | none => text
  | some (.string more) => text ++ more
  | some value => if truthy value then text ++ js.asText value else text

/-- What has been heard of the reply. -/
structure Turn where
  answer : List Char
  reasoning : List Char
  completionTokens : Value
  promptTokens : Value

def Turn.start : Turn :=
  { answer := [], reasoning := [], completionTokens := .number (.posInt 0),
    promptTokens := .number (.posInt 0) }

def Turn.hearUsage (turn : Turn) (usage : Value) : Turn :=
  { turn with
    completionTokens := orElse turn.completionTokens (usage.get "completion_tokens".toList)
    promptTokens := orElse turn.promptTokens (usage.get "prompt_tokens".toList) }

/-- One parsed chunk; reading a member of `null` throws, which costs the frame. -/
def Turn.hear (js : JavaScript) (turn : Turn) : Value → Turn
  | .null => turn
  | chunk =>
      let delta := ((chunk.get "choices".toList).bind firstOf).bind (Value.get "delta".toList)
      let heard := { turn with
        answer := js.append turn.answer (delta.bind (Value.get "content".toList))
        reasoning := js.append turn.reasoning (delta.bind (Value.get "reasoning_content".toList)) }
      match chunk.get "usage".toList with
      | some usage => if truthy usage then heard.hearUsage usage else heard
      | none => heard

def dataPrefix : List Char := ['d', 'a', 't', 'a', ':', ' ']

/-- The trimmed data of the first line that has any. -/
def payloadOf (frame : List Char) : Option (List Char) :=
  ((frame.splitOn '\n').find? fun line => dataPrefix.isPrefixOf line).map fun line =>
    jsTrim (line.drop dataPrefix.length)

def Turn.readPayload (js : JavaScript) (turn : Turn) (payload : List Char) : Turn :=
  if payload = doneData then turn
  else
    match js.parse payload with
    | none => turn
    | some chunk => turn.hear js chunk

def Turn.readFrame (js : JavaScript) (turn : Turn) (frame : List Char) : Turn :=
  match payloadOf frame with
  | none => turn
  | some payload => turn.readPayload js payload

/-- A blank line ends a frame. -/
def separators : List (List Char) := [['\n', '\n']]

structure Reader where
  decoder : TextDecoder
  buffer : List Char
  turn : Turn

def Reader.start : Reader := { decoder := .new, buffer := [], turn := .start }

/-- What a decoded text does to the buffer and the turn. -/
def Reader.take (js : JavaScript) (reader : Reader) (text : List Char) : Reader :=
  let cut := frames separators (reader.buffer ++ text)
  { reader with
    buffer := cut.2
    turn := (cut.1.map Prod.fst).foldl (Turn.readFrame js) reader.turn }

/-- One value of the body's reader. -/
def Reader.read (js : JavaScript) (reader : Reader) (value : List UInt8) : Reader :=
  let decoded := reader.decoder.decode value
  { reader.take js decoded.1 with decoder := decoded.2 }

def readAll (js : JavaScript) (values : List (List UInt8)) : Reader :=
  values.foldl (Reader.read js) Reader.start

/-! ### The cuts between the values -/

theorem separators_settled : Settled separators :=
  Settled.of_offsets (by decide) (by decide)

/-- Between two values nothing that could be shown or read is left. -/
structure Reader.Idle (reader : Reader) : Prop where
  decoder : waits reader.decoder.pending = true
  buffer : earliest separators reader.buffer = none

theorem start_idle : Reader.start.Idle := ⟨rfl, rfl⟩

theorem Reader.read_idle (js : JavaScript) (reader : Reader) (value : List UInt8) :
    (reader.read js value).Idle :=
  ⟨reader.decoder.decode_waiting value, separators_settled.frames_rest _⟩

variable {js : JavaScript}

theorem Reader.read_nil {reader : Reader} (idle : reader.Idle) : reader.read js [] = reader := by
  simp [Reader.read, Reader.take, TextDecoder.decode_nil idle.decoder, frames_of_none idle.buffer]

theorem Reader.take_append (reader : Reader) (xs ys : List Char) :
    reader.take js (xs ++ ys) = (reader.take js xs).take js ys := by
  have cut := separators_settled.frames_append (reader.buffer ++ xs) ys
  rw [List.append_assoc] at cut
  simp only [Reader.take, cut, List.map_append, List.foldl_append]

theorem Reader.read_append (reader : Reader) (xs ys : List UInt8) :
    reader.read js (xs ++ ys) = (reader.read js xs).read js ys := by
  simp only [Reader.read, TextDecoder.decode_append, Reader.take_append]
  rfl

theorem foldl_read {reader : Reader} (idle : reader.Idle) (values : List (List UInt8)) :
    values.foldl (Reader.read js) reader = reader.read js values.flatten := by
  induction values generalizing reader with
  | nil => exact (Reader.read_nil idle).symm
  | cons value values ih =>
      rw [List.foldl_cons, ih (reader.read_idle js value), ← Reader.read_append,
        List.flatten_cons]

/-! ### What has arrived is kept -/

theorem JavaScript.append_prefix (text : List Char) (value : Option Value) :
    text <+: js.append text value := by
  unfold JavaScript.append
  split
  · exact List.prefix_rfl
  · exact List.prefix_append _ _
  · split
    · exact List.prefix_append _ _
    · exact List.prefix_rfl

/-- The later turn goes on where the earlier one was. -/
def Turn.Goes (earlier later : Turn) : Prop :=
  earlier.answer <+: later.answer ∧ earlier.reasoning <+: later.reasoning

theorem Turn.Goes.refl (turn : Turn) : turn.Goes turn := ⟨List.prefix_rfl, List.prefix_rfl⟩

theorem Turn.Goes.trans {first second third : Turn} (here : first.Goes second)
    (there : second.Goes third) : first.Goes third :=
  ⟨here.1.trans there.1, here.2.trans there.2⟩

theorem Turn.goes_hear (turn : Turn) (chunk : Value) : turn.Goes (turn.hear js chunk) := by
  unfold Turn.hear
  split
  · exact Turn.Goes.refl turn
  · have grown : ∀ delta : Option Value,
        turn.Goes { turn with
          answer := js.append turn.answer (delta.bind (Value.get "content".toList))
          reasoning := js.append turn.reasoning
            (delta.bind (Value.get "reasoning_content".toList)) } := fun delta =>
      ⟨JavaScript.append_prefix _ _, JavaScript.append_prefix _ _⟩
    split
    · split
      · exact grown _
      · exact grown _
    · exact grown _

theorem Turn.goes_readFrame (turn : Turn) (frame : List Char) :
    turn.Goes (turn.readFrame js frame) := by
  unfold Turn.readFrame
  split
  · exact Turn.Goes.refl turn
  · unfold Turn.readPayload
    split
    · exact Turn.Goes.refl turn
    · split
      · exact Turn.Goes.refl turn
      · exact turn.goes_hear _

theorem Turn.goes_foldl (turn : Turn) (parts : List (List Char)) :
    turn.Goes (parts.foldl (Turn.readFrame js) turn) := by
  induction parts generalizing turn with
  | nil => exact Turn.Goes.refl turn
  | cons part parts ih => exact (turn.goes_readFrame part).trans (ih _)

/-- However the network cuts a reply, the panel reads of it what it reads of the reply in one piece;
and of a reply that is stopped anywhere, in the middle of a frame or of a character, it keeps the
beginning of the answer. -/
theorem reply_read_alike (js : JavaScript) (values : List (List UInt8)) :
    readAll js values = Reader.start.read js values.flatten ∧
      ∀ later : List (List UInt8),
        (readAll js values).turn.answer <+: (readAll js (values ++ later)).turn.answer ∧
          (readAll js values).turn.reasoning <+: (readAll js (values ++ later)).turn.reasoning := by
  refine ⟨foldl_read start_idle values, ?_⟩
  intro later
  have whole : readAll js (values ++ later) = (readAll js values).read js later.flatten := by
    have joined : readAll js (values ++ later) = Reader.start.read js (values ++ later).flatten :=
      foldl_read start_idle (values ++ later)
    rw [List.flatten_append, Reader.read_append, ← foldl_read start_idle values] at joined
    exact joined
  rw [whole]
  exact Turn.goes_foldl _ _

end Lightweight.Panel
