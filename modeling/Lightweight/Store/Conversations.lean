import Lightweight.Store.Documents

/-! Conversations on disk (`lightweight-store/src/conversations.rs`): one file each, and a listing for
the panel's sidebar. What the JSON library writes and reads is a parameter. -/

namespace Lightweight.Store

/-- A rate is kept as the bits of the number. -/
structure StoredMessage where
  role : List Char
  content : List Char
  reasoningContent : Option (List Char)
  sentAt : Nat
  promptTokens : Option Nat
  completionTokens : Option Nat
  tokensPerSecond : Option UInt64
deriving DecidableEq, Repr

structure Conversation where
  id : List Char
  title : List Char
  createdAt : Nat
  updatedAt : Nat
  model : Option (List Char)
  messages : List StoredMessage
deriving DecidableEq, Repr

structure ConversationSummary where
  id : List Char
  title : List Char
  createdAt : Nat
  updatedAt : Nat
  model : Option (List Char)
  messageCount : Nat
  preview : List Char
deriving DecidableEq, Repr

/-- Bytes of randomness in an id, and the characters they take. -/
def idBytes : Nat := 16

def idLength : Nat := idBytes * 2

/-- Characters of the first message kept as a preview. -/
def previewChars : Nat := 120

def truncateChars (text : List Char) (limit : Nat) : List Char :=
  text.take limit ++ if limit < text.length then ['…'] else []

def Conversation.summarize (conversation : Conversation) : ConversationSummary where
  id := conversation.id
  title := conversation.title
  createdAt := conversation.createdAt
  updatedAt := conversation.updatedAt
  model := conversation.model
  messageCount := conversation.messages.length
  preview :=
    ((conversation.messages.find? fun message => message.role = ['u', 's', 'e', 'r']).map
      fun message => truncateChars message.content previewChars).getD []

/-- A byte as `{:02x}` prints it. -/
def hexByte (byte : UInt8) : List Char :=
  [Nat.digitChar (byte.toNat / 16), Nat.digitChar (byte.toNat % 16)]

/-- The id that random bytes make. -/
def newId (bytes : List UInt8) : List Char := bytes.flatMap hexByte

/-- What `serde_json` writes of a conversation and reads from a file. -/
structure ConversationText where
  toVecPretty : Conversation → List UInt8
  fromSlice : List UInt8 → Except (List Char) Conversation

def ConversationText.format (text : ConversationText) : Format Conversation where
  idLength := idLength
  idLength_pos := by decide
  id := Conversation.id
  encode conversation := text.toVecPretty conversation ++ [10]
  parse := text.fromSlice

/-- What went wrong, in the words of the source. -/
inductive Conversations.StoreError where
  | io (action : String)
  | unreadable (what : String) (name reason : List Char)
  | noSuchConversation (id : List Char)
  | malformedId (id : List Char)
  | historyDisabled
deriving DecidableEq, Repr

def Conversations.StoreError.code : Conversations.StoreError → String
  | .io _ => "store_io_failed"
  | .unreadable _ _ _ => "store_unreadable"
  | .noSuchConversation _ => "unknown_conversation"
  | .malformedId _ => "malformed_conversation_id"
  | .historyDisabled => "history_disabled"

def Conversations.StoreError.ofDocument : DocumentError → Conversations.StoreError
  | .malformedId id => .malformedId id
  | .noSuch id => .noSuchConversation id
  | .unreadable name reason => .unreadable "a conversation" name reason
  | .io .read => .io "reading a conversation"
  | .io .directory => .io "creating a data directory"
  | .io .create => .io "creating a data file"
  | .io .write => .io "writing a data file"
  | .io .replace => .io "replacing a data file"
  | .io .delete => .io "deleting a conversation"

/-- Summaries of the conversations touched last, newest first by the time that each one records. -/
def listConversations (text : ConversationText) (entries : List (List Char × Filed)) :
    List ConversationSummary :=
  sortByKey (fun summary => OrderDual.toDual summary.updatedAt)
    ((text.format.list entries).map Conversation.summarize)

/-! ### Ids -/

theorem hexByte_digits (byte : UInt8) :
    (Utf8.encode (hexByte byte)).length = 2 ∧
      (Utf8.encode (hexByte byte)).all isAsciiHexdigit = true := by
  have digit : ∀ n < 16, String.utf8EncodeChar (Nat.digitChar n) = [(Nat.digitChar n).toNat.toUInt8] ∧
      isAsciiHexdigit (Nat.digitChar n).toNat.toUInt8 = true := by decide
  have high := digit (byte.toNat / 16) (by have := byte.toNat_lt; omega)
  have low := digit (byte.toNat % 16) (Nat.mod_lt _ (by decide))
  constructor
  · simp [Utf8.encode, hexByte, high.1, low.1]
  · simp [Utf8.encode, hexByte, high.1, low.1, high.2, low.2]

/-- Every id that is generated is one that the store accepts back. -/
theorem isWellFormed_newId {bytes : List UInt8} (enough : bytes.length = idBytes) :
    isWellFormed idLength (newId bytes) = true := by
  have all : (Utf8.encode (newId bytes)).length = bytes.length * 2 ∧
      (Utf8.encode (newId bytes)).all isAsciiHexdigit = true := by
    clear enough
    induction bytes with
    | nil => exact ⟨rfl, rfl⟩
    | cons byte bytes ih =>
        have first := hexByte_digits byte
        have split : Utf8.encode (newId (byte :: bytes)) =
            Utf8.encode (hexByte byte) ++ Utf8.encode (newId bytes) := Utf8.encode_append _ _
        rw [split, List.length_append, List.all_append, first.1, first.2, ih.1, ih.2,
          List.length_cons]
        constructor
        · omega
        · rfl
  rw [isWellFormed, all.1, all.2, enough]
  rfl

/-! ### Previews -/

/-- A preview is what it shows of, or its beginning and a mark, and never longer than that. -/
theorem truncateChars_spec (text : List Char) (limit : Nat) :
    (truncateChars text limit).length ≤ limit + 1 ∧
      (text.length ≤ limit → truncateChars text limit = text) ∧
        (limit < text.length → truncateChars text limit = text.take limit ++ ['…']) := by
  refine ⟨?_, ?_, ?_⟩
  · rw [truncateChars, List.length_append, List.length_take]
    split
    · simp
    · simp only [List.length_nil]
      omega
  · intro short
    rw [truncateChars, if_neg (Nat.not_lt.mpr short), List.take_of_length_le short,
      List.append_nil]
  · intro long
    rw [truncateChars, if_pos long]

/-! ### Listings -/

variable {text : ConversationText}

theorem listConversations_sorted (text : ConversationText) (entries : List (List Char × Filed)) :
    (listConversations text entries).Pairwise fun a b => b.updatedAt ≤ a.updatedAt :=
  (sortByKey_sorted (fun summary : ConversationSummary => OrderDual.toDual summary.updatedAt) _).imp
    fun below => below

theorem listConversations_perm (text : ConversationText) (entries : List (List Char × Filed)) :
    (listConversations text entries).Perm
      ((text.format.list entries).map Conversation.summarize) :=
  sortByKey_perm _ _

def openText : List Char := "\x7b\n  \"version\": 1,\n  \"id\": \"".toList
def titleText : List Char := "\",\n  \"title\": \"".toList
def createdText : List Char := "\",\n  \"created_at\": ".toList
def updatedText : List Char := ",\n  \"updated_at\": ".toList
def closeText : List Char := ",\n  \"messages\": []\n\x7d".toList

/-- How the file of a conversation without messages reads. -/
def prettyText (conversation : Conversation) : List Char :=
  openText ++ conversation.id ++ titleText ++ conversation.title ++ createdText ++
    Nat.toDigits 10 conversation.createdAt ++ updatedText ++
    Nat.toDigits 10 conversation.updatedAt ++ closeText

def draftFile (conversation : Conversation) : List UInt8 :=
  Utf8.encode (prettyText conversation) ++ [10]

def firstDraft : Conversation :=
  ⟨newId (List.replicate 16 0), [], 10, 10, none, []⟩

def secondDraft : Conversation :=
  ⟨newId (List.replicate 16 0), ['P', 'l', 'a', 'n'], 10, 12, none, []⟩

/-- Reads back the two drafts. -/
def readDraft (bytes : List UInt8) : Except (List Char) Conversation :=
  if bytes = draftFile firstDraft then .ok firstDraft
  else if bytes = draftFile secondDraft then .ok secondDraft
  else .error ['E', 'O', 'F']

def draftText : ConversationText where
  toVecPretty conversation := Utf8.encode (prettyText conversation)
  fromSlice := readDraft

theorem length_prettyText (conversation : Conversation) : (prettyText conversation).length =
    openText.length + conversation.id.length + titleText.length + conversation.title.length +
      createdText.length + (Nat.toDigits 10 conversation.createdAt).length + updatedText.length +
      (Nat.toDigits 10 conversation.updatedAt).length + closeText.length := by
  simp only [prettyText, List.length_append]

theorem draftFile_ne {first second : Conversation}
    (lengths : (prettyText first).length ≠ (prettyText second).length) :
    draftFile first ≠ draftFile second := by
  intro same
  have texts := congrArg Utf8.fromUtf8 (List.append_cancel_right same)
  rw [Utf8.fromUtf8_encode, Utf8.fromUtf8_encode] at texts
  exact lengths (congrArg List.length (Option.some.inj texts))

theorem secondDraft_ne_firstDraft : draftFile secondDraft ≠ draftFile firstDraft := by
  apply draftFile_ne
  rw [length_prettyText, length_prettyText]
  have titles : secondDraft.title.length = firstDraft.title.length + 4 := rfl
  have ids : secondDraft.id = firstDraft.id := rfl
  have created : secondDraft.createdAt = firstDraft.createdAt := rfl
  have updated : (Nat.toDigits 10 secondDraft.updatedAt).length =
      (Nat.toDigits 10 firstDraft.updatedAt).length := by decide
  rw [ids, created]
  omega

theorem readDraft_nil : readDraft [] = .error ['E', 'O', 'F'] := by
  have filled (conversation : Conversation) : [] ≠ draftFile conversation := by
    intro same
    exact List.append_ne_nil_of_right_ne_nil _ (List.cons_ne_nil 10 []) same.symm
  rw [readDraft, if_neg (filled firstDraft), if_neg (filled secondDraft)]

theorem readDraft_first : readDraft (draftFile firstDraft) = .ok firstDraft := by
  rw [readDraft, if_pos rfl]

theorem readDraft_second : readDraft (draftFile secondDraft) = .ok secondDraft := by
  rw [readDraft, if_neg secondDraft_ne_firstDraft, if_pos rfl]

def draftEntries : List (List Char × Filed) :=
  [(fileName firstDraft.id, ⟨some (draftFile firstDraft), some 5⟩),
    (fileName (newId (List.replicate 16 255)), ⟨some (draftFile secondDraft), some 7⟩)]

end Lightweight.Store
