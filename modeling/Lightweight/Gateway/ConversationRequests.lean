import Lightweight.Store.Conversations

/-! The requests that change conversations (`lightweight-gateway/src/store_api.rs`), one after another,
in a directory that other programs put files into. Whether history is kept is read by each. -/

namespace Lightweight.Gateway

open Lightweight.Store

/-- What a client sends to save a conversation; its id comes from the path. -/
structure SaveConversation where
  title : List Char
  model : Option (List Char)
  messages : List StoredMessage
  createdAt : Option Nat
deriving DecidableEq, Repr

/-- A request, with what the clock says, how its write ends and the time the file then has. -/
inductive ConversationRequest where
  | create (random : {bytes : List UInt8 // bytes.length = idBytes}) (now : Nat) (ending : SaveEnd)
      (written : Option Nat)
  | save (id : List Char) (incoming : SaveConversation) (now : Nat) (ending : SaveEnd)
      (written : Option Nat)
  | delete (id : List Char) (refused : Bool)

/-- The conversation that a request begins. -/
def begun (id : List Char) (now : Nat) : Conversation where
  id := id
  title := []
  createdAt := now
  updatedAt := now
  model := none
  messages := []

/-- The conversation that a save writes. Its beginning is the client's, or the one on disk, or now. -/
def SaveConversation.conversation (incoming : SaveConversation) (id : List Char)
    (existing : Option Nat) (now : Nat) : Conversation where
  id := id
  title := incoming.title
  createdAt := (incoming.createdAt.or existing).getD now
  updatedAt := now
  model := incoming.model
  messages := incoming.messages

/-- What a request asks of the store, where `existing` tells when a conversation on disk began. -/
def ConversationRequest.event (existing : List Char → Option Nat) :
    ConversationRequest → StoreEvent Conversation
  | .create random now ending written => .save (begun (newId random.val) now) ending written
  | .save id incoming now ending written =>
      .save (incoming.conversation id (existing id) now) ending written
  | .delete id refused => .delete id refused

/-- A conversation that is deleted need not be kept. -/
def ConversationRequest.refused (keepHistory : Bool) : ConversationRequest → Bool
  | .delete _ _ => false
  | _ => !keepHistory

/-- What happens in the directory. -/
inductive DirectoryEvent where
  | request (keepHistory : Bool) (request : ConversationRequest)
  | stray (name : List Char) (held : Option Filed)

variable (text : ConversationText)

def beganAt (folder : Folder) (id : List Char) : Option Nat :=
  (text.format.get folder id).toOption.map Conversation.createdAt

/-- The call of the store that answers a request. -/
def storeCall (folder : Folder) : StoreEvent Conversation → Folder × Except DocumentError Unit
  | .save conversation ending now => text.format.save folder conversation ending now
  | .delete id refused => text.format.delete folder id refused
  | .stray _ _ => (folder, .ok ())

/-- A request is answered. -/
def handle (keepHistory : Bool) (folder : Folder) (request : ConversationRequest) :
    Folder × Except Conversations.StoreError Unit :=
  if request.refused keepHistory then (folder, .error .historyDisabled)
  else
    let (after, answer) := storeCall text folder (request.event (beganAt text folder))
    (after, answer.mapError Conversations.StoreError.ofDocument)

def getConversation (folder : Folder) (id : List Char) : Except Conversations.StoreError Conversation :=
  (text.format.get folder id).mapError Conversations.StoreError.ofDocument

def DirectoryEvent.change (folder : Folder) : DirectoryEvent → Folder
  | .request keepHistory asked => (handle text keepHistory folder asked).1
  | .stray name held => text.format.apply folder (.stray name held)

def changes (folder : Folder) (events : List DirectoryEvent) : Folder :=
  events.foldl (DirectoryEvent.change text) folder

/-- The conversations that are written, whole or not. -/
def writtenBy (folder : Folder) : List DirectoryEvent → List Conversation
  | [] => []
  | event :: rest =>
      let later := writtenBy (event.change text folder) rest
      match event with
      | .stray _ _ => later
      | .request keepHistory asked =>
          if asked.refused keepHistory then later
          else match asked.event (beganAt text folder) with
            | .save conversation _ _ => conversation :: later
            | _ => later

/-- What the requests are for: under each id the conversation saved last. -/
def DirectoryEvent.keep (holdings : Holdings Conversation) : DirectoryEvent → Holdings Conversation
  | .request keepHistory asked =>
      if asked.refused keepHistory then holdings
      else holdings.apply text.format
        (asked.event fun id => (holdings.answer text.format id).toOption.map Conversation.createdAt)
  | .stray _ _ => holdings

def kept (holdings : Holdings Conversation) (events : List DirectoryEvent) : Holdings Conversation :=
  events.foldl (DirectoryEvent.keep text) holdings

variable {text}

theorem handle_apply (keepHistory : Bool) (folder : Folder) {request : ConversationRequest}
    (taken : request.refused keepHistory = false) :
    (handle text keepHistory folder request).1 =
      text.format.apply folder (request.event (beganAt text folder)) := by
  rw [handle, taken]
  cases request <;> rfl

theorem stocked_change {folder : Folder} {holdings : Holdings Conversation}
    (stocked : Stocked text.format folder holdings) (event : DirectoryEvent)
    (parsed : ∀ conversation ∈ writtenBy text folder [event],
      text.format.parse (text.format.encode conversation) = .ok conversation) :
    Stocked text.format (event.change text folder) (event.keep text holdings) := by
  cases event with
  | stray name held =>
      have one : Stocked text.format (text.format.run folder [.stray name held])
          (holdings.run text.format [.stray name held]) := stocked.run (by simp)
      exact one
  | request keepHistory request =>
      rw [DirectoryEvent.change, DirectoryEvent.keep]
      cases taken : request.refused keepHistory with
      | true =>
          rw [handle, taken]
          exact stocked
      | false =>
          have same : (fun id => (holdings.answer text.format id).toOption.map
              Conversation.createdAt) = beganAt text folder := by
            funext id
            rw [beganAt, stocked.get]
          rw [handle_apply keepHistory folder taken, if_neg Bool.false_ne_true, same]
          have one : Stocked text.format
              (text.format.run folder [request.event (beganAt text folder)])
              (holdings.run text.format [request.event (beganAt text folder)]) := by
            refine stocked.run ?_
            intro conversation ending now asked
            have asked : request.event (beganAt text folder) = .save conversation ending now :=
              (List.mem_singleton.mp asked).symm
            refine parsed conversation ?_
            simp [writtenBy, taken, asked]
          exact one

theorem writtenBy_cons (folder : Folder) (event : DirectoryEvent) (events : List DirectoryEvent) :
    writtenBy text folder (event :: events) =
      writtenBy text folder [event] ++ writtenBy text (event.change text folder) events := by
  cases event with
  | stray name held => rfl
  | request keepHistory request =>
      simp only [writtenBy]
      cases request.refused keepHistory with
      | true => rfl
      | false => cases request.event (beganAt text folder) <;> rfl

theorem stocked_changes {folder : Folder} {holdings : Holdings Conversation}
    (stocked : Stocked text.format folder holdings) {events : List DirectoryEvent}
    (parsed : ∀ conversation ∈ writtenBy text folder events,
      text.format.parse (text.format.encode conversation) = .ok conversation) :
    Stocked text.format (changes text folder events) (kept text holdings events) := by
  induction events generalizing folder holdings with
  | nil => exact stocked
  | cons event events ih =>
      rw [writtenBy_cons, List.forall_mem_append] at parsed
      exact ih (stocked_change stocked event parsed.1) parsed.2

/-- What a client gets of the holdings: a conversation under its id, and a sidebar that has those saved
last, each once and in the order of the times they record. -/
structure Shows (text : ConversationText) (folder : Folder) (holdings : Holdings Conversation) :
    Prop where
  answers : ∀ id, getConversation text folder id =
    (holdings.answer text.format id).mapError Conversations.StoreError.ofDocument
  sorted : ∀ entries, Reads folder entries →
    (listConversations text entries).Pairwise fun a b => b.updatedAt ≤ a.updatedAt
  once : ∀ entries, Reads folder entries →
    ((listConversations text entries).map ConversationSummary.id).Nodup
  listed : ∀ entries, Reads folder entries → ∀ summary ∈ listConversations text entries,
    ∃ conversation modified, holdings conversation.id = some (conversation, modified) ∧
      summary = conversation.summarize
  newest : ∀ entries, Reads folder entries → ∀ id conversation modified,
    holdings id = some (conversation, modified) →
      conversation.summarize ∈ listConversations text entries ∨
        (listConversations text entries).length = listLimit ∧
          ∀ summary ∈ listConversations text entries, ∃ other later,
            holdings other.id = some (other, later) ∧ summary = other.summarize ∧
              modified.getD 0 ≤ later.getD 0

theorem mem_listConversations {entries : List (List Char × Filed)} {summary : ConversationSummary} :
    summary ∈ listConversations text entries ↔
      ∃ conversation ∈ text.format.list entries, conversation.summarize = summary := by
  rw [(listConversations_perm text entries).mem_iff, List.mem_map]

/-- Whatever is asked, fails half way or is put beside them, the files are what the requests are
for. -/
theorem conversations_kept (text : ConversationText) (events : List DirectoryEvent)
    (parsed : ∀ conversation ∈ writtenBy text Folder.empty events,
      text.fromSlice (text.toVecPretty conversation ++ [10]) = .ok conversation) :
    Shows text (changes text Folder.empty events) (kept text (fun _ => none) events) := by
  have stocked : Stocked text.format (changes text Folder.empty events)
      (kept text (fun _ => none) events) := stocked_changes (stocked_empty text.format) parsed
  constructor
  · intro id
    rw [getConversation, stocked.get]
  · intro entries _
    exact listConversations_sorted text entries
  · intro entries reads
    refine ((listConversations_perm text entries).map ConversationSummary.id).nodup_iff.mpr ?_
    rw [List.map_map]
    exact (stocked.list reads).once
  · intro entries reads summary among
    obtain ⟨conversation, listed, rfl⟩ := mem_listConversations.mp among
    obtain ⟨modified, there⟩ := (stocked.list reads).kept conversation listed
    exact ⟨conversation, modified, there, rfl⟩
  · intro entries reads id conversation modified there
    rcases (stocked.list reads).newest id conversation modified there with listed | behind
    · exact Or.inl (mem_listConversations.mpr ⟨conversation, listed, rfl⟩)
    · right
      constructor
      · rw [(listConversations_perm text entries).length_eq, List.length_map]
        exact behind.1
      · intro summary among
        obtain ⟨other, listed, rfl⟩ := mem_listConversations.mp among
        obtain ⟨later, saved, order⟩ := behind.2 other listed
        exact ⟨other, later, saved, rfl, order⟩

/-- A conversation is begun and named; a save without history and a torn one change nothing. -/
def draftEvents : List DirectoryEvent :=
  [.request true (.create ⟨List.replicate 16 0, rfl⟩ 10 .saved (some 5)),
    .stray ['n', 'o', 't', 'e'] (some ⟨none, none⟩)]

def namingEvents : List DirectoryEvent :=
  [.request true (.save firstDraft.id ⟨['P', 'l', 'a', 'n'], none, [], none⟩ 12 (.torn 9) none),
    .request true (.save firstDraft.id ⟨['P', 'l', 'a', 'n'], none, [], none⟩ 12 .saved (some 7)),
    .request false (.save firstDraft.id ⟨[], none, [], some 99⟩ 13 .saved none),
    .request true (.delete ['.', '.'] false)]

theorem drafts_parsed :
    ∀ conversation ∈ writtenBy draftText Folder.empty (draftEvents ++ namingEvents),
      draftText.fromSlice (draftText.toVecPretty conversation ++ [10]) = .ok conversation := by
  have written : writtenBy draftText Folder.empty (draftEvents ++ namingEvents) =
      [firstDraft, secondDraft, secondDraft] := by decide +kernel
  rw [written]
  intro conversation member
  simp only [List.mem_cons, List.not_mem_nil, or_false] at member
  rcases member with rfl | rfl | rfl
  · exact readDraft_first
  · exact readDraft_second
  · exact readDraft_second

theorem conversations_kept_drafts :
    Shows draftText (changes draftText Folder.empty (draftEvents ++ namingEvents))
      (kept draftText (fun _ => none) (draftEvents ++ namingEvents)) :=
  conversations_kept draftText (draftEvents ++ namingEvents) drafts_parsed

/-! ### What requests can reach -/

theorem change_own (folder : Folder) (event : DirectoryEvent) (name : List Char) :
    event.change text folder name = folder name ∨ OwnName idLength name ∨
      ∃ held, event = .stray name held := by
  cases event with
  | stray other held =>
      rcases apply_own text.format folder (.stray other held) name with same | own | stray
      · exact Or.inl same
      · exact Or.inr (Or.inl own)
      · obtain ⟨there, same⟩ := stray
        cases same
        exact Or.inr (Or.inr ⟨held, rfl⟩)
  | request keepHistory asked =>
      rw [DirectoryEvent.change]
      cases taken : asked.refused keepHistory with
      | true =>
          left
          rw [handle, taken]
          rfl
      | false =>
          rw [handle_apply keepHistory folder taken]
          rcases apply_own text.format folder (asked.event (beganAt text folder)) name with
            same | own | stray
          · exact Or.inl same
          · exact Or.inr (Or.inl own)
          · obtain ⟨held, same⟩ := stray
            cases asked <;> cases same

/-- Whatever ids the requests name, in any run, a file that is another one in the end lies in the
directory itself, under a plain name that only a conversation has, unless another program put it
there. -/
theorem requests_confined (text : ConversationText) (folder : Folder) (events : List DirectoryEvent)
    (name : List Char) :
    changes text folder events name = folder name ∨
      OwnName idLength name ∧ components (String.ofList name) = [.normal (String.ofList name)] ∨
      ∃ held, .stray name held ∈ events := by
  induction events generalizing folder with
  | nil => exact Or.inl rfl
  | cons event events ih =>
      rcases ih (event.change text folder) with later | own | stray
      · rcases change_own folder event name with same | own | stray
        · exact Or.inl (later.trans same)
        · exact Or.inr (Or.inl ⟨own, own.components_eq⟩)
        · obtain ⟨held, rfl⟩ := stray
          exact Or.inr (Or.inr ⟨held, List.mem_cons_self⟩)
      · exact Or.inr (Or.inl own)
      · obtain ⟨held, among⟩ := stray
        exact Or.inr (Or.inr ⟨held, List.mem_cons_of_mem _ among⟩)

/-! ### When a conversation began -/

/-- A request that does not end the conversation of an id, begin another one under it, or say when it
began, unless as it did. -/
def ConversationRequest.Carries (id : List Char) (createdAt : Nat) : ConversationRequest → Prop
  | .create random _ _ _ => newId random.val ≠ id
  | .save other incoming _ _ _ =>
      other = id → ∀ stated, incoming.createdAt = some stated → stated = createdAt
  | .delete other refused => other = id → refused = true

def DirectoryEvent.Carries (id : List Char) (createdAt : Nat) : DirectoryEvent → Prop
  | .request keepHistory asked => asked.refused keepHistory = false → asked.Carries id createdAt
  | .stray _ _ => True

/-- There is a conversation under the id, and it began then. -/
def Began (holdings : Holdings Conversation) (id : List Char) (createdAt : Nat) : Prop :=
  ∃ conversation modified, holdings id = some (conversation, modified) ∧
    conversation.createdAt = createdAt

theorem began_keep {holdings : Holdings Conversation} {id : List Char} {createdAt : Nat}
    (formed : isWellFormed text.format.idLength id = true) (began : Began holdings id createdAt)
    {event : DirectoryEvent} (carries : event.Carries id createdAt) :
    Began (event.keep text holdings) id createdAt := by
  have untouched {other : List Char} {entry : Option (Conversation × Option Nat)}
      (different : other ≠ id) : Began (Function.update holdings other entry) id createdAt := by
    rw [Began, Function.update_of_ne (Ne.symm different)]
    exact began
  cases event with
  | stray name held => exact began
  | request keepHistory asked =>
      rw [DirectoryEvent.keep]
      split
      · exact began
      · rename_i taken
        have carries := carries (Bool.eq_false_iff.mpr taken)
        cases asked with
        | create random now ending written =>
            have different : newId random.val ≠ id := carries
            cases ending with
            | saved =>
                simp only [ConversationRequest.event, Holdings.apply]
                split
                · exact untouched different
                · exact began
            | _ => exact began
        | save other incoming now ending written =>
            cases ending with
            | saved =>
                simp only [ConversationRequest.event, Holdings.apply]
                split
                · by_cases same : other = id
                  · subst same
                    obtain ⟨conversation, modified, there, start⟩ := began
                    have found : (holdings.answer text.format other).toOption.map
                        Conversation.createdAt = some createdAt := by
                      rw [Holdings.answer, if_pos formed, there]
                      exact congrArg some start
                    rw [found]
                    refine ⟨incoming.conversation other (some createdAt) now, written, ?_, ?_⟩
                    · exact Function.update_self _ _ _
                    · rw [SaveConversation.conversation]
                      cases stated : incoming.createdAt with
                      | none => rfl
                      | some value => exact carries rfl value stated
                  · exact untouched same
                · exact began
            | _ => exact began
        | delete other refused =>
            cases refused with
            | true => exact began
            | false =>
                refine untouched ?_
                intro same
                exact Bool.false_ne_true (carries same)

theorem began_kept {holdings : Holdings Conversation} {id : List Char} {createdAt : Nat}
    (formed : isWellFormed text.format.idLength id = true) (began : Began holdings id createdAt)
    {events : List DirectoryEvent} (carries : ∀ event ∈ events, event.Carries id createdAt) :
    Began (kept text holdings events) id createdAt := by
  induction events generalizing holdings with
  | nil => exact began
  | cons event events ih =>
      rw [List.forall_mem_cons] at carries
      exact ih (began_keep formed began carries.1) carries.2

theorem writtenBy_append (folder : Folder) (first last : List DirectoryEvent) :
    writtenBy text folder (first ++ last) =
      writtenBy text folder first ++ writtenBy text (changes text folder first) last := by
  induction first generalizing folder with
  | nil => rfl
  | cons event first ih =>
      rw [List.cons_append, writtenBy_cons, ih, writtenBy_cons folder event first, List.append_assoc]
      rfl

/-- A conversation that was there once is there still, and began when it did, however often it is
saved over without a word of that, whatever of it fails, and whatever becomes of the others. -/
theorem beginning_kept (text : ConversationText) (before after : List DirectoryEvent)
    (parsed : ∀ conversation ∈ writtenBy text Folder.empty (before ++ after),
      text.fromSlice (text.toVecPretty conversation ++ [10]) = .ok conversation)
    {id : List Char} {conversation : Conversation}
    (there : getConversation text (changes text Folder.empty before) id = .ok conversation)
    (carries : ∀ event ∈ after, event.Carries id conversation.createdAt) :
    ∃ later, getConversation text (changes text Folder.empty (before ++ after)) id = .ok later ∧
      later.createdAt = conversation.createdAt := by
  have whole : Stocked text.format (changes text Folder.empty (before ++ after))
      (kept text (fun _ => none) (before ++ after)) :=
    stocked_changes (stocked_empty text.format) parsed
  rw [writtenBy_append, List.forall_mem_append] at parsed
  have first : Stocked text.format (changes text Folder.empty before)
      (kept text (fun _ => none) before) := stocked_changes (stocked_empty text.format) parsed.1
  have formed : isWellFormed text.format.idLength id = true := by
    by_contra malformed
    rw [getConversation, Format.get, if_neg malformed] at there
    cases there
  rw [getConversation, first.get, Holdings.answer, if_pos formed] at there
  have began : Began (kept text (fun _ => none) before) id conversation.createdAt := by
    cases found : kept text (fun _ => none) before id with
    | none =>
        rw [found] at there
        cases there
    | some entry =>
        rw [found] at there
        cases there
        exact ⟨entry.1, entry.2, found, rfl⟩
  obtain ⟨later, modified, found, start⟩ := began_kept formed began carries
  refine ⟨later, ?_, start⟩
  have joined : kept text (fun _ => none) (before ++ after) id = some (later, modified) := by
    rw [kept, List.foldl_append]
    exact found
  rw [getConversation, whole.get, Holdings.answer, if_pos formed, joined]
  rfl

theorem beginning_kept_named :
    ∃ later, getConversation draftText
        (changes draftText Folder.empty (draftEvents ++ namingEvents)) firstDraft.id = .ok later ∧
      later.createdAt = 10 := by
  have there : getConversation draftText (changes draftText Folder.empty draftEvents) firstDraft.id =
      .ok firstDraft := by
    have file : changes draftText Folder.empty draftEvents (fileName firstDraft.id) =
        some ⟨some (draftFile firstDraft), some 5⟩ := rfl
    have formed : isWellFormed draftText.format.idLength firstDraft.id = true :=
      isWellFormed_newId rfl
    have read : draftText.format.parse (draftFile firstDraft) = .ok firstDraft := readDraft_first
    rw [getConversation, Format.get, if_pos formed, file]
    simp only [read]
    rfl
  refine beginning_kept draftText draftEvents namingEvents drafts_parsed there ?_
  intro event member
  simp only [namingEvents, List.mem_cons, List.not_mem_nil, or_false] at member
  rcases member with rfl | rfl | rfl | rfl
  · intro _ _ stated none_
    cases none_
  · intro _ _ stated none_
    cases none_
  · intro taken
    cases taken
  · intro _ same
    exact absurd same (by decide)

end Lightweight.Gateway
