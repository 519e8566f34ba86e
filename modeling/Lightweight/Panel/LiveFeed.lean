import Lightweight.Api.ChunkJson
import Lightweight.Broadcast
import Lightweight.Gateway.SchedulerPositions
import Lightweight.Panel.ChatReader

/-! The panel's live feed (`frontend/src/hooks/useEventStream.ts`) of the generations that finish at
the gateway (`events` of `lightweight-gateway/src/control.rs`): each is published once, a stream that
falls behind is told how many it missed, and a stream that breaks is opened anew. -/

namespace Lightweight.Panel

open Transition Broadcast Api Store Router

/-- One finished generation as the gateway publishes it. -/
structure RequestEvent where
  atUnixMs : Nat
  id : Option (List Char)
  model : Option (List Char)
  promptTokens : Nat
  completionTokens : Nat
  cachedTokens : Nat
  /-- None is a generation the client walked away from. -/
  finishReason : Option Inference.FinishReason
  queueWaitMs : Nat
  timeToFirstTokenMs : Option Nat
  totalMs : Nat
  band : Option Gateway.Band
deriving DecidableEq, Repr

def orNull (content : Option Content) : Content := content.getD .null

def RequestEvent.toContent (event : RequestEvent) : Content :=
  .map [("at_unix_ms".toList, natural event.atUnixMs),
    ("id".toList, orNull (event.id.map .string)),
    ("model".toList, orNull (event.model.map .string)),
    ("prompt_tokens".toList, natural event.promptTokens),
    ("completion_tokens".toList, natural event.completionTokens),
    ("cached_tokens".toList, natural event.cachedTokens),
    ("finish_reason".toList,
      orNull (event.finishReason.map fun reason => .string reason.asStr)),
    ("queue_wait_ms".toList, natural event.queueWaitMs),
    ("time_to_first_token_ms".toList, orNull (event.timeToFirstTokenMs.map natural)),
    ("total_ms".toList, natural event.totalMs),
    ("band".toList, orNull (event.band.map fun band => .string band.asStr.toList))]

/-- One frame of the stream. -/
inductive FeedFrame where
  | generation (event : RequestEvent)
  /-- This watcher fell behind by so many. -/
  | missed (count : Nat)
deriving DecidableEq, Repr

def missedHead : List Char := ['{', '"', 'm', 'i', 's', 's', 'e', 'd', '"', ':']

def missedText (count : Nat) : List Char := missedHead ++ Nat.toDigits 10 count ++ ['}']

def missedValue (count : Nat) : Value := .object [("missed".toList, .number (.posInt count))]

/-- The data of a frame. -/
def FeedFrame.payload (float : UInt64 → List Char) : FeedFrame → List Char
  | .generation event => event.toContent.compact float
  | .missed count => missedText count

/-- How many finished generations a slow watcher may fall behind. -/
def eventBacklog : Nat := 64

/-- What one `recv` is sent as. -/
def feedFrame (next : Nat) : Received RequestEvent × Nat → Option FeedFrame
  | (.value event, _) => some (.generation event)
  | (.lagged, later) => some (.missed (later - next))
  | (.closed, _) => none

/-- Whether `"at_unix_ms" in value`; of a value that has no members it throws. -/
def isEvent : Value → Bool
  | .object members => Map.containsKey "at_unix_ms".toList members
  | _ => false

/-- A frame that will not parse costs only itself. -/
def hearEvent (js : JavaScript) (limit : Nat) (events : List Value) (payload : List Char) :
    List Value :=
  match js.parse payload with
  | some value => if isEvent value then (value :: events).take limit else events
  | none => events

/-- A stream that is open: what the panel has read of it, and what is still on its way. -/
structure Connection where
  /-- How many generations had finished when it was opened. -/
  start : Nat
  /-- The receiver's cursor. -/
  next : Nat
  read : List FeedFrame
  transit : List FeedFrame

structure FeedWorld where
  finished : List RequestEvent
  connection : Option Connection
  /-- What the panel shows. -/
  events : List Value
  /-- Which of the generations it has heard of, by their places. -/
  heard : List Nat

def FeedWorld.start : FeedWorld := ⟨[], none, [], []⟩

inductive FeedAct where
  | finish (event : RequestEvent)
  | connect
  | publish
  | deliver
  /-- The stream breaks, or is closed at either end. -/
  | cut

/-- How many generations a frame accounts for. -/
def FeedFrame.weight : FeedFrame → Nat
  | .generation _ => 1
  | .missed count => count

def weigh (frames : List FeedFrame) : Nat := (frames.map FeedFrame.weight).sum

/-- The places of the events among the frames that follow on the first `place` generations. -/
def placesFrom : Nat → List FeedFrame → List Nat
  | _, [] => []
  | place, .generation _ :: rest => place :: placesFrom (place + 1) rest
  | place, .missed count :: rest => placesFrom (place + count) rest

def feedStep (channel : Channel RequestEvent) (js : JavaScript) (float : UInt64 → List Char)
    (limit : Nat) (world : FeedWorld) : FeedAct → Option FeedWorld
  | .finish event => some { world with finished := world.finished ++ [event] }
  | .connect =>
      if world.connection.isSome then none
      else
        let now := world.finished.length
        some { world with connection := some ⟨now, now, [], []⟩ }
  | .publish =>
      world.connection.bind fun connection =>
        (channel.recv world.finished false connection.next).bind fun received =>
          (feedFrame connection.next received).map fun frame =>
            { world with
              connection := some
                { connection with
                  next := received.2
                  transit := connection.transit ++ [frame] } }
  | .deliver =>
      world.connection.bind fun connection =>
        match connection.transit with
        | [] => none
        | frame :: rest =>
            some { world with
              connection := some
                { connection with read := connection.read ++ [frame], transit := rest }
              events := hearEvent js limit world.events (frame.payload float)
              heard := world.heard ++
                placesFrom (connection.start + weigh connection.read) [frame] }
  | .cut => world.connection.map fun _ => { world with connection := none }

/-! ### Frames that follow one another -/

section Frames

variable {finished more : List RequestEvent}

/-- Each frame is of the generation next in turn, or says how many it leaves out. -/
def Follows (finished : List RequestEvent) : Nat → List FeedFrame → Prop
  | _, [] => True
  | place, .generation event :: rest => finished[place]? = some event ∧ Follows finished (place + 1) rest
  | place, .missed count :: rest => 0 < count ∧ Follows finished (place + count) rest

@[simp]
theorem weigh_nil : weigh [] = 0 := rfl

theorem weigh_cons (frame : FeedFrame) (frames : List FeedFrame) :
    weigh (frame :: frames) = frame.weight + weigh frames := by
  rw [weigh, List.map_cons, List.sum_cons, weigh]

@[simp]
theorem weigh_append (front back : List FeedFrame) :
    weigh (front ++ back) = weigh front + weigh back := by
  rw [weigh, List.map_append, List.sum_append, weigh, weigh]

theorem Follows.mono {place : Nat} {frames : List FeedFrame}
    (follows : Follows finished place frames) : Follows (finished ++ more) place frames := by
  induction frames generalizing place with
  | nil => trivial
  | cons frame rest ih =>
      cases frame with
      | generation event =>
          have within : place < finished.length := (List.getElem?_eq_some_iff.mp follows.1).1
          exact ⟨by rw [List.getElem?_append_left within]; exact follows.1, ih follows.2⟩
      | missed count => exact ⟨follows.1, ih follows.2⟩

theorem follows_append {place : Nat} {front back : List FeedFrame} :
    Follows finished place (front ++ back) ↔
      Follows finished place front ∧ Follows finished (place + weigh front) back := by
  induction front generalizing place with
  | nil => simp [Follows]
  | cons frame rest ih =>
      cases frame with
      | generation event =>
          simp only [List.cons_append, Follows, ih, weigh_cons, FeedFrame.weight, ← Nat.add_assoc,
            and_assoc]
      | missed count =>
          simp only [List.cons_append, Follows, ih, weigh_cons, FeedFrame.weight, ← Nat.add_assoc,
            and_assoc]

theorem placesFrom_append (place : Nat) (front back : List FeedFrame) :
    placesFrom place (front ++ back) =
      placesFrom place front ++ placesFrom (place + weigh front) back := by
  induction front generalizing place with
  | nil => rfl
  | cons frame rest ih =>
      cases frame with
      | generation event =>
          rw [List.cons_append, placesFrom, placesFrom, ih, weigh_cons, FeedFrame.weight,
            List.cons_append, Nat.add_assoc]
      | missed count =>
          rw [List.cons_append, placesFrom, placesFrom, ih, weigh_cons, FeedFrame.weight,
            Nat.add_assoc]

theorem mem_placesFrom {start place : Nat} {frames : List FeedFrame}
    (member : place ∈ placesFrom start frames) : start ≤ place ∧ place < start + weigh frames := by
  induction frames generalizing start with
  | nil => cases member
  | cons frame rest ih =>
      cases frame with
      | generation event =>
          rw [weigh_cons, FeedFrame.weight]
          rcases List.mem_cons.mp member with here | later
          · omega
          · have bounds := ih later
            omega
      | missed count =>
          rw [weigh_cons, FeedFrame.weight]
          have bounds := ih member
          omega

theorem placesFrom_rising (start : Nat) (frames : List FeedFrame) :
    (placesFrom start frames).Pairwise (· < ·) := by
  induction frames generalizing start with
  | nil => exact List.Pairwise.nil
  | cons frame rest ih =>
      cases frame with
      | generation event =>
          refine List.pairwise_cons.mpr ⟨?_, ih (start + 1)⟩
          intro place member
          have bounds := mem_placesFrom member
          omega
      | missed count => exact ih (start + count)

/-- The events that a notice counts. -/
def FeedFrame.told : FeedFrame → Nat
  | .generation _ => 0
  | .missed count => count

/-- What the frames leave out, by their own account. -/
def missedIn (frames : List FeedFrame) : Nat := (frames.map FeedFrame.told).sum

theorem length_placesFrom (start : Nat) (frames : List FeedFrame) :
    (placesFrom start frames).length + missedIn frames = weigh frames := by
  induction frames generalizing start with
  | nil => rfl
  | cons frame rest ih =>
      have split : missedIn (frame :: rest) = frame.told + missedIn rest := by
        rw [missedIn, List.map_cons, List.sum_cons, missedIn]
      rw [split, weigh_cons]
      cases frame with
      | generation event =>
          rw [placesFrom, List.length_cons, FeedFrame.told, FeedFrame.weight, ← ih (start + 1)]
          omega
      | missed count =>
          rw [placesFrom, FeedFrame.told, FeedFrame.weight, ← ih (start + count)]
          omega

end Frames

/-! ### Every run -/

section Runs

variable {channel : Channel RequestEvent} {js : JavaScript} {float : UInt64 → List Char} {limit : Nat}
  {world after : FeedWorld} {connection : Connection}

/-- The events of the frames, as values. -/
def eventOf : FeedFrame → Option RequestEvent
  | .generation event => some event
  | .missed _ => none

/-- What an open stream has been sent, and what of it the panel has heard. -/
structure Connection.Sound (connection : Connection) (finished : List RequestEvent)
    (heard : List Nat) : Prop where
  follows : Follows finished connection.start (connection.read ++ connection.transit)
  counted : connection.start + weigh (connection.read ++ connection.transit) = connection.next
  within : connection.next ≤ finished.length
  heard : ∃ earlier, heard = earlier ++ placesFrom connection.start connection.read ∧
    ∀ place ∈ earlier, place < connection.start

structure FeedInv (js : JavaScript) (float : UInt64 → List Char) (limit : Nat) (world : FeedWorld) :
    Prop where
  rising : world.heard.Pairwise (· < ·)
  past : ∀ place ∈ world.heard, place < world.finished.length
  sound : ∀ connection, world.connection = some connection →
    connection.Sound world.finished world.heard
  shown : ∃ read : List FeedFrame,
    world.events = read.foldl (fun events frame => hearEvent js limit events (frame.payload float)) [] ∧
      read.filterMap eventOf = world.heard.filterMap (world.finished[·]?)

theorem feedInv_start : FeedInv js float limit .start where
  rising := List.Pairwise.nil
  past _ none_ := absurd none_ List.not_mem_nil
  sound _ none_ := absurd none_ (Option.some_ne_none _).symm
  shown := ⟨[], rfl, rfl⟩

/-- What a receiver gets accounts for the generations up to its new cursor. -/
theorem received_follows (channel : Channel RequestEvent) {finished : List RequestEvent}
    {next : Nat} {received : Received RequestEvent × Nat} {frame : FeedFrame}
    (within : next ≤ finished.length) (got : channel.recv finished false next = some received)
    (sent : feedFrame next received = some frame) :
    Follows finished next [frame] ∧ next + frame.weight = received.2 ∧
      received.2 ≤ finished.length := by
  have behind : next < finished.length := by
    by_contra caughtUp
    have nothing := channel.recv_caught_up finished false next (by omega)
    rw [got] at nothing
    cases nothing
  rcases channel.recv_behind finished false next behind with
    ⟨event, here, came⟩ | ⟨later, further, before, came⟩
  · rw [got] at came
    cases came
    cases sent
    exact ⟨⟨here, trivial⟩, rfl, behind⟩
  · rw [got] at came
    cases came
    cases sent
    refine ⟨⟨by omega, trivial⟩, ?_, before.le⟩
    rw [FeedFrame.weight]
    omega

theorem FeedInv.finish (inv : FeedInv js float limit world) (event : RequestEvent) :
    FeedInv js float limit { world with finished := world.finished ++ [event] } where
  rising := inv.rising
  past place member := by
    have before := inv.past place member
    simp only [List.length_append, List.length_singleton]
    omega
  sound connection opened := by
    have sound := inv.sound connection opened
    refine ⟨sound.follows.mono, sound.counted, ?_, sound.heard⟩
    have within := sound.within
    simp only [List.length_append]
    omega
  shown := by
    rcases inv.shown with ⟨read, events, same⟩
    refine ⟨read, events, same.trans ?_⟩
    apply List.filterMap_congr
    intro place member
    exact (List.getElem?_append_left (inv.past place member)).symm

theorem FeedInv.connect (inv : FeedInv js float limit world) :
    FeedInv js float limit { world with
      connection := some ⟨world.finished.length, world.finished.length, [], []⟩ } where
  rising := inv.rising
  past := inv.past
  sound connection opened := by
    cases opened
    exact ⟨trivial, rfl, le_rfl, world.heard, (List.append_nil _).symm, inv.past⟩
  shown := inv.shown

theorem FeedInv.cut (inv : FeedInv js float limit world) :
    FeedInv js float limit { world with connection := none } where
  rising := inv.rising
  past := inv.past
  sound _ none_ := absurd none_ (Option.some_ne_none _).symm
  shown := inv.shown

theorem FeedInv.publish (inv : FeedInv js float limit world)
    (opened : world.connection = some connection) {received : Received RequestEvent × Nat}
    {frame : FeedFrame}
    (got : channel.recv world.finished false connection.next = some received)
    (sent : feedFrame connection.next received = some frame) :
    FeedInv js float limit { world with
      connection := some { connection with
        next := received.2
        transit := connection.transit ++ [frame] } } where
  rising := inv.rising
  past := inv.past
  sound _ same := by
    cases same
    have sound := inv.sound connection opened
    have more := received_follows channel sound.within got sent
    refine ⟨?_, ?_, more.2.2, sound.heard⟩
    · rw [← List.append_assoc, follows_append, sound.counted]
      exact ⟨sound.follows, more.1⟩
    · rw [← List.append_assoc, weigh_append, ← Nat.add_assoc, sound.counted, weigh_cons, weigh_nil,
        Nat.add_zero]
      exact more.2.1
  shown := inv.shown

/-- The places of one frame are those of its generation. -/
theorem filterMap_placesFrom {finished : List RequestEvent} {place : Nat} {frames : List FeedFrame}
    (follows : Follows finished place frames) :
    (placesFrom place frames).filterMap (finished[·]?) = frames.filterMap eventOf := by
  induction frames generalizing place with
  | nil => rfl
  | cons frame rest ih =>
      cases frame with
      | generation event =>
          rw [placesFrom, List.filterMap_cons_some follows.1, ih follows.2]
          rfl
      | missed count =>
          rw [placesFrom, ih follows.2]
          rfl

theorem FeedInv.deliver (inv : FeedInv js float limit world)
    (opened : world.connection = some connection) {frame : FeedFrame} {rest : List FeedFrame}
    (waiting : connection.transit = frame :: rest) :
    FeedInv js float limit { world with
      connection := some { connection with read := connection.read ++ [frame], transit := rest }
      events := hearEvent js limit world.events (frame.payload float)
      heard := world.heard ++ placesFrom (connection.start + weigh connection.read) [frame] } := by
  have sound := inv.sound connection opened
  rcases sound.heard with ⟨earlier, heard, before⟩
  have whole : connection.read ++ connection.transit = (connection.read ++ [frame]) ++ rest := by
    rw [waiting, List.append_assoc, List.singleton_append]
  have follows := sound.follows
  rw [whole, follows_append, follows_append] at follows
  have counted := sound.counted
  rw [whole, weigh_append] at counted
  have reached : world.heard ++ placesFrom (connection.start + weigh connection.read) [frame] =
      earlier ++ placesFrom connection.start (connection.read ++ [frame]) := by
    rw [heard, placesFrom_append, List.append_assoc]
  constructor
  · rw [reached, List.pairwise_append]
    have rising := inv.rising
    rw [heard, List.pairwise_append] at rising
    refine ⟨rising.1, placesFrom_rising _ _, ?_⟩
    intro first old second new
    exact (before first old).trans_le (mem_placesFrom new).1
  · intro place member
    rcases List.mem_append.mp member with old | new
    · exact inv.past place old
    · have bounds := (mem_placesFrom new).2
      have within := sound.within
      rw [weigh_append] at counted
      have reached' : connection.start + weigh connection.read + weigh [frame] ≤
          world.finished.length := by omega
      exact bounds.trans_le reached'
  · intro _ same
    cases same
    refine ⟨?_, ?_, sound.within, earlier, reached, before⟩
    · rw [← whole]
      exact sound.follows
    · rw [← whole]
      exact sound.counted
  · rcases inv.shown with ⟨read, events, same⟩
    refine ⟨read ++ [frame], ?_, ?_⟩
    · rw [List.foldl_append, ← events]
      rfl
    · rw [List.filterMap_append, List.filterMap_append, same, filterMap_placesFrom follows.1.2]

theorem FeedInv.step {act : FeedAct} (inv : FeedInv js float limit world)
    (stepped : feedStep channel js float limit world act = some after) :
    FeedInv js float limit after := by
  cases act with
  | finish event =>
      cases stepped
      exact inv.finish event
  | connect =>
      rw [feedStep, Option.ite_none_left_eq_some] at stepped
      cases stepped.2
      exact inv.connect
  | publish =>
      rcases Option.bind_eq_some_iff.mp stepped with ⟨connection, opened, received⟩
      rcases Option.bind_eq_some_iff.mp received with ⟨received, got, framed⟩
      rcases Option.map_eq_some_iff.mp framed with ⟨frame, sent, rfl⟩
      exact inv.publish opened got sent
  | deliver =>
      rcases Option.bind_eq_some_iff.mp stepped with ⟨connection, opened, read⟩
      cases waiting : connection.transit with
      | nil =>
          rw [waiting] at read
          cases read
      | cons frame rest =>
          rw [waiting] at read
          cases read
          exact inv.deliver opened waiting
  | cut =>
      rcases Option.map_eq_some_iff.mp stepped with ⟨connection, opened, rfl⟩
      exact inv.cut

theorem RequestEvent.isEvent (event : RequestEvent) : isEvent event.toContent.toValue = true := by
  simp [Panel.isEvent, RequestEvent.toContent, Content.toValue, memberValues, Map.containsKey,
    Map.get_insert]

/-- A list that takes values at its head and keeps so many of them. -/
theorem foldl_hearEvent (read : List FeedFrame)
    (parsed : ∀ event, .generation event ∈ read →
      js.parse (event.toContent.compact float) = some event.toContent.toValue)
    (noticed : ∀ count, js.parse (missedText count) = some (missedValue count)) :
    read.foldl (fun events frame => hearEvent js limit events (frame.payload float)) [] =
      ((read.filterMap eventOf).map fun event => event.toContent.toValue).reverse.take limit := by
  induction read using List.reverseRecOn with
  | nil => simp
  | append_singleton read frame ih =>
      have before := ih fun event member => parsed event (List.mem_append_left _ member)
      rw [List.foldl_append, before, List.foldl_cons, List.foldl_nil, List.filterMap_append]
      cases frame with
      | missed count =>
          have silent : isEvent (missedValue count) = false := by
            simp [isEvent, missedValue, Map.containsKey, Map.get]
          have nothing : [FeedFrame.missed count].filterMap eventOf = [] := rfl
          simp only [hearEvent, FeedFrame.payload, noticed, silent, nothing, List.append_nil]
          rfl
      | generation event =>
          have here := parsed event (List.mem_append_right _ (List.mem_singleton_self _))
          have one : [FeedFrame.generation event].filterMap eventOf = [event] := rfl
          simp only [hearEvent, FeedFrame.payload, here, event.isEvent, if_true, one, List.map_append,
            List.map_singleton, List.reverse_append, List.reverse_singleton, List.singleton_append]
          cases limit with
          | zero => rfl
          | succ limit =>
              rw [List.take_succ_cons, List.take_succ_cons, List.take_take, Nat.min_eq_left
                (Nat.le_succ limit)]

/-- Whatever finishes, however far the streams fall behind and wherever they break: the feed shows the
generations it heard of last, newest first, each at most once and in the order in which they finished;
and of those that have finished since the stream was opened each one has been heard of, was counted
in a notice, or is still to come. -/
theorem live_feed (js : JavaScript)
    (reached : Reaches (feedStep channel js float limit) Always .start world)
    (parsed : ∀ event ∈ world.finished,
      js.parse (event.toContent.compact float) = some event.toContent.toValue)
    (noticed : ∀ count, js.parse (missedText count) = some (missedValue count)) :
    world.events = ((world.heard.filterMap (world.finished[·]?)).map
        fun event => event.toContent.toValue).reverse.take limit ∧
      world.heard.Pairwise (· < ·) ∧ (∀ place ∈ world.heard, place < world.finished.length) ∧
      ∀ connection, world.connection = some connection →
        Follows world.finished connection.start (connection.read ++ connection.transit) ∧
          (world.heard.filter (connection.start ≤ ·)).length + missedIn connection.read +
            weigh connection.transit + (world.finished.length - connection.next) =
              world.finished.length - connection.start := by
  have inv := reached.invariant (FeedInv js float limit) feedInv_start
    fun _ _ _ _ inv stepped => inv.step stepped
  rcases inv.shown with ⟨read, events, same⟩
  refine ⟨?_, inv.rising, inv.past, ?_⟩
  · rw [events, foldl_hearEvent read ?_ noticed, same]
    intro event member
    have listed : event ∈ read.filterMap eventOf :=
      List.mem_filterMap.mpr ⟨.generation event, member, rfl⟩
    rw [same] at listed
    rcases List.mem_filterMap.mp listed with ⟨place, _, here⟩
    exact parsed event (List.mem_of_getElem? here)
  · intro connection opened
    have sound := inv.sound connection opened
    rcases sound.heard with ⟨earlier, heard, before⟩
    have since : world.heard.filter (connection.start ≤ ·) =
        placesFrom connection.start connection.read := by
      rw [heard, List.filter_append, List.filter_eq_nil_iff.mpr, List.nil_append,
        List.filter_eq_self.mpr]
      · intro place member
        simpa using (mem_placesFrom member).1
      · intro place member
        simpa using before place member
    have counted := sound.counted
    have within := sound.within
    rw [weigh_append] at counted
    refine ⟨sound.follows, ?_⟩
    rw [since, length_placesFrom]
    omega

end Runs

section Sample

def sampleEvent : RequestEvent :=
  ⟨1700000000000, none, some "qwen".toList, 12, 30, 0, some .stop, 5, some 80, 900, some .bulk⟩

/-- A script that reads the notices, and the sample in every other payload. -/
def sampleScript : JavaScript where
  parse text :=
    if text.take 10 = missedHead then
      some (missedValue (Nat.ofDigitChars 10 (text.drop 10).dropLast 0))
    else some sampleEvent.toContent.toValue
  asText _ := []

theorem sampleScript_noticed (count : Nat) :
    sampleScript.parse (missedText count) = some (missedValue count) := by
  have head : (missedText count).take 10 = missedHead := rfl
  have digits : ((missedText count).drop 10).dropLast = Nat.toDigits 10 count := by
    have rest : (missedText count).drop 10 = Nat.toDigits 10 count ++ ['}'] := rfl
    rw [rest, List.dropLast_concat]
  simp only [sampleScript, head, if_true, digits, Nat.ofDigitChars_ten_toDigits]

/-- A watcher that falls two generations too far behind, on a channel of two. -/
def lateWatch : List FeedAct :=
  .connect :: List.replicate 4 (FeedAct.finish sampleEvent) ++
    [FeedAct.publish, .publish, .deliver, .deliver]

def lateFeed : FeedWorld where
  finished := List.replicate 4 sampleEvent
  connection := some ⟨0, 3, [.missed 2, .generation sampleEvent], []⟩
  events := [sampleEvent.toContent.toValue]
  heard := [2]

theorem live_feed_late :
    lateFeed.events = ((lateFeed.heard.filterMap (lateFeed.finished[·]?)).map
        fun event => event.toContent.toValue).reverse.take 12 ∧
      (lateFeed.heard.filter (0 ≤ ·)).length + 2 + 0 + (4 - 3) = 4 := by
  have ran : run (feedStep (bounded 2 (by decide)) sampleScript (fun _ => []) 12) .start
      lateWatch = some lateFeed := rfl
  have feed := live_feed sampleScript (run_reaches ran)
    (by
      intro event member
      rw [List.eq_of_mem_replicate member]
      rfl)
    sampleScript_noticed
  exact ⟨feed.1, (feed.2.2.2 _ rfl).2⟩

end Sample

end Lightweight.Panel
