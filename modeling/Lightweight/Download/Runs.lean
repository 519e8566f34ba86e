import Lightweight.Download.Attempts

/-! Attempts one behind the other: what gets to the destination, and whether the last one gets it
there. -/

namespace Lightweight.Download

open Lightweight.Fallible

/-- The disk after some attempts. -/
def afterAttempts (sha : Hasher) (start : Disk) (attempts : List (Fetch × Surroundings)) : Disk :=
  attempts.foldl (fun disk attempt => finalOf (fetch sha attempt.1 attempt.2 disk)) start

/-- The bytes that an attempt puts in their place: it moves them there from the partial file, and
reports their digest unless its process goes just then. -/
structure Places (sha : Hasher) (request : Fetch) (disk : Disk) (bytes : List UInt8)
    (result : EStateM.Result Stop Disk Fetched) : Prop where
  renamed : finalOf result = rename (partialPath request.destination) request.destination
    (Function.update disk (partialPath request.destination) (some bytes))
  accepts : request.Accepts sha bytes
  reported : (∃ fetched final, result = .ok fetched final ∧
      fetched.sha256 = hexEncode (sha.digest bytes)) ∨
    ∃ final, result = .error .killed final

/-- What one attempt may do. -/
structure Sound (sha : Hasher) (request : Fetch) (around : Surroundings) (disk : Disk)
    (result : EStateM.Result Stop Disk Fetched) : Prop where
  placed : finalOf result request.destination = disk request.destination ∨
    ∃ bytes, Places sha request disk bytes result
  reported : ∀ fetched final, result = .ok fetched final → ∃ bytes,
    final request.destination = some bytes ∧ fetched.sha256 = hexEncode (sha.digest bytes) ∧
      ∀ expected, request.expectedSha256 = some expected →
        fetched.sha256 = expected.map Char.toLower
  /-- Unless the disk refuses to remove it. -/
  discarded : ∀ expected actual final, result = .error (.error (.corrupt expected actual)) final →
    around.removal = none → final (partialPath request.destination) = none
  others : ∀ path, path ≠ request.destination → path ≠ partialPath request.destination →
    finalOf result path = disk path

section Sound

variable {sha : Hasher} {request : Fetch} {around : Surroundings} {disk : Disk}

/-- An attempt that only touches the partial file. -/
theorem Sound.of_part {stop : Stop} {left : Option (List UInt8)}
    (discarded : ∀ expected actual, stop = .error (.corrupt expected actual) →
      around.removal = none → left = none) :
    Sound sha request around disk
      (.error stop (Function.update disk (partialPath request.destination) left)) where
  placed := Or.inl (Function.update_of_ne (part_ne request.destination).symm _ _)
  reported _ _ same := nomatch same
  discarded expected actual final same undisturbed := by
    cases same
    rw [Function.update_self]
    exact discarded expected actual rfl undisturbed
  others path _ other := Function.update_of_ne other _ _

theorem update_others {bytes : List UInt8} {path : String} (apart : path ≠ request.destination)
    (other : path ≠ partialPath request.destination) :
    Function.update (Function.update disk (partialPath request.destination) none)
      request.destination (some bytes) path = disk path := by
  rw [Function.update_of_ne apart, Function.update_of_ne other]

theorem Attempted.sound {result : EStateM.Result Stop Disk Fetched}
    (attempted : Attempted sha request around disk result) :
    Sound sha request around disk result := by
  cases attempted with
  | unopened ordinary why =>
      refine ⟨Or.inl rfl, nofun, ?_, fun _ _ _ => rfl⟩
      intro expected actual final same
      cases same
      exact absurd rfl (ordinary expected actual)
  | cut ordinary asked success why so_far =>
      apply Sound.of_part
      exact fun expected actual same => absurd same (ordinary expected actual)
  | mismatched asked success differs removed =>
      rcases removed with rfl | ⟨refused, rfl⟩
      · exact Sound.of_part fun _ _ _ _ => rfl
      · exact Sound.of_part fun _ _ _ undisturbed => absurd undisturbed refused
  | unplaced ordinary asked success why accepts =>
      apply Sound.of_part
      exact fun expected actual same => absurd same (ordinary expected actual)
  | unreported asked success why accepts =>
      refine ⟨Or.inr ⟨_, (rename_update _).symm, accepts, Or.inr ⟨_, rfl⟩⟩, nofun, nofun, ?_⟩
      exact fun path apart other => update_others apart other
  | placed asked success accepts reported counted =>
      refine ⟨Or.inr ⟨_, (rename_update _).symm, accepts, Or.inl ⟨_, _, rfl, reported⟩⟩, ?_, nofun, ?_⟩
      · intro fetched final same
        cases same
        refine ⟨_, Function.update_self _ _ _, reported, ?_⟩
        exact fun expected given => reported.trans (accepts expected given)
      · exact fun path apart other => update_others apart other

end Sound

theorem afterAttempts_append (sha : Hasher) (start : Disk) (attempts : List (Fetch × Surroundings))
    (request : Fetch) (around : Surroundings) :
    afterAttempts sha start (attempts ++ [(request, around)]) =
      finalOf (fetch sha request around (afterAttempts sha start attempts)) := by
  unfold afterAttempts
  rw [List.foldl_append, List.foldl_cons, List.foldl_nil]

/-- A server that serves the range it is asked for. -/
def serveRange (file : List UInt8) : Option Nat → Answer
  | none => .response ⟨200, "200 OK", [.chunk file]⟩
  | some first =>
      if first < file.length then .response ⟨206, "206 Partial Content", [.chunk (file.drop first)]⟩
      else .response ⟨416, "416 Range Not Satisfiable", []⟩

/-- Nothing goes wrong on the disk. -/
def calm (answer : Option Nat → Answer) : Surroundings where
  windows := false
  directory := none
  task := .ran .reads
  answer
  opening := none
  flush := none
  removal := none
  finalising := none

/-- Three bytes, and a digest that is SHA-256 on them. -/
def threeBytes : List UInt8 := [1, 2, 3]

def threeBytesDigest : List UInt8 :=
  [0x03, 0x90, 0x58, 0xc6, 0xf2, 0xc0, 0xcb, 0x49, 0x2c, 0x53, 0x3b, 0x0a, 0x4d, 0x14,
    0xef, 0x77, 0xcc, 0x0f, 0x78, 0xab, 0xcc, 0xce, 0xd5, 0x28, 0x7d, 0x84, 0xa1, 0xa2,
    0x01, 0x1c, 0xfb, 0x81]

def demoSha : Hasher where
  State := List UInt8
  new := []
  update := (· ++ ·)
  finalize bytes := if bytes = threeBytes then threeBytesDigest else []
  digest bytes := if bytes = threeBytes then threeBytesDigest else []
  incremental pieces := by
    have all : pieces.foldl (fun bytes more => bytes ++ id more) [] = pieces.flatten := by
      rw [List.foldl_append_eq_append, List.nil_append, List.map_id]
    exact congrArg (fun bytes => if bytes = threeBytes then threeBytesDigest else []) all

def demoFetch : Fetch where
  url := "https://example.com/model.gguf".toList
  destination := "model.gguf"
  inDirectory := false
  expectedSha256 := some "039058c6f2c0cb492c533b0a4d14ef77cc0f78abccced5287d84a1a2011cfb81".toList
  what := "the model"

/-- The connection breaks behind the second byte. -/
def brokenOff : Surroundings :=
  calm fun _ => .response ⟨200, "200 OK", [.chunk [1, 2], .stop (.broken "connection reset") 0]⟩

/-- The replies of a server to the range that it is asked for, when it serves a file. -/
inductive Serves (file : List UInt8) : Option Nat → Nat → List UInt8 → Prop where
  | whole (range : Option Nat) : Serves file range 200 file
  | rest {first : Nat} (inside : first < file.length) :
      Serves file (some first) 206 (file.drop first)
  | beyond {first : Nat} (outside : file.length ≤ first) (page : List UInt8) :
      Serves file (some first) 416 page

/-- The server serves the file, as far as its replies get. -/
def Surroundings.Honest (file : List UInt8) (around : Surroundings) : Prop :=
  ∀ range response, around.answer range = .response response →
    ∃ body, Serves file range response.status body ∧ response.body <+: body

/-- Nothing comes between. -/
structure Surroundings.Uninterrupted (file : List UInt8) (around : Surroundings) : Prop
    extends around.Undisturbed where
  served : ∀ range, ∃ response, around.answer range = .response response ∧ response.Whole ∧
    Serves file range response.status response.body

/-- The request can have the file for an answer. -/
structure Fetch.For (sha : Hasher) (file : List UInt8) (request : Fetch) : Prop where
  secure : requireHttps request.url = .ok ()
  accepts : request.Accepts sha file

/-- An attempt that nothing comes between ends with the file in its place. -/
def Finishes (sha : Hasher) (file : List UInt8) (request : Fetch) (disk : Disk) : Prop :=
  ∀ around : Surroundings, around.Uninterrupted file →
    ∃ fetched final, fetch sha request around disk = .ok fetched final ∧
      final request.destination = some file

section Honest

variable {sha : Hasher} {request : Fetch} {around : Surroundings} {disk : Disk}
  {file held : List UInt8} {response : Response}

/-- What is kept of an earlier attempt goes together with what a server sends. -/
theorem kept_append_served {body : List UInt8} (serves : Serves file (rangeOf held) response.status body)
    (success : isSuccess response.status = true) (begun : held <+: file) :
    kept held response ++ body = file := by
  generalize asked : rangeOf held = range at serves
  generalize replied : response.status = status at serves
  cases serves with
  | whole =>
      have nothing : kept held response = [] := by
        unfold kept restarts
        rw [replied]
        cases held with
        | nil => exact ite_self _
        | cons byte bytes => rfl
      rw [nothing, List.nil_append]
  | rest inside =>
      have all : kept held response = held := by
        unfold kept restarts
        rw [replied]
        simp
      unfold rangeOf at asked
      split at asked
      · cases asked
        rw [all]
        exact List.prefix_iff_eq_append.mp begun
      · cases asked
  | beyond outside page =>
      rw [replied] at success
      cases success

theorem rangeOf_eq_some {first : Nat} (asked : rangeOf held = some first) :
    first = held.length ∧ held ≠ [] := by
  unfold rangeOf at asked
  split at asked
  · rename_i positive
    cases asked
    exact ⟨rfl, List.ne_nil_of_length_pos positive⟩
  · cases asked

/-- The partial file has the first bytes of the file. -/
def Begun (file : List UInt8) (destination : String) (disk : Disk) : Prop :=
  ∀ left, disk (partialPath destination) = some left → left <+: file

theorem Asked.begun (asked : Asked request around disk held response)
    (begun : Begun file request.destination disk) : held <+: file := by
  rcases asked.there with rfl | there
  · exact List.nil_prefix
  · exact begun held there

theorem Attempted.begun {result : EStateM.Result Stop Disk Fetched}
    (attempted : Attempted sha request around disk result) (honest : around.Honest file)
    (begun : Begun file request.destination disk) :
    Begun file request.destination (finalOf result) := by
  have with_part : ∀ {left : List UInt8}, left <+: file → Begun file request.destination
      (Function.update disk (partialPath request.destination) (some left)) := by
    intro left so_far found there
    rw [Function.update_self] at there
    cases there
    exact so_far
  have received : ∀ {held : List UInt8} {response : Response},
      Asked request around disk held response → isSuccess response.status = true →
        kept held response ++ response.body <+: file := by
    intro held response asked success
    obtain ⟨body, serves, so_far⟩ := honest _ response asked.answered
    rw [← kept_append_served serves success (asked.begun begun)]
    exact List.prefix_append_right_inj _ |>.mpr so_far
  have without_part : ∀ {disk : Disk}, disk (partialPath request.destination) = none →
      Begun file request.destination disk := by
    intro disk gone left there
    rw [gone] at there
    cases there
  have placed : ∀ {bytes : List UInt8}, Begun file request.destination
      (Function.update (Function.update disk (partialPath request.destination) none)
        request.destination (some bytes)) := by
    intro bytes
    apply without_part
    rw [Function.update_of_ne (part_ne _), Function.update_self]
  cases attempted with
  | unopened ordinary why => exact begun
  | cut ordinary asked success why so_far => exact with_part (so_far.trans (received asked success))
  | mismatched asked success differs removed =>
      rcases removed with rfl | ⟨-, rfl⟩
      · exact without_part (Function.update_self _ _ _)
      · exact with_part (received asked success)
  | unplaced ordinary asked success why accepts => exact with_part (received asked success)
  | unreported asked success why accepts => exact placed
  | placed asked success accepts reported counted => exact placed

theorem afterAttempts_begun {start : Disk} {attempts : List (Fetch × Surroundings)}
    (fresh : start (partialPath request.destination) = none)
    (earlier : ∀ attempt ∈ attempts,
      attempt.1.destination = request.destination ∧ attempt.2.Honest file) :
    Begun file request.destination (afterAttempts sha start attempts) := by
  induction attempts using List.reverseRecOn with
  | nil =>
      intro left there
      change start _ = _ at there
      rw [fresh] at there
      cases there
  | append_singleton attempts attempt ih =>
      obtain ⟨other, around⟩ := attempt
      have before := ih fun attempt member => earlier attempt (List.mem_append_left _ member)
      obtain ⟨same, honest⟩ := earlier (other, around) (List.mem_append_right _ List.mem_cons_self)
      rw [afterAttempts_append]
      rw [← same] at before ⊢
      exact (fetch_attempted sha other around _).begun honest before

theorem serveRange_uninterrupted (file : List UInt8) :
    (calm (serveRange file)).Uninterrupted file := by
  refine ⟨⟨rfl, rfl, rfl, rfl, rfl⟩, ?_⟩
  intro range
  cases range with
  | none =>
      refine ⟨_, rfl, ?_, ?_⟩
      · intro arrival member
        rw [List.mem_singleton.mp member]
        rfl
      · rw [Response.body, List.flatMap_singleton]
        exact .whole none
  | some first =>
      by_cases inside : first < file.length
      · refine ⟨_, if_pos inside, ?_, ?_⟩
        · intro arrival member
          rw [List.mem_singleton.mp member]
          rfl
        · rw [Response.body, List.flatMap_singleton]
          exact .rest inside
      · refine ⟨_, if_neg inside, nofun, ?_⟩
        exact .beyond (Nat.le_of_not_lt inside) []

/-- A whole partial file is asked about beyond its end, and no answer to that is taken. -/
theorem not_finishes_of_whole (some_bytes : file ≠ [])
    (whole : disk (partialPath request.destination) = some file) :
    ¬Finishes sha file request disk := by
  intro finishes
  obtain ⟨fetched, final, fetched_eq, -⟩ := finishes _ (serveRange_uninterrupted file)
  have attempted := fetch_attempted sha request (calm (serveRange file)) disk
  rw [fetched_eq] at attempted
  cases attempted with
  | @placed held response _ asked success =>
      have read : held = file := by
        rw [asked.read rfl, whole]
        rfl
      subst read
      have beyond : (calm (serveRange held)).answer (rangeOf held) =
          .response ⟨416, "416 Range Not Satisfiable", []⟩ := by
        rw [rangeOf, if_pos (List.length_pos_of_ne_nil some_bytes)]
        exact if_neg (Nat.lt_irrefl _)
      rw [asked.answered] at beyond
      cases beyond
      cases success

theorem finishes_of_unfinished (wanted : request.For sha file)
    (begun : Begun file request.destination disk)
    (unfinished : disk (partialPath request.destination) = some file → file = []) :
    Finishes sha file request disk := by
  intro around uninterrupted
  have attempted := fetch_attempted sha request around disk
  have undisturbed := uninterrupted.toUndisturbed
  have served : ∀ {held : List UInt8} {response : Response},
      Asked request around disk held response → isSuccess response.status = true →
        kept held response ++ response.body = file := by
    intro held response asked success
    obtain ⟨answer, answered, -, serves⟩ := uninterrupted.served (rangeOf held)
    rw [asked.answered] at answered
    cases answered
    exact kept_append_served serves success (asked.begun begun)
  generalize ended : fetch sha request around disk = result at attempted
  cases attempted with
  | unopened ordinary why =>
      rcases why with insecure | disturbed | ⟨held, read, refused⟩
      · exact absurd wanted.secure insecure
      · exact absurd undisturbed disturbed
      · obtain ⟨response, answered, -, serves⟩ := uninterrupted.served (rangeOf held)
        have failure := refused response answered
        generalize asked : rangeOf held = range at serves
        generalize replied : response.status = status at serves
        generalize response.body = body at serves
        rw [replied] at failure
        cases serves with
        | whole => cases failure
        | rest inside => cases failure
        | beyond outside page =>
            -- the partial file has all the bytes, and there are some
            obtain ⟨rfl, some_held⟩ := rangeOf_eq_some asked
            have there : disk (partialPath request.destination) = some held := by
              have read := read undisturbed.task
              cases part : disk (partialPath request.destination) with
              | none =>
                  rw [part] at read
                  exact absurd read some_held
              | some left =>
                  rw [part] at read
                  rw [read]
                  rfl
            have all : held = file := (begun held there).eq_of_length_le outside
            subst all
            exact absurd (unfinished there) some_held
  | cut ordinary asked success why so_far =>
      rcases why with disturbed | broken
      · exact absurd undisturbed disturbed
      · obtain ⟨answer, answered, whole, -⟩ := uninterrupted.served (rangeOf _)
        rw [asked.answered] at answered
        cases answered
        exact absurd whole broken
  | mismatched asked success differs removed =>
      rw [served asked success] at differs
      exact absurd wanted.accepts differs
  | unplaced ordinary asked success why accepts => exact absurd undisturbed why
  | unreported asked success why accepts => exact absurd undisturbed why
  | placed asked success accepts reported counted =>
      rw [served asked success]
      exact ⟨_, _, rfl, Function.update_self _ _ _⟩

/-- After any attempts on a server that serves a file, the next one gets it unless all of it is in
the partial file already. -/
theorem download_finishes_iff {start : Disk} {attempts : List (Fetch × Surroundings)}
    (fresh : start (partialPath request.destination) = none)
    (earlier : ∀ attempt ∈ attempts,
      attempt.1.destination = request.destination ∧ attempt.2.Honest file)
    (wanted : request.For sha file) :
    Finishes sha file request (afterAttempts sha start attempts) ↔
      (afterAttempts sha start attempts (partialPath request.destination) = some file → file = []) := by
  constructor
  · intro finishes whole
    by_contra some_bytes
    exact not_finishes_of_whole some_bytes whole finishes
  · exact finishes_of_unfinished wanted (afterAttempts_begun fresh earlier)

end Honest

theorem demoFetch_for : demoFetch.For demoSha threeBytes := by
  refine ⟨by decide, ?_⟩
  intro expected given
  cases given
  decide

theorem brokenOff_honest : brokenOff.Honest threeBytes := by
  intro range response answered
  cases answered
  exact ⟨threeBytes, .whole range, ⟨[3], rfl⟩⟩

theorem broken_download_finishes :
    Finishes demoSha threeBytes demoFetch
      (afterAttempts demoSha (fun _ => none) [(demoFetch, brokenOff)]) := by
  apply (download_finishes_iff rfl _ demoFetch_for).mpr
  · intro whole
    have two : afterAttempts demoSha (fun _ => none) [(demoFetch, brokenOff)]
        (partialPath demoFetch.destination) = some [1, 2] := by
      decide
    rw [two] at whole
    cases whole
  · intro attempt member
    rw [List.mem_singleton.mp member]
    exact ⟨rfl, brokenOff_honest⟩

/-- The process goes when the file is complete and not yet in its place. -/
def goneBeforeRename : Surroundings :=
  { calm (serveRange threeBytes) with finalising := some (.killed false) }

theorem complete_part_never_finishes :
    goneBeforeRename.Honest threeBytes ∧ demoFetch.For demoSha threeBytes ∧
      outcome (fetch demoSha demoFetch (calm (serveRange threeBytes)))
          (afterAttempts demoSha (fun _ => none) [(demoFetch, goneBeforeRename)]) =
        .error (.error (.failed "the model"
          "https://example.com/model.gguf returned HTTP 416 Range Not Satisfiable")) ∧
      ¬Finishes demoSha threeBytes demoFetch
        (afterAttempts demoSha (fun _ => none) [(demoFetch, goneBeforeRename)]) := by
  refine ⟨?_, demoFetch_for, by decide, ?_⟩
  · intro range response answered
    obtain ⟨served, same, -, serves⟩ := (serveRange_uninterrupted threeBytes).served range
    rw [show goneBeforeRename.answer range = (calm (serveRange threeBytes)).answer range from rfl,
      same] at answered
    cases answered
    exact ⟨_, serves, List.prefix_rfl⟩
  · apply not_finishes_of_whole
    · exact List.cons_ne_nil _ _
    · decide

end Lightweight.Download
