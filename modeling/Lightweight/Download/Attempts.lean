import Lightweight.Download.Fetch

/-! What an attempt can come to, whatever happens around it. -/

namespace Lightweight.Download

open Lightweight.Catalog Lightweight.Fallible

/-- The state of a digest of some bytes. -/
def Hasher.Hashes (sha : Hasher) (hasher : sha.State) (bytes : List UInt8) : Prop :=
  ∃ pieces : List (List UInt8), pieces.flatten = bytes ∧ hasher = pieces.foldl sha.update sha.new

section Hashes

variable {sha : Hasher} {hasher : sha.State} {bytes : List UInt8}

theorem Hasher.hashes_new : sha.Hashes sha.new [] := ⟨[], rfl, rfl⟩

theorem Hasher.Hashes.update (hashes : sha.Hashes hasher bytes) (more : List UInt8) :
    sha.Hashes (sha.update hasher more) (bytes ++ more) := by
  obtain ⟨pieces, rfl, rfl⟩ := hashes
  refine ⟨pieces ++ [more], ?_, ?_⟩
  · rw [List.flatten_append, List.flatten_singleton]
  · rw [List.foldl_append, List.foldl_cons, List.foldl_nil]

theorem Hasher.Hashes.finalize (hashes : sha.Hashes hasher bytes) :
    sha.finalize hasher = sha.digest bytes := by
  obtain ⟨pieces, rfl, rfl⟩ := hashes
  exact sha.incremental pieces

theorem hashPieces_hashes {turns : Nat} {rest : List UInt8} (total : Nat)
    (enough : rest.length < turns) (hashes : sha.Hashes hasher bytes) :
    sha.Hashes (hashPieces sha turns rest (hasher, total)).1 (bytes ++ rest) ∧
      (hashPieces sha turns rest (hasher, total)).2 = total + rest.length := by
  induction turns generalizing hasher bytes rest total with
  | zero => cases enough
  | succ turns ih =>
      unfold hashPieces
      dsimp only
      split
      · rename_i nothing
        have empty : rest = [] := by
          rcases List.take_eq_nil_iff.mp nothing with buffer | empty
          · cases buffer
          · exact empty
        subst empty
        rw [List.append_nil]
        exact ⟨hashes, rfl⟩
      · rename_i something
        have shorter : (rest.drop rehashBuffer).length < turns := by
          have some_rest : rest ≠ [] := by
            rintro rfl
            exact something List.take_nil
          have positive := List.length_pos_of_ne_nil some_rest
          rw [List.length_drop, rehashBuffer]
          omega
        have split : rest.take rehashBuffer ++ rest.drop rehashBuffer = rest :=
          List.take_append_drop rehashBuffer rest
        obtain ⟨hashed, counted⟩ := ih (total + (rest.take rehashBuffer).length) shorter
          (hashes.update (rest.take rehashBuffer))
        rw [List.append_assoc, split] at hashed
        refine ⟨hashed, counted.trans ?_⟩
        rw [Nat.add_assoc, ← List.length_append, split]

end Hashes

theorem part_ne (destination : String) : partialPath destination ≠ destination := by
  intro same
  have lengths := congrArg String.length same
  rw [partialPath, String.length_append] at lengths
  have five : ".part".length = 5 := rfl
  omega

/-- No digest was found wrong. -/
def Stop.Ordinary (stop : Stop) : Prop := ∀ expected actual, stop ≠ .error (.corrupt expected actual)

theorem mapIo_ordinary (windows : Bool) (context : String) (err : IoError) :
    (Stop.error (mapIo windows context err)).Ordinary := by
  intro expected actual
  unfold mapIo
  split
  · rintro ⟨⟩
  · rintro ⟨⟩

theorem Interruption.stop_ordinary (windows : Bool) (context : String) (fault : Interruption) :
    (fault.stop windows context).Ordinary := by
  cases fault with
  | refused err => exact mapIo_ordinary windows context err
  | killed done => exact nofun

theorem Cause.stop_ordinary (windows : Bool) (what : String) (cause : Cause) :
    (cause.stop windows what).Ordinary := by
  cases cause with
  | broken reason => exact nofun
  | cancelled => exact nofun
  | unwritten bytes err => exact mapIo_ordinary windows _ err
  | killed => exact nofun

/-- Nothing goes wrong on the disk, and the process stays. -/
structure Surroundings.Undisturbed (around : Surroundings) : Prop where
  directory : around.directory = none
  task : around.task = .ran .reads
  opening : around.opening = none
  flush : around.flush = none
  finalising : around.finalising = none

def Arrival.bytes : Arrival → List UInt8
  | .chunk bytes => bytes
  | .stop cause _ => cause.handed

def Arrival.isChunk : Arrival → Bool
  | .chunk _ => true
  | .stop _ _ => false

/-- What comes of the body. -/
def Response.body (response : Response) : List UInt8 := response.arrivals.flatMap Arrival.bytes

/-- The body comes to its end. -/
def Response.Whole (response : Response) : Prop := ∀ arrival ∈ response.arrivals, arrival.isChunk = true

def rangeOf (held : List UInt8) : Option Nat := if 0 < held.length then some held.length else none

/-- What is there when the body begins. -/
def kept (held : List UInt8) (response : Response) : List UInt8 :=
  if restarts held.length response then [] else held

/-- The digest of the bytes is the one that is expected, if one is. -/
def Fetch.Accepts (sha : Hasher) (request : Fetch) (bytes : List UInt8) : Prop :=
  ∀ expected, request.expectedSha256 = some expected →
    hexEncode (sha.digest bytes) = expected.map Char.toLower

/-- What an attempt has read of an earlier one, and the answer it gets. -/
structure Asked (request : Fetch) (around : Surroundings) (disk : Disk) (held : List UInt8)
    (response : Response) : Prop where
  there : held = [] ∨ disk (partialPath request.destination) = some held
  read : around.task = .ran .reads → held = (disk (partialPath request.destination)).getD []
  answered : around.answer (rangeOf held) = .response response

/-- All that an attempt can come to. -/
inductive Attempted (sha : Hasher) (request : Fetch) (around : Surroundings) (disk : Disk) :
    EStateM.Result Stop Disk Fetched → Prop where
  /-- It stops before it opens the file. -/
  | unopened {stop : Stop} (ordinary : stop.Ordinary)
      (why : requireHttps request.url ≠ .ok () ∨ ¬around.Undisturbed ∨
        ∃ held, (around.task = .ran .reads → held = (disk (partialPath request.destination)).getD []) ∧
          ∀ response, around.answer (rangeOf held) = .response response →
            isSuccess response.status = false) :
      Attempted sha request around disk (.error stop disk)
  /-- It stops on the way. -/
  | cut {stop : Stop} {held left : List UInt8} {response : Response} (ordinary : stop.Ordinary)
      (asked : Asked request around disk held response) (success : isSuccess response.status = true)
      (why : ¬around.Undisturbed ∨ ¬response.Whole)
      (so_far : left <+: kept held response ++ response.body) :
      Attempted sha request around disk
        (.error stop (Function.update disk (partialPath request.destination) (some left)))
  /-- What came is not what is expected. -/
  | mismatched {stop : Stop} {held : List UInt8} {response : Response} {after : Disk}
      (asked : Asked request around disk held response) (success : isSuccess response.status = true)
      (differs : ¬request.Accepts sha (kept held response ++ response.body))
      (removed : after = Function.update disk (partialPath request.destination) none ∨
        around.removal ≠ none ∧ after = Function.update disk (partialPath request.destination)
          (some (kept held response ++ response.body))) :
      Attempted sha request around disk (.error stop after)
  /-- The file does not get to its place. -/
  | unplaced {stop : Stop} {held : List UInt8} {response : Response} (ordinary : stop.Ordinary)
      (asked : Asked request around disk held response) (success : isSuccess response.status = true)
      (why : ¬around.Undisturbed) (accepts : request.Accepts sha (kept held response ++ response.body)) :
      Attempted sha request around disk
        (.error stop (Function.update disk (partialPath request.destination)
          (some (kept held response ++ response.body))))
  /-- The process goes when the file is in its place. -/
  | unreported {held : List UInt8} {response : Response}
      (asked : Asked request around disk held response) (success : isSuccess response.status = true)
      (why : ¬around.Undisturbed) (accepts : request.Accepts sha (kept held response ++ response.body)) :
      Attempted sha request around disk
        (.error .killed (Function.update
          (Function.update disk (partialPath request.destination) none)
          request.destination (some (kept held response ++ response.body))))
  | placed {held : List UInt8} {response : Response} {fetched : Fetched}
      (asked : Asked request around disk held response) (success : isSuccess response.status = true)
      (accepts : request.Accepts sha (kept held response ++ response.body))
      (reported : fetched.sha256 = hexEncode (sha.digest (kept held response ++ response.body)))
      (counted : fetched.bytes = (kept held response ++ response.body).length) :
      Attempted sha request around disk
        (.ok fetched (Function.update (Function.update disk (partialPath request.destination) none)
          request.destination (some (kept held response ++ response.body))))

section Stages

variable {sha : Hasher} {request : Fetch} {around : Surroundings} {disk : Disk}

theorem perform_ends (windows : Bool) (context : String) (fault : Option Interruption)
    (change : Disk → Disk) :
    Ends (fun _ final => final = change disk ∧ fault = none)
      (fun stop final => stop.Ordinary ∧ fault ≠ none ∧
        (final = disk ∨ stop = .killed ∧ final = change disk))
      (perform windows context fault change disk) := by
  cases fault with
  | none => exact ⟨rfl, rfl⟩
  | some fault =>
      cases fault with
      | refused err => exact ⟨mapIo_ordinary windows context err, nofun, Or.inl rfl⟩
      | killed done =>
          cases done with
          | false => exact ⟨nofun, nofun, Or.inl rfl⟩
          | true => exact ⟨nofun, nofun, Or.inr ⟨rfl, rfl⟩⟩

theorem rehashPartial_hashes {windows : Bool} {file : Option (List UInt8)} {reading : Reading}
    {found : sha.State × Nat} (rehashed : rehashPartial sha windows file reading = .ok found) :
    ∃ held, (held = [] ∨ file = some held) ∧ (reading = .reads → held = file.getD []) ∧
      sha.Hashes found.1 held ∧ found.2 = held.length := by
  have nothing : found = (sha.new, 0) → sha.Hashes found.1 [] ∧ found.2 = ([] : List UInt8).length := by
    rintro rfl
    exact ⟨Hasher.hashes_new, rfl⟩
  cases reading with
  | reads =>
      cases file with
      | none =>
          cases rehashed
          exact ⟨[], Or.inl rfl, fun _ => rfl, nothing rfl⟩
      | some bytes =>
          cases rehashed
          have hashed := hashPieces_hashes 0 (Nat.lt_succ_self bytes.length) (@Hasher.hashes_new sha)

          rw [List.nil_append, Nat.zero_add] at hashed
          exact ⟨bytes, Or.inr rfl, fun _ => rfl, hashed⟩
  | unopened =>
      cases rehashed
      exact ⟨[], Or.inl rfl, nofun, nothing rfl⟩
  | unreadable err =>
      cases file with
      | none =>
          cases rehashed
          exact ⟨[], Or.inl rfl, nofun, nothing rfl⟩
      | some bytes => cases rehashed

theorem requireHttps_ordinary {url : List Char} {stop : Stop}
    (refused : (requireHttps url).mapError Stop.error = .error stop) :
    stop.Ordinary ∧ requireHttps url ≠ .ok () := by
  unfold requireHttps at refused ⊢
  dsimp only at refused ⊢
  split at refused
  · cases refused
  · rename_i other
    rw [if_neg other]
    split at refused
    · rename_i unnamed
      rw [if_pos unnamed]
      cases refused
      exact ⟨nofun, nofun⟩
    · rename_i named
      rw [if_neg named]
      cases refused
      exact ⟨nofun, nofun⟩

theorem createDirectory_ends :
    Ends (fun _ final => final = disk)
      (fun stop final => final = disk ∧ stop.Ordinary ∧ ¬around.Undisturbed)
      (createDirectory request around disk) := by
  unfold createDirectory
  split
  · refine Ends.mono (perform_ends _ _ around.directory id) ?_ ?_
    · rintro value final ⟨rfl, -⟩
      rfl
    · rintro stop final ⟨ordinary, fault, unchanged⟩
      refine ⟨?_, ordinary, fun undisturbed => fault undisturbed.directory⟩
      rcases unchanged with same | ⟨-, same⟩
      · exact same
      · exact same
  · rfl

theorem rehash_ends :
    Ends (fun found final => final = disk ∧ ∃ held,
        (held = [] ∨ disk (partialPath request.destination) = some held) ∧
        (around.task = .ran .reads → held = (disk (partialPath request.destination)).getD []) ∧
        sha.Hashes found.1 held ∧ found.2 = held.length)
      (fun stop final => final = disk ∧ stop.Ordinary ∧ ¬around.Undisturbed)
      (rehash sha request around disk) := by
  have disturbed : around.task ≠ .ran .reads → ¬around.Undisturbed :=
    fun other undisturbed => other undisturbed.task
  refine Ends.bind Ends.get ?_
  rintro seen between ⟨rfl, rfl⟩
  cases task : around.task with
  | ran reading =>
      dsimp only
      cases rehashed : rehashPartial sha around.windows (between (partialPath request.destination))
        reading with
      | ok found =>
          obtain ⟨held, there, read, hashes⟩ := rehashPartial_hashes rehashed
          refine ⟨rfl, held, there, ?_, hashes⟩
          intro same
          cases same
          exact read rfl
      | error error =>
          have unread : ∃ err, reading = .unreadable err ∧
              error = mapIo around.windows "reading the partial download" err := by
            unfold rehashPartial at rehashed
            split at rehashed
            · split at rehashed <;> cases rehashed
            · cases rehashed
            · split at rehashed
              · cases rehashed
              · rename_i err _ _ _
                cases rehashed
                exact ⟨err, rfl, rfl⟩
          obtain ⟨err, rfl, rfl⟩ := unread
          refine ⟨rfl, mapIo_ordinary _ _ _, disturbed ?_⟩
          rw [task]
          exact nofun
  | failed reason =>
      refine ⟨rfl, nofun, disturbed ?_⟩
      rw [task]
      exact nofun
  | killed =>
      refine ⟨rfl, nofun, disturbed ?_⟩
      rw [task]
      exact nofun

theorem ask_ends (held : List UInt8)
    (read : around.task = .ran .reads → held = (disk (partialPath request.destination)).getD []) :
    Ends (fun response final => final = disk ∧ around.answer (rangeOf held) = .response response)
      (fun stop final => Attempted sha request around disk (.error stop final))
      (ask request around held.length disk) := by
  unfold ask
  have unanswered : (∀ response, around.answer (rangeOf held) ≠ .response response) →
      ∀ {stop : Stop}, stop.Ordinary → Attempted sha request around disk (.error stop disk) := by
    intro other stop ordinary
    refine .unopened ordinary (Or.inr (Or.inr ⟨held, read, ?_⟩))
    exact fun response answered => absurd answered (other response)
  unfold rangeOf at unanswered ⊢
  cases answered : around.answer (if 0 < held.length then some held.length else none) with
  | response response => exact ⟨rfl, rfl⟩
  | failed reason =>
      rw [answered] at unanswered
      exact unanswered nofun nofun
  | killed =>
      rw [answered] at unanswered
      exact unanswered nofun nofun

theorem append_of_part {part : String} {before bytes : List UInt8} :
    append part bytes (Function.update disk part (some before)) =
      Function.update disk part (some (before ++ bytes)) := by
  unfold append
  rw [Function.update_self, Function.update_idem]
  rfl

theorem lose_of_part {part : String} {before : List UInt8} {lost : Nat} :
    lose part lost (Function.update disk part (some before)) =
      Function.update disk part (some (before.take (before.length - lost))) := by
  unfold lose
  rw [Function.update_self, Function.update_idem]
  rfl

/-- What is hashed is what is in the file. -/
theorem receive_ends (windows : Bool) (what part : String) {arrivals : List Arrival}
    {hasher : sha.State} {written : Nat} {before : List UInt8} (hashes : sha.Hashes hasher before) :
    Ends (fun found final => final = Function.update disk part
          (some (before ++ arrivals.flatMap Arrival.bytes)) ∧
        sha.Hashes found.1 (before ++ arrivals.flatMap Arrival.bytes) ∧
        found.2 = written + (arrivals.flatMap Arrival.bytes).length)
      (fun stop final => stop.Ordinary ∧ (¬∀ arrival ∈ arrivals, arrival.isChunk = true) ∧
        ∃ left, left <+: before ++ arrivals.flatMap Arrival.bytes ∧
          final = Function.update disk part (some left))
      (receive sha windows what part arrivals (hasher, written)
        (Function.update disk part (some before))) := by
  induction arrivals generalizing hasher written before with
  | nil =>
      rw [List.flatMap_nil, List.append_nil]
      exact ⟨rfl, hashes, rfl⟩
  | cons arrival rest ih =>
      rw [List.flatMap_cons, ← List.append_assoc]
      cases arrival with
      | chunk bytes =>
          unfold receive
          refine Ends.bind Ends.modify ?_
          rintro value final rfl
          rw [append_of_part]
          refine (ih (hashes.update bytes)).mono ?_ ?_
          · rintro found final ⟨same, hashed, counted⟩
            refine ⟨same, hashed, counted.trans ?_⟩
            rw [List.length_append, Nat.add_assoc]
            rfl
          · rintro stop final ⟨ordinary, unfinished, left⟩
            refine ⟨ordinary, fun all => unfinished ?_, left⟩
            exact fun arrival member => all arrival (List.mem_cons_of_mem _ member)
      | stop cause lost =>
          unfold receive
          refine Ends.bind Ends.modify ?_
          rintro value final rfl
          rw [append_of_part]
          refine Ends.bind Ends.modify ?_
          rintro value final rfl
          rw [lose_of_part]
          refine ⟨cause.stop_ordinary windows what, ?_, _, ?_, rfl⟩
          · exact fun all => nomatch all _ List.mem_cons_self
          · exact (List.take_prefix _ _).trans (List.prefix_append _ _)

theorem openPart_kept {held : List UInt8} {response : Response}
    (there : held = [] ∨ disk (partialPath request.destination) = some held) :
    openPart (partialPath request.destination) (restarts held.length response || held.length == 0)
        disk =
      Function.update disk (partialPath request.destination) (some (kept held response)) := by
  unfold openPart kept
  congr 2
  cases restarts held.length response with
  | true => rfl
  | false =>
      rw [Bool.false_or, if_neg Bool.false_ne_true]
      cases held with
      | nil => rfl
      | cons byte bytes =>
          rcases there with none_held | there
          · cases none_held
          · rw [there]
            rfl

theorem transfer_ends {held : List UInt8} {response : Response} {hasher : sha.State}
    (asked : Asked request around disk held response) (hashes : sha.Hashes hasher held) :
    Ends (fun found final => isSuccess response.status = true ∧
        final = Function.update disk (partialPath request.destination)
          (some (kept held response ++ response.body)) ∧
        sha.Hashes found.1 (kept held response ++ response.body) ∧
        found.2 = (kept held response ++ response.body).length)
      (fun stop final => Attempted sha request around disk (.error stop final))
      (transfer sha request around hasher held.length response disk) := by
  have begun : sha.Hashes (if restarts held.length response then sha.new else hasher)
      (kept held response) := by
    unfold kept
    split
    · exact Hasher.hashes_new
    · exact hashes
  have counted : (if restarts held.length response then 0 else held.length) =
      (kept held response).length := by
    unfold kept
    split
    · rfl
    · rfl
  unfold transfer
  refine Ends.bind (Ends.refuseIf ?_) ?_
  · intro refused
    refine .unopened nofun (Or.inr (Or.inr ⟨held, asked.read, ?_⟩))
    intro other answered
    rw [asked.answered] at answered
    cases answered
    exact refused
  rintro value between ⟨rfl, success⟩
  have success : isSuccess response.status = true := (Bool.not_eq_false _).mp success
  -- what is in the file when the body begins
  refine Ends.bind ((perform_ends _ _ _ _).mono (fun _ _ opened => opened) ?_) ?_
  · rintro stop final ⟨ordinary, fault, same⟩
    have disturbed : ¬around.Undisturbed := fun undisturbed => fault undisturbed.opening
    rcases same with rfl | ⟨-, rfl⟩
    · exact .unopened ordinary (Or.inr (Or.inl disturbed))
    · rw [openPart_kept asked.there]
      exact .cut ordinary asked success (Or.inl disturbed) (List.prefix_append _ _)
  rintro value final ⟨rfl, -⟩
  rw [openPart_kept asked.there, counted]
  refine Ends.bind ((receive_ends _ _ _ begun).mono (fun _ _ received => received) ?_) ?_
  · rintro stop final ⟨ordinary, unfinished, left, so_far, rfl⟩
    exact .cut ordinary asked success (Or.inr unfinished) so_far
  rintro found final ⟨rfl, hashed, total⟩
  cases flushed : around.flush with
  | none => exact ⟨success, rfl, hashed, total.trans List.length_append.symm⟩
  | some fault =>
      obtain ⟨fault, lost⟩ := fault
      refine Ends.bind Ends.modify ?_
      rintro value final rfl
      rw [lose_of_part]
      refine .cut (fault.stop_ordinary _ _) asked success (Or.inl ?_) (List.take_prefix _ _)
      intro undisturbed
      rw [undisturbed.flush] at flushed
      cases flushed

theorem rename_update (bytes : List UInt8) :
    rename (partialPath request.destination) request.destination
        (Function.update disk (partialPath request.destination) (some bytes)) =
      Function.update (Function.update disk (partialPath request.destination) none)
        request.destination (some bytes) := by
  unfold rename
  rw [Function.update_self]
  dsimp only
  rw [Function.update_idem]

theorem toLower_hexEncode (bytes : List UInt8) :
    (hexEncode bytes).map Char.toLower = hexEncode bytes := by
  have digits : ∀ n < 16, (Nat.digitChar n).toLower = Nat.digitChar n := by
    decide
  unfold hexEncode
  rw [List.map_flatMap]
  congr 1
  funext byte
  have small : byte.toNat < 256 := byte.toNat_lt
  simp only [List.map_cons, List.map_nil]
  rw [digits _ (by omega), digits _ (by omega)]

theorem verify_ends {bytes : List UInt8} :
    Ends (fun _ final => final = Function.update disk (partialPath request.destination) (some bytes) ∧
        request.Accepts sha bytes)
      (fun _ final => ¬request.Accepts sha bytes ∧
        (final = Function.update disk (partialPath request.destination) none ∨
          around.removal ≠ none ∧
            final = Function.update disk (partialPath request.destination) (some bytes)))
      (verify request around (hexEncode (sha.digest bytes))
        (Function.update disk (partialPath request.destination) (some bytes))) := by
  unfold verify
  cases expected : request.expectedSha256 with
  | none =>
      refine ⟨rfl, ?_⟩
      intro other given
      rw [expected] at given
      cases given
  | some digest =>
      have accepts : request.Accepts sha bytes ↔
          eqIgnoreAsciiCase (hexEncode (sha.digest bytes)) digest = true := by
        unfold Fetch.Accepts eqIgnoreAsciiCase
        rw [expected, beq_iff_eq, toLower_hexEncode]
        constructor
        · exact fun same => same digest rfl
        · rintro same other ⟨⟩
          exact same
      dsimp only
      rw [accepts]
      split
      · rename_i same
        exact ⟨rfl, same⟩
      · rename_i differs
        have removed : removeFile (partialPath request.destination)
            (Function.update disk (partialPath request.destination) (some bytes)) =
              Function.update disk (partialPath request.destination) none :=
          Function.update_idem _ _ _
        cases removal : around.removal with
        | none => exact ⟨differs, Or.inl removed⟩
        | some fault =>
            cases fault with
            | refused err => exact ⟨differs, Or.inr ⟨nofun, rfl⟩⟩
            | killed done =>
                cases done with
                | false => exact ⟨differs, Or.inr ⟨nofun, rfl⟩⟩
                | true => exact ⟨differs, Or.inl removed⟩

end Stages

/-- Every attempt ends in one of these ways. -/
theorem fetch_attempted (sha : Hasher) (request : Fetch) (around : Surroundings) (disk : Disk) :
    Attempted sha request around disk (fetch sha request around disk) := by
  have ends : Ends (fun fetched final => Attempted sha request around disk (.ok fetched final))
      (fun stop final => Attempted sha request around disk (.error stop final))
      (fetch sha request around disk) := by
    unfold fetch
    refine Ends.bind (Ends.propagate ?_) ?_
    · intro stop refused
      obtain ⟨ordinary, insecure⟩ := requireHttps_ordinary refused
      exact .unopened ordinary (Or.inl insecure)
    rintro value between ⟨rfl, -⟩
    refine Ends.bind (createDirectory_ends.mono (fun _ _ same => same) ?_) ?_
    · rintro stop final ⟨rfl, ordinary, disturbed⟩
      exact .unopened ordinary (Or.inr (Or.inl disturbed))
    rintro value between rfl
    refine Ends.bind (rehash_ends.mono (fun _ _ rehashed => rehashed) ?_) ?_
    · rintro stop final ⟨rfl, ordinary, disturbed⟩
      exact .unopened ordinary (Or.inr (Or.inl disturbed))
    rintro ⟨hasher, resumeFrom⟩ between ⟨rfl, held, there, read, hashes, rfl⟩
    refine Ends.bind (ask_ends held read) ?_
    rintro response between ⟨rfl, answered⟩
    have asked : Asked request around between held response := ⟨there, read, answered⟩
    refine Ends.bind (transfer_ends asked hashes) ?_
    rintro ⟨hasher, written⟩ final ⟨success, rfl, hashed, counted⟩
    dsimp only at hashed counted ⊢
    rw [hashed.finalize]
    refine Ends.bind (verify_ends.mono (fun _ _ verified => verified) ?_) ?_
    · rintro stop final ⟨differs, removed⟩
      exact .mismatched asked success differs removed
    rintro value final ⟨rfl, accepts⟩
    refine Ends.bind ((perform_ends _ _ _ _).mono (fun _ _ placed => placed) ?_) ?_
    · rintro stop final ⟨ordinary, fault, same⟩
      have disturbed : ¬around.Undisturbed := fun undisturbed => fault undisturbed.finalising
      rcases same with rfl | ⟨rfl, rfl⟩
      · exact .unplaced ordinary asked success disturbed accepts
      · rw [rename_update]
        exact .unreported asked success disturbed accepts
    rintro value final ⟨rfl, -⟩
    rw [rename_update]
    exact .placed asked success accepts rfl counted
  cases ended : fetch sha request around disk with
  | ok fetched final =>
      rw [ended] at ends
      exact ends
  | error stop final =>
      rw [ended] at ends
      exact ends

end Lightweight.Download
