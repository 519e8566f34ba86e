import Lightweight.Transition
import Mathlib.Data.List.Basic
import Mathlib.Data.String.Basic

/-! Whole-file writes: a temporary file beside the path, renamed over it. Calls interleave between
their system calls; a name of the directory leads to a file that an open handle keeps writing to,
whatever the name leads to by then. -/

namespace Lightweight.Store.Atomic

/-- An operation on the file system that went wrong, and what it was for. -/
inductive StoreError where
  | io (action : String)
deriving DecidableEq, Repr

def tempSibling (path : String) : String := path ++ ".tmp"

/-- Where a call is. -/
inductive Phase where
  /-- To create the directory. -/
  | preparing
  /-- To open the temporary file. -/
  | creating
  /-- Writing to an open file, at a position. -/
  | writing (file position : Nat)
  /-- To rename the temporary file. -/
  | replacing
  /-- To remove it, after a rename that failed. -/
  | removing
  | returned (error : Option StoreError)
deriving DecidableEq, Repr

/-- A call of `write_private`. -/
structure Call where
  bytes : List UInt8
  phase : Phase
  /-- The file system has refused one of its steps. -/
  refused : Bool
deriving DecidableEq, Repr

/-- The directory, what its files hold, and the calls so far. -/
structure World where
  entries : String → Option Nat
  files : Nat → List UInt8
  /-- The file that is created next. -/
  next : Nat
  calls : List Call

/-- What a reader of the path finds. -/
def World.held (world : World) (path : String) : Option (List UInt8) :=
  (world.entries path).map world.files

/-- A file's bytes with some of them written over at a position; a gap before it reads as zeros. -/
def overlay (held : List UInt8) (position : Nat) (piece : List UInt8) : List UInt8 :=
  held.take position ++ List.replicate (position - held.length) 0 ++ piece ++
    held.drop (position + piece.length)

/-- What the next step of a call does. -/
inductive Move where
  | createDir
  /-- Creates the temporary file or truncates the one that is there. -/
  | openFile
  /-- Writes some of the bytes that are left. -/
  | write (count : Nat)
  | flush
  | rename
  | remove
  /-- The step that is next, and the file system refuses it. -/
  | refuse
deriving DecidableEq, Repr

inductive Action where
  | call (bytes : List UInt8)
  | move (index : Nat) (move : Move)
deriving DecidableEq, Repr

/-- The text for the step that a call failed in. -/
def Phase.failure (bytes : List UInt8) : Phase → StoreError
  | .preparing => .io "creating a data directory"
  | .creating => .io "creating a data file"
  | .writing _ position =>
      if position < bytes.length then .io "writing a data file" else .io "flushing a data file"
  | _ => .io "replacing a data file"

def World.setCall (world : World) (index : Nat) (call : Call) : World :=
  { world with calls := world.calls.set index call }

def World.setEntry (world : World) (name : String) (file : Option Nat) : World :=
  { world with entries := Function.update world.entries name file }

def World.setFile (world : World) (file : Nat) (bytes : List UInt8) : World :=
  { world with files := Function.update world.files file bytes }

/-- `open` with `create` and `truncate`. -/
def World.truncated (world : World) (name : String) : World × Nat :=
  match world.entries name with
  | some file => (world.setFile file [], file)
  | none =>
      (({ world with next := world.next + 1 }.setFile world.next []).setEntry name (some world.next),
        world.next)

/-- One system call of a call of `write_private`. -/
def Call.step (path : String) (world : World) (index : Nat) (call : Call) :
    Move → Option World
  | .createDir =>
      if call.phase = .preparing then some (world.setCall index { call with phase := .creating })
      else none
  | .openFile =>
      if call.phase = .creating then
        let (opened, file) := world.truncated (tempSibling path)
        some (opened.setCall index { call with phase := .writing file 0 })
      else none
  | .write count =>
      match call.phase with
      | .writing file position =>
          if 0 < count ∧ position + count ≤ call.bytes.length then
            let piece := (call.bytes.drop position).take count
            some ((world.setFile file (overlay (world.files file) position piece)).setCall index
              { call with phase := .writing file (position + count) })
          else none
      | _ => none
  | .flush =>
      match call.phase with
      | .writing _ position =>
          if position = call.bytes.length then
            some (world.setCall index { call with phase := .replacing })
          else none
      | _ => none
  | .rename =>
      if call.phase = .replacing then
        match world.entries (tempSibling path) with
        | some file =>
            some (((world.setEntry path (some file)).setEntry (tempSibling path) none).setCall index
              { call with phase := .returned none })
        -- The name is gone: `ENOENT`.
        | none => some (world.setCall index { call with phase := .removing })
      else none
  | .remove =>
      if call.phase = .removing then
        some ((world.setEntry (tempSibling path) none).setCall index
          { call with phase := .returned (some (call.phase.failure call.bytes)) })
      else none
  | .refuse =>
      let failed := .returned (some (call.phase.failure call.bytes))
      match call.phase with
      | .returned _ => none
      | .replacing => some (world.setCall index { call with phase := .removing, refused := true })
      | _ => some (world.setCall index { call with phase := failed, refused := true })

/-- One step of the calls together, in any order. -/
def step (path : String) (world : World) : Action → Option World
  | .call bytes =>
      some { world with calls := world.calls ++ [⟨bytes, .preparing, false⟩] }
  | .move index move => world.calls[index]?.bind fun call => call.step path world index move

/-- Between its open of the temporary file and its rename, or its removal of the file. -/
def Phase.holds : Phase → Bool
  | .writing _ _ => true
  | .replacing => true
  | .removing => true
  | _ => false

/-- The call has failed, or is about to. -/
def Phase.fails : Phase → Bool
  | .removing => true
  | .returned error => error.isSome
  | _ => false

/-- The temporary file is opened only while no call is between its open and its rename. -/
def Alone (world : World) : Action → Prop
  | .move _ .openFile => ∀ call ∈ world.calls, call.phase.holds = false
  | _ => True

instance (world : World) (action : Action) : Decidable (Alone world action) := by
  unfold Alone
  split <;> infer_instance

/-- A directory before any call: every file has one name, and files to come have none. -/
structure Fresh (world : World) : Prop where
  quiet : world.calls = []
  below : ∀ name file, world.entries name = some file → file < world.next
  single : ∀ first second file, world.entries first = some file →
    world.entries second = some file → first = second

theorem tempSibling_ne (path : String) : path ≠ tempSibling path := by
  intro same
  have lengths := congrArg String.length same
  rw [tempSibling, String.length_append] at lengths
  have four : ".tmp".length = 4 := by decide
  omega

/-- The temporary file is the call's own, and holds what the call has written. -/
def Phase.Owned (path : String) (world : World) (bytes : List UInt8) : Phase → Prop
  | .writing file position =>
      world.entries (tempSibling path) = some file ∧ world.files file = bytes.take position ∧
        position ≤ bytes.length
  | .replacing => ∃ file, world.entries (tempSibling path) = some file ∧ world.files file = bytes
  | _ => True

theorem Phase.owned_of_idle {path : String} {world : World} {bytes : List UInt8} {phase : Phase}
    (idle : phase.holds = false) : phase.Owned path world bytes := by
  cases phase with
  | writing file position => exact absurd idle (by simp [Phase.holds])
  | replacing => exact absurd idle (by simp [Phase.holds])
  | removing => trivial
  | preparing => trivial
  | creating => trivial
  | returned error => trivial

/-- What holds of the directory and the calls along a run in which no two calls hold the
temporary file. -/
structure Sound (path : String) (start world : World) : Prop where
  below : ∀ name file, world.entries name = some file → file < world.next
  single : ∀ first second file, world.entries first = some file →
    world.entries second = some file → first = second
  lone : ∀ (i j : Nat) (c d : Call), world.calls[i]? = some c → world.calls[j]? = some d →
    c.phase.holds = true → d.phase.holds = true → i = j
  owned : ∀ (i : Nat) (c : Call), world.calls[i]? = some c → c.phase.Owned path world c.bytes
  kept : world.held path = start.held path ∨ ∃ call ∈ world.calls, world.held path = some call.bytes
  settled : ∀ call ∈ world.calls, call.refused = false → call.phase.fails = false

section Updates

variable {path : String} {start world after : World} {index : Nat} {call changed : Call}

/-- One call has changed, and with it at most the temporary file and the path. -/
theorem Sound.update (sound : Sound path start world) (present : world.calls[index]? = some call)
    (calls : after.calls = world.calls.set index changed) (bytes : changed.bytes = call.bytes)
    (below : ∀ name file, after.entries name = some file → file < after.next)
    (single : ∀ first second file, after.entries first = some file →
      after.entries second = some file → first = second)
    (lone : changed.phase.holds = true →
      ∀ (j : Nat) (d : Call), j ≠ index → world.calls[j]? = some d → d.phase.holds = false)
    (others : ∀ (j : Nat) (d : Call), j ≠ index → world.calls[j]? = some d → d.phase.holds = true →
      d.phase.Owned path after d.bytes)
    (owned : changed.phase.Owned path after changed.bytes)
    (kept : after.held path = world.held path ∨ after.held path = some call.bytes)
    (settled : changed.refused = false → changed.phase.fails = false) :
    Sound path start after := by
  have inside : index < world.calls.length := (List.getElem?_eq_some_iff.mp present).1
  have split : ∀ (j : Nat) (d : Call), after.calls[j]? = some d →
      j = index ∧ d = changed ∨ j ≠ index ∧ world.calls[j]? = some d := by
    intro j d found
    rw [calls, List.getElem?_set] at found
    by_cases same : index = j
    · rw [if_pos same, if_pos (same ▸ inside)] at found
      exact .inl ⟨same.symm, (Option.some.inj found).symm⟩
    · rw [if_neg same] at found
      exact .inr ⟨fun other => same other.symm, found⟩
  have listed : ∀ d ∈ after.calls, d = changed ∨ d ∈ world.calls := by
    intro d member
    rw [calls] at member
    exact (List.mem_or_eq_of_mem_set member).symm
  have stays : ∃ d ∈ after.calls, d.bytes = call.bytes :=
    ⟨changed, calls ▸ List.mem_set inside changed, bytes⟩
  refine ⟨below, single, ?_, ?_, ?_, ?_⟩
  · intro i j c d atI atJ holdsI holdsJ
    rcases split i c atI with ⟨rfl, rfl⟩ | ⟨otherI, atI⟩ <;>
      rcases split j d atJ with ⟨rfl, rfl⟩ | ⟨otherJ, atJ⟩
    · rfl
    · exact absurd holdsJ (by simp [lone holdsI j d otherJ atJ])
    · exact absurd holdsI (by simp [lone holdsJ i c otherI atI])
    · exact sound.lone i j c d atI atJ holdsI holdsJ
  · intro i c found
    rcases split i c found with ⟨rfl, rfl⟩ | ⟨other, found⟩
    · exact owned
    · by_cases holds : c.phase.holds = true
      · exact others i c other found holds
      · exact Phase.owned_of_idle (by simpa using holds)
  · rcases kept with same | replaced
    · rcases sound.kept with unchanged | ⟨d, member, held⟩
      · exact .inl (same.trans unchanged)
      · obtain ⟨i, found⟩ := List.getElem?_of_mem member
        by_cases other : i = index
        · subst other
          obtain rfl : call = d := Option.some.inj (present.symm.trans found)
          obtain ⟨e, member, equal⟩ := stays
          exact .inr ⟨e, member, by rw [same, held, equal]⟩
        · refine .inr ⟨d, ?_, same.trans held⟩
          have stayed : after.calls[i]? = some d := by
            rw [calls, List.getElem?_set, if_neg (Ne.symm other)]
            exact found
          exact List.mem_of_getElem? stayed
    · obtain ⟨e, member, equal⟩ := stays
      exact .inr ⟨e, member, by rw [replaced, equal]⟩
  · intro d member refused
    rcases listed d member with rfl | member
    · exact settled refused
    · exact sound.settled d member refused

/-- The calls other than the one that holds the temporary file do not hold it. -/
theorem Sound.idle (sound : Sound path start world) (present : world.calls[index]? = some call)
    (holding : call.phase.holds = true) :
    ∀ (j : Nat) (d : Call), j ≠ index → world.calls[j]? = some d → d.phase.holds = false := by
  intro j d other found
  by_contra holds
  exact other (sound.lone j index d call found present (by simpa using holds) holding)

/-- Only the phase of a call changes. -/
theorem Sound.setCall (sound : Sound path start world) (present : world.calls[index]? = some call)
    (bytes : changed.bytes = call.bytes)
    (holding : changed.phase.holds = true → call.phase.holds = true)
    (owned : changed.phase.Owned path world changed.bytes)
    (settled : changed.refused = false → changed.phase.fails = false) :
    Sound path start (world.setCall index changed) := by
  refine sound.update present rfl bytes ?_ ?_ ?_ ?_ ?_ ?_ ?_
  · exact sound.below
  · exact sound.single
  · exact fun holds => sound.idle present (holding holds)
  · exact fun j d _ found _ => sound.owned j d found
  · exact owned
  · exact .inl rfl
  · exact settled

theorem World.held_setFile {file : Nat} {bytes : List UInt8} (other : world.entries path ≠ some file) :
    (world.setFile file bytes).held path = world.held path := by
  unfold World.held World.setFile
  cases found : world.entries path with
  | none => rfl
  | some named =>
      have distinct : named ≠ file := fun same => other (found.trans (congrArg some same))
      simp [Function.update_of_ne distinct]

/-- The path does not lead to the temporary file. -/
theorem Sound.apart (sound : Sound path start world) {file : Nat}
    (temporary : world.entries (tempSibling path) = some file) : world.entries path ≠ some file :=
  fun named => tempSibling_ne path (sound.single _ _ _ named temporary)

end Updates

theorem overlay_append {bytes : List UInt8} {position count : Nat}
    (fits : position + count ≤ bytes.length) :
    overlay (bytes.take position) position ((bytes.drop position).take count) =
      bytes.take (position + count) := by
  have length : (bytes.take position).length = position := by
    rw [List.length_take]
    omega
  have beyond : (bytes.take position).drop (position + ((bytes.drop position).take count).length) =
      [] := by
    apply List.drop_eq_nil_of_le
    omega
  rw [overlay, beyond, length, Nat.sub_self, List.take_of_length_le (by omega)]
  simp [List.take_add]

section Steps

variable {path : String} {start world after : World} {index : Nat} {call : Call}

theorem sound_openFile (sound : Sound path start world) (present : world.calls[index]? = some call)
    (alone : ∀ call ∈ world.calls, call.phase.holds = false) :
    let opened := world.truncated (tempSibling path)
    Sound path start
      (opened.1.setCall index { call with phase := .writing opened.2 0 }) := by
  have none_holds : ∀ (j : Nat) (d : Call), world.calls[j]? = some d → d.phase.holds = false :=
    fun j d found => alone d (List.mem_of_getElem? found)
  unfold World.truncated
  cases found : world.entries (tempSibling path) with
  | some file =>
      refine sound.update present rfl rfl ?_ ?_ ?_ ?_ ?_ ?_ ?_
      · exact sound.below
      · exact sound.single
      · exact fun _ j d _ listed => none_holds j d listed
      · exact fun j d _ listed holds => absurd holds (by simp [none_holds j d listed])
      · exact ⟨found, by simp [World.setCall, World.setFile], Nat.zero_le _⟩
      · exact .inl (World.held_setFile (sound.apart found))
      · exact fun _ => rfl
  | none =>
      have fresh : ∀ name, world.entries name ≠ some world.next :=
        fun name named => lt_irrefl _ (sound.below name world.next named)
      have looked : ∀ name file,
          Function.update world.entries (tempSibling path) (some world.next) name = some file →
            name = tempSibling path ∧ file = world.next ∨ world.entries name = some file := by
        intro name file named
        by_cases temporary : name = tempSibling path
        · rw [temporary, Function.update_self] at named
          exact .inl ⟨temporary, (Option.some.inj named).symm⟩
        · rw [Function.update_of_ne temporary] at named
          exact .inr named
      refine sound.update present rfl rfl ?_ ?_ ?_ ?_ ?_ ?_ ?_
      · intro name file named
        rcases looked name file named with ⟨_, rfl⟩ | named
        · exact Nat.lt_succ_self _
        · exact Nat.lt_succ_of_lt (sound.below name file named)
      · intro first second file named again
        rcases looked first file named with ⟨left, rfl⟩ | named <;>
          rcases looked second _ again with ⟨right, same⟩ | again
        · rw [left, right]
        · exact absurd again (fresh second)
        · exact absurd (same ▸ named) (fresh first)
        · exact sound.single first second file named again
      · exact fun _ j d _ listed => none_holds j d listed
      · exact fun j d _ listed holds => absurd holds (by simp [none_holds j d listed])
      · refine ⟨Function.update_self _ _ _, ?_, Nat.zero_le _⟩
        simp [World.setCall, World.setFile, World.setEntry]
      · left
        have stays : Function.update world.entries (tempSibling path) (some world.next) path =
            world.entries path := Function.update_of_ne (tempSibling_ne path) _ _
        calc
          _ = (world.setFile world.next []).held path := by
            simp only [World.held, World.setCall, World.setEntry, World.setFile, stays]
          _ = world.held path := World.held_setFile (fresh path)
      · exact fun _ => rfl

theorem sound_write (sound : Sound path start world) (present : world.calls[index]? = some call)
    {file position count : Nat} (phase : call.phase = .writing file position)
    (fits : position + count ≤ call.bytes.length) :
    let piece := (call.bytes.drop position).take count
    Sound path start
      ((world.setFile file (overlay (world.files file) position piece)).setCall index
        { call with phase := .writing file (position + count) }) := by
  have holding : call.phase.holds = true := by rw [phase]; rfl
  obtain ⟨temporary, written, -⟩ : Phase.Owned path world call.bytes (.writing file position) :=
    phase ▸ sound.owned index call present
  refine sound.update present rfl rfl ?_ ?_ ?_ ?_ ?_ ?_ ?_
  · exact sound.below
  · exact sound.single
  · exact fun _ => sound.idle present holding
  · exact fun j d other listed holds =>
      absurd holds (by simp [sound.idle present holding j d other listed])
  · refine ⟨temporary, ?_, fits⟩
    calc
      _ = overlay (world.files file) position ((call.bytes.drop position).take count) := by
        simp [World.setCall, World.setFile]
      _ = call.bytes.take (position + count) := by rw [written, overlay_append fits]
  · exact .inl (World.held_setFile (sound.apart temporary))
  · exact fun _ => rfl

/-- The temporary name is taken away, and the path leads to what it led to or to the file of that
name, which holds what the call was to write. -/
theorem sound_removed (sound : Sound path start world) (present : world.calls[index]? = some call)
    (holding : call.phase.holds = true) {changed : Call} (bytes : changed.bytes = call.bytes)
    (idle : changed.phase.holds = false) {renamed : World}
    (next : renamed.next = world.next) (files : renamed.files = world.files)
    (calls : renamed.calls = world.calls)
    (entries : renamed.entries = world.entries ∨
      ∃ file, world.entries (tempSibling path) = some file ∧ world.files file = call.bytes ∧
        renamed.entries = Function.update world.entries path (some file))
    (settled : changed.refused = false → changed.phase.fails = false) :
    Sound path start ((renamed.setEntry (tempSibling path) none).setCall index changed) := by
  -- A name that is left leads where it led, or is the path and leads to the temporary file.
  have looked : ∀ name found,
      Function.update renamed.entries (tempSibling path) none name = some found →
        name ≠ tempSibling path ∧ (world.entries name = some found ∨
          name = path ∧ world.entries (tempSibling path) = some found) := by
    intro name found named
    by_cases gone : name = tempSibling path
    · rw [gone, Function.update_self] at named
      cases named
    · rw [Function.update_of_ne gone] at named
      rcases entries with same | ⟨file, temporary, -, moved⟩
      · exact ⟨gone, .inl (same ▸ named)⟩
      · rw [moved] at named
        by_cases replaced : name = path
        · rw [replaced, Function.update_self] at named
          exact ⟨gone, .inr ⟨replaced, temporary.trans named⟩⟩
        · rw [Function.update_of_ne replaced] at named
          exact ⟨gone, .inl named⟩
  refine sound.update present (by rw [← calls]; rfl) bytes ?_ ?_ ?_ ?_ ?_ ?_ settled
  · intro name found named
    change found < renamed.next
    rw [next]
    rcases (looked name found named).2 with named | ⟨_, temporary⟩
    · exact sound.below name found named
    · exact sound.below _ found temporary
  · intro first second found named again
    obtain ⟨left, named⟩ := looked first found named
    obtain ⟨right, again⟩ := looked second found again
    rcases named with named | ⟨here, temporary⟩ <;> rcases again with again | ⟨there, temporary⟩
    · exact sound.single first second found named again
    · exact absurd (sound.single first _ found named temporary) left
    · exact absurd (sound.single second _ found again temporary) right
    · exact here.trans there.symm
  · exact fun holds => absurd holds (by simp [idle])
  · exact fun j d other listed holds =>
      absurd holds (by simp [sound.idle present holding j d other listed])
  · exact Phase.owned_of_idle idle
  · have stays : Function.update renamed.entries (tempSibling path) none path =
        renamed.entries path := Function.update_of_ne (tempSibling_ne path) _ _
    have held : ((renamed.setEntry (tempSibling path) none).setCall index changed).held path =
        (renamed.entries path).map world.files := by
      simp only [World.held, World.setCall, World.setEntry, stays, files]
    rcases entries with same | ⟨file, -, written, moved⟩
    · exact .inl (held.trans (by rw [same]; rfl))
    · right
      rw [held, moved, Function.update_self, Option.map_some, written]

theorem sound_rename (sound : Sound path start world) (present : world.calls[index]? = some call)
    (phase : call.phase = .replacing) (stepped : call.step path world index .rename = some after) :
    Sound path start after := by
  obtain ⟨file, temporary, written⟩ : Phase.Owned path world call.bytes .replacing :=
    phase ▸ sound.owned index call present
  simp only [Call.step, phase, temporary] at stepped
  obtain rfl := Option.some.inj stepped
  refine sound_removed sound present (by rw [phase]; rfl) (by rfl) (by rfl) rfl rfl rfl
    (.inr ⟨file, temporary, written, rfl⟩) ?_
  exact fun _ => rfl

theorem sound_remove (sound : Sound path start world) (present : world.calls[index]? = some call)
    (phase : call.phase = .removing) (stepped : call.step path world index .remove = some after) :
    Sound path start after := by
  simp only [Call.step, phase, if_true] at stepped
  obtain rfl := Option.some.inj stepped
  refine sound_removed sound present (by rw [phase]; rfl) (by rfl) (by rfl) rfl rfl rfl
    (.inl rfl) ?_
  intro allowed
  have fails := sound.settled call (List.mem_of_getElem? present) allowed
  rw [phase] at fails
  cases fails

theorem sound_refuse (sound : Sound path start world) (present : world.calls[index]? = some call)
    (stepped : call.step path world index .refuse = some after) : Sound path start after := by
  have failed : ∀ phase, Sound path start (world.setCall index
      { call with phase := .returned phase, refused := true }) := by
    intro phase
    exact sound.setCall present rfl (by simp [Phase.holds]) trivial (by simp)
  cases phase : call.phase with
  | preparing =>
      simp only [Call.step, phase] at stepped
      exact Option.some.inj stepped ▸ failed _
  | creating =>
      simp only [Call.step, phase] at stepped
      exact Option.some.inj stepped ▸ failed _
  | writing file position =>
      simp only [Call.step, phase] at stepped
      exact Option.some.inj stepped ▸ failed _
  | replacing =>
      simp only [Call.step, phase] at stepped
      obtain rfl := Option.some.inj stepped
      exact sound.setCall present rfl (fun _ => by rw [phase]; rfl) trivial (by simp)
  | removing =>
      simp only [Call.step, phase] at stepped
      exact Option.some.inj stepped ▸ failed _
  | returned error => simp [Call.step, phase] at stepped

theorem sound_move (sound : Sound path start world) (present : world.calls[index]? = some call)
    {move : Move} (alone : Alone world (.move index move))
    (stepped : call.step path world index move = some after) : Sound path start after := by
  cases move with
  | createDir =>
      simp only [Call.step, Option.ite_none_right_eq_some, Option.some.injEq] at stepped
      obtain ⟨-, rfl⟩ := stepped
      refine sound.setCall present rfl (by simp [Phase.holds]) trivial ?_
      exact fun _ => rfl
  | openFile =>
      simp only [Call.step, Option.ite_none_right_eq_some, Option.some.injEq] at stepped
      obtain ⟨-, rfl⟩ := stepped
      exact sound_openFile sound present alone
  | write count =>
      cases phase : call.phase with
      | writing file position =>
          simp only [Call.step, phase, Option.ite_none_right_eq_some, Option.some.injEq] at stepped
          obtain ⟨⟨-, fits⟩, rfl⟩ := stepped
          exact sound_write sound present phase fits
      | preparing => simp [Call.step, phase] at stepped
      | creating => simp [Call.step, phase] at stepped
      | replacing => simp [Call.step, phase] at stepped
      | removing => simp [Call.step, phase] at stepped
      | returned error => simp [Call.step, phase] at stepped
  | flush =>
      cases phase : call.phase with
      | writing file position =>
          simp only [Call.step, phase, Option.ite_none_right_eq_some, Option.some.injEq] at stepped
          obtain ⟨complete, rfl⟩ := stepped
          obtain ⟨temporary, written, -⟩ :
              Phase.Owned path world call.bytes (.writing file position) :=
            phase ▸ sound.owned index call present
          rw [complete, List.take_length] at written
          refine sound.setCall present rfl ?_ ?_ ?_
          · exact fun _ => by rw [phase]; rfl
          · exact ⟨file, temporary, written⟩
          · exact fun _ => rfl
      | preparing => simp [Call.step, phase] at stepped
      | creating => simp [Call.step, phase] at stepped
      | replacing => simp [Call.step, phase] at stepped
      | removing => simp [Call.step, phase] at stepped
      | returned error => simp [Call.step, phase] at stepped
  | rename =>
      have phase : call.phase = .replacing := by
        by_contra other
        simp [Call.step, other] at stepped
      exact sound_rename sound present phase stepped
  | remove =>
      have phase : call.phase = .removing := by
        by_contra other
        simp [Call.step, other] at stepped
      exact sound_remove sound present phase stepped
  | refuse => exact sound_refuse sound present stepped

theorem sound_step {action : Action} (alone : Alone world action) (sound : Sound path start world)
    (stepped : step path world action = some after) : Sound path start after := by
  cases action with
  | call bytes =>
      obtain rfl := Option.some.inj stepped
      have earlier : ∀ (i : Nat) (c : Call), (world.calls ++ [⟨bytes, .preparing, false⟩])[i]? = some c →
          c.phase = .preparing ∨ world.calls[i]? = some c := by
        intro i c found
        rw [List.getElem?_append] at found
        split at found
        · exact .inr found
        · have last := List.mem_of_getElem? found
          rw [List.mem_singleton] at last
          exact .inl (by rw [last])
      refine ⟨sound.below, sound.single, ?_, ?_, ?_, ?_⟩
      · intro i j c d atI atJ holdsI holdsJ
        rcases earlier i c atI with begun | atI
        · exact absurd holdsI (by simp [begun, Phase.holds])
        · rcases earlier j d atJ with begun | atJ
          · exact absurd holdsJ (by simp [begun, Phase.holds])
          · exact sound.lone i j c d atI atJ holdsI holdsJ
      · intro i c found
        rcases earlier i c found with begun | found
        · exact Phase.owned_of_idle (by rw [begun]; rfl)
        · exact sound.owned i c found
      · rcases sound.kept with same | ⟨d, member, held⟩
        · exact .inl same
        · exact .inr ⟨d, List.mem_append_left _ member, held⟩
      · intro d member refused
        rcases List.mem_append.mp member with member | member
        · exact sound.settled d member refused
        · rw [List.mem_singleton] at member
          rw [member]
          rfl
  | move index move =>
      obtain ⟨call, present, stepped⟩ := Option.bind_eq_some_iff.mp stepped
      exact sound_move sound present alone stepped

end Steps

section Progress

variable {path : String} {start world after : World} {index : Nat} {call : Call}

theorem Sound.reached (sound : Sound path start world)
    (reached : Transition.Reaches (step path) Alone world after) : Sound path start after :=
  reached.invariant (Sound path start) sound
    fun _ _ _ alone sound stepped => sound_step alone sound stepped

/-- A move of one call that changes the call alone among the calls. -/
theorem reaches_move {move : Move} (present : world.calls[index]? = some call)
    (stepped : call.step path world index move = some after)
    (alone : Alone world (.move index move)) :
    Transition.Reaches (step path) Alone world after :=
  .next .start alone (by rw [step, present, Option.bind_some, stepped])

theorem getElem?_setCall {changed : Call} (present : world.calls[index]? = some call) :
    (world.setCall index changed).calls[index]? = some changed := by
  have inside : index < world.calls.length := (List.getElem?_eq_some_iff.mp present).1
  rw [World.setCall, List.getElem?_set, if_pos rfl, if_pos inside]

/-- The calls when the one at an index has succeeded. -/
def World.Done (world after : World) (index : Nat) (call : Call) : Prop :=
  after.calls = world.calls.set index { call with phase := .returned none }

theorem rename_done (sound : Sound path start world) (present : world.calls[index]? = some call)
    (phase : call.phase = .replacing) :
    ∃ after, Transition.Reaches (step path) Alone world after ∧ world.Done after index call := by
  obtain ⟨file, temporary, -⟩ : Phase.Owned path world call.bytes .replacing :=
    phase ▸ sound.owned index call present
  have stepped : call.step path world index .rename =
      some (((world.setEntry path (some file)).setEntry (tempSibling path) none).setCall index
        { call with phase := .returned none }) := by
    simp only [Call.step, phase, temporary, if_true]
  exact ⟨_, reaches_move present stepped trivial, rfl⟩

theorem flush_done (sound : Sound path start world) (present : world.calls[index]? = some call)
    {file : Nat} (phase : call.phase = .writing file call.bytes.length) :
    ∃ after, Transition.Reaches (step path) Alone world after ∧ world.Done after index call := by
  have stepped : call.step path world index .flush =
      some (world.setCall index { call with phase := .replacing }) := by
    simp only [Call.step, phase, if_true]
  have flushed := reaches_move present stepped trivial
  obtain ⟨after, renamed, done⟩ :=
    rename_done (sound.reached flushed) (getElem?_setCall present) rfl
  refine ⟨after, flushed.trans renamed, ?_⟩
  rw [World.Done, done]
  exact List.set_set ..

theorem write_done (sound : Sound path start world) (present : world.calls[index]? = some call)
    {file position : Nat} (phase : call.phase = .writing file position) :
    ∃ after, Transition.Reaches (step path) Alone world after ∧ world.Done after index call := by
  obtain ⟨-, -, bounded⟩ : Phase.Owned path world call.bytes (.writing file position) :=
    phase ▸ sound.owned index call present
  rcases Nat.eq_or_lt_of_le bounded with complete | short
  · exact flush_done sound present (complete ▸ phase)
  · -- All that is left goes in one piece.
    obtain ⟨written, stepped, calls⟩ :
        ∃ written, call.step path world index (.write (call.bytes.length - position)) = some written ∧
          written.calls = world.calls.set index
            { call with phase := .writing file call.bytes.length } := by
      have fits : 0 < call.bytes.length - position ∧
          position + (call.bytes.length - position) ≤ call.bytes.length := by omega
      have reaching : position + (call.bytes.length - position) = call.bytes.length := by omega
      refine ⟨_, by simp only [Call.step, phase, if_pos fits]; rfl, ?_⟩
      simp only [World.setCall, World.setFile, reaching]
    have wrote := reaches_move present stepped trivial
    have there : written.calls[index]? = some { call with phase := .writing file call.bytes.length } := by
      rw [calls]
      exact getElem?_setCall present
    obtain ⟨after, flushed, done⟩ := flush_done (sound.reached wrote) there rfl
    refine ⟨after, wrote.trans flushed, ?_⟩
    rw [World.Done, done, calls]
    exact List.set_set ..

/-- A call between its open and its rename comes to return by its own steps, and succeeds unless
its rename has failed. -/
theorem holder_done (sound : Sound path start world) (present : world.calls[index]? = some call)
    (holding : call.phase.holds = true) :
    ∃ after phase, Transition.Reaches (step path) Alone world after ∧
      after.calls = world.calls.set index { call with phase } ∧ phase.holds = false ∧
        (call.phase ≠ .removing → phase = .returned none) := by
  cases phase : call.phase with
  | writing file position =>
      obtain ⟨after, wrote, done⟩ := write_done sound present phase
      exact ⟨after, .returned none, wrote, done, rfl, fun _ => rfl⟩
  | replacing =>
      obtain ⟨after, renamed, done⟩ := rename_done sound present phase
      exact ⟨after, .returned none, renamed, done, rfl, fun _ => rfl⟩
  | removing =>
      have stepped : call.step path world index .remove =
          some ((world.setEntry (tempSibling path) none).setCall index
            { call with phase := .returned (some (call.phase.failure call.bytes)) }) := by
        simp only [Call.step, phase, if_true]
      exact ⟨_, _, reaches_move present stepped trivial, rfl, rfl, fun other => absurd rfl other⟩
  | preparing => simp [phase, Phase.holds] at holding
  | creating => simp [phase, Phase.holds] at holding
  | returned error => simp [phase, Phase.holds] at holding

theorem open_done (sound : Sound path start world) (present : world.calls[index]? = some call)
    (phase : call.phase = .creating) (alone : ∀ d ∈ world.calls, d.phase.holds = false) :
    ∃ after, Transition.Reaches (step path) Alone world after ∧ world.Done after index call := by
  have stepped : call.step path world index .openFile =
      some ((world.truncated (tempSibling path)).1.setCall index
        { call with phase := .writing (world.truncated (tempSibling path)).2 0 }) := by
    simp only [Call.step, phase, if_true]
  have calls : (world.truncated (tempSibling path)).1.calls = world.calls := by
    unfold World.truncated
    split <;> rfl
  have opened := reaches_move present stepped alone
  obtain ⟨after, wrote, done⟩ :=
    write_done (sound.reached opened) (getElem?_setCall (calls ▸ present)) rfl
  refine ⟨after, opened.trans wrote, ?_⟩
  rw [World.Done, done, World.setCall, calls]
  exact List.set_set ..

/-- The call that holds the temporary file, if there is one, goes on to its end. -/
theorem freed (sound : Sound path start world) (present : world.calls[index]? = some call)
    (idle : call.phase.holds = false) :
    ∃ after, Transition.Reaches (step path) Alone world after ∧ after.calls[index]? = some call ∧
      ∀ d ∈ after.calls, d.phase.holds = false := by
  by_cases free : ∀ d ∈ world.calls, d.phase.holds = false
  · exact ⟨world, .start, present, free⟩
  · push Not at free
    obtain ⟨holder, member, holds⟩ := free
    rw [ne_eq, Bool.not_eq_false] at holds
    obtain ⟨j, found⟩ := List.getElem?_of_mem member
    have other : j ≠ index := by
      rintro rfl
      obtain rfl : call = holder := Option.some.inj (present.symm.trans found)
      exact absurd holds (by simp [idle])
    obtain ⟨after, phase, finished, done, released, -⟩ := holder_done sound found holds
    refine ⟨after, finished, ?_, ?_⟩
    · rw [done, List.getElem?_set, if_neg other]
      exact present
    · intro d listed
      obtain ⟨i, atI⟩ := List.getElem?_of_mem listed
      rw [done, List.getElem?_set] at atI
      split at atI
      · rw [if_pos (List.getElem?_eq_some_iff.mp found).1] at atI
        rw [← Option.some.inj atI]
        exact released
      · exact sound.idle found holds i d (Ne.symm ‹_›) atI

/-- A call that was refused nothing and has not returned can still succeed: the one that holds the
temporary file goes on to its end, and then this one. -/
theorem call_done (sound : Sound path start world) (present : world.calls[index]? = some call)
    (allowed : call.refused = false) (pending : ∀ error, call.phase ≠ .returned error) :
    ∃ after, Transition.Reaches (step path) Alone world after ∧
      after.calls[index]? = some { call with phase := .returned none } := by
  have listed : ∀ {before after : World} {c : Call}, before.calls[index]? = some c →
      before.Done after index c → after.calls[index]? = some { c with phase := .returned none } := by
    intro before after c there done
    rw [done]
    exact getElem?_setCall there
  by_cases holding : call.phase.holds = true
  · have fails := sound.settled call (List.mem_of_getElem? present) allowed
    obtain ⟨after, phase, finished, done, -, succeeds⟩ := holder_done sound present holding
    have unbroken : call.phase ≠ .removing := by
      intro broken
      rw [broken] at fails
      cases fails
    rw [succeeds unbroken] at done
    exact ⟨after, finished, listed present done⟩
  · obtain ⟨free, first, there, alone⟩ := freed sound present (by simpa using holding)
    have sound := sound.reached first
    cases phase : call.phase with
    | creating =>
        obtain ⟨after, finished, done⟩ := open_done sound there phase alone
        exact ⟨after, first.trans finished, listed there done⟩
    | preparing =>
        have stepped : call.step path free index .createDir =
            some (free.setCall index { call with phase := .creating }) := by
          simp only [Call.step, phase, if_true]
        have created := reaches_move there stepped trivial
        have still : ∀ d ∈ (free.setCall index { call with phase := .creating }).calls,
            d.phase.holds = false := by
          intro d member
          rcases List.mem_or_eq_of_mem_set member with member | rfl
          · exact alone d member
          · rfl
        obtain ⟨after, finished, done⟩ :=
          open_done (sound.reached created) (getElem?_setCall there) rfl still
        have there := listed (getElem?_setCall there) done
        exact ⟨after, (first.trans created).trans finished, there⟩
    | writing file position => simp [phase, Phase.holds] at holding
    | replacing => simp [phase, Phase.holds] at holding
    | removing => simp [phase, Phase.holds] at holding
    | returned error => exact absurd phase (pending error)

end Progress

theorem Fresh.sound {path : String} {start : World} (fresh : Fresh start) : Sound path start start := by
  refine ⟨fresh.below, fresh.single, ?_, ?_, .inl rfl, ?_⟩ <;> simp [fresh.quiet]

/-- The path holds what it held or exactly what one call was to write, and a call the file system
refused nothing has succeeded once it has returned. -/
def WholeWrites (path : String) (start world : World) : Prop :=
  (world.held path = start.held path ∨ ∃ call ∈ world.calls, world.held path = some call.bytes) ∧
    ∀ call ∈ world.calls, call.refused = false →
      ∀ error, call.phase = .returned error → error = none

/-- Where no two calls hold the temporary file, writes are whole in every state a run reaches; and
a call that has not returned comes to succeed when the file system refuses nothing more. -/
theorem whole_writes_when_alone (path : String) (start world : World) (fresh : Fresh start)
    (reached : Transition.Reaches (step path) Alone start world) :
    WholeWrites path start world ∧
      ∀ (index : Nat) (call : Call), world.calls[index]? = some call →
        call.refused = false → (∀ error, call.phase ≠ .returned error) →
          ∃ after, Transition.Reaches (step path) Alone world after ∧
            after.calls[index]? = some { call with phase := .returned none } := by
  have sound : Sound path start world := fresh.sound.reached reached
  refine ⟨⟨sound.kept, ?_⟩, fun _ _ present => call_done sound present⟩
  intro call member allowed error returned
  have fails := sound.settled call member allowed
  rw [returned] at fails
  exact Option.isNone_iff_eq_none.mp (by simpa [Phase.fails] using fails)

def emptyDirectory : World := ⟨fun _ => none, fun _ => [], 0, []⟩

theorem emptyDirectory_fresh : Fresh emptyDirectory := by
  refine ⟨rfl, ?_, ?_⟩
  · rintro name file ⟨⟩
  · rintro first second file ⟨⟩

/-- Two calls to one path, one after the other. -/
theorem whole_writes_in_turn :
    ∃ world, Transition.Reaches (step "chat.json") Alone emptyDirectory world ∧
      world.held "chat.json" = some [98] ∧
      WholeWrites "chat.json" emptyDirectory world := by
  have seen : (Transition.runMeeting (step "chat.json") Alone emptyDirectory
      [.call [97, 97, 97], .call [98], .move 0 .createDir, .move 1 .createDir, .move 0 .openFile,
        .move 0 (.write 2), .move 0 (.write 1), .move 0 .flush, .move 0 .rename, .move 1 .openFile,
        .move 1 (.write 1), .move 1 .flush, .move 1 .rename]).map
      (fun world => world.held "chat.json") = some (some [98]) := by
    decide
  obtain ⟨world, ran, held⟩ := Option.map_eq_some_iff.mp seen
  have reached := Transition.runMeeting_reaches ran
  exact ⟨world, reached, held,
    (whole_writes_when_alone "chat.json" _ world emptyDirectory_fresh reached).1⟩

/-- Two calls in one directory that opens empty: the second opens the temporary file while the
first is still to write it. -/
def overlapping : List Action :=
  [.call [97, 97, 97], .call [98], .move 0 .createDir, .move 1 .createDir, .move 0 .openFile,
    .move 1 .openFile, .move 0 (.write 3), .move 1 (.write 1), .move 0 .flush, .move 1 .flush,
    .move 0 .rename, .move 1 .rename, .move 1 .remove]

/-- The path then holds a mixture of the two, and the second call has failed. -/
theorem overlapping_writes_mix :
    Fresh emptyDirectory ∧
      ∃ world, Transition.Reaches (step "chat.json") Transition.Always emptyDirectory world ∧
        world.held "chat.json" = some [98, 97, 97] ∧
        world.calls[1]? = some ⟨[98], .returned (some (.io "replacing a data file")), false⟩ ∧
        ¬WholeWrites "chat.json" emptyDirectory world := by
  refine ⟨emptyDirectory_fresh, ?_⟩
  have seen : (Transition.run (step "chat.json") emptyDirectory overlapping).map
      (fun world => (world.held "chat.json", world.calls)) =
      some (some [98, 97, 97], [⟨[97, 97, 97], .returned none, false⟩,
        ⟨[98], .returned (some (.io "replacing a data file")), false⟩]) := by
    decide
  obtain ⟨world, ran, found⟩ := Option.map_eq_some_iff.mp seen
  obtain ⟨held, calls⟩ := Prod.mk.inj found
  refine ⟨world, Transition.run_reaches ran, held, by rw [calls]; rfl, ?_⟩
  rintro ⟨-, settled⟩
  rw [calls] at settled
  have impossible := settled _ (List.mem_cons_of_mem _ (List.mem_singleton_self _)) rfl _ rfl
  cases impossible

end Lightweight.Store.Atomic
