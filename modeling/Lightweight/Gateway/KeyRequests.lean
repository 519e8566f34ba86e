import Lightweight.Store.ApiKeys
import Lightweight.Transition

/-! Requests that change the API keys of a gateway that manages them, side by side: each reads the
file whole and writes it whole, with no lock between, and then refreshes the live policy from it. -/

namespace Lightweight.Gateway

open Lightweight.Store Transition

/-- Where a request stands. One that misses its key or fails writes nothing; one that has written
has an answer, and its refresh is still to come: it lists the file and then swaps the list in. -/
inductive KeyStage where
  | reading
  | writing (keys : List ApiKeyRecord)
  | missed
  | failed
  | returned
  | listed (named : List ApiKeyRecord)
  | refreshed
deriving DecidableEq

def KeyStage.mayWrite : KeyStage → Bool
  | .reading | .writing _ => true
  | _ => false

def KeyStage.hasWritten : KeyStage → Bool
  | .returned | .listed _ | .refreshed => true
  | _ => false

/-- Whether the request has found something to write. -/
def KeyStage.found : KeyStage → Bool
  | .writing _ => true
  | stage => stage.hasWritten

structure KeyRequest where
  op : KeyOp
  stage : KeyStage
deriving DecidableEq

/-- The file, the keys of the live policy and the requests so far. An id is random and handed out
once; `issued` are the ids that were. -/
structure KeyWorld where
  file : List ApiKeyRecord
  live : List ApiKeyRecord
  issued : List String
  requests : Nat → Option KeyRequest

def KeyWorld.start (file live : List ApiKeyRecord) : KeyWorld := ⟨file, live, ids file, fun _ => none⟩

def KeyWorld.setStage (world : KeyWorld) (request : Nat) (op : KeyOp) (stage : KeyStage) : KeyWorld :=
  { world with requests := Function.update world.requests request (some ⟨op, stage⟩) }

inductive KeyAction where
  | start (request : Nat) (op : KeyOp)
  | read (request : Nat)
  | write (request : Nat)
  | fail (request : Nat)
  | list (request : Nat)
  | swap (request : Nat)
  | keep (request : Nat)
deriving DecidableEq

/-- The ids that a new request needs: one that was never handed out, for a key. -/
def KeyWorld.issue (world : KeyWorld) : KeyOp → Option (List String)
  | .create record => if record.id ∈ world.issued then none else some (record.id :: world.issued)
  | _ => some world.issued

def keyStep (world : KeyWorld) : KeyAction → Option KeyWorld
  | .start request op =>
      match world.requests request with
      | some _ => none
      | none =>
          (world.issue op).map fun issued => ({ world with issued } : KeyWorld).setStage request op .reading
  | .read request =>
      match world.requests request with
      | some ⟨op, .reading⟩ =>
          match op.change world.file with
          | some keys => some (world.setStage request op (.writing keys))
          | none => some (world.setStage request op .missed)
      | _ => none
  | .write request =>
      match world.requests request with
      | some ⟨op, .writing keys⟩ =>
          some (({ world with file := keys } : KeyWorld).setStage request op .returned)
      | _ => none
  -- the file cannot be read or written
  | .fail request =>
      match world.requests request with
      | some ⟨op, stage⟩ =>
          if stage.mayWrite then some (world.setStage request op .failed) else none
      | none => none
  | .list request =>
      match world.requests request with
      | some ⟨op, .returned⟩ => some (world.setStage request op (.listed world.file))
      | _ => none
  | .swap request =>
      match world.requests request with
      | some ⟨op, .listed named⟩ =>
          some (({ world with live := named } : KeyWorld).setStage request op .refreshed)
      | _ => none
  -- the file cannot be listed, and the live policy stays in place
  | .keep request =>
      match world.requests request with
      | some ⟨op, .returned⟩ => some (world.setStage request op .refreshed)
      | _ => none

/-- A key that was created is in the file until a revoke removes it, and one that was revoked is out
of the file, and out of the live policy once the revoke has refreshed it. -/
structure KeysHold (world : KeyWorld) : Prop where
  created : ∀ request record stage, world.requests request = some ⟨.create record, stage⟩ →
    stage.hasWritten = true →
    (¬∃ other last, world.requests other = some ⟨.revoke record.id, last⟩ ∧ last.hasWritten = true) →
    record.id ∈ ids world.file
  removed : ∀ request id stage, world.requests request = some ⟨.revoke id, stage⟩ →
    stage.hasWritten = true → id ∉ ids world.file
  refused : ∀ request id, world.requests request = some ⟨.revoke id, .refreshed⟩ →
    ∀ hash record, verifyAgainst world.live hash = some record → record.id ≠ id

/-- No other create or revoke comes between what a request reads and what it writes, so that it
writes the keys it would write now; no list is swapped in that has a key whose revoke is done; and a
revoke whose key is live can list the file. -/
def Serial (world : KeyWorld) : KeyAction → Prop
  | .write request =>
      ∀ op keys, world.requests request = some ⟨op, .writing keys⟩ →
        ∀ id, id ∈ ids keys ↔ id ∈ op.leaves (ids world.file)
  | .swap request =>
      ∀ op named, world.requests request = some ⟨op, .listed named⟩ →
        ∀ id ∈ ids named, ¬∃ other, world.requests other = some ⟨.revoke id, .refreshed⟩
  | .keep request =>
      ∀ id, world.requests request = some ⟨.revoke id, .returned⟩ → id ∉ ids world.live
  | _ => True

/-- What every step of a serial run keeps. -/
structure KeysInvariant (world : KeyWorld) : Prop where
  created : ∀ request record stage, world.requests request = some ⟨.create record, stage⟩ →
    stage.hasWritten = true →
    (∃ other last, world.requests other = some ⟨.revoke record.id, last⟩ ∧ last.hasWritten = true) ∨
      record.id ∈ ids world.file
  removed : ∀ request id stage, world.requests request = some ⟨.revoke id, stage⟩ →
    stage.hasWritten = true → id ∉ ids world.file
  listed : ∀ request id named, world.requests request = some ⟨.revoke id, .listed named⟩ →
    id ∉ ids named
  refused : ∀ request id, world.requests request = some ⟨.revoke id, .refreshed⟩ →
    id ∉ ids world.live
  fileIssued : ∀ id ∈ ids world.file, id ∈ world.issued
  createIssued : ∀ request record stage, world.requests request = some ⟨.create record, stage⟩ →
    record.id ∈ world.issued
  foundIssued : ∀ request id stage, world.requests request = some ⟨.revoke id, stage⟩ →
    stage.found = true → id ∈ world.issued
  /-- An id is handed out once. -/
  apart : ∀ first second record other stage last,
    world.requests first = some ⟨.create record, stage⟩ →
    world.requests second = some ⟨.create other, last⟩ → record.id = other.id → first = second
  /-- Nobody knows a key that is not written yet. -/
  pending : ∀ request record stage, world.requests request = some ⟨.create record, stage⟩ →
    stage.mayWrite = true → record.id ∉ ids world.file ∧
      ∀ other last, world.requests other = some ⟨.revoke record.id, last⟩ → last.found = false

theorem KeysInvariant.hold {world : KeyWorld} (invariant : KeysInvariant world) : KeysHold world := by
  refine ⟨?_, invariant.removed, ?_⟩
  · intro request record stage there written kept
    exact (invariant.created request record stage there written).resolve_left kept
  · intro request id there hash record verified same
    apply invariant.refused request id there
    exact mem_ids.mpr ⟨record, mem_of_verifyAgainst verified, same⟩

theorem start_invariant (file live : List ApiKeyRecord) : KeysInvariant (.start file live) where
  created _ _ _ there := nomatch there
  removed _ _ _ there := nomatch there
  listed _ _ _ there := nomatch there
  refused _ _ there := nomatch there
  fileIssued _ member := member
  createIssued _ _ _ there := nomatch there
  foundIssued _ _ _ there := nomatch there
  apart _ _ _ _ _ _ there := nomatch there
  pending _ _ _ there := nomatch there

section Steps

variable {world : KeyWorld} {request other : Nat} {op : KeyOp} {stage before after : KeyStage}

theorem KeyWorld.requests_setStage {found : KeyRequest} :
    (world.setStage request op stage).requests other = some found ↔
      other = request ∧ found = ⟨op, stage⟩ ∨
        other ≠ request ∧ world.requests other = some found := by
  unfold KeyWorld.setStage
  by_cases same : other = request
  · subst same
    simp only [Function.update_self, Option.some.injEq, true_and, ne_eq, not_true_eq_false,
      false_and, or_false]
    exact eq_comm
  · simp only [Function.update_of_ne same, same, false_and, ne_eq, not_false_eq_true, true_and,
      false_or]

/-- A revoke that has written stays one when a request moves on. -/
theorem KeyWorld.revoked_setStage (world : KeyWorld) {id : String}
    (there : world.requests request = some ⟨op, before⟩)
    (written : before.hasWritten = true → stage.hasWritten = true)
    (revoked : ∃ other last, world.requests other = some ⟨.revoke id, last⟩ ∧
      last.hasWritten = true) :
    ∃ other last, (world.setStage request op stage).requests other = some ⟨.revoke id, last⟩ ∧
      last.hasWritten = true := by
  obtain ⟨other, last, found, gone⟩ := revoked
  by_cases same : other = request
  · subst same
    rw [there] at found
    cases found
    exact ⟨other, stage, requests_setStage.mpr (Or.inl ⟨rfl, rfl⟩), written gone⟩
  · exact ⟨other, last, requests_setStage.mpr (Or.inr ⟨same, found⟩), gone⟩

/-- A request that moves on without writing, with what the live policy becomes. -/
theorem KeysInvariant.advance (invariant : KeysInvariant world) (live : List ApiKeyRecord)
    (there : world.requests request = some ⟨op, before⟩)
    (written : after.hasWritten = before.hasWritten)
    (fewer : after.mayWrite = true → before.mayWrite = true)
    (found : after.found = true → before.found = true ∨ ∀ id, op = .revoke id → id ∈ ids world.file)
    (lists : ∀ named id, after = .listed named → op = .revoke id → id ∉ ids named)
    (refuses : ∀ id, (after = .refreshed ∧ op = .revoke id ∨
      ∃ other, world.requests other = some ⟨.revoke id, .refreshed⟩) → id ∉ ids live) :
    KeysInvariant (({ world with live } : KeyWorld).setStage request op after) := by
  have before_of : ∀ {other : Nat} {found : KeyRequest},
      (({ world with live } : KeyWorld).setStage request op after).requests other = some found →
        ∃ earlier, world.requests other = some ⟨found.op, earlier⟩ ∧
          found.stage.hasWritten = earlier.hasWritten ∧
          (found.stage.mayWrite = true → earlier.mayWrite = true) ∧
          (found.stage.found = true → earlier.found = true ∨
            ∀ id, found.op = .revoke id → id ∈ ids world.file) := by
    intro other found now
    rcases KeyWorld.requests_setStage.mp now with ⟨rfl, rfl⟩ | ⟨-, unchanged⟩
    · exact ⟨before, there, written, fewer, found⟩
    · exact ⟨found.stage, unchanged, rfl, id, Or.inl⟩
  constructor
  case created =>
    intro other record stage now wrote
    obtain ⟨earlier, was, same, -, -⟩ := before_of now
    rw [same] at wrote
    rcases invariant.created other record earlier was wrote with revoked | kept
    · exact Or.inl (KeyWorld.revoked_setStage { world with live } there
        (fun wrote => written.trans wrote) revoked)
    · exact Or.inr kept
  case removed =>
    intro other id stage now wrote
    obtain ⟨earlier, was, same, -, -⟩ := before_of now
    rw [same] at wrote
    exact invariant.removed other id earlier was wrote
  case listed =>
    intro other id named now
    rcases KeyWorld.requests_setStage.mp now with ⟨rfl, same⟩ | ⟨-, unchanged⟩
    · cases same
      exact lists named id rfl rfl
    · exact invariant.listed other id named unchanged
  case refused =>
    intro other id now
    rcases KeyWorld.requests_setStage.mp now with ⟨rfl, same⟩ | ⟨-, unchanged⟩
    · cases same
      exact refuses id (Or.inl ⟨rfl, rfl⟩)
    · exact refuses id (Or.inr ⟨other, unchanged⟩)
  case fileIssued => exact invariant.fileIssued
  case createIssued =>
    intro other record stage now
    obtain ⟨earlier, was, -⟩ := before_of now
    exact invariant.createIssued other record earlier was
  case foundIssued =>
    intro other id stage now some_found
    obtain ⟨earlier, was, -, -, held⟩ := before_of now
    rcases held some_found with earlier_found | listed
    · exact invariant.foundIssued other id earlier was earlier_found
    · exact invariant.fileIssued id (listed id rfl)
  case apart =>
    intro first second record other stage last now other_now same
    obtain ⟨_, was, -⟩ := before_of now
    obtain ⟨_, other_was, -⟩ := before_of other_now
    exact invariant.apart first second record other _ _ was other_was same
  case pending =>
    intro other record stage now writes
    obtain ⟨earlier, was, -, may, -⟩ := before_of now
    rcases invariant.pending other record earlier was (may writes) with ⟨absent, unknown⟩
    refine ⟨absent, ?_⟩
    intro revoker last revoking
    obtain ⟨sooner, revoked, -, -, held⟩ := before_of revoking
    by_contra some_found
    rcases held (Bool.not_eq_false _ ▸ some_found) with sooner_found | listed
    · rw [unknown revoker sooner revoked] at sooner_found
      cases sooner_found
    · exact absent (listed record.id rfl)

/-- A new request. -/
theorem KeysInvariant.start (invariant : KeysInvariant world) {issued : List String}
    (free : world.requests request = none) (issue : world.issue op = some issued) :
    KeysInvariant (({ world with issued } : KeyWorld).setStage request op .reading) := by
  have more : ∀ id ∈ world.issued, id ∈ issued := by
    cases op with
    | create record =>
        simp only [KeyWorld.issue, Option.ite_none_left_eq_some, Option.some.injEq] at issue
        intro id member
        rw [← issue.2]
        exact List.mem_cons_of_mem _ member
    | revoke id =>
        cases issue
        exact fun _ member => member
    | setLimit id limit =>
        cases issue
        exact fun _ member => member
  -- a key that is created now has an id that nobody has
  have fresh : ∀ record, op = .create record → record.id ∈ issued ∧ record.id ∉ world.issued := by
    rintro record rfl
    simp only [KeyWorld.issue, Option.ite_none_left_eq_some, Option.some.injEq] at issue
    rw [← issue.2]
    exact ⟨List.mem_cons_self, issue.1⟩
  have there_of : ∀ {other : Nat} {found : KeyRequest},
      (({ world with issued } : KeyWorld).setStage request op .reading).requests other = some found →
        (other = request ∧ found = ⟨op, .reading⟩) ∨ world.requests other = some found := by
    intro other found now
    rcases KeyWorld.requests_setStage.mp now with here | ⟨-, unchanged⟩
    · exact Or.inl here
    · exact Or.inr unchanged
  constructor
  case created =>
    intro other record stage now wrote
    rcases there_of now with ⟨rfl, same⟩ | was
    · cases same
      cases wrote
    · rcases invariant.created other record stage was wrote with ⟨revoker, last, gone⟩ | kept
      · refine Or.inl ⟨revoker, last, KeyWorld.requests_setStage.mpr (Or.inr ⟨?_, gone.1⟩), gone.2⟩
        rintro rfl
        rw [free] at gone
        exact nomatch gone.1
      · exact Or.inr kept
  case removed =>
    intro other id stage now wrote
    rcases there_of now with ⟨rfl, same⟩ | was
    · cases same
      cases wrote
    · exact invariant.removed other id stage was wrote
  case listed =>
    intro other id named now
    rcases there_of now with ⟨rfl, same⟩ | was
    · cases same
    · exact invariant.listed other id named was
  case refused =>
    intro other id now
    rcases there_of now with ⟨rfl, same⟩ | was
    · cases same
    · exact invariant.refused other id was
  case fileIssued => exact fun id member => more id (invariant.fileIssued id member)
  case createIssued =>
    intro other record stage now
    rcases there_of now with ⟨rfl, same⟩ | was
    · cases same
      exact (fresh record rfl).1
    · exact more _ (invariant.createIssued other record stage was)
  case foundIssued =>
    intro other id stage now some_found
    rcases there_of now with ⟨rfl, same⟩ | was
    · cases same
      cases some_found
    · exact more _ (invariant.foundIssued other id stage was some_found)
  case apart =>
    intro first second record other stage last now other_now same
    rcases there_of now with ⟨rfl, here⟩ | was
    · cases here
      rcases there_of other_now with ⟨rfl, -⟩ | other_was
      · rfl
      · apply absurd (invariant.createIssued second other last other_was)
        rw [← same]
        exact (fresh record rfl).2
    · rcases there_of other_now with ⟨rfl, here⟩ | other_was
      · cases here
        apply absurd (invariant.createIssued first record stage was)
        rw [same]
        exact (fresh other rfl).2
      · exact invariant.apart first second record other stage last was other_was same
  case pending =>
    intro other record stage now writes
    have unknown_now : ∀ revoker last,
        (∀ last, world.requests revoker = some ⟨.revoke record.id, last⟩ → last.found = false) →
        (({ world with issued } : KeyWorld).setStage request op .reading).requests revoker =
          some ⟨.revoke record.id, last⟩ → last.found = false := by
      intro revoker last unknown revoking
      rcases there_of revoking with ⟨-, same⟩ | was
      · cases same
        rfl
      · exact unknown last was
    rcases there_of now with ⟨rfl, same⟩ | was
    · cases same
      refine ⟨fun member => (fresh record rfl).2 (invariant.fileIssued _ member), ?_⟩
      intro revoker last revoking
      apply unknown_now revoker last _ revoking
      intro earlier was
      by_contra some_found
      exact (fresh record rfl).2
        (invariant.foundIssued revoker _ earlier was (Bool.not_eq_false _ ▸ some_found))
    · rcases invariant.pending other record stage was writes with ⟨absent, unknown⟩
      exact ⟨absent, fun revoker last revoking => unknown_now revoker last (unknown revoker) revoking⟩

/-- A request that writes what it would write now. -/
theorem KeysInvariant.write (invariant : KeysInvariant world) {keys : List ApiKeyRecord}
    (there : world.requests request = some ⟨op, .writing keys⟩)
    (serial : ∀ id, id ∈ ids keys ↔ id ∈ op.leaves (ids world.file)) :
    KeysInvariant (({ world with file := keys } : KeyWorld).setStage request op .returned) := by
  have written_of : ∀ {other : Nat} {found : KeyRequest},
      (({ world with file := keys } : KeyWorld).setStage request op .returned).requests other =
          some found →
        other = request ∧ found = ⟨op, .returned⟩ ∨
          other ≠ request ∧ world.requests other = some found := by
    intro other found now
    exact KeyWorld.requests_setStage.mp now
  constructor
  case created =>
    intro other record stage now wrote
    rcases written_of now with ⟨rfl, same⟩ | ⟨-, was⟩
    · cases same
      exact Or.inr ((serial _).mpr (KeyOp.mem_leaves.mpr (Or.inl ⟨record, rfl, rfl⟩)))
    · rcases invariant.created other record stage was wrote with revoked | kept
      · exact Or.inl (KeyWorld.revoked_setStage { world with file := keys } there
          (fun wrote => nomatch wrote) revoked)
      · by_cases removes : op = .revoke record.id
        · exact Or.inl ⟨request, .returned,
            KeyWorld.requests_setStage.mpr (Or.inl ⟨rfl, by rw [removes]⟩), rfl⟩
        · exact Or.inr ((serial _).mpr (KeyOp.mem_leaves.mpr (Or.inr ⟨kept, removes⟩)))
  case removed =>
    intro other id stage now wrote member
    have left := KeyOp.mem_leaves.mp ((serial id).mp member)
    rcases written_of now with ⟨rfl, same⟩ | ⟨-, was⟩
    · cases same
      rcases left with ⟨record, created, -⟩ | ⟨-, other_op⟩
      · cases created
      · exact other_op rfl
    · rcases left with ⟨record, rfl, rfl⟩ | ⟨kept, -⟩
      · have unknown := (invariant.pending request record _ there rfl).2 other stage was
        cases stage <;> cases wrote <;> cases unknown
      · exact invariant.removed other id stage was wrote kept
  case listed =>
    intro other id named now
    rcases written_of now with ⟨rfl, same⟩ | ⟨-, was⟩
    · cases same
    · exact invariant.listed other id named was
  case refused =>
    intro other id now
    rcases written_of now with ⟨rfl, same⟩ | ⟨-, was⟩
    · cases same
    · exact invariant.refused other id was
  case fileIssued =>
    intro id member
    rcases KeyOp.mem_leaves.mp ((serial id).mp member) with ⟨record, rfl, rfl⟩ | ⟨kept, -⟩
    · exact invariant.createIssued request record _ there
    · exact invariant.fileIssued id kept
  case createIssued =>
    intro other record stage now
    rcases written_of now with ⟨rfl, same⟩ | ⟨-, was⟩
    · cases same
      exact invariant.createIssued other record _ there
    · exact invariant.createIssued other record stage was
  case foundIssued =>
    intro other id stage now some_found
    rcases written_of now with ⟨rfl, same⟩ | ⟨-, was⟩
    · cases same
      exact invariant.foundIssued other id _ there rfl
    · exact invariant.foundIssued other id stage was some_found
  case apart =>
    intro first second record other stage last now other_now same
    rcases written_of now with ⟨rfl, here⟩ | ⟨-, was⟩
    · cases here
      rcases written_of other_now with ⟨rfl, -⟩ | ⟨-, other_was⟩
      · rfl
      · exact invariant.apart first second record other _ last there other_was same
    · rcases written_of other_now with ⟨rfl, here⟩ | ⟨-, other_was⟩
      · cases here
        exact invariant.apart first second record other stage _ was there same
      · exact invariant.apart first second record other stage last was other_was same
  case pending =>
    intro other record stage now writes
    rcases written_of now with ⟨rfl, same⟩ | ⟨elsewhere, was⟩
    · cases same
      cases writes
    · rcases invariant.pending other record stage was writes with ⟨absent, unknown⟩
      refine ⟨?_, ?_⟩
      · intro member
        rcases KeyOp.mem_leaves.mp ((serial _).mp member) with ⟨own, rfl, same⟩ | ⟨kept, -⟩
        · exact elsewhere (invariant.apart other request record own stage _ was there same.symm)
        · exact absent kept
      · intro revoker last revoking
        rcases written_of revoking with ⟨rfl, same⟩ | ⟨-, revoked⟩
        · cases same
          exact nomatch unknown revoker _ there
        · exact unknown revoker last revoked

theorem KeysInvariant.step {action : KeyAction} {next : KeyWorld} (serial : Serial world action)
    (invariant : KeysInvariant world) (stepped : keyStep world action = some next) :
    KeysInvariant next := by
  have unrefreshed : ∀ {op : KeyOp} {after : KeyStage}, after ≠ .refreshed → ∀ id,
      (after = .refreshed ∧ op = .revoke id ∨
        ∃ other, world.requests other = some ⟨.revoke id, .refreshed⟩) → id ∉ ids world.live := by
    rintro op after apart id (⟨same, -⟩ | ⟨other, was⟩)
    · exact absurd same apart
    · exact invariant.refused other id was
  unfold keyStep at stepped
  cases action with
  | start request op =>
      dsimp only at stepped
      split at stepped
      · cases stepped
      · rename_i free
        obtain ⟨issued, issue, rfl⟩ := Option.map_eq_some_iff.mp stepped
        exact invariant.start free issue
  | read request =>
      dsimp only at stepped
      split at stepped
      · rename_i op there
        split at stepped
        · rename_i keys changed
          cases stepped
          refine invariant.advance world.live there rfl (fun _ => rfl) ?_ ?_ (unrefreshed nofun)
          · intro _
            refine Or.inr ?_
            rintro id rfl
            exact KeyOp.mem_of_revoke changed
          · rintro named id ⟨⟩
        · cases stepped
          refine invariant.advance world.live there rfl nofun nofun ?_ (unrefreshed nofun)
          rintro named id ⟨⟩
      · cases stepped
  | write request =>
      dsimp only at stepped
      split at stepped
      · rename_i op keys there
        cases stepped
        exact invariant.write there (serial op keys there)
      · cases stepped
  | fail request =>
      dsimp only at stepped
      split at stepped
      · rename_i op stage there
        split at stepped
        · rename_i may
          cases stepped
          have unwritten : stage.hasWritten = false := by
            cases stage <;> first | rfl | cases may
          refine invariant.advance world.live there unwritten.symm nofun nofun ?_ (unrefreshed nofun)
          rintro named id ⟨⟩
        · cases stepped
      · cases stepped
  | list request =>
      dsimp only at stepped
      split at stepped
      · rename_i op there
        cases stepped
        refine invariant.advance world.live there rfl nofun (fun _ => Or.inl rfl) ?_
          (unrefreshed nofun)
        rintro named id ⟨⟩ rfl
        exact invariant.removed request id .returned there rfl
      · cases stepped
  | swap request =>
      dsimp only at stepped
      split at stepped
      · rename_i op named there
        cases stepped
        refine invariant.advance named there rfl nofun (fun _ => Or.inl rfl) nofun ?_
        rintro id (⟨-, rfl⟩ | refreshed)
        · exact invariant.listed request id named there
        · exact fun member => serial op named there id member refreshed
      · cases stepped
  | keep request =>
      dsimp only at stepped
      split at stepped
      · rename_i op there
        cases stepped
        refine invariant.advance world.live there rfl nofun (fun _ => Or.inl rfl) nofun ?_
        rintro id (⟨-, rfl⟩ | ⟨other, refreshed⟩)
        · exact serial id there
        · exact invariant.refused other id refreshed
      · cases stepped

end Steps

/-- In every run whose requests do not get between each other, keys that were created stay and keys
that were revoked stay away. -/
theorem keys_hold_serially {file live : List ApiKeyRecord} {world : KeyWorld}
    (reached : Reaches keyStep Serial (.start file live) world) : KeysHold world := by
  have invariant : KeysInvariant world := by
    apply reached.invariant KeysInvariant (start_invariant file live)
    intro before action after serial held stepped
    exact held.step serial stepped
  exact invariant.hold

/-- A key that was there from the start. -/
def oldKey : ApiKeyRecord := ⟨"old", "harness", "digest of old", 1, ⟨none, none⟩⟩

def newKey : ApiKeyRecord := ⟨"new", "phone", "digest of new", 2, ⟨none, none⟩⟩

def otherKey : ApiKeyRecord := ⟨"other", "laptop", "digest of other", 3, ⟨none, none⟩⟩

/-- A create reads the file, a revoke comes and goes, and the create writes what it has read. -/
def overtaking : List KeyAction :=
  [.start 0 (.create newKey), .read 0, .start 1 (.revoke "old"), .read 1, .write 1, .list 1, .swap 1,
    .write 0, .list 0, .swap 0]

/-- Two creates read the same file. -/
def crossing : List KeyAction :=
  [.start 0 (.create newKey), .start 1 (.create otherKey), .read 0, .read 1, .write 0, .write 1,
    .list 0, .swap 0, .list 1, .swap 1]

/-- Where requests lead, from one key. -/
def keysAfter (actions : List KeyAction) : KeyWorld :=
  (run keyStep (.start [oldKey] [oldKey]) actions).getD (.start [] [])

theorem revoked_key_comes_back :
    Reaches keyStep Always (.start [oldKey] [oldKey]) (keysAfter overtaking) ∧
      ¬KeysHold (keysAfter overtaking) ∧
      Reaches keyStep Always (.start [oldKey] [oldKey]) (keysAfter crossing) ∧
      ¬KeysHold (keysAfter crossing) := by
  have overtook : run keyStep (.start [oldKey] [oldKey]) overtaking = some (keysAfter overtaking) :=
    rfl
  have crossed : run keyStep (.start [oldKey] [oldKey]) crossing = some (keysAfter crossing) :=
    rfl
  refine ⟨run_reaches overtook, ?_, run_reaches crossed, ?_⟩
  · intro hold
    apply hold.removed 1 "old" .refreshed rfl rfl
    decide +kernel
  · intro hold
    have lost : newKey.id ∉ ids (keysAfter crossing).file := by
      decide +kernel
    apply lost
    apply hold.created 0 newKey .refreshed rfl rfl
    rintro ⟨other, last, there, -⟩
    rcases other with _ | _ | other
    · cases there
    · cases there
    · cases there

/-- One request behind another. -/
def inTurn : List KeyAction :=
  [.start 0 (.create newKey), .read 0, .write 0, .start 1 (.revoke "old"), .read 1, .write 1, .list 1,
    .swap 1]

theorem requests_in_turn_hold :
    Reaches keyStep Serial (.start [oldKey] [oldKey]) (keysAfter inTurn) ∧
      newKey.id ∈ ids (keysAfter inTurn).file ∧ "old" ∉ ids (keysAfter inTurn).file := by
  have started := Reaches.act (.start : Reaches keyStep Serial (.start [oldKey] [oldKey]) _)
    (.start 0 (.create newKey)) trivial rfl
  have read := started.act (.read 0) trivial rfl
  have created := read.act (.write 0)
    (by
      rintro op keys ⟨⟩
      exact KeyOp.mem_ids_change rfl)
    rfl
  have removing := (created.act (.start 1 (.revoke "old")) trivial rfl).act (.read 1) trivial rfl
  have removed := removing.act (.write 1)
    (by
      rintro op keys ⟨⟩
      exact KeyOp.mem_ids_change rfl)
    rfl
  have listed := removed.act (.list 1) trivial rfl
  have swapped := listed.act (.swap 1)
    (by
      rintro op keys ⟨⟩ id - ⟨other, there⟩
      rcases other with _ | _ | other
      · cases there
      · cases there
      · cases there)
    rfl
  have reached : Reaches keyStep Serial (.start [oldKey] [oldKey]) (keysAfter inTurn) := swapped
  have hold := keys_hold_serially reached
  refine ⟨reached, ?_, ?_⟩
  · apply hold.created 0 newKey .returned rfl rfl
    rintro ⟨other, last, there, wrote⟩
    rcases other with _ | _ | other
    · cases there
    · have same : "old" = newKey.id := by
        injection there with found
        injection found with ops
        injection ops
      exact absurd same (by decide)
    · cases there
  · exact hold.removed 1 "old" .refreshed rfl rfl

end Lightweight.Gateway
