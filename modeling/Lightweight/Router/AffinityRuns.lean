import Lightweight.Transition
import Lightweight.Router.Affinity

/-! The affinity book over whole runs: how many sessions it keeps, which it gives up for room, and
that a lookup agrees with the history of the session it is asked about. -/

namespace Lightweight.Router

open Lightweight.Transition

namespace AffinityEntries

theorem lookup_retain (entries : AffinityEntries) (keep : AffinityEntry → Bool)
    (key : AffinityKey) :
    (AffinityEntries.retain entries keep).lookup key = (entries.lookup key).filter keep := by
  apply Option.ext
  intro entry
  rw [← Option.mem_def, AList.mem_lookup_iff, Option.filter_eq_some_iff, ← Option.mem_def,
    AList.mem_lookup_iff]
  simp [AffinityEntries.retain, List.mem_filter]

theorem length_retain (entries : AffinityEntries) (keep : AffinityEntry → Bool) :
    (AffinityEntries.retain entries keep).keys.length ≤ entries.keys.length := by
  have shorter : (AffinityEntries.retain entries keep).entries.Sublist entries.entries :=
    List.filter_sublist
  exact (shorter.map Sigma.fst).length_le

/-- An entry that is not kept makes the map shorter. -/
theorem length_retain_lt {entries : AffinityEntries} {keep : AffinityEntry → Bool}
    {key : AffinityKey} {entry : AffinityEntry} (found : entries.lookup key = some entry)
    (gone : keep entry = false) :
    (AffinityEntries.retain entries keep).keys.length < entries.keys.length := by
  have member : (⟨key, entry⟩ : Sigma fun _ : AffinityKey => AffinityEntry) ∈ entries.entries :=
    AList.mem_lookup_iff.mp found
  have shorter : (entries.entries.filter fun entry => keep entry.2).length <
      entries.entries.length := by
    rw [List.length_filter_lt_length_iff_exists]
    exact ⟨_, member, by simp [gone]⟩
  simpa [AffinityEntries.retain, AList.keys, List.keys] using shorter

theorem retain_eq_self {entries : AffinityEntries} {keep : AffinityEntry → Bool}
    (all : ∀ key entry, entries.lookup key = some entry → keep entry = true) :
    AffinityEntries.retain entries keep = entries := by
  apply AList.ext
  rw [AffinityEntries.retain, List.filter_eq_self]
  intro entry member
  exact all entry.1 entry.2 (AList.mem_lookup_iff.mpr member)

theorem length_insert_of_lookup {entries : AffinityEntries} {key : AffinityKey}
    {entry : AffinityEntry} (found : entries.lookup key = some entry) (other : AffinityEntry) :
    (entries.insert key other).keys.length = entries.keys.length := by
  have member : key ∈ entries.keys := by
    rw [← AList.mem_keys, ← AList.lookup_isSome, found]
    rfl
  rw [AList.keys_insert, List.length_cons, List.length_erase_of_mem member]
  exact Nat.sub_add_cancel (List.length_pos_of_mem member)

theorem length_insert_le (entries : AffinityEntries) (key : AffinityKey) (entry : AffinityEntry) :
    (entries.insert key entry).keys.length ≤ entries.keys.length + 1 := by
  rw [AList.keys_insert, List.length_cons]
  exact Nat.succ_le_succ List.length_erase_le

end AffinityEntries

namespace AffinityBook

theorem oldest_spec {book : AffinityBook} {key : AffinityKey} (found : book.oldest = some key) :
    ∃ entry, book.entries.lookup key = some entry ∧
      ∀ other kept, book.entries.lookup other = some kept → entry.lastUsed ≤ kept.lastUsed := by
  rcases Option.map_eq_some_iff.mp found with ⟨⟨front, entry, back⟩, least, rfl⟩
  have inMap := book.walks book.entries.entries
  refine ⟨entry.2, ?_, ?_⟩
  · apply AList.mem_lookup_iff.mpr
    rw [← inMap.mem_iff, (minByKey_spec least).1]
    exact List.mem_append_right _ List.mem_cons_self
  · intro other kept present
    have member := inMap.mem_iff.mpr (AList.mem_lookup_iff.mp present)
    exact minByKey_le least _ member

theorem oldest_of_length_pos {book : AffinityBook} (some' : 0 < book.entries.keys.length) :
    ∃ key, book.oldest = some key := by
  unfold oldest
  cases least : minByKey (fun entry => entry.2.lastUsed) (book.walk book.entries.entries) with
  | some entry => exact ⟨_, rfl⟩
  | none =>
      have empty := minByKey_eq_none.mp least
      have none' : book.entries.entries = [] := by
        have walked := book.walks book.entries.entries
        rw [empty] at walked
        exact walked.nil_eq.symm
      rw [AList.keys, none'] at some'
      exact absurd some' (Nat.lt_irrefl 0)

theorem length_erase {book : AffinityBook} {key : AffinityKey} {entry : AffinityEntry}
    (found : book.entries.lookup key = some entry) :
    (book.entries.erase key).keys.length = book.entries.keys.length - 1 := by
  have member : key ∈ book.entries.keys := by
    rw [← AList.mem_keys, ← AList.lookup_isSome, found]
    rfl
  rw [AList.keys_erase, List.length_erase_of_mem member]

theorem makeRoom_roomy {book : AffinityBook} (room : book.entries.keys.length < book.policy.maxEntries)
    (tries : Nat) : book.makeRoom tries = book := by
  cases tries with
  | zero => rfl
  | succ tries => rw [makeRoom, if_neg (Nat.not_le.mpr room)]

/-- A full book gives up one entry, the least recently used. -/
theorem makeRoom_full {book : AffinityBook} (some' : 1 ≤ book.policy.maxEntries)
    (full : book.entries.keys.length = book.policy.maxEntries) :
    ∃ key, book.oldest = some key ∧
      book.makeRoom book.entries.keys.length =
        { book with
          entries := book.entries.erase key
          capacityEvictions := book.capacityEvictions + 1 } := by
  have pos : 0 < book.entries.keys.length := by
    rw [full]
    exact some'
  rcases oldest_of_length_pos pos with ⟨key, oldest⟩
  rcases oldest_spec oldest with ⟨entry, found, _⟩
  refine ⟨key, oldest, ?_⟩
  rcases Nat.exists_eq_succ_of_ne_zero (Nat.ne_of_gt some') with ⟨tries, count⟩
  rw [full, count, makeRoom, if_pos (by rw [full]), oldest]
  apply makeRoom_roomy
  change (book.entries.erase key).keys.length < book.policy.maxEntries
  rw [length_erase found, full]
  exact Nat.sub_lt some' Nat.one_pos

/-- What becomes of an entry when a session is stored: it stays, or goes because it had expired or
was the least recently used of a book full of live ones. -/
def Keeps (book : AffinityBook) (now : Nat) (other : AffinityKey) (after : Option AffinityEntry) :
    Prop :=
  after = book.entries.lookup other ∨
    after = none ∧ ∀ entry, book.entries.lookup other = some entry →
      book.expired entry now = true ∨
      book.entries.keys.length = book.policy.maxEntries ∧
        ∀ any kept, book.entries.lookup any = some kept →
          book.expired kept now = false ∧ entry.lastUsed ≤ kept.lastUsed

structure MakesRoom (book : AffinityBook) (now : Nat) (roomy : AffinityBook) : Prop where
  policy : roomy.policy = book.policy
  room : roomy.entries.keys.length < book.policy.maxEntries
  keeps : ∀ other, book.Keeps now other (roomy.entries.lookup other)

/-- What storing a session leaves: the session where it was put, and what is kept of the others. -/
structure Stores (book : AffinityBook) (key : AffinityKey) (deployment : DeploymentId) (now : Nat)
    (after : AffinityBook) : Prop where
  policy : after.policy = book.policy
  stored : ∃ created, after.entries.lookup key = some ⟨deployment, created, now⟩
  bounded : after.entries.keys.length ≤ book.policy.maxEntries
  others : ∀ other, other ≠ key → book.Keeps now other (after.entries.lookup other)

theorem dropExpired_lookup (book : AffinityBook) (now : Nat) (key : AffinityKey) :
    (book.dropExpired now).2.entries.lookup key =
      (book.entries.lookup key).filter fun entry => !book.expired entry now :=
  AffinityEntries.lookup_retain book.entries _ key

theorem dropExpired_keeps (book : AffinityBook) (now : Nat) (other : AffinityKey) :
    book.Keeps now other ((book.dropExpired now).2.entries.lookup other) := by
  rw [dropExpired_lookup]
  cases found : book.entries.lookup other with
  | none => exact Or.inl found.symm
  | some entry =>
      cases gone : book.expired entry now with
      | true =>
          refine Or.inr ⟨by simp [Option.filter, gone], ?_⟩
          intro same own
          rw [found, Option.some.injEq] at own
          rw [← own]
          exact Or.inl gone
      | false =>
          refine Or.inl ?_
          rw [found]
          simp [Option.filter, gone]

/-- A book that is full even without what has expired has nothing expired in it. -/
theorem dropExpired_full {book : AffinityBook} {now : Nat}
    (full : book.entries.keys.length ≤ (book.dropExpired now).2.entries.keys.length) :
    (∀ key entry, book.entries.lookup key = some entry → book.expired entry now = false) ∧
      (book.dropExpired now).2.entries = book.entries := by
  have live : ∀ key entry, book.entries.lookup key = some entry →
      book.expired entry now = false := by
    intro key entry found
    by_contra gone
    have dropped : (!book.expired entry now) = false := by simpa using gone
    have shorter : (book.dropExpired now).2.entries.keys.length < book.entries.keys.length :=
      AffinityEntries.length_retain_lt found dropped
    exact absurd full (Nat.not_le.mpr shorter)
  have same : AffinityEntries.retain book.entries (fun entry => !book.expired entry now) =
      book.entries := by
    apply AffinityEntries.retain_eq_self
    intro key entry found
    simp [live key entry found]
  exact ⟨live, same⟩

/-- The least recently used entry goes when nothing has expired. -/
theorem makesRoom_full {book cleared : AffinityBook} {now : Nat}
    (some' : 1 ≤ book.policy.maxEntries)
    (full : book.entries.keys.length = book.policy.maxEntries)
    (live : ∀ key entry, book.entries.lookup key = some entry → book.expired entry now = false)
    (policy : cleared.policy = book.policy) (same : cleared.entries = book.entries) :
    book.MakesRoom now (cleared.makeRoom cleared.entries.keys.length) := by
  have still : cleared.entries.keys.length = cleared.policy.maxEntries := by
    rw [same, policy, full]
  have any : 1 ≤ cleared.policy.maxEntries := by rwa [policy]
  rcases makeRoom_full any still with ⟨victim, oldest, left⟩
  rcases oldest_spec oldest with ⟨gone, present, least⟩
  rw [left]
  rw [same] at present least
  constructor
  · exact policy
  · change (cleared.entries.erase victim).keys.length < book.policy.maxEntries
    rw [same, length_erase present, full]
    exact Nat.sub_lt some' Nat.one_pos
  · intro other
    change book.Keeps now other ((cleared.entries.erase victim).lookup other)
    rw [same]
    by_cases chosen : other = victim
    · refine Or.inr ⟨by rw [chosen, AList.lookup_erase], ?_⟩
      intro entry own
      rw [chosen, present, Option.some.injEq] at own
      refine Or.inr ⟨full, ?_⟩
      intro any kept listed
      rw [← own]
      exact ⟨live any kept listed, least any kept listed⟩
    · exact Or.inl (AList.lookup_erase_ne chosen)

theorem makesRoom {book : AffinityBook} (some' : 1 ≤ book.policy.maxEntries)
    (bounded : book.entries.keys.length ≤ book.policy.maxEntries) (now : Nat) {cleared : AffinityBook}
    (clears : cleared = if book.policy.maxEntries ≤ book.entries.keys.length then
      (book.dropExpired now).2 else book) :
    book.MakesRoom now (cleared.makeRoom cleared.entries.keys.length) := by
  by_cases full : book.policy.maxEntries ≤ book.entries.keys.length
  · rw [if_pos full] at clears
    have policy : cleared.policy = book.policy := by rw [clears, dropExpired]
    by_cases room : cleared.entries.keys.length < cleared.policy.maxEntries
    · rw [makeRoom_roomy room]
      refine ⟨policy, policy ▸ room, ?_⟩
      rw [clears]
      exact dropExpired_keeps book now
    · have exact' : book.entries.keys.length = book.policy.maxEntries :=
        le_antisymm bounded full
      have unchanged : book.entries.keys.length ≤
          (book.dropExpired now).2.entries.keys.length := by
        rw [exact', ← policy, ← clears]
        exact Nat.not_lt.mp room
      rcases dropExpired_full unchanged with ⟨live, same⟩
      rw [← clears] at same
      exact makesRoom_full some' exact' live policy same
  · rw [if_neg full] at clears
    rw [clears, makeRoom_roomy (Nat.not_le.mp full)]
    exact ⟨rfl, Nat.not_le.mp full, fun _ => Or.inl rfl⟩

theorem insert_stores {book : AffinityBook} (some' : 1 ≤ book.policy.maxEntries)
    (bounded : book.entries.keys.length ≤ book.policy.maxEntries) (key : AffinityKey)
    (deployment : DeploymentId) (now : Nat) :
    book.Stores key deployment now (book.insert key deployment now) := by
  unfold insert
  cases found : book.entries.lookup key with
  | some entry =>
      refine ⟨rfl, ⟨_, AList.lookup_insert _⟩, ?_, ?_⟩
      · exact (AffinityEntries.length_insert_of_lookup found _).trans_le bounded
      · intro other different
        exact Or.inl (AList.lookup_insert_ne different)
  | none =>
      have makes := makesRoom some' bounded now rfl
      refine ⟨makes.policy, ⟨now, AList.lookup_insert _⟩, ?_, ?_⟩
      · exact (AffinityEntries.length_insert_le _ _ _).trans makes.room
      · intro other different
        have kept := makes.keeps other
        rw [← AList.lookup_insert_ne different] at kept
        exact kept

def new (policy : AffinityPolicy) (hash : List Char → Nat)
    (walk : List (Sigma fun _ : AffinityKey => AffinityEntry) →
      List (Sigma fun _ : AffinityKey => AffinityEntry))
    (walks : ∀ entries, (walk entries).Perm entries) : AffinityBook where
  policy
  hash
  walk
  walks
  entries := ∅
  expiredEvictions := 0
  capacityEvictions := 0

end AffinityBook

/-- One call on the book, at the instant the lock is taken. -/
inductive AffinityCall where
  | lookup (key : AffinityKey) (now : Nat)
  | establish (key : AffinityKey) (deployment : DeploymentId) (now : Nat)
  | reassign (key : AffinityKey) (deployment : DeploymentId) (now : Nat)
  | sweep (now : Nat)
deriving DecidableEq, Repr

namespace AffinityCall

def now : AffinityCall → Nat
  | .lookup _ now => now
  | .establish _ _ now => now
  | .reassign _ _ now => now
  | .sweep now => now

def perform (book : AffinityBook) : AffinityCall → AffinityBook
  | .lookup key now => (book.lookupAt key now).2
  | .establish key deployment now => (book.establishAt key deployment now).2
  | .reassign key deployment now => book.reassignAt key deployment now
  | .sweep now => (book.sweepAt now).2

end AffinityCall

/-- A call that was made, and the book it was made on. -/
structure AffinityRecord where
  before : AffinityBook
  call : AffinityCall

namespace AffinityRecord

def after (record : AffinityRecord) : AffinityBook :=
  record.call.perform record.before

/-- The call put the session `key` on `deployment`. -/
def Assigns (record : AffinityRecord) (key : AffinityKey) (deployment : DeploymentId) : Prop :=
  match record.call with
  | .establish own given now =>
      own = key ∧ given = deployment ∧ (record.before.establishAt own given now).1 = .new
  | .reassign own given _ => own = key ∧ given = deployment
  | _ => False

/-- The call is one the session lives on by: an answered lookup, or a success. -/
def Uses (record : AffinityRecord) (key : AffinityKey) : Prop :=
  match record.call with
  | .lookup own now => own = key ∧ (record.before.lookupAt own now).1.isSome = true
  | .establish own _ _ => own = key
  | .reassign own _ _ => own = key
  | .sweep _ => False

/-- The session was live when the call was made, and is gone after it. -/
def Evicts (record : AffinityRecord) (key : AffinityKey) : Prop :=
  (record.before.stickyAt key record.call.now).isSome = true ∧
    record.after.entries.lookup key = none

end AffinityRecord

/-- A book, the instant of the last call and every call so far. -/
structure AffinityRun where
  book : AffinityBook
  clock : Nat
  history : List AffinityRecord

/-- Instants do not go back. -/
def AffinityRun.step (s : AffinityRun) (call : AffinityCall) : Option AffinityRun :=
  if s.clock ≤ call.now then
    some ⟨call.perform s.book, call.now, s.history ++ [⟨s.book, call⟩]⟩
  else none

/-- `deployment` is the one `key` was last put on, not evicted since, and last used at `used`. -/
def LastPut (history : List AffinityRecord) (key : AffinityKey) (deployment : DeploymentId)
    (used : Nat) : Prop :=
  ∃ earlier given later, history = earlier ++ given :: later ∧ given.Assigns key deployment ∧
    (∀ record ∈ later, ∀ other, ¬ record.Assigns key other) ∧
    (∀ record ∈ later, ¬ record.Evicts key) ∧
    ∃ before use after, given :: later = before ++ use :: after ∧ use.Uses key ∧
      use.call.now = used ∧ ∀ record ∈ after, ¬ record.Uses key

theorem AffinityRecord.Assigns.uses {record : AffinityRecord} {key : AffinityKey}
    {deployment : DeploymentId} (assigns : record.Assigns key deployment) : record.Uses key := by
  rcases record with ⟨before, call⟩
  cases call with
  | lookup own now => cases assigns
  | establish own given now => exact assigns.1
  | reassign own given now => exact assigns.1
  | sweep now => cases assigns

theorem AffinityRecord.Assigns.unique {record : AffinityRecord} {key : AffinityKey}
    {deployment other : DeploymentId} (assigns : record.Assigns key deployment)
    (also : record.Assigns key other) : other = deployment := by
  rcases record with ⟨before, call⟩
  cases call with
  | lookup own now => cases assigns
  | establish own given now => exact also.2.1.symm.trans assigns.2.1
  | reassign own given now => exact also.2.symm.trans assigns.2
  | sweep now => cases assigns

/-! ### The history of a session, one more call at a time -/

section Histories

variable {history : List AffinityRecord} {record : AffinityRecord} {key : AffinityKey}
  {deployment : DeploymentId} {used : Nat}

/-- A session that was put somewhere has a last use from then on. -/
theorem exists_lastUse (given : AffinityRecord) (uses : given.Uses key)
    (later : List AffinityRecord) :
    ∃ before use after, given :: later = before ++ use :: after ∧ use.Uses key ∧
      ∀ record ∈ after, ¬ record.Uses key := by
  induction later using List.reverseRecOn with
  | nil => exact ⟨[], given, [], rfl, uses, by simp⟩
  | append_singleton later record ih =>
      by_cases also : record.Uses key
      · exact ⟨given :: later, record, [], rfl, also, by simp⟩
      · rcases ih with ⟨before, use, after, split, used', unused⟩
        refine ⟨before, use, after ++ [record], ?_, used', ?_⟩
        · rw [← List.cons_append, split, List.append_assoc, List.cons_append]
        · intro other member
          rcases List.mem_append.mp member with old | last
          · exact unused other old
          · rw [List.mem_singleton.mp last]
            exact also

/-- Where the last put of a longer history stands: it is the last call, or was there before. -/
theorem LastPut.concat_cases (last : LastPut (history ++ [record]) key deployment used) :
    (record.Assigns key deployment ∧ used = record.call.now) ∨
      (∀ other, ¬ record.Assigns key other) ∧ ¬ record.Evicts key ∧
        ((record.Uses key ∧ used = record.call.now ∧
            ∃ before, LastPut history key deployment before) ∨
          (¬ record.Uses key ∧ LastPut history key deployment used)) := by
  rcases last with ⟨earlier, given, later, split, assigns, unassigned, unevicted, before, use, after,
    uses, used', now, unused⟩
  rcases List.eq_nil_or_concat later with rfl | ⟨later, last, rfl⟩
  · have same := List.append_inj_right' split rfl
    cases same
    left
    refine ⟨assigns, ?_⟩
    rcases before with _ | ⟨head, before⟩
    · cases uses
      exact now.symm
    · simp at uses
  · rw [List.concat_eq_append] at *
    have whole : history ++ [record] = (earlier ++ given :: later) ++ [last] := by
      rw [split]
      simp
    have same := List.append_inj_right' whole rfl
    have front := List.append_inj_left' whole rfl
    cases same
    right
    refine ⟨unassigned record (by simp), unevicted record (by simp), ?_⟩
    have put : ∀ instant, (∃ before use after, given :: later = before ++ use :: after ∧
        use.Uses key ∧ use.call.now = instant ∧ ∀ record ∈ after, ¬ record.Uses key) →
        LastPut history key deployment instant := by
      intro instant lives
      exact ⟨earlier, given, later, front, assigns,
        fun other member => unassigned other (List.mem_append_left _ member),
        fun other member => unevicted other (List.mem_append_left _ member), lives⟩
    rcases List.eq_nil_or_concat after with rfl | ⟨after, final, rfl⟩
    · have ends : (given :: later) ++ [record] = before ++ [use] := uses
      have last := List.append_inj_right' ends rfl
      cases last
      left
      refine ⟨used', now.symm, ?_⟩
      rcases exists_lastUse given assigns.uses later with ⟨before, use, after, rest⟩
      exact ⟨use.call.now, put _ ⟨before, use, after, rest.1, rest.2.1, rfl, rest.2.2⟩⟩
    · rw [List.concat_eq_append] at *
      have ends : (given :: later) ++ [record] = (before ++ use :: after) ++ [final] := by
        rw [List.cons_append, uses]
        simp
      have last := List.append_inj_right' ends rfl
      have lives := List.append_inj_left' ends rfl
      cases last
      right
      refine ⟨unused record (by simp), put used ⟨before, use, after, lives, used', now, ?_⟩⟩
      intro other member
      exact unused other (List.mem_append_left _ member)

theorem LastPut.assigned (assigns : record.Assigns key deployment) :
    LastPut (history ++ [record]) key deployment record.call.now :=
  ⟨history, record, [], rfl, assigns, by simp, by simp, [], record, [], rfl, assigns.uses, rfl,
    by simp⟩

/-- A call that neither moves nor evicts the session. -/
theorem LastPut.concat (last : LastPut history key deployment used)
    (unassigned : ∀ other, ¬ record.Assigns key other) (unevicted : ¬ record.Evicts key) :
    (record.Uses key → LastPut (history ++ [record]) key deployment record.call.now) ∧
      (¬ record.Uses key → LastPut (history ++ [record]) key deployment used) := by
  rcases last with ⟨earlier, given, later, rfl, assigns, none', kept, before, use, after, uses, used',
    now, unused⟩
  have put : ∀ instant, (∃ before use after, given :: (later ++ [record]) = before ++ use :: after ∧
      use.Uses key ∧ use.call.now = instant ∧ ∀ record ∈ after, ¬ record.Uses key) →
      LastPut ((earlier ++ given :: later) ++ [record]) key deployment instant := by
    intro instant lives
    refine ⟨earlier, given, later ++ [record], by simp, assigns, ?_, ?_, lives⟩
    · intro other member
      rcases List.mem_append.mp member with old | last
      · exact none' other old
      · rw [List.mem_singleton.mp last]
        exact unassigned
    · intro other member
      rcases List.mem_append.mp member with old | last
      · exact kept other old
      · rw [List.mem_singleton.mp last]
        exact unevicted
  constructor
  · intro also
    exact put _ ⟨given :: later, record, [], rfl, also, rfl, by simp⟩
  · intro also
    refine put _ ⟨before, use, after ++ [record], ?_, used', now, ?_⟩
    · rw [← List.cons_append, uses, List.append_assoc, List.cons_append]
    · intro other member
      rcases List.mem_append.mp member with old | last
      · exact unused other old
      · rw [List.mem_singleton.mp last]
        exact also

end Histories

/-! ### What one call does to each session -/

/-- What a call does to the entry of one session. -/
inductive Fate (record : AffinityRecord) (key : AffinityKey) : Prop where
  | assigned (deployment : DeploymentId) (created : Nat) (assigns : record.Assigns key deployment)
      (stored : record.after.entries.lookup key = some ⟨deployment, created, record.call.now⟩)
  | evicted (unassigned : ∀ other, ¬ record.Assigns key other) (evicts : record.Evicts key)
  | used (entry : AffinityEntry) (unassigned : ∀ other, ¬ record.Assigns key other)
      (uses : record.Uses key) (found : record.before.entries.lookup key = some entry)
      (stored : record.after.entries.lookup key =
        some { entry with lastUsed := record.call.now })
  | left (unassigned : ∀ other, ¬ record.Assigns key other) (unused : ¬ record.Uses key)
      (unevicted : ¬ record.Evicts key)
      (kept : record.after.entries.lookup key = record.before.entries.lookup key ∨
        record.after.entries.lookup key = none ∧
          ∀ entry, record.before.entries.lookup key = some entry →
            record.before.expired entry record.call.now = true)

namespace AffinityBook

variable {book : AffinityBook} {key : AffinityKey} {now : Nat}

theorem stickyAt_of_live {entry : AffinityEntry} (found : book.entries.lookup key = some entry)
    (live : book.expired entry now = false) : book.stickyAt key now = some entry.deployment := by
  simp [stickyAt, found, Option.filter, live]

theorem stickyAt_eq_some {deployment : DeploymentId} :
    book.stickyAt key now = some deployment ↔
      ∃ entry, book.entries.lookup key = some entry ∧ book.expired entry now = false ∧
        entry.deployment = deployment := by
  simp [stickyAt, Option.filter_eq_some_iff, and_assoc]

end AffinityBook

/-- A session the call is not about either keeps its entry or loses it. -/
theorem fate_of_kept {record : AffinityRecord} {key : AffinityKey}
    (unassigned : ∀ other, ¬ record.Assigns key other) (unused : ¬ record.Uses key)
    (kept : record.after.entries.lookup key = record.before.entries.lookup key ∨
      record.after.entries.lookup key = none) : Fate record key := by
  by_cases evicts : record.Evicts key
  · exact .evicted unassigned evicts
  · refine .left unassigned unused evicts ?_
    rcases kept with same | gone
    · exact Or.inl same
    · refine Or.inr ⟨gone, ?_⟩
      intro entry found
      by_contra live
      rw [Bool.not_eq_true] at live
      exact evicts ⟨by rw [AffinityBook.stickyAt_of_live found live]; rfl, gone⟩

theorem AffinityBook.Keeps.kept {book : AffinityBook} {now : Nat} {other : AffinityKey}
    {after : Option AffinityEntry} (keeps : book.Keeps now other after) :
    after = book.entries.lookup other ∨ after = none := by
  rcases keeps with same | gone
  · exact Or.inl same
  · exact Or.inr gone.1

/-- The first writer wins: an establish on a live session only uses it. -/
theorem establishAt_cases (book : AffinityBook) (key : AffinityKey) (deployment : DeploymentId)
    (now : Nat) :
    (∃ entry, book.entries.lookup key = some entry ∧ book.expired entry now = false ∧
      book.establishAt key deployment now =
        (if entry.deployment = deployment then .unchanged else .keptExisting entry.deployment,
          { book with entries := book.entries.insert key { entry with lastUsed := now } })) ∨
      book.stickyAt key now = none ∧
        book.establishAt key deployment now = (.new, book.insert key deployment now) := by
  unfold AffinityBook.establishAt AffinityBook.stickyAt
  cases live : (book.entries.lookup key).filter fun entry => !book.expired entry now with
  | none => exact Or.inr ⟨rfl, rfl⟩
  | some entry =>
      rw [Option.filter_eq_some_iff] at live
      exact Or.inl ⟨entry, live.1, by simpa using live.2, rfl⟩

theorem lookup_fate (book : AffinityBook) (own : AffinityKey) (now : Nat) (key : AffinityKey) :
    Fate ⟨book, .lookup own now⟩ key := by
  have unassigned : ∀ other, ¬ AffinityRecord.Assigns ⟨book, .lookup own now⟩ key other := by
    intro other assigns
    exact assigns
  by_cases same : key = own
  · subst same
    cases found : book.entries.lookup key with
    | none =>
        apply fate_of_kept unassigned
        · rintro ⟨_, answered⟩
          simp [AffinityBook.lookupAt, found] at answered
        · left
          simp [AffinityRecord.after, AffinityCall.perform, AffinityBook.lookupAt, found]
    | some entry =>
        cases gone : book.expired entry now with
        | true =>
            apply fate_of_kept unassigned
            · rintro ⟨_, answered⟩
              simp [AffinityBook.lookupAt, found, gone] at answered
            · right
              simp [AffinityRecord.after, AffinityCall.perform, AffinityBook.lookupAt, found, gone]
        | false =>
            refine .used entry unassigned ⟨rfl, ?_⟩ found ?_
            · simp [AffinityBook.lookupAt, found, gone]
            · simp [AffinityRecord.after, AffinityCall.perform, AffinityBook.lookupAt, found, gone,
                AffinityCall.now]
  · apply fate_of_kept unassigned
    · rintro ⟨own, _⟩
      exact same own.symm
    · left
      change AList.lookup key (book.lookupAt own now).2.entries = book.entries.lookup key
      unfold AffinityBook.lookupAt
      cases book.entries.lookup own with
      | none => rfl
      | some entry =>
          dsimp only
          split
          · exact AList.lookup_erase_ne same
          · exact AList.lookup_insert_ne same

theorem sweep_fate (book : AffinityBook) (now : Nat) (key : AffinityKey) :
    Fate ⟨book, .sweep now⟩ key := by
  apply fate_of_kept
  · intro other assigns
    exact assigns
  · intro uses
    exact uses
  · exact (book.dropExpired_keeps now key).kept

/-- A call that stores a session, as `reassign` does and `establish` if nothing is live. -/
theorem stores_fate {record : AffinityRecord} {own key : AffinityKey} {deployment : DeploymentId}
    (stores : record.before.Stores own deployment record.call.now record.after)
    (assigns : record.Assigns own deployment)
    (others : key ≠ own → (∀ other, ¬ record.Assigns key other) ∧ ¬ record.Uses key) :
    Fate record key := by
  by_cases same : key = own
  · subst same
    rcases stores.stored with ⟨created, stored⟩
    exact .assigned deployment created assigns stored
  · exact fate_of_kept (others same).1 (others same).2 (stores.others key same).kept

theorem fate {book : AffinityBook} (some' : 1 ≤ book.policy.maxEntries)
    (bounded : book.entries.keys.length ≤ book.policy.maxEntries) (call : AffinityCall)
    (key : AffinityKey) : Fate ⟨book, call⟩ key := by
  cases call with
  | lookup own now => exact lookup_fate book own now key
  | sweep now => exact sweep_fate book now key
  | reassign own deployment now =>
      have assigns : AffinityRecord.Assigns ⟨book, .reassign own deployment now⟩ own deployment :=
        ⟨rfl, rfl⟩
      apply stores_fate (AffinityBook.insert_stores some' bounded own deployment now) assigns
      intro different
      exact ⟨fun other assigns => different assigns.1.symm, fun uses => different uses.symm⟩
  | establish own deployment now =>
      rcases establishAt_cases book own deployment now with ⟨entry, found, live, kept⟩ | ⟨_, new⟩
      · have unassigned : ∀ other,
            ¬ AffinityRecord.Assigns ⟨book, .establish own deployment now⟩ key other := by
          rintro other ⟨_, _, fresh⟩
          rw [kept] at fresh
          dsimp only at fresh
          split at fresh <;> cases fresh
        by_cases same : key = own
        · subst same
          refine .used entry unassigned rfl found ?_
          simp [AffinityRecord.after, AffinityCall.perform, kept, AffinityCall.now]
        · apply fate_of_kept unassigned
          · intro uses
            exact same uses.symm
          · left
            simp only [AffinityRecord.after, AffinityCall.perform, kept]
            exact AList.lookup_insert_ne same
      · have stores := AffinityBook.insert_stores some' bounded own deployment now
        have after : AffinityRecord.after ⟨book, .establish own deployment now⟩ =
            book.insert own deployment now := by
          simp only [AffinityRecord.after, AffinityCall.perform, new]
        have assigns : AffinityRecord.Assigns ⟨book, .establish own deployment now⟩ own
            deployment := ⟨rfl, rfl, by rw [new]⟩
        rw [← after] at stores
        apply stores_fate stores assigns
        intro different
        exact ⟨fun other assigns => different assigns.1.symm, fun uses => different uses.symm⟩

/-! ### Runs -/

/-- A book that is no fuller than it may be. -/
structure Fits (policy : AffinityPolicy) (book : AffinityBook) : Prop where
  same : book.policy = policy
  bounded : book.entries.keys.length ≤ policy.maxEntries

theorem Fits.stores {policy : AffinityPolicy} {book after : AffinityBook} {key : AffinityKey}
    {deployment : DeploymentId} {now : Nat} (fits : Fits policy book)
    (stores : book.Stores key deployment now after) : Fits policy after := by
  refine ⟨stores.policy.trans fits.same, ?_⟩
  rw [← fits.same]
  exact stores.bounded

theorem Fits.again {policy : AffinityPolicy} {book : AffinityBook} {key : AffinityKey}
    {entry : AffinityEntry} (fits : Fits policy book)
    (found : book.entries.lookup key = some entry) (other : AffinityEntry) :
    Fits policy { book with entries := book.entries.insert key other } :=
  ⟨fits.same, (AffinityEntries.length_insert_of_lookup found other).trans_le fits.bounded⟩

theorem Fits.insert {policy : AffinityPolicy} {book : AffinityBook} (some' : 1 ≤ policy.maxEntries)
    (fits : Fits policy book) (key : AffinityKey) (deployment : DeploymentId) (now : Nat) :
    Fits policy (book.insert key deployment now) := by
  apply fits.stores
  apply AffinityBook.insert_stores
  · rwa [fits.same]
  · rw [fits.same]
    exact fits.bounded

theorem Fits.perform {policy : AffinityPolicy} {book : AffinityBook}
    (some' : 1 ≤ policy.maxEntries) (fits : Fits policy book) (call : AffinityCall) :
    Fits policy (call.perform book) := by
  cases call with
  | lookup key now =>
      change Fits policy (book.lookupAt key now).2
      unfold AffinityBook.lookupAt
      cases found : book.entries.lookup key with
      | none => exact fits
      | some entry =>
          dsimp only
          split
          · refine ⟨fits.same, ?_⟩
            change (book.entries.erase key).keys.length ≤ policy.maxEntries
            rw [AffinityBook.length_erase found]
            exact (Nat.sub_le _ _).trans fits.bounded
          · exact fits.again found _
  | sweep now =>
      exact ⟨fits.same, (AffinityEntries.length_retain _ _).trans fits.bounded⟩
  | reassign key deployment now => exact fits.insert some' key deployment now
  | establish key deployment now =>
      change Fits policy (book.establishAt key deployment now).2
      rcases establishAt_cases book key deployment now with ⟨entry, found, _, kept⟩ | ⟨_, new⟩
      · rw [kept]
        exact fits.again found _
      · rw [new]
        exact fits.insert some' key deployment now

/-- What the book holds of a session is where it was last put and when it was last used. What it
no longer holds has expired. -/
structure Tracks (s : AffinityRun) (key : AffinityKey) : Prop where
  held : ∀ entry, s.book.entries.lookup key = some entry →
    LastPut s.history key entry.deployment entry.lastUsed
  put : ∀ deployment used, LastPut s.history key deployment used →
    (∃ created, s.book.entries.lookup key = some ⟨deployment, created, used⟩) ∨
      s.book.entries.lookup key = none ∧ s.book.policy.idleTtl < s.clock - used

theorem perform_policy {policy : AffinityPolicy} {book : AffinityBook}
    (some' : 1 ≤ policy.maxEntries) (fits : Fits policy book) (call : AffinityCall) :
    (call.perform book).policy = book.policy :=
  ((fits.perform some' call).same).trans fits.same.symm

theorem Tracks.step {s : AffinityRun} {key : AffinityKey} {call : AffinityCall}
    (tracks : Tracks s key) (later : s.clock ≤ call.now)
    (same : (call.perform s.book).policy = s.book.policy) (fate : Fate ⟨s.book, call⟩ key) :
    Tracks ⟨call.perform s.book, call.now, s.history ++ [⟨s.book, call⟩]⟩ key := by
  cases fate with
  | assigned deployment created assigns stored =>
      constructor
      · intro entry found
        rw [← Option.some.inj (stored.symm.trans found)]
        exact .assigned assigns
      · intro other used last
        rcases last.concat_cases with ⟨also, now⟩ | ⟨unassigned, _⟩
        · left
          refine ⟨created, ?_⟩
          rw [assigns.unique also, now]
          exact stored
        · exact absurd assigns (unassigned deployment)
  | evicted unassigned evicts =>
      constructor
      · intro entry found
        cases evicts.2.symm.trans found
      · intro other used last
        rcases last.concat_cases with ⟨also, _⟩ | ⟨_, unevicted, _⟩
        · exact absurd also (unassigned other)
        · exact absurd evicts unevicted
  | used entry unassigned uses found stored =>
      have unevicted : ¬ AffinityRecord.Evicts ⟨s.book, call⟩ key := by
        rintro ⟨_, gone⟩
        cases gone.symm.trans stored
      constructor
      · intro kept present
        rw [← Option.some.inj (stored.symm.trans present)]
        exact ((tracks.held entry found).concat unassigned unevicted).1 uses
      · intro deployment used last
        rcases last.concat_cases with ⟨also, _⟩ | ⟨_, _, ⟨_, now, before, earlier⟩ | ⟨unused, _⟩⟩
        · exact absurd also (unassigned deployment)
        · left
          rcases tracks.put deployment before earlier with ⟨created, present⟩ | ⟨none', _⟩
          · rw [found, Option.some.injEq] at present
            refine ⟨created, ?_⟩
            rw [now, ← show entry.created = created by rw [present],
              ← show entry.deployment = deployment by rw [present]]
            exact stored
          · cases found.symm.trans none'
        · exact absurd uses unused
  | left unassigned unused unevicted kept =>
      constructor
      · intro entry present
        rcases kept with same | ⟨gone, _⟩
        · exact ((tracks.held entry (same.symm.trans present)).concat unassigned unevicted).2 unused
        · cases gone.symm.trans present
      · intro deployment used last
        rcases last.concat_cases with ⟨also, _⟩ | ⟨_, _, ⟨uses, _⟩ | ⟨_, earlier⟩⟩
        · exact absurd also (unassigned deployment)
        · exact absurd uses unused
        · rcases tracks.put deployment used earlier with ⟨created, present⟩ | ⟨none', past⟩
          · rcases kept with same | ⟨gone, expired⟩
            · exact Or.inl ⟨created, same.trans present⟩
            · refine Or.inr ⟨gone, ?_⟩
              have long := expired _ present
              simp only [AffinityBook.expired, decide_eq_true_eq] at long
              change (call.perform s.book).policy.idleTtl < call.now - used
              rw [same]
              exact long
          · refine Or.inr ⟨?_, ?_⟩
            · rcases kept with same | ⟨gone, _⟩
              · exact same.trans none'
              · exact gone
            · change (call.perform s.book).policy.idleTtl < call.now - used
              rw [same]
              exact lt_of_lt_of_le past (Nat.sub_le_sub_right later used)

/-- What a reached book keeps to. -/
structure Remembers (s : AffinityRun) : Prop where
  once : s.book.entries.keys.Nodup
  bounded : s.book.entries.keys.length ≤ s.book.policy.maxEntries
  evicted : ∀ call t, s.step call = some t → ∀ key entry,
    s.book.entries.lookup key = some entry → s.book.expired entry call.now = false →
    t.book.entries.lookup key = none →
      s.book.entries.keys.length = s.book.policy.maxEntries ∧
      ∀ other kept, s.book.entries.lookup other = some kept →
        s.book.expired kept call.now = false ∧ entry.lastUsed ≤ kept.lastUsed
  sticky : ∀ key now deployment, s.clock ≤ now →
    ((s.book.lookupAt key now).1 = some deployment ↔
      ∃ used, LastPut s.history key deployment used ∧ now - used ≤ s.book.policy.idleTtl)
  firstWins : ∀ key now deployment, s.book.stickyAt key now = some deployment → ∀ other,
    (s.book.establishAt key other now).1 =
        (if deployment = other then .unchanged else .keptExisting deployment) ∧
      (s.book.establishAt key other now).2.stickyAt key now = some deployment

/-- Only a call that stores a session takes a live one out of the book. -/
theorem evicted_for_room {policy : AffinityPolicy} {book : AffinityBook}
    (some' : 1 ≤ policy.maxEntries) (fits : Fits policy book) (call : AffinityCall)
    {key : AffinityKey} {entry : AffinityEntry} (found : book.entries.lookup key = some entry)
    (live : book.expired entry call.now = false)
    (gone : (call.perform book).entries.lookup key = none) :
    book.entries.keys.length = book.policy.maxEntries ∧
      ∀ other kept, book.entries.lookup other = some kept →
        book.expired kept call.now = false ∧ entry.lastUsed ≤ kept.lastUsed := by
  have full : ∀ own deployment, book.Stores own deployment call.now (call.perform book) →
      book.entries.keys.length = book.policy.maxEntries ∧
        ∀ other kept, book.entries.lookup other = some kept →
          book.expired kept call.now = false ∧ entry.lastUsed ≤ kept.lastUsed := by
    intro own deployment stores
    by_cases same : key = own
    · rcases stores.stored with ⟨created, stored⟩
      rw [same] at gone
      cases gone.symm.trans stored
    · rcases stores.others key same with kept | ⟨_, why⟩
      · cases found.symm.trans (kept.symm.trans gone)
      · rcases why entry found with expired | room
        · cases live.symm.trans expired
        · exact room
  have room : 1 ≤ book.policy.maxEntries := by rwa [fits.same]
  have bounded : book.entries.keys.length ≤ book.policy.maxEntries := by
    rw [fits.same]
    exact fits.bounded
  cases call with
  | lookup own now =>
      change book.expired entry now = false at live
      have kept := book.lookupAt_stickyAt own key now
      rw [AffinityBook.stickyAt_of_live found live] at kept
      rcases AffinityBook.stickyAt_eq_some.mp kept with ⟨_, present, _⟩
      cases gone.symm.trans present
  | sweep now =>
      change book.expired entry now = false at live
      have kept := book.dropExpired_lookup now key
      rw [found, Option.filter_some, live] at kept
      cases gone.symm.trans kept
  | reassign own deployment now =>
      exact full own deployment (AffinityBook.insert_stores room bounded own deployment now)
  | establish own deployment now =>
      rcases establishAt_cases book own deployment now with ⟨held, present, _, kept⟩ | ⟨_, new⟩
      · simp only [AffinityCall.perform, kept, AList.lookup_insert_eq_none] at gone
        cases found.symm.trans gone.2
      · apply full own deployment
        simp only [AffinityCall.perform, new]
        exact AffinityBook.insert_stores room bounded own deployment now

/-- A lookup answers with what the history says was last put, if it was used recently enough. -/
theorem Tracks.sticky {s : AffinityRun} {key : AffinityKey} (tracks : Tracks s key) {now : Nat}
    (later : s.clock ≤ now) (deployment : DeploymentId) :
    (s.book.lookupAt key now).1 = some deployment ↔
      ∃ used, LastPut s.history key deployment used ∧ now - used ≤ s.book.policy.idleTtl := by
  rw [AffinityBook.lookupAt_fst, AffinityBook.stickyAt_eq_some]
  constructor
  · rintro ⟨entry, found, live, rfl⟩
    refine ⟨entry.lastUsed, tracks.held entry found, ?_⟩
    simpa [AffinityBook.expired] using live
  · rintro ⟨used, last, recent⟩
    rcases tracks.put deployment used last with ⟨created, found⟩ | ⟨_, past⟩
    · refine ⟨_, found, ?_, rfl⟩
      simpa [AffinityBook.expired] using recent
    · have longer := Nat.sub_le_sub_right later used
      exact absurd (lt_of_lt_of_le past longer) (Nat.not_lt.mpr recent)

theorem establishAt_live {book : AffinityBook} {key : AffinityKey} {now : Nat}
    {deployment : DeploymentId} (live : book.stickyAt key now = some deployment)
    (other : DeploymentId) :
    (book.establishAt key other now).1 =
        (if deployment = other then .unchanged else .keptExisting deployment) ∧
      (book.establishAt key other now).2.stickyAt key now = some deployment := by
  rcases AffinityBook.stickyAt_eq_some.mp live with ⟨held, present, _, rfl⟩
  rcases establishAt_cases book key other now with ⟨entry, found, _, kept⟩ | ⟨none', _⟩
  · rw [found, Option.some.injEq] at present
    rw [kept, ← present]
    refine ⟨rfl, AffinityBook.stickyAt_eq_some.mpr ⟨_, AList.lookup_insert _, ?_, rfl⟩⟩
    simp [AffinityBook.expired]
  · cases live.symm.trans none'

theorem affinity_remembers {policy : AffinityPolicy} (some' : 1 ≤ policy.maxEntries)
    (hash : List Char → Nat)
    (walk : List (Sigma fun _ : AffinityKey => AffinityEntry) →
      List (Sigma fun _ : AffinityKey => AffinityEntry))
    (walks : ∀ entries, (walk entries).Perm entries) (clock : Nat) {s : AffinityRun}
    (reached : Reaches AffinityRun.step Always ⟨.new policy hash walk walks, clock, []⟩ s) :
    Remembers s := by
  have kept : Fits policy s.book ∧ ∀ key, Tracks s key := by
    apply reached.invariant (fun s => Fits policy s.book ∧ ∀ key, Tracks s key)
    · refine ⟨⟨rfl, Nat.zero_le _⟩, ?_⟩
      intro key
      constructor
      · intro entry found
        cases found
      · rintro deployment used ⟨earlier, given, later, split, _⟩
        simp at split
    · intro before call after _ held stepped
      rw [AffinityRun.step] at stepped
      split at stepped
      · rename_i later
        cases stepped
        refine ⟨held.1.perform some' call, ?_⟩
        intro key
        apply (held.2 key).step later (perform_policy some' held.1 call)
        apply fate
        · rwa [held.1.same]
        · rw [held.1.same]
          exact held.1.bounded
      · cases stepped
  constructor
  · exact s.book.entries.keys_nodup
  · rw [kept.1.same]
    exact kept.1.bounded
  · intro call after stepped key entry found live gone
    rw [AffinityRun.step] at stepped
    split at stepped
    · cases stepped
      exact evicted_for_room some' kept.1 call found live gone
    · cases stepped
  · intro key now deployment later
    exact (kept.2 key).sticky later deployment
  · intro key now deployment live other
    exact establishAt_live live other

section Sample

/-- Room for one session, which lives for ten. -/
def tightPolicy : AffinityPolicy := ⟨true, [], 10, 1⟩

def firstSession : AffinityKey := ⟨['C'], 1⟩

def secondSession : AffinityKey := ⟨['C'], 2⟩

/-- The second session takes the place of the first, which was live. -/
def crowdedCalls : List AffinityCall :=
  [.establish firstSession ['a'] 1, .lookup firstSession 2, .establish secondSession ['b'] 3]

theorem affinity_remembers_crowded :
    ∃ s, run AffinityRun.step ⟨.new tightPolicy (fun _ => 0) id (fun _ => List.Perm.refl _), 0, []⟩
        crowdedCalls = some s ∧
      s.book.entries.keys = [secondSession] ∧ Remembers s := by
  have ran : run AffinityRun.step
      ⟨.new tightPolicy (fun _ => 0) id (fun _ => List.Perm.refl _), 0, []⟩ crowdedCalls =
        some _ := rfl
  exact ⟨_, ran, by decide, affinity_remembers (by decide) (fun _ => 0) id
    (fun _ => List.Perm.refl _) 0 (run_reaches ran)⟩

end Sample

end Lightweight.Router
