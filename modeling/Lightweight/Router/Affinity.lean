import Mathlib.Data.List.AList
import Lightweight.MinByKey
import Lightweight.Router.Domain

/-! Session affinity (`lightweight-router/src/affinity.rs`): the deployment a session last succeeded
on, kept for a while and for so many sessions. -/

namespace Lightweight.Router

open Lightweight.Core

structure AffinityKey where
  route : RouteName
  session : Nat
deriving DecidableEq, Repr

structure AffinityEntry where
  deployment : DeploymentId
  created : Nat
  lastUsed : Nat
deriving DecidableEq, Repr

structure AffinityPolicy where
  enabled : Bool
  header : List Char
  idleTtl : Nat
  maxEntries : Nat
deriving DecidableEq, Repr

inductive Established where
  | new
  | unchanged
  | keptExisting (deployment : DeploymentId)
deriving DecidableEq, Repr

def maxSessionId : Nat := 256

/-- A session id the router will read: visible ASCII, not empty, not unreasonably long. -/
def usable (id : List Char) : Bool :=
  !id.isEmpty && id.length ≤ maxSessionId && id.all fun c => 0x21 ≤ c.toNat && c.toNat ≤ 0x7E

/-- A hash map of affinities. -/
abbrev AffinityEntries := AList fun _ : AffinityKey => AffinityEntry

def AffinityEntries.retain (entries : AffinityEntries) (keep : AffinityEntry → Bool) :
    AffinityEntries where
  entries := entries.entries.filter fun entry => keep entry.2
  nodupKeys := entries.nodupKeys.sublist List.filter_sublist

/-- `hash` is drawn at startup; `walk` is the order in which the map of these entries is walked,
which nothing promises. -/
structure AffinityBook where
  policy : AffinityPolicy
  hash : List Char → Nat
  walk : List (Sigma fun _ : AffinityKey => AffinityEntry) →
    List (Sigma fun _ : AffinityKey => AffinityEntry)
  walks : ∀ entries, (walk entries).Perm entries
  entries : AffinityEntries
  expiredEvictions : Nat
  capacityEvictions : Nat

namespace AffinityBook

def key (book : AffinityBook) (route : RouteName) (session : List Char) : AffinityKey :=
  ⟨route, book.hash session⟩

/-- The affinity a request belongs to; `header` is the value of the policy's header, if it is there
and is text. -/
def session (book : AffinityBook) (route : RouteName) (header : Option (List Char)) :
    Option AffinityKey :=
  if !book.policy.enabled then none
  else ((header.map trim).filter usable).map (book.key route)

def expired (book : AffinityBook) (entry : AffinityEntry) (now : Nat) : Bool :=
  book.policy.idleTtl < now - entry.lastUsed

/-- The deployment this session last succeeded on. An expired entry is removed here. -/
def lookupAt (book : AffinityBook) (key : AffinityKey) (now : Nat) :
    Option DeploymentId × AffinityBook :=
  match book.entries.lookup key with
  | none => (none, book)
  | some entry =>
      if book.expired entry now then
        (none, { book with
          entries := book.entries.erase key
          expiredEvictions := book.expiredEvictions + 1 })
      else
        (some entry.deployment,
          { book with entries := book.entries.insert key { entry with lastUsed := now } })

/-- The key of the least recently used entry. -/
def oldest (book : AffinityBook) : Option AffinityKey :=
  (minByKey (fun entry => entry.2.lastUsed) (book.walk book.entries.entries)).map
    fun (_, entry, _) => entry.1

/-- Remove the least recently used entries until there is room, within `tries`. -/
def makeRoom (book : AffinityBook) : Nat → AffinityBook
  | 0 => book
  | tries + 1 =>
      if book.policy.maxEntries ≤ book.entries.keys.length then
        match book.oldest with
        | none => book
        | some key =>
            makeRoom { book with
              entries := book.entries.erase key
              capacityEvictions := book.capacityEvictions + 1 } tries
      else book

/-- Drop what has expired, and say how many went. -/
def dropExpired (book : AffinityBook) (now : Nat) : Nat × AffinityBook :=
  let kept := AffinityEntries.retain book.entries fun entry => !book.expired entry now
  let removed := book.entries.keys.length - kept.keys.length
  (removed, { book with
    entries := kept
    expiredEvictions := book.expiredEvictions + removed })

def insert (book : AffinityBook) (key : AffinityKey) (deployment : DeploymentId) (now : Nat) :
    AffinityBook :=
  match book.entries.lookup key with
  | some entry =>
      let created :=
        if entry.deployment = deployment && !book.expired entry now then entry.created else now
      { book with entries := book.entries.insert key ⟨deployment, created, now⟩ }
  | none =>
      let cleared :=
        if book.policy.maxEntries ≤ book.entries.keys.length then (book.dropExpired now).2
        else book
      let roomy := cleared.makeRoom cleared.entries.keys.length
      { roomy with entries := roomy.entries.insert key ⟨deployment, now, now⟩ }

/-- Record the first successful deployment of a session that had no affinity when its request was
planned. A concurrent request that committed first keeps its choice. -/
def establishAt (book : AffinityBook) (key : AffinityKey) (deployment : DeploymentId) (now : Nat) :
    Established × AffinityBook :=
  match (book.entries.lookup key).filter fun entry => !book.expired entry now with
  | some entry =>
      (if entry.deployment = deployment then .unchanged else .keptExisting entry.deployment,
        { book with entries := book.entries.insert key { entry with lastUsed := now } })
  | none => (.new, book.insert key deployment now)

/-- Move a session to the deployment that just served it. -/
def reassignAt (book : AffinityBook) (key : AffinityKey) (deployment : DeploymentId) (now : Nat) :
    AffinityBook :=
  book.insert key deployment now

def sweepAt (book : AffinityBook) (now : Nat) : Nat × AffinityBook :=
  book.dropExpired now

/-- The deployment a session is kept on at `now`. -/
def stickyAt (book : AffinityBook) (key : AffinityKey) (now : Nat) : Option DeploymentId :=
  ((book.entries.lookup key).filter fun entry => !book.expired entry now).map
    AffinityEntry.deployment

theorem lookupAt_fst (book : AffinityBook) (key : AffinityKey) (now : Nat) :
    (book.lookupAt key now).1 = book.stickyAt key now := by
  unfold lookupAt stickyAt
  cases book.entries.lookup key with
  | none => rfl
  | some entry =>
      cases gone : book.expired entry now with
      | true => simp [gone, Option.filter]
      | false => simp [gone, Option.filter]

/-- A lookup moves no session: it drops an entry that had expired, or uses a live one again. -/
theorem lookupAt_stickyAt (book : AffinityBook) (key other : AffinityKey) (now : Nat) :
    (book.lookupAt key now).2.stickyAt other now = book.stickyAt other now := by
  unfold lookupAt
  cases found : book.entries.lookup key with
  | none => rfl
  | some entry =>
      dsimp only
      cases gone : book.expired entry now with
      | true =>
          rw [if_pos rfl]
          unfold stickyAt
          by_cases same : other = key
          · rw [same, AList.lookup_erase, found]
            simp [gone, Option.filter]
          · rw [AList.lookup_erase_ne same]
            rfl
      | false =>
          rw [if_neg Bool.false_ne_true]
          unfold stickyAt
          by_cases same : other = key
          · rw [same, AList.lookup_insert, found]
            simp only [Option.filter, gone]
            simp [expired]
          · rw [AList.lookup_insert_ne same]
            rfl

end AffinityBook

end Lightweight.Router
