import Lightweight.Gateway.Scheduler
import Lightweight.Store.ApiKeys
import Lightweight.Transition

/-! The saved bind configuration beside the stored keys. A start reads both files, and refuses an
address that other machines reach where it has no key. -/

namespace Lightweight.Gateway

open Lightweight.Store Transition

def IpAddr.isLoopback : IpAddr → Bool
  | .v4 address => address.extractLsb' 24 8 == 127
  | .v6 address => address == 1

def IpAddr.localhost : IpAddr := .v4 0x7f000001

/-- The authentication policy of a running gateway. -/
inductive AuthPolicy where
  | disabled
  | required (staticKey : Option String) (named : List ApiKeyRecord)
  deriving DecidableEq, Repr

/-- A bind that other machines reach, with no key. -/
structure NeedsKey where
  deriving DecidableEq, Repr

def AuthPolicy.build (addresses : List IpAddr) (staticKey : Option String)
    (named : List ApiKeyRecord) : Except NeedsKey AuthPolicy :=
  let exposed := addresses.any fun address => !address.isLoopback
  let staticKey := staticKey.filter fun key => !key.isEmpty
  let hasCredential := staticKey.isSome || !named.isEmpty
  match hasCredential, exposed with
  | true, _ => .ok (.required staticKey named)
  | false, true => .error ⟨⟩
  | false, false => .ok .disabled

def AuthPolicy.isEnabled : AuthPolicy → Bool
  | .required _ _ => true
  | .disabled => false

def AuthPolicy.reloaded (policy : AuthPolicy) (named : List ApiKeyRecord) : AuthPolicy :=
  match policy with
  | .required staticKey _ => .required staticKey named
  | .disabled => .disabled

structure ApiConfig where
  hosts : List String
  port : Option UInt16
  deriving DecidableEq, Repr

/-- What a host resolves to, or why it does not; a port plays no part in it. -/
abbrev Resolver := String → Except String (List IpAddr)

section Files

variable (lookup : Resolver)

def resolveHosts : List String → Except (String × String) (List IpAddr)
  | [] => .ok []
  | host :: hosts =>
      match lookup host with
      | .error err => .error ("hosts", s!"'{host}' could not be resolved: {err}")
      | .ok addresses => (resolveHosts hosts).map (addresses ++ ·)

/-- What is saved, or the field that is wrong and what is wrong with it. -/
def validateAndSave (config : ApiConfig) (hasCredential : Bool) :
    Except (String × String) ApiConfig :=
  -- no hosts are no opinion, and the gateway falls back to loopback
  if config.hosts = [] then .ok config
  else do
    let resolved ← resolveHosts lookup config.hosts
    if resolved = [] then .error ("hosts", "none of the hosts resolved to an address")
    else if !resolved.any IpAddr.isLoopback then
      .error ("hosts", "at least one host must be loopback (127.0.0.1 or localhost), so this " ++
        "machine can always reach the gateway")
    else if (resolved.any fun ip => !ip.isLoopback) && !hasCredential then
      .error ("hosts", "binding to an address other machines can reach needs an API key; " ++
        "create one first with " ++ "`hermes key create`")
    else .ok config

/-- The addresses that a start with a saved configuration binds. -/
def bindAddresses (hosts : List String) : Except (String × String) (List IpAddr) :=
  if hosts = [] then .ok [.localhost] else resolveHosts lookup hosts

/-- Whether a gateway that is given no key of its own starts on the two files. -/
def canStart (config : ApiConfig) (keys : List ApiKeyRecord) : Bool :=
  match bindAddresses lookup config.hosts with
  | .ok addresses => (AuthPolicy.build addresses none keys).isOk
  | .error _ => false

/-- Whether other machines reach what a start with these hosts binds. -/
def exposes (hosts : List String) : Bool :=
  match bindAddresses lookup hosts with
  | .ok addresses => addresses.any fun address => !address.isLoopback
  | .error _ => false

end Files

/-- The two files, and the gateway that runs: its live policy, and whether it manages keys. -/
structure BindWorld where
  keys : List ApiKeyRecord
  config : ApiConfig
  policy : AuthPolicy
  managesKeys : Bool
  deriving DecidableEq

/-- The live policy with the named keys that are stored, where the file could be listed. -/
def BindWorld.refreshKeys (world : BindWorld) (listed : Bool) : BindWorld :=
  if world.managesKeys && listed then
    { world with policy := world.policy.reloaded world.keys }
  else world

/-- Whether there is a credential, as a save finds it; `counted` is whether it could read the
keys. -/
def BindWorld.hasCredential (world : BindWorld) (counted : Bool) : Bool :=
  world.policy.isEnabled || (counted && !world.keys.isEmpty)

/-- A request that the gateway accepts. -/
inductive BindAction where
  | changeKeys (op : KeyOp) (listed : Bool)
  | save (config : ApiConfig) (counted : Bool)
  deriving DecidableEq

def bindStep (lookup : Resolver) (world : BindWorld) : BindAction → Option BindWorld
  | .changeKeys op listed =>
      (op.change world.keys).map fun keys => ({ world with keys } : BindWorld).refreshKeys listed
  | .save config counted =>
      match validateAndSave lookup config (world.hasCredential counted) with
      | .ok saved => some { world with config := saved }
      | .error _ => none

/-- Where other machines reach the gateway, its last stored key is not revoked; and a gateway with a
live policy saves hosts that they reach only while a key is stored. -/
def KeyStays (lookup : Resolver) (world : BindWorld) : BindAction → Prop
  | .changeKeys (.revoke id) _ =>
      exposes lookup world.config.hosts = true → ∃ record ∈ world.keys, record.id ≠ id
  | .changeKeys _ _ => True
  | .save config _ =>
      world.policy.isEnabled = true → exposes lookup config.hosts = true → world.keys ≠ []

instance (lookup : Resolver) (world : BindWorld) : ∀ action, Decidable (KeyStays lookup world action)
  | .changeKeys (.revoke _) _ => inferInstanceAs (Decidable (_ → _))
  | .changeKeys (.create _) _ => inferInstanceAs (Decidable True)
  | .changeKeys (.setLimit _ _) _ => inferInstanceAs (Decidable True)
  | .save _ _ => inferInstanceAs (Decidable (_ → _))

section Starts

variable {lookup : Resolver} {config saved : ApiConfig} {keys : List ApiKeyRecord}

theorem build_without_key {addresses : List IpAddr} :
    (AuthPolicy.build addresses none keys).isOk = true ↔
      ((addresses.any fun address => !address.isLoopback) = true → keys ≠ []) := by
  cases keys with
  | nil =>
      cases exposed : addresses.any fun address => !address.isLoopback
      all_goals simp [AuthPolicy.build, exposed, Except.isOk, Except.toBool]
  | cons record keys => simp [AuthPolicy.build, Except.isOk, Except.toBool]

/-- A start needs hosts that resolve, and a stored key where they are reached from outside. -/
theorem canStart_iff :
    canStart lookup config keys = true ↔
      (∃ addresses, bindAddresses lookup config.hosts = .ok addresses) ∧
        (exposes lookup config.hosts = true → keys ≠ []) := by
  unfold canStart exposes
  cases bindAddresses lookup config.hosts with
  | error refusal => simp only [Bool.false_eq_true, reduceCtorEq, exists_false, false_and]
  | ok addresses =>
      simp only [Except.ok.injEq, exists_eq', true_and]
      exact build_without_key

/-- What is saved is what was sent; its hosts resolve, and where they are reached from outside there
was a credential. -/
theorem validateAndSave_ok {hasCredential : Bool}
    (accepted : validateAndSave lookup config hasCredential = .ok saved) :
    saved = config ∧ (∃ addresses, bindAddresses lookup config.hosts = .ok addresses) ∧
      (exposes lookup config.hosts = true → hasCredential = true) := by
  unfold validateAndSave at accepted
  unfold exposes bindAddresses
  by_cases silent : config.hosts = []
  · simp only [silent, if_true] at accepted
    cases accepted
    refine ⟨rfl, ⟨[.localhost], if_pos silent⟩, ?_⟩
    intro exposed
    rw [if_pos silent] at exposed
    simp [IpAddr.localhost, IpAddr.isLoopback] at exposed
  · simp only [silent, if_false] at accepted ⊢
    cases resolution : resolveHosts lookup config.hosts with
    | error refusal =>
        rw [resolution] at accepted
        cases accepted
    | ok resolved =>
        simp only [resolution, bind, Except.bind] at accepted
        split at accepted
        · cases accepted
        · split at accepted
          · cases accepted
          · split at accepted
            · cases accepted
            · rename_i guarded
              cases accepted
              refine ⟨rfl, ⟨resolved, rfl⟩, ?_⟩
              intro exposed
              simp only [exposed, Bool.true_and, Bool.not_eq_true', Bool.not_eq_false] at guarded
              exact guarded

end Starts

section Steps

variable {lookup : Resolver} {world next : BindWorld}

@[simp] theorem BindWorld.refreshKeys_keys (world : BindWorld) (listed : Bool) :
    (world.refreshKeys listed).keys = world.keys := by
  unfold refreshKeys
  split <;> rfl

@[simp] theorem BindWorld.refreshKeys_config (world : BindWorld) (listed : Bool) :
    (world.refreshKeys listed).config = world.config := by
  unfold refreshKeys
  split <;> rfl

theorem ids_nonempty {keys : List ApiKeyRecord} : keys ≠ [] ↔ ∃ id, id ∈ ids keys := by
  rw [← List.isEmpty_eq_false_iff, List.isEmpty_eq_false_iff_exists_mem]
  simp only [mem_ids]
  exact ⟨fun ⟨record, listed⟩ => ⟨record.id, record, listed, rfl⟩,
    fun ⟨_, record, listed, _⟩ => ⟨record, listed⟩⟩

/-- A request leaves a key where it is not a revoke of the last one. -/
theorem change_leaves_key {op : KeyOp} {before after : List ApiKeyRecord}
    (changed : op.change before = some after) :
    after ≠ [] ↔ ∀ id, op = .revoke id → ∃ record ∈ before, record.id ≠ id := by
  rw [ids_nonempty]
  simp only [KeyOp.mem_ids_change changed]
  cases op with
  | create record =>
      simp only [reduceCtorEq, false_implies, implies_true, iff_true]
      exact ⟨record.id, KeyOp.mem_leaves.mpr (Or.inl ⟨record, rfl, rfl⟩)⟩
  | revoke target =>
      simp only [KeyOp.leaves, List.mem_filter, decide_eq_true_eq, KeyOp.revoke.injEq, forall_eq',
        mem_ids]
      constructor
      · intro some_left
        obtain ⟨id, ⟨record, listed, same⟩, other⟩ := some_left
        exact ⟨record, listed, fun named => other (same.symm.trans named)⟩
      · intro some_left
        obtain ⟨record, listed, other⟩ := some_left
        exact ⟨record.id, ⟨record, listed, rfl⟩, other⟩
  | setLimit target limit =>
      simp only [reduceCtorEq, false_implies, implies_true, iff_true]
      simp only [KeyOp.change, Option.ite_none_right_eq_some, List.any_eq_true,
        decide_eq_true_eq] at changed
      obtain ⟨record, listed, named⟩ := changed.1
      exact ⟨target, mem_ids.mpr ⟨record, listed, named⟩⟩

/-- Just the steps that keep a key keep files that a gateway starts on. -/
theorem step_canStart_iff {action : BindAction}
    (starts : canStart lookup world.config world.keys = true)
    (stepped : bindStep lookup world action = some next) :
    KeyStays lookup world action ↔ canStart lookup next.config next.keys = true := by
  obtain ⟨resolves, keyed⟩ := canStart_iff.mp starts
  cases action with
  | changeKeys op listed =>
      simp only [bindStep, Option.map_eq_some_iff] at stepped
      obtain ⟨keys, changed, rfl⟩ := stepped
      simp only [BindWorld.refreshKeys_keys, BindWorld.refreshKeys_config]
      rw [canStart_iff, change_leaves_key changed]
      simp only [resolves, true_and]
      cases op with
      | revoke id => simp only [KeyStays, KeyOp.revoke.injEq, forall_eq']
      | create record => simp only [KeyStays, reduceCtorEq, false_implies, implies_true]
      | setLimit id limit => simp only [KeyStays, reduceCtorEq, false_implies, implies_true]
  | save config counted =>
      simp only [bindStep] at stepped
      split at stepped
      · rename_i saved accepted
        cases stepped
        obtain ⟨rfl, found, guarded⟩ := validateAndSave_ok accepted
        rw [canStart_iff]
        simp only [found, true_and, KeyStays]
        constructor
        · intro stays exposed
          have credential := guarded exposed
          simp only [BindWorld.hasCredential, Bool.or_eq_true, Bool.and_eq_true, Bool.not_eq_true',
            List.isEmpty_eq_false_iff] at credential
          rcases credential with live | stored
          · exact stays live exposed
          · exact stored.2
        · exact fun kept _ exposed => kept exposed
      · cases stepped

/-- Along a run from files that a gateway starts on, every pair of files is one it starts on just
where every step keeps a key: the last stored one is not revoked while the saved hosts are reached
from outside, and a live policy does not stand in for a stored key at a save of such hosts. -/
theorem saved_files_start_iff {start : BindWorld} {actions : List BindAction}
    (starts : canStart lookup start.config start.keys = true)
    (ran : run (bindStep lookup) start actions = some world) :
    (∀ begun reached, begun <+: actions → run (bindStep lookup) start begun = some reached →
        canStart lookup reached.config reached.keys = true) ↔
      runMeeting (bindStep lookup) (KeyStays lookup) start actions = some world :=
  runMeeting_iff (fun world => canStart lookup world.config world.keys = true)
    (fun _ _ _ => step_canStart_iff) starts ran

end Steps

section Sample

/-- A machine with an address of its own. -/
def lanResolver : Resolver
  | "127.0.0.1" => .ok [.localhost]
  | "192.168.1.5" => .ok [.v4 0xc0a80105]
  | _ => .error "failed to lookup address information"

def lanConfig : ApiConfig := ⟨["127.0.0.1", "192.168.1.5"], some 11434⟩

def firstKey : ApiKeyRecord := ⟨"k1", "phone", "3fa9", 1700000000, ⟨none, none⟩⟩

/-- A gateway on a new data directory. -/
def newGateway (policy : AuthPolicy) (managesKeys : Bool) : BindWorld :=
  ⟨[], ⟨[], none⟩, policy, managesKeys⟩

theorem saved_files_start_iff_key_kept :
    (∀ begun reached,
        begun <+: [.changeKeys (.create firstKey) true, .save lanConfig true] →
        run (bindStep lanResolver) (newGateway .disabled false) begun = some reached →
          canStart lanResolver reached.config reached.keys = true) ↔
      runMeeting (bindStep lanResolver) (KeyStays lanResolver) (newGateway .disabled false)
        [.changeKeys (.create firstKey) true, .save lanConfig true] =
          some ⟨[firstKey], lanConfig, .disabled, false⟩ :=
  saved_files_start_iff (by decide) (by decide)

/-- A gateway with a static key saves hosts that no stored key covers, and one whose only key is
revoked after the save is left with them. -/
theorem saved_hosts_without_key :
    (run (bindStep lanResolver) (newGateway (.required (some "secret") []) false)
        [.save lanConfig true]).map (fun world => canStart lanResolver world.config world.keys) =
          some false ∧
      (run (bindStep lanResolver) (newGateway .disabled false)
        [.changeKeys (.create firstKey) true, .save lanConfig true,
          .changeKeys (.revoke "k1") true]).map
            (fun world => canStart lanResolver world.config world.keys) = some false := by
  decide

end Sample

end Lightweight.Gateway
