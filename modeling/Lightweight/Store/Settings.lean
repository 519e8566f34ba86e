import Lightweight.Store.JsonText
import Lightweight.Utf8

/-! The settings file (`lightweight-store/src/settings.rs`): a typed half for the gateway, a half for
the panel that is not looked into, and keys that this build does not know. -/

namespace Lightweight.Store

open Lightweight.Router

structure GatewaySettings where
  /-- Whether conversations are written to disk. -/
  keepHistory : Bool
  /-- The context to load a model with when a request does not say. -/
  defaultNCtx : Option UInt32
deriving DecidableEq

def GatewaySettings.default : GatewaySettings := { keepHistory := true, defaultNCtx := none }

structure Settings where
  gateway : GatewaySettings
  /-- The panel's own preferences. -/
  ui : Value
  ordered : Ordered ui

def Settings.default : Settings := ⟨.default, .object [], ⟨List.Pairwise.nil, trivial⟩⟩

def formatVersion : Nat := 1

def versionKey : List Char := "version".toList
def gatewayKey : List Char := "gateway".toList
def uiKey : List Char := "ui".toList
def keepHistoryKey : List Char := "keep_history".toList
def defaultNCtxKey : List Char := "default_n_ctx".toList

/-- The keys of the file that this build has a field for. -/
def knownKeys : List (List Char) := [versionKey, gatewayKey, uiKey]

/-- The keys of the gateway's half that this build has a field for. -/
def gatewayKeys : List (List Char) := [keepHistoryKey, defaultNCtxKey]

/-! ### Reading -/

/-- A field of a struct: absent, there once, or refused for coming again. -/
def field (key : List Char) (members : List (List Char × Content)) : Option (Option Content) :=
  match members.filter fun member => member.1 = key with
  | [] => some none
  | [member] => some (some member.2)
  | _ => none

def readBool : Content → Option Bool
  | .bool b => some b
  | _ => none

def readU32 : Content → Option UInt32
  | .number (.posInt n) => if n < UInt32.size then some (UInt32.ofNat n) else none
  | _ => none

def readOptionalU32 : Content → Option (Option UInt32)
  | .null => some none
  | content => (readU32 content).map some

/-- What is absent takes its default. A struct may also be written as the list of its fields. -/
def readGateway : Content → Option GatewaySettings
  | .map members => do
      let keepHistory ← field keepHistoryKey members
      let defaultNCtx ← field defaultNCtxKey members
      let keepHistory ← keepHistory.elim (some GatewaySettings.default.keepHistory) readBool
      let defaultNCtx ← defaultNCtx.elim (some GatewaySettings.default.defaultNCtx) readOptionalU32
      some { keepHistory, defaultNCtx }
  | .seq [] => some .default
  | .seq [first] => do
      let keepHistory ← readBool first
      some { GatewaySettings.default with keepHistory }
  | .seq [first, second] => do
      let keepHistory ← readBool first
      let defaultNCtx ← readOptionalU32 second
      some { keepHistory, defaultNCtx }
  | _ => none

/-- The panel's half, as it is. -/
def readUi (content : Content) (gateway : GatewaySettings) : Settings :=
  ⟨gateway, content.toValue, ordered_toValue content⟩

/-- The settings of a file. The version has to be there and to be a number. -/
def readFile : Content → Option Settings
  | .map members => do
      let version ← field versionKey members
      let _ ← version.bind readU32
      let gateway ← field gatewayKey members
      let ui ← field uiKey members
      let gateway ← gateway.elim (some .default) readGateway
      some (readUi (ui.getD (.map [])) gateway)
  | _ => none

def withoutKnown (map : Map) : Map := map.filter fun member => !knownKeys.contains member.1

/-- The parser and the printer of `serde_json`. -/
structure Json where
  fromSlice : List UInt8 → Option Content
  toVecPretty : Content → List UInt8

/-- What reading the file gives. -/
inductive FileRead where
  | found (bytes : List UInt8)
  | notFound
  | failed

inductive StoreError where
  | io
  | unreadable
deriving DecidableEq

namespace Json

/-- The settings, or the defaults when none have been saved. -/
def load (json : Json) : FileRead → Except StoreError Settings
  | .notFound => .ok .default
  | .failed => .error .io
  | .found bytes =>
      match (json.fromSlice bytes).bind readFile with
      | some settings => .ok settings
      | none => .error .unreadable

/-- The members of the file that this build has no field for. -/
def unknownKeys (json : Json) : FileRead → Option Map
  | .found bytes =>
      match (json.fromSlice bytes).map Content.toValue with
      | some (.object members) => some (withoutKnown members)
      | _ => none
  | _ => none

end Json

/-! ### Writing -/

def GatewaySettings.content (gateway : GatewaySettings) : Content :=
  .map [(keepHistoryKey, .bool gateway.keepHistory),
    (defaultNCtxKey, match gateway.defaultNCtx with
      | none => .null
      | some n => .number (.posInt n.toNat))]

/-- The file that is written. -/
def SettingsFile (settings : Settings) (unknown : Map) : Content :=
  .map ([(versionKey, .number (.posInt formatVersion)), (gatewayKey, settings.gateway.content),
    (uiKey, .ofValue settings.ui)] ++ ofMembers unknown)

namespace Json

/-- What is written over what is there; without anything to read, nothing is kept. -/
def file (json : Json) (old : FileRead) (settings : Settings) : Content :=
  SettingsFile settings ((json.unknownKeys old).getD [])

def save (json : Json) (old : FileRead) (settings : Settings) : List UInt8 :=
  json.toVecPretty (json.file old settings) ++ [10]

/-- What is printed is read back as it is, with a line break behind it. -/
def ReadsBack (json : Json) (content : Content) : Prop :=
  json.fromSlice (json.toVecPretty content ++ [10]) = some content

end Json

/-- The keys that this build has no field for are in the new file with the values of the old one. -/
structure KeepsUnknown (old new : Value) : Prop where
  top : ∀ key ∉ knownKeys, ∀ value, old.get key = some value → new.get key = some value
  gateway : ∀ key ∉ gatewayKeys, ∀ value, (old.get gatewayKey).bind (Value.get key) = some value →
    (new.get gatewayKey).bind (Value.get key) = some value

/-! ### Members -/

section Members

variable {key : List Char} {map unknown : Map}

theorem ofMembers_eq (members : Map) :
    ofMembers members = members.map fun entry => (entry.1, Content.ofValue entry.2) := by
  induction members with
  | nil => rfl
  | cons entry members ih => rw [ofMembers, ih, List.map_cons]

theorem memberValues_append (first second : List (List Char × Content)) (map : Map) :
    memberValues (first ++ second) map = memberValues second (memberValues first map) := by
  induction first generalizing map with
  | nil => rfl
  | cons member first ih => rw [List.cons_append, memberValues, memberValues, ih]

theorem get_eq_none (absent : ∀ entry ∈ map, entry.1 ≠ key) : Map.get key map = none := by
  induction map with
  | nil => rfl
  | cons entry map ih =>
      rw [List.forall_mem_cons] at absent
      rw [Map.get, if_neg (Ne.symm absent.1), ih absent.2]

/-- Members written behind others are read back as they are. -/
theorem get_memberValues_ofMembers (keys : KeysOrdered unknown) (ordered : MembersOrdered unknown)
    (map : Map) : Map.get key (memberValues (ofMembers unknown) map) =
      (Map.get key unknown).or (Map.get key map) := by
  induction unknown generalizing map with
  | nil => rfl
  | cons entry unknown ih =>
      obtain ⟨name, value⟩ := entry
      obtain ⟨behind, keys⟩ := List.pairwise_cons.mp keys
      rw [ofMembers, memberValues, ih keys ordered.2, toValue_ofValue value ordered.1, Map.get_insert,
        Map.get]
      by_cases here : key = name
      · have alone : Map.get key unknown = none := by
          apply get_eq_none
          intro other member
          rw [here]
          exact (ne_of_lt (behind other member)).symm
        rw [if_pos here, if_pos here, alone]
        rfl
      · rw [if_neg here, if_neg here]

theorem mem_withoutKnown {entry : List Char × Value} :
    entry ∈ withoutKnown map ↔ entry ∈ map ∧ entry.1 ∉ knownKeys := by
  rw [withoutKnown, List.mem_filter, Bool.not_eq_true', ← Bool.not_eq_true, List.contains_iff_mem]

theorem get_withoutKnown (kept : key ∉ knownKeys) :
    Map.get key (withoutKnown map) = Map.get key map := by
  unfold withoutKnown
  induction map with
  | nil => rfl
  | cons entry map ih =>
      obtain ⟨name, value⟩ := entry
      rw [List.filter_cons, Map.get]
      split
      · rw [Map.get, ih]
      · rename_i dropped
        have known : name ∈ knownKeys := by simpa using dropped
        rw [if_neg, ih]
        intro same
        exact kept (same ▸ known)

theorem foreign_of_kept : ∀ entry ∈ withoutKnown map, entry.1 ∉ knownKeys :=
  fun _ kept => (mem_withoutKnown.mp kept).2

theorem membersOrdered_withoutKnown (ordered : MembersOrdered map) :
    MembersOrdered (withoutKnown map) := by
  rw [membersOrdered_iff] at ordered ⊢
  intro entry kept
  exact ordered entry (mem_withoutKnown.mp kept).1

theorem keysOrdered_withoutKnown (keys : KeysOrdered map) : KeysOrdered (withoutKnown map) :=
  keys.filter _

theorem field_known {known : List (List Char × Content)}
    (absent : ∀ entry ∈ unknown, entry.1 ∉ knownKeys) (own : key ∈ knownKeys) :
    field key (known ++ ofMembers unknown) = field key known := by
  have none_there : (ofMembers unknown).filter (fun member => member.1 = key) = [] := by
    apply List.filter_eq_nil_iff.mpr
    intro member listed
    rw [ofMembers_eq] at listed
    obtain ⟨entry, stored, same⟩ := List.mem_map.mp listed
    rw [decide_eq_true_eq, ← same]
    intro equal
    exact absent entry stored (equal ▸ own)
  rw [field, List.filter_append, none_there, List.append_nil]
  rfl

end Members

/-! ### The new file -/

section Saved

variable {json : Json} {settings : Settings} {unknown : Map}

theorem readOptionalU32_number (n : UInt32) :
    readOptionalU32 (.number (.posInt n.toNat)) = some (some n) := by
  have fits : n.toNat < UInt32.size := n.toNat_lt
  rw [readOptionalU32, readU32, if_pos fits, UInt32.ofNat_toNat]
  · rfl
  · nofun

theorem readGateway_content (gateway : GatewaySettings) :
    readGateway gateway.content = some gateway := by
  obtain ⟨keepHistory, defaultNCtx⟩ := gateway
  cases defaultNCtx with
  | none => rfl
  | some n =>
      change (readOptionalU32 (.number (.posInt n.toNat))).bind _ = _
      rw [readOptionalU32_number]
      rfl

theorem readUi_ofValue (settings : Settings) :
    readUi (.ofValue settings.ui) settings.gateway = settings := by
  obtain ⟨gateway, ui, ordered⟩ := settings
  unfold readUi
  congr 1
  exact toValue_ofValue ui ordered

/-- The settings are read back from what they are written as, whatever is kept beside them. -/
theorem readFile_settingsFile (absent : ∀ entry ∈ unknown, entry.1 ∉ knownKeys) :
    readFile (SettingsFile settings unknown) = some settings := by
  rw [SettingsFile, readFile, field_known absent (by decide : versionKey ∈ knownKeys),
    field_known absent (by decide : gatewayKey ∈ knownKeys),
    field_known absent (by decide : uiKey ∈ knownKeys)]
  change (readGateway settings.gateway.content).bind _ = _
  rw [readGateway_content]
  exact congrArg some (readUi_ofValue settings)

/-- What is kept of a file is in the new one, beside the members written anew. -/
theorem get_settingsFile {key : List Char} (keys : KeysOrdered unknown)
    (ordered : MembersOrdered unknown) :
    (SettingsFile settings unknown).toValue.get key = (Map.get key unknown).or
      (Map.get key (memberValues [(versionKey, .number (.posInt formatVersion)),
        (gatewayKey, settings.gateway.content), (uiKey, .ofValue settings.ui)] [])) := by
  rw [SettingsFile, Content.toValue, Value.get, memberValues_append,
    get_memberValues_ofMembers keys ordered]

theorem get_written {key : List Char} :
    Map.get key (memberValues [(versionKey, .number (.posInt formatVersion)),
        (gatewayKey, settings.gateway.content), (uiKey, .ofValue settings.ui)] []) =
      if key = uiKey then some (Content.ofValue settings.ui).toValue
      else if key = gatewayKey then some settings.gateway.content.toValue
      else if key = versionKey then some (.number (.posInt formatVersion))
      else none := by
  rw [memberValues, memberValues, memberValues, memberValues, Map.get_insert, Map.get_insert,
    Map.get_insert, Map.get]
  rfl

/-- The gateway's half is written with its own fields alone. -/
theorem get_content {key : List Char} (other : key ∉ gatewayKeys) (gateway : GatewaySettings) :
    gateway.content.toValue.get key = none := by
  rw [gatewayKeys, List.mem_cons, List.mem_singleton, not_or] at other
  rw [GatewaySettings.content, Content.toValue, Value.get, memberValues, memberValues, memberValues,
    Map.get_insert, Map.get_insert, if_neg other.2, if_neg other.1, Map.get]

end Saved

section Kept

variable {json : Json} {bytes : List UInt8} {loaded : Settings} {members : List (List Char × Content)}
  {key : List Char}

/-- A file that loads is an object. -/
theorem members_of_load {old : Content} (read : json.fromSlice bytes = some old)
    (loads : json.load (.found bytes) = .ok loaded) : ∃ members, old = .map members := by
  rw [Json.load, read, Option.bind_some] at loads
  cases old with
  | map members => exact ⟨members, rfl⟩
  | _ => cases loads

theorem unknownKeys_found (read : json.fromSlice bytes = some (.map members)) :
    json.unknownKeys (.found bytes) =
      some (withoutKnown (memberValues members [])) := by
  rw [Json.unknownKeys, read, Option.map_some, Content.toValue]

/-- Under a key, the new file holds what is kept of the old one, or else what is written anew. -/
theorem get_file (read : json.fromSlice bytes = some (.map members)) (settings : Settings) :
    (json.file (.found bytes) settings).toValue.get key =
      (Map.get key (withoutKnown (memberValues members []))).or
        (if key = uiKey then some (Content.ofValue settings.ui).toValue
        else if key = gatewayKey then some settings.gateway.content.toValue
        else if key = versionKey then some (.number (.posInt formatVersion))
        else none) := by
  obtain ⟨keys, ordered⟩ := memberValues_ordered members ⟨List.Pairwise.nil, trivial⟩
  rw [Json.file, unknownKeys_found read, Option.getD_some,
    get_settingsFile (keysOrdered_withoutKnown keys) (membersOrdered_withoutKnown ordered),
    get_written]

theorem get_file_unknown (read : json.fromSlice bytes = some (.map members)) (settings : Settings)
    (foreign : key ∉ knownKeys) :
    (json.file (.found bytes) settings).toValue.get key =
      (Content.map members).toValue.get key := by
  have notOwn := foreign
  rw [knownKeys, List.mem_cons, List.mem_cons, List.mem_singleton, not_or, not_or] at notOwn
  rw [get_file read, get_withoutKnown foreign, if_neg notOwn.2.2, if_neg notOwn.2.1,
    if_neg notOwn.1, Option.or_none, Content.toValue, Value.get]

/-- Under the key of the gateway's half stands what is saved. -/
theorem get_file_gateway (read : json.fromSlice bytes = some (.map members)) (settings : Settings) :
    (json.file (.found bytes) settings).toValue.get gatewayKey =
      some settings.gateway.content.toValue := by
  have absent : ∀ entry ∈ withoutKnown (memberValues members []), entry.1 ≠ gatewayKey := by
    intro entry kept same
    exact foreign_of_kept entry kept (same ▸ List.mem_cons_of_mem _ List.mem_cons_self)
  rw [get_file read, get_eq_none absent, if_neg (by decide), if_pos rfl, Option.none_or]

/-- What is saved is what loads from the new file. -/
theorem load_file {new : List UInt8} (read : json.fromSlice bytes = some (.map members))
    (settings : Settings) (back : json.fromSlice new = some (json.file (.found bytes) settings)) :
    json.load (.found new) = .ok settings := by
  rw [Json.load, back, Option.bind_some, Json.file, unknownKeys_found read, Option.getD_some,
    readFile_settingsFile foreign_of_kept]

end Kept

/-- A file that loads is kept, but for the keys of the gateway's half that this build does not know:
saving keeps all unknown keys, and the settings are read back, just when it has none of these. -/
theorem save_keeps_unknown_iff (json : Json) (bytes : List UInt8) (old : Content)
    (loaded settings : Settings) (read : json.fromSlice bytes = some old)
    (loads : json.load (.found bytes) = .ok loaded)
    (back : json.ReadsBack (json.file (.found bytes) settings)) :
    (∃ new, json.fromSlice (json.save (.found bytes) settings) = some new ∧
        KeepsUnknown old.toValue new.toValue ∧
        json.load (.found (json.save (.found bytes) settings)) = .ok settings) ↔
      ∀ key ∉ gatewayKeys, (old.toValue.get gatewayKey).bind (Value.get key) = none := by
  obtain ⟨members, rfl⟩ := members_of_load read loads
  constructor
  · intro kept key foreign
    obtain ⟨new, readNew, keeps, -⟩ := kept
    rw [Json.save, back, Option.some_inj] at readNew
    subst readNew
    -- the new file has none of these, so the old one cannot have had one
    have gone : ((json.file (.found bytes) settings).toValue.get gatewayKey).bind (Value.get key) =
        none := by
      rw [get_file_gateway read, Option.bind_some, get_content foreign]
    rw [Option.eq_none_iff_forall_ne_some]
    intro value there
    rw [keeps.gateway key foreign value there] at gone
    cases gone
  · intro none_there
    refine ⟨json.file (.found bytes) settings, back, ⟨?_, ?_⟩, load_file read settings back⟩
    · intro key foreign value there
      rw [get_file_unknown read settings foreign, there]
    · intro key foreign value there
      rw [none_there key foreign] at there
      cases there

/-! ### A newer build's file -/

/-- A file with members beside the three, and a gateway's half with members beside its own. -/
def sampleText (gateway others : List Char) : List Char :=
  "\x7b\"version\":1,\"gateway\":\x7b\"keep_history\":true".toList ++ gateway ++
    "\x7d,\"ui\":\x7b\x7d".toList ++ others ++ "\x7d".toList

def sampleContent (gateway others : List (List Char × Content)) : Content :=
  .map ([(versionKey, .number (.posInt 1)),
    (gatewayKey, .map ((keepHistoryKey, .bool true) :: gateway)), (uiKey, .map [])] ++ others)

/-- The text that the file is saved as. -/
def savedText (others : List Char) : List Char :=
  "\x7b\n  \"version\": 1,\n  \"gateway\": \x7b\n    \"keep_history\": true,\n".toList ++
    "    \"default_n_ctx\": null\n  \x7d,\n  \"ui\": \x7b\x7d".toList ++ others ++ "\n\x7d".toList

/-- A parser and a printer that know a file and what it is saved as. -/
def sampleJson (old saved : List Char) (content written : Content) : Json where
  fromSlice bytes := if bytes = Utf8.encode old then some content
    else if bytes = Utf8.encode saved ++ [10] then some written else none
  toVecPretty _ := Utf8.encode saved

def shellMember : List Char × Content := ("shell".toList, .map [("tray".toList, .bool true)])

/-- A file with a member of a newer build beside the three halves. -/
def shellText : List Char := sampleText [] ",\"shell\":\x7b\"tray\":true\x7d".toList

def shellJson : Json :=
  sampleJson shellText (savedText ",\n  \"shell\": \x7b\n    \"tray\": true\n  \x7d".toList)
    (sampleContent [] [shellMember]) (sampleContent [(defaultNCtxKey, .null)] [shellMember])

def telemetryKey : List Char := "telemetry".toList

/-- A file with a member of a newer build in the gateway's half. -/
def telemetryText : List Char := sampleText ",\"telemetry\":true".toList []

def telemetryJson : Json :=
  sampleJson telemetryText (savedText []) (sampleContent [(telemetryKey, .bool true)] [])
    (sampleContent [(defaultNCtxKey, .null)] [])

theorem shell_kept :
    ∃ new, shellJson.fromSlice (shellJson.save (.found (Utf8.encode shellText)) .default) = some new ∧
      KeepsUnknown (sampleContent [] [shellMember]).toValue new.toValue ∧
      shellJson.load (.found (shellJson.save (.found (Utf8.encode shellText)) .default)) =
        .ok .default := by
  refine (save_keeps_unknown_iff shellJson (Utf8.encode shellText) (sampleContent [] [shellMember])
    .default .default rfl rfl rfl).mpr ?_
  intro key foreign
  rw [gatewayKeys, List.mem_cons, not_or] at foreign
  change (if key = keepHistoryKey then _ else _) = _
  exact if_neg foreign.1

/-- The member of the gateway's half is in the file, the file loads, and it is saved without the
member. -/
theorem telemetry_dropped :
    telemetryJson.load (.found (Utf8.encode telemetryText)) = .ok .default ∧
    telemetryJson.ReadsBack (telemetryJson.file (.found (Utf8.encode telemetryText)) .default) ∧
    ∃ old new, telemetryJson.fromSlice (Utf8.encode telemetryText) = some old ∧
      telemetryJson.fromSlice
        (telemetryJson.save (.found (Utf8.encode telemetryText)) .default) = some new ∧
      ¬KeepsUnknown old.toValue new.toValue := by
  refine ⟨rfl, rfl, _, _, rfl, rfl, ?_⟩
  intro keeps
  have kept := keeps.gateway telemetryKey (by decide) (.bool true) rfl
  cases kept

end Lightweight.Store
