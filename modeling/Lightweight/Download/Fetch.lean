import Lightweight.Catalog.Alias
import Lightweight.Fallible
import Mathlib.Logic.Function.Basic

/-! One resumable download, checked against a digest (`lightweight-download/src/fetch.rs`). What the
server, the disk and the person at the keyboard do during an attempt is a parameter of it. -/

namespace Lightweight.Download

open Lightweight.Catalog Lightweight.Fallible

/-- A digest that is computed piece by piece. -/
structure Hasher where
  State : Type
  new : State
  update : State → List UInt8 → State
  finalize : State → List UInt8
  digest : List UInt8 → List UInt8
  incremental : ∀ pieces : List (List UInt8),
    finalize (pieces.foldl update new) = digest pieces.flatten

/-- The files by their paths. -/
abbrev Disk := String → Option (List UInt8)

structure IoError where
  rawOsError : Option Int
  text : String
deriving DecidableEq

inductive DownloadError where
  | insecureUrl (scheme : String)
  | failed (what reason : String)
  | corrupt (expected actual : List Char)
  | lowDisk (path : String) (needed : Nat)
  | io (context : String) (source : IoError)
  | cancelled
deriving DecidableEq

/-- What to fetch and what to check it against. -/
structure Fetch where
  url : List Char
  destination : String
  /-- Whether the destination names a directory to create. -/
  inDirectory : Bool
  expectedSha256 : Option (List Char)
  what : String

structure Fetched where
  sha256 : List Char
  bytes : Nat
  resumed : Bool
  verified : Bool
deriving DecidableEq

/-- Why an attempt ends without a result: it returns an error, or it is gone with its process. -/
inductive Stop where
  | error (error : DownloadError)
  | killed
deriving DecidableEq

def diskFullErrno (windows : Bool) : Int := if windows then 112 else 28

def mapIo (windows : Bool) (context : String) (err : IoError) : DownloadError :=
  if err.rawOsError = some (diskFullErrno windows) then .lowDisk "" 0 else .io context err

/-- An operation on the disk that is refused, or during which the process goes; it may be done by
then. -/
inductive Interruption where
  | refused (err : IoError)
  | killed (done : Bool)

/-- Why no more of a body comes, or none is taken. -/
inductive Cause where
  | broken (reason : String)
  | cancelled
  | unwritten (bytes : List UInt8) (err : IoError)
  | killed

inductive Arrival where
  | chunk (bytes : List UInt8)
  /-- The last; so many bytes that were handed to the file never reach it. -/
  | stop (cause : Cause) (lost : Nat)

structure Response where
  status : Nat
  /-- The status as an error shows it. -/
  shown : String
  arrivals : List Arrival

inductive Answer where
  | response (response : Response)
  | failed (reason : String)
  | killed

/-- How the file of an earlier attempt reads. -/
inductive Reading where
  | reads
  | unopened
  | unreadable (err : IoError)

inductive HashTask where
  | ran (reading : Reading)
  | failed (reason : String)
  | killed

/-- All that happens around an attempt. The server sees where the range that it is asked for starts. -/
structure Surroundings where
  windows : Bool
  directory : Option Interruption
  task : HashTask
  answer : Option Nat → Answer
  opening : Option Interruption
  /-- With the bytes that do not reach the file. -/
  flush : Option (Interruption × Nat)
  removal : Option Interruption
  finalising : Option Interruption

def partialPath (destination : String) : String := destination ++ ".part"

/-- What comes before the first `://`. -/
def schemeOf : List Char → List Char
  | [] => []
  | ':' :: '/' :: '/' :: _ => []
  | c :: rest => c :: schemeOf rest

def requireHttps (url : List Char) : Except DownloadError Unit :=
  let scheme := schemeOf url
  if eqIgnoreAsciiCase scheme "https".toList then .ok ()
  else if scheme = [] ∨ scheme.length = url.length then .error (.insecureUrl "(none)")
  else .error (.insecureUrl (String.ofList (scheme.map Char.toLower)))

/-- Two digits for each byte. -/
def hexEncode (bytes : List UInt8) : List Char :=
  bytes.flatMap fun byte => [Nat.digitChar (byte.toNat / 16), Nat.digitChar (byte.toNat % 16)]

def rehashBuffer : Nat := 64 * 1024

/-- The loop that reads a file, with its turns counted. -/
def hashPieces (sha : Hasher) : Nat → List UInt8 → sha.State × Nat → sha.State × Nat
  | 0, _, done => done
  | turns + 1, rest, (hasher, total) =>
      let read := rest.take rehashBuffer
      if read = [] then (hasher, total)
      else hashPieces sha turns (rest.drop rehashBuffer) (sha.update hasher read, total + read.length)

/-- The digest of what an earlier attempt left, and how much that is. -/
def rehashPartial (sha : Hasher) (windows : Bool) (file : Option (List UInt8)) :
    Reading → Except DownloadError (sha.State × Nat)
  | .reads =>
      match file with
      | none => .ok (sha.new, 0)
      | some bytes => .ok (hashPieces sha (bytes.length + 1) bytes (sha.new, 0))
  | .unopened => .ok (sha.new, 0)
  | .unreadable err =>
      match file with
      | none => .ok (sha.new, 0)
      | some _ => .error (mapIo windows "reading the partial download" err)

def isSuccess (status : Nat) : Bool := 200 ≤ status ∧ status < 300

def Interruption.stop (windows : Bool) (context : String) : Interruption → Stop
  | .refused err => .error (mapIo windows context err)
  | .killed _ => .killed

/-- A change of the disk, or what comes between. -/
def perform (windows : Bool) (context : String) (fault : Option Interruption) (change : Disk → Disk) :
    EStateM Stop Disk Unit :=
  match fault with
  | none => modify change
  | some (.killed true) => do
      modify change
      throw .killed
  | some fault => throw (fault.stop windows context)

/-- The file with nothing in it, or as it is. -/
def openPart (part : String) (truncate : Bool) (disk : Disk) : Disk :=
  Function.update disk part (some (if truncate then [] else (disk part).getD []))

def append (part : String) (bytes : List UInt8) (disk : Disk) : Disk :=
  Function.update disk part (some ((disk part).getD [] ++ bytes))

def lose (part : String) (lost : Nat) (disk : Disk) : Disk :=
  Function.update disk part ((disk part).map fun bytes => bytes.take (bytes.length - lost))

def removeFile (part : String) (disk : Disk) : Disk := Function.update disk part none

def rename (part destination : String) (disk : Disk) : Disk :=
  match disk part with
  | some bytes => Function.update (Function.update disk part none) destination (some bytes)
  | none => disk

/-- What a stop had handed to the file before. -/
def Cause.handed : Cause → List UInt8
  | .unwritten bytes _ => bytes
  | _ => []

def Cause.stop (windows : Bool) (what : String) : Cause → Stop
  | .broken reason => .error (.failed what reason)
  | .cancelled => .error .cancelled
  | .unwritten _ err => .error (mapIo windows "writing the download" err)
  | .killed => .killed

/-- The loop over the body: each chunk is written, hashed and counted. -/
def receive (sha : Hasher) (windows : Bool) (what part : String) :
    List Arrival → sha.State × Nat → EStateM Stop Disk (sha.State × Nat)
  | [], done => pure done
  | .chunk bytes :: rest, (hasher, written) => do
      modify (append part bytes)
      receive sha windows what part rest (sha.update hasher bytes, written + bytes.length)
  | .stop cause lost :: _, _ => do
      modify (append part cause.handed)
      modify (lose part lost)
      throw (cause.stop windows what)

/-- A file that failed is removed, and a refusal of that is passed over. -/
def discard (part : String) : Option Interruption → EStateM Stop Disk Unit
  | none => modify (removeFile part)
  | some (.refused _) => pure ()
  | some (.killed done) => do
      if done then modify (removeFile part)
      throw .killed

section Fetch

variable (sha : Hasher) (request : Fetch) (around : Surroundings)

def createDirectory : EStateM Stop Disk Unit :=
  if request.inDirectory then
    perform around.windows "creating the download directory" around.directory id
  else pure ()

/-- The digest of what an earlier attempt left, computed in a task of its own. -/
def rehash : EStateM Stop Disk (sha.State × Nat) := do
  let disk ← get
  match around.task with
  | .ran reading =>
      propagate ((rehashPartial sha around.windows (disk (partialPath request.destination))
        reading).mapError Stop.error)
  | .failed reason => throw (.error (.failed request.what ("the hashing task failed: " ++ reason)))
  | .killed => throw .killed

def ask (resumeFrom : Nat) : EStateM Stop Disk Response :=
  match around.answer (if 0 < resumeFrom then some resumeFrom else none) with
  | .response response => pure response
  | .failed reason => throw (.error (.failed request.what reason))
  | .killed => throw .killed

/-- Whether what was there is dropped for what comes. -/
def restarts (resumeFrom : Nat) (response : Response) : Bool :=
  0 < resumeFrom ∧ response.status ≠ 206

/-- The body into the file. -/
def transfer (hasher : sha.State) (resumeFrom : Nat) (response : Response) :
    EStateM Stop Disk (sha.State × Nat) := do
  let part := partialPath request.destination
  let restart := restarts resumeFrom response
  refuseIf (isSuccess response.status = false) (.error (.failed request.what
    (String.ofList request.url ++ " returned HTTP " ++ response.shown)))
  perform around.windows "opening the download file" around.opening
    (openPart part (restart || resumeFrom == 0))
  let received ← receive sha around.windows request.what part response.arrivals
    (if restart then sha.new else hasher, if restart then 0 else resumeFrom)
  match around.flush with
  | none => pure received
  | some (fault, lost) => do
      modify (lose part lost)
      throw (fault.stop around.windows "flushing the download")

/-- A file whose digest is not the expected one is not kept. -/
def verify (actual : List Char) : EStateM Stop Disk Unit :=
  match request.expectedSha256 with
  | some expected =>
      if eqIgnoreAsciiCase actual expected then pure ()
      else do
        discard (partialPath request.destination) around.removal
        throw (.error (.corrupt expected actual))
  | none => pure ()

def fetch : EStateM Stop Disk Fetched := do
  propagate ((requireHttps request.url).mapError Stop.error)
  createDirectory request around
  let (hasher, resumeFrom) ← rehash sha request around
  let response ← ask request around resumeFrom
  let (hasher, written) ← transfer sha request around hasher resumeFrom response
  let actual := hexEncode (sha.finalize hasher)
  verify request around actual
  perform around.windows "finalising the download" around.finalising
    (rename (partialPath request.destination) request.destination)
  pure
    { sha256 := actual
      bytes := written
      resumed := 0 < resumeFrom && !restarts resumeFrom response
      verified := request.expectedSha256.isSome }

end Fetch

end Lightweight.Download
