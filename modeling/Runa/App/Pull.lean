import Mathlib.Data.List.Dedup
import Mathlib.Data.List.Sort
import Runa.App.Loading
import Runa.Paths.Places

/-!
# Pulling models

The embedding of `pull` and `find_local` of `runa/src/pull.rs`, with the parts
of `runa-fit/src/remote.rs` they rest on: `parse_model_ref`, the listing of
siblings and `pick_quant`.  The Hub answers every request as it likes, and a
download leaves any bytes at its destination, whether it fails or not.  The
digest, the lower case of a text and its `Debug` form are parameters.  The
sidecars are kept apart from the other files of the disk.
-/

namespace Runa.App.Pull

open Runa.App.Config (Env lower message parseU64)
open Runa.App.Loading (rsplitColon)
open Runa.Paths.Places
open Runa.Store
open Runa.Store.Ordered
open Runa.Stream.Utf8

/-- What is taken from libraries: `Sha256` in hexadecimal, `to_lowercase` and
`Debug` of a text. -/
structure Machine where
  sha256 : List UInt8 → Text
  lowercase : Text → Text
  quoted : Text → Text

/-- A process: its environment, its directory, the clock, and the order in
which it comes upon files. -/
structure Process where
  env : Env
  cwd : Text
  now : Nat
  order : List Place → List Place

def showNat (number : Nat) : Text :=
  (toString number).toList

/-! ## The disk -/

structure File where
  bytes : List UInt8
  modified : Nat
deriving DecidableEq

/-- Sidecar recording a completed verification. -/
structure Verified where
  size : Nat
  sha256 : Text
  verifiedAt : Nat
deriving DecidableEq

structure Disk where
  files : List (Place × File)
  sidecars : List (Place × Verified)
  dirs : List Place
deriving DecidableEq

namespace Disk

def file (disk : Disk) (place : Place) : Option File :=
  find place disk.files

def isFile (disk : Disk) (place : Place) : Bool :=
  (disk.file place).isSome

/-- A directory was made, or something is in it. -/
def isDir (disk : Disk) (place : Place) : Bool :=
  disk.dirs.any (place.isPrefixOf ·) ||
    disk.files.any fun entry =>
      place.isPrefixOf entry.1 && decide (place ≠ entry.1)

def write (disk : Disk) (place : Place) (file : File) : Disk :=
  { disk with files := put place file disk.files }

def remove (disk : Disk) (place : Place) : Disk :=
  { disk with files := Ordered.remove place disk.files }

/-- The names in a directory, each once. -/
def names (disk : Disk) (dir : Place) : List Text :=
  ((disk.files.map Prod.fst ++ disk.dirs).filterMap fun place =>
    if dir <+: place then (place.drop dir.length).head? else none).dedup

end Disk

/-! ## The directories of the store -/

section

variable (process : Process)

def workDir : Place :=
  follow [] process.cwd

/-- Data root: `$XDG_DATA_HOME/runa`, else `~/.local/share/runa`. -/
def dataDir : Place :=
  let home := goto (workDir process) ((process.env "HOME").getD ['.'])
  let share :=
    goto (goto (goto home ".local".toList) "share".toList) "runa".toList
  match process.env "XDG_DATA_HOME" with
  | some xdg =>
    if xdg = [] then share
    else goto (goto (workDir process) xdg) "runa".toList
  | none => share

def modelsDir : Place :=
  goto (dataDir process) "models".toList

def safeChar (char : Char) : Char :=
  if char.isAlphanum ∨ char = '.' ∨ char = '-' then char else '-'

/-- The directory name of a repo. -/
def safeName (repo : Text) : Text :=
  repo.map safeChar

def repoDir (repo : Text) : Place :=
  goto (modelsDir process) (safeName repo)

def defaultMaxModelBytes : Nat :=
  3 * 1024 * 1024 * 1024

def maxModelBytes : Nat :=
  (((process.env "RUNA_MAX_MODEL_BYTES").bind parseU64).filter
    (0 < ·)).getD defaultMaxModelBytes

def checkSizeLimit (size : Nat) (repo file : Text) : Except Text Unit :=
  if maxModelBytes process < size then
    .error (message [repo, "/".toList, file, " is ".toList, showNat size,
      " bytes, over the ".toList, showNat (maxModelBytes process),
      (" byte pull limit " ++
        "(set RUNA_MAX_MODEL_BYTES to override)").toList])
  else .ok ()

/-- A path that ends in a name. -/
def endsInName (path : Text) : Bool :=
  match (path.splitOn '/').getLast? with
  | none => false
  | some part => part ≠ [] ∧ part ≠ ['.'] ∧ part ≠ ['.', '.']

/-- `Path::is_file` -/
def isLocalFile (disk : Disk) (path : Text) : Bool :=
  endsInName path && disk.isFile (goto (workDir process) path)

end

/-! ## References -/

structure HfRef where
  repo : Text
  fileOrQuant : Text
deriving DecidableEq, Repr

inductive ModelSource where
  | hf (ref : HfRef)
  | url (text : Text)
  | path (text : Text)
deriving DecidableEq, Repr

/-- `hf:<repo>:<file-or-quant>` splits on the last colon. -/
def parseModelRef (machine : Machine) (isFile : Bool) (text : Text) :
    Except Text ModelSource :=
  let bad := message ["bad model reference ".toList, machine.quoted text,
    (": expected hf:<repo>:<file>, an http(s) URL, " ++
      "or a local path").toList]
  if "hf:".toList.isPrefixOf text then
    match rsplitColon (text.drop 3) with
    | some (repo, fileOrQuant) =>
      if repo = [] ∨ fileOrQuant = [] then .error bad
      else .ok (.hf ⟨repo, fileOrQuant⟩)
    | none => .error bad
  else if "http://".toList.isPrefixOf text ||
      "https://".toList.isPrefixOf text then
    .ok (.url text)
  else if isFile then .ok (.path text)
  else .error bad

def resolveHfUrl (repo file : Text) : Text :=
  message ["https://huggingface.co/".toList, repo, "/resolve/main/".toList,
    file]

def isSafetensorsTag (tag : Text) : Bool :=
  lower tag = "safetensors".toList

/-- Whether the last five bytes are `.gguf`; the slice ends the program where
they begin inside a character. -/
def isGgufName (name : Text) : Option Bool :=
  if 5 ≤ byteLen name then
    (dropBytes (byteLen name - 5) name).map fun ending =>
      lower ending = ".gguf".toList
  else some false

/-- `filter(is_gguf_name)` -/
def ggufNames : List Text → Option (List Text)
  | [] => some []
  | name :: names => do
    let gguf ← isGgufName name
    let more ← ggufNames names
    return if gguf then name :: more else more

/-- A name comes after another one: it is longer, or as long and greater. -/
def After (name other : Text) : Prop :=
  byteLen other < byteLen name ∨
    byteLen other = byteLen name ∧ other < name

instance (name other : Text) : Decidable (After name other) :=
  inferInstanceAs (Decidable (_ ∨ _ ∧ _))

/-- `min_by` of the length, then of the name. -/
def first : List Text → Option Text
  | [] => none
  | name :: names =>
    some (names.foldl
      (fun best other => if After best other then other else best) name)

/-- Pick the best sibling filename for a quant tag. -/
def pickQuant (machine : Machine) (siblings : List Text) (quant : Text) :
    Option Text :=
  if quant ∈ siblings then some quant
  else
    let tag := machine.lowercase quant
    let suffixed := siblings.filter fun name =>
      ('-' :: tag ++ ".gguf".toList).isSuffixOf (machine.lowercase name) ||
        ('_' :: tag ++ ".gguf".toList).isSuffixOf (machine.lowercase name)
    if suffixed = [] then
      first (siblings.filter fun name => tag <:+: machine.lowercase name)
    else first suffixed

/-! ## The Hub -/

/-- Expected file identity from the Hub resolve endpoint. -/
structure FileMeta where
  size : Option Nat
  sha256 : Option Text
deriving DecidableEq

/-- What a download leaves at its destination, and how it ends. -/
structure Landing where
  bytes : Option (List UInt8)
  modified : Nat
  error : Option Text

/-- The answers of the Hub and of its clients. -/
structure Hub where
  fetcher : Except Text Unit
  client : Except Text Unit
  makeDir : Except Text Unit
  files : Text → Except Text (List Text)
  headMetadata : Text → Except Text FileMeta
  download : Text → Text → Landing

def Hub.siblingsAll (hub : Hub) (repo : Text) : Except Text (List Text) :=
  (hub.files repo).map (List.insertionSort (· ≤ ·))

/-- An error, or a slice inside a character. -/
inductive Failure where
  | error (message : Text)
  | panic
deriving DecidableEq

/-- Resolve to the exact filename, expanding quant tags through the sibling
listing. -/
def resolveHf (machine : Machine) (hub : Hub) (ref : HfRef) :
    Except Failure Text :=
  if ".gguf".toList.isSuffixOf (machine.lowercase ref.fileOrQuant) then
    .ok ref.fileOrQuant
  else
    match hub.siblingsAll ref.repo with
    | .error error => .error (.error error)
    | .ok all =>
      match ggufNames all with
      | none => .error .panic
      | some siblings =>
        match pickQuant machine siblings ref.fileOrQuant with
        | some file => .ok file
        | none =>
          .error (.error (message ["no .gguf matching ".toList,
            machine.quoted ref.fileOrQuant, " in ".toList, ref.repo]))

/-! ## Verification -/

/-- A pulled (or already-present) model file. -/
structure PulledModel where
  path : Place
  repo : Text
  file : Text
  size : Nat
  fresh : Bool
deriving DecidableEq

/-- What a download left, with what the Hub had declared. -/
structure Download where
  dest : Place
  bytes : List UInt8
  declared : FileMeta
deriving DecidableEq

/-- What is before the last dot of a name, unless the name begins there. -/
def stem (name : Text) : Text :=
  let front := ((name.reverse.dropWhile (· ≠ '.')).drop 1).reverse
  if front = [] then name else front

/-- `with_extension("verified")` -/
def sidecarFor (dest : Place) : Place :=
  match dest.getLast? with
  | none => dest
  | some name => dest.dropLast ++ [stem name ++ ".verified".toList]

def readSidecar (disk : Disk) (dest : Place) : Option Verified :=
  find (sidecarFor dest) disk.sidecars

def writeSidecar (process : Process) (disk : Disk) (dest : Place)
    (size : Nat) (sha256 : Text) : Disk :=
  { disk with
    sidecars :=
      put (sidecarFor dest) ⟨size, sha256, process.now⟩ disk.sidecars }

section

variable (machine : Machine) (process : Process)

/-- The sidecar is of this size and digest, and not older than the file. -/
def sidecarHolds (disk : Disk) (dest : Place) (found : File)
    (declared : FileMeta) : Bool :=
  match readSidecar disk dest with
  | none => false
  | some verified =>
    verified.size = found.bytes.length ∧
      declared.sha256 = some verified.sha256 ∧
        ¬ verified.verifiedAt < found.modified

/-- Fast path when the file is already on disk and verification matches Hub
metadata. -/
def cachedIfVerified (disk : Disk) (dest : Place) (declared : FileMeta)
    (repo file : Text) : Option (PulledModel × Disk) :=
  match disk.file dest with
  | none => none
  | some found =>
    let size := found.bytes.length
    let hit : PulledModel := ⟨dest, repo, file, size, false⟩
    if declared.size ≠ some size then none
    else if sidecarHolds disk dest found declared then some (hit, disk)
    else
      match declared.sha256 with
      | none => none
      | some expected =>
        if machine.sha256 found.bytes = expected then
          some (hit, writeSidecar process disk dest size expected)
        else none

def sizeError (dest : Place) (size expected : Nat) : Text :=
  message ["size mismatch for ".toList, fullPath dest, ": got ".toList,
    showNat size, ", want ".toList, showNat expected]

def digestError (dest : Place) : Text :=
  message ["sha256 mismatch for ".toList, fullPath dest]

/-- Size and digest check of a downloaded file; writes the sidecar.  A file of
another digest is removed. -/
def verifyDownloaded (disk : Disk) (dest : Place) (declared : FileMeta) :
    Except Text Nat × Disk :=
  let bytes := ((disk.file dest).map File.bytes).getD []
  let size := bytes.length
  match declared.size.filter (· ≠ size) with
  | some expected => (.error (sizeError dest size expected), disk)
  | none =>
    match declared.sha256 with
    | none => (.ok size, disk)
    | some expected =>
      if machine.sha256 bytes = expected then
        (.ok size, writeSidecar process disk dest size expected)
      else (.error (digestError dest), disk.remove dest)

/-! ## Downloads -/

/-- The bytes that land at a place; the root is no file. -/
def Landing.at (landing : Landing) (dest : Place) : Option (List UInt8) :=
  if dest = [] then none else landing.bytes

def Disk.land (disk : Disk) (dest : Place) (landing : Landing) : Disk :=
  match landing.at dest with
  | none => disk
  | some bytes => disk.write dest ⟨bytes, landing.modified⟩

def downloadError (repo file error : Text) : Text :=
  message ["download ".toList, repo, "/".toList, file, ": ".toList, error]

def missingError (dest : Place) : Text :=
  message ["download finished but ".toList, fullPath dest, " missing".toList]

/-- The download of one file, and its verification. -/
def fetch (hub : Hub) (disk : Disk) (repo file : Text) (dest : Place)
    (declared : FileMeta) : Except Text Nat × Disk × List Download :=
  let landing := hub.download repo file
  let landed := disk.land dest landing
  let downloads :=
    (landing.at dest).toList.map fun bytes => ⟨dest, bytes, declared⟩
  match landing.error with
  | some error => (.error (downloadError repo file error), landed, downloads)
  | none =>
    if landed.isFile dest then
      let (size, disk) :=
        verifyDownloaded machine process landed dest declared
      (size, disk, downloads)
    else (.error (missingError dest), landed, downloads)

end

/-! ## Pulls -/

/-- How a pull ends: its result, the disk behind it, and what was downloaded
on the way. -/
structure Attempt where
  result : Except Failure PulledModel
  disk : Disk
  downloads : List Download

def Attempt.failed (disk : Disk) (error : Text) : Attempt :=
  ⟨.error (.error error), disk, []⟩

def Disk.makeDir (disk : Disk) (dir : Place) : Disk :=
  { disk with dirs := dir :: disk.dirs }

def makeDirError (dir : Place) (error : Text) : Text :=
  message ["mkdir ".toList, fullPath dir, ": ".toList, error]

def clientError (error : Text) : Text :=
  message ["hub client: ".toList, error]

section

variable (machine : Machine) (process : Process) (hub : Hub)

/-- The pull of a file that is not there yet. -/
def download (disk : Disk) (repo file : Text) (dest : Place)
    (declared : FileMeta) : Attempt :=
  match hub.client with
  | .error error => .failed disk (clientError error)
  | .ok () =>
    match hub.makeDir with
    | .error error => .failed disk (makeDirError (repoDir process repo) error)
    | .ok () =>
      let disk := disk.makeDir (repoDir process repo)
      match fetch machine process hub disk repo file dest declared with
      | (.error error, disk, downloads) =>
        ⟨.error (.error error), disk, downloads⟩
      | (.ok size, disk, downloads) =>
        match checkSizeLimit process size repo file with
        | .error error => ⟨.error (.error error), disk, downloads⟩
        | .ok () => ⟨.ok ⟨dest, repo, file, size, true⟩, disk, downloads⟩

/-- A size that is declared is checked before the download. -/
def checkDeclared (declared : FileMeta) (repo file : Text) :
    Except Text Unit :=
  match declared.size with
  | none => .ok ()
  | some size => checkSizeLimit process size repo file

/-- The pull of one GGUF file. -/
def pullFile (disk : Disk) (ref : HfRef) : Attempt :=
  match hub.fetcher with
  | .error error => .failed disk error
  | .ok () =>
    match resolveHf machine hub ref with
    | .error failure => ⟨.error failure, disk, []⟩
    | .ok file =>
      match hub.headMetadata (resolveHfUrl ref.repo file) with
      | .error error => .failed disk error
      | .ok declared =>
        match checkDeclared process declared ref.repo file with
        | .error error => .failed disk error
        | .ok () =>
          let dest := goto (repoDir process ref.repo) file
          match cachedIfVerified machine process disk dest declared ref.repo
              file with
          | some (hit, disk) => ⟨.ok hit, disk, []⟩
          | none =>
            download machine process hub disk ref.repo file dest declared

def isSnapshotFile (name : Text) : Bool :=
  '/' ∉ name ∧
    (".safetensors".toList.isSuffixOf name ∨
      ".index.json".toList.isSuffixOf name ∨
        name ∈ ["config.json".toList, "tokenizer.json".toList,
          "tokenizer_config.json".toList, "generation_config.json".toList,
          "preprocessor_config.json".toList,
          "chat_template.jinja".toList])

/-- The files of a snapshot one after the other, with the sum of their sizes,
whether one was fresh, and what was downloaded. -/
def pullFiles (repo : Text) (dir : Place) :
    Disk → List Download → Nat → Bool → List Text →
      Except Text (Nat × Bool) × Disk × List Download
  | disk, downloads, total, fresh, [] =>
    (.ok (total, fresh), disk, downloads)
  | disk, downloads, total, fresh, file :: files =>
    match hub.headMetadata (resolveHfUrl repo file) with
    | .error error => (.error error, disk, downloads)
    | .ok declared =>
      let dest := goto dir file
      match cachedIfVerified machine process disk dest declared repo file with
      | some (hit, disk) =>
        pullFiles repo dir disk downloads (total + hit.size) fresh files
      | none =>
        match fetch machine process hub disk repo file dest declared with
        | (.error error, disk, more) =>
          (.error error, disk, downloads ++ more)
        | (.ok size, disk, more) =>
          pullFiles repo dir disk (downloads ++ more) (total + size) true
            files

/-- The pull of a snapshot. -/
def pullSafetensors (disk : Disk) (repo : Text) : Attempt :=
  match hub.fetcher with
  | .error error => .failed disk error
  | .ok () =>
    match hub.siblingsAll repo with
    | .error error => .failed disk error
    | .ok siblings =>
      let wanted := siblings.filter isSnapshotFile
      if "config.json".toList ∉ siblings then
        .failed disk (message [repo,
          (": no config.json among repo files — not a transformers " ++
            "snapshot (`runa pull hf:<repo>:safetensors` needs one)").toList])
      else if ¬ wanted.any (".safetensors".toList.isSuffixOf ·) then
        .failed disk (message [repo,
          (": no .safetensors weights among repo files — nothing for " ++
            "the mistral backend to load").toList])
      else
        match hub.client with
        | .error error => .failed disk (clientError error)
        | .ok () =>
          let dir := repoDir process repo
          match hub.makeDir with
          | .error error => .failed disk (makeDirError dir error)
          | .ok () =>
            match pullFiles machine process hub repo dir (disk.makeDir dir)
                [] 0 false wanted with
            | (.error error, disk, downloads) =>
              ⟨.error (.error error), disk, downloads⟩
            | (.ok (total, fresh), disk, downloads) =>
              ⟨.ok ⟨dir, repo, "safetensors".toList, total, fresh⟩, disk,
                downloads⟩

def pull (disk : Disk) (ref : Text) : Attempt :=
  match parseModelRef machine (isLocalFile process disk ref) ref with
  | .error error => .failed disk error
  | .ok (.hf ref) =>
    if isSafetensorsTag ref.fileOrQuant then
      pullSafetensors machine process hub disk ref.repo
    else pullFile machine process hub disk ref
  | .ok _ =>
    .failed disk (message [ref,
      ": `pull` takes `hf:<repo>:<file-or-quant>`".toList])

end

/-! ## Lookups -/

section

variable (machine : Machine) (process : Process) (disk : Disk)

/-- A file or a directory of this path. -/
def literal (ref : Text) : Option Place :=
  let place := goto (workDir process) ref
  if isLocalFile process disk ref ∨ ref ≠ [] ∧ disk.isDir place then
    some place
  else none

def isMistralDir (dir : Place) : Bool :=
  disk.isDir dir && disk.isFile (goto dir "config.json".toList)

/-- The names in a directory that end in `.gguf`, sorted. -/
def storedNames (dir : Place) : List Text :=
  ((disk.names dir).filter fun name =>
    ".gguf".toList.isSuffixOf (machine.lowercase name)).insertionSort (· ≤ ·)

def notDownloaded (ref : Text) : Text :=
  message [ref, " not downloaded — `runa pull ".toList, ref,
    "` first (P2.4)".toList]

/-- Store lookup of an `hf:` reference. -/
def findStored (text : Text) (ref : HfRef) : Except Text Place :=
  let dir := repoDir process ref.repo
  if isSafetensorsTag ref.fileOrQuant then
    if isMistralDir disk dir then .ok dir
    else
      .error (message ["hf:".toList, ref.repo,
        ":safetensors not downloaded — `runa pull hf:".toList, ref.repo,
        ":safetensors` first (P9.2)".toList])
  else if ".gguf".toList.isSuffixOf (machine.lowercase ref.fileOrQuant) then
    if disk.isFile (goto dir ref.fileOrQuant) then
      .ok (goto dir ref.fileOrQuant)
    else .error (notDownloaded text)
  else if disk.isDir dir then
    match pickQuant machine (storedNames machine disk dir)
        ref.fileOrQuant with
    | some best => .ok (goto dir best)
    | none => .error (notDownloaded text)
  else .error (notDownloaded text)

/-- The first file of a name anywhere in the store. -/
def findBareFilename (name : Text) : Option Place :=
  (process.order ((disk.files.map Prod.fst).filter fun place =>
    (modelsDir process).isPrefixOf place &&
      decide (place ≠ modelsDir process) &&
        decide (place.getLast? = some name))).head?

def findBare (ref : Text) : Except Text Place :=
  match findBareFilename process disk ref with
  | some place => .ok place
  | none =>
    if "hf:".toList.isPrefixOf ref then
      .error (message [ref, ": not downloaded — `runa pull ".toList, ref,
        "` first (P2.4)".toList])
    else
      .error (message [ref,
        ": no such model file (and no alias by that name)".toList])

/-- What is looked for behind the literal path and the aliases. -/
def findInStore (ref : Text) : Except Text Place :=
  match parseModelRef machine (isLocalFile process disk ref) ref with
  | .ok (.hf hf) => findStored machine process disk ref hf
  | .ok (.url _) =>
    .error (message [ref,
      ": direct URLs are not stored — download it first".toList])
  | .ok (.path _) => findBare process disk ref
  | .error _ => findBare process disk ref

/-- `find_local` without aliases -/
def findUnaliased (ref : Text) : Except Text Place :=
  match literal process disk ref with
  | some place => .ok place
  | none => findInStore machine process disk ref

/-- Resolve a model reference against local files, aliases and the store. -/
def findLocal (aliases : Text → Option Text) (ref : Text) :
    Except Text Place :=
  match literal process disk ref with
  | some place => .ok place
  | none =>
    match aliases ref with
    | some target =>
      if target = ref then
        .error (message ["alias ".toList, ref, " points at itself".toList])
      else findUnaliased machine process disk target
    | none => findInStore machine process disk ref

end

end Runa.App.Pull
