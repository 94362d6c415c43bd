import Runa.App.Config
import Runa.App.Pool

/-!
# Loading

What a model is loaded with: the backend that its path calls for
(`runa-core/src/backend.rs`), the cache types and the adapters
(`runa-engine/src/load.rs`, `lora.rs`), the flags that shape a placement
(`placement.rs`), and the adapters of the configuration (`resolve_loras` of
`runa/src/config.rs`).  Two functions of the standard library are parameters:
the `Debug` form of a text and the parser of an `f32`.
-/

namespace Runa.App.Loading

open Runa.App.Config
open Runa.App.Pool (BackendKind Path)
open Runa.Engine.Placements
open Runa.Store
open Runa.Stream.Lines (trim)
open Runa.Stream.Utf8

/-- `Debug` of a text, and `str::parse::<f32>`, which finds no number, one
that is not finite, or a number. -/
structure Std where
  quoted : Text → Text
  parseF32 : Text → Option (Option Rat)

/-! ## The backend -/

/-- What is at a path. -/
inductive Entry where
  | file
  | directory
  | other
deriving DecidableEq

/-- The file system as a process sees it. -/
structure View where
  cwd : Path
  entry : Path → Option Entry

namespace View

/-- A path from the root. -/
def located (view : View) (path : Path) : Path :=
  if path.head? = some '/' then path else join view.cwd path

def isFile (view : View) (path : Path) : Bool :=
  view.entry (view.located path) = some .file

def isDir (view : View) (path : Path) : Bool :=
  view.entry (view.located path) = some .directory

def «exists» (view : View) (path : Path) : Bool :=
  (view.entry (view.located path)).isSome

end View

/-- The last component of a path. -/
def fileName (path : Path) : Option Text :=
  let parts :=
    (path.splitOn '/').filter fun part => part ≠ [] ∧ part ≠ ['.']
  parts.getLast?.filter (· ≠ "..".toList)

/-- What is behind the last dot of a name, unless the name begins there. -/
def extension (path : Path) : Option Text :=
  (fileName path).bind fun name =>
    if (name.reverse.dropWhile (· ≠ '.')).drop 1 = [] then none
    else some (name.reverse.takeWhile (· ≠ '.')).reverse

/-- `--backend`: `auto` | `gguf` | `mistral` -/
def parseBackend (text : Text) : Option BackendKind :=
  let name := lower (trim text)
  if name = "auto".toList then some .auto
  else if name = "gguf".toList then some .gguf
  else if name = "mistral".toList then some .mistral
  else none

section

variable (view : View) (path : Path)

def isGgufFile : Bool :=
  view.isFile path &&
    ((extension (view.located path)).map lower == some "gguf".toList)

def isMistralDir : Bool :=
  view.isDir path &&
    view.entry (join (view.located path) "config.json".toList) == some .file

def detectBackend : Except Text BackendKind :=
  if isGgufFile view path then .ok .gguf
  else if isMistralDir view path then .ok .mistral
  else if !view.exists path then
    .error (message [path, (": no such model file or directory " ++
      "(pass a .gguf file or a mistral model directory)").toList])
  else if view.isDir path then
    .error (message [path, (": directory without config.json is not a " ++
      "mistral model directory (`runa pull hf:<repo>:safetensors` lays " ++
      "one out; pass --backend to override)").toList])
  else
    .error (message [path, (": cannot detect backend (not a .gguf file); " ++
      "pass --backend gguf|mistral").toList])

/-- A kind that is given is checked against the path. -/
def checkBackend : BackendKind → Except Text BackendKind
  | .auto =>
    .error "detection always returns a concrete backend".toList
  | .gguf =>
    if isGgufFile view path then .ok .gguf
    else
      .error (message [path, (": --backend gguf needs a .gguf file " ++
        "(this path is not one)").toList])
  | .mistral =>
    if isMistralDir view path then .ok .mistral
    else
      .error (message [path, (": --backend mistral needs a model " ++
        "directory holding config.json (`runa pull " ++
        "hf:<repo>:safetensors` lays one out)").toList])

def resolveBackend (requested : BackendKind) : Except Text BackendKind :=
  match requested with
  | .auto => (detectBackend view path).bind (checkBackend view path)
  | kind => checkBackend view path kind

end

/-- The kind, if the binary was built with its backend. -/
def ensureBackendAvailable (mistralrs : Bool) : BackendKind →
    Except Text BackendKind
  | .mistral =>
    if mistralrs then .ok .mistral
    else
      .error ("mistral backend: this runa binary has no mistral backend; " ++
        "rebuild with --features mistralrs").toList
  | kind => .ok kind

def resolveRequested (view : View) (mistralrs : Bool)
    (requested : BackendKind) (path : Path) : Except Text BackendKind :=
  (resolveBackend view path requested).bind
    (ensureBackendAvailable mistralrs)

/-! ## Cache types -/

inductive KvKind where
  | f16
  | q8_0
  | q4_0
deriving DecidableEq, Repr

def KvKind.asStr : KvKind → Text
  | .f16 => "f16".toList
  | .q8_0 => "q8_0".toList
  | .q4_0 => "q4_0".toList

def KvKind.rank : KvKind → Nat
  | .f16 => 2
  | .q8_0 => 1
  | .q4_0 => 0

section

variable (std : Std)

def KvKind.parse (text : Text) : Except Text KvKind :=
  let name := lower (trim text)
  if name = "f16".toList ∨ name = "fp16".toList then .ok .f16
  else if name = "q8_0".toList ∨ name = "q8".toList then .ok .q8_0
  else if name = "q4_0".toList ∨ name = "q4".toList then .ok .q4_0
  else
    .error (message ["unknown kv type ".toList, std.quoted name,
      "; expected f16, q8_0, or q4_0".toList])

def parseKvKind (raw : Text) : Except Text KvKind :=
  match KvKind.parse std raw with
  | .ok kind => .ok kind
  | .error error => .error ("--kv: ".toList ++ error)

/-- The type of a flag that is given, or else the one for both. -/
def kvOr (both : Option KvKind) : Option Text → Except Text (Option KvKind)
  | some text => (parseKvKind std text).map some
  | none => .ok both

def resolveKv (kv kvK kvV : Option Text) :
    Except Text (Option KvKind × Option KvKind) := do
  let both ← kvOr std none kv
  let k ← kvOr std both kvK
  let v ← kvOr std both kvV
  return (k, v)

end

/-- The larger type, for the planner. -/
def plannerKvType (k v : Option KvKind) : Text :=
  let kk := k.getD .f16
  let vv := v.getD .f16
  if vv.rank ≤ kk.rank then kk.asStr else vv.asStr

/-! ## Placements -/

/-- `parse_mode_choice`: no placement for `auto` -/
def parseModeChoice (mode : Text) : Except Text (Option Placement) :=
  if lower mode = "auto".toList then .ok none
  else if mode = "cpu".toList then .ok (some .cpu)
  else if mode = "gpu".toList then .ok (some .gpu)
  else if mode = "hybrid".toList then .ok (some .hybridMoe)
  else
    .error (message
      [mode, ": --mode must be cpu | gpu | hybrid | auto".toList])

/-- The parts between commas, without blanks around them. -/
def listed (flag : String) (text : Text) : Except Text (List Text) :=
  let parts := ((text.splitOn ',').map trim).filter (· ≠ [])
  if parts = [] then .error (flag ++ ": empty list").toList else .ok parts

def parseDeviceList : Text → Except Text (List Text) :=
  listed "--device"

def parseRpcList : Text → Except Text (List Text) :=
  listed "--rpc"

section

variable (std : Std)

/-- One share of a tensor split. -/
def parseShare (part : Text) : Except Text Rat :=
  match std.parseF32 part with
  | none =>
    .error ("--tensor-split: not a number: ".toList ++ part)
  | some number =>
    match number.filter (0 ≤ ·) with
    | none =>
      .error (message
        ["--tensor-split: ".toList, part, " must be a finite >= 0".toList])
    | some share => .ok share

def parseTensorSplit (text : Text) : Except Text (List Rat) := do
  let shares ← (((text.splitOn ',').map trim).filter (· ≠ [])).mapM
    (parseShare std)
  if shares = [] then .error "--tensor-split: empty list".toList
  else if shares.all (· = 0) then .error "--tensor-split: all zeros".toList
  else .ok shares

end

/-! ## Adapters -/

/-- An adapter file with the scale it is applied with. -/
structure LoraSpec where
  path : Path
  scale : Rat
deriving DecidableEq, Repr

def defaultLoraScale : Rat := 1

/-- `rsplit_once(':')` -/
def rsplitColon (text : Text) : Option (Text × Text) :=
  if ':' ∈ text then
    some (((text.reverse.dropWhile (· ≠ ':')).drop 1).reverse,
      (text.reverse.takeWhile (· ≠ ':')).reverse)
  else none

/-- The path and the scale behind its last colon, if that is a number. -/
def scaled (std : Std) (spec : Text) : Option LoraSpec := do
  let (head, tail) ← rsplitColon spec
  if head = [] then none
  else
    let number ← std.parseF32 tail
    number.map fun scale => ⟨head, scale⟩

/-- `path[:scale]` -/
def parseLoraSpec (std : Std) (raw : Text) : Except Text LoraSpec :=
  let spec := trim raw
  if spec = [] then .error "--lora needs a path".toList
  else .ok ((scaled std spec).getD ⟨spec, defaultLoraScale⟩)

/-- A `lora` value is one string or an array of strings. -/
def loraStrings (value : Option Toml) (origin sectionName : Text) :
    Except Text (List Text) :=
  let refused := message [origin, ": ".toList, sectionName,
    " lora must be a string or array of strings".toList]
  match value with
  | none => .ok []
  | some (.string text) => .ok [text]
  | some (.array items) =>
    match items.mapM Toml.asStr with
    | some texts => .ok texts
    | none => .error refused
  | some _ => .error refused

/-- The adapters of an alias, with its name and its source. -/
structure AliasLoras where
  name : Text
  source : Text
  specs : List Text

/-- The adapters of one file. -/
structure FileLoras where
  origin : Text
  global : List Text
  perAlias : List AliasLoras

def aliasLoras (origin : Text) (named : Text × Toml) :
    Except Text (Option AliasLoras) :=
  match named.2.get "lora" with
  | none => .ok none
  | some lora =>
    (loraStrings (some lora) origin
      (message ["[models.".toList, named.1, "]".toList])).map fun specs =>
        some
          ⟨named.1, ((named.2.get "source").bind Toml.asStr).getD [],
            specs⟩

def loraListsFromToml (origin : Text) (value : Toml) :
    Except Text (Option FileLoras) := do
  let global ←
    match value.get "model" with
    | none => .ok []
    | some model => loraStrings (model.get "lora") origin "[model]".toList
  let perAlias ←
    match (value.get "models").bind Toml.asTable with
    | none => .ok []
    | some models => models.mapM (aliasLoras origin)
  return some ⟨origin, global, perAlias.filterMap id⟩

/-- Whether a model reference names an alias. -/
def AliasLoras.named (entry : AliasLoras) (modelRef : Text) : Bool :=
  modelRef = entry.name || (entry.source ≠ [] && modelRef = entry.source)

/-- The adapters of one file for a model, each with where it is from. -/
def FileLoras.raws (file : FileLoras) (modelRef : Text) :
    List (Text × Text) :=
  file.global.map (message [file.origin, " [model]".toList], ·) ++
    (file.perAlias.filter (·.named modelRef)).flatMap fun entry =>
      entry.specs.map
        (message [file.origin, " [models.".toList, entry.name,
          "]".toList], ·)

/-- Global adapters, then those of the alias, then the flags. -/
def selectLoraRaws (files : List FileLoras) (modelRef : Text)
    (cli : List Text) : List (Text × Text) :=
  files.flatMap (·.raws modelRef) ++ cli.map ("--lora".toList, ·)

def resolveLoras (std : Std) (cli : List Text) (modelRef : Text)
    (files : List Source) : Except Text (List LoraSpec) := do
  let lists ← files.mapM (readSource loraListsFromToml)
  (selectLoraRaws (lists.filterMap id) modelRef cli).mapM fun raw =>
    match parseLoraSpec std raw.2 with
    | .ok spec => .ok spec
    | .error error =>
      .error (message [raw.1, ": lora ".toList, std.quoted raw.2,
        ": ".toList, error])

/-! ## The configuration of a load -/

/-- Load-time configuration. -/
structure LoadConfig where
  nCtx : UInt32
  threads : Option Int
  kvK : Option KvKind
  kvV : Option KvKind
  mmproj : Option Path
  loras : List LoraSpec
deriving DecidableEq, Repr

def LoadConfig.default : LoadConfig where
  nCtx := 4096
  threads := none
  kvK := none
  kvV := none
  mmproj := none
  loras := []

end Runa.App.Loading
