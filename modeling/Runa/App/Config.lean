import Runa.Json.Value
import Runa.Layered.Sources
import Runa.Memory.Manager
import Runa.Memory.Registry

/-!
# The configuration

The resolvers of `runa/src/config.rs`: each takes a setting from the command
line, the environment or one of two files, by a loop of its own over the same
list of files.  A file stands for what the TOML reader makes of it; the two
directories of the files come from the environment.
-/

namespace Runa.App.Config

open Runa.Stream.Utf8
open Runa.Stream.Lines
open Runa.Store
open Runa.Layered.Sources
open Runa.Memory.Registry (digits parseU32)
open Runa.Memory.Manager (MemoryPolicy)

/-! ## Values and files -/

/-- `toml::Value`; a table is in key order, a float is its bits. -/
inductive Toml where
  | string (value : Text)
  | integer (value : Int)
  | float (bits : UInt64)
  | boolean (value : Bool)
  | datetime (value : Text)
  | array (items : List Toml)
  | table (entries : List (Text × Toml))

namespace Toml

/-- `as_table` -/
def asTable : Toml → Option (List (Text × Toml))
  | .table entries => some entries
  | _ => none

/-- `get` with a key -/
def get (key : String) (value : Toml) : Option Toml :=
  value.asTable.bind (Ordered.find key.toList)

def asStr : Toml → Option Text
  | .string value => some value
  | _ => none

def asArray : Toml → Option (List Toml)
  | .array items => some items
  | _ => none

end Toml

/-- What is at a path: nothing that can be read, a text that is refused for
its keys or is no TOML, or a table. -/
inductive File where
  | missing
  | refused (error : Text)
  | toml (value : Toml)

/-- A file with its path, which is what its errors begin with. -/
structure Source where
  origin : Text
  file : File

/-- `std::env::var`, where it is a text -/
abbrev Env := String → Option Text

/-- `Path::join` of a relative path -/
def join (path rest : Text) : Text :=
  if path.getLast? = some '/' then path ++ rest else path ++ '/' :: rest

/-- The file under the home directory, if there is one. -/
def homePaths (env : Env) : List Text :=
  match env "HOME" with
  | none => []
  | some home =>
    if home = [] then []
    else [join home ".config/runa/config.toml".toList]

/-- Candidate config files in increasing precedence. -/
def configPaths (env : Env) : List Text :=
  homePaths env ++ ["runa.toml".toList]

def source (disk : Text → File) (path : Text) : Source :=
  ⟨path, disk path⟩

def sources (env : Env) (disk : Text → File) : List Source :=
  (configPaths env).map (source disk)

/-- `read_config_text` and the TOML reader; a setting is then read from the
table, if there is a file. -/
def readSource {α : Type} (read : Text → Toml → Except Text (Option α))
    (source : Source) : Except Text (Option α) :=
  match source.file with
  | .missing => .ok none
  | .refused error => .error error
  | .toml value => read source.origin value

/-! ## Numbers and messages -/

/-- The value of decimal digits. -/
def decimal (text : Text) : Nat :=
  text.foldl (fun sum char => 10 * sum + (char.toNat - 48)) 0

/-- `str::parse::<i32>` -/
def parseI32 : Text → Option Int
  | '-' :: rest =>
    if digits rest ∧ decimal rest ≤ 2 ^ 31 then some (-decimal rest)
    else none
  | '+' :: rest =>
    if digits rest ∧ decimal rest < 2 ^ 31 then some (decimal rest)
    else none
  | text =>
    if digits text ∧ decimal text < 2 ^ 31 then some (decimal text)
    else none

/-- `str::parse::<u64>` -/
def parseU64 (text : Text) : Option Nat :=
  let number :=
    match text with
    | '+' :: rest => rest
    | _ => text
  if digits number ∧ decimal number < 2 ^ 64 then some (decimal number)
  else none

/-- The parts of a message. -/
def message (parts : List Text) : Text :=
  parts.flatten

def showInt (value : Int) : Text :=
  (toString value).toList

/-! ## Threads -/

def checkThreads (n : Int) (origin : Text) : Except Text (Option Int) :=
  if n < 1 then
    .error (message
      [origin, ": threads must be >= 1 (got ".toList, showInt n,
        ")".toList])
  else .ok (some n)

def defaultsThreadsFromToml (origin : Text) (value : Toml) :
    Except Text (Option Int) :=
  match (value.get "defaults").bind Toml.asTable with
  | none => .ok none
  | some table =>
    match Ordered.find "threads".toList table with
    | none => .ok none
    | some (.integer n) =>
      if 1 ≤ n ∧ n < 2147483648 then .ok (some n)
      else
        .error (message
          [origin, ": defaults.threads must be an integer >= 1".toList])
    | some _ =>
      .error (message
        [origin, ": defaults.threads must be an integer >= 1".toList])

/-- CLI `--threads` > `RUNA_THREADS` > `[defaults] threads` > engine
default. -/
def resolveThreads (cli : Option Int) (env : Env) (files : List Source) :
    Except Text (Option Int) :=
  match cli with
  | some n => checkThreads n "--threads".toList
  | none =>
    match (env "RUNA_THREADS").filter fun text => !(trim text).isEmpty with
    | some text =>
      match parseI32 (trim text) with
      | some n => checkThreads n "RUNA_THREADS".toList
      | none =>
        .error (message
          ["RUNA_THREADS=".toList, text,
            ": expected an integer >= 1".toList])
    | none =>
      match readLast (readSource defaultsThreadsFromToml) none files with
      | .error error => .error error
      | .ok none => .ok none
      | .ok (some n) => checkThreads n "[defaults] threads".toList

/-! ## The load cap -/

/-- Default cap on the share of total system resources, in percent. -/
def defaultMaxLoadPercent : Nat := 80

def checkMaxLoad (n : Int) (origin : Text) : Except Text Nat :=
  if 1 ≤ n ∧ n ≤ 100 then .ok n.toNat
  else
    .error (message
      [origin, ": max_load_percent must be 1..=100 (got ".toList,
        showInt n, ")".toList])

def maxLoadFromToml (origin : Text) (value : Toml) :
    Except Text (Option Nat) :=
  match (value.get "system").bind Toml.asTable with
  | none => .ok none
  | some table =>
    match Ordered.find "max_load_percent".toList table with
    | none => .ok none
    | some (.integer n) =>
      if 1 ≤ n ∧ n ≤ 100 then .ok (some n.toNat)
      else
        .error (message
          [origin,
            ": system.max_load_percent must be an integer 1..=100".toList])
    | some _ =>
      .error (message
        [origin,
          ": system.max_load_percent must be an integer 1..=100".toList])

/-- CLI `--max-load-percent` > `RUNA_MAX_LOAD_PERCENT` >
`[system] max_load_percent` > 80. -/
def resolveMaxLoadPercent (cli : Option Nat) (env : Env)
    (files : List Source) : Except Text Nat :=
  match cli with
  | some n => checkMaxLoad n "--max-load-percent".toList
  | none =>
    match (env "RUNA_MAX_LOAD_PERCENT").filter
        fun text => !(trim text).isEmpty with
    | some text =>
      match parseI32 (trim text) with
      | some n => checkMaxLoad n "RUNA_MAX_LOAD_PERCENT".toList
      | none =>
        .error (message
          ["RUNA_MAX_LOAD_PERCENT=".toList, text,
            ": expected an integer 1..=100".toList])
    | none =>
      match readLast (readSource maxLoadFromToml) none files with
      | .error error => .error error
      | .ok none => .ok defaultMaxLoadPercent
      | .ok (some n) =>
        checkMaxLoad n "[system] max_load_percent".toList

/-! ## What to do with a model that does not fit -/

/-- What to do when the planner returns `NoFit`. -/
inductive OnUnfit where
  | error
  | cpu
  | cloud (spec : Text)
  deriving DecidableEq

/-- `to_ascii_lowercase` -/
def lower (text : Text) : Text :=
  text.map Char.toLower

def OnUnfit.parse (text : Text) : Except Text OnUnfit :=
  let trimmed := trim text
  if lower trimmed = "error".toList then .ok .error
  else if lower trimmed = "cpu".toList then .ok .cpu
  else if "cloud:".toList.isPrefixOf trimmed then
    let rest := trimmed.drop "cloud:".toList.length
    if rest = [] then
      .error "on_unfit cloud: needs backend:model".toList
    else .ok (.cloud rest)
  else
    .error (message
      [trimmed,
        ": on_unfit must be error | cpu | cloud:<backend>:<model>".toList])

def onUnfitFromToml (origin : Text) (value : Toml) :
    Except Text (Option OnUnfit) :=
  match value.get "on_unfit" with
  | none => .ok none
  | some set =>
    match set.asStr with
    | none =>
      .error (message [origin, ": on_unfit must be a string".toList])
    | some text => (OnUnfit.parse text).map some

def loadOnUnfit (env : Env) (files : List Source) : Except Text OnUnfit :=
  match (env "RUNA_ON_UNFIT").filter fun text => !text.isEmpty with
  | some text => OnUnfit.parse text
  | none =>
    (readLast (readSource onUnfitFromToml) none files).map
      (Option.getD · .error)

/-- CLI `--on-unfit` > `RUNA_ON_UNFIT` > config files > `error`. -/
def resolveOnUnfit (cli : Option Text) (env : Env) (files : List Source) :
    Except Text OnUnfit :=
  match cli with
  | some text => OnUnfit.parse text
  | none => loadOnUnfit env files

/-! ## The audio route -/

inductive AudioRoutePref where
  | auto
  | native
  | asr
  deriving DecidableEq

def AudioRoutePref.parse (text : Text) : Except Text AudioRoutePref :=
  let shown := lower (trim text)
  if shown = "auto".toList then .ok .auto
  else if shown = "native".toList then .ok .native
  else if shown = "asr".toList then .ok .asr
  else
    .error (message
      [shown, ": audio.route must be auto | native | asr".toList])

def audioRouteFromToml (origin : Text) (value : Toml) :
    Except Text (Option AudioRoutePref) :=
  match (value.get "audio").bind Toml.asTable with
  | none => .ok none
  | some table =>
    match Ordered.find "route".toList table with
    | none => .ok none
    | some set =>
      match set.asStr with
      | none =>
        .error (message [origin, ": audio.route must be a string".toList])
      | some text =>
        match AudioRoutePref.parse text with
        | .ok route => .ok (some route)
        | .error error => .error (message [origin, ": ".toList, error])

/-- CLI `--audio-route` > `RUNA_AUDIO_ROUTE` > `[audio] route` > `auto`. -/
def resolveAudioRoute (cli : Option Text) (env : Env)
    (files : List Source) : Except Text AudioRoutePref :=
  match cli with
  | some text => AudioRoutePref.parse text
  | none =>
    match ((env "RUNA_AUDIO_ROUTE").map trim).filter
        fun text => !text.isEmpty with
    | some text => AudioRoutePref.parse text
    | none =>
      (readFirst (readSource audioRouteFromToml) files).map
        (Option.getD · .auto)

/-! ## The memory policy -/

def tomlU32 (value : Toml) (origin key : Text) : Except Text Nat :=
  let refused := message
    [origin, ": think.".toList, key, " must be an integer".toList]
  match value with
  | .integer n =>
    if 0 ≤ n ∧ n < 4294967296 then .ok n.toNat else .error refused
  | .string text =>
    match parseU32 text with
    | some n => .ok n
    | none => .error refused
  | _ => .error refused

/-- A key of the table, or what there is without it. -/
def memoryKey (table : List (Text × Toml)) (origin : Text) (key : String)
    (default : UInt64) : Except Text UInt64 :=
  match Ordered.find key.toList table with
  | none => .ok default
  | some value => (tomlU32 value origin key.toList).map UInt64.ofNat

def memoryFromToml (origin : Text) (value : Toml) :
    Except Text (Option MemoryPolicy) :=
  match (value.get "memory").bind Toml.asTable with
  | none => .ok none
  | some table => do
    let policy := MemoryPolicy.default
    let idleTimeoutS ←
      memoryKey table origin "idle_timeout_s" policy.idleTimeoutS
    let floorMib ← memoryKey table origin "floor_mib" policy.floorMib
    let maxGrowthMib ←
      memoryKey table origin "max_growth_mib" policy.maxGrowthMib
    .ok (some ⟨idleTimeoutS, floorMib, maxGrowthMib⟩)

/-- A number from the environment; what is no number counts as not set. -/
def envU64 (env : Env) (name : String) : Option UInt64 :=
  ((env name).bind parseU64).map UInt64.ofNat

def resolveMemoryPolicy (env : Env) (files : List Source) :
    Except Text MemoryPolicy := do
  let parsed ← readFirst (readSource memoryFromToml) files
  let policy := parsed.getD .default
  .ok
    { idleTimeoutS :=
        (envU64 env "RUNA_MEMORY_IDLE_TIMEOUT_S").getD policy.idleTimeoutS
      floorMib := (envU64 env "RUNA_MEMORY_FLOOR_MIB").getD policy.floorMib
      maxGrowthMib :=
        (envU64 env "RUNA_MEMORY_MAX_GROWTH_MIB").getD
          policy.maxGrowthMib }

/-! ## Model aliases -/

/-- A named model alias. -/
structure ModelAlias where
  source : Text
  deriving DecidableEq

/-- The aliases of a table, by name. -/
def mergeAlias (origin : Text) (table : List (Text × ModelAlias))
    (named : Text × Toml) : Except Text (List (Text × ModelAlias)) :=
  match (named.2.get "source").bind Toml.asStr with
  | none =>
    .error (message
      [origin, ": [models.".toList, named.1,
        "] needs a `source` string".toList])
  | some source => .ok (Ordered.put named.1 ⟨source⟩ table)

def mergeAliasesToml (table : List (Text × ModelAlias)) (source : Source) :
    Except Text (List (Text × ModelAlias)) :=
  match source.file with
  | .missing => .ok table
  | .refused error => .error error
  | .toml value =>
    match (value.get "models").bind Toml.asTable with
    | none => .ok table
    | some models => models.foldlM (mergeAlias source.origin) table

/-- Load and merge `[models]` tables. -/
def loadAliases (files : List Source) :
    Except Text (List (Text × ModelAlias)) :=
  files.foldlM mergeAliasesToml []

/-! ## MCP servers -/

/-- A stdio MCP server. -/
structure McpServer where
  name : Text
  command : Text
  args : List Text
  env : List (Text × Text)
  deriving DecidableEq

/-- `args`: no array, or an array of strings. -/
def mcpArgs (entry : Toml) : Option (List Text) :=
  match entry.get "args" with
  | none => some []
  | some args => args.asArray.bind fun items => items.mapM Toml.asStr

/-- `env`: no table, or a table of strings. -/
def mcpEnv (entry : Toml) : Option (List (Text × Text)) :=
  match entry.get "env" with
  | none => some []
  | some env =>
    env.asTable.bind fun entries =>
      entries.mapM fun (key, value) => value.asStr.map fun text => (key, text)

def mergeServer (origin : Text) (servers : List (Text × McpServer))
    (named : Text × Toml) : Except Text (List (Text × McpServer)) :=
  let bad (what : Text) := message
    [origin, ": [mcp.servers.".toList, named.1, "] ".toList, what]
  match (named.2.get "command").bind Toml.asStr with
  | none => .error (bad "needs a `command` string".toList)
  | some command =>
    match mcpArgs named.2 with
    | none => .error (bad "`args` must be an array of strings".toList)
    | some args =>
      match mcpEnv named.2 with
      | none => .error (bad "`env` must be a table of strings".toList)
      | some env =>
        .ok (Ordered.put named.1 ⟨named.1, command, args, env⟩ servers)

def mergeMcpToml (servers : List (Text × McpServer)) (source : Source) :
    Except Text (List (Text × McpServer)) :=
  match source.file with
  | .missing => .ok servers
  | .refused error => .error error
  | .toml value =>
    match ((value.get "mcp").bind (Toml.get "servers")).bind
        Toml.asTable with
    | none => .ok servers
    | some table => table.foldlM (mergeServer source.origin) servers

/-- `[mcp.servers.<name>]` from every config file. -/
def loadMcpServers (files : List Source) : Except Text (List McpServer) :=
  (files.foldlM mergeMcpToml []).map fun servers => servers.map Prod.snd

end Runa.App.Config
