import Runa.App.Config
import Runa.Fallible.Steps

/-!
# Precedence

A setting should be the value from the command line, else that from the
environment, else that from the last file which makes it, else the default.
Six of the resolvers keep to this.  The audio route is taken from the first
file that sets it, and the memory policy from the first file with a
`[memory]` table, whole.
-/

namespace Runa.App.Precedence

open Runa.Stream.Utf8
open Runa.Stream.Lines
open Runa.Store
open Runa.Layered.Sources
open Runa.App.Config
open Runa.Fallible.Steps
open Runa.Memory.Manager (MemoryPolicy)

/-! ## What the sources set -/

/-- What a file sets, if it can be read. -/
def setting {α : Type} (read : Text → Toml → Except Text (Option α))
    (source : Source) : Option α :=
  match readSource read source with
  | .ok made => made
  | .error _ => none

/-- Command line, else environment, else the last file that sets it. -/
def given {α : Type} (cli env : Option α) (files : List (Option α)) :
    Option α :=
  cli.or (env.or (lastSome files))

/-- The options of the command line. -/
structure Cli where
  threads : Option Int
  maxLoadPercent : Option Nat
  onUnfit : Option Text
  audioRoute : Option Text

/-- A variable that is set to more than blanks. -/
def setVariable (env : Env) (name : String) : Option Text :=
  (env name).filter fun text => !(trim text).isEmpty

def envThreads (env : Env) : Option Int :=
  ((setVariable env "RUNA_THREADS").bind
    fun text => parseI32 (trim text)).filter fun n => 1 ≤ n

def envMaxLoad (env : Env) : Option Nat :=
  (((setVariable env "RUNA_MAX_LOAD_PERCENT").bind
    fun text => parseI32 (trim text)).filter
      fun n => 1 ≤ n ∧ n ≤ 100).map Int.toNat

def setOnUnfit (env : Env) : Option Text :=
  (env "RUNA_ON_UNFIT").filter fun text => !text.isEmpty

def setAudioRoute (env : Env) : Option Text :=
  ((env "RUNA_AUDIO_ROUTE").map trim).filter fun text => !text.isEmpty

/-- What a text stands for, if it is given and can be read. -/
def meaning {α : Type} (parse : Text → Except Text α)
    (text : Option Text) : Option α :=
  text.bind fun text => (parse text).toOption

/-- A key of the `[memory]` table of a file. -/
def memorySetting (key : String) : Source → Option UInt64 :=
  setting fun origin value =>
    match (value.get "memory").bind Toml.asTable with
    | none => .ok none
    | some table =>
      match Ordered.find key.toList table with
      | none => .ok none
      | some held =>
        (tomlU32 held origin key.toList).map fun n => some (UInt64.ofNat n)

/-- What an entry of a `[models]` table stands for. -/
def aliasOf (entry : Toml) : Option ModelAlias :=
  ((entry.get "source").bind Toml.asStr).map ModelAlias.mk

/-- An alias that a file makes. -/
def aliasSetting (name : Text) : Source → Option ModelAlias :=
  setting fun _ value =>
    .ok ((((value.get "models").bind Toml.asTable).bind
      (Ordered.find name)).bind aliasOf)

/-- What an entry of `[mcp.servers]` stands for. -/
def serverOf (name : Text) (entry : Toml) : Option McpServer :=
  ((entry.get "command").bind Toml.asStr).bind fun command =>
    (mcpArgs entry).bind fun args =>
      (mcpEnv entry).map fun env => ⟨name, command, args, env⟩

/-- A server that a file makes. -/
def serverSetting (name : Text) : Source → Option McpServer :=
  setting fun _ value =>
    .ok (((((value.get "mcp").bind (Toml.get "servers")).bind
      Toml.asTable).bind (Ordered.find name)).bind (serverOf name))

/-! ## Valid files -/

/-- A file that no reader refuses, with its tables in key order. -/
structure Valid (source : Source) : Prop where
  threads : ∃ made, readSource defaultsThreadsFromToml source = .ok made
  maxLoad : ∃ made, readSource maxLoadFromToml source = .ok made
  onUnfit : ∃ made, readSource onUnfitFromToml source = .ok made
  audio : ∃ made, readSource audioRouteFromToml source = .ok made
  memory : ∃ made, readSource memoryFromToml source = .ok made
  aliases : ∀ table, ∃ next, mergeAliasesToml table source = .ok next
  servers : ∀ table, ∃ next, mergeMcpToml table source = .ok next
  models : ∀ value entries, source.file = .toml value →
    (value.get "models").bind Toml.asTable = some entries →
      Ordered.Ascending entries
  mcp : ∀ value entries, source.file = .toml value →
    ((value.get "mcp").bind (Toml.get "servers")).bind Toml.asTable =
        some entries →
      Ordered.Ascending entries

/-! ## The law -/

/-- A result is the value, and there is one where the input is valid. -/
structure Resolved {α : Type} (valid : Prop) (result : Except Text α)
    (value : α) : Prop where
  value : ∀ made, result = .ok made → made = value
  resolves : valid → ∃ made, result = .ok made

/-- An option or a variable that is given has a value. -/
def Meant {α β : Type} (raw : Option α) (value : Option β) : Prop :=
  raw.isSome → value.isSome

/-- Every setting is resolved in the same order of precedence. -/
structure Uniform (cli : Cli) (env : Env) (files : List Source) :
    Prop where
  threads :
    Resolved
      ((∀ n ∈ cli.threads, 1 ≤ n) ∧ (cli.threads = none →
        Meant (setVariable env "RUNA_THREADS") (envThreads env)))
      (resolveThreads cli.threads env files)
      (given cli.threads (envThreads env)
        (files.map (setting defaultsThreadsFromToml)))
  maxLoad :
    Resolved
      ((∀ n ∈ cli.maxLoadPercent, 1 ≤ n ∧ n ≤ 100) ∧
        (cli.maxLoadPercent = none →
          Meant (setVariable env "RUNA_MAX_LOAD_PERCENT")
            (envMaxLoad env)))
      (resolveMaxLoadPercent cli.maxLoadPercent env files)
      ((given cli.maxLoadPercent (envMaxLoad env)
        (files.map (setting maxLoadFromToml))).getD
          defaultMaxLoadPercent)
  onUnfit :
    Resolved
      (Meant cli.onUnfit (meaning OnUnfit.parse cli.onUnfit) ∧
        (cli.onUnfit = none →
          Meant (setOnUnfit env)
            (meaning OnUnfit.parse (setOnUnfit env))))
      (resolveOnUnfit cli.onUnfit env files)
      ((given (meaning OnUnfit.parse cli.onUnfit)
        (meaning OnUnfit.parse (setOnUnfit env))
        (files.map (setting onUnfitFromToml))).getD .error)
  audioRoute :
    Resolved
      (Meant cli.audioRoute (meaning AudioRoutePref.parse cli.audioRoute) ∧
        (cli.audioRoute = none →
          Meant (setAudioRoute env)
            (meaning AudioRoutePref.parse (setAudioRoute env))))
      (resolveAudioRoute cli.audioRoute env files)
      ((given (meaning AudioRoutePref.parse cli.audioRoute)
        (meaning AudioRoutePref.parse (setAudioRoute env))
        (files.map (setting audioRouteFromToml))).getD .auto)
  memory :
    Resolved True (resolveMemoryPolicy env files)
      { idleTimeoutS :=
          (given none (envU64 env "RUNA_MEMORY_IDLE_TIMEOUT_S")
            (files.map (memorySetting "idle_timeout_s"))).getD 300
        floorMib :=
          (given none (envU64 env "RUNA_MEMORY_FLOOR_MIB")
            (files.map (memorySetting "floor_mib"))).getD 512
        maxGrowthMib :=
          (given none (envU64 env "RUNA_MEMORY_MAX_GROWTH_MIB")
            (files.map (memorySetting "max_growth_mib"))).getD 4096 }
  aliases : ∃ table, loadAliases files = .ok table ∧
    ∀ name, Ordered.find name table =
      lastSome (files.map (aliasSetting name))
  servers : ∃ list, loadMcpServers files = .ok list ∧
    ∀ name, list.find? (·.name = name) =
      lastSome (files.map (serverSetting name))

/-! ## When the two other resolvers keep to it -/

/-- A memory key that the later file sets is as the earlier one has it, or
as it is by default, if that one has a table for it. -/
def KeyHarmless (env : Env) (user here : Source) (name key : String)
    (default : UInt64) : Prop :=
  envU64 env name = none → (setting memoryFromToml user).isSome →
    ∀ value, memorySetting key here = some value →
      value = (memorySetting key user).getD default

/-- The file in the home directory and the one at hand do not differ in what
the first one decides. -/
structure Harmless (cli : Cli) (env : Env) (user here : Source) :
    Prop where
  audioRoute : cli.audioRoute = none → setAudioRoute env = none →
    ∀ route, setting audioRouteFromToml user = some route →
      ∀ other, setting audioRouteFromToml here = some other →
        other = route
  idleTimeout : KeyHarmless env user here "RUNA_MEMORY_IDLE_TIMEOUT_S"
    "idle_timeout_s" 300
  floor : KeyHarmless env user here "RUNA_MEMORY_FLOOR_MIB" "floor_mib" 512
  maxGrowth : KeyHarmless env user here "RUNA_MEMORY_MAX_GROWTH_MIB"
    "max_growth_mib" 4096

/-! ## The files -/

section

variable {α : Type} {read : Text → Toml → Except Text (Option α)}
  {files : List Source}

theorem readSource_eq {source : Source}
    (reads : ∃ made, readSource read source = .ok made) :
    readSource read source = .ok (setting read source) := by
  obtain ⟨made, reads⟩ := reads
  rw [setting, reads]

theorem read_of_setting {source : Source} {made : α}
    (sets : setting read source = some made) :
    ∃ value, read source.origin value = .ok (some made) := by
  rw [setting, readSource] at sets
  cases held : source.file with
  | missing =>
      rw [held] at sets
      cases sets
  | refused error =>
      rw [held] at sets
      cases sets
  | toml value =>
      use value
      cases result : read source.origin value with
      | error error =>
          simp only [held, result] at sets
          cases sets
      | ok found =>
          simp only [held, result] at sets
          exact congrArg Except.ok sets

variable (reads : ∀ source ∈ files,
  ∃ made, readSource read source = .ok made)

include reads

theorem readLast_settings :
    readLast (readSource read) none files =
      .ok (lastSome (files.map (setting read))) := by
  rw [readLast_eq fun source member => readSource_eq (reads source member),
    Option.or_none]

theorem readFirst_settings :
    readFirst (readSource read) files =
      .ok (firstSome (files.map (setting read))) :=
  readFirst_eq fun source member => readSource_eq (reads source member)

end

/-! ## The resolvers that keep to it -/

/-- A source that is given decides. -/
theorem resolved_of_given {α β : Type} {valid : Prop}
    {result : Except Text α} {w : Option β} {value : α} (make : β → α)
    (worth_eq : result.toOption = w.map make)
    (first : ∀ made, w = some made → value = make made)
    (meant : valid → w.isSome) : Resolved valid result value := by
  constructor
  · intro made ok
    rw [ok] at worth_eq
    obtain ⟨given, here, rfl⟩ := Option.map_eq_some_iff.mp worth_eq.symm
    exact (first given here).symm
  · intro holds
    obtain ⟨given, here⟩ := Option.isSome_iff_exists.mp (meant holds)
    rw [here, Option.map_some] at worth_eq
    cases result with
    | error error => cases worth_eq
    | ok made => exact ⟨made, rfl⟩

theorem resolved_of_ok {α : Type} {valid : Prop} {result : Except Text α}
    {value : α} (ok : result = .ok value) : Resolved valid result value := by
  constructor
  · intro made same
    exact Except.ok.inj (same.symm.trans ok)
  · exact fun _ => ⟨value, ok⟩

theorem toOption_checkThreads (n : Int) (origin : Text) :
    (checkThreads n origin).toOption =
      ((some n).filter fun n => 1 ≤ n).map some := by
  rw [checkThreads, Option.filter_some]
  split
  · next low => rw [if_neg (by simpa using low)]; rfl
  · next high => rw [if_pos (by simpa using high)]; rfl

theorem toOption_checkMaxLoad (n : Int) (origin : Text) :
    (checkMaxLoad n origin).toOption =
      ((some n).filter fun n => 1 ≤ n ∧ n ≤ 100).map Int.toNat := by
  rw [checkMaxLoad, Option.filter_some]
  split
  · next inside => rw [if_pos (decide_eq_true inside)]; rfl
  · next outside => rw [if_neg (by simpa using outside)]; rfl

theorem threads_pos {source : Source} {n : Int}
    (sets : setting defaultsThreadsFromToml source = some n) : 1 ≤ n := by
  obtain ⟨value, ok⟩ := read_of_setting sets
  rw [defaultsThreadsFromToml] at ok
  repeat' split at ok
  all_goals cases ok
  rename_i bounds
  exact bounds.1

theorem maxLoad_bounds {source : Source} {n : Nat}
    (sets : setting maxLoadFromToml source = some n) : 1 ≤ n ∧ n ≤ 100 := by
  obtain ⟨value, ok⟩ := read_of_setting sets
  rw [maxLoadFromToml] at ok
  repeat' split at ok
  all_goals cases ok
  rename_i bounds
  omega

/-- A number that is read and then checked. -/
theorem toOption_parsed {α : Type} {check : Int → Except Text α}
    {allowed : Int → Bool} {make : Int → α} {error : Text}
    (checked : ∀ n,
      (check n).toOption = ((some n).filter allowed).map make)
    (parsed : Option Int) :
    (match parsed with
      | some n => check n
      | none => .error error).toOption =
        (parsed.filter allowed).map make := by
  cases parsed with
  | none => rfl
  | some n => exact checked n

section

variable {files : List Source}
  (valid : ∀ source ∈ files, Valid source)

include valid

theorem threads_resolved (cli : Option Int) (env : Env) :
    Resolved
      ((∀ n ∈ cli, 1 ≤ n) ∧ (cli = none →
        Meant (setVariable env "RUNA_THREADS") (envThreads env)))
      (resolveThreads cli env files)
      (given cli (envThreads env)
        (files.map (setting defaultsThreadsFromToml))) := by
  have fromFiles := readLast_settings fun source member =>
    (valid source member).threads
  cases cli with
  | some n =>
      apply resolved_of_given some (toOption_checkThreads n _)
      · intro made here
        rw [given, Option.some_or, (Option.filter_eq_some_iff.mp here).1]
      · intro both
        rw [Option.filter_some, if_pos (by simpa using both.1 n rfl)]
        rfl
  | none =>
      rw [given, Option.none_or]
      cases raw : setVariable env "RUNA_THREADS" with
      | some text =>
          apply resolved_of_given (w := envThreads env) some
          · unfold setVariable at raw
            rw [envThreads, setVariable, resolveThreads, raw]
            apply toOption_parsed fun n => toOption_checkThreads n _
          · intro made here
            rw [here, Option.some_or]
          · intro both
            exact both.2 rfl rfl
      | none =>
          apply resolved_of_ok
          unfold setVariable at raw
          rw [envThreads, setVariable, raw, resolveThreads, raw]
          rw [fromFiles, Option.bind_none, Option.filter_none,
            Option.none_or]
          cases last : lastSome (files.map (setting _)) with
          | none => rfl
          | some n =>
              obtain ⟨source, -, sets⟩ :=
                List.mem_map.mp (mem_of_lastSome last)
              exact if_neg (not_lt.mpr (threads_pos sets))

theorem maxLoad_resolved (cli : Option Nat) (env : Env) :
    Resolved
      ((∀ n ∈ cli, 1 ≤ n ∧ n ≤ 100) ∧ (cli = none →
        Meant (setVariable env "RUNA_MAX_LOAD_PERCENT")
          (envMaxLoad env)))
      (resolveMaxLoadPercent cli env files)
      ((given cli (envMaxLoad env)
        (files.map (setting maxLoadFromToml))).getD
          defaultMaxLoadPercent) := by
  have fromFiles := readLast_settings fun source member =>
    (valid source member).maxLoad
  cases cli with
  | some n =>
      apply resolved_of_given Int.toNat (toOption_checkMaxLoad n _)
      · intro made here
        rw [given, Option.some_or, Option.getD_some,
          ← Option.some.inj (Option.filter_eq_some_iff.mp here).1,
          Int.toNat_natCast]
      · intro both
        have bounds := both.1 n rfl
        rw [Option.filter_some, if_pos (by simpa using by omega)]
        rfl
  | none =>
      rw [given, Option.none_or]
      cases raw : setVariable env "RUNA_MAX_LOAD_PERCENT" with
      | some text =>
          apply resolved_of_given (w := envMaxLoad env) id
          · unfold setVariable at raw
            rw [envMaxLoad, setVariable, resolveMaxLoadPercent, raw,
              Option.map_id]
            apply toOption_parsed fun n => toOption_checkMaxLoad n _
          · intro made here
            rw [here, Option.some_or]
            rfl
          · intro both
            exact both.2 rfl rfl
      | none =>
          apply resolved_of_ok
          unfold setVariable at raw
          rw [envMaxLoad, setVariable, raw, resolveMaxLoadPercent, raw]
          rw [fromFiles, Option.bind_none, Option.filter_none,
            Option.map_none, Option.none_or]
          cases last : lastSome (files.map (setting _)) with
          | none => rfl
          | some n =>
              obtain ⟨source, -, sets⟩ :=
                List.mem_map.mp (mem_of_lastSome last)
              have bounds := maxLoad_bounds sets
              exact if_pos (by omega)

end

/-! ## Texts -/

/-- A setting that is read from a text, or else from the files. -/
theorem text_resolved_iff {α : Type} {parse : Text → Except Text α}
    {cli envText : Option Text} {files found : Option α} {default : α} :
    Resolved
        (Meant cli (meaning parse cli) ∧
          (cli = none → Meant envText (meaning parse envText)))
        (match cli with
          | some text => parse text
          | none =>
            match envText with
            | some text => parse text
            | none => .ok (found.getD default))
        (((meaning parse cli).or ((meaning parse envText).or files)).getD
          default) ↔
      (cli = none → envText = none →
        found.getD default = files.getD default) := by
  constructor
  · rintro law rfl rfl
    exact law.value _ rfl
  · intro same
    cases cli with
    | some text =>
        apply resolved_of_given (w := (parse text).toOption) id
        · rw [Option.map_id]
          rfl
        · intro made here
          rw [meaning, Option.bind_some, here, Option.some_or]
          rfl
        · exact fun both => both.1 rfl
    | none =>
        cases envText with
        | some text =>
            apply resolved_of_given (w := (parse text).toOption) id
            · rw [Option.map_id]
              rfl
            · intro made here
              rw [meaning, meaning, Option.bind_some, here]
              rfl
            · exact fun both => both.2 rfl rfl
        | none =>
            apply resolved_of_ok
            exact congrArg Except.ok (same rfl rfl)

section

variable {files : List Source}
  (valid : ∀ source ∈ files, Valid source)

include valid

theorem onUnfit_resolved (cli : Option Text) (env : Env) :
    Resolved
      (Meant cli (meaning OnUnfit.parse cli) ∧ (cli = none →
        Meant (setOnUnfit env) (meaning OnUnfit.parse (setOnUnfit env))))
      (resolveOnUnfit cli env files)
      ((given (meaning OnUnfit.parse cli)
        (meaning OnUnfit.parse (setOnUnfit env))
        (files.map (setting onUnfitFromToml))).getD .error) := by
  have fromFiles := readLast_settings fun source member =>
    (valid source member).onUnfit
  unfold resolveOnUnfit loadOnUnfit
  rw [fromFiles]
  exact text_resolved_iff.mpr fun _ _ => rfl

theorem audioRoute_resolved_iff (cli : Option Text) (env : Env) :
    Resolved
        (Meant cli (meaning AudioRoutePref.parse cli) ∧ (cli = none →
          Meant (setAudioRoute env)
            (meaning AudioRoutePref.parse (setAudioRoute env))))
        (resolveAudioRoute cli env files)
        ((given (meaning AudioRoutePref.parse cli)
          (meaning AudioRoutePref.parse (setAudioRoute env))
          (files.map (setting audioRouteFromToml))).getD .auto) ↔
      (cli = none → setAudioRoute env = none →
        (firstSome (files.map (setting audioRouteFromToml))).getD .auto =
          (lastSome (files.map (setting audioRouteFromToml))).getD
            .auto) := by
  have fromFiles := readFirst_settings fun source member =>
    (valid source member).audio
  unfold resolveAudioRoute
  rw [fromFiles]
  exact text_resolved_iff

end

/-! ## The memory policy -/

/-- The policy of a file has what the file sets, and else the defaults. -/
theorem memoryKey_eq {table : List (Text × Toml)} {source : Source}
    {value : Toml} (held : source.file = .toml value)
    (has : (value.get "memory").bind Toml.asTable = some table)
    {key : String} {default found : UInt64}
    (ok : memoryKey table source.origin key default = .ok found) :
    found = (memorySetting key source).getD default := by
  rw [memorySetting, setting, readSource, held]
  simp only [has]
  rw [memoryKey] at ok
  cases sets : Ordered.find key.toList table with
  | none =>
      rw [sets] at ok
      cases ok
      rfl
  | some entry =>
      simp only [sets] at ok ⊢
      cases read : tomlU32 entry source.origin key.toList with
      | error error =>
          rw [read] at ok
          cases ok
      | ok n =>
          rw [read] at ok
          cases ok
          rfl

theorem memory_setting {source : Source}
    (reads : ∃ made, readSource memoryFromToml source = .ok made) :
    (setting memoryFromToml source = none ∧
      ∀ key, memorySetting key source = none) ∨
    setting memoryFromToml source = some
      { idleTimeoutS :=
          (memorySetting "idle_timeout_s" source).getD 300
        floorMib := (memorySetting "floor_mib" source).getD 512
        maxGrowthMib :=
          (memorySetting "max_growth_mib" source).getD 4096 } := by
  obtain ⟨made, ok⟩ := reads
  cases held : source.file with
  | missing =>
      left
      simp only [setting, memorySetting, readSource, held, implies_true,
        and_self]
  | refused error =>
      rw [readSource, held] at ok
      cases ok
  | toml value =>
      have read := ok
      rw [readSource, held] at read
      simp only [memoryFromToml] at read
      cases has : (value.get "memory").bind Toml.asTable with
      | none =>
          left
          simp only [setting, memorySetting, readSource, held,
            memoryFromToml, has, implies_true, and_self]
      | some table =>
          right
          simp only [has] at read
          obtain ⟨idle, idleRead, read⟩ := bind_eq_ok.mp read
          obtain ⟨floor, floorRead, read⟩ := bind_eq_ok.mp read
          obtain ⟨growth, growthRead, read⟩ := bind_eq_ok.mp read
          cases read
          rw [setting, ok]
          rw [memoryKey_eq held has idleRead, memoryKey_eq held has floorRead,
            memoryKey_eq held has growthRead]
          rfl

/-- A number of the policy that a key of the table sets. -/
structure Sets (field : MemoryPolicy → UInt64) (key : String)
    (default : UInt64) : Prop where
  reads : ∀ source,
    (∃ made, readSource memoryFromToml source = .ok made) →
      field ((setting memoryFromToml source).getD .default) =
        (memorySetting key source).getD default
  only : ∀ source,
    (∃ made, readSource memoryFromToml source = .ok made) →
      setting memoryFromToml source = none →
        memorySetting key source = none

theorem sets_of {field : MemoryPolicy → UInt64} {key : String}
    {default : UInt64} (unset : field .default = default)
    (set : ∀ source, field
      { idleTimeoutS :=
          (memorySetting "idle_timeout_s" source).getD 300
        floorMib := (memorySetting "floor_mib" source).getD 512
        maxGrowthMib :=
          (memorySetting "max_growth_mib" source).getD 4096 } =
        (memorySetting key source).getD default) :
    Sets field key default := by
  constructor
  · intro source read
    rcases memory_setting read with ⟨noTable, noKey⟩ | table
    · rw [noTable, noKey key]
      exact unset
    · rw [table]
      exact set source
  · intro source read noTable
    rcases memory_setting read with ⟨-, noKey⟩ | table
    · exact noKey key
    · rw [noTable] at table
      cases table

theorem sets_idleTimeout :
    Sets MemoryPolicy.idleTimeoutS "idle_timeout_s" 300 :=
  sets_of rfl fun _ => rfl

theorem sets_floor : Sets MemoryPolicy.floorMib "floor_mib" 512 :=
  sets_of rfl fun _ => rfl

theorem sets_maxGrowth :
    Sets MemoryPolicy.maxGrowthMib "max_growth_mib" 4096 :=
  sets_of rfl fun _ => rfl

/-- The law for one number of the policy. -/
def Follows (env : Env) (files : List Source)
    (field : MemoryPolicy → UInt64) (name key : String)
    (default : UInt64) : Prop :=
  (envU64 env name).getD
      (field ((firstSome (files.map (setting memoryFromToml))).getD
        .default)) =
    (given none (envU64 env name) (files.map (memorySetting key))).getD
      default

theorem memory_resolved_iff {files : List Source}
    (valid : ∀ source ∈ files, Valid source) (env : Env) :
    Resolved True (resolveMemoryPolicy env files)
        { idleTimeoutS :=
            (given none (envU64 env "RUNA_MEMORY_IDLE_TIMEOUT_S")
              (files.map (memorySetting "idle_timeout_s"))).getD 300
          floorMib :=
            (given none (envU64 env "RUNA_MEMORY_FLOOR_MIB")
              (files.map (memorySetting "floor_mib"))).getD 512
          maxGrowthMib :=
            (given none (envU64 env "RUNA_MEMORY_MAX_GROWTH_MIB")
              (files.map (memorySetting "max_growth_mib"))).getD 4096 } ↔
      Follows env files MemoryPolicy.idleTimeoutS
          "RUNA_MEMORY_IDLE_TIMEOUT_S" "idle_timeout_s" 300 ∧
        Follows env files MemoryPolicy.floorMib
          "RUNA_MEMORY_FLOOR_MIB" "floor_mib" 512 ∧
        Follows env files MemoryPolicy.maxGrowthMib
          "RUNA_MEMORY_MAX_GROWTH_MIB" "max_growth_mib" 4096 := by
  have fromFiles := readFirst_settings fun source member =>
    (valid source member).memory
  rw [resolveMemoryPolicy, fromFiles]
  constructor
  · intro law
    have same := law.value _ rfl
    rw [MemoryPolicy.mk.injEq] at same
    exact same
  · rintro ⟨idle, floor, growth⟩
    apply resolved_of_ok
    apply congrArg Except.ok
    rw [MemoryPolicy.mk.injEq]
    exact ⟨idle, floor, growth⟩

section

variable {env : Env} {user here : Source}
  {field : MemoryPolicy → UInt64} {name key : String} {default : UInt64}
  (sets : Sets field key default)
  (hereReads : ∃ made, readSource memoryFromToml here = .ok made)

include sets hereReads

theorem follows_alone : Follows env [here] field name key default := by
  have read := sets.reads here hereReads
  rw [Follows]
  cases envU64 env name with
  | none => simp [given, firstSome, lastSome, read]
  | some value => simp [given]

theorem follows_iff
    (userReads : ∃ made, readSource memoryFromToml user = .ok made) :
    Follows env [user, here] field name key default ↔
      KeyHarmless env user here name key default := by
  rw [Follows, KeyHarmless]
  cases envU64 env name with
  | some value => simp [given]
  | none =>
      have userRead := sets.reads user userReads
      cases table : setting memoryFromToml user with
      | none =>
          have userKey := sets.only user userReads table
          have hereRead := sets.reads here hereReads
          simp [given, firstSome, lastSome, table, userKey, hereRead]
      | some policy =>
          rw [table, Option.getD_some] at userRead
          cases set : memorySetting key here with
          | none => simp [given, firstSome, lastSome, table, set, userRead]
          | some value =>
              simp [given, firstSome, lastSome, table, set, userRead,
                eq_comm]

end

/-! ## Tables that are merged -/

/-- A table of a file, if the file has one. -/
def tableOf (part : Toml → Option (List (Text × Toml))) (source : Source) :
    Option (List (Text × Toml)) :=
  match source.file with
  | .toml value => part value
  | _ => none

/-- Merge the entries of a table of a file. -/
def mergeTable {α : Type} (part : Toml → Option (List (Text × Toml)))
    (merge : List (Text × α) → Text × Toml → Except Text (List (Text × α)))
    (table : List (Text × α)) (source : Source) :
    Except Text (List (Text × α)) :=
  match source.file with
  | .missing => .ok table
  | .refused error => .error error
  | .toml value =>
    match part value with
    | none => .ok table
    | some entries => entries.foldlM merge table

section

variable {α : Type} {part : Toml → Option (List (Text × Toml))}
  {merge : List (Text × α) → Text × Toml → Except Text (List (Text × α))}
  {source : Source} {table next : List (Text × α)}

/-- What is merged: nothing, or the entries of the table. -/
theorem merge_cases (merged : mergeTable part merge table source = .ok next) :
    (tableOf part source = none ∧ next = table) ∨
      ∃ entries, tableOf part source = some entries ∧
        entries.foldlM merge table = .ok next := by
  rw [mergeTable] at merged
  rw [tableOf]
  cases held : source.file with
  | missing =>
      rw [held] at merged
      cases merged
      exact Or.inl ⟨rfl, rfl⟩
  | refused error =>
      rw [held] at merged
      cases merged
  | toml value =>
      simp only [held] at merged
      cases found : part value with
      | none =>
          simp only [found] at merged
          cases merged
          exact Or.inl ⟨found, rfl⟩
      | some entries =>
          simp only [found] at merged
          exact Or.inr ⟨entries, found, merged⟩

/-- What is found behind a file: its own entry, else what was there. -/
theorem find_mergeTable {read : Toml → Option α} {name : Text}
    (each : ∀ table named next, merge table named = .ok next →
      Ordered.find name next =
        (underKey name read named).or (Ordered.find name table))
    (ascending : ∀ value entries, source.file = .toml value →
      part value = some entries → Ordered.Ascending entries)
    (merged : mergeTable part merge table source = .ok next) :
    Ordered.find name next =
      (((tableOf part source).bind (Ordered.find name)).bind read).or
        (Ordered.find name table) := by
  rcases merge_cases merged with ⟨none, rfl⟩ | ⟨entries, found, folded⟩
  · rw [none]
    rfl
  · have sorted : Ordered.Ascending entries := by
      rw [tableOf] at found
      split at found
      · next value held => exact ascending value entries held found
      · cases found
    rw [foldlM_merge (fun table named next _ => each table named next) folded,
      lastSome_entries sorted, found]
    rfl

/-- What a file sets under a name. -/
theorem setting_eq_tableOf (read : Toml → Option α) (name : Text)
    (source : Source) :
    setting
        (fun _ value =>
          .ok (((part value).bind (Ordered.find name)).bind read)) source =
      ((tableOf part source).bind (Ordered.find name)).bind read := by
  rw [setting, readSource, tableOf]
  cases source.file with
  | missing => rfl
  | refused error => rfl
  | toml value => rfl

end

/-! ## Aliases -/

theorem find_mergeAlias {origin : Text}
    {table next : List (Text × ModelAlias)} {named : Text × Toml}
    (merged : mergeAlias origin table named = .ok next) (name : Text) :
    Ordered.find name next =
      (underKey name aliasOf named).or (Ordered.find name table) := by
  rw [mergeAlias] at merged
  cases source : (named.2.get "source").bind Toml.asStr with
  | none =>
      rw [source] at merged
      cases merged
  | some text =>
      rw [source] at merged
      cases merged
      apply find_put
      rw [aliasOf, source]
      rfl

theorem mergeAliasesToml_eq (table : List (Text × ModelAlias))
    (source : Source) :
    mergeAliasesToml table source =
      mergeTable (fun value => (value.get "models").bind Toml.asTable)
        (mergeAlias source.origin) table source :=
  rfl

theorem find_mergeAliasesToml {source : Source} (valid : Valid source)
    {table next : List (Text × ModelAlias)}
    (merged : mergeAliasesToml table source = .ok next) (name : Text) :
    Ordered.find name next =
      (aliasSetting name source).or (Ordered.find name table) := by
  rw [mergeAliasesToml_eq] at merged
  rw [aliasSetting, setting_eq_tableOf]
  apply find_mergeTable _ valid.models merged
  intro table named next ok
  exact find_mergeAlias ok name

theorem aliases_resolved {files : List Source}
    (valid : ∀ source ∈ files, Valid source) :
    ∃ table, loadAliases files = .ok table ∧
      ∀ name, Ordered.find name table =
        lastSome (files.map (aliasSetting name)) := by
  obtain ⟨table, loaded⟩ := foldlM_total
    (fun source member => (valid source member).aliases) []
  use table, loaded
  intro name
  have merged := foldlM_merge
    (fun table source next member ok =>
      find_mergeAliasesToml (valid source member) ok name) loaded
  rw [merged, Ordered.find, Option.or_none]

/-! ## Servers -/

/-- A server is put under its name. -/
theorem eq_put_of_mergeServer {origin : Text}
    {servers next : List (Text × McpServer)} {named : Text × Toml}
    (merged : mergeServer origin servers named = .ok next) :
    ∃ server, serverOf named.1 named.2 = some server ∧
      server.name = named.1 ∧ next = Ordered.put named.1 server servers := by
  rw [mergeServer] at merged
  cases command : (named.2.get "command").bind Toml.asStr with
  | none =>
      simp only [command] at merged
      cases merged
  | some command' =>
      cases args : mcpArgs named.2 with
      | none =>
          simp only [command, args] at merged
          cases merged
      | some args' =>
          cases env : mcpEnv named.2 with
          | none =>
              simp only [command, args, env] at merged
              cases merged
          | some env' =>
              simp only [command, args, env] at merged
              cases merged
              use ⟨named.1, command', args', env'⟩
              rw [serverOf, command, args, env]
              exact ⟨rfl, rfl, rfl⟩

theorem find_mergeServer {origin : Text}
    {servers next : List (Text × McpServer)} {named : Text × Toml}
    (merged : mergeServer origin servers named = .ok next) (name : Text) :
    Ordered.find name next =
      (underKey name (serverOf name) named).or
        (Ordered.find name servers) := by
  obtain ⟨server, entry, -, rfl⟩ := eq_put_of_mergeServer merged
  by_cases same : name = named.1
  · subst same
    exact find_put entry servers named.1
  · rw [Ordered.find_put_of_ne same, underKey, if_neg same, Option.none_or]

theorem mergeMcpToml_eq (servers : List (Text × McpServer))
    (source : Source) :
    mergeMcpToml servers source =
      mergeTable
        (fun value =>
          ((value.get "mcp").bind (Toml.get "servers")).bind Toml.asTable)
        (mergeServer source.origin) servers source :=
  rfl

theorem find_mergeMcpToml {source : Source} (valid : Valid source)
    {servers next : List (Text × McpServer)}
    (merged : mergeMcpToml servers source = .ok next) (name : Text) :
    Ordered.find name next =
      (serverSetting name source).or (Ordered.find name servers) := by
  rw [mergeMcpToml_eq] at merged
  rw [serverSetting, setting_eq_tableOf]
  apply find_mergeTable _ valid.mcp merged
  intro servers named next ok
  exact find_mergeServer ok name

/-- Every server is held under its name. -/
def Named (servers : List (Text × McpServer)) : Prop :=
  ∀ entry ∈ servers, entry.2.name = entry.1

theorem named_mergeServer {origin : Text}
    {servers next : List (Text × McpServer)} {entry : Text × Toml}
    (merged : mergeServer origin servers entry = .ok next)
    (named : Named servers) : Named next := by
  obtain ⟨server, -, name, rfl⟩ := eq_put_of_mergeServer merged
  intro held member
  rcases Ordered.mem_put member with rfl | old
  · exact name
  · exact named held old

theorem named_mergeMcpToml {source : Source}
    {servers next : List (Text × McpServer)}
    (merged : mergeMcpToml servers source = .ok next)
    (named : Named servers) : Named next := by
  rw [mergeMcpToml_eq] at merged
  rcases merge_cases merged with ⟨-, rfl⟩ | ⟨entries, -, folded⟩
  · exact named
  · exact foldlM_keeps (fun _ _ _ => named_mergeServer) folded named

/-- A server is found by its name. -/
theorem Named.find_values {servers : List (Text × McpServer)}
    (named : Named servers) (name : Text) :
    (servers.map Prod.snd).find? (·.name = name) =
      Ordered.find name servers := by
  induction servers with
  | nil => rfl
  | cons entry rest ih =>
      obtain ⟨here, there⟩ := List.forall_mem_cons.mp named
      rw [List.map_cons, List.find?_cons, Ordered.find, here]
      by_cases same : name = entry.1
      · rw [if_pos same, decide_eq_true same.symm]
      · rw [if_neg same, decide_eq_false (Ne.symm same)]
        exact ih there

theorem servers_resolved {files : List Source}
    (valid : ∀ source ∈ files, Valid source) :
    ∃ list, loadMcpServers files = .ok list ∧
      ∀ name, list.find? (·.name = name) =
        lastSome (files.map (serverSetting name)) := by
  obtain ⟨servers, loaded⟩ := foldlM_total
    (fun source member => (valid source member).servers) []
  have named : Named servers :=
    foldlM_keeps (fun _ _ _ => named_mergeMcpToml) loaded
      (List.forall_mem_nil _)
  refine ⟨servers.map Prod.snd, by rw [loadMcpServers, loaded]; rfl, ?_⟩
  intro name
  have merged := foldlM_merge
    (fun servers source next member ok =>
      find_mergeMcpToml (valid source member) ok name) loaded
  rw [named.find_values, merged, Ordered.find, Option.or_none]

/-! ## All settings -/

theorem homePaths_cases (env : Env) :
    homePaths env = [] ∨ ∃ path, homePaths env = [path] := by
  rw [homePaths]
  cases env "HOME" with
  | none => exact Or.inl rfl
  | some home =>
      by_cases empty : home = []
      · exact Or.inl (if_pos empty)
      · exact Or.inr ⟨_, if_neg empty⟩

theorem firstSome_eq_lastSome_iff {α : Type} {user here : Option α}
    {default : α} :
    (firstSome [user, here]).getD default =
        (lastSome [user, here]).getD default ↔
      ∀ value, user = some value →
        ∀ other, here = some other → other = value := by
  cases user with
  | none => simp [firstSome, lastSome]
  | some value =>
      cases here with
      | none => simp [firstSome, lastSome]
      | some other => simp [firstSome, lastSome, eq_comm]

theorem uniform_of {cli : Cli} {env : Env} {files : List Source}
    (valid : ∀ source ∈ files, Valid source)
    (audio : cli.audioRoute = none → setAudioRoute env = none →
      (firstSome (files.map (setting audioRouteFromToml))).getD .auto =
        (lastSome (files.map (setting audioRouteFromToml))).getD .auto)
    (idle : Follows env files MemoryPolicy.idleTimeoutS
      "RUNA_MEMORY_IDLE_TIMEOUT_S" "idle_timeout_s" 300)
    (floor : Follows env files MemoryPolicy.floorMib
      "RUNA_MEMORY_FLOOR_MIB" "floor_mib" 512)
    (growth : Follows env files MemoryPolicy.maxGrowthMib
      "RUNA_MEMORY_MAX_GROWTH_MIB" "max_growth_mib" 4096) :
    Uniform cli env files where
  threads := threads_resolved valid cli.threads env
  maxLoad := maxLoad_resolved valid cli.maxLoadPercent env
  onUnfit := onUnfit_resolved valid cli.onUnfit env
  audioRoute := (audioRoute_resolved_iff valid cli.audioRoute env).mpr audio
  memory := (memory_resolved_iff valid env).mpr ⟨idle, floor, growth⟩
  aliases := aliases_resolved valid
  servers := servers_resolved valid

theorem uniform_alone {cli : Cli} {env : Env} {here : Source}
    (valid : ∀ source ∈ [here], Valid source) :
    Uniform cli env [here] := by
  have hereReads := (valid here List.mem_cons_self).memory
  apply uniform_of valid
  · intro _ _
    simp [firstSome, lastSome]
  · exact follows_alone sets_idleTimeout hereReads
  · exact follows_alone sets_floor hereReads
  · exact follows_alone sets_maxGrowth hereReads

theorem uniform_both_iff {cli : Cli} {env : Env} {user here : Source}
    (valid : ∀ source ∈ [user, here], Valid source) :
    Uniform cli env [user, here] ↔ Harmless cli env user here := by
  have userReads := (valid user List.mem_cons_self).memory
  have hereReads :=
    (valid here (List.mem_cons_of_mem _ List.mem_cons_self)).memory
  constructor
  · intro law
    have audio :=
      (audioRoute_resolved_iff valid cli.audioRoute env).mp law.audioRoute
    obtain ⟨idle, floor, growth⟩ :=
      (memory_resolved_iff valid env).mp law.memory
    constructor
    · intro noOption noVariable
      exact firstSome_eq_lastSome_iff.mp (audio noOption noVariable)
    · exact (follows_iff sets_idleTimeout hereReads userReads).mp idle
    · exact (follows_iff sets_floor hereReads userReads).mp floor
    · exact (follows_iff sets_maxGrowth hereReads userReads).mp growth
  · intro harmless
    apply uniform_of valid
    · intro noOption noVariable
      exact firstSome_eq_lastSome_iff.mpr
        (harmless.audioRoute noOption noVariable)
    · exact (follows_iff sets_idleTimeout hereReads userReads).mpr
        harmless.idleTimeout
    · exact (follows_iff sets_floor hereReads userReads).mpr harmless.floor
    · exact (follows_iff sets_maxGrowth hereReads userReads).mpr
        harmless.maxGrowth

/-- With valid files every setting is resolved in one order of precedence
exactly if the file in the home directory and the one at hand do not differ
in the audio route and in the keys of `[memory]`, where the first file
decides. -/
theorem uniform_iff {cli : Cli} {env : Env} {disk : Text → File}
    (valid : ∀ source ∈ sources env disk, Valid source) :
    Uniform cli env (sources env disk) ↔
      ∀ path ∈ homePaths env,
        Harmless cli env (source disk path)
          (source disk "runa.toml".toList) := by
  rcases homePaths_cases env with none | ⟨path, one⟩
  · rw [sources, configPaths, none] at valid ⊢
    constructor
    · intro _ path member
      cases member
    · exact fun _ => uniform_alone valid
  · rw [sources, configPaths, one] at valid ⊢
    rw [List.forall_mem_singleton]
    exact uniform_both_iff valid

/-! ## Two files that set the audio route -/

/-- A file that sets the route of `[audio]`. -/
def routeFile (route : String) : File :=
  .toml (.table
    [("audio".toList, .table [("route".toList, .string route.toList)])])

def routeDisk (user here : String) (path : Text) : File :=
  if path = "runa.toml".toList then routeFile here else routeFile user

def routeEnv : Env := fun name =>
  if name = "HOME" then some "/home/user".toList else none

def noOptions : Cli := ⟨none, none, none, none⟩

theorem valid_routeFile {origin : Text} {route : String}
    {pref : AudioRoutePref}
    (parses : AudioRoutePref.parse route.toList = .ok pref) :
    Valid ⟨origin, routeFile route⟩ := by
  constructor
  · exact ⟨none, rfl⟩
  · exact ⟨none, rfl⟩
  · exact ⟨none, rfl⟩
  · apply Exists.intro (some pref)
    simp [readSource, routeFile, audioRouteFromToml, Toml.get,
      Toml.asTable, Toml.asStr, Ordered.find, parses]
  · exact ⟨none, rfl⟩
  · exact fun table => ⟨table, rfl⟩
  · exact fun table => ⟨table, rfl⟩
  · intro value entries held has
    cases held
    cases (show none = some entries from has)
  · intro value entries held has
    cases held
    cases (show none = some entries from has)

theorem valid_routeDisk {user here : String} {pref other : AudioRoutePref}
    (userParses : AudioRoutePref.parse user.toList = .ok pref)
    (hereParses : AudioRoutePref.parse here.toList = .ok other)
    (source : Source) (member : source ∈ sources routeEnv
      (routeDisk user here)) : Valid source := by
  obtain ⟨path, -, rfl⟩ := List.mem_map.mp member
  rw [Config.source, routeDisk]
  split
  · exact valid_routeFile hereParses
  · exact valid_routeFile userParses

/-- Both files set the route, and the one at hand does not count. -/
theorem not_uniform_routeDisk :
    (∀ source ∈ sources routeEnv (routeDisk "asr" "native"),
      Valid source) ∧
    ¬ Uniform noOptions routeEnv
      (sources routeEnv (routeDisk "asr" "native")) := by
  have asr : AudioRoutePref.parse "asr".toList = .ok .asr := by
    decide +kernel
  have native : AudioRoutePref.parse "native".toList = .ok .native := by
    decide +kernel
  have valid := valid_routeDisk asr native
  constructor
  · exact valid
  · intro law
    have harmless := (uniform_both_iff valid).mp law
    have same := harmless.audioRoute rfl (by decide +kernel) .asr
      (by decide +kernel) .native (by decide +kernel)
    cases same

theorem uniform_routeDisk :
    Uniform noOptions routeEnv
      (sources routeEnv (routeDisk "asr" "asr")) := by
  have asr : AudioRoutePref.parse "asr".toList = .ok .asr := by
    decide +kernel
  apply (uniform_iff (valid_routeDisk asr asr)).mpr
  intro path member
  have home : homePaths routeEnv =
      ["/home/user/.config/runa/config.toml".toList] := by
    decide +kernel
  rw [home, List.mem_singleton] at member
  subst member
  constructor
  · intro _ _ route user other here
    have userRoute : some AudioRoutePref.asr = some route := user
    have hereRoute : some AudioRoutePref.asr = some other := here
    rw [← Option.some.inj userRoute, ← Option.some.inj hereRoute]
  · intro _ table
    cases table
  · intro _ table
    cases table
  · intro _ table
    cases table

end Runa.App.Precedence
