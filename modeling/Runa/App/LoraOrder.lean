import Mathlib.Data.List.Perm.Basic
import Runa.App.Loading

/-!
# The order of the adapters

`select_lora_raws` goes through the files once, and takes from each its global
adapters and then those of the aliases that match.  What it documents is the
global adapters of all files, then those of the aliases, then the flags.
`inOrder_iff` says for which files the two are the same.
-/

namespace Runa.App.LoraOrder

open Runa.Stream.Utf8
open Runa.Layered.Sources
open Runa.App.Config (message)
open Runa.App.Loading

/-- Where an adapter is named. -/
inductive Layer where
  | global
  | alias (name : Text)
  | flag
deriving DecidableEq, Repr

/-- An adapter, with the file that names it. -/
structure Entry where
  layer : Layer
  origin : Text
  spec : Text
deriving DecidableEq, Repr

/-- What is written of where an adapter is named. -/
def Entry.label (entry : Entry) : Text :=
  match entry.layer with
  | .global => message [entry.origin, " [model]".toList]
  | .alias name => message [entry.origin, " [models.".toList, name, "]".toList]
  | .flag => "--lora".toList

def Entry.raw (entry : Entry) : Text × Text :=
  (entry.label, entry.spec)

def globals (file : FileLoras) : List Entry :=
  file.global.map fun spec => ⟨.global, file.origin, spec⟩

/-- The adapters of the aliases that a model reference names. -/
def aliases (modelRef : Text) (file : FileLoras) : List Entry :=
  (file.perAlias.filter (·.named modelRef)).flatMap fun entry =>
    entry.specs.map fun spec => ⟨.alias entry.name, file.origin, spec⟩

def flags (cli : List Text) : List Entry :=
  cli.map fun spec => ⟨.flag, [], spec⟩

/-- The adapters as they are selected, file by file. -/
def selected (files : List FileLoras) (modelRef : Text) (cli : List Text) :
    List Entry :=
  files.flatMap (fun file => globals file ++ aliases modelRef file) ++
    flags cli

/-- Global adapters, then the matching aliases, then the flags. -/
def documented (files : List FileLoras) (modelRef : Text)
    (cli : List Text) : List Entry :=
  files.flatMap globals ++ files.flatMap (aliases modelRef) ++ flags cli

/-! ## What is selected -/

section

variable {files : List FileLoras} {modelRef : Text} {cli : List Text}

theorem map_raw_file (file : FileLoras) :
    (globals file ++ aliases modelRef file).map Entry.raw =
      file.raws modelRef := by
  rw [FileLoras.raws, globals, aliases, List.map_append, List.map_map,
    List.map_flatMap]
  congr 1
  apply List.flatMap_congr
  intro entry _
  exact List.map_map

/-- The entries are what the function returns. -/
theorem map_raw_selected :
    (selected files modelRef cli).map Entry.raw =
      selectLoraRaws files modelRef cli := by
  rw [selected, selectLoraRaws, List.map_append, List.map_flatMap, flags,
    List.map_map]
  congr 1
  apply List.flatMap_congr
  intro file _
  exact map_raw_file file

/-- Every adapter is selected once, in whatever order. -/
theorem selected_perm_documented :
    (selected files modelRef cli).Perm (documented files modelRef cli) :=
  (List.flatMap_append_perm files globals (aliases modelRef)).symm.append_right
    (flags cli)

/-- A global adapter is not one of an alias. -/
theorem not_mem_globals (left right : FileLoras) :
    ∀ entry ∈ aliases modelRef left, entry ∉ globals right := by
  intro entry named globally
  rcases List.mem_flatMap.mp named with ⟨table, -, inside⟩
  rcases List.mem_map.mp inside with ⟨spec, -, rfl⟩
  rcases List.mem_map.mp globally with ⟨other, -, same⟩
  cases same

theorem globals_eq_nil_iff {file : FileLoras} :
    globals file = [] ↔ file.global = [] :=
  List.map_eq_nil_iff

theorem aliases_eq_nil_iff {file : FileLoras} :
    aliases modelRef file = [] ↔
      ∀ entry ∈ file.perAlias, entry.named modelRef = true →
        entry.specs = [] := by
  simp only [aliases, List.flatMap_eq_nil_iff, List.mem_filter,
    List.map_eq_nil_iff, and_imp]

end

/-! ## The order -/

/-- No file whose matching aliases name adapters is before a file with global
ones. -/
def GlobalsFirst (files : List FileLoras) (modelRef : Text) : Prop :=
  files.Pairwise fun earlier later =>
    (∀ entry ∈ earlier.perAlias, entry.named modelRef = true →
      entry.specs = []) ∨ later.global = []

/-- The adapters are in the order that is documented. -/
structure InOrder (files : List FileLoras) (modelRef : Text)
    (cli : List Text) : Prop where
  entries : selected files modelRef cli = documented files modelRef cli
  raws : selectLoraRaws files modelRef cli =
    (documented files modelRef cli).map Entry.raw

/-- The order is the documented one unless an alias of one file is before a
global adapter of another. -/
theorem inOrder_iff (files : List FileLoras) (modelRef : Text)
    (cli : List Text) :
    InOrder files modelRef cli ↔ GlobalsFirst files modelRef := by
  have order : selected files modelRef cli = documented files modelRef cli ↔
      GlobalsFirst files modelRef := by
    rw [selected, documented, List.append_cancel_right_eq,
      flatMap_append_eq_iff not_mem_globals]
    simp only [aliases_eq_nil_iff, globals_eq_nil_iff]
    exact Iff.rfl
  rw [← order]
  constructor
  · exact InOrder.entries
  · intro entries
    refine ⟨entries, ?_⟩
    rw [← entries, map_raw_selected]

/-- Adapters of an alias in the first file, and global ones in the second. -/
def aliasThenGlobal : List FileLoras :=
  [⟨"a".toList, [], [⟨"q".toList, [], ["alias.gguf".toList]⟩]⟩,
    ⟨"b".toList, ["global.gguf".toList], []⟩]

/-- The global adapter comes last, and so wins over the one of the alias. -/
theorem not_inOrder_aliasThenGlobal :
    selectLoraRaws aliasThenGlobal "q".toList [] =
        [("a [models.q]".toList, "alias.gguf".toList),
          ("b [model]".toList, "global.gguf".toList)] ∧
      (documented aliasThenGlobal "q".toList []).map Entry.raw =
        [("b [model]".toList, "global.gguf".toList),
          ("a [models.q]".toList, "alias.gguf".toList)] ∧
      ¬ InOrder aliasThenGlobal "q".toList [] := by
  refine ⟨by decide +kernel, by decide +kernel, ?_⟩
  intro inOrder
  exact absurd inOrder.entries (by decide +kernel)

end Runa.App.LoraOrder
