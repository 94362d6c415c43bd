import Runa.App.PulledFiles

/-!
# The model that was pulled

After a pull the same reference is looked up in the store, by a second choice
among the names of one directory.  A file in a subdirectory is not among them,
and the directory of a repo is shared with every other repo whose name differs
only in characters that are replaced by a dash.  `faithful_iff` says that
nothing else comes between a pull and its lookup.
-/

namespace Runa.App.StoredRefs

open Runa.App.Config (lower)
open Runa.App.Loading (rsplitColon)
open Runa.App.Pull
open Runa.App.PulledFiles
open Runa.App.PulledModels
open Runa.Paths.Places
open Runa.Store
open Runa.Store.Ordered
open Runa.Stream.Utf8

/-! ## Repos and their directories -/

/-- Only letters, digits and dots: no character of the name could be the dash
of another one. -/
def Distinct (repo : Text) : Prop :=
  ∀ char ∈ repo, char.isAlphanum = true ∨ char = '.'

theorem safeChar_safeChar (char : Char) :
    safeChar (safeChar char) = safeChar char := by
  by_cases safe : char.isAlphanum ∨ char = '.' ∨ char = '-'
  · rw [safeChar, safeChar, if_pos safe, if_pos safe]
  · rw [safeChar, safeChar, if_neg safe]
    rfl

theorem safeName_safeName (repo : Text) :
    safeName (safeName repo) = safeName repo := by
  rw [safeName, safeName, List.map_map]
  apply List.map_congr_left
  intro char _
  exact safeChar_safeChar char

theorem safeChar_inj {char other : Char}
    (distinct : char.isAlphanum = true ∨ char = '.')
    (same : safeChar other = safeChar char) : other = char := by
  have safe : safeChar char = char :=
    if_pos (distinct.imp_right Or.inl)
  rw [safe, safeChar] at same
  split at same
  · exact same
  · subst same
    rcases distinct with absurd | absurd
    · cases absurd
    · cases absurd

/-- No other repo has the directory of a distinct one. -/
theorem safeName_inj {repo other : Text} (distinct : Distinct repo)
    (same : safeName other = safeName repo) : other = repo := by
  induction repo generalizing other with
  | nil => exact List.map_eq_nil_iff.mp same
  | cons char repo induction =>
      cases other with
      | nil => cases same
      | cons first other =>
          rw [safeName, safeName, List.map_cons, List.map_cons,
            List.cons.injEq] at same
          rcases same with ⟨here, there⟩
          rw [safeChar_inj (distinct char List.mem_cons_self) here,
            induction (fun char member =>
              distinct char (List.mem_cons_of_mem _ member)) there]

theorem slash_of_safeChar (char : Char) : safeChar char ≠ '/' := by
  rw [safeChar]
  split
  · next safe =>
      rintro rfl
      revert safe
      decide
  · decide

theorem dot_of_safeChar {char : Char} (dot : safeChar char = '.') :
    char = '.' := by
  rw [safeChar] at dot
  split at dot
  · exact dot
  · cases dot

theorem eq_of_safeName_dots {repo dots : Text}
    (only : ∀ char ∈ dots, char = '.') (same : safeName repo = dots) :
    repo = dots := by
  subst same
  rw [safeName] at only ⊢
  conv_lhs => rw [← List.map_id repo]
  apply List.map_congr_left
  intro char member
  have dot := only _ (List.mem_map_of_mem member)
  rw [dot]
  exact dot_of_safeChar dot

/-- The directory of a repo has a name. -/
theorem name_of_plain {repo : Text} (plain : Plain repo) :
    Name (safeName repo) := by
  have full : repo ≠ [] := by
    rintro rfl
    exact (plain [] List.mem_cons_self).1 rfl
  refine ⟨?_, ?_, ?_, ?_⟩
  · intro empty
    exact full (List.map_eq_nil_iff.mp empty)
  · intro same
    have repo' := eq_of_safeName_dots (by simp) same
    subst repo'
    exact (plain ['.'] List.mem_cons_self).2.1 rfl
  · intro same
    have repo' := eq_of_safeName_dots (by simp) same
    subst repo'
    exact (plain ['.', '.'] List.mem_cons_self).2.2.1 rfl
  · intro member
    rcases List.mem_map.mp member with ⟨char, -, slash⟩
    exact slash_of_safeChar char slash

/-- Every other repo has a twin. -/
theorem exists_twin {repo : Text} (plain : Plain repo)
    (shared : ¬ Distinct repo) :
    ∃ twin, Plain twin ∧ twin ≠ repo ∧ safeName twin = safeName repo := by
  by_cases safe : safeName repo = repo
  · rw [Distinct] at shared
    push Not at shared
    rcases shared with ⟨dash, member, letter, dot⟩
    have same : safeChar dash = dash :=
      List.map_inj_left.mp (safe.trans (List.map_id repo).symm) dash member
    have dash' : dash = '-' := by
      rw [safeChar] at same
      split at same
      · next kept =>
          rcases kept with absurd | absurd | dash'
          · exact (letter absurd).elim
          · exact (dot absurd).elim
          · exact dash'
      · exact same.symm
    subst dash'
    have line : '_' ∈ repo.map fun char => if char = '-' then '_' else char :=
      List.mem_map.mpr ⟨'-', member, rfl⟩
    refine ⟨repo.map fun char => if char = '-' then '_' else char, ?_, ?_, ?_⟩
    · apply Name.plain
      refine ⟨List.ne_nil_of_mem line, ?_, ?_, ?_⟩
      · intro one
        rw [one] at line
        simp at line
      · intro two
        rw [two] at line
        simp at line
      · intro slash
        rcases List.mem_map.mp slash with ⟨char, inside, mapped⟩
        split at mapped
        · cases mapped
        · subst mapped
          exact slash_of_safeChar '/'
            (List.map_inj_left.mp (safe.trans (List.map_id repo).symm) '/'
              inside)
    · intro same
      have kept := List.map_inj_left.mp
        (same.trans (List.map_id repo).symm) '-' member
      cases kept
    · rw [safeName, List.map_map, safeName]
      apply List.map_congr_left
      intro char _
      by_cases dash : char = '-'
      · subst dash
        rfl
      · rw [Function.comp_apply, if_neg dash]
  · exact ⟨safeName repo, (name_of_plain plain).plain, safe,
      safeName_safeName repo⟩

/-! ## The choice of a file -/

theorem first_mem {names : List Text} {best : Text}
    (found : first names = some best) : best ∈ names := by
  cases names with
  | nil => cases found
  | cons name names =>
      rw [first, Option.some.injEq] at found
      subst found
      induction names generalizing name with
      | nil => exact List.mem_singleton_self name
      | cons other names induction =>
          rw [List.foldl_cons]
          split
          · exact List.mem_cons_of_mem name (induction other)
          · rcases List.mem_cons.mp (induction name) with same | later
            · rw [same]
              exact List.mem_cons_self
            · exact List.mem_cons_of_mem name
                (List.mem_cons_of_mem other later)

theorem pickQuant_mem {machine : Machine} {names : List Text}
    {quant best : Text} (picked : pickQuant machine names quant = some best) :
    best ∈ names := by
  rw [pickQuant] at picked
  split at picked
  · next named =>
      cases picked
      exact named
  · dsimp only at picked
    split at picked
    · exact List.mem_of_mem_filter (first_mem picked)
    · exact List.mem_of_mem_filter (first_mem picked)

theorem first_alone {suffixed tagged : Text → Bool} {names : List Text}
    {file : Text}
    (picked : (if names.filter suffixed = [] then first (names.filter tagged)
      else first (names.filter suffixed)) = some file) :
    (if [file].filter suffixed = [] then first ([file].filter tagged)
      else first ([file].filter suffixed)) = some file := by
  split at picked
  · next none =>
      rcases List.mem_filter.mp (first_mem picked) with ⟨member, holds⟩
      have lacks := List.filter_eq_nil_iff.mp none file member
      rw [List.filter_cons_of_neg lacks, List.filter_nil, if_pos rfl,
        List.filter_cons_of_pos holds]
      rfl
  · have holds := (List.mem_filter.mp (first_mem picked)).2
    rw [List.filter_cons_of_pos holds, List.filter_nil,
      if_neg (List.cons_ne_nil _ _)]
    rfl

/-- The file that is picked among others is picked where it is alone. -/
theorem pickQuant_alone {machine : Machine} {names : List Text}
    {quant file : Text} (picked : pickQuant machine names quant = some file) :
    pickQuant machine [file] quant = some file := by
  have member := pickQuant_mem picked
  by_cases same : quant = file
  · subst same
    rw [pickQuant, if_pos (List.mem_singleton_self quant)]
  · have other : quant ∉ names := by
      intro named
      rw [pickQuant, if_pos named, Option.some.injEq] at picked
      exact same picked
    rw [pickQuant, if_neg other] at picked
    rw [pickQuant, if_neg (by rwa [List.mem_singleton])]
    exact first_alone picked

/-- `to_lowercase` takes the ASCII letters at the end of a text one by one. -/
def Lowers (machine : Machine) : Prop :=
  ∀ front back : Text, (∀ char ∈ back, char.toNat < 128) →
    ∃ before, machine.lowercase (front ++ back) = before ++ lower back

theorem ascii_of_toLower {char : Char} (small : char.toLower.toNat < 128) :
    char.toNat < 128 := by
  by_cases upper : char.val ≥ 'A'.val ∧ char.val ≤ 'Z'.val
  · exact Nat.lt_of_le_of_lt upper.2 (by decide)
  · have same : char.toLower = char := dif_neg upper
    rw [same] at small
    exact small

theorem ends_of_isGgufName {machine : Machine} (lowers : Lowers machine)
    {name : Text} (gguf : isGgufName name = some true) :
    ".gguf".toList.isSuffixOf (machine.lowercase name) = true := by
  rw [isGgufName] at gguf
  split at gguf
  · rw [Option.map_eq_some_iff] at gguf
    rcases gguf with ⟨ending, dropped, same⟩
    rw [decide_eq_true_eq] at same
    rcases (dropBytes_eq_some_iff _ _ _).mp dropped with ⟨front, rfl, -⟩
    have ascii : ∀ char ∈ ending, char.toNat < 128 := by
      intro char member
      apply ascii_of_toLower
      have lowered : char.toLower ∈ lower ending :=
        List.mem_map_of_mem member
      rw [same] at lowered
      have small : ".gguf".toList.all (fun char => char.toNat < 128) =
          true := by
        decide +kernel
      exact of_decide_eq_true (List.all_eq_true.mp small _ lowered)
    rcases lowers front ending ascii with ⟨before, lowered⟩
    rw [lowered, same, List.isSuffixOf_iff_suffix]
    exact List.suffix_append before _
  · cases gguf

theorem mem_ggufNames {names kept : List Text} {name : Text}
    (filtered : ggufNames names = some kept) (member : name ∈ kept) :
    name ∈ names ∧ isGgufName name = some true := by
  induction names generalizing kept with
  | nil =>
      cases filtered
      cases member
  | cons other names induction =>
      rw [ggufNames] at filtered
      cases gguf : isGgufName other with
      | none =>
          rw [gguf] at filtered
          cases filtered
      | some is =>
          cases later : ggufNames names with
          | none =>
              rw [gguf, later] at filtered
              cases filtered
          | some more =>
              rw [gguf, later] at filtered
              cases is with
              | false =>
                  cases filtered
                  rcases induction later member with ⟨here, holds⟩
                  exact ⟨List.mem_cons_of_mem other here, holds⟩
              | true =>
                  cases filtered
                  rcases List.mem_cons.mp member with rfl | member
                  · exact ⟨List.mem_cons_self, gguf⟩
                  · rcases induction later member with ⟨here, holds⟩
                    exact ⟨List.mem_cons_of_mem other here, holds⟩

/-! ## References -/

theorem rsplitColon_append (repo : Text) {tag : Text} (free : ':' ∉ tag) :
    rsplitColon (repo ++ ':' :: tag) = some (repo, tag) := by
  have parts : (repo ++ ':' :: tag).reverse =
      tag.reverse ++ ':' :: repo.reverse := by
    rw [List.reverse_append, List.reverse_cons, List.append_assoc]
    rfl
  have open' : ∀ char ∈ tag.reverse, decide (char ≠ ':') = true := by
    intro char member
    rw [decide_eq_true_eq]
    rintro rfl
    exact free (List.mem_reverse.mp member)
  rw [rsplitColon, if_pos (List.mem_append_right repo List.mem_cons_self),
    parts, List.dropWhile_append_of_pos open',
    List.takeWhile_append_of_pos open',
    List.dropWhile_cons_of_neg (by simp), List.takeWhile_cons_of_neg (by simp),
    List.append_nil, List.reverse_reverse, List.drop_one, List.tail_cons,
    List.reverse_reverse]

/-- The last colon is the one in front of the tag. -/
theorem rsplitColon_eq_some_iff {text repo tag : Text} :
    rsplitColon text = some (repo, tag) ↔
      text = repo ++ ':' :: tag ∧ ':' ∉ tag := by
  constructor
  · intro parts
    by_cases colon : ':' ∈ text
    · rcases List.eq_append_cons_of_mem (List.mem_reverse.mpr colon) with
        ⟨back, front, whole, free⟩
      have text' : text = front.reverse ++ ':' :: back.reverse := by
        rw [← List.reverse_reverse text, whole, List.reverse_append,
          List.reverse_cons, List.append_assoc]
        rfl
      have open' : ':' ∉ back.reverse := mt List.mem_reverse.mp free
      rw [text', rsplitColon_append _ open', Option.some.injEq,
        Prod.mk.injEq] at parts
      rw [← parts.1, ← parts.2]
      exact ⟨text', open'⟩
    · rw [rsplitColon, if_neg colon] at parts
      cases parts
  · rintro ⟨rfl, free⟩
    exact rsplitColon_append repo free

/-- `hf:<repo>:<file-or-quant>` -/
def hfText (ref : HfRef) : Text :=
  "hf:".toList ++ (ref.repo ++ ':' :: ref.fileOrQuant)

/-- Which texts are read as a reference. -/
theorem parseModelRef_eq_iff {machine : Machine} {isFile : Bool}
    {text : Text} {ref : HfRef} :
    parseModelRef machine isFile text = .ok (.hf ref) ↔
      text = hfText ref ∧ ref.repo ≠ [] ∧ ref.fileOrQuant ≠ [] ∧
        ':' ∉ ref.fileOrQuant := by
  rw [parseModelRef, hfText]
  constructor
  · intro parsed
    split at parsed
    · next starts =>
        rcases List.isPrefixOf_iff_prefix.mp starts with ⟨rest, rfl⟩
        have behind : ("hf:".toList ++ rest).drop 3 = rest := rfl
        rw [behind] at parsed
        cases split : rsplitColon rest with
        | none =>
            rw [split] at parsed
            cases parsed
        | some both =>
            rcases both with ⟨repo, tag⟩
            rw [split] at parsed
            dsimp only at parsed
            split at parsed
            · cases parsed
            · next full =>
                cases parsed
                rcases rsplitColon_eq_some_iff.mp split with ⟨rfl, free⟩
                rcases not_or.mp full with ⟨repo', tag'⟩
                exact ⟨rfl, repo', tag', free⟩
    · split at parsed
      · cases parsed
      · split at parsed
        · cases parsed
        · cases parsed
  · rintro ⟨rfl, repo, tag, free⟩
    have starts : "hf:".toList.isPrefixOf
        ("hf:".toList ++ (ref.repo ++ ':' :: ref.fileOrQuant)) = true :=
      List.isPrefixOf_iff_prefix.mpr (List.prefix_append _ _)
    have behind : ("hf:".toList ++
        (ref.repo ++ ':' :: ref.fileOrQuant)).drop 3 =
          ref.repo ++ ':' :: ref.fileOrQuant := rfl
    rw [if_pos starts, behind, rsplitColon_append ref.repo free]
    dsimp only
    rw [if_neg (not_or.mpr ⟨repo, tag⟩)]

/-! ## Lookups -/

section

variable {machine : Machine} {process : Process} {disk : Disk}

/-- What a lookup in the store finds, whatever it would say otherwise. -/
theorem findStored_ok_iff {text : Text} {ref : HfRef} {place : Place} :
    findStored machine process disk text ref = .ok place ↔
      if isSafetensorsTag ref.fileOrQuant then
        isMistralDir disk (repoDir process ref.repo) = true ∧
          place = repoDir process ref.repo
      else if ".gguf".toList.isSuffixOf
          (machine.lowercase ref.fileOrQuant) then
        disk.isFile (goto (repoDir process ref.repo) ref.fileOrQuant) =
            true ∧
          place = goto (repoDir process ref.repo) ref.fileOrQuant
      else
        disk.isDir (repoDir process ref.repo) = true ∧
          ∃ best, pickQuant machine
              (storedNames machine disk (repoDir process ref.repo))
              ref.fileOrQuant = some best ∧
            place = goto (repoDir process ref.repo) best := by
  rw [findStored]
  split
  · split
    · next here => simp [here, eq_comm]
    · next missing => simp [missing]
  · split
    · split
      · next here => simp [here, eq_comm]
      · next missing => simp [missing]
    · split
      · next here =>
          cases pickQuant machine
              (storedNames machine disk (repoDir process ref.repo))
              ref.fileOrQuant with
          | none => simp
          | some best => simp [here, eq_comm]
      · next missing => simp [missing]

/-- References that are not local files are looked up in the store. -/
theorem findLocal_eq {text : Text} {ref : HfRef}
    (quiet : literal process disk text = none)
    (parsed : parseModelRef machine (isLocalFile process disk text) text =
      .ok (.hf ref)) :
    findLocal machine process disk (fun _ => none) text =
      findStored machine process disk text ref := by
  rw [findLocal, quiet]
  dsimp only
  rw [findInStore, parsed]

end

/-! ## The store -/

/-- What is below the store: the directories of the repos, and files of
theirs. -/
structure Stored (models : Place) (repos : List Text) (disk : Disk) :
    Prop where
  files : ∀ entry ∈ disk.files, models <+: entry.1 →
    ∃ repo ∈ repos, ∃ rest, rest ≠ [] ∧ Proper rest ∧
      entry.1 = models ++ safeName repo :: rest
  dirs : ∀ place ∈ disk.dirs, models <+: place →
    place = models ∨ ∃ repo ∈ repos, place = models ++ [safeName repo]

theorem mem_names {disk : Disk} {dir : Place} {name : Text}
    (member : name ∈ disk.names dir) :
    ∃ rest, (∃ file, (dir ++ name :: rest, file) ∈ disk.files) ∨
      dir ++ name :: rest ∈ disk.dirs := by
  rw [Disk.names, List.mem_dedup, List.mem_filterMap] at member
  rcases member with ⟨place, member, found⟩
  split at found
  · next within =>
      rcases within with ⟨rest, rfl⟩
      rw [List.drop_left] at found
      cases rest with
      | nil => cases found
      | cons first rest =>
          cases found
          refine ⟨rest, ?_⟩
          rcases List.mem_append.mp member with file | dir'
          · rcases List.mem_map.mp file with ⟨entry, member, same⟩
            refine Or.inl ⟨entry.2, ?_⟩
            rw [← same]
            exact member
          · exact Or.inr dir'
  · cases found

theorem names_of_file {disk : Disk} {dir : Place} {name : Text}
    {rest : Place}
    (there : disk.isFile (dir ++ name :: rest) = true) :
    name ∈ disk.names dir := by
  rcases isFile_iff.mp there with ⟨file, found⟩
  rw [Disk.names, List.mem_dedup, List.mem_filterMap]
  refine ⟨dir ++ name :: rest, List.mem_append_left _ ?_, ?_⟩
  · exact List.mem_map.mpr ⟨_, mem_of_find found, rfl⟩
  · rw [if_pos (List.prefix_append dir _), List.drop_left]
    rfl

theorem isDir_of_file {disk : Disk} {dir : Place} {name : Text}
    {rest : Place}
    (there : disk.isFile (dir ++ name :: rest) = true) :
    disk.isDir dir = true := by
  rcases isFile_iff.mp there with ⟨file, found⟩
  rw [Disk.isDir, Bool.or_eq_true]
  right
  rw [List.any_eq_true]
  refine ⟨_, mem_of_find found, ?_⟩
  rw [Bool.and_eq_true, List.isPrefixOf_iff_prefix, decide_eq_true_eq]
  refine ⟨List.prefix_append dir _, ?_⟩
  intro same
  exact List.cons_ne_nil _ _ (List.append_right_eq_self.mp same.symm)

namespace Stored

variable {models : Place} {repos : List Text} {disk after : Disk}
  {repo : Text}

theorem gathers (stored : Stored models repos disk) {files : List Text}
    (plain : ∀ file ∈ files, Plain file)
    (gathers : Gathers (models ++ [safeName repo]) files disk after) :
    Stored models (repo :: repos) after := by
  constructor
  · intro entry member within
    rcases gathers.only entry member with old | ⟨file, wanted, same⟩
    · rcases stored.files entry old within with
        ⟨other, earlier, rest, some, proper, same⟩
      exact ⟨other, List.mem_cons_of_mem repo earlier, rest, some, proper,
        same⟩
    · refine ⟨repo, List.mem_cons_self, file.splitOn '/',
        List.splitOn_ne_nil '/' file, plain file wanted, ?_⟩
      rw [same, (plain file wanted).goto, List.append_assoc]
      rfl
  · intro place member within
    rcases gathers.dirs place member with old | same
    · rcases stored.dirs place old within with same | ⟨other, earlier, same⟩
      · exact Or.inl same
      · exact Or.inr ⟨other, List.mem_cons_of_mem repo earlier, same⟩
    · exact Or.inr ⟨repo, List.mem_cons_self, same⟩

/-- What is in the directory of a repo has a name. -/
theorem name (stored : Stored models repos disk) {dir name : Text}
    (member : name ∈ disk.names (models ++ [dir])) : Name name := by
  rcases mem_names member with ⟨rest, ⟨file, member⟩ | member⟩
  · rw [List.append_assoc] at member
    rcases stored.files _ member (List.prefix_append models _) with
      ⟨repo, -, below, -, proper, same⟩
    have parts := List.append_cancel_left same
    rw [List.singleton_append, List.cons.injEq] at parts
    apply proper
    rw [← parts.2]
    exact List.mem_cons_self
  · rw [List.append_assoc] at member
    rcases stored.dirs _ member (List.prefix_append models _) with
      same | ⟨repo, -, same⟩
    · cases List.append_right_eq_self.mp same
    · have parts := List.append_cancel_left same
      cases parts

/-- Nothing is in the directory of a distinct repo that was not pulled. -/
theorem fresh (stored : Stored models repos disk)
    (distinct : Distinct repo) (first : repo ∉ repos) :
    (∀ entry ∈ disk.files, ¬ models ++ [safeName repo] <+: entry.1) ∧
      ∀ place ∈ disk.dirs, ¬ models ++ [safeName repo] <+: place := by
  have other : ∀ earlier ∈ repos, safeName earlier ≠ safeName repo := by
    intro earlier member same
    rw [safeName_inj distinct same] at member
    exact first member
  constructor
  · rintro ⟨place, file⟩ member ⟨rest, rfl⟩
    rw [List.append_assoc] at member
    rcases stored.files _ member (List.prefix_append models _) with
      ⟨earlier, pulled, below, -, -, same⟩
    have parts := List.append_cancel_left same
    rw [List.singleton_append, List.cons.injEq] at parts
    exact other earlier pulled parts.1.symm
  · rintro place member ⟨rest, rfl⟩
    rw [List.append_assoc] at member
    rcases stored.dirs _ member (List.prefix_append models _) with
      same | ⟨earlier, pulled, same⟩
    · cases List.append_right_eq_self.mp same
    · have parts := List.append_cancel_left same
      rw [List.singleton_append, List.cons.injEq] at parts
      exact other earlier pulled parts.1.symm

end Stored

/-- The only file of a directory is its only name. -/
theorem names_alone {disk after : Disk} {dir : Place} {file : Text}
    (name : Name file) (gathers : Gathers dir [file] disk after)
    (files : ∀ entry ∈ disk.files, ¬ dir <+: entry.1)
    (dirs : ∀ place ∈ disk.dirs, ¬ dir <+: place) :
    after.names dir = [file] := by
  have there := gathers.there file (List.mem_singleton_self file)
  rw [goto_name name] at there
  apply List.perm_singleton.mp
  apply (List.perm_ext_iff_of_nodup (List.nodup_dedup _)
    (List.nodup_singleton file)).mpr
  intro other
  rw [List.mem_singleton]
  constructor
  · intro member
    rcases mem_names member with ⟨rest, ⟨found, member⟩ | member⟩
    · rcases gathers.only _ member with old | ⟨file', wanted, same⟩
      · exact (files _ old (List.prefix_append dir _)).elim
      · rw [List.mem_singleton] at wanted
        subst wanted
        rw [goto_name name] at same
        exact (List.cons.inj (List.append_cancel_left same)).1
    · rcases gathers.dirs _ member with old | same
      · exact (dirs _ old (List.prefix_append dir _)).elim
      · cases List.append_right_eq_self.mp same
  · rintro rfl
    exact names_of_file there

/-! ## Successful pulls -/

/-- A pull of a repo's file or files that comes through. -/
structure Pulls (machine : Machine) (models : Place) (disk : Disk)
    (call : Call) (ref : HfRef) (pulled : PulledModel) : Prop where
  models : modelsDir call.process = models
  parsed : parseModelRef machine (isLocalFile call.process disk call.ref)
    call.ref = .ok (.hf ref)
  repo : Plain ref.repo
  tag : Plain ref.fileOrQuant
  listed : ∀ names, call.hub.files ref.repo = .ok names →
    ∀ name ∈ names, Plain name
  result : (call.attempt machine disk).result = .ok pulled

/-- The repos that were pulled, and the disk behind the pulls. -/
inductive Reached (machine : Machine) (models : Place) :
    List Text → Disk → Prop where
  | start {disk : Disk} (empty : Stored models [] disk) :
      Reached machine models [] disk
  | pulled {repos : List Text} {disk : Disk} {call : Call} {ref : HfRef}
      {pulled : PulledModel} (reached : Reached machine models repos disk)
      (pulls : Pulls machine models disk call ref pulled) :
      Reached machine models (ref.repo :: repos)
        (call.attempt machine disk).disk

/-- The tag is neither that of snapshots nor the name of a file. -/
def Quant (machine : Machine) (tag : Text) : Prop :=
  isSafetensorsTag tag = false ∧
    ".gguf".toList.isSuffixOf (machine.lowercase tag) = false

namespace Pulls

variable {machine : Machine} {models : Place} {disk : Disk} {call : Call}
  {ref : HfRef} {pulled : PulledModel}

theorem dir (pulls : Pulls machine models disk call ref pulled) :
    repoDir call.process ref.repo = models ++ [safeName ref.repo] := by
  rw [repoDir, goto_name (name_of_plain pulls.repo), pulls.models]

theorem attempt_eq (pulls : Pulls machine models disk call ref pulled) :
    call.attempt machine disk =
      if isSafetensorsTag ref.fileOrQuant then
        pullSafetensors machine call.process call.hub disk ref.repo
      else pullFile machine call.process call.hub disk ref := by
  rw [Call.attempt, pull, pulls.parsed]

theorem plain_of_sibling (pulls : Pulls machine models disk call ref pulled)
    {siblings : List Text}
    (listed : call.hub.siblingsAll ref.repo = .ok siblings) :
    ∀ file ∈ siblings, Plain file := by
  rw [Hub.siblingsAll] at listed
  cases names : call.hub.files ref.repo with
  | error error =>
      rw [names] at listed
      cases listed
  | ok all =>
      rw [names] at listed
      cases listed
      intro file member
      exact pulls.listed all names file
        ((List.mem_insertionSort _).mp member)

/-- The file that a reference stands for is a path in the repo. -/
theorem plain_of_resolved (pulls : Pulls machine models disk call ref pulled)
    {file : Text} (resolved : resolveHf machine call.hub ref = .ok file) :
    Plain file := by
  rw [resolveHf] at resolved
  split at resolved
  · cases resolved
    exact pulls.tag
  · split at resolved
    · cases resolved
    · next all listed =>
        split at resolved
        · cases resolved
        · next siblings filtered =>
            split at resolved
            · next file' picked =>
                cases resolved
                exact pulls.plain_of_sibling listed file
                  (mem_ggufNames filtered (pickQuant_mem picked)).1
            · cases resolved

theorem snapshot (pulls : Pulls machine models disk call ref pulled)
    (tag : isSafetensorsTag ref.fileOrQuant = true) :
    pulled.path = models ++ [safeName ref.repo] ∧
      ∃ files, "config.json".toList ∈ files ∧
        (∀ file ∈ files, Plain file) ∧
        Gathers (models ++ [safeName ref.repo]) files disk
          (call.attempt machine disk).disk ∧
        ∀ download ∈ (call.attempt machine disk).downloads,
          ∃ file ∈ files,
            download.dest = goto (models ++ [safeName ref.repo]) file := by
  have result := pulls.result
  rw [pulls.attempt_eq, if_pos tag] at result ⊢
  rcases pullSafetensors_ok result with
    ⟨siblings, listed, path, config, gathers, dests⟩
  rw [pulls.dir] at path gathers dests
  refine ⟨path, _, config, ?_, gathers, dests⟩
  intro file member
  exact pulls.plain_of_sibling listed file (List.mem_of_mem_filter member)

theorem file (pulls : Pulls machine models disk call ref pulled)
    (tag : isSafetensorsTag ref.fileOrQuant = false) :
    ∃ file, resolveHf machine call.hub ref = .ok file ∧ Plain file ∧
      pulled.path = models ++ safeName ref.repo :: file.splitOn '/' ∧
      Gathers (models ++ [safeName ref.repo]) [file] disk
        (call.attempt machine disk).disk ∧
      (∀ download ∈ (call.attempt machine disk).downloads,
        download.dest = pulled.path) ∧
      ((call.attempt machine disk).downloads = [] →
        (call.attempt machine disk).disk.files = disk.files ∧
        ((call.attempt machine disk).disk.dirs = disk.dirs ∨
          (call.attempt machine disk).disk.dirs =
            (models ++ [safeName ref.repo]) :: disk.dirs)) := by
  have result := pulls.result
  have other : ¬ isSafetensorsTag ref.fileOrQuant = true := by
    rw [tag]
    exact Bool.false_ne_true
  rw [pulls.attempt_eq, if_neg other] at result ⊢
  rcases pullFile_ok result with
    ⟨file, resolved, path, gathers, dests, idle⟩
  have plain := pulls.plain_of_resolved resolved
  rw [pulls.dir] at path gathers dests idle
  refine ⟨file, resolved, plain, ?_, gathers, ?_, idle⟩
  · rw [path, plain.goto, List.append_assoc]
    rfl
  · rw [path]
    exact dests

theorem gathers (pulls : Pulls machine models disk call ref pulled) :
    ∃ files, (∀ file ∈ files, Plain file) ∧
      Gathers (models ++ [safeName ref.repo]) files disk
        (call.attempt machine disk).disk := by
  cases tag : isSafetensorsTag ref.fileOrQuant with
  | true =>
      rcases pulls.snapshot tag with ⟨-, files, -, plain, gathers, -⟩
      exact ⟨files, plain, gathers⟩
  | false =>
      rcases pulls.file tag with ⟨file, -, plain, -, gathers, -⟩
      refine ⟨[file], ?_, gathers⟩
      intro other member
      rw [List.mem_singleton] at member
      subst member
      exact plain

end Pulls

theorem Reached.stored {machine : Machine} {models : Place}
    {repos : List Text} {disk : Disk}
    (reached : Reached machine models repos disk) :
    Stored models repos disk := by
  induction reached with
  | start empty => exact empty
  | pulled reached pulls induction =>
      rcases pulls.gathers with ⟨files, plain, gathers⟩
      exact induction.gathers plain gathers

/-! ## What was pulled is what runs -/

/-- The reference leads to what was pulled, and no reference to another repo
leads to something that the pull wrote. -/
structure Faithful (machine : Machine) (call : Call) (ref : HfRef)
    (pulled : PulledModel) (attempt : Attempt) : Prop where
  own : findLocal machine call.process attempt.disk (fun _ => none)
    call.ref = .ok pulled.path
  others : ∀ text other,
    parseModelRef machine (isLocalFile call.process attempt.disk text)
        text = .ok (.hf other) →
    Plain other.repo → Plain other.fileOrQuant →
      other.repo ≠ ref.repo → ∀ place,
        findLocal machine call.process attempt.disk (fun _ => none) text =
            .ok place →
          ¬ Attempt.Left attempt place

/-- A quant tag stands for a file that is not in a subdirectory. -/
def Flat (machine : Machine) (hub : Hub) (ref : HfRef) : Prop :=
  Quant machine ref.fileOrQuant →
    ∀ file, resolveHf machine hub ref = .ok file → '/' ∉ file

/-- The names in the directory of the repo give the same choice. -/
def Chosen (machine : Machine) (process : Process) (hub : Hub) (disk : Disk)
    (ref : HfRef) : Prop :=
  Quant machine ref.fileOrQuant →
    ∀ file, resolveHf machine hub ref = .ok file →
      pickQuant machine
          (storedNames machine disk (repoDir process ref.repo))
          ref.fileOrQuant = some file

section

variable {machine : Machine} {models : Place} {repos : List Text}
  {disk : Disk} {call : Call} {ref : HfRef} {pulled : PulledModel}

theorem isFile_of_gathers {dir : Place} {file : Text} {files : List Text}
    {disk after : Disk} (gathers : Gathers dir files disk after)
    (plain : Plain file) (member : file ∈ files) :
    after.isFile (dir ++ file.splitOn '/') = true := by
  rw [← plain.goto]
  exact gathers.there file member

theorem isDir_of_gathers {dir : Place} {file : Text} {files : List Text}
    {disk after : Disk} (gathers : Gathers dir files disk after)
    (plain : Plain file) (member : file ∈ files) :
    after.isDir dir = true := by
  have there := isFile_of_gathers gathers plain member
  cases parts : file.splitOn '/' with
  | nil => exact absurd parts (List.splitOn_ne_nil '/' file)
  | cons name rest =>
      rw [parts] at there
      exact isDir_of_file there

theorem parsed_after (pulls : Pulls machine models disk call ref pulled) :
    parseModelRef machine
      (isLocalFile call.process (call.attempt machine disk).disk call.ref)
      call.ref = .ok (.hf ref) :=
  parseModelRef_eq_iff.mpr (parseModelRef_eq_iff.mp pulls.parsed)

/-- The reference leads to what was pulled exactly if the names in the
directory give the same choice after the pull. -/
theorem own_iff (reached : Reached machine models repos disk)
    (pulls : Pulls machine models disk call ref pulled)
    (quiet : literal call.process (call.attempt machine disk).disk call.ref =
      none) :
    findLocal machine call.process (call.attempt machine disk).disk
        (fun _ => none) call.ref = .ok pulled.path ↔
      Chosen machine call.process call.hub (call.attempt machine disk).disk
        ref := by
  have stored := (Reached.pulled reached pulls).stored
  rw [findLocal_eq quiet (parsed_after pulls), findStored_ok_iff, Chosen,
    pulls.dir]
  cases tag : isSafetensorsTag ref.fileOrQuant with
  | true =>
      rcases pulls.snapshot tag with
        ⟨path, files, config, plain, gathers, -⟩
      rw [if_pos rfl]
      apply iff_of_true
      · refine ⟨?_, path⟩
        rw [isMistralDir, Bool.and_eq_true]
        exact ⟨isDir_of_gathers gathers (plain _ config) config,
          gathers.there _ config⟩
      · rintro ⟨absurd, -⟩
        rw [tag] at absurd
        cases absurd
  | false =>
      rcases pulls.file tag with ⟨file, resolved, plain, path, gathers, -⟩
      have here := List.mem_singleton_self file
      rw [if_neg Bool.false_ne_true]
      cases named : ".gguf".toList.isSuffixOf
          (machine.lowercase ref.fileOrQuant) with
      | true =>
          rw [resolveHf, if_pos named] at resolved
          cases resolved
          rw [if_pos rfl]
          apply iff_of_true
          · refine ⟨gathers.there _ here, ?_⟩
            rw [path, plain.goto, List.append_assoc]
            rfl
          · rintro ⟨-, absurd⟩
            rw [named] at absurd
            cases absurd
      | false =>
          rw [if_neg Bool.false_ne_true, resolved]
          constructor
          · rintro ⟨-, best, picked, same⟩ - other resolved'
            cases resolved'
            have member := pickQuant_mem picked
            rw [storedNames, List.mem_insertionSort] at member
            have name := stored.name (List.mem_of_mem_filter member)
            rw [path, goto_name name, List.append_assoc] at same
            have parts := List.append_cancel_left same
            rw [List.singleton_append, List.cons.injEq] at parts
            have whole : file = best := by
              rw [← @List.intercalate_splitOn _ file, parts.2,
                List.intercalate_singleton]
            rw [picked, whole]
          · intro chosen
            have picked := chosen ⟨tag, named⟩ file rfl
            refine ⟨isDir_of_gathers gathers plain here, file, picked, ?_⟩
            rw [path, plain.goto, List.append_assoc]
            rfl

/-- A quant tag that stands for a file was resolved among the siblings. -/
theorem picked_of_resolved {hub : Hub} {file : Text}
    (quant : Quant machine ref.fileOrQuant)
    (resolved : resolveHf machine hub ref = .ok file) :
    isGgufName file = some true ∧
      ∃ siblings, pickQuant machine siblings ref.fileOrQuant = some file := by
  rw [resolveHf, if_neg (by rw [quant.2]; exact Bool.false_ne_true)]
    at resolved
  split at resolved
  · cases resolved
  · split at resolved
    · cases resolved
    · next siblings filtered =>
        split at resolved
        · next file' picked =>
            cases resolved
            exact ⟨(mem_ggufNames filtered (pickQuant_mem picked)).2,
              siblings, picked⟩
        · cases resolved

/-- Where nothing else is in the directory, the choice is the same for files
that are not in a subdirectory. -/
theorem chosen_iff_flat (lowers : Lowers machine)
    (reached : Reached machine models repos disk)
    (pulls : Pulls machine models disk call ref pulled)
    (distinct : Distinct ref.repo) (first : ref.repo ∉ repos) :
    Chosen machine call.process call.hub (call.attempt machine disk).disk
        ref ↔ Flat machine call.hub ref := by
  rw [Chosen, Flat, pulls.dir]
  apply forall_congr'
  intro quant
  apply forall₂_congr
  intro file resolved
  constructor
  · intro picked
    have member := pickQuant_mem picked
    rw [storedNames, List.mem_insertionSort] at member
    exact ((Reached.pulled reached pulls).stored.name
      (List.mem_of_mem_filter member)).2.2.2
  · intro flat
    rcases picked_of_resolved quant resolved with ⟨gguf, siblings, picked⟩
    rcases pulls.file quant.1 with ⟨file', resolved', plain, -, gathers, -⟩
    rw [resolved] at resolved'
    cases resolved'
    have name : Name file := by
      apply plain
      rw [List.splitOn_eq_singleton flat]
      exact List.mem_singleton_self file
    rcases reached.stored.fresh distinct first with ⟨files, dirs⟩
    have alone : storedNames machine (call.attempt machine disk).disk
        (models ++ [safeName ref.repo]) = [file] := by
      rw [storedNames, names_alone name gathers files dirs, List.filter,
        ends_of_isGgufName lowers gguf]
      rfl
    rw [alone]
    exact pickQuant_alone picked

/-- A pull that downloads nothing leaves the choice as it was. -/
theorem chosen_idle (pulls : Pulls machine models disk call ref pulled)
    (idle : (call.attempt machine disk).downloads = []) :
    Chosen machine call.process call.hub (call.attempt machine disk).disk
        ref ↔ Chosen machine call.process call.hub disk ref := by
  rw [Chosen, Chosen, pulls.dir]
  apply forall_congr'
  intro quant
  rcases pulls.file quant.1 with ⟨-, -, -, -, -, -, same⟩
  rcases same idle with ⟨files, dirs⟩
  have names : (call.attempt machine disk).disk.names
      (models ++ [safeName ref.repo]) =
        disk.names (models ++ [safeName ref.repo]) := by
    rw [Disk.names, Disk.names, files]
    rcases dirs with dirs | dirs
    · rw [dirs]
    · rw [dirs, List.filterMap_append, List.filterMap_append,
        List.filterMap_cons_none]
      rw [if_pos (List.prefix_refl _), List.drop_length]
      rfl
  rw [storedNames, storedNames, names]

/-- What is found for a repo is in its directory. -/
theorem below_of_found (stored : Stored models repos disk)
    {process : Process} (here : modelsDir process = models) {text : Text}
    {other : HfRef} (repo : Plain other.repo)
    (plain : Plain other.fileOrQuant) {place : Place}
    (found : findStored machine process disk text other = .ok place) :
    models ++ [safeName other.repo] <+: place := by
  have dir : repoDir process other.repo =
      models ++ [safeName other.repo] := by
    rw [repoDir, goto_name (name_of_plain repo), here]
  rw [findStored_ok_iff, dir] at found
  split at found
  · rw [found.2]
  · split at found
    · rw [found.2, plain.goto]
      exact List.prefix_append _ _
    · rcases found.2 with ⟨best, picked, same⟩
      have member := pickQuant_mem picked
      rw [storedNames, List.mem_insertionSort] at member
      rw [same, goto_name (stored.name (List.mem_of_mem_filter member))]
      exact List.prefix_append _ _

/-- Every download of a pull is in the directory of its repo. -/
theorem dest_below (pulls : Pulls machine models disk call ref pulled)
    {download : Download}
    (member : download ∈ (call.attempt machine disk).downloads) :
    ∃ rest, download.dest = models ++ safeName ref.repo :: rest ∧
      (call.attempt machine disk).disk.isFile download.dest = true ∧
      pulled.path <+: download.dest := by
  cases tag : isSafetensorsTag ref.fileOrQuant with
  | true =>
      rcases pulls.snapshot tag with
        ⟨path, files, -, plain, gathers, dests⟩
      rcases dests download member with ⟨file, wanted, same⟩
      refine ⟨file.splitOn '/', ?_, ?_, ?_⟩
      · rw [same, (plain file wanted).goto, List.append_assoc]
        rfl
      · rw [same]
        exact gathers.there file wanted
      · rw [same, path, (plain file wanted).goto]
        exact List.prefix_append _ _
  | false =>
      rcases pulls.file tag with
        ⟨file, -, plain, path, gathers, dests, -⟩
      have there :=
        isFile_of_gathers gathers plain (List.mem_singleton_self file)
      rw [List.append_assoc, List.singleton_append, ← path] at there
      rw [dests download member]
      exact ⟨file.splitOn '/', path, there, List.prefix_refl _⟩

/-- A repo with a twin gives it what it downloads. -/
theorem distinct_of_faithful
    (pulls : Pulls machine models disk call ref pulled)
    (quiet : ∀ other : HfRef, Plain other.repo → Plain other.fileOrQuant →
      literal call.process (call.attempt machine disk).disk
        (hfText other) = none)
    (faithful : Faithful machine call ref pulled (call.attempt machine disk))
    (busy : (call.attempt machine disk).downloads ≠ []) :
    Distinct ref.repo := by
  by_contra shared
  rcases exists_twin pulls.repo shared with ⟨twin, plain, apart, same⟩
  rcases List.exists_mem_of_ne_nil _ busy with ⟨download, member⟩
  rcases dest_below pulls member with ⟨rest, -, there, within⟩
  rcases parseModelRef_eq_iff.mp pulls.parsed with ⟨text, repo, tag, free⟩
  have twin' : twin ≠ [] := by
    rintro rfl
    exact repo (List.map_eq_nil_iff.mp same.symm)
  have parsed : parseModelRef machine
      (isLocalFile call.process (call.attempt machine disk).disk
        (hfText ⟨twin, ref.fileOrQuant⟩))
      (hfText ⟨twin, ref.fileOrQuant⟩) =
        .ok (.hf ⟨twin, ref.fileOrQuant⟩) :=
    parseModelRef_eq_iff.mpr ⟨rfl, twin', tag, free⟩
  have found := faithful.own
  have here := quiet ref pulls.repo pulls.tag
  rw [← text] at here
  rw [findLocal_eq here (parsed_after pulls), findStored_ok_iff] at found
  apply faithful.others _ _ parsed plain pulls.tag apart pulled.path
  · rw [findLocal_eq (quiet ⟨twin, ref.fileOrQuant⟩ plain pulls.tag) parsed,
      findStored_ok_iff, repoDir, same]
    exact found
  · exact ⟨download, member, within, there⟩

/-- Nothing of a distinct repo is found for another one. -/
theorem apart_of_distinct (reached : Reached machine models repos disk)
    (pulls : Pulls machine models disk call ref pulled)
    (distinct : Distinct ref.repo) {text : Text} {other : HfRef}
    (repo : Plain other.repo) (tag : Plain other.fileOrQuant)
    (apart : other.repo ≠ ref.repo) {place : Place}
    (found : findStored machine call.process
      (call.attempt machine disk).disk text other = .ok place) :
    ¬ Attempt.Left (call.attempt machine disk) place := by
  rintro ⟨download, member, within, -⟩
  rcases dest_below pulls member with ⟨rest, dest, -, -⟩
  have below := (below_of_found (Reached.pulled reached pulls).stored
    pulls.models repo tag found).trans within
  rw [dest, List.prefix_append_right_inj, List.prefix_cons_iff] at below
  apply apart
  apply safeName_inj distinct
  rcases below with absurd | ⟨more, same, -⟩
  · cases absurd
  · exact (List.cons.inj same).1

end

/-- After the first pull from a repo, its reference leads to what was pulled
and no reference to another repo does, exactly if the repo has a directory of
its own and a quant tag stands for no file in a subdirectory; or if the pull
downloads nothing, and the names that are there give the same choice. -/
theorem faithful_iff {machine : Machine} (lowers : Lowers machine)
    {models : Place} {repos : List Text} {disk : Disk}
    (reached : Reached machine models repos disk) {call : Call} {ref : HfRef}
    {pulled : PulledModel}
    (pulls : Pulls machine models disk call ref pulled)
    (first : ref.repo ∉ repos)
    (quiet : ∀ other, Plain other.repo → Plain other.fileOrQuant →
      literal call.process (call.attempt machine disk).disk
        (hfText other) = none) :
    Faithful machine call ref pulled (call.attempt machine disk) ↔
      Distinct ref.repo ∧ Flat machine call.hub ref ∨
        (call.attempt machine disk).downloads = [] ∧
          Chosen machine call.process call.hub disk ref := by
  have text := (parseModelRef_eq_iff.mp pulls.parsed).1
  have here : literal call.process (call.attempt machine disk).disk
      call.ref = none := by
    rw [text]
    exact quiet ref pulls.repo pulls.tag
  have own := own_iff reached pulls here
  constructor
  · intro faithful
    have chosen := own.mp faithful.own
    by_cases idle : (call.attempt machine disk).downloads = []
    · exact Or.inr ⟨idle, (chosen_idle pulls idle).mp chosen⟩
    · have distinct := distinct_of_faithful pulls quiet faithful idle
      exact Or.inl ⟨distinct,
        (chosen_iff_flat lowers reached pulls distinct first).mp chosen⟩
  · rintro (⟨distinct, flat⟩ | ⟨idle, chosen⟩)
    · constructor
      · exact own.mpr
          ((chosen_iff_flat lowers reached pulls distinct first).mpr flat)
      · intro text' other parsed repo tag apart place found
        have there := quiet other repo tag
        rw [← (parseModelRef_eq_iff.mp parsed).1] at there
        rw [findLocal_eq there parsed] at found
        exact apart_of_distinct reached pulls distinct repo tag apart found
    · constructor
      · exact own.mpr ((chosen_idle pulls idle).mpr chosen)
      · rintro text' other - - - - place - ⟨download, member, -⟩
        rw [idle] at member
        cases member

/-! Two first pulls: from a repo with a plain name, and from one with an
underscore in its name. -/

theorem lowers_plain : Lowers plainMachine := by
  intro front back _
  exact ⟨lower front, List.map_append⟩

def emptyDisk : Disk :=
  ⟨[], [], []⟩

def fullHub : Hub where
  fetcher := .ok ()
  client := .ok ()
  makeDir := .ok ()
  files _ := .ok ["x-Q4.gguf".toList]
  headMetadata _ := .ok ⟨some 2, none⟩
  download _ _ := ⟨some [1, 2], 0, none⟩

def fullCall (ref : HfRef) : Call :=
  ⟨shell, fullHub, hfText ref⟩

def quantOf (repo : Text) : HfRef :=
  ⟨repo, "Q4".toList⟩

def modelOf (repo : Text) : PulledModel where
  path := modelsDir shell ++ [safeName repo, "x-Q4.gguf".toList]
  repo := repo
  file := "x-Q4.gguf".toList
  size := 2
  fresh := true

theorem name_small {part : Text}
    (small : (part.isEmpty || part == ['.'] || part == ['.', '.'] ||
      part.contains '/') = false) : Name part := by
  simp only [Bool.or_eq_false_iff, beq_eq_false_iff_ne,
    List.isEmpty_eq_false_iff, List.contains_eq_mem,
    decide_eq_false_iff_not] at small
  exact ⟨small.1.1.1, small.1.1.2, small.1.2, small.2⟩

theorem pulls_full {repo : Text} (plain : Plain repo)
    (result : ((fullCall (quantOf repo)).attempt plainMachine
      emptyDisk).result = .ok (modelOf repo)) :
    Pulls plainMachine (modelsDir shell) emptyDisk (fullCall (quantOf repo))
      (quantOf repo) (modelOf repo) := by
  constructor
  · rfl
  · apply parseModelRef_eq_iff.mpr
    refine ⟨rfl, ?_, List.cons_ne_nil _ _, by simp [quantOf]⟩
    rintro rfl
    exact (plain [] List.mem_cons_self).1 rfl
  · exact plain
  · exact (@name_small "Q4".toList (by decide)).plain
  · intro names listed name member
    cases listed
    rw [List.mem_singleton] at member
    subst member
    exact (name_small (by decide)).plain
  · exact result

theorem plain_hfText {ref : HfRef} (repo : Plain ref.repo)
    (tag : Plain ref.fileOrQuant) : Plain (hfText ref) := by
  have scheme : Plain "hf:".toList := by
    apply Name.plain
    refine ⟨?_, ?_, ?_, ?_⟩ <;> decide
  have colon : Plain [':'] := by
    apply Name.plain
    refine ⟨?_, ?_, ?_, ?_⟩ <;> decide
  exact scheme.append (repo.append (colon.append tag))

theorem pulls_qwen :
    Pulls plainMachine (modelsDir shell) emptyDisk
      (fullCall (quantOf "qwen".toList)) (quantOf "qwen".toList)
      (modelOf "qwen".toList) :=
  pulls_full (name_small (by decide)).plain (by decide +kernel)

/-- No reference is a path to the model of the plain repo. -/
theorem quiet_qwen (other : HfRef) (repo : Plain other.repo)
    (tag : Plain other.fileOrQuant) :
    literal shell ((fullCall (quantOf "qwen".toList)).attempt plainMachine
      emptyDisk).disk (hfText other) = none := by
  have disk : ((fullCall (quantOf "qwen".toList)).attempt plainMachine
      emptyDisk).disk =
        ⟨[((modelOf "qwen".toList).path, ⟨[1, 2], 0⟩)], [],
          [modelsDir shell ++ ["qwen".toList]]⟩ := by
    decide +kernel
  have head : ∃ rest more, (hfText other).splitOn '/' =
      ('h' :: rest) :: more := by
    rw [hfText]
    cases parts : ("f:".toList ++ (other.repo ++
        ':' :: other.fileOrQuant)).splitOn '/' with
    | nil => exact absurd parts (List.splitOn_ne_nil _ _)
    | cons part more =>
        refine ⟨part, more, ?_⟩
        show ('h' :: ("f:".toList ++ (other.repo ++
          ':' :: other.fileOrQuant))).splitOn '/' = _
        rw [List.splitOn_cons_eq_if_modifyHead, parts]
        rfl
  rcases head with ⟨rest, more, parts⟩
  have apart (tail : Place) :
      ¬ workDir shell ++ ('h' :: rest) :: more <+:
        workDir shell ++ ".local".toList :: tail := by
    rw [List.prefix_append_right_inj, List.cons_prefix_cons]
    rintro ⟨same, -⟩
    cases same
  have path : (modelOf "qwen".toList).path =
      workDir shell ++ ".local".toList :: ["share".toList, "runa".toList,
        "models".toList, "qwen".toList, "x-Q4.gguf".toList] := by
    decide +kernel
  have dir : modelsDir shell ++ ["qwen".toList] =
      workDir shell ++ ".local".toList :: ["share".toList, "runa".toList,
        "models".toList, "qwen".toList] := by
    decide +kernel
  rw [literal, isLocalFile, (plain_hfText repo tag).goto, parts, disk, path,
    dir]
  apply if_neg
  rintro (there | ⟨-, there⟩)
  · rw [Bool.and_eq_true] at there
    replace there := there.2
    rw [Disk.isFile, Disk.file, find, if_neg] at there
    · cases there
    · intro same
      apply apart
      rw [same]
  · rw [Disk.isDir, Bool.or_eq_true, List.any_eq_true,
      List.any_eq_true] at there
    rcases there with ⟨place, member, within⟩ | ⟨entry, member, within⟩
    · rw [List.mem_singleton] at member
      subst member
      exact apart _ (List.isPrefixOf_iff_prefix.mp within)
    · rw [List.mem_singleton] at member
      subst member
      rw [Bool.and_eq_true, List.isPrefixOf_iff_prefix] at within
      exact apart _ within.1

theorem faithful_qwen :
    Faithful plainMachine (fullCall (quantOf "qwen".toList))
        (quantOf "qwen".toList) (modelOf "qwen".toList)
        ((fullCall (quantOf "qwen".toList)).attempt plainMachine
          emptyDisk) ↔
      Distinct "qwen".toList ∧
          Flat plainMachine fullHub (quantOf "qwen".toList) ∨
        ((fullCall (quantOf "qwen".toList)).attempt plainMachine
            emptyDisk).downloads = [] ∧
          Chosen plainMachine shell fullHub emptyDisk
            (quantOf "qwen".toList) := by
  have empty : Reached plainMachine (modelsDir shell) [] emptyDisk := by
    apply Reached.start
    constructor
    · rintro entry ⟨⟩
    · rintro place ⟨⟩
  exact faithful_iff lowers_plain empty pulls_qwen List.not_mem_nil quiet_qwen

theorem plain_underscore (underscore : Char)
    (either : underscore = '_' ∨ underscore = '-') :
    Plain ['o', '/', 'a', underscore, 'b'] := by
  intro part member
  rcases either with rfl | rfl
  · have parts : ['o', '/', 'a', '_', 'b'].splitOn '/' =
        [['o'], ['a', '_', 'b']] := by
      decide
    rw [parts, List.mem_pair] at member
    rcases member with rfl | rfl
    · exact name_small (by decide)
    · exact name_small (by decide)
  · have parts : ['o', '/', 'a', '-', 'b'].splitOn '/' =
        [['o'], ['a', '-', 'b']] := by
      decide
    rw [parts, List.mem_pair] at member
    rcases member with rfl | rfl
    · exact name_small (by decide)
    · exact name_small (by decide)

theorem pulls_underscore :
    Pulls plainMachine (modelsDir shell) emptyDisk
      (fullCall (quantOf "o/a_b".toList)) (quantOf "o/a_b".toList)
      (modelOf "o/a_b".toList) :=
  pulls_full (plain_underscore '_' (Or.inl rfl)) (by decide +kernel)

/-- The model of one repo is found for another one. -/
theorem not_faithful_underscore :
    Pulls plainMachine (modelsDir shell) emptyDisk
        (fullCall (quantOf "o/a_b".toList)) (quantOf "o/a_b".toList)
        (modelOf "o/a_b".toList) ∧
      ¬ Faithful plainMachine (fullCall (quantOf "o/a_b".toList))
        (quantOf "o/a_b".toList) (modelOf "o/a_b".toList)
        ((fullCall (quantOf "o/a_b".toList)).attempt plainMachine
          emptyDisk) := by
  refine ⟨pulls_underscore, ?_⟩
  rintro ⟨-, others⟩
  have parsed (isFile : Bool) :
      parseModelRef plainMachine isFile (hfText (quantOf "o/a-b".toList)) =
        .ok (.hf (quantOf "o/a-b".toList)) :=
    parseModelRef_eq_iff.mpr
      ⟨rfl, List.cons_ne_nil _ _, List.cons_ne_nil _ _, by simp [quantOf]⟩
  apply others _ _ (parsed _) (plain_underscore '-' (Or.inr rfl))
    (@name_small "Q4".toList (by decide)).plain (by decide)
    (modelOf "o/a_b".toList).path (by decide +kernel)
  refine ⟨⟨(modelOf "o/a_b".toList).path, [1, 2], ⟨some 2, none⟩⟩, ?_,
    List.prefix_refl _, ?_⟩
  · decide +kernel
  · decide +kernel

end Runa.App.StoredRefs
