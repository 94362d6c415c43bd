import Runa.App.PulledModels

/-!
# What a pull adds to the disk

A pull that comes through adds files to one directory and takes none away.
What it returns is one of them, or the directory itself.
-/

namespace Runa.App.PulledFiles

open Runa.App.Pull
open Runa.App.PulledModels
open Runa.Paths.Places
open Runa.Store
open Runa.Store.Ordered
open Runa.Stream.Utf8

/-- A disk with files that were added to a directory. -/
structure Gathers (dir : Place) (files : List Text) (disk after : Disk) :
    Prop where
  dirs : ∀ place ∈ after.dirs, place ∈ disk.dirs ∨ place = dir
  keeps : ∀ place, disk.isFile place = true → after.isFile place = true
  there : ∀ file ∈ files, after.isFile (goto dir file) = true
  only : ∀ entry ∈ after.files,
    entry ∈ disk.files ∨ ∃ file ∈ files, entry.1 = goto dir file

namespace Gathers

variable {dir : Place} {file : Text} {files more : List Text}
  {disk middle after : Disk}

theorem trans (first : Gathers dir files disk middle)
    (second : Gathers dir more middle after) :
    Gathers dir (files ++ more) disk after := by
  constructor
  · intro place member
    rcases second.dirs place member with old | new
    · exact first.dirs place old
    · exact Or.inr new
  · intro place there
    exact second.keeps place (first.keeps place there)
  · intro file member
    rcases List.mem_append.mp member with front | back
    · exact second.keeps _ (first.there file front)
    · exact second.there file back
  · intro entry member
    rcases second.only entry member with old | ⟨file, new, place⟩
    · rcases first.only entry old with older | ⟨file, new, place⟩
      · exact Or.inl older
      · exact Or.inr ⟨file, List.mem_append_left more new, place⟩
    · exact Or.inr ⟨file, List.mem_append_right files new, place⟩

/-- Nothing is added but the directory. -/
theorem makeDir (disk : Disk) (dir : Place) :
    Gathers dir [] disk (disk.makeDir dir) := by
  constructor
  · intro place member
    exact (List.mem_cons.mp member).symm
  · intro place there
    exact there
  · rintro file ⟨⟩
  · intro entry member
    exact Or.inl member

/-- Nothing is added where the file is already there. -/
theorem present (files : after.files = disk.files)
    (dirs : after.dirs = disk.dirs)
    (there : disk.isFile (goto dir file) = true) :
    Gathers dir [file] disk after := by
  have same (place : Place) : after.isFile place = disk.isFile place := by
    rw [Disk.isFile, Disk.file, files]
    rfl
  constructor
  · intro place member
    rw [dirs] at member
    exact Or.inl member
  · intro place found
    rw [same]
    exact found
  · intro other member
    rw [List.mem_singleton] at member
    subst member
    rw [same]
    exact there
  · intro entry member
    rw [files] at member
    exact Or.inl member

theorem written {found : File}
    (files : after.files = put (goto dir file) found disk.files)
    (dirs : after.dirs = disk.dirs) : Gathers dir [file] disk after := by
  have here : after.isFile (goto dir file) = true := by
    rw [Disk.isFile, Disk.file, files, find_put_self]
    rfl
  constructor
  · intro place member
    rw [dirs] at member
    exact Or.inl member
  · intro place there
    by_cases same : place = goto dir file
    · rw [same]
      exact here
    · rw [Disk.isFile, Disk.file, files, find_put_of_ne same]
      exact there
  · intro other member
    rw [List.mem_singleton] at member
    subst member
    exact here
  · intro entry member
    rw [files] at member
    rcases mem_put member with rfl | old
    · exact Or.inr ⟨file, List.mem_singleton_self file, rfl⟩
    · exact Or.inl old

end Gathers

section

variable {machine : Machine} {process : Process} {hub : Hub} {disk : Disk}

theorem verified_same {dest : Place} {declared : FileMeta} {size : Nat}
    {after : Disk}
    (verified : verifyDownloaded machine process disk dest declared =
      (.ok size, after)) :
    after.files = disk.files ∧ after.dirs = disk.dirs := by
  rw [verifyDownloaded] at verified
  split at verified
  · cases verified
  · split at verified
    · cases verified
      exact ⟨rfl, rfl⟩
    · split at verified
      · cases verified
        exact ⟨rfl, rfl⟩
      · cases verified

/-- A download that gets through adds its file, or finds it there. -/
theorem fetch_gathers {dir : Place} {repo file : Text} {declared : FileMeta}
    {size : Nat} {after : Disk} {downloads : List Download}
    (fetched : fetch machine process hub disk repo file (goto dir file)
      declared = (.ok size, after, downloads)) :
    Gathers dir [file] disk after ∧
      (downloads = [] → after.files = disk.files ∧ after.dirs = disk.dirs) := by
  rw [fetch] at fetched
  dsimp only at fetched
  split at fetched
  · cases fetched
  · split at fetched
    · next there =>
        generalize result : verifyDownloaded machine process
          (disk.land (goto dir file) (hub.download repo file))
          (goto dir file) declared = both at fetched
        rcases both with ⟨result', after'⟩
        cases fetched
        rcases verified_same result with ⟨files, dirs⟩
        rw [Disk.land] at files dirs there
        cases landing : (hub.download repo file).at (goto dir file) with
        | none =>
            rw [landing] at files dirs there
            exact ⟨Gathers.present files dirs there, fun _ => ⟨files, dirs⟩⟩
        | some bytes =>
            rw [landing] at files dirs
            refine ⟨Gathers.written files dirs, ?_⟩
            intro absurd
            cases absurd
    · cases fetched

theorem pullFiles_gathers (repo : Text) {dir : Place}
    {downloads all : List Download} {total : Nat} {fresh : Bool}
    {files : List Text} {sum : Nat × Bool} {after : Disk}
    (pulled : pullFiles machine process hub repo dir disk downloads total
      fresh files = (.ok sum, after, all)) :
    Gathers dir files disk after ∧
      ∀ download ∈ all, download ∈ downloads ∨
        ∃ file ∈ files, download.dest = goto dir file := by
  induction files generalizing disk downloads total fresh with
  | nil =>
      cases pulled
      refine ⟨?_, fun download member => Or.inl member⟩
      constructor
      · intro place member
        exact Or.inl member
      · intro place there
        exact there
      · rintro file ⟨⟩
      · intro entry member
        exact Or.inl member
  | cons file files induction =>
      rw [pullFiles] at pulled
      split at pulled
      · cases pulled
      · next declared _ =>
          dsimp only at pulled
          split at pulled
          · next hit middle cached =>
              rcases cached_hit cached with ⟨-, there, same, dirs⟩
              rcases induction pulled with ⟨gathers, dests⟩
              refine ⟨(Gathers.present same dirs there).trans gathers, ?_⟩
              intro download member
              rcases dests download member with old | ⟨other, member, dest⟩
              · exact Or.inl old
              · exact Or.inr ⟨other, List.mem_cons_of_mem file member, dest⟩
          · split at pulled
            · cases pulled
            · next size middle more fetched =>
                rcases induction pulled with ⟨gathers, dests⟩
                refine ⟨(fetch_gathers fetched).1.trans gathers, ?_⟩
                intro download member
                rcases dests download member with old | ⟨other, member, dest⟩
                · rcases List.mem_append.mp old with older | new
                  · exact Or.inl older
                  · have landed : download ∈ (fetch machine process hub disk
                        repo file (goto dir file) declared).2.2 := by
                      rw [fetched]
                      exact new
                    exact Or.inr
                      ⟨file, List.mem_cons_self, (fetch_dest landed).1⟩
                · exact Or.inr
                    ⟨other, List.mem_cons_of_mem file member, dest⟩

theorem pullSafetensors_ok {repo : Text} {pulled : PulledModel}
    (ok : (pullSafetensors machine process hub disk repo).result =
      .ok pulled) :
    ∃ siblings, hub.siblingsAll repo = .ok siblings ∧
      pulled.path = repoDir process repo ∧
      "config.json".toList ∈ siblings.filter isSnapshotFile ∧
      Gathers (repoDir process repo) (siblings.filter isSnapshotFile) disk
        (pullSafetensors machine process hub disk repo).disk ∧
      ∀ download ∈ (pullSafetensors machine process hub disk repo).downloads,
        ∃ file ∈ siblings.filter isSnapshotFile,
          download.dest = goto (repoDir process repo) file := by
  rw [pullSafetensors] at ok ⊢
  cases fetcher : hub.fetcher with
  | error error =>
      rw [fetcher] at ok
      cases ok
  | ok _ =>
  rw [fetcher] at ok
  cases listed : hub.siblingsAll repo with
  | error error =>
      rw [listed] at ok
      cases ok
  | ok siblings =>
  rw [listed] at ok
  dsimp only at ok ⊢
  split at ok
  · cases ok
  · next config =>
  rw [if_neg config]
  split at ok
  · cases ok
  · next weights =>
  rw [if_neg weights]
  cases client : hub.client with
  | error error =>
      rw [client] at ok
      cases ok
  | ok _ =>
  rw [client] at ok
  dsimp only at ok ⊢
  cases made : hub.makeDir with
  | error error =>
      rw [made] at ok
      cases ok
  | ok _ =>
  rw [made] at ok
  dsimp only at ok ⊢
  generalize ended : pullFiles machine process hub repo
    (repoDir process repo) (disk.makeDir (repoDir process repo)) [] 0 false
    (siblings.filter isSnapshotFile) = both at ok ⊢
  rcases both with ⟨result, after, all⟩
  cases result with
  | error error => cases ok
  | ok sum =>
      rcases pullFiles_gathers repo ended with ⟨gathers, dests⟩
      cases ok
      refine ⟨siblings, rfl, rfl, ?_, (Gathers.makeDir disk _).trans gathers,
        ?_⟩
      · exact List.mem_filter.mpr ⟨not_not.mp config, by decide +kernel⟩
      · intro download member
        rcases dests download member with absurd | found
        · cases absurd
        · exact found

/-- What a pull of one file gives, and that it changes nothing if it downloads
nothing. -/
theorem download_ok {repo file : Text} {declared : FileMeta}
    {pulled : PulledModel}
    (ok : (download machine process hub disk repo file
      (goto (repoDir process repo) file) declared).result = .ok pulled) :
    pulled.path = goto (repoDir process repo) file ∧
      Gathers (repoDir process repo) [file] disk
        (download machine process hub disk repo file
          (goto (repoDir process repo) file) declared).disk ∧
      (∀ landed ∈ (download machine process hub disk repo file
          (goto (repoDir process repo) file) declared).downloads,
        landed.dest = goto (repoDir process repo) file) ∧
      ((download machine process hub disk repo file
            (goto (repoDir process repo) file) declared).downloads = [] →
        (download machine process hub disk repo file
            (goto (repoDir process repo) file) declared).disk.files =
          disk.files ∧
        (download machine process hub disk repo file
            (goto (repoDir process repo) file) declared).disk.dirs =
          repoDir process repo :: disk.dirs) := by
  rw [download] at ok ⊢
  cases client : hub.client with
  | error error =>
      rw [client] at ok
      cases ok
  | ok _ =>
  rw [client] at ok
  dsimp only at ok ⊢
  cases made : hub.makeDir with
  | error error =>
      rw [made] at ok
      cases ok
  | ok _ =>
  rw [made] at ok
  dsimp only at ok ⊢
  generalize ended : fetch machine process hub
    (disk.makeDir (repoDir process repo)) repo file
    (goto (repoDir process repo) file) declared = both at ok ⊢
  rcases both with ⟨result, after, all⟩
  cases result with
  | error error => cases ok
  | ok size =>
      rcases fetch_gathers ended with ⟨gathers, none⟩
      have dests : ∀ landed ∈ all,
          landed.dest = goto (repoDir process repo) file := by
        intro landed member
        have fetched : landed ∈ (fetch machine process hub
            (disk.makeDir (repoDir process repo)) repo file
            (goto (repoDir process repo) file) declared).2.2 := by
          rw [ended]
          exact member
        exact (fetch_dest fetched).1
      dsimp only at ok ⊢
      cases limited : checkSizeLimit process size repo file with
      | error error =>
          rw [limited] at ok
          cases ok
      | ok _ =>
          rw [limited] at ok
          cases ok
          exact ⟨rfl, (Gathers.makeDir disk _).trans gathers, dests, none⟩

theorem pullFile_ok {ref : HfRef} {pulled : PulledModel}
    (ok : (pullFile machine process hub disk ref).result = .ok pulled) :
    ∃ file, resolveHf machine hub ref = .ok file ∧
      pulled.path = goto (repoDir process ref.repo) file ∧
      Gathers (repoDir process ref.repo) [file] disk
        (pullFile machine process hub disk ref).disk ∧
      (∀ landed ∈ (pullFile machine process hub disk ref).downloads,
        landed.dest = goto (repoDir process ref.repo) file) ∧
      ((pullFile machine process hub disk ref).downloads = [] →
        (pullFile machine process hub disk ref).disk.files = disk.files ∧
        ((pullFile machine process hub disk ref).disk.dirs = disk.dirs ∨
          (pullFile machine process hub disk ref).disk.dirs =
            repoDir process ref.repo :: disk.dirs)) := by
  rw [pullFile] at ok ⊢
  cases fetcher : hub.fetcher with
  | error error =>
      rw [fetcher] at ok
      cases ok
  | ok _ =>
  rw [fetcher] at ok
  cases resolved : resolveHf machine hub ref with
  | error failure =>
      rw [resolved] at ok
      cases ok
  | ok file =>
  rw [resolved] at ok
  dsimp only at ok ⊢
  cases answered : hub.headMetadata (resolveHfUrl ref.repo file) with
  | error error =>
      rw [answered] at ok
      cases ok
  | ok declared =>
  rw [answered] at ok
  dsimp only at ok ⊢
  cases checked : checkDeclared process declared ref.repo file with
  | error error =>
      rw [checked] at ok
      cases ok
  | ok _ =>
  rw [checked] at ok
  dsimp only at ok ⊢
  cases cached : cachedIfVerified machine process disk
      (goto (repoDir process ref.repo) file) declared ref.repo file with
  | some both =>
      rw [cached] at ok
      rcases both with ⟨hit, after⟩
      rcases cached_hit cached with ⟨path, there, files, dirs⟩
      cases ok
      refine ⟨file, rfl, path, Gathers.present files dirs there, ?_, ?_⟩
      · rintro landed ⟨⟩
      · intro none
        exact ⟨files, Or.inl dirs⟩
  | none =>
      rw [cached] at ok
      rcases download_ok ok with ⟨path, gathers, dests, none⟩
      refine ⟨file, rfl, path, gathers, dests, ?_⟩
      intro empty
      exact ⟨(none empty).1, Or.inr (none empty).2⟩

end

end Runa.App.PulledFiles
