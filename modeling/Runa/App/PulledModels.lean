import Runa.App.Pull

/-!
# What a failed pull leaves behind

A pull that fails after its file has landed takes the file away again if the
digest is wrong, and leaves it in all other cases: a wrong size, a limit that
is checked behind the download, a download that breaks off, and the files of
a snapshot in front of one that fails.  The lookups trust what they find.
`verified_iff` says that these are the only cases.
-/

namespace Runa.App.PulledModels

open Runa.App.Pull
open Runa.Paths.Places
open Runa.Store
open Runa.Store.Ordered
open Runa.Stream.Utf8

/-! ## The files of a disk -/

section

variable (disk : Disk) (place other : Place)

@[simp]
theorem file_write_self (file : File) :
    (disk.write place file).file place = some file :=
  find_put_self place file disk.files

theorem file_write_of_ne (apart : other ≠ place) (file : File) :
    (disk.write place file).file other = disk.file other :=
  find_put_of_ne apart file disk.files

@[simp]
theorem file_remove_self : (disk.remove place).file place = none :=
  find_remove_self place disk.files

theorem file_remove_of_ne (apart : other ≠ place) :
    (disk.remove place).file other = disk.file other :=
  find_remove_of_ne apart disk.files

end

theorem isFile_iff {disk : Disk} {place : Place} :
    disk.isFile place = true ↔ ∃ file, disk.file place = some file :=
  Option.isSome_iff_exists

theorem isFile_congr {disk disk' : Disk} {place : Place}
    (same : disk'.file place = disk.file place) :
    disk'.isFile place = disk.isFile place :=
  congrArg Option.isSome same

/-! ## Checks -/

/-- The bytes have the size that was declared, if one was. -/
def SizePasses (declared : FileMeta) (bytes : List UInt8) : Prop :=
  ∀ size ∈ declared.size, bytes.length = size

/-- The bytes have the size and the digest that were declared. -/
def Passes (machine : Machine) (declared : FileMeta) (bytes : List UInt8) :
    Prop :=
  SizePasses declared bytes ∧
    ∀ digest ∈ declared.sha256, machine.sha256 bytes = digest

instance (declared : FileMeta) (bytes : List UInt8) :
    Decidable (SizePasses declared bytes) :=
  inferInstanceAs (Decidable (∀ size ∈ declared.size, _))

instance (machine : Machine) (declared : FileMeta) (bytes : List UInt8) :
    Decidable (Passes machine declared bytes) :=
  inferInstanceAs (Decidable (_ ∧ ∀ digest ∈ declared.sha256, _))

def Download.Matches (machine : Machine) (download : Download) : Prop :=
  Passes machine download.declared download.bytes

section

variable {machine : Machine} {process : Process} {disk : Disk}
  {dest : Place} {declared : FileMeta} {found : File}

/-- A hit says that the file is there, and leaves it as it is. -/
theorem cached_hit {repo file : Text} {hit : PulledModel} {after : Disk}
    (cached : cachedIfVerified machine process disk dest declared repo file =
      some (hit, after)) :
    hit.path = dest ∧ disk.isFile dest = true ∧
      after.files = disk.files ∧ after.dirs = disk.dirs := by
  rw [cachedIfVerified] at cached
  split at cached
  · cases cached
  · next found there =>
      have isFile : disk.isFile dest = true := isFile_iff.mpr ⟨found, there⟩
      dsimp only at cached
      split at cached
      · cases cached
      · split at cached
        · cases cached
          exact ⟨rfl, isFile, rfl, rfl⟩
        · split at cached
          · cases cached
          · split at cached
            · cases cached
              exact ⟨rfl, isFile, rfl, rfl⟩
            · cases cached

theorem cached_file {repo file : Text} {hit : PulledModel} {after : Disk}
    (cached : cachedIfVerified machine process disk dest declared repo file =
      some (hit, after)) (place : Place) :
    after.file place = disk.file place := by
  rcases cached_hit cached with ⟨-, -, same, -⟩
  rw [Disk.file, Disk.file, same]

theorem filter_eq_none_iff (bytes : List UInt8) :
    declared.size.filter (· ≠ bytes.length) = none ↔
      SizePasses declared bytes := by
  rw [SizePasses, Option.filter_eq_none_iff]
  apply forall₂_congr
  intro size member
  rw [decide_eq_true_eq, not_not]
  exact eq_comm

variable (machine process)

/-- A file that passes stays as it is. -/
theorem verify_passes (there : disk.file dest = some found)
    (passes : Passes machine declared found.bytes) :
    ∃ after,
      verifyDownloaded machine process disk dest declared =
        (.ok found.bytes.length, after) ∧
      ∀ place, after.file place = disk.file place := by
  rcases passes with ⟨size, digest⟩
  rw [verifyDownloaded, there]
  dsimp only [Option.map_some, Option.getD_some]
  rw [(filter_eq_none_iff found.bytes).mpr size]
  cases expected : declared.sha256 with
  | none => exact ⟨disk, rfl, fun _ => rfl⟩
  | some expected' =>
      have same := digest expected' expected
      simp only [same, if_true]
      exact ⟨_, rfl, fun _ => rfl⟩

/-- A file of another digest is removed. -/
theorem verify_removes (there : disk.file dest = some found)
    (size : SizePasses declared found.bytes)
    (fails : ¬ Passes machine declared found.bytes) :
    ∃ error,
      verifyDownloaded machine process disk dest declared =
        (.error error, disk.remove dest) := by
  rw [verifyDownloaded, there]
  dsimp only [Option.map_some, Option.getD_some]
  rw [(filter_eq_none_iff found.bytes).mpr size]
  cases expected : declared.sha256 with
  | none =>
      apply (fails ⟨size, ?_⟩).elim
      intro digest member
      rw [expected] at member
      cases member
  | some expected' =>
      have other : machine.sha256 found.bytes ≠ expected' := by
        intro same
        apply fails
        refine ⟨size, ?_⟩
        intro digest member
        rw [expected] at member
        cases member
        exact same
      simp only [other, if_false]
      exact ⟨_, rfl⟩

/-- A file of another size is left where it is. -/
theorem verify_leaves (there : disk.file dest = some found)
    (fails : ¬ SizePasses declared found.bytes) :
    ∃ error,
      verifyDownloaded machine process disk dest declared =
        (.error error, disk) := by
  rw [← filter_eq_none_iff, ← ne_eq, Option.ne_none_iff_exists'] at fails
  rcases fails with ⟨expected, fails⟩
  rw [verifyDownloaded, there]
  dsimp only [Option.map_some, Option.getD_some]
  rw [fails]
  exact ⟨_, rfl⟩

end

/-! ## Calls that leave nothing behind -/

section

variable (machine : Machine) (process : Process) (hub : Hub)

/-- A download that is taken back if it fails.  The call has downloaded to the
places `before`; `next` is asked if the file gets through. -/
def CleanFetch (disk : Disk) (repo file : Text) (dest : Place)
    (declared : FileMeta) (before : List Place)
    (next : Nat → Disk → List Place → Prop) : Prop :=
  let landing := hub.download repo file
  let landed := disk.land dest landing
  let places := before ++ (landing.at dest).toList.map fun _ => dest
  match landing.error, landed.file dest with
  | none, some found =>
    if Passes machine declared found.bytes then
      next found.bytes.length
        (verifyDownloaded machine process landed dest declared).2 places
    else if SizePasses declared found.bytes then
      ∀ place ∈ places, place = dest
    else places = []
  | _, _ => places = []

/-- A GGUF file that lands has the declared size, and unless its digest is
wrong the limit holds. -/
def CleanFile (disk : Disk) (ref : HfRef) : Prop :=
  hub.fetcher = .ok () → hub.client = .ok () → hub.makeDir = .ok () →
    ∀ file, resolveHf machine hub ref = .ok file →
      ∀ declared,
        hub.headMetadata (resolveHfUrl ref.repo file) = .ok declared →
        checkDeclared process declared ref.repo file = .ok () →
        cachedIfVerified machine process disk
            (goto (repoDir process ref.repo) file) declared ref.repo file =
          none →
        CleanFetch machine process hub
          (disk.makeDir (repoDir process ref.repo)) ref.repo file
          (goto (repoDir process ref.repo) file) declared []
          fun size _ places => places = [] ∨ size ≤ maxModelBytes process

/-- Where a file of a snapshot does not get through, nothing of the ones
before it was downloaded by the call. -/
def CleanFiles (repo : Text) (dir : Place) :
    Disk → List Place → List Text → Prop
  | _, _, [] => True
  | disk, before, file :: files =>
    match hub.headMetadata (resolveHfUrl repo file) with
    | .error _ => before = []
    | .ok declared =>
      match cachedIfVerified machine process disk (goto dir file) declared
          repo file with
      | some (_, disk) => CleanFiles repo dir disk before files
      | none =>
        CleanFetch machine process hub disk repo file (goto dir file) declared
          before fun _ disk places => CleanFiles repo dir disk places files

def CleanSnapshot (disk : Disk) (repo : Text) : Prop :=
  hub.fetcher = .ok () → hub.client = .ok () → hub.makeDir = .ok () →
    ∀ siblings, hub.siblingsAll repo = .ok siblings →
      "config.json".toList ∈ siblings →
      (siblings.filter isSnapshotFile).any
          (".safetensors".toList.isSuffixOf ·) = true →
      CleanFiles machine process hub repo (repoDir process repo)
        (disk.makeDir (repoDir process repo)) []
        (siblings.filter isSnapshotFile)

def Clean (disk : Disk) (ref : Text) : Prop :=
  ∀ hf, parseModelRef machine (isLocalFile process disk ref) ref =
      .ok (.hf hf) →
    if isSafetensorsTag hf.fileOrQuant then
      CleanSnapshot machine process hub disk hf.repo
    else CleanFile machine process hub disk hf

end

/-! ## One download -/

section

variable {machine : Machine} {process : Process} {hub : Hub} {disk : Disk}

theorem isFile_land (dest : Place) (landing : Landing) {place : Place}
    (there : disk.isFile place = true) :
    (disk.land dest landing).isFile place = true := by
  rw [Disk.land]
  split
  · exact there
  · next bytes =>
      by_cases same : place = dest
      · subst same
        exact isFile_iff.mpr ⟨_, file_write_self disk place _⟩
      · rw [isFile_congr (file_write_of_ne disk dest place same _)]
        exact there

theorem file_land {dest : Place} {landing : Landing} {bytes : List UInt8}
    (lands : landing.at dest = some bytes) :
    (disk.land dest landing).file dest =
      some ⟨bytes, landing.modified⟩ := by
  rw [Disk.land, lands]
  exact file_write_self disk dest _

/-- Nothing is left of places that are all there only if there are none. -/
theorem eq_nil_iff {places : List Place}
    (there : ∀ place ∈ places, disk.isFile place = true) :
    places = [] ↔ ∀ place ∈ places, disk.isFile place = false := by
  constructor
  · rintro rfl place member
    cases member
  · intro gone
    cases places with
    | nil => rfl
    | cons place places =>
        have here := there place List.mem_cons_self
        rw [gone place List.mem_cons_self] at here
        cases here

theorem eq_dest_iff {places : List Place} {dest : Place}
    (there : ∀ place ∈ places, disk.isFile place = true) :
    (∀ place ∈ places, place = dest) ↔
      ∀ place ∈ places, (disk.remove dest).isFile place = false := by
  apply forall₂_congr
  intro place member
  constructor
  · rintro rfl
    exact congrArg Option.isSome (file_remove_self disk place)
  · intro gone
    by_contra apart
    rw [isFile_congr (file_remove_of_ne disk dest place apart),
      there place member] at gone
    cases gone

/-- A file either gets through, or it is clean to have nothing of the call
left. -/
theorem fetch_spec (machine : Machine) (process : Process) (hub : Hub)
    (disk : Disk) (repo file : Text) (dest : Place) (declared : FileMeta)
    (before : List Place)
    (there : ∀ place ∈ before, disk.isFile place = true)
    (next : Nat → Disk → List Place → Prop) :
    ∃ result after downloads,
      fetch machine process hub disk repo file dest declared =
        (result, after, downloads) ∧
      match result with
      | .ok size =>
        (CleanFetch machine process hub disk repo file dest declared before
            next ↔
          next size after (before ++ downloads.map Download.dest)) ∧
        (∀ download ∈ downloads, Download.Matches machine download) ∧
        ∀ place ∈ before ++ downloads.map Download.dest,
          after.isFile place = true
      | .error _ =>
        CleanFetch machine process hub disk repo file dest declared before
            next ↔
          ∀ place ∈ before ++ downloads.map Download.dest,
            after.isFile place = false := by
  rw [fetch, CleanFetch]
  dsimp only
  have places :
      ((hub.download repo file).at dest).toList.map (fun _ => dest) =
        (((hub.download repo file).at dest).toList.map fun bytes =>
          (⟨dest, bytes, declared⟩ : Download)).map Download.dest := by
    rw [List.map_map]
    rfl
  rw [places]
  have stands : ∀ place ∈ before ++
      (((hub.download repo file).at dest).toList.map fun bytes =>
        (⟨dest, bytes, declared⟩ : Download)).map Download.dest,
      (disk.land dest (hub.download repo file)).isFile place = true := by
    intro place member
    rcases List.mem_append.mp member with old | new
    · exact isFile_land dest _ (there place old)
    · rw [← places, List.mem_map] at new
      rcases new with ⟨bytes, lands, rfl⟩
      exact isFile_iff.mpr ⟨_, file_land (Option.mem_toList.mp lands)⟩
  have lands : ∀ bytes, (hub.download repo file).at dest = some bytes →
      ∀ found, (disk.land dest (hub.download repo file)).file dest =
        some found → found.bytes = bytes := by
    intro bytes lands found there
    rw [file_land lands] at there
    cases there
    rfl
  clear places
  generalize (hub.download repo file).at dest = landing at stands lands ⊢
  generalize (hub.download repo file).error = error
  generalize disk.land dest (hub.download repo file) = landed at stands lands ⊢
  cases error with
  | some error => exact ⟨_, _, _, rfl, eq_nil_iff stands⟩
  | none =>
      cases found : landed.file dest with
      | none =>
          rw [if_neg (by simp [Disk.isFile, found])]
          exact ⟨_, _, _, rfl, eq_nil_iff stands⟩
      | some found' =>
          rw [if_pos (isFile_iff.mpr ⟨found', found⟩)]
          dsimp only
          by_cases passes : Passes machine declared found'.bytes
          · rcases verify_passes machine process found passes with
              ⟨after, verified, same⟩
            rw [verified, if_pos passes]
            refine ⟨_, _, _, rfl, Iff.rfl, ?_, ?_⟩
            · intro download member
              rcases List.mem_map.mp member with ⟨bytes, landed, rfl⟩
              have same := lands bytes (Option.mem_toList.mp landed) found' found
              rw [same] at passes
              exact passes
            · intro place member
              rw [isFile_congr (same place)]
              exact stands place member
          · rw [if_neg passes]
            by_cases size : SizePasses declared found'.bytes
            · rcases verify_removes machine process found size passes
                with ⟨error, verified⟩
              rw [verified, if_pos size]
              exact ⟨_, _, _, rfl, eq_dest_iff stands⟩
            · rcases verify_leaves machine process found size with ⟨error, verified⟩
              rw [verified, if_neg size]
              exact ⟨_, _, _, rfl, eq_nil_iff stands⟩

/-- A download goes to its destination. -/
theorem fetch_dest {repo file : Text} {dest : Place} {declared : FileMeta}
    {download : Download}
    (member : download ∈
      (fetch machine process hub disk repo file dest declared).2.2) :
    download.dest = dest ∧ dest ≠ [] := by
  have landed : download ∈ ((hub.download repo file).at dest).toList.map
      fun bytes => (⟨dest, bytes, declared⟩ : Download) := by
    rw [fetch] at member
    dsimp only at member
    split at member
    · exact member
    · split at member
      · exact member
      · exact member
  rcases List.mem_map.mp landed with ⟨bytes, lands, rfl⟩
  refine ⟨rfl, ?_⟩
  rintro rfl
  rw [Landing.at, if_pos rfl] at lands
  cases lands

/-! ## Where downloads go -/

theorem workDir_proper (process : Process) : Proper (workDir process) := by
  apply Proper.follow
  rintro part ⟨⟩

theorem repoDir_proper (process : Process) (repo : Text) :
    Proper (repoDir process repo) := by
  apply Proper.goto
  apply Proper.goto
  rw [dataDir]
  have home := (workDir_proper process).goto
    ((process.env "HOME").getD ['.'])
  split
  · split
    · exact ((home.goto _).goto _).goto _
    · exact ((workDir_proper process).goto _).goto _
  · exact ((home.goto _).goto _).goto _

/-- A download stands at a proper place below the root. -/
def Lies (download : Download) : Prop :=
  Proper download.dest ∧ download.dest ≠ []

theorem fetch_lies {dir : Place} (proper : Proper dir) {repo file : Text}
    {declared : FileMeta} {download : Download}
    (member : download ∈
      (fetch machine process hub disk repo file (goto dir file)
        declared).2.2) :
    Lies download := by
  rcases fetch_dest member with ⟨same, below⟩
  rw [Lies, same]
  exact ⟨proper.goto file, below⟩

/-! ## One pull -/

/-- What is known of a pull: it comes through with what was declared, or it
is clean to have nothing of it left. -/
structure Settled (machine : Machine) (clean : Prop) (attempt : Attempt) :
    Prop where
  lies : ∀ download ∈ attempt.downloads, Lies download
  ends :
    match attempt.result with
    | .ok _ =>
      clean ∧
        ∀ download ∈ attempt.downloads, Download.Matches machine download
    | .error _ =>
      clean ↔ ∀ download ∈ attempt.downloads,
        attempt.disk.isFile download.dest = false

theorem settled_refused {clean : Prop} (holds : clean) (failure : Failure) :
    Settled machine clean ⟨.error failure, disk, []⟩ := by
  constructor
  · rintro download ⟨⟩
  · apply iff_of_true holds
    rintro download ⟨⟩

theorem settled_failed {clean : Prop} (holds : clean) (error : Text) :
    Settled machine clean (.failed disk error) :=
  settled_refused holds (.error error)

theorem pullFiles_spec (machine : Machine) (process : Process) (hub : Hub)
    (disk : Disk) (repo : Text) {dir : Place} (proper : Proper dir)
    (downloads : List Download) (total : Nat) (fresh : Bool)
    (files : List Text)
    (there : ∀ place ∈ downloads.map Download.dest,
      disk.isFile place = true)
    (lie : ∀ download ∈ downloads, Lies download)
    (matched : ∀ download ∈ downloads, Download.Matches machine download) :
    ∃ result after all,
      pullFiles machine process hub repo dir disk downloads total fresh
        files = (result, after, all) ∧
      (∀ download ∈ all, Lies download) ∧
      match result with
      | .ok _ =>
        CleanFiles machine process hub repo dir disk
            (downloads.map Download.dest) files ∧
          ∀ download ∈ all, Download.Matches machine download
      | .error _ =>
        CleanFiles machine process hub repo dir disk
            (downloads.map Download.dest) files ↔
          ∀ download ∈ all, after.isFile download.dest = false := by
  induction files generalizing disk downloads total fresh with
  | nil => exact ⟨_, _, _, rfl, lie, True.intro, matched⟩
  | cons file files induction =>
      rw [pullFiles, CleanFiles]
      cases hub.headMetadata (resolveHfUrl repo file) with
      | error error =>
          refine ⟨_, _, _, rfl, lie, ?_⟩
          dsimp only
          rw [eq_nil_iff there, List.forall_mem_map]
      | ok declared =>
          dsimp only
          cases cached : cachedIfVerified machine process disk (goto dir file)
              declared repo file with
          | some both =>
              rcases both with ⟨hit, after⟩
              apply induction
              · intro place member
                rw [isFile_congr (cached_file cached place)]
                exact there place member
              · exact lie
              · exact matched
          | none =>
              dsimp only
              rcases fetch_spec machine process hub disk repo file
                (goto dir file) declared _ there
                fun _ disk places =>
                  CleanFiles machine process hub repo dir disk places files
                with ⟨result, after, more, fetched, spec⟩
              have all : ∀ download ∈ downloads ++ more, Lies download := by
                intro download member
                rcases List.mem_append.mp member with old | new
                · exact lie download old
                · apply fetch_lies proper
                  rw [fetched]
                  exact new
              rw [fetched]
              rw [← List.map_append] at spec
              cases result with
              | error error =>
                  refine ⟨_, _, _, rfl, all, spec.trans ?_⟩
                  rw [List.forall_mem_map]
              | ok size =>
                  rcases spec with ⟨clean, passed, stand⟩
                  dsimp only
                  rw [clean]
                  apply induction
                  · exact stand
                  · exact all
                  · intro download member
                    rcases List.mem_append.mp member with old | new
                    · exact matched download old
                    · exact passed download new

theorem pullSafetensors_settled (repo : Text) :
    Settled machine (CleanSnapshot machine process hub disk repo)
      (pullSafetensors machine process hub disk repo) := by
  rw [pullSafetensors, CleanSnapshot]
  cases hub.fetcher with
  | error error =>
      apply settled_failed
      intro absurd
      cases absurd
  | ok _ =>
  cases hub.siblingsAll repo with
  | error error =>
      apply settled_failed
      intro _ _ _ siblings absurd
      cases absurd
  | ok siblings =>
  dsimp only
  split
  · next missing =>
      apply settled_failed
      intro _ _ _ other same config
      cases same
      exact (missing config).elim
  · next config =>
  split
  · next missing =>
      apply settled_failed
      intro _ _ _ other same _ weights
      cases same
      exact (missing weights).elim
  · next weights =>
  cases hub.client with
  | error error =>
      apply settled_failed
      intro _ absurd
      cases absurd
  | ok _ =>
  cases hub.makeDir with
  | error error =>
      apply settled_failed
      intro _ _ absurd
      cases absurd
  | ok _ =>
  rcases pullFiles_spec machine process hub
    (disk.makeDir (repoDir process repo)) repo
    (repoDir_proper process repo) [] 0 false
    (siblings.filter isSnapshotFile) (by rintro place ⟨⟩)
    (by rintro download ⟨⟩) (by rintro download ⟨⟩)
    with ⟨result, after, all, pulled, lie, spec⟩
  dsimp only
  rw [pulled]
  cases result with
  | ok sum =>
      rcases sum with ⟨total, fresh⟩
      refine ⟨lie, ?_, spec.2⟩
      intro _ _ _ other same _ _
      cases same
      exact spec.1
  | error error =>
      refine ⟨lie, Iff.trans ?_ spec⟩
      constructor
      · intro clean
        exact clean rfl rfl rfl siblings rfl (not_not.mp config)
          (not_not.mp weights)
      · intro clean _ _ _ other same _ _
        cases same
        exact clean

theorem checkSizeLimit_iff (size : Nat) (repo file : Text) :
    checkSizeLimit process size repo file = .ok () ↔
      size ≤ maxModelBytes process := by
  rw [checkSizeLimit, ← Nat.not_lt]
  split
  · next large => exact iff_of_false (by rintro ⟨⟩) (not_not.mpr large)
  · next small => exact iff_of_true rfl small

theorem download_settled {repo file : Text} {declared : FileMeta}
    {clean : Prop}
    (cleans : hub.client = .ok () → hub.makeDir = .ok () →
      (clean ↔ CleanFetch machine process hub
        (disk.makeDir (repoDir process repo)) repo file
        (goto (repoDir process repo) file) declared []
        fun size _ places => places = [] ∨ size ≤ maxModelBytes process))
    (refused : hub.client ≠ .ok () ∨ hub.makeDir ≠ .ok () → clean) :
    Settled machine clean
      (download machine process hub disk repo file
        (goto (repoDir process repo) file) declared) := by
  rw [download]
  cases client : hub.client with
  | error error =>
      apply settled_failed
      apply refused
      rw [client]
      exact Or.inl fun absurd => by cases absurd
  | ok _ =>
  cases made : hub.makeDir with
  | error error =>
      apply settled_failed
      apply refused
      rw [made]
      exact Or.inr fun absurd => by cases absurd
  | ok _ =>
  rcases fetch_spec machine process hub
    (disk.makeDir (repoDir process repo)) repo file
    (goto (repoDir process repo) file) declared [] (by rintro place ⟨⟩)
    (fun size _ places => places = [] ∨ size ≤ maxModelBytes process)
    with ⟨result, after, all, fetched, spec⟩
  have clean := cleans client made
  have lie : ∀ download ∈ all, Lies download := by
    intro download member
    apply fetch_lies (repoDir_proper process repo)
    rw [fetched]
    exact member
  dsimp only
  rw [fetched]
  cases result with
  | error error =>
      refine ⟨lie, clean.trans (spec.trans ?_)⟩
      rw [List.nil_append, List.forall_mem_map]
  | ok size =>
      rcases spec with ⟨limit, matched, there⟩
      rw [List.nil_append] at limit there
      dsimp only
      rw [← checkSizeLimit_iff size repo file] at limit
      cases checked : checkSizeLimit process size repo file with
      | error error =>
          refine ⟨lie, clean.trans (limit.trans ?_)⟩
          rw [checked, or_iff_left (by rintro ⟨⟩), eq_nil_iff there,
            List.forall_mem_map]
      | ok _ => exact ⟨lie, clean.mpr (limit.mpr (Or.inr checked)), matched⟩

theorem pullFile_settled (ref : HfRef) :
    Settled machine (CleanFile machine process hub disk ref)
      (pullFile machine process hub disk ref) := by
  rw [pullFile, CleanFile]
  cases hub.fetcher with
  | error error =>
      apply settled_failed
      intro absurd
      cases absurd
  | ok _ =>
  cases resolveHf machine hub ref with
  | error failure =>
      apply settled_refused
      intro _ _ _ file absurd
      cases absurd
  | ok file =>
  dsimp only
  cases answered : hub.headMetadata (resolveHfUrl ref.repo file) with
  | error error =>
      apply settled_failed
      intro _ _ _ other same declared absurd
      cases same
      rw [answered] at absurd
      cases absurd
  | ok declared =>
  dsimp only
  cases checked : checkDeclared process declared ref.repo file with
  | error error =>
      apply settled_failed
      intro _ _ _ other same declared' answered' absurd
      cases same
      rw [answered] at answered'
      cases answered'
      rw [checked] at absurd
      cases absurd
  | ok _ =>
  dsimp only
  cases cached : cachedIfVerified machine process disk
      (goto (repoDir process ref.repo) file) declared ref.repo file with
  | some both =>
      rcases both with ⟨hit, after⟩
      refine ⟨by rintro download ⟨⟩, ?_, by rintro download ⟨⟩⟩
      intro _ _ _ other same declared' answered' _ absurd
      cases same
      rw [answered] at answered'
      cases answered'
      rw [cached] at absurd
      cases absurd
  | none =>
      apply download_settled
      · intro client made
        constructor
        · intro clean
          exact clean rfl client made file rfl declared answered checked
            cached
        · intro clean _ _ _ other same declared' answered' _ _
          cases same
          rw [answered] at answered'
          cases answered'
          exact clean
      · rintro refused _ client made
        rcases refused with refused | refused
        · exact (refused client).elim
        · exact (refused made).elim

/-- A pull comes through with what was declared, or it is clean to have
nothing of it left. -/
theorem pull_settled (ref : Text) :
    Settled machine (Clean machine process hub disk ref)
      (pull machine process hub disk ref) := by
  rw [pull, Clean]
  cases parseModelRef machine (isLocalFile process disk ref) ref with
  | error error =>
      apply settled_failed
      intro hf absurd
      cases absurd
  | ok source =>
  cases source with
  | url text =>
      apply settled_failed
      intro hf absurd
      cases absurd
  | path text =>
      apply settled_failed
      intro hf absurd
      cases absurd
  | hf hf =>
  have same (clean : HfRef → Prop) :
      (∀ other, Except.ok (ε := Text) (ModelSource.hf hf) =
        .ok (.hf other) → clean other) ↔ clean hf := by
    constructor
    · intro all
      exact all hf rfl
    · intro clean other same
      cases same
      exact clean
  rw [same]
  dsimp only
  split
  · exact pullSafetensors_settled hf.repo
  · exact pullFile_settled hf

end

/-! ## Runs -/

/-- One call of `pull`. -/
structure Call where
  process : Process
  hub : Hub
  ref : Text

def Call.attempt (machine : Machine) (disk : Disk) (call : Call) : Attempt :=
  pull machine call.process call.hub disk call.ref

/-- The pull left a file that it downloaded at the place, or below it. -/
def Attempt.Left (attempt : Attempt) (place : Place) : Prop :=
  ∃ download ∈ attempt.downloads,
    place <+: download.dest ∧ attempt.disk.isFile download.dest = true

/-- The pull returned a model, and what it downloaded is what was declared. -/
def Attempt.Verified (machine : Machine) (attempt : Attempt) : Prop :=
  (∃ pulled, attempt.result = .ok pulled) ∧
    ∀ download ∈ attempt.downloads, Download.Matches machine download

/-- What an `hf:` reference leads to was written last by a pull that was
verified. -/
def Trusted (machine : Machine) (past : List Attempt) (disk : Disk) : Prop :=
  ∀ process aliases ref hf place,
    parseModelRef machine (isLocalFile process disk ref) ref =
        .ok (.hf hf) →
      findLocal machine process disk aliases ref = .ok place →
        ∀ front attempt back, past = front ++ attempt :: back →
          Attempt.Left attempt place →
            (∀ later ∈ back, ¬ Attempt.Left later place) →
              Attempt.Verified machine attempt

/-- A pull that fails leaves nothing that is found. -/
def Cleared (machine : Machine) (attempt : Attempt) : Prop :=
  ∀ failure, attempt.result = .error failure →
    ∀ process aliases ref place,
      findLocal machine process attempt.disk aliases ref = .ok place →
        ¬ Attempt.Left attempt place

/-- What is found is verified, after every call. -/
def AlwaysVerified (machine : Machine) :
    List Attempt → Disk → List Call → Prop
  | _, _, [] => True
  | past, disk, call :: calls =>
    let attempt := call.attempt machine disk
    (Trusted machine (past ++ [attempt]) attempt.disk ∧
        Cleared machine attempt) ∧
      AlwaysVerified machine (past ++ [attempt]) attempt.disk calls

def AlwaysClean (machine : Machine) : Disk → List Call → Prop
  | _, [] => True
  | disk, call :: calls =>
    Clean machine call.process call.hub disk call.ref ∧
      AlwaysClean machine (call.attempt machine disk).disk calls

section

variable {machine : Machine} {clean : Prop} {attempt : Attempt}

/-- A file is found by its full path, wherever the process is. -/
theorem literal_fullPath {disk : Disk} {place : Place}
    (proper : Proper place) (below : place ≠ [])
    (there : disk.isFile place = true) (process : Process) :
    literal process disk (fullPath place) = some place := by
  have parts := splitOn_fullPath proper
  have ends : endsInName (fullPath place) = true := by
    rw [endsInName, parts, List.getLast?_cons,
      List.getLast?_eq_getLast_of_ne_nil below]
    rcases proper _ (List.getLast_mem below) with ⟨full, dot, dots, -⟩
    exact decide_eq_true ⟨full, dot, dots⟩
  have here : isLocalFile process disk (fullPath place) = true := by
    rw [isLocalFile, ends, goto_fullPath proper below]
    exact there
  rw [literal, goto_fullPath proper below, if_pos (Or.inl here)]

theorem cleared_iff (settled : Settled machine clean attempt) :
    Cleared machine attempt ↔
      ∀ failure, attempt.result = .error failure →
        ∀ download ∈ attempt.downloads,
          attempt.disk.isFile download.dest = false := by
  apply forall₂_congr
  intro failure failed
  constructor
  · intro cleared download member
    rw [← Bool.not_eq_true]
    intro there
    rcases settled.lies download member with ⟨proper, below⟩
    let process : Process := ⟨fun _ => none, [], 0, id⟩
    apply cleared process (fun _ => none) (fullPath download.dest)
      download.dest
    · rw [findLocal, literal_fullPath proper below there]
    · exact ⟨download, member, List.prefix_refl _, there⟩
  · rintro gone process aliases ref place - ⟨download, member, -, there⟩
    rw [gone download member] at there
    cases there

/-- Failing pulls leave nothing to be found only if the call is clean. -/
theorem cleared_iff_clean (settled : Settled machine clean attempt) :
    Cleared machine attempt ↔ clean := by
  rw [cleared_iff settled]
  have ends := settled.ends
  cases result : attempt.result with
  | ok pulled =>
      rw [result] at ends
      apply iff_of_true _ ends.1
      intro failure absurd
      cases absurd
  | error failure =>
      rw [result] at ends
      dsimp only at ends
      rw [ends]
      constructor
      · intro gone
        exact gone failure rfl
      · intro gone _ _
        exact gone

/-- What a clean call leaves is verified. -/
theorem verified_of_left (settled : Settled machine clean attempt)
    (holds : clean) {place : Place} (left : Attempt.Left attempt place) :
    Attempt.Verified machine attempt := by
  rcases left with ⟨download, member, -, there⟩
  have ends := settled.ends
  cases result : attempt.result with
  | ok pulled =>
      rw [result] at ends
      exact ⟨⟨pulled, result⟩, ends.2⟩
  | error failure =>
      rw [result] at ends
      rw [ends.mp holds download member] at there
      cases there

theorem alwaysVerified_iff {past : List Attempt} (disk : Disk)
    (calls : List Call)
    (kept : ∀ earlier ∈ past, ∀ place, Attempt.Left earlier place →
      Attempt.Verified machine earlier) :
    AlwaysVerified machine past disk calls ↔
      AlwaysClean machine disk calls := by
  induction calls generalizing past disk with
  | nil => exact Iff.rfl
  | cons call calls induction =>
      have settled : Settled machine
          (Clean machine call.process call.hub disk call.ref)
          (call.attempt machine disk) :=
        pull_settled call.ref
      rw [AlwaysVerified, AlwaysClean, cleared_iff_clean settled, and_assoc]
      have later (clean : Clean machine call.process call.hub disk
          call.ref) :
          ∀ earlier ∈ past ++ [call.attempt machine disk],
            ∀ place, Attempt.Left earlier place →
              Attempt.Verified machine earlier := by
        intro earlier member place left
        rcases List.mem_append.mp member with old | new
        · exact kept earlier old place left
        · rw [List.mem_singleton] at new
          subst new
          exact verified_of_left settled clean left
      constructor
      · rintro ⟨-, clean, verified⟩
        exact ⟨clean, (induction _ (later clean)).mp verified⟩
      · rintro ⟨clean, always⟩
        refine ⟨?_, clean, (induction _ (later clean)).mpr always⟩
        intro process aliases ref hf place _ _ front attempt back past left _
        apply later clean attempt _ place left
        rw [past]
        exact List.mem_append_right front List.mem_cons_self

end

/-- What is found is verified after every call of a run, and failing pulls
leave nothing to be found, exactly if every call of the run is clean. -/
theorem verified_iff (machine : Machine) (disk : Disk) (calls : List Call) :
    AlwaysVerified machine [] disk calls ↔ AlwaysClean machine disk calls := by
  apply alwaysVerified_iff
  rintro earlier ⟨⟩

/-! A file of three bytes of which two arrive. -/

def plainMachine : Machine where
  sha256 _ := []
  lowercase := Config.lower
  quoted := id

def shell : Process where
  env _ := none
  cwd := "/w".toList
  now := 0
  order := id

def shortHub : Hub where
  fetcher := .ok ()
  client := .ok ()
  makeDir := .ok ()
  files _ := .ok []
  headMetadata _ := .ok ⟨some 3, none⟩
  download _ _ := ⟨some [1, 2], 0, none⟩

def shortCall : Call :=
  ⟨shell, shortHub, "hf:a/b:x.gguf".toList⟩

def shortFile : Place :=
  ["w", ".local", "share", "runa", "models", "a-b", "x.gguf"].map
    String.toList

/-- The file is left where the lookup finds it. -/
theorem not_alwaysVerified_short :
    ¬ AlwaysVerified plainMachine [] ⟨[], [], []⟩ [shortCall] := by
  rintro ⟨⟨-, cleared⟩, -⟩
  have result :
      (shortCall.attempt plainMachine ⟨[], [], []⟩).result =
        .error (.error (sizeError shortFile 2 3)) := by
    decide +kernel
  have found :
      findLocal plainMachine shell
          (shortCall.attempt plainMachine ⟨[], [], []⟩).disk
          (fun _ => none) shortCall.ref =
        .ok shortFile := by
    decide +kernel
  apply cleared _ result shell _ _ _ found
  refine ⟨⟨shortFile, [1, 2], ⟨some 3, none⟩⟩, ?_, ?_⟩
  · decide +kernel
  · decide +kernel

end Runa.App.PulledModels
