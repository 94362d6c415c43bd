import Runa.Fit.CacheNotes

/-!
# Runs of fetches through one cache

Whether the header cache shows: a fetch through it against the same fetch with
nothing in the cache, along a run of fetches of any addresses whose files do
not change.  A file name is not the whole of an address, and where two
addresses share one, the total length and the tag are all that tells their
files apart.
-/

namespace Runa.Fit.CacheRuns

open Runa.Stream.Utf8
open Runa.Bytes.Lossy
open Runa.Fit.Gguf
open Runa.Fit.Remote hiding fetchUrl
open Runa.Fit.Cache

/-! ## Servers whose files do not change -/

/-- The answer to a range: that part of the file, all of it, or nothing if
there is nothing so far behind. -/
inductive Gives (file : List UInt8) (tag : Option Text) (first last : Nat)
    (response : Response) : Prop where
  | part (inside : first < file.length) (status : response.status = 206)
      (total : response.total = some file.length)
      (etag : response.etag = tag)
      (body : response.body =
        .ok ((file.drop first).take (last + 1 - first)))
  | whole (other : response.status ≠ 206)
      (status : 200 ≤ response.status ∧ response.status < 300)
      (total : response.total.or (some file.length) = some file.length)
      (etag : response.etag = tag) (body : response.body = .ok file)
  | past (behind : file.length ≤ first)
      (status : ¬ (200 ≤ response.status ∧ response.status < 300))

/-- A server with one file, which sends its length and a tag or none. -/
structure Steady (server : Server) (file : List UInt8)
    (tag : Option Text) : Prop where
  fits : file.length < 2 ^ 64
  answers : ∀ first last, ∃ response, server first last = .ok response ∧
    Gives file tag first last response

section

variable {server : Server} {file : List UInt8} {tag : Option Text}
  (steady : Steady server file tag) (url : Text)

include steady

/-- A range is answered with the length and the tag, or nothing is that far
behind. -/
theorem getRange_cases (start want : Nat) :
    (∃ chunk, getRange server url start want = .ok chunk ∧
        chunk.total = some file.length ∧ chunk.etag = tag ∧
        (∀ body, chunk.status = .whole body → body = file) ∧
        ∀ body, chunk.status = .part body → start < file.length) ∨
      file.length ≤ start ∧
        ∃ msg, getRange server url start want = .error (.http url msg) := by
  obtain ⟨response, answer, gives⟩ :=
    steady.answers start (max (want - 1) start)
  cases gives with
  | part inside status total etag body =>
      left
      simp only [getRange, answer, Except.mapError, bind, Except.bind,
        status, body, if_true]
      refine ⟨_, rfl, total, etag, fun held same => ?_,
        fun _ _ => inside⟩
      cases same
  | whole other status total etag body =>
      left
      simp only [getRange, answer, Except.mapError, bind, Except.bind,
        if_neg other, if_pos status, body]
      refine ⟨_, rfl, total, etag, fun held same => ?_,
        fun held same => ?_⟩
      · cases same
        rfl
      · cases same
  | past behind status =>
      right
      refine ⟨behind, ?_⟩
      have other : response.status ≠ 206 := fun same =>
        status (by rw [same]; decide)
      simp only [getRange, answer, Except.mapError, bind, Except.bind,
        if_neg other, if_neg status]
      exact ⟨_, rfl⟩

/-- A probe of a file that is not empty tells its length and tag. -/
theorem probe_eq (nonempty : file ≠ []) :
    probe server url = .ok (some file.length, tag) := by
  rcases getRange_cases steady url 0 1 with
    ⟨chunk, answer, total, etag, -, -⟩ | ⟨behind, -⟩
  · rw [probe, answer]
    show Except.ok (chunk.total, chunk.etag) = _
    rw [total, etag]
  · exact absurd (List.length_eq_zero_iff.mp (Nat.le_zero.mp behind))
      nonempty

/-- What is received comes with the length and the tag. -/
theorem of_receive {buffer : List UInt8} {want : Nat} {total : Option Nat}
    {chunk : Chunk} {received : List UInt8 × Option Nat}
    (answer : getRange server url buffer.length want = .ok chunk)
    (got : receive buffer total chunk = .ok received) :
    received.2 = some file.length ∧ chunk.etag = tag ∧
      (buffer.length < file.length ∨ received.1 = file) := by
  rcases getRange_cases steady url buffer.length want with
    ⟨chunk', answer', sent, etag, whole, part⟩ | ⟨-, msg, failed⟩
  · obtain rfl := Except.ok.inj (answer'.symm.trans answer)
    rw [receive] at got
    split at got
    · next body status =>
        obtain rfl := Except.ok.inj got
        exact ⟨by rw [sent, Option.some_or], etag,
          Or.inl (part body status)⟩
    · next body status =>
        split at got
        · cases got
        · obtain rfl := Except.ok.inj got
          obtain rfl := whole body status
          exact ⟨rfl, etag, Or.inr rfl⟩
  · cases failed.symm.trans answer

omit steady in
theorem still_nil {buffer received : List UInt8}
    (all : buffer.length < file.length ∨ received = file)
    (empty : file = []) : received = [] := by
  rcases all with inside | whole
  · rw [empty] at inside
    exact absurd inside (Nat.not_lt_zero _)
  · exact whole.trans empty

omit steady in
theorem parse_nil (reader : Reader) : Reader.parse [] ≠ .ok reader :=
  nofun

/-- What the growing fetch returns if it succeeds. -/
structure Fetched (file : List UInt8) (tag : Option Text)
    (header : HeaderBytes) (entry : Cached) : Prop where
  filled : file ≠ []
  entry : entry = ⟨header.bytes, some file.length, tag⟩
  total : header.totalLen = some file.length
  fresh : header.fromCache = false

theorem fetched_of_fetchLoop {buffer : List UInt8} {want : Nat}
    {total : Option Nat} {etag : Option Text} {positive : 0 < want}
    (begun : file = [] → buffer = []) (same : etag = none ∨ etag = tag)
    {header : HeaderBytes} {entry : Cached}
    (result : fetchLoop server url buffer want total etag positive =
      .ok (header, entry)) :
    Fetched file tag header entry := by
  have joined {etag : Option Text} (same : etag = none ∨ etag = tag) :
      tag.or etag = tag := by
    rcases same with rfl | rfl
    · exact Option.or_none
    · exact Option.or_self
  rcases fetchLoop_run
    (fun buffer _ etag =>
      (file = [] → buffer = []) ∧ (etag = none ∨ etag = tag))
    (by
      rintro buffer want total etag chunk buffer' total' ⟨-, same⟩ answer got
      rcases of_receive steady url answer got with ⟨-, tagged, all⟩
      rw [tagged, joined same]
      exact ⟨still_nil all, Or.inr rfl⟩)
    ⟨begun, same⟩ result with
    ⟨buffer, want, total, etag, chunk, last⟩
  rcases of_receive steady url last.answer last.got with ⟨sent, tagged, all⟩
  rcases entry with ⟨bytes, totalLen, held⟩
  rcases last.parsed with ⟨reader, parsed⟩
  cases last.header
  dsimp only at sent parsed
  cases sent
  have named : held = tag :=
    last.tagged.trans (tagged.symm ▸ joined last.begun.2)
  rw [named]
  refine ⟨?_, rfl, rfl, rfl⟩
  intro empty
  have nothing : bytes = [] := still_nil all empty
  rw [nothing] at parsed
  exact parse_nil reader parsed

end

/-! ## Against an empty cache -/

/-- What a call with an empty cache returns. -/
def uncached (notes : Notes) (server : Server) (url : Text) :
    Except FetchError HeaderBytes :=
  (fetchUrl notes server emptyDisk url).1

/-- Header bytes that parse alike, or the same failure; what fails of a file
with nothing in it is left open. -/
def Matches (file : List UInt8) :
    Except FetchError HeaderBytes → Except FetchError HeaderBytes → Prop
  | .ok header, .ok other =>
    Reader.parse header.bytes = Reader.parse other.bytes
  | .error error, .error other => file = [] ∨ error = other
  | _, _ => False

theorem Matches.refl (file : List UInt8)
    (result : Except FetchError HeaderBytes) : Matches file result result := by
  cases result with
  | ok header => rfl
  | error error => exact Or.inr rfl

/-- A fetch that takes nothing from the cache. -/
def refetch (notes : Notes) (server : Server) (disk : Disk) (url : Text) :
    Except FetchError HeaderBytes × Disk :=
  match Remote.fetchUrl server url none with
  | .error error => (.error (.remote error), disk)
  | .ok (header, entry) => (.ok header, writeCache notes disk url entry)

section

variable {notes : Notes} {server : Server} {file : List UInt8}
  {tag : Option Text} {disk : Disk} {url : Text} {entry : Cached}
  (steady : Steady server file tag)

include steady

theorem fetched_of_remote {header : HeaderBytes}
    (result : Remote.fetchUrl server url none = .ok (header, entry)) :
    Fetched file tag header entry :=
  fetched_of_fetchLoop steady url (fun _ => rfl) (Or.inl rfl) result

theorem fetchUrl_of_none
    (absent : readCache notes disk (cachePath url) = .ok none) :
    fetchUrl notes server disk url = refetch notes server disk url := by
  rw [fetchUrl, absent, refetch]
  cases result : Remote.fetchUrl server url none with
  | error error => simp only [result]
  | ok found =>
      have fresh := (fetched_of_remote steady result).fresh
      simp only [result, fresh]
      rfl

theorem refetch_fst (disk : Disk) :
    (refetch notes server disk url).1 = uncached notes server url := by
  have absent : readCache notes emptyDisk (cachePath url) = .ok none := rfl
  rw [uncached, fetchUrl_of_none steady absent, refetch, refetch]
  cases Remote.fetchUrl server url none <;> rfl

/-- The file is still what the entry was made for. -/
theorem fetchUrl_of_hit (nonempty : file ≠ [])
    (held : readCache notes disk (cachePath url) = .ok (some entry))
    (total : entry.totalLen = some file.length) (same : entry.etag = tag) :
    fetchUrl notes server disk url =
      (.ok
        { bytes := entry.bytes
          totalLen := entry.totalLen
          fromCache := true },
        disk) := by
  have hit : Remote.fetchUrl server url (some entry) =
      .ok
        ({ bytes := entry.bytes
           totalLen := entry.totalLen
           fromCache := true },
          entry) := by
    rw [Remote.fetchUrl, probe_eq steady url nonempty]
    exact if_pos ⟨total.symm, same.symm⟩
  rw [fetchUrl, held]
  simp only [hit]
  rfl

/-- The file is another one by its length or its tag. -/
theorem fetchUrl_of_miss (nonempty : file ≠ [])
    (held : readCache notes disk (cachePath url) = .ok (some entry))
    (other : ¬ (entry.totalLen = some file.length ∧ entry.etag = tag)) :
    fetchUrl notes server disk url = refetch notes server disk url := by
  have miss : Remote.fetchUrl server url (some entry) =
      Remote.fetchUrl server url none := by
    conv_lhs => rw [Remote.fetchUrl, probe_eq steady url nonempty]
    exact if_neg fun same => other ⟨same.1.symm, same.2.symm⟩
  rw [fetchUrl, held, refetch]
  simp only [miss]
  cases result : Remote.fetchUrl server url none with
  | error error => rfl
  | ok found =>
      have fresh := (fetched_of_remote steady result).fresh
      simp only [fresh]
      rfl

/-- Nothing is fetched of an empty file. -/
theorem remote_of_empty (url : Text) (empty : file = []) :
    ∃ error, Remote.fetchUrl server url none = .error error := by
  cases result : Remote.fetchUrl server url none with
  | error error => exact ⟨error, rfl⟩
  | ok found => exact absurd empty (fetched_of_remote steady result).filled

theorem fetchUrl_of_empty (empty : file = [])
    (held : readCache notes disk (cachePath url) = .ok (some entry))
    (filled : entry.totalLen ≠ some 0) :
    ∃ error, fetchUrl notes server disk url = (.error error, disk) := by
  have failed : ∃ error,
      Remote.fetchUrl server url (some entry) = .error error := by
    obtain ⟨error, nothing⟩ := remote_of_empty steady url empty
    rw [Remote.fetchUrl]
    rcases getRange_cases steady url 0 1 with
      ⟨chunk, answer, total, -, -, -⟩ | ⟨-, msg, answer⟩
    · have other : ¬ (chunk.total = entry.totalLen ∧
          chunk.etag = entry.etag) := by
        rintro ⟨same, -⟩
        rw [total, empty] at same
        exact filled same.symm
      refine ⟨error, ?_⟩
      rw [probe, answer]
      show (if chunk.total = entry.totalLen ∧ chunk.etag = entry.etag
        then _ else _) = _
      rw [if_neg other]
      exact nothing
    · refine ⟨.http url msg, ?_⟩
      rw [probe, answer]
      rfl
  obtain ⟨error, failed⟩ := failed
  refine ⟨.remote error, ?_⟩
  rw [fetchUrl, held]
  simp only [failed]

theorem uncached_of_empty (url : Text) (empty : file = []) :
    ∃ error, uncached notes server url = .error error := by
  obtain ⟨error, failed⟩ := remote_of_empty steady url empty
  refine ⟨.remote error, ?_⟩
  rw [← refetch_fst steady emptyDisk, refetch, failed]

end

/-! ## Runs -/

section

variable (notes : Notes) (servers : Text → Server)
  (files : Text → List UInt8) (tags : Text → Option Text)

/-- The disk after a call. -/
def next (disk : Disk) (url : Text) : Disk :=
  (fetchUrl notes (servers url) disk url).2

/-- Every call of the run returns what a call with an empty cache returns. -/
def Transparent : Disk → List Text → Prop
  | _, [] => True
  | disk, url :: later =>
    Matches (files url) (fetchUrl notes (servers url) disk url).1
        (uncached notes (servers url) url) ∧
      Transparent (next notes servers disk url) later

/-- The last of some addresses, the latest first, that has the file name of
the address and could be fetched. -/
def lastFetched (history : List Text) (url : Text) : Option Text :=
  history.find? fun other =>
    cachePath other = cachePath url ∧
      (uncached notes (servers other) other).isOk

/-- A length and a tag tell the file from the last one of that name. -/
def Told (history : List Text) (url : Text) : Prop :=
  ∀ other, lastFetched notes servers history url = some other →
    (files other).length = (files url).length → tags other = tags url →
      Matches (files url) (uncached notes (servers other) other)
        (uncached notes (servers url) url)

/-- So it is all along a run. -/
def ToldApart : List Text → List Text → Prop
  | _, [] => True
  | history, url :: later =>
    Told notes servers files tags history url ∧
      ToldApart (url :: history) later

/-- An entry that was made for an address. -/
structure MadeFor (entry : Cached) (other : Text) : Prop where
  header : ∃ header, uncached notes (servers other) other = .ok header ∧
    Reader.parse entry.bytes = Reader.parse header.bytes
  total : entry.totalLen = some (files other).length
  etag : entry.etag = tags other

/-- Under each name is what was made for the last address of that name. -/
def Holds (disk : Disk) (history : List Text) : Prop :=
  ∀ url,
    (lastFetched notes servers history url = none ∧
        readCache notes disk (cachePath url) = .ok none) ∨
      ∃ other entry,
        lastFetched notes servers history url = some other ∧
          readCache notes disk (cachePath url) = .ok (some entry) ∧
          MadeFor notes servers files tags entry other

/-- Nothing is under any name. -/
theorem holds_empty : Holds notes servers files tags emptyDisk [] :=
  fun _ => Or.inl ⟨rfl, rfl⟩

end

section

variable {notes : Notes} {servers : Text → Server}
  {files : Text → List UInt8} {tags : Text → Option Text}
  {disk : Disk} {history : List Text} {url : Text}

theorem lastFetched_of_error {error : FetchError}
    (failed : uncached notes (servers url) url = .error error)
    (other : Text) :
    lastFetched notes servers (url :: history) other =
      lastFetched notes servers history other := by
  apply List.find?_cons_of_neg
  simp [failed, Except.isOk, Except.toBool]

theorem lastFetched_of_ok {header : HeaderBytes} {other : Text}
    (fetched : uncached notes (servers url) url = .ok header)
    (same : cachePath other = cachePath url) :
    lastFetched notes servers (url :: history) other = some url := by
  apply List.find?_cons_of_pos
  simp [fetched, same, Except.isOk, Except.toBool]

theorem lastFetched_of_ne {other : Text}
    (apart : cachePath other ≠ cachePath url) :
    lastFetched notes servers (url :: history) other =
      lastFetched notes servers history other := by
  apply List.find?_cons_of_neg
  simp [Ne.symm apart]

theorem Holds.of_error (holds : Holds notes servers files tags disk history)
    {error : FetchError}
    (failed : uncached notes (servers url) url = .error error) :
    Holds notes servers files tags disk (url :: history) := by
  intro other
  rw [lastFetched_of_error failed]
  exact holds other

/-- The entry under the name is as good for this address. -/
theorem Holds.of_hit (holds : Holds notes servers files tags disk history)
    {entry : Cached}
    (held : readCache notes disk (cachePath url) = .ok (some entry))
    (made : MadeFor notes servers files tags entry url) :
    Holds notes servers files tags disk (url :: history) := by
  intro other
  obtain ⟨header, fetched, -⟩ := made.header
  by_cases same : cachePath other = cachePath url
  · right
    refine ⟨url, entry, lastFetched_of_ok fetched same, ?_, made⟩
    rw [same, held]
  · rw [lastFetched_of_ne same]
    exact holds other

variable (lawful : notes.Lawful)
  (steady : ∀ url, Steady (servers url) (files url) (tags url))

include lawful steady

theorem Holds.refetch (holds : Holds notes servers files tags disk history)
    (url : Text) :
    Holds notes servers files tags
      (refetch notes (servers url) disk url).2 (url :: history) := by
  have first : (CacheRuns.refetch notes (servers url) disk url).1 =
      uncached notes (servers url) url := refetch_fst (steady url) disk
  rw [CacheRuns.refetch] at first ⊢
  cases result : Remote.fetchUrl (servers url) url none with
  | error error =>
      rw [result] at first
      exact holds.of_error first.symm
  | ok found =>
      rcases found with ⟨header, entry⟩
      rw [result] at first
      have fetched := fetched_of_remote (steady url) result
      have made : MadeFor notes servers files tags entry url := by
        rw [fetched.entry]
        exact ⟨⟨header, first.symm, rfl⟩, rfl, rfl⟩
      have fits : ∀ length ∈ entry.totalLen, length < 2 ^ 64 := by
        rw [made.total]
        intro length same
        exact Option.some.inj same ▸ (steady url).fits
      intro other
      by_cases same : cachePath other = cachePath url
      · right
        refine ⟨url, entry, lastFetched_of_ok first.symm same, ?_, made⟩
        rw [same]
        exact readCache_writeCache lawful fits
      · rw [lastFetched_of_ne same]
        simp only [readCache_writeCache_of_ne same]
        exact holds other

/-- One call: it returns what it should exactly if the file is told from the
last one of its name, and then the invariant goes on. -/
theorem step (holds : Holds notes servers files tags disk history)
    (url : Text) :
    (Matches (files url) (fetchUrl notes (servers url) disk url).1
          (uncached notes (servers url) url) ↔
        Told notes servers files tags history url) ∧
      (Told notes servers files tags history url →
        Holds notes servers files tags (next notes servers disk url)
          (url :: history)) := by
  have again :
      fetchUrl notes (servers url) disk url =
        CacheRuns.refetch notes (servers url) disk url →
      Matches (files url) (fetchUrl notes (servers url) disk url).1
          (uncached notes (servers url) url) ∧
        Holds notes servers files tags (next notes servers disk url)
          (url :: history) := by
    intro same
    rw [next, same, refetch_fst (steady url)]
    exact ⟨Matches.refl _ _, holds.refetch lawful steady url⟩
  rcases holds url with ⟨last, held⟩ | ⟨other, entry, last, held, made⟩
  · have told : Told notes servers files tags history url := by
      intro other last'
      exact absurd (last.symm.trans last') nofun
    obtain ⟨good, on⟩ := again (fetchUrl_of_none (steady url) held)
    exact ⟨iff_of_true good told, fun _ => on⟩
  obtain ⟨header, fetched, alike⟩ := made.header
  have filled : files other ≠ [] := by
    intro empty
    obtain ⟨error, failed⟩ := uncached_of_empty (steady other) other empty
    exact absurd (fetched.symm.trans failed) nofun
  by_cases empty : files url = []
  · -- nothing is fetched, with the cache or without it
    have longer : (files other).length ≠ (files url).length := by
      rw [empty]
      exact fun same => filled (List.length_eq_zero_iff.mp same)
    have told : Told notes servers files tags history url := by
      intro other' last' same
      obtain rfl := Option.some.inj (last.symm.trans last')
      exact absurd same longer
    have some : entry.totalLen ≠ some 0 := by
      rw [made.total]
      exact fun same =>
        filled (List.length_eq_zero_iff.mp (Option.some.inj same))
    obtain ⟨error, failed⟩ :=
      fetchUrl_of_empty (steady url) empty held some
    obtain ⟨error', failed'⟩ :
        ∃ error, uncached notes (servers url) url = .error error :=
      uncached_of_empty (steady url) url empty
    rw [next, failed, failed']
    exact ⟨iff_of_true (Or.inl empty) told, fun _ => holds.of_error failed'⟩
  by_cases same : entry.totalLen = some (files url).length ∧
      entry.etag = tags url
  · -- a hit: the entry stands for both addresses
    obtain ⟨total, etag⟩ := same
    have hit := fetchUrl_of_hit (steady url) empty held total etag
    have told_iff : Told notes servers files tags history url ↔
        Matches (files url) (.ok header)
          (uncached notes (servers url) url) := by
      have length : (files other).length = (files url).length :=
        Option.some.inj (made.total.symm.trans total)
      have tag : tags other = tags url := made.etag.symm.trans etag
      constructor
      · intro told
        rw [← fetched]
        exact told other last length tag
      · intro good other' last' _ _
        obtain rfl := Option.some.inj (last.symm.trans last')
        rwa [fetched]
    rw [next, hit, told_iff]
    cases result : uncached notes (servers url) url with
    | error error => exact ⟨Iff.rfl, False.elim⟩
    | ok header' =>
        refine ⟨?_, fun good => holds.of_hit held ?_⟩
        · show Reader.parse entry.bytes = _ ↔ Reader.parse header.bytes = _
          rw [alike]
        · exact ⟨⟨header', result, alike.trans good⟩, total, etag⟩
  · have told : Told notes servers files tags history url := by
      intro other' last' length tag
      obtain rfl := Option.some.inj (last.symm.trans last')
      rw [made.total, made.etag] at same
      exact absurd ⟨congrArg some length, tag⟩ same
    obtain ⟨good, on⟩ := again (fetchUrl_of_miss (steady url) empty held same)
    exact ⟨iff_of_true good told, fun _ => on⟩

/-- A run from any state of the cache that runs leave. -/
theorem transparent_iff_of_holds (urls : List Text)
    (holds : Holds notes servers files tags disk history) :
    Transparent notes servers files disk urls ↔
      ToldApart notes servers files tags history urls := by
  induction urls generalizing disk history with
  | nil => exact Iff.rfl
  | cons url later ih =>
      obtain ⟨good, on⟩ := step lawful steady holds url
      rw [Transparent, ToldApart, good]
      exact and_congr_right fun told => ih (on told)

/-- The cache does not show along a run exactly if each file is told by its
length and its tag from the last one that was fetched under its name, or has
a header that parses alike. -/
theorem transparent_iff (urls : List Text) :
    Transparent notes servers files emptyDisk urls ↔
      ToldApart notes servers files tags [] urls :=
  transparent_iff_of_holds lawful steady urls (holds_empty _ _ _ _)

end

/-! ## Two files under one name -/

/-- A server of one file, without a tag. -/
def rangeServer (file : List UInt8) : Server := fun first last =>
  .ok
    (if first < file.length then
      { status := 206
        statusText := "206 Partial Content".toList
        total := some file.length
        etag := none
        body := .ok ((file.drop first).take (last + 1 - first)) }
    else
      { status := 416
        statusText := "416 Range Not Satisfiable".toList
        total := some file.length
        etag := none
        body := .ok [] })

theorem steady_rangeServer {file : List UInt8}
    (fits : file.length < 2 ^ 64) : Steady (rangeServer file) file none := by
  refine ⟨fits, fun first last => ⟨_, rfl, ?_⟩⟩
  split
  · next inside => exact Gives.part inside rfl rfl rfl rfl
  · next behind =>
      exact Gives.past (Nat.not_lt.mp behind)
        fun status => absurd status.2 (by decide : ¬ 416 < 300)

theorem serves_rangeServer (file : List UInt8) :
    Serves (rangeServer file) file := by
  intro first last inside
  rw [rangeServer, if_pos inside]
  exact ⟨_, rfl, rfl, rfl, rfl⟩

/-- A small file is fetched whole. -/
theorem remote_rangeServer {file : List UInt8} {reader : Reader}
    (url : Text) (parsed : Reader.parse file = .ok reader)
    (nonempty : file ≠ []) (small : file.length ≤ startBytes) :
    Remote.fetchUrl (rangeServer file) url none =
      .ok
        ({ bytes := file
           totalLen := some file.length
           fromCache := false },
          { bytes := file
            totalLen := some file.length
            etag := none }) := by
  have fits : file.length < 2 ^ 64 := small.trans_lt (by decide)
  have all : file.take startBytes = file := List.take_of_length_le small
  have fetched : (Remote.fetchUrl (rangeServer file) url none).map
      Prod.fst = grow file 5 startBytes :=
    fetchUrl_eq (serves_rangeServer file) nonempty
  rw [grow, judge, all, parsed] at fetched
  cases result : Remote.fetchUrl (rangeServer file) url none with
  | error error =>
      rw [result] at fetched
      cases fetched
  | ok found =>
      rcases found with ⟨header, entry⟩
      have made := fetched_of_remote (steady_rangeServer fits) result
      rw [result] at fetched
      have same : header = _ := Except.ok.inj fetched
      rw [made.entry, same]

theorem uncached_rangeServer {notes : Notes} {file : List UInt8}
    {reader : Reader} (url : Text) (parsed : Reader.parse file = .ok reader)
    (nonempty : file ≠ []) (small : file.length ≤ startBytes) :
    uncached notes (rangeServer file) url =
      .ok
        { bytes := file
          totalLen := some file.length
          fromCache := false } := by
  have fits : file.length < 2 ^ 64 := small.trans_lt (by decide)
  rw [← refetch_fst (steady_rangeServer fits) emptyDisk, refetch,
    remote_rangeServer url parsed nonempty small]

theorem transparent_twice :
    Transparent CacheNotes.notes (fun _ => rangeServer smallHeader.write)
      (fun _ => smallHeader.write) emptyDisk
      ["http://h/a".toList, "http://h/a".toList] := by
  have fits : smallHeader.write.length < 2 ^ 64 := by
    rw [smallHeader_length]
    decide
  refine
    (transparent_iff CacheNotes.lawful
      (fun _ => steady_rangeServer fits) _).mpr ?_
  refine ⟨nofun, ?_, trivial⟩
  intro other last _ _
  obtain rfl : other = "http://h/a".toList :=
    List.mem_singleton.mp (List.mem_of_find?_eq_some last)
  exact Matches.refl _ _

/-- A file of the same length with another header. -/
def otherHeader : Header :=
  { smallHeader with version := 2, supported := Or.inl rfl }

theorem otherHeader_length : otherHeader.write.length = 166 := by
  decide +kernel

theorem parse_smallHeader :
    Reader.parse smallHeader.write =
      .ok { smallHeader.reader with dataStart := 192 } := by
  have parsed := parse_write smallHeader_counted
    (by rw [smallHeader_length]; decide) []
  rwa [List.append_nil, smallHeader_length] at parsed

theorem parse_otherHeader :
    Reader.parse otherHeader.write =
      .ok { otherHeader.reader with dataStart := 192 } := by
  have counted : otherHeader.Counted :=
    ⟨smallHeader_counted.metadata, smallHeader_counted.tensors,
      smallHeader_counted.arrays, smallHeader_counted.dims⟩
  have parsed := parse_write counted
    (by rw [otherHeader_length]; decide) []
  rwa [List.append_nil, otherHeader_length] at parsed

/-- Two files, at `a_b` and everywhere else. -/
def twoFiles (url : Text) : List UInt8 :=
  if url = "http://h/a_b".toList then smallHeader.write
  else otherHeader.write

theorem twoFiles_length (url : Text) : (twoFiles url).length = 166 := by
  rw [twoFiles]
  split
  · exact smallHeader_length
  · exact otherHeader_length

theorem steady_twoFiles (url : Text) :
    Steady (rangeServer (twoFiles url)) (twoFiles url) none :=
  steady_rangeServer (by rw [twoFiles_length]; decide)

theorem uncached_twoFiles {url : Text} {reader : Reader}
    (parsed : Reader.parse (twoFiles url) = .ok reader) :
    uncached CacheNotes.notes (rangeServer (twoFiles url)) url =
      .ok
        { bytes := twoFiles url
          totalLen := some (twoFiles url).length
          fromCache := false } := by
  apply uncached_rangeServer url parsed
  · intro empty
    have length := twoFiles_length url
    rw [empty] at length
    exact absurd length (by decide)
  · rw [twoFiles_length]
    decide

/-- The second address is answered with the header of the first. -/
theorem not_transparent_twoFiles :
    (∀ url, Steady (rangeServer (twoFiles url)) (twoFiles url) none) ∧
      ¬ Transparent CacheNotes.notes (fun url => rangeServer (twoFiles url))
        twoFiles emptyDisk
        ["http://h/a_b".toList, "http://h/a/b".toList] := by
  refine ⟨steady_twoFiles, fun transparent => ?_⟩
  have first : twoFiles "http://h/a_b".toList = smallHeader.write :=
    if_pos rfl
  have second : twoFiles "http://h/a/b".toList = otherHeader.write :=
    if_neg (by decide)
  have fetched := uncached_twoFiles (first ▸ parse_smallHeader)
  have fetched' := uncached_twoFiles (second ▸ parse_otherHeader)
  obtain ⟨-, told, -⟩ :=
    (transparent_iff_of_holds CacheNotes.lawful steady_twoFiles _
      (holds_empty _ _ _ _)).mp transparent
  have same : cachePath "http://h/a/b".toList =
      cachePath "http://h/a_b".toList := by decide +kernel
  have alike := told _ (lastFetched_of_ok fetched same)
    ((twoFiles_length _).trans (twoFiles_length _).symm) rfl
  rw [fetched, fetched'] at alike
  have parsed : Reader.parse smallHeader.write =
      Reader.parse otherHeader.write := by
    rwa [← first, ← second]
  rw [parse_smallHeader, parse_otherHeader] at parsed
  have version := congrArg Reader.version (Except.ok.inj parsed)
  exact absurd version (by decide)

end Runa.Fit.CacheRuns
