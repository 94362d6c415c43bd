import Runa.Fit.CacheRuns

/-!
# A fetch that stops while it writes the cache

The two files of an entry are written one after the other, and each is emptied
before it is filled.  A process that stops in between leaves one of several
mixes of old and new files, and the next fetch of the address finds it.  It
recovers from some of them only.
-/

namespace Runa.Fit.CacheStops

open Runa.Stream.Utf8
open Runa.Bytes.Lossy
open Runa.Fit.Gguf hiding Value
open Runa.Fit.Remote hiding fetchUrl
open Runa.Fit.Cache
open Runa.Fit.CacheRuns

/-! ## What completed fetches leave -/

/-- Lengths of a server are those of a `u64`. -/
def Sound (server : Server) : Prop :=
  ∀ first last response, server first last = .ok response →
    (∀ total ∈ response.total, total < 2 ^ 64) ∧
      ∀ body, response.body = .ok body → body.length < 2 ^ 64

/-- The disks that completed fetches leave, of any addresses from any
servers. -/
inductive Left (notes : Notes) : Disk → Prop where
  | empty : Left notes emptyDisk
  | fetch {disk : Disk} {server : Server} (url : Text)
      (left : Left notes disk) (sound : Sound server) :
      Left notes (fetchUrl notes server disk url).2

/-- Each file has its note, which was written in full. -/
def Paired (notes : Notes) (disk : Disk) : Prop :=
  ∀ url,
    (disk (cachePath url) = none ∧
        disk (metaPath (cachePath url)) = none) ∨
      ∃ other entry, (∀ length ∈ entry.totalLen, length < 2 ^ 64) ∧
        disk (cachePath url) = some entry.bytes ∧
        disk (metaPath (cachePath url)) =
          some (noteBytes notes other entry)

section

variable {server : Server} (sound : Sound server) (url : Text)

include sound

/-- A chunk has a length that fits, and so has the body of a whole file. -/
theorem fits_of_getRange {start want : Nat} {chunk : Chunk}
    (answer : getRange server url start want = .ok chunk) :
    (∀ total ∈ chunk.total, total < 2 ^ 64) ∧
      ∀ body, chunk.status = .whole body → body.length < 2 ^ 64 := by
  rw [getRange] at answer
  cases reply : server start (max (want - 1) start) with
  | error msg =>
      rw [reply] at answer
      cases answer
  | ok response =>
      obtain ⟨total, body⟩ := sound _ _ _ reply
      rw [reply] at answer
      simp only [Except.mapError, bind, Except.bind] at answer
      split at answer
      · cases held : response.body with
        | error msg =>
            rw [held] at answer
            cases answer
        | ok bytes =>
            rw [held] at answer
            obtain rfl := Except.ok.inj answer
            exact ⟨total, fun _ same => by cases same⟩
      split at answer
      · cases held : response.body with
        | error msg =>
            rw [held] at answer
            cases answer
        | ok bytes =>
            rw [held] at answer
            obtain rfl := Except.ok.inj answer
            have short := body bytes held
            refine ⟨?_, fun other same => ?_⟩
            · intro length there
              rcases Option.or_eq_some_iff.mp there with sent | ⟨-, counted⟩
              · exact total length sent
              · exact Option.some.inj counted ▸ short
            · cases same
              exact short
      · cases answer

/-- A total that fits is followed by one that fits. -/
theorem fits_of_receive {buffer buffer' : List UInt8} {want : Nat}
    {total total' : Option Nat} {chunk : Chunk}
    (fits : ∀ length ∈ total, length < 2 ^ 64)
    (answer : getRange server url buffer.length want = .ok chunk)
    (got : receive buffer total chunk = .ok (buffer', total')) :
    ∀ length ∈ total', length < 2 ^ 64 := by
  rcases fits_of_getRange sound url answer with ⟨sent, whole⟩
  intro length there
  rw [receive] at got
  split at got
  · cases got
    rcases Option.or_eq_some_iff.mp there with new | ⟨-, old⟩
    · exact sent length new
    · exact fits length old
  · next body status =>
      split at got
      · cases got
      · cases got
        cases there
        exact whole _ status

/-- The total of an entry that a fetch makes fits. -/
theorem fits_of_fetchLoop {buffer : List UInt8} {want : Nat}
    {total : Option Nat} {etag : Option Text} {positive : 0 < want}
    (fits : ∀ length ∈ total, length < 2 ^ 64) {header : HeaderBytes}
    {entry : Cached}
    (result : fetchLoop server url buffer want total etag positive =
      .ok (header, entry)) :
    ∀ length ∈ entry.totalLen, length < 2 ^ 64 := by
  rcases fetchLoop_run
    (fun _ total _ => ∀ length ∈ total, length < 2 ^ 64)
    (fun fits answer got => fits_of_receive sound url fits answer got)
    fits result with
    ⟨buffer, want, total, etag, chunk, last⟩
  exact fits_of_receive sound url last.begun last.answer last.got

end

section

variable {notes : Notes} {disk : Disk} {server : Server} {url : Text}
  {entry : Cached}

/-- A fetch is a hit, or what is fetched without a cache. -/
theorem fetchUrl_cases {hit : Option Cached} {header : HeaderBytes}
    (result : Remote.fetchUrl server url hit = .ok (header, entry)) :
    header.fromCache = true ∨
      Remote.fetchUrl server url none = .ok (header, entry) := by
  cases hit with
  | none => exact Or.inr result
  | some held =>
      rw [Remote.fetchUrl] at result
      cases sent : probe server url with
      | error error =>
          rw [sent] at result
          cases result
      | ok told =>
          rw [sent] at result
          simp only [bind, Except.bind] at result
          split at result
          · obtain ⟨rfl, -⟩ := Prod.mk.inj (Except.ok.inj result)
            exact Or.inl rfl
          · exact Or.inr result

theorem Paired.write (paired : Paired notes disk)
    (fits : ∀ length ∈ entry.totalLen, length < 2 ^ 64) (url : Text) :
    Paired notes (writeCache notes disk url entry) := by
  intro other
  by_cases same : cachePath other = cachePath url
  · right
    refine ⟨url, entry, fits, ?_, ?_⟩
    · rw [same, writeCache_file]
    · rw [same, writeCache_meta]
  · rw [writeCache_file_of_ne same, writeCache_meta_of_ne same]
    exact paired other

/-- Every entry that completed fetches leave has its note. -/
theorem paired_of_left (left : Left notes disk) : Paired notes disk := by
  induction left with
  | empty => exact fun _ => Or.inl ⟨rfl, rfl⟩
  | fetch url left sound ih =>
      rename_i disk server
      cases read : readCache notes disk (cachePath url) with
      | error error =>
          simp only [fetchUrl, read]
          exact ih
      | ok hit =>
          cases result : Remote.fetchUrl server url hit with
          | error error =>
              simp only [fetchUrl, read, result]
              exact ih
          | ok found =>
              rcases found with ⟨header, entry⟩
              simp only [fetchUrl, read, result]
              split
              · exact ih
              · next fresh =>
                  have fetched := (fetchUrl_cases result).resolve_left fresh
                  exact ih.write (fits_of_fetchLoop sound url (by simp) fetched)
                    url

end

/-! ## Where the process stops -/

/-- Before the header file is opened; after so many bytes of it; after so many
bytes of the note. -/
inductive Stop where
  | before
  | file (count : Nat)
  | note (count : Nat)

/-- The disk that `write_cache` leaves where it stops. -/
def Stop.disk (notes : Notes) (disk : Disk) (url : Text)
    (entry : Cached) : Stop → Disk
  | .before => disk
  | .file count => disk.write (cachePath url) (entry.bytes.take count)
  | .note count =>
    (disk.write (cachePath url) entry.bytes).write
      (metaPath (cachePath url)) ((noteBytes notes url entry).take count)

/-- A fetch that came to `write_cache`, with the entry to write. -/
def Writes (notes : Notes) (server : Server) (disk : Disk) (url : Text)
    (entry : Cached) : Prop :=
  ∃ hit header, readCache notes disk (cachePath url) = .ok hit ∧
    Remote.fetchUrl server url hit = .ok (header, entry) ∧
    header.fromCache = false

/-- The same bytes and total, or the same error. -/
def SameResult :
    Except FetchError HeaderBytes → Except FetchError HeaderBytes → Prop
  | .ok header, .ok other =>
    header.bytes = other.bytes ∧ header.totalLen = other.totalLen
  | .error error, .error other => error = other
  | _, _ => False

theorem SameResult.refl (result : Except FetchError HeaderBytes) :
    SameResult result result := by
  cases result with
  | ok header => exact ⟨rfl, rfl⟩
  | error error => rfl

/-- The stops that do no harm: nothing is written yet, or the old note still
stands next to the new bytes, or the note is complete. -/
def Harmless (notes : Notes) (disk : Disk) (url : Text) (entry : Cached) :
    Stop → Prop
  | .before => True
  | .file _ => disk (cachePath url) ≠ none
  | .note count => (noteBytes notes url entry).length ≤ count

section

variable {notes : Notes} {disk : Disk} {server : Server}
  {file : List UInt8} {tag : Option Text} {url : Text} {entry : Cached}

/-- Whatever is read is what was there, with its note. -/
theorem readCache_cases (url : Text) (lawful : notes.Lawful) (left : Left notes disk) :
    (readCache notes disk (cachePath url) = .ok none ∧
        disk (cachePath url) = none ∧
        disk (metaPath (cachePath url)) = none) ∨
      ∃ other held, (∀ length ∈ held.totalLen, length < 2 ^ 64) ∧
        disk (cachePath url) = some held.bytes ∧
        disk (metaPath (cachePath url)) =
          some (noteBytes notes other held) ∧
        readCache notes disk (cachePath url) = .ok (some held) := by
  rcases paired_of_left left url with ⟨none, bare⟩ |
    ⟨other, held, fits, there, noted⟩
  · left
    refine ⟨?_, none, bare⟩
    rw [readCache, none]
  · right
    refine ⟨other, held, fits, there, noted, ?_⟩
    exact readCache_note lawful fits there noted

variable (lawful : notes.Lawful) (left : Left notes disk)
  (steady : Steady server file tag)
  (writes : Writes notes server disk url entry)

include steady writes

/-- What is written is what a fetch with an empty cache makes. -/
theorem fetched_of_writes :
    ∃ header, Fetched file tag header entry ∧
      uncached notes server url = .ok header := by
  obtain ⟨hit, header, read, result, fresh⟩ := writes
  have fetched := (fetchUrl_cases result).resolve_left (by simp [fresh])
  refine ⟨header, fetched_of_remote steady fetched, ?_⟩
  rw [← refetch_fst steady emptyDisk, refetch, fetched]

/-- An old entry does not have the length and the tag of the file. -/
theorem miss_of_writes {held : Cached}
    (read : readCache notes disk (cachePath url) = .ok (some held)) :
    ¬ (held.totalLen = some file.length ∧ held.etag = tag) := by
  obtain ⟨header, made, -⟩ := fetched_of_writes steady writes
  obtain ⟨hit, header', read', result, fresh⟩ := writes
  rintro ⟨total, same⟩
  have hits := fetchUrl_of_hit steady made.filled read total same
  obtain rfl := Except.ok.inj (read.symm.trans read')
  simp only [fetchUrl, read, result, fresh] at hits
  obtain ⟨answer, -⟩ := Prod.mk.inj hits
  have cached := congrArg HeaderBytes.fromCache (Except.ok.inj answer)
  rw [fresh] at cached
  cases cached

include lawful

/-- In the note: a note that ends early is an error. -/
theorem same_note_iff (count : Nat) :
    SameResult
        (fetchUrl notes server
          (Stop.disk notes disk url entry (.note count)) url).1
        (uncached notes server url) ↔
      (noteBytes notes url entry).length ≤ count := by
  obtain ⟨header, made, fetched⟩ := fetched_of_writes steady writes
  have fits : ∀ length ∈ entry.totalLen, length < 2 ^ 64 := by
    rw [made.entry]
    intro length same
    exact Option.some.inj same ▸ steady.fits
  by_cases all : (noteBytes notes url entry).length ≤ count
  · refine iff_of_true ?_ all
    have whole : Stop.disk notes disk url entry (.note count) =
        writeCache notes disk url entry := by
      rw [Stop.disk, List.take_of_length_le all]
      rfl
    have read : readCache notes (writeCache notes disk url entry)
        (cachePath url) = .ok (some entry) :=
      readCache_writeCache lawful fits
    have total : entry.totalLen = some file.length := by rw [made.entry]
    have etag : entry.etag = tag := by rw [made.entry]
    rw [whole, fetchUrl_of_hit steady made.filled read total etag, fetched]
    refine ⟨?_, ?_⟩
    · rw [made.entry]
    · rw [total, made.total]
  · refine iff_of_false ?_ all
    have there : Stop.disk notes disk url entry (.note count)
        (cachePath url) = some entry.bytes := by
      rw [Stop.disk, Disk.write, Disk.write,
        Function.update_of_ne (cachePath_ne_metaPath url url),
        Function.update_self]
    have noted : Stop.disk notes disk url entry (.note count)
        (metaPath (cachePath url)) =
        some ((noteBytes notes url entry).take count) :=
      Function.update_self ..
    have short : (noteBytes notes url entry).take count ≠
        noteBytes notes url entry := by
      intro same
      have length := congrArg List.length same
      rw [List.length_take] at length
      omega
    obtain ⟨msg, unread⟩ := lawful.unfinished url entry.totalLen entry.etag
      fits _ (List.take_prefix count _) short
    have broken : readCache notes
        (Stop.disk notes disk url entry (.note count)) (cachePath url) =
        .error (.cacheIo msg) := by
      simp only [readCache, there, noted]
      rw [noteBytes, unread]
    have failed : (fetchUrl notes server
        (Stop.disk notes disk url entry (.note count)) url).1 =
        .error (.cacheIo msg) := by
      simp only [fetchUrl, broken]
    rw [failed, fetched]
    exact False.elim

include left

theorem same_before :
    SameResult (fetchUrl notes server disk url).1
      (uncached notes server url) := by
  obtain ⟨header, made, -⟩ := fetched_of_writes steady writes
  have again : fetchUrl notes server disk url =
      refetch notes server disk url := by
    rcases readCache_cases url lawful left with
      ⟨read, -, -⟩ | ⟨other, held, -, -, -, read⟩
    · exact fetchUrl_of_none steady read
    · exact fetchUrl_of_miss steady made.filled read
        (miss_of_writes steady writes read)
  rw [again, refetch_fst steady]
  exact SameResult.refl _

/-- In the header file: the old note tells that the entry is old. -/
theorem same_file_iff (count : Nat) :
    SameResult
        (fetchUrl notes server
          (Stop.disk notes disk url entry (.file count)) url).1
        (uncached notes server url) ↔
      disk (cachePath url) ≠ none := by
  obtain ⟨header, made, fetched⟩ := fetched_of_writes steady writes
  have there : Stop.disk notes disk url entry (.file count)
      (cachePath url) = some (entry.bytes.take count) :=
    Function.update_self ..
  have note : Stop.disk notes disk url entry (.file count)
      (metaPath (cachePath url)) = disk (metaPath (cachePath url)) :=
    Function.update_of_ne (cachePath_ne_metaPath url url).symm ..
  rcases readCache_cases url lawful left with
    ⟨read, absent, bare⟩ | ⟨other, held, fits, old, noted, read⟩
  · have broken : readCache notes
        (Stop.disk notes disk url entry (.file count)) (cachePath url) =
        .error (.cacheIo missing) := by
      simp only [readCache, there, note, bare]
    have failed : (fetchUrl notes server
        (Stop.disk notes disk url entry (.file count)) url).1 =
        .error (.cacheIo missing) := by
      simp only [fetchUrl, broken]
    rw [failed, fetched]
    exact iff_of_false False.elim fun some => some absent
  · have mixed := readCache_note lawful fits there (note.trans noted)
    have other := miss_of_writes steady writes read
    have again := fetchUrl_of_miss steady made.filled mixed other
    rw [again, refetch_fst steady]
    refine iff_of_true (SameResult.refl _) ?_
    rw [old]
    exact Option.some_ne_none _

/-- A stop in `write_cache` is harmless to the next fetch of the address
exactly if nothing is written yet, or there was an older entry and its note
still stands, or the note is written in full. -/
theorem stop_harmless_iff (stop : Stop) :
    SameResult
        (fetchUrl notes server (stop.disk notes disk url entry) url).1
        (uncached notes server url) ↔
      Harmless notes disk url entry stop := by
  cases stop with
  | before =>
      exact iff_of_true (same_before lawful left steady writes) trivial
  | file count => exact same_file_iff lawful left steady writes count
  | note count => exact same_note_iff lawful steady writes count

end

/-! ## One address that stops -/

/-- The entry of the small file. -/
def smallEntry : Cached where
  bytes := smallHeader.write
  totalLen := some smallHeader.write.length
  etag := none

/-- A first fetch of the small file comes to `write_cache`. -/
theorem writes_smallHeader :
    Writes CacheNotes.notes (rangeServer smallHeader.write) emptyDisk
      "http://h/a".toList smallEntry := by
  refine ⟨none, _, rfl, remote_rangeServer _ parse_smallHeader ?_ ?_, rfl⟩
  · intro empty
    have length := smallHeader_length
    rw [empty] at length
    exact absurd length (by decide)
  · rw [smallHeader_length]
    decide

theorem steady_smallHeader :
    Steady (rangeServer smallHeader.write) smallHeader.write none :=
  steady_rangeServer (by rw [smallHeader_length]; decide)

theorem stop_harmless_small :
    SameResult
      (fetchUrl CacheNotes.notes (rangeServer smallHeader.write)
        (Stop.disk CacheNotes.notes emptyDisk "http://h/a".toList smallEntry
          .before)
        "http://h/a".toList).1
      (uncached CacheNotes.notes (rangeServer smallHeader.write)
        "http://h/a".toList) :=
  (stop_harmless_iff CacheNotes.lawful Left.empty steady_smallHeader
    writes_smallHeader .before).mpr trivial

/-- Stopped with an empty header file, the address cannot be fetched again. -/
theorem stop_harmful_small :
    Left CacheNotes.notes emptyDisk ∧
      Steady (rangeServer smallHeader.write) smallHeader.write none ∧
      Writes CacheNotes.notes (rangeServer smallHeader.write) emptyDisk
        "http://h/a".toList smallEntry ∧
      ¬ SameResult
        (fetchUrl CacheNotes.notes (rangeServer smallHeader.write)
          (Stop.disk CacheNotes.notes emptyDisk "http://h/a".toList
            smallEntry (.file 0))
          "http://h/a".toList).1
        (uncached CacheNotes.notes (rangeServer smallHeader.write)
          "http://h/a".toList) := by
  refine ⟨Left.empty, steady_smallHeader, writes_smallHeader, ?_⟩
  rw [same_file_iff CacheNotes.lawful Left.empty steady_smallHeader
    writes_smallHeader 0]
  exact not_not_intro rfl

end Runa.Fit.CacheStops
