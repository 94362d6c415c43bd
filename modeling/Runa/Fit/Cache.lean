import Runa.Bytes.Lossy
import Runa.Json.Value
import Runa.Fit.Remote

/-!
# The header cache on disk

Around the fetch of `Runa.Fit.Remote` stands a directory with two files for a
URL: the bytes of the header, and a note of the total length and the tag they
came with.  The name of the files is made of the URL.  The disk gives back
what was written to it; what a file that is missing or does not read does to
a fetch is part of the model.
-/

namespace Runa.Fit.Cache

open Runa.Stream.Utf8
open Runa.Bytes.Lossy
open Runa.Json
open Runa.Fit.Gguf hiding Value
open Runa.Fit.Remote hiding fetchUrl

/-- The failures of a fetch with a cache. -/
inductive FetchError where
  | remote (error : RemoteError)
  | cacheIo (msg : Text)
deriving DecidableEq, Repr

/-- What the cache uses of `serde_json`: `from_slice`, and a string value as
it is shown. -/
structure Notes where
  fromSlice : List UInt8 → Except Text Value
  quote : Text → Text

/-- The files of the cache directory by their names. -/
abbrev Disk := Text → Option (List UInt8)

/-- `fs::write` -/
def Disk.write (disk : Disk) (name : Text) (bytes : List UInt8) : Disk :=
  Function.update disk name (some bytes)

/-! ## Names -/

/-- A character a file name may have. -/
def safe (char : Char) : Char :=
  if char.isAlphanum || char = '.' || char = '-' then char else '_'

/-- The name without its extension. -/
def stem (url : Text) : Text :=
  (url.map safe).take 180 ++ ['.', '.'] ++ Nat.toDigits 10 (byteLen url)

/-- `cache_path` -/
def cachePath (url : Text) : Text :=
  stem url ++ ".ggufhdr".toList

/-- `Path::with_extension`: what is behind the last dot is replaced, unless
the name begins with that dot. -/
def withExtension (name extension : Text) : Text :=
  match name.reverse.dropWhile (· ≠ '.') with
  | _ :: char :: before =>
    (char :: before).reverse ++ '.' :: extension
  | _ => name ++ '.' :: extension

/-- `meta_path` -/
def metaPath (file : Text) : Text :=
  withExtension file "json".toList

/-! ## Reading and writing -/

/-- `null`, or what is there. -/
def orNull {α : Type} (shown : α → Text) : Option α → Text
  | none => ['n', 'u', 'l', 'l']
  | some value => shown value

/-- The text of the note, put together by `format!`:
`{"url":…,"total_len":…,"etag":…}`. -/
def noteText (quote : Text → Text) (url : Text) (total : Option Nat)
    (etag : Option Text) : Text :=
  ['\x7b', '"', 'u', 'r', 'l', '"', ':'] ++ quote url ++
    [',', '"', 't', 'o', 't', 'a', 'l', '_', 'l', 'e', 'n', '"', ':'] ++
    orNull (Nat.toDigits 10) total ++
    [',', '"', 'e', 't', 'a', 'g', '"', ':'] ++ orNull quote etag ++
    ['\x7d']

/-- The bytes of the note to an entry. -/
def noteBytes (notes : Notes) (url : Text) (entry : Cached) : List UInt8 :=
  encode (noteText notes.quote url entry.totalLen entry.etag)

def missing : Text := "No such file or directory (os error 2)".toList

def readCache (notes : Notes) (disk : Disk) (file : Text) :
    Except FetchError (Option Cached) :=
  match disk file with
  | none => .ok none
  | some bytes =>
    match disk (metaPath file) with
    | none => .error (.cacheIo missing)
    | some raw =>
      match notes.fromSlice raw with
      | .error msg => .error (.cacheIo msg)
      | .ok note =>
        .ok
          (some
            { bytes := bytes
              totalLen := (note.get "total_len").bind Value.asU64
              etag := (note.get "etag").bind Value.asStr })

def writeCache (notes : Notes) (disk : Disk) (url : Text)
    (entry : Cached) : Disk :=
  let file := cachePath url
  (disk.write file entry.bytes).write (metaPath file)
    (noteBytes notes url entry)

/-- `fetch_url`: what is not from the cache is written to it. -/
def fetchUrl (notes : Notes) (server : Server) (disk : Disk) (url : Text) :
    Except FetchError HeaderBytes × Disk :=
  match readCache notes disk (cachePath url) with
  | .error error => (.error error, disk)
  | .ok hit =>
    match Remote.fetchUrl server url hit with
    | .error error => (.error (.remote error), disk)
    | .ok (header, entry) =>
      (.ok header,
        if header.fromCache then disk else writeCache notes disk url entry)

/-- The directory before anything was fetched. -/
def emptyDisk : Disk := fun _ => none

/-- `serde_json` on the notes of the cache. -/
structure Notes.Lawful (notes : Notes) : Prop where
  /-- A note reads back as the object it shows. -/
  reads : ∀ url total etag, (∀ length ∈ total, length < 2 ^ 64) →
    notes.fromSlice (encode (noteText notes.quote url total etag)) =
      .ok
        (.obj
          [("url", .string url), ("total_len", total.elim .null .nat),
            ("etag", etag.elim .null .string)])
  /-- A note that ends early does not read. -/
  unfinished : ∀ url total etag, (∀ length ∈ total, length < 2 ^ 64) →
    ∀ part, part <+: encode (noteText notes.quote url total etag) →
      part ≠ encode (noteText notes.quote url total etag) →
        ∃ error, notes.fromSlice part = .error error

/-! ## What is under a name -/

theorem withExtension_dot (before : Text) {last : Text}
    (some : before ≠ []) (noDot : '.' ∉ last) (extension : Text) :
    withExtension (before ++ '.' :: last) extension =
      before ++ '.' :: extension := by
  have shown : (before ++ '.' :: last).reverse.dropWhile (· ≠ '.') =
      '.' :: before.reverse := by
    rw [List.reverse_append, List.reverse_cons, List.append_assoc,
      List.singleton_append, List.dropWhile_append_of_pos]
    · exact List.dropWhile_cons_of_neg (by simp)
    · intro char member
      rw [List.mem_reverse] at member
      simpa using fun same : char = '.' => noDot (same ▸ member)
  rw [withExtension, shown]
  cases reversed : before.reverse with
  | nil => exact absurd (List.reverse_eq_nil_iff.mp reversed) some
  | cons char front =>
      show (char :: front).reverse ++ '.' :: extension = _
      rw [← reversed, List.reverse_reverse]

theorem stem_ne_nil (url : Text) : stem url ≠ [] := by
  simp [stem]

theorem metaPath_cachePath (url : Text) :
    metaPath (cachePath url) = stem url ++ ".json".toList :=
  withExtension_dot (stem url) (stem_ne_nil url)
    (by decide : '.' ∉ "ggufhdr".toList) _

theorem cachePath_ne_metaPath (url other : Text) :
    cachePath url ≠ metaPath (cachePath other) := by
  rw [metaPath_cachePath]
  intro same
  have last := congrArg List.getLast? same
  rw [cachePath, List.getLast?_append_of_ne_nil _ (by decide),
    List.getLast?_append_of_ne_nil _ (by decide)] at last
  exact absurd last (by decide)

theorem metaPath_injective {url other : Text}
    (same : metaPath (cachePath url) = metaPath (cachePath other)) :
    cachePath url = cachePath other := by
  rw [metaPath_cachePath, metaPath_cachePath] at same
  rw [cachePath, cachePath, List.append_cancel_right same]

section

variable {notes : Notes} {disk : Disk} {url other : Text} {entry : Cached}

theorem writeCache_file :
    writeCache notes disk url entry (cachePath url) = some entry.bytes := by
  rw [writeCache, Disk.write, Disk.write,
    Function.update_of_ne (cachePath_ne_metaPath url url),
    Function.update_self]

theorem writeCache_meta :
    writeCache notes disk url entry (metaPath (cachePath url)) =
      some (noteBytes notes url entry) :=
  Function.update_self ..

theorem writeCache_file_of_ne (apart : cachePath other ≠ cachePath url) :
    writeCache notes disk url entry (cachePath other) =
      disk (cachePath other) := by
  rw [writeCache, Disk.write, Disk.write,
    Function.update_of_ne (cachePath_ne_metaPath other url),
    Function.update_of_ne apart]

theorem writeCache_meta_of_ne (apart : cachePath other ≠ cachePath url) :
    writeCache notes disk url entry (metaPath (cachePath other)) =
      disk (metaPath (cachePath other)) := by
  rw [writeCache, Disk.write, Disk.write,
    Function.update_of_ne (fun same => apart (metaPath_injective same)),
    Function.update_of_ne (cachePath_ne_metaPath url other).symm]

/-- A file next to a note that was written in full. -/
theorem readCache_note (lawful : notes.Lawful)
    (fits : ∀ length ∈ entry.totalLen, length < 2 ^ 64)
    {bytes : List UInt8} (file : disk (cachePath url) = some bytes)
    (note : disk (metaPath (cachePath url)) =
      some (noteBytes notes other entry)) :
    readCache notes disk (cachePath url) =
      .ok (some { entry with bytes := bytes }) := by
  have reads := lawful.reads other entry.totalLen entry.etag fits
  simp only [readCache, file, note, noteBytes, reads, Value.get_obj]
  rcases entry with ⟨held, total, etag⟩
  cases total <;> cases etag <;> rfl

theorem readCache_writeCache (lawful : notes.Lawful)
    (fits : ∀ length ∈ entry.totalLen, length < 2 ^ 64) :
    readCache notes (writeCache notes disk url entry) (cachePath url) =
      .ok (some entry) :=
  readCache_note lawful fits writeCache_file writeCache_meta

theorem readCache_writeCache_of_ne
    (apart : cachePath other ≠ cachePath url) :
    readCache notes (writeCache notes disk url entry) (cachePath other) =
      readCache notes disk (cachePath other) := by
  rw [readCache, readCache, writeCache_file_of_ne apart,
    writeCache_meta_of_ne apart]

end

end Runa.Fit.Cache
