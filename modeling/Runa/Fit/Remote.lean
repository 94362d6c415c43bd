import Runa.Fit.Truncation

/-!
# Fetching a header

The embedding of the two loops of `runa-fit/src/remote.rs` that read a growing
prefix of a model file until its header parses: `fetch_url`, which asks a
server for ranges of bytes, and `read_local_prefix`, which reads a file.  A
server is a function from the first and the last byte of a range to its
response.  The files of the header cache are its entries, and what goes wrong
with a disk is left out.
-/

namespace Runa.Fit.Remote

open Runa.Stream.Utf8
open Runa.Bytes.Scans
open Runa.Fit.GgmlTypes
open Runa.Fit.Gguf
open Runa.Fit.Truncation

/-- First range to ask for. -/
def startBytes : Nat := 8 * 2 ^ 20

/-- Give up past this. -/
def maxHeaderBytes : Nat := 256 * 2 ^ 20

inductive RemoteError where
  | http (url msg : Text)
  | headerIncomplete (fetched : Nat) (detail : Text)
  | corrupt (error : ReadError)
deriving DecidableEq, Repr

/-- A prefix of a file, as far as it was read. -/
structure HeaderBytes where
  bytes : List UInt8
  totalLen : Option Nat
  fromCache : Bool
deriving DecidableEq, Repr

/-! ## Ranges -/

/-- A response; the total is that of its `Content-Range`. -/
structure Response where
  status : Nat
  statusText : Text
  total : Option Nat
  etag : Option Text
  body : Except Text (List UInt8)

/-- What answers to the first and the last byte of a range. -/
abbrev Server := Nat → Nat → Except Text Response

inductive RangeStatus where
  | part (body : List UInt8)
  | whole (body : List UInt8)

structure Chunk where
  status : RangeStatus
  total : Option Nat
  etag : Option Text

def unexpectedStatus (text : Text) (start last : Nat) : Text :=
  "unexpected status ".toList ++ text ++ " for range bytes=".toList ++
    (toString start).toList ++ '-' :: (toString last).toList

/-- Ask for the bytes up to those that are wanted. -/
def getRange (server : Server) (url : Text) (start want : Nat) :
    Except RemoteError Chunk := do
  let last := max (want - 1) start
  let response ← (server start last).mapError (.http url)
  if response.status = 206 then
    let body ← response.body.mapError (.http url)
    .ok
      { status := .part body
        total := response.total
        etag := response.etag }
  else if 200 ≤ response.status ∧ response.status < 300 then
    let body ← response.body.mapError (.http url)
    .ok
      { status := .whole body
        total := response.total.or (some body.length)
        etag := response.etag }
  else
    .error
      (.http url (unexpectedStatus response.statusText start last))

/-! ## The remote loop -/

def exceedsDetail : Text :=
  "header exceeds ".toList ++ (toString maxHeaderBytes).toList ++
    " bytes".toList

/-- Put a chunk to the buffer; a whole file must not be too large. -/
def receive (buffer : List UInt8) (total : Option Nat) (chunk : Chunk) :
    Except RemoteError (List UInt8 × Option Nat) :=
  match chunk.status with
  | .part body => .ok (buffer ++ body, chunk.total.or total)
  | .whole body =>
      if maxHeaderBytes < body.length then
        .error
          (.headerIncomplete buffer.length
            "server does not serve byte ranges".toList)
      else .ok (body, some body.length)

/-- The total is known, and all of it is there. -/
def reached (total : Option Nat) (length : Nat) : Bool :=
  total.any fun total => decide (total ≤ length)

/-- An entry of the header cache. -/
structure Cached where
  bytes : List UInt8
  totalLen : Option Nat
  etag : Option Text
deriving DecidableEq, Repr

/-- What is wanted next, when so much is there. -/
def wanted (length want : Nat) : Nat :=
  if want ≤ length then want * 2 else want

theorem le_wanted (length want : Nat) : want ≤ wanted length want := by
  unfold wanted
  split_ifs <;> omega

/-- The growing range fetch; also what is put into the cache. -/
def fetchLoop (server : Server) (url : Text) (buffer : List UInt8)
    (want : Nat) (total : Option Nat) (etag : Option Text)
    (positive : 0 < want) : Except RemoteError (HeaderBytes × Cached) :=
  if small : wanted buffer.length want ≤ maxHeaderBytes then
    match getRange server url buffer.length (wanted buffer.length want) with
    | .error error => .error error
    | .ok chunk =>
        match receive buffer total chunk with
        | .error error => .error error
        | .ok (buffer', total') =>
            match Reader.parse buffer' with
            | .ok _ =>
                .ok
                  ({ bytes := buffer'
                     totalLen := total'
                     fromCache := false },
                    { bytes := buffer'
                      totalLen := total'
                      etag := chunk.etag.or etag })
            | .error error =>
                if isTruncation error then
                  if reached total' buffer'.length then
                    .error (.corrupt error)
                  else
                    fetchLoop server url buffer'
                      (wanted buffer.length want * 2) total'
                      (chunk.etag.or etag)
                      (Nat.mul_pos (positive.trans_le (le_wanted _ _))
                        (by decide))
                else .error (.corrupt error)
  else .error (.headerIncomplete buffer.length exceedsDetail)
termination_by maxHeaderBytes + 1 - want
decreasing_by
  have more := le_wanted buffer.length want
  omega

/-- The last round of a loop that succeeds, and where it began. -/
structure LastRound (server : Server) (url : Text)
    (holds : List UInt8 → Option Nat → Option Text → Prop)
    (header : HeaderBytes) (entry : Cached) (buffer : List UInt8) (want : Nat)
    (total : Option Nat) (etag : Option Text) (chunk : Chunk) : Prop where
  begun : holds buffer total etag
  answer : getRange server url buffer.length want = .ok chunk
  got : receive buffer total chunk = .ok (entry.bytes, entry.totalLen)
  tagged : entry.etag = chunk.etag.or etag
  header : header = ⟨entry.bytes, entry.totalLen, false⟩
  parsed : ∃ reader, Reader.parse entry.bytes = .ok reader

/-- What every round keeps holds where the last one begins. -/
theorem fetchLoop_run {server : Server} {url : Text}
    (holds : List UInt8 → Option Nat → Option Text → Prop)
    (round : ∀ {buffer : List UInt8} {want : Nat} {total : Option Nat}
      {etag : Option Text} {chunk : Chunk} {buffer' : List UInt8}
      {total' : Option Nat}, holds buffer total etag →
      getRange server url buffer.length want = .ok chunk →
        receive buffer total chunk = .ok (buffer', total') →
          holds buffer' total' (chunk.etag.or etag))
    {buffer : List UInt8} {want : Nat} {total : Option Nat}
    {etag : Option Text} {positive : 0 < want}
    (begun : holds buffer total etag) {header : HeaderBytes} {entry : Cached}
    (result : fetchLoop server url buffer want total etag positive =
      .ok (header, entry)) :
    ∃ buffer want total etag chunk,
      LastRound server url holds header entry buffer want total etag chunk := by
  induction buffer, want, total, etag, positive using
      fetchLoop.induct server url with
  | case1 buffer want total etag positive small error failed =>
      rw [fetchLoop, dif_pos small, failed] at result
      cases result
  | case2 buffer want total etag positive small chunk answer error failed =>
      rw [fetchLoop, dif_pos small, answer] at result
      simp only [failed] at result
      cases result
  | case3 buffer want total etag positive small chunk answer buffer' total'
      got reader parsed =>
      rw [fetchLoop, dif_pos small, answer] at result
      simp only [got, parsed, Except.ok.injEq, Prod.mk.injEq] at result
      rcases result with ⟨rfl, rfl⟩
      exact ⟨buffer, _, total, etag, chunk, begun, answer, got, rfl, rfl,
        reader, parsed⟩
  | case4 buffer want total etag positive small chunk answer buffer' total'
      got error parsed asks all =>
      rw [fetchLoop, dif_pos small, answer] at result
      simp only [got, parsed, asks, all, if_true] at result
      cases result
  | case5 buffer want total etag positive small chunk answer buffer' total'
      got error parsed asks more induction =>
      rw [fetchLoop, dif_pos small, answer] at result
      simp only [got, parsed, asks, more, if_true] at result
      exact induction (round begun answer got) result
  | case6 buffer want total etag positive small chunk answer buffer' total'
      got error parsed other =>
      rw [fetchLoop, dif_pos small, answer] at result
      simp only [got, parsed, other] at result
      cases result
  | case7 buffer want total etag positive large =>
      rw [fetchLoop, dif_neg large] at result
      cases result

/-- One small range, for the total length and the tag. -/
def probe (server : Server) (url : Text) :
    Except RemoteError (Option Nat × Option Text) := do
  let chunk ← getRange server url 0 1
  return (chunk.total, chunk.etag)

theorem startBytes_pos : 0 < startBytes := by
  decide

/-- Fetch a header, or take it from the cache if it is still the same. -/
def fetchUrl (server : Server) (url : Text) (cache : Option Cached) :
    Except RemoteError (HeaderBytes × Cached) :=
  match cache with
  | none => fetchLoop server url [] startBytes none none startBytes_pos
  | some hit => do
      let (total, etag) ← probe server url
      if total = hit.totalLen ∧ etag = hit.etag then
        .ok
          ({ bytes := hit.bytes
             totalLen := hit.totalLen
             fromCache := true },
            hit)
      else fetchLoop server url [] startBytes none none startBytes_pos

/-! ## The local loop -/

/-- Read a longer and longer prefix of a file. -/
def localLoop (file : List UInt8) (want : Nat) (positive : 0 < want) :
    Except RemoteError HeaderBytes :=
  match Reader.parse (file.take (min want file.length)) with
  | .ok _ =>
      .ok
        { bytes := file.take (min want file.length)
          totalLen := some file.length
          fromCache := false }
  | .error error =>
      if isTruncation error then
        if all : file.length ≤ (file.take (min want file.length)).length
        then .error (.corrupt error)
        else if maxHeaderBytes < min (want * 2) file.length then
          .error
            (.headerIncomplete
              (file.take (min want file.length)).length exceedsDetail)
        else
          localLoop file (min (want * 2) file.length)
            (by
              rw [List.length_take] at all
              omega)
      else .error (.corrupt error)
termination_by file.length - want
decreasing_by
  rw [List.length_take] at all
  omega

/-- Read a local file's leading prefix. -/
def readLocalPrefix (file : List UInt8) : Except RemoteError HeaderBytes :=
  localLoop file (min startBytes (max file.length 1))
    (lt_min startBytes_pos (lt_max_of_lt_right Nat.one_pos))

/-! ## Both loops are one -/

/-- What is done with a prefix; the rest follows if more is needed. -/
def judge (file : List UInt8) (want : Nat)
    (onward : Except RemoteError HeaderBytes) :
    Except RemoteError HeaderBytes :=
  match Reader.parse (file.take want) with
  | .ok _ =>
      .ok
        { bytes := file.take want
          totalLen := some file.length
          fromCache := false }
  | .error error =>
      if isTruncation error then
        if file.length ≤ want then .error (.corrupt error) else onward
      else .error (.corrupt error)

/-- Twice as much in each round, so many rounds. -/
def grow (file : List UInt8) : Nat → Nat → Except RemoteError HeaderBytes
  | 0, want =>
      judge file want (.error (.headerIncomplete want exceedsDetail))
  | rounds + 1, want => judge file want (grow file rounds (want * 2))

/-- The server has the bytes of the file, and its length. -/
def Serves (server : Server) (file : List UInt8) : Prop :=
  ∀ first last,
    first < file.length →
      ∃ response,
        server first last = .ok response ∧
          response.status = 206 ∧
          response.total = some file.length ∧
          response.body =
            .ok ((file.drop first).take (last + 1 - first))

section Loops

variable {server : Server} {url : Text} {file : List UInt8}
variable {want rounds : Nat}

/-- A range of the file is what is there up to the bytes wanted. -/
theorem getRange_of_serves (serves : Serves server file) {start : Nat}
    (inside : start < file.length) (more : start < want) :
    ∃ etag,
      getRange server url start want =
        .ok
          { status := .part ((file.drop start).take (want - start))
            total := some file.length
            etag := etag } := by
  have last : max (want - 1) start = want - 1 := by omega
  obtain ⟨response, answers, status, total, body⟩ :=
    serves start (want - 1) inside
  refine ⟨response.etag, ?_⟩
  have count : want - 1 + 1 - start = want - start := by omega
  rw [count] at body
  simp only [getRange, last, answers, Except.mapError, bind, Except.bind,
    status, body, total, if_true]

theorem take_more {start : Nat} (more : start < want) :
    file.take start ++ (file.drop start).take (want - start) =
      file.take want := by
  have sum : start + (want - start) = want := by omega
  rw [← List.take_add, sum]

/-- A round of the remote loop, on a file that is served. -/
theorem fetchLoop_round (serves : Serves server file)
    {start : Nat} (inside : start < file.length) (more : start < want)
    (small : want ≤ maxHeaderBytes)
    (total : Option Nat) (etag : Option Text) (positive : 0 < want) :
    ∃ etag',
      (fetchLoop server url (file.take start) want total etag
          positive).map Prod.fst =
        judge file want
          ((fetchLoop server url (file.take want) (want * 2)
              (some file.length) etag' (by omega)).map
            Prod.fst) := by
  have length : (file.take start).length = start := by
    rw [List.length_take, Nat.min_eq_left inside.le]
  have next : wanted start want = want := if_neg (not_le.mpr more)
  obtain ⟨tag, got⟩ :=
    @getRange_of_serves server url file want serves start inside more
  have received :
      receive (file.take start) total
          { status := .part ((file.drop start).take (want - start))
            total := some file.length
            etag := tag } =
        .ok (file.take want, some file.length) := by
    simp only [receive, take_more more, Option.some_or]
  refine ⟨tag.or etag, ?_⟩
  rw [fetchLoop, dif_pos (by rwa [length, next])]
  simp only [length, next, got, received, judge]
  cases Reader.parse (file.take want) with
  | ok reader => rfl
  | error error =>
      have all :
          reached (some file.length) (file.take want).length =
            decide (file.length ≤ want) := by
        rw [reached, Option.any_some, List.length_take]
        exact decide_eq_decide.mpr (by omega)
      simp only [all, decide_eq_true_eq]
      split_ifs
      · rfl
      · rfl
      · rfl

theorem fetchLoop_large {buffer : List UInt8} {total : Option Nat}
    {etag : Option Text} (positive : 0 < want)
    (large : maxHeaderBytes < want) :
    fetchLoop server url buffer want total etag positive =
      .error (.headerIncomplete buffer.length exceedsDetail) := by
  rw [fetchLoop, dif_neg]
  exact not_le.mpr (large.trans_le (le_wanted _ _))

/-- What follows a prefix is looked at only where there is more. -/
theorem judge_congr {onward onward' : Except RemoteError HeaderBytes}
    (same : want < file.length → onward = onward') :
    judge file want onward = judge file want onward' := by
  rw [judge, judge]
  cases Reader.parse (file.take want) with
  | ok reader => rfl
  | error error =>
      dsimp only
      split_ifs with asks all
      · rfl
      · exact same (not_le.mp all)
      · rfl

theorem want_le (top : want * 2 ^ rounds = maxHeaderBytes) :
    want ≤ maxHeaderBytes := by
  rw [← top]
  exact Nat.le_mul_of_pos_right _ (Nat.two_pow_pos rounds)

theorem next_round (top : want * 2 ^ (rounds + 1) = maxHeaderBytes) :
    want * 2 * 2 ^ rounds = maxHeaderBytes := by
  rw [← top, Nat.pow_succ, Nat.mul_assoc, Nat.mul_comm 2]

/-- The remote loop, from any prefix that is not all of the file. -/
theorem fetchLoop_eq (serves : Serves server file)
    {start : Nat} (inside : start < file.length) (more : start < want)
    (top : want * 2 ^ rounds = maxHeaderBytes)
    (total : Option Nat) (etag : Option Text) (positive : 0 < want) :
    (fetchLoop server url (file.take start) want total etag
        positive).map Prod.fst =
      grow file rounds want := by
  induction rounds generalizing start want total etag with
  | zero =>
      rw [Nat.pow_zero, Nat.mul_one] at top
      obtain ⟨etag', round⟩ :=
        @fetchLoop_round server url file want serves start inside more
          top.le total etag positive
      rw [round, grow]
      refine judge_congr fun left => ?_
      rw [fetchLoop_large (by omega) (by omega), List.length_take,
        Nat.min_eq_left left.le]
      rfl
  | succ rounds induction =>
      obtain ⟨etag', round⟩ :=
        @fetchLoop_round server url file want serves start inside more
          (want_le top) total etag positive
      rw [round, grow]
      exact
        judge_congr fun left =>
          induction left (by omega) (next_round top) _ _ (by omega)

/-- A round of the local loop. -/
theorem localLoop_round (positive : 0 < min want file.length) :
    localLoop file (min want file.length) positive =
      judge file want
        (if maxHeaderBytes < min (want * 2) file.length then
          .error (.headerIncomplete want exceedsDetail)
        else
          localLoop file (min (want * 2) file.length) (by omega)) := by
  have there :
      file.take (min (min want file.length) file.length) =
        file.take want := by
    rw [Nat.min_eq_left (Nat.min_le_right _ _), ← List.take_eq_take_min]
  rw [localLoop, judge]
  simp only [there]
  cases Reader.parse (file.take want) with
  | ok reader => rfl
  | error error =>
      by_cases left : want < file.length
      · have here : min want file.length = want := Nat.min_eq_left left.le
        have length : (file.take want).length = want := by
          rw [List.length_take, here]
        simp only [length, here, dif_neg (not_le.mpr left),
          if_neg (not_le.mpr left)]
      · have length : (file.take want).length = file.length := by
          rw [List.length_take, Nat.min_eq_right (not_lt.mp left)]
        simp only [length, le_refl, dite_true, if_pos (not_lt.mp left)]

/-- The local loop reads no more than there is. -/
theorem localLoop_eq (top : want * 2 ^ rounds = maxHeaderBytes)
    (positive : 0 < min want file.length) :
    localLoop file (min want file.length) positive =
      grow file rounds want := by
  induction rounds generalizing want with
  | zero =>
      rw [Nat.pow_zero, Nat.mul_one] at top
      rw [localLoop_round, grow]
      refine judge_congr fun left => ?_
      rw [if_pos (by omega)]
  | succ rounds induction =>
      have small := want_le (next_round top)
      rw [localLoop_round, grow, if_neg (by omega)]
      exact congrArg _ (induction (next_round top) _)

/-- Both loops grow from the same start in five rounds. -/
theorem fetchUrl_eq (serves : Serves server file) (nonempty : file ≠ []) :
    (fetchUrl server url none).map Prod.fst = grow file 5 startBytes := by
  rw [fetchUrl]
  exact
    @fetchLoop_eq server url file startBytes 5 serves 0
      (List.length_pos_iff.mpr nonempty) startBytes_pos (by decide) none
      none startBytes_pos

theorem readLocalPrefix_eq (nonempty : file ≠ []) :
    readLocalPrefix file = grow file 5 startBytes := by
  have some := List.length_pos_iff.mpr nonempty
  have atLeast : max file.length 1 = file.length :=
    Nat.max_eq_left some
  simp only [readLocalPrefix, atLeast]
  exact localLoop_eq (by decide) _

end Loops

/-! ## What is read of a file -/

/-- The header of a file extends past a number of bytes. -/
def ExtendsPast (file : List UInt8) (bound : Nat) : Prop :=
  bound < (header.outcome u64Limit 0 file).place

/-- What a result says of the file; the last holds if it is incomplete. -/
def Answers (file : List UInt8) (incomplete : Prop) :
    Except RemoteError HeaderBytes → Prop
  | .ok header =>
      header.bytes <+: file ∧
        Reader.parse header.bytes = Reader.parse file
  | .error (.corrupt error) => Reader.parse file = .error error
  | .error (.headerIncomplete _ _) => incomplete
  | .error (.http _ _) => False

theorem answers_mono {file : List UInt8} {less more : Prop}
    (implied : less → more)
    {result : Except RemoteError HeaderBytes}
    (answers : Answers file less result) : Answers file more result := by
  cases result with
  | ok header => exact answers
  | error error =>
      cases error with
      | http url msg => exact answers
      | headerIncomplete fetched detail => exact implied answers
      | corrupt error => exact answers

/-- Both ways to read a header agree, and with the whole file. -/
def ReadsWell (server : Server) (url : Text) (file : List UInt8) : Prop :=
  (fetchUrl server url none).map Prod.fst = readLocalPrefix file ∧
    Answers file
      (maxHeaderBytes < file.length ∧ ExtendsPast file maxHeaderBytes)
      (readLocalPrefix file)

/--
The reader asks for more bytes within some of the first bytes where it is not
bytes that are missing, as it does at an array of arrays.
-/
def NestedWithin (file : List UInt8) (bound : Nat) : Prop :=
  ∃ error stop,
    header.outcome u64Limit 0 file = .failed error stop ∧
      isTruncation error = true ∧ stop ≤ bound

section Files

variable {file : List UInt8} {want rounds : Nat}

/-- What a prefix decides, the file decides. -/
theorem parse_of_front
    (decided : ¬ Truncated (file.take want)) :
    Reader.parse file = Reader.parse (file.take want) := by
  have ends :
      ∃ stop,
        (header.outcome u64Limit 0 (file.take want)).EndsAt stop := by
    rw [truncated_iff] at decided
    cases ended : header.outcome u64Limit 0 (file.take want) with
    | ended read stop => exact ⟨stop, rfl⟩
    | failed error stop => exact ⟨stop, rfl⟩
    | short error wanted =>
        rw [ended] at decided
        exact (decided (asks_outcome ended)).elim
  obtain ⟨stop, stops⟩ := ends
  have same := parse_append stops (file.drop want)
  rwa [List.take_append_drop] at same

theorem judge_answers {incomplete : Prop}
    {onward : Except RemoteError HeaderBytes}
    (answers :
      want < file.length →
        Truncated (file.take want) → Answers file incomplete onward) :
    Answers file incomplete (judge file want onward) := by
  rw [judge]
  cases parsed : Reader.parse (file.take want) with
  | ok reader =>
      have decided : ¬ Truncated (file.take want) := by
        rintro ⟨error, failed, -⟩
        rw [parsed] at failed
        cases failed
      exact
        ⟨List.take_prefix want file, (parse_of_front decided).symm⟩
  | error error =>
      dsimp only
      split_ifs with asks all
      · rw [List.take_of_length_le all] at parsed
        exact parsed
      · exact answers (not_le.mp all) ⟨error, parsed, asks⟩
      · have decided : ¬ Truncated (file.take want) := by
          rintro ⟨error', failed, asks'⟩
          rw [parsed] at failed
          cases failed
          exact asks asks'
        exact (parse_of_front decided).trans parsed

/-- What the growing prefix says; it is incomplete only at the limit. -/
theorem grow_answers (top : want * 2 ^ rounds = maxHeaderBytes) :
    Answers file
      (maxHeaderBytes < file.length ∧
        Truncated (file.take maxHeaderBytes))
      (grow file rounds want) := by
  induction rounds generalizing want with
  | zero =>
      rw [Nat.pow_zero, Nat.mul_one] at top
      subst top
      exact judge_answers fun left truncated => ⟨left, truncated⟩
  | succ rounds induction =>
      exact judge_answers fun _ _ => induction (next_round top)

/-- No prefix of a file that is never decided is decided. -/
theorem judge_of_truncated (truncated : Truncated file)
    (left : want < file.length)
    (onward : Except RemoteError HeaderBytes) :
    judge file want onward = onward := by
  have here : Truncated (file.take want) := by
    by_contra decided
    rw [Truncated, parse_of_front decided] at truncated
    exact decided truncated
  obtain ⟨error, failed, asks⟩ := here
  simp only [judge, failed, asks, if_true, if_neg (not_le.mpr left)]

/-- A file that is too long and never decided is incomplete. -/
theorem grow_incomplete (truncated : Truncated file)
    (long : maxHeaderBytes < file.length)
    (top : want * 2 ^ rounds = maxHeaderBytes) :
    ∃ fetched,
      grow file rounds want =
        .error (.headerIncomplete fetched exceedsDetail) := by
  induction rounds generalizing want with
  | zero =>
      have left := (want_le top).trans_lt long
      exact ⟨want, judge_of_truncated truncated left _⟩
  | succ rounds induction =>
      have left := (want_le top).trans_lt long
      rw [grow, judge_of_truncated truncated left]
      exact induction (next_round top)

theorem growth_top : startBytes * 2 ^ 5 = maxHeaderBytes := by
  decide

/-- A file with an array of arrays is taken for an incomplete one. -/
theorem not_readsWell_of_nested {server : Server} {url : Text}
    (nonempty : file ≠ []) (long : maxHeaderBytes < file.length)
    (nested : NestedWithin file maxHeaderBytes) :
    ¬ ReadsWell server url file := by
  obtain ⟨error, stop, failed, asks, within⟩ := nested
  rintro ⟨-, answers⟩
  have truncated : Truncated file :=
    ⟨error, parse_eq_error.mpr (Or.inl ⟨stop, failed⟩), asks⟩
  obtain ⟨fetched, grown⟩ := grow_incomplete truncated long growth_top
  rw [readLocalPrefix_eq nonempty, grown] at answers
  have past : maxHeaderBytes < stop := by
    have place := answers.2
    rwa [ExtendsPast, failed] at place
  omega

/-- The reader that asks for more at the limit asks for bytes past it. -/
theorem extendsPast_of_truncated
    (long : maxHeaderBytes < file.length)
    (truncated : Truncated (file.take maxHeaderBytes))
    (apart : ¬ NestedWithin file maxHeaderBytes) :
    ExtendsPast file maxHeaderBytes := by
  have length : (file.take maxHeaderBytes).length = maxHeaderBytes := by
    rw [List.length_take, Nat.min_eq_left long.le]
  have whole := List.take_append_drop maxHeaderBytes file
  rw [truncated_iff] at truncated
  cases ended : header.outcome u64Limit 0 (file.take maxHeaderBytes) with
  | ended read stop =>
      rw [ended] at truncated
      exact truncated.elim
  | failed error stop =>
      rw [ended] at truncated
      have stops :
          (header.outcome u64Limit 0
              (file.take maxHeaderBytes)).EndsAt stop := by
        rw [ended]
        rfl
      have bound := (endsAt_bounds stops).2
      have same := outcome_append stops (file.drop maxHeaderBytes)
      rw [whole, ended] at same
      exact (apart ⟨error, stop, same, truncated, by omega⟩).elim
  | short error wanted =>
      have past :=
        short_place ended (by rw [length]; decide)
          (file.drop maxHeaderBytes)
      rwa [whole, length, Nat.zero_add] at past

end Files

/--
A file is read well from a server and from a disk exactly if it is not longer
than the limit with an array of arrays before it.
-/
theorem readsWell_iff (server : Server) (url : Text)
    (file : List UInt8) (serves : Serves server file)
    (nonempty : file ≠ []) :
    ReadsWell server url file ↔
      ¬ (maxHeaderBytes < file.length ∧
        NestedWithin file maxHeaderBytes) := by
  constructor
  · rintro well ⟨long, nested⟩
    exact not_readsWell_of_nested nonempty long nested well
  · intro apart
    have both := readLocalPrefix_eq nonempty
    refine ⟨(fetchUrl_eq serves nonempty).trans both.symm, ?_⟩
    rw [both]
    refine answers_mono ?_ (grow_answers growth_top)
    rintro ⟨long, truncated⟩
    exact
      ⟨long,
        extendsPast_of_truncated long truncated fun nested =>
          apart ⟨long, nested⟩⟩

/-- A server of one file. -/
def fileServer (file : List UInt8) : Server := fun first last =>
  .ok
    { status := 206
      statusText := "206 Partial Content".toList
      total := some file.length
      etag := none
      body := .ok ((file.drop first).take (last + 1 - first)) }

theorem fileServer_serves (file : List UInt8) :
    Serves (fileServer file) file :=
  fun _ _ _ => ⟨_, rfl, rfl, rfl, rfl⟩

theorem readsWell_small :
    Serves (fileServer smallHeader.write) smallHeader.write ∧
      smallHeader.write ≠ [] ∧
      ReadsWell (fileServer smallHeader.write) "/model.gguf".toList
        smallHeader.write := by
  have nonempty : smallHeader.write ≠ [] := by
    intro none
    have length := smallHeader_length
    rw [none] at length
    cases length
  have serves := fileServer_serves smallHeader.write
  refine ⟨serves, nonempty, ?_⟩
  refine
    (readsWell_iff (fileServer smallHeader.write) "/model.gguf".toList
      smallHeader.write serves nonempty).mpr
      ?_
  rintro ⟨long, -⟩
  rw [smallHeader_length] at long
  exact absurd long (by decide)

/-- An array of arrays, in a file of more than the limit. -/
def nestedFile : List UInt8 :=
  nestedHeader ++ List.replicate maxHeaderBytes 0

/-- It is called incomplete, although its header ends after 48 bytes. -/
theorem nestedFile_misread :
    Serves (fileServer nestedFile) nestedFile ∧
      nestedFile ≠ [] ∧
      ¬ ReadsWell (fileServer nestedFile) "/model.gguf".toList
        nestedFile := by
  have length : nestedFile.length = 48 + maxHeaderBytes := by
    rw [nestedFile, List.length_append, List.length_replicate]
    rfl
  have nonempty : nestedFile ≠ [] := by
    apply List.ne_nil_of_length_pos
    omega
  have ends : (header.outcome u64Limit 0 nestedHeader).EndsAt 48 := by
    rw [nestedHeader_outcome]
    rfl
  have stops :=
    (outcome_append ends (List.replicate maxHeaderBytes 0)).trans
      nestedHeader_outcome
  refine ⟨fileServer_serves nestedFile, nonempty, ?_⟩
  refine not_readsWell_of_nested nonempty (by omega) ?_
  exact ⟨.unexpectedEof, 48, stops, rfl, by decide⟩

end Runa.Fit.Remote
