import Mathlib.Algebra.Order.BigOperators.Group.List
import Mathlib.Algebra.Order.Group.Nat
import Runa.Stream.Utf8
import Runa.Stream.Words

/-!
# Wrapped transcript lines

`wrapped` and `split_lead` of `runa/src/tui.rs`.  Whether a word is set off by
a space is decided from the columns in use, so behind words without columns at
the start of a screen line the space is lost, and the text cannot be put
together again (`lossless_iff`).  The width of a text is a parameter.
-/

namespace Runa.App.Wrapped

open Runa.Stream.Utf8
open Runa.Stream.Lines (of_mem_splitOn)
open Runa.Stream.Words

/-- Columns of a text, as far as the wrapping relies on them. -/
structure Widths (width : Text → Nat) : Prop where
  spaces : ∀ n, width (List.replicate n ' ') = n
  ascii : ∀ text, Ascii text → width text ≤ text.length

variable (width : Text → Nat)

/-! ## The functions -/

/-- The variables of the loop over the words. -/
structure Wrapping where
  out : List Text
  current : Text
  currentWidth : Nat

/-- The lines, with the current one. -/
def Wrapping.finish (state : Wrapping) : List Text :=
  state.out ++ [state.current]

/-- One word of a raw line. -/
def wrapWord (indent lead : Text) (limit : Nat) (state : Wrapping)
    (word : Text) : Wrapping :=
  let gap := if width lead < state.currentWidth then 1 else 0
  if limit < state.currentWidth + gap + width word ∧
      width lead < state.currentWidth then
    { out := state.out ++ [state.current]
      current := indent ++ word
      currentWidth := width indent + width word }
  else if gap = 1 then
    { state with
      current := state.current ++ ' ' :: word
      currentWidth := state.currentWidth + 1 + width word }
  else
    { state with
      current := state.current ++ word
      currentWidth := state.currentWidth + width word }

/-- A raw line, behind the lines there are. -/
def wrapLine (indent lead : Text) (limit : Nat) (out : List Text)
    (raw : Text) : List Text :=
  ((raw.splitOn ' ').foldl (wrapWord width indent lead limit)
    { out := out, current := lead, currentWidth := width lead }).finish

/-- The spaces in front of all lines but the first. -/
def indentOf (label : Text) : Text :=
  List.replicate (width label) ' '

/-- What a raw line begins with. -/
def leadOf (label : Text) (index : Nat) : Text :=
  if index = 0 then label else indentOf width label

/--
Wrap a text; the first line carries the label, continuations are indented to
its width.
-/
def wrapped (label text : Text) (columns : Nat) : List Text :=
  (text.splitOn '\n').zipIdx.foldl
    (fun out (raw, index) =>
      wrapLine width (indentOf width label) (leadOf width label index)
        (max columns 1) out raw)
    []

/-- A line as its lead and the rest; no value inside a character. -/
def splitLead (prefixLen : Nat) (line : Text) : Option (Text × Text) :=
  (dropBytes prefixLen line).map fun tail =>
    (line.take (line.length - tail.length), tail)

/-! ## What the lines hold -/

/-- The lines of a raw line, without their leads. -/
def fill (lead limit : Nat) : Text → Nat → List Text → List Text
  | current, _, [] => [current]
  | current, used, word :: rest =>
    if used = 0 then fill lead limit (current ++ word) (width word) rest
    else if limit < lead + used + 1 + width word then
      current :: fill lead limit word (width word) rest
    else
      fill lead limit (current ++ ' ' :: word) (used + 1 + width word) rest

def lineContents (lead limit : Nat) (raw : Text) : List Text :=
  match raw.splitOn ' ' with
  | [] => []
  | word :: rest => fill width lead limit word (width word) rest

/-- The first line carries a lead, the others are indented. -/
def dress (indent lead : Text) : List Text → List Text
  | [] => []
  | line :: rest => (lead ++ line) :: rest.map (indent ++ ·)

variable {width}

theorem fill_ne_nil (lead limit : Nat) (current : Text) (used : Nat)
    (rest : List Text) : fill width lead limit current used rest ≠ [] := by
  induction rest generalizing current used with
  | nil => exact List.cons_ne_nil _ _
  | cons word rest induction =>
      rw [fill]
      split
      · exact induction _ _
      · split
        · exact List.cons_ne_nil _ _
        · exact induction _ _

/-! ## The loop -/

section Loop

variable {indent lead : Text} {limit : Nat} {out : List Text}
  {front current word : Text} {used : Nat}

/-- A lead with some of a line behind it, of so many columns. -/
def written (lead : Text) (width : Text → Nat) (out : List Text)
    (front current : Text) (used : Nat) : Wrapping where
  out := out
  current := front ++ current
  currentWidth := width lead + used

/-- Behind a line without columns a word is not set off. -/
theorem wrapWord_flush :
    wrapWord width indent lead limit
        (written lead width out front current 0) word =
      written lead width out front (current ++ word) (width word) := by
  simp [wrapWord, written]

theorem wrapWord_break (same : width indent = width lead)
    (some : used ≠ 0)
    (long : limit < width lead + used + 1 + width word) :
    wrapWord width indent lead limit
        (written lead width out front current used) word =
      written lead width (out ++ [front ++ current]) indent word
        (width word) := by
  have ahead : width lead < width lead + used := by omega
  simp only [wrapWord, written, long, ahead, and_self, if_true, same]

theorem wrapWord_fit (some : used ≠ 0)
    (short : ¬ limit < width lead + used + 1 + width word) :
    wrapWord width indent lead limit
        (written lead width out front current used) word =
      written lead width out front (current ++ ' ' :: word)
        (used + 1 + width word) := by
  have ahead : width lead < width lead + used := by omega
  simp only [wrapWord, written, short, ahead, false_and, if_false, if_true]
  rw [List.append_assoc, Nat.add_assoc, Nat.add_assoc, Nat.add_assoc]

/-- The loop over the rest of the words. -/
theorem foldl_wrapWord (same : width indent = width lead) (out : List Text)
    (front current : Text) (used : Nat) (rest : List Text) :
    (rest.foldl (wrapWord width indent lead limit)
        (written lead width out front current used)).finish =
      out ++
        dress indent front
          (fill width (width lead) limit current used rest) := by
  induction rest generalizing out front current used with
  | nil => rfl
  | cons word rest induction =>
      rw [List.foldl_cons, fill]
      by_cases empty : used = 0
      · rw [if_pos empty, empty, wrapWord_flush]
        exact induction _ _ _ _
      · rw [if_neg empty]
        by_cases long : limit < width lead + used + 1 + width word
        · rw [if_pos long, wrapWord_break same empty long, induction,
            List.append_assoc]
          have some : fill width (width lead) limit word (width word) rest ≠
              [] :=
            fill_ne_nil _ _ _ _ _
          rcases List.exists_cons_of_ne_nil some with ⟨line, later, split⟩
          rw [split]
          rfl
        · rw [if_neg long, wrapWord_fit empty long]
          exact induction _ _ _ _

/-- A raw line becomes its contents behind their leads. -/
theorem wrapLine_eq (same : width indent = width lead) (out : List Text)
    (raw : Text) :
    wrapLine width indent lead limit out raw =
      out ++
        dress indent lead (lineContents width (width lead) limit raw) := by
  rw [wrapLine, lineContents]
  rcases List.exists_cons_of_ne_nil (List.splitOn_ne_nil ' ' raw) with
    ⟨word, rest, split⟩
  rw [split, List.foldl_cons]
  have begins :
      ({ out := out, current := lead, currentWidth := width lead } :
          Wrapping) =
        written lead width out lead [] 0 := by
    rw [written, List.append_nil]
    rfl
  rw [begins, wrapWord_flush, foldl_wrapWord same]
  rfl

end Loop

/-! ## All lines -/

/-- The screen lines of each raw line. -/
def screenLines (width : Text → Nat) (label text : Text) (columns : Nat) :
    List (List Text) :=
  (text.splitOn '\n').zipIdx.map fun (raw, index) =>
    wrapLine width (indentOf width label) (leadOf width label index)
      (max columns 1) [] raw

/-- The same without their leads. -/
def contents (width : Text → Nat) (label text : Text) (columns : Nat) :
    List (List Text) :=
  (text.splitOn '\n').map
    (lineContents width (width label) (max columns 1))

variable {label : Text}

theorem width_leadOf (widths : Widths width) (index : Nat) :
    width (leadOf width label index) = width label := by
  rw [leadOf]
  split
  · rfl
  · exact widths.spaces _

theorem wrapLine_leadOf (widths : Widths width) (limit : Nat)
    (out : List Text) (index : Nat) (raw : Text) :
    wrapLine width (indentOf width label) (leadOf width label index) limit
        out raw =
      out ++
        dress (indentOf width label) (leadOf width label index)
          (lineContents width (width label) limit raw) := by
  have lead : width (leadOf width label index) = width label :=
    width_leadOf widths index
  rw [wrapLine_eq (lead ▸ widths.spaces _), lead]

theorem foldl_wrapLine (widths : Widths width) (limit start : Nat)
    (out : List Text) (raws : List Text) :
    (raws.zipIdx start).foldl
        (fun out (raw, index) =>
          wrapLine width (indentOf width label) (leadOf width label index)
            limit out raw)
        out =
      out ++
        ((raws.zipIdx start).map fun (raw, index) =>
          wrapLine width (indentOf width label) (leadOf width label index)
            limit [] raw).flatten := by
  induction raws generalizing start out with
  | nil => simp
  | cons raw rest induction =>
      rw [List.zipIdx_cons, List.foldl_cons, induction, List.map_cons,
        List.flatten_cons]
      simp only [wrapLine_leadOf widths, List.nil_append, List.append_assoc]

theorem wrapped_eq (widths : Widths width) (text : Text) (columns : Nat) :
    wrapped width label text columns =
      (screenLines width label text columns).flatten :=
  foldl_wrapLine widths _ 0 [] _

theorem lineContents_ne_nil (lead limit : Nat) (raw : Text) :
    lineContents width lead limit raw ≠ [] := by
  rw [lineContents]
  rcases List.exists_cons_of_ne_nil (List.splitOn_ne_nil ' ' raw) with
    ⟨word, rest, split⟩
  rw [split]
  exact fill_ne_nil _ _ _ _ _

/-! ## What is put together again -/

/-- What is behind the lead of a line. -/
def strip (prefixLen : Nat) (line : Text) : Text :=
  (splitLead prefixLen line).elim [] Prod.snd

/-- Soft breaks become spaces, and hard ones newlines. -/
def unwrap (prefixLen : Nat) (groups : List (List Text)) : Text :=
  joined '\n' (groups.map fun group =>
    joined ' ' (group.map (strip prefixLen)))

/--
Every line has a lead of ASCII characters, and behind the leads is the text.
-/
structure Lossless (width : Text → Nat) (label text : Text)
    (columns : Nat) : Prop where
  leads :
    ∀ line ∈ wrapped width label text columns,
      ∃ head tail, splitLead (byteLen label) line = some (head, tail) ∧
        byteLen head = byteLen label ∧ Ascii head
  lines :
    (screenLines width label text columns).flatten =
      wrapped width label text columns
  text :
    unwrap (byteLen label) (screenLines width label text columns) = text

/-- The columns in use when each later word of a raw line comes. -/
def rooms (lead limit : Nat) : Nat → List Nat → List (Nat × Nat)
  | _, [] => []
  | used, word :: rest =>
    (used, word) ::
      rooms lead limit
        (if used = 0 ∨ limit < lead + used + 1 + word then word
          else used + 1 + word)
        rest

def lineRooms (width : Text → Nat) (lead limit : Nat) (raw : Text) :
    List (Nat × Nat) :=
  match (raw.splitOn ' ').map width with
  | [] => []
  | word :: rest => rooms lead limit word rest

/-- No word stands behind words without columns. -/
def SetOff (places : List (Nat × Nat)) : Prop :=
  ∀ place ∈ places, 0 < place.1

/-- No word begins a screen line. -/
def Fits (lead limit : Nat) (places : List (Nat × Nat)) : Prop :=
  ∀ place ∈ places, place.1 = 0 ∨ lead + place.1 + 1 + place.2 ≤ limit

theorem setOff_cons {place : Nat × Nat} {places : List (Nat × Nat)} :
    SetOff (place :: places) ↔ 0 < place.1 ∧ SetOff places :=
  List.forall_mem_cons

theorem fits_cons {lead limit : Nat} {place : Nat × Nat}
    {places : List (Nat × Nat)} :
    Fits lead limit (place :: places) ↔
      (place.1 = 0 ∨ lead + place.1 + 1 + place.2 ≤ limit) ∧
        Fits lead limit places :=
  List.forall_mem_cons

/-- A first part that takes in the next one, with something in between. -/
theorem joined_merge (current between word : Text) (rest : List Text) :
    joined ' ' ((current ++ between ++ word) :: rest) =
      current ++ between ++ joined ' ' (word :: rest) := by
  cases rest with
  | nil => simp
  | cons next later => simp [List.append_assoc]

/--
Nothing but spaces is lost, and none where every word is set off from those in
front of it.
-/
theorem joined_fill (lead limit : Nat) (current : Text) (used : Nat)
    (rest : List Text) :
    (joined ' ' (fill width lead limit current used rest)).Sublist
        (joined ' ' (current :: rest)) ∧
      (joined ' ' (fill width lead limit current used rest) =
          joined ' ' (current :: rest) ↔
        SetOff (rooms lead limit used (rest.map width))) := by
  induction rest generalizing current used with
  | nil => exact ⟨List.Sublist.refl _, iff_of_true rfl nofun⟩
  | cons word rest induction =>
      rw [fill, List.map_cons, rooms, setOff_cons, joined_cons_cons]
      by_cases empty : used = 0
      · -- The space in front of this word is lost.
        have merged := joined_merge current [] word rest
        rw [List.append_nil] at merged
        rw [if_pos empty]
        rcases induction (current ++ word) (width word) with ⟨part, -⟩
        rw [merged] at part
        refine
          ⟨part.trans
            (List.Sublist.append_left (List.sublist_cons_self _ _) _), ?_⟩
        apply iff_of_false
        · intro same
          have short := part.length_le
          rw [same, List.length_append, List.length_append,
            List.length_cons] at short
          omega
        · exact fun kept => absurd empty kept.1.ne'
      · have positive : 0 < used := Nat.pos_of_ne_zero empty
        rw [if_neg empty]
        by_cases long : limit < lead + used + 1 + width word
        · rcases induction word (width word) with ⟨part, exact⟩
          rw [if_pos long, if_pos (Or.inr long),
            joined_cons ' ' current (fill_ne_nil _ _ _ _ _)]
          refine ⟨List.Sublist.append_left (part.cons_cons ' ') current, ?_⟩
          rw [List.append_cancel_left_eq, List.cons.injEq, exact]
          exact and_congr_left fun _ => by simp [positive]
        · have merged := joined_merge current [' '] word rest
          rcases induction (current ++ ' ' :: word) (used + 1 + width word)
            with ⟨part, exact⟩
          rw [List.append_assoc, List.singleton_append, List.append_assoc,
            List.singleton_append] at merged
          rw [merged] at part exact
          rw [if_neg long, if_neg (not_or.mpr ⟨empty, long⟩), exact]
          exact ⟨part, by simp [positive]⟩

theorem length_fill (lead limit : Nat) (current : Text) (used : Nat)
    (rest : List Text) :
    (fill width lead limit current used rest).length = 1 ↔
      Fits lead limit (rooms lead limit used (rest.map width)) := by
  induction rest generalizing current used with
  | nil => exact iff_of_true rfl nofun
  | cons word rest induction =>
      rw [fill, List.map_cons, rooms, fits_cons]
      by_cases empty : used = 0
      · rw [if_pos empty, if_pos (Or.inl empty), induction]
        simp [empty]
      · rw [if_neg empty]
        by_cases long : limit < lead + used + 1 + width word
        · rw [if_pos long]
          apply iff_of_false
          · have some : fill width lead limit word (width word) rest ≠ [] :=
              fill_ne_nil _ _ _ _ _
            have more := List.length_pos_of_ne_nil some
            rw [List.length_cons]
            omega
          · rintro ⟨zero | fits, -⟩
            · exact empty zero
            · omega
        · rw [if_neg long, if_neg (not_or.mpr ⟨empty, long⟩), induction]
          simp [Nat.le_of_not_lt long]

/-! ## Raw lines -/

theorem joined_lineContents (lead limit : Nat) (raw : Text) :
    (joined ' ' (lineContents width lead limit raw)).Sublist raw ∧
      (joined ' ' (lineContents width lead limit raw) = raw ↔
        SetOff (lineRooms width lead limit raw)) := by
  have whole : joined ' ' (raw.splitOn ' ') = raw :=
    List.intercalate_splitOn ' '
  rcases List.exists_cons_of_ne_nil (List.splitOn_ne_nil ' ' raw) with
    ⟨word, rest, split⟩
  rw [lineContents, lineRooms, split]
  dsimp only
  rw [← whole, split]
  exact joined_fill _ _ _ _ _

theorem length_lineContents (lead limit : Nat) (raw : Text) :
    (lineContents width lead limit raw).length = 1 ↔
      Fits lead limit (lineRooms width lead limit raw) := by
  rw [lineContents, lineRooms]
  rcases List.exists_cons_of_ne_nil (List.splitOn_ne_nil ' ' raw) with
    ⟨word, rest, split⟩
  rw [split]
  exact length_fill _ _ _ _ _

/-- Without the leads the text is there where no space was lost. -/
theorem joined_contents (text : Text) (columns : Nat) :
    joined '\n' ((contents width label text columns).map (joined ' ')) =
        text ↔
      ∀ raw ∈ text.splitOn '\n',
        SetOff (lineRooms width (width label) (max columns 1) raw) := by
  have whole : joined '\n' (text.splitOn '\n') = text :=
    List.intercalate_splitOn '\n'
  have each : ∀ raw,
      (joined ' '
          (lineContents width (width label) (max columns 1) raw)).Sublist
          raw ∧ _ :=
    fun raw => joined_lineContents (width label) (max columns 1) raw
  rw [contents, List.map_map]
  constructor
  · intro same raw member
    have apart : ∀ line ∈ (text.splitOn '\n').map
        (joined ' ' ∘ lineContents width (width label) (max columns 1)),
        '\n' ∉ line := by
      intro line inside
      rcases List.mem_map.mp inside with ⟨other, among, rfl⟩
      exact fun newline =>
        (of_mem_splitOn among).1 ((each other).1.subset newline)
    have split := congrArg (List.splitOn '\n') same
    rw [joined, List.splitOn_intercalate '\n' apart
      (by simp)] at split
    have here :=
      List.map_inj_left.mp (split.trans (List.map_id _).symm) raw member
    exact (each raw).2.mp here
  · intro kept
    have same :
        (text.splitOn '\n').map
            (joined ' ' ∘ lineContents width (width label) (max columns 1)) =
          (text.splitOn '\n').map id :=
      List.map_congr_left fun raw member =>
        (each raw).2.mpr (kept raw member)
    rw [same, List.map_id, whole]

/-! ## Leads -/

theorem ascii_indent (label : Text) : Ascii (indentOf width label) := by
  intro char member
  rw [List.eq_of_mem_replicate member]
  decide

/-- A lead is split off at its end. -/
theorem splitLead_append (head tail : Text) :
    splitLead (byteLen head) (head ++ tail) = some (head, tail) := by
  rw [splitLead, dropBytes_append, Option.map_some, List.length_append,
    Nat.add_sub_cancel, List.take_left]

theorem strip_append {head : Text} {prefixLen : Nat}
    (length : byteLen head = prefixLen) (tail : Text) :
    strip prefixLen (head ++ tail) = tail := by
  rw [strip, ← length, splitLead_append]
  rfl

theorem byteLen_indent (label : Text) :
    byteLen (indentOf width label) = width label := by
  rw [byteLen_of_ascii (ascii_indent label), indentOf,
    List.length_replicate]

theorem map_strip_dress {indent lead : Text} {prefixLen : Nat}
    (front : byteLen lead = prefixLen) (others : byteLen indent = prefixLen)
    (lines : List Text) :
    (dress indent lead lines).map (strip prefixLen) = lines := by
  cases lines with
  | nil => rfl
  | cons line rest =>
      rw [dress, List.map_cons, strip_append front, List.map_map]
      congr 1
      exact
        (List.map_congr_left fun other _ => strip_append others other).trans
          (List.map_id _)

theorem screenLines_eq (widths : Widths width) (text : Text)
    (columns : Nat) :
    screenLines width label text columns =
      (text.splitOn '\n').zipIdx.map fun (raw, index) =>
        dress (indentOf width label) (leadOf width label index)
          (lineContents width (width label) (max columns 1) raw) := by
  rw [screenLines]
  apply List.map_congr_left
  rintro ⟨raw, index⟩ _
  exact (wrapLine_leadOf widths _ [] index raw).trans (List.nil_append _)

/-- Only the first raw line carries the label. -/
theorem flatten_indented (f : Text → List Text) (raws : List Text)
    (start : Nat) :
    ((raws.zipIdx (start + 1)).map fun (raw, index) =>
        dress (indentOf width label) (leadOf width label index)
          (f raw)).flatten =
      (raws.map f).flatten.map (indentOf width label ++ ·) := by
  induction raws generalizing start with
  | nil => rfl
  | cons raw rest induction =>
      have indented :
          dress (indentOf width label) (leadOf width label (start + 1))
              (f raw) =
            (f raw).map (indentOf width label ++ ·) := by
        rw [leadOf, if_neg (Nat.succ_ne_zero start)]
        cases f raw <;> rfl
      rw [List.zipIdx_cons, List.map_cons, List.flatten_cons, induction,
        List.map_cons, List.flatten_cons, List.map_append]
      exact congrArg (· ++ _) indented

theorem dress_append (indent lead : Text) {lines : List Text}
    (some : lines ≠ []) (more : List Text) :
    dress indent lead (lines ++ more) =
      dress indent lead lines ++ more.map (indent ++ ·) := by
  rcases List.exists_cons_of_ne_nil some with ⟨line, rest, rfl⟩
  rw [List.cons_append, dress, List.map_append, dress, List.cons_append]

/-- All lines in turn: the first carries the label. -/
theorem wrapped_eq_dress (widths : Widths width) (text : Text)
    (columns : Nat) :
    wrapped width label text columns =
      dress (indentOf width label) label
        (contents width label text columns).flatten := by
  rw [wrapped_eq widths, screenLines_eq widths, contents]
  rcases List.exists_cons_of_ne_nil (List.splitOn_ne_nil '\n' text) with
    ⟨raw, rest, split⟩
  rw [split, List.zipIdx_cons, List.map_cons, List.flatten_cons,
    flatten_indented, List.map_cons, List.flatten_cons,
    dress_append _ _ (lineContents_ne_nil _ _ raw)]
  rfl

/-- One raw line, on one screen line. -/
def OneLine (width : Text → Nat) (label text : Text) (columns : Nat) :
    Prop :=
  '\n' ∉ text ∧
    Fits (width label) (max columns 1)
      (lineRooms width (width label) (max columns 1) text)

theorem OneLine.split {text : Text} {columns : Nat}
    (one : OneLine width label text columns) :
    text.splitOn '\n' = [text] :=
  List.splitOn_eq_singleton one.1

theorem OneLine.contents {text : Text} {columns : Nat}
    (one : OneLine width label text columns) :
    ∃ line, lineContents width (width label) (max columns 1) text = [line] :=
  List.length_eq_one_iff.mp ((length_lineContents _ _ text).mpr one.2)

theorem oneLine_of_length {text : Text} {columns : Nat}
    (length : (contents width label text columns).flatten.length = 1) :
    OneLine width label text columns := by
  rcases List.exists_cons_of_ne_nil (List.splitOn_ne_nil '\n' text) with
    ⟨raw, rest, split⟩
  have positive : ∀ other : Text,
      0 < (lineContents width (width label) (max columns 1) other).length :=
    fun other => List.length_pos_of_ne_nil (lineContents_ne_nil _ _ other)
  rw [Wrapped.contents, split, List.map_cons, List.flatten_cons,
    List.length_append] at length
  cases rest with
  | cons next later =>
      have here := positive raw
      have there := positive next
      rw [List.map_cons, List.flatten_cons, List.length_append] at length
      omega
  | nil =>
      have whole : joined '\n' (text.splitOn '\n') = text :=
        List.intercalate_splitOn '\n'
      rw [split, joined_singleton] at whole
      rw [← whole]
      constructor
      · exact (of_mem_splitOn (by rw [split]; exact List.mem_cons_self)).1
      · exact (length_lineContents _ _ raw).mp length

/-- With leads of one length, what is put together is the contents. -/
theorem unwrap_eq (widths : Widths width) (ascii : Ascii label)
    (text : Text) (columns : Nat)
    (aligned :
      width label = label.length ∨ OneLine width label text columns) :
    unwrap (byteLen label) (screenLines width label text columns) =
      joined '\n' ((contents width label text columns).map (joined ' ')) := by
  rw [unwrap, screenLines_eq widths, contents]
  rcases aligned with aligned | one
  · have indent : byteLen (indentOf width label) = byteLen label := by
      rw [byteLen_indent, aligned, byteLen_of_ascii ascii]
    have lead : ∀ index, byteLen (leadOf width label index) =
        byteLen label := by
      intro index
      rw [leadOf]
      split
      · rfl
      · exact indent
    rw [List.map_map, List.map_map]
    congr 1
    conv_rhs => rw [← List.zipIdx_map_fst 0 (text.splitOn '\n')]
    rw [List.map_map]
    apply List.map_congr_left
    rintro ⟨raw, index⟩ _
    exact congrArg (joined ' ') (map_strip_dress (lead index) indent _)
  · rcases one.contents with ⟨line, only⟩
    rw [one.split]
    simp only [List.zipIdx_cons, List.zipIdx_nil, List.map_cons,
      List.map_nil, only, dress, leadOf, if_pos, strip_append rfl]

theorem leads_of_aligned (widths : Widths width) (ascii : Ascii label)
    (text : Text) (columns : Nat)
    (aligned :
      width label = label.length ∨ OneLine width label text columns) :
    ∀ line ∈ wrapped width label text columns,
      ∃ head tail, splitLead (byteLen label) line = some (head, tail) ∧
        byteLen head = byteLen label ∧ Ascii head := by
  rw [wrapped_eq_dress widths]
  rcases aligned with aligned | one
  · have indent : byteLen (indentOf width label) = byteLen label := by
      rw [byteLen_indent, aligned, byteLen_of_ascii ascii]
    intro line member
    cases split : (contents width label text columns).flatten with
    | nil =>
        rw [split] at member
        cases member
    | cons first rest =>
        rw [split] at member
        rcases List.mem_cons.mp member with rfl | later
        · exact ⟨label, first, splitLead_append _ _, rfl, ascii⟩
        · rcases List.mem_map.mp later with ⟨other, -, rfl⟩
          refine ⟨indentOf width label, other, ?_, indent, ascii_indent label⟩
          rw [← indent]
          exact splitLead_append _ _
  · rcases one.contents with ⟨only, eq⟩
    rw [contents, one.split, List.map_singleton, eq]
    intro line member
    rw [List.mem_singleton.mp member]
    exact ⟨label, only, splitLead_append _ _, rfl, ascii⟩

theorem contents_ne_nil (text : Text) (columns : Nat) :
    contents width label text columns ≠ [] := by
  rw [contents, Ne, List.map_eq_nil_iff]
  exact List.splitOn_ne_nil '\n' text

theorem ne_nil_of_mem_contents {text : Text} {columns : Nat}
    {lines : List Text}
    (member : lines ∈ contents width label text columns) : lines ≠ [] := by
  rcases List.mem_map.mp member with ⟨raw, -, rfl⟩
  exact lineContents_ne_nil _ _ raw

/-- The contents are no longer than the text. -/
theorem length_contents_le (text : Text) (columns : Nat) :
    ((contents width label text columns).flatten.map fun line =>
        line.length + 1).sum ≤
      text.length + 1 := by
  have whole : joined '\n' (text.splitOn '\n') = text :=
    List.intercalate_splitOn '\n'
  have parts := length_joined '\n' (List.splitOn_ne_nil '\n' text)
  rw [whole] at parts
  rw [← length_joined_joined '\n' ' ' (contents_ne_nil text columns)
    fun lines member => ne_nil_of_mem_contents member,
    length_joined '\n' (by simpa using contents_ne_nil text columns), parts,
    contents, List.map_map, List.map_map]
  apply List.sum_le_sum
  intro raw _
  exact
    Nat.succ_le_succ
      (joined_lineContents (width label) (max columns 1) raw).1.length_le

/-- Behind a longer lead than its own, a line falls short. -/
theorem length_strip_lt {line : Text} {prefixLen : Nat}
    (short : width label < prefixLen)
    (split :
      ∃ head tail,
        splitLead prefixLen (indentOf width label ++ line) =
            some (head, tail) ∧
          byteLen head = prefixLen ∧ Ascii head) :
    (strip prefixLen (indentOf width label ++ line)).length <
      line.length := by
  rcases split with ⟨head, tail, divided, bytes, ascii⟩
  have joins : head ++ tail = indentOf width label ++ line := by
    rcases Option.map_eq_some_iff.mp divided with ⟨behind, drop, same⟩
    cases same
    rcases (dropBytes_eq_some_iff _ _ _).mp drop with ⟨front, whole, -⟩
    rw [← whole, List.length_append, Nat.add_sub_cancel, List.take_left]
  have length := congrArg List.length joins
  rw [List.length_append, List.length_append, indentOf,
    List.length_replicate, ← byteLen_of_ascii ascii, bytes] at length
  rw [strip, divided]
  change tail.length < line.length
  omega

/-- What is put together has the lengths of the stripped lines. -/
theorem length_unwrap (widths : Widths width) (text : Text) (columns : Nat)
    (prefixLen : Nat) :
    (unwrap prefixLen (screenLines width label text columns)).length + 1 =
      ((wrapped width label text columns).map fun line =>
        (strip prefixLen line).length + 1).sum := by
  have some :
      (screenLines width label text columns).map
          (List.map (strip prefixLen)) ≠ [] := by
    rw [screenLines, List.map_map, Ne, List.map_eq_nil_iff,
      List.zipIdx_eq_nil_iff]
    exact List.splitOn_ne_nil '\n' text
  have each : ∀ group ∈ (screenLines width label text columns).map
      (List.map (strip prefixLen)), group ≠ [] := by
    intro group member
    rcases List.mem_map.mp member with ⟨lines, inside, rfl⟩
    rw [screenLines_eq widths] at inside
    rcases List.mem_map.mp inside with ⟨⟨raw, index⟩, -, rfl⟩
    have some : lineContents width (width label) (max columns 1) raw ≠ [] :=
      lineContents_ne_nil _ _ _
    rcases List.exists_cons_of_ne_nil some with ⟨line, rest, split⟩
    dsimp only
    rw [split]
    exact List.cons_ne_nil _ _
  have lengths := length_joined_joined '\n' ' ' some each
  rw [List.map_map, ← List.map_flatten, List.map_map,
    ← wrapped_eq widths] at lengths
  exact lengths

theorem aligned_of_lossless (widths : Widths width) (ascii : Ascii label)
    {text : Text} {columns : Nat}
    (lossless : Lossless width label text columns) :
    width label = label.length ∨ OneLine width label text columns := by
  by_contra apart
  rw [not_or] at apart
  have narrow := widths.ascii label ascii
  have short : width label < byteLen label := by
    rw [byteLen_of_ascii ascii]
    omega
  -- There is a line behind the first, and it is cut too far.
  have several : (contents width label text columns).flatten.length ≠ 1 :=
    fun one => apart.2 (oneLine_of_length one)
  have leads := lossless.leads
  have bound : ((contents width label text columns).flatten.map fun line =>
      line.length + 1).sum ≤ text.length + 1 :=
    length_contents_le text columns
  have total : (unwrap (byteLen label)
      (screenLines width label text columns)).length + 1 =
        ((wrapped width label text columns).map fun line =>
          (strip (byteLen label) line).length + 1).sum :=
    length_unwrap widths text columns (byteLen label)
  rw [lossless.text, wrapped_eq_dress widths] at total
  rw [wrapped_eq_dress widths] at leads
  rcases split : (contents width label text columns).flatten with
    _ | ⟨first, rest⟩
  · rw [split] at total
    exact absurd total (Nat.succ_ne_zero _)
  · rw [split] at several leads total bound
    have behind : rest ≠ [] := by
      rintro rfl
      exact several rfl
    have less :
        (rest.map fun line =>
            (strip (byteLen label)
              (indentOf width label ++ line)).length + 1).sum <
          (rest.map fun line => line.length + 1).sum := by
      apply List.sum_lt_sum_of_ne_nil behind
      intro line member
      refine Nat.succ_lt_succ (length_strip_lt short (leads _ ?_))
      exact List.mem_cons_of_mem _ (List.mem_map_of_mem member)
    rw [dress, List.map_cons, List.sum_cons, strip_append rfl,
      List.map_map] at total
    rw [List.map_cons, List.sum_cons] at bound
    simp only [Function.comp_def] at total
    omega

/--
A text can be put together again where the label is as wide as it is long, or
nothing is wrapped, and every word is set off.
-/
theorem lossless_iff (width : Text → Nat) (widths : Widths width)
    (label : Text) (ascii : Ascii label) (text : Text) (columns : Nat) :
    Lossless width label text columns ↔
      (width label = label.length ∨ OneLine width label text columns) ∧
        ∀ raw ∈ text.splitOn '\n',
          SetOff (lineRooms width (width label) (max columns 1) raw) := by
  rw [← joined_contents]
  constructor
  · intro lossless
    have aligned := aligned_of_lossless widths ascii lossless
    refine ⟨aligned, ?_⟩
    rw [← unwrap_eq widths ascii text columns aligned]
    exact lossless.text
  · rintro ⟨aligned, whole⟩
    exact
      { leads := leads_of_aligned widths ascii text columns aligned
        lines := (wrapped_eq widths text columns).symm
        text := (unwrap_eq widths ascii text columns aligned).trans whole }

/-! ## Concrete texts -/

theorem widths_length : Widths List.length where
  spaces _ := List.length_replicate
  ascii _ _ := le_rfl

/-- A space in front of the text is lost. -/
theorem not_lossless_indented :
    wrapped List.length "you> ".toList " a".toList 80 = ["you> a".toList] ∧
      ¬ Lossless List.length "you> ".toList " a".toList 80 := by
  refine ⟨by decide +kernel, fun lossless => ?_⟩
  exact absurd lossless.text (by decide +kernel)

/-- Two words on two lines. -/
theorem lossless_words :
    Lossless List.length "you> ".toList "ab cd".toList 8 := by
  have ascii : Ascii "you> ".toList :=
    fun char member =>
      of_decide_eq_true
        (List.all_eq_true.mp
          (show "you> ".toList.all (fun char => decide (char.toNat < 128)) =
            true by decide +kernel)
          char member)
  refine
    (lossless_iff List.length widths_length "you> ".toList ascii
      "ab cd".toList 8).mpr ⟨Or.inl rfl, fun raw member => ?_⟩
  have single : "ab cd".toList.splitOn '\n' = ["ab cd".toList] := by
    decide +kernel
  rw [single] at member
  rw [List.mem_singleton.mp member]
  have places : lineRooms List.length 5 8 "ab cd".toList = [(2, 2)] := by
    decide +kernel
  intro place inside
  rw [show (max 8 1 : Nat) = 8 from rfl] at inside
  change place ∈ lineRooms List.length 5 8 "ab cd".toList at inside
  rw [places] at inside
  rw [List.mem_singleton.mp inside]
  exact Nat.two_pos

end Runa.App.Wrapped
