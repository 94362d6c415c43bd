import Runa.Stream.Splitter
import Runa.Stream.Utf8

/-!
# The reasoning parser

The embedding of `runa-core/src/reason.rs`: the split of model text into
reasoning and answer.  Offsets into the buffer count characters; the byte
offsets of the source only ever lie on character boundaries here, because
`find` returns one and `emit_safe` skips the others.

The loop of `push` takes a fuel argument, and the `expect` on the close tag
is an explicit failure; that neither is ever reached is part of
`push_of_feeds`, the bridge to the splitter machine of `Runa.Stream`.
-/

namespace Runa.Core.Reason

open Runa.Stream
open Runa.Stream.Occurrence
open Runa.Stream.Utf8

/-! ## Families and their tags -/

/-- Known reasoning-tag families. -/
inductive ReasonFamily where
  | auto
  | xmlThink
  | harmony
  | gemma
deriving DecidableEq, Repr

/-- Whether a text contains a word. -/
def contains (text word : Text) : Bool :=
  (find word text).isSome

/-- Infer the family from a chat-template string. -/
def ReasonFamily.fromTemplate (template : Text) : ReasonFamily :=
  if contains template "<|channel|>analysis".toList then .harmony
  else if contains template "<|channel|>thought".toList ||
      contains template "<start_of_thought>".toList then .gemma
  else if contains template "<think>".toList ||
      contains template "enable_thinking".toList then .xmlThink
  else .auto

/-- The four rows of the tag tables. -/
inductive TagPair where
  | think
  | analysis
  | thought
  | channel
deriving DecidableEq, Repr

def TagPair.opening : TagPair → Text
  | .think => "<think>".toList
  | .analysis => "<|channel|>analysis".toList
  | .thought => "<start_of_thought>".toList
  | .channel => "<|channel|>thought".toList

def TagPair.closing : TagPair → Text
  | .think => "</think>".toList
  | .analysis => "<|channel|>final".toList
  | .thought => "<end_of_thought>".toList
  | .channel => "<|channel|>response".toList

/-- The rows of a family, in the order of the source. -/
def ReasonFamily.rows : ReasonFamily → List TagPair
  | .auto => [.think, .analysis, .thought, .channel]
  | .xmlThink => [.think]
  | .harmony => [.analysis]
  | .gemma => [.thought, .channel]

/-- The open and close tags of a family. -/
def ReasonFamily.pairs (family : ReasonFamily) : List (Text × Text) :=
  family.rows.map fun row => (row.opening, row.closing)

/-- The marker removed directly behind a tag. -/
def messageMarker : Text := "<|message|>".toList

/-! ## The parser -/

/-- One parsed slice of the token stream. -/
inductive ReasonPiece where
  | reasoning (body : Text)
  | text (body : Text)
deriving DecidableEq, Repr

def ReasonPiece.isEmpty : ReasonPiece → Bool
  | .reasoning body => body.isEmpty
  | .text body => body.isEmpty

def ReasonPiece.body : ReasonPiece → Text
  | .reasoning body => body
  | .text body => body

/-- Incremental parser; `buf` holds back a delimiter prefix. -/
structure ReasoningParser where
  family : ReasonFamily
  inReason : Bool
  buf : Text
  openTag : Option Text
  closeTag : Option Text
deriving DecidableEq, Repr

def ReasoningParser.new (family : ReasonFamily) : ReasoningParser where
  family := family
  inReason := false
  buf := []
  openTag := none
  closeTag := none

/-- Held text that might still complete a delimiter. -/
def ReasoningParser.holdingPartial (parser : ReasoningParser) : Bool :=
  !parser.buf.isEmpty

/-- The pair whose open tag occurs first, earlier rows winning ties. -/
def findOpen (buf : Text) (pairs : List (Text × Text)) :
    Option (Text × Text) :=
  (earliest Prod.fst pairs buf).map Prod.snd

def prefixes (pairs : List (Text × Text)) (opens : Bool) : List Text :=
  pairs.map fun pair => if opens then pair.1 else pair.2

def stripPrefix (buf marker : Text) : Text :=
  if marker.isPrefixOf buf then buf.drop marker.length else buf

/-- The longest end of at most `size` characters that starts a needle. -/
def longestTail (buf : Text) (needles : List Text) : Nat → Option Nat
  | 0 => none
  | size + 1 =>
      if needles.any fun needle =>
          (buf.drop (buf.length - (size + 1))).isPrefixOf needle then
        some (size + 1)
      else
        longestTail buf needles size

/--
Emit the part of the buffer that cannot be the start of any needle; returns
the kept buffer and the emitted text.
-/
def emitSafe (buf : Text) (needles : List Text) : Text × Option Text :=
  let keep :=
    ((longestTail buf needles buf.length).filter fun size =>
      needles.any fun needle =>
        decide (size < needle.length) &&
          (buf.drop (buf.length - size)).isPrefixOf needle).getD 0
  if keep < buf.length then
    (buf.drop (buf.length - keep), some (buf.take (buf.length - keep)))
  else
    (buf, none)

/-- One pass through the loop of `push`. -/
inductive Pass where
  | again (parser : ReasoningParser) (out : List ReasonPiece)
  | stop (parser : ReasoningParser) (out : List ReasonPiece)
  | panic
deriving DecidableEq, Repr

/-- Lock the first open tag of the buffer, if none is locked yet. -/
def ReasoningParser.lock (parser : ReasoningParser) : ReasoningParser :=
  match parser.openTag with
  | some _ => parser
  | none =>
      match findOpen parser.buf parser.family.pairs with
      | some (opening, closing) =>
          { parser with openTag := some opening, closeTag := some closing }
      | none => parser

/-- The branch of the loop outside a reasoning block. -/
def ReasoningParser.passOutside (unlocked : ReasoningParser) : Pass :=
  let parser := unlocked.lock
  match parser.openTag with
  | none =>
      let (buf, emit) :=
        emitSafe parser.buf (prefixes parser.family.pairs true)
      .stop { parser with buf := buf } (emit.toList.map .text)
  | some opening =>
      match find opening parser.buf with
      | some offset =>
          .again
            { parser with
              buf := stripPrefix
                (parser.buf.drop (offset + opening.length)) messageMarker
              inReason := true }
            (if 0 < offset then [.text (parser.buf.take offset)] else [])
      | none =>
          let (buf, emit) := emitSafe parser.buf [opening]
          .stop { parser with buf := buf } (emit.toList.map .text)

/-- The branch of the loop inside a reasoning block. -/
def ReasoningParser.passInside (parser : ReasoningParser) : Pass :=
  match parser.closeTag with
  | none => .panic
  | some closing =>
      match find closing parser.buf with
      | some offset =>
          let body := parser.buf.take offset
          .again
            { parser with
              buf := stripPrefix
                (parser.buf.drop (offset + closing.length)) messageMarker
              inReason := false }
            (if body.isEmpty then [] else [.reasoning body])
      | none =>
          let (buf, emit) := emitSafe parser.buf [closing]
          .stop { parser with buf := buf } (emit.toList.map .reasoning)

def ReasoningParser.pass (parser : ReasoningParser) : Pass :=
  if parser.inReason then parser.passInside else parser.passOutside

/-- The loop of `push`; no value when the fuel runs out or it panics. -/
def pushLoop :
    Nat → ReasoningParser → List ReasonPiece →
      Option (ReasoningParser × List ReasonPiece)
  | 0, _, _ => none
  | fuel + 1, parser, out =>
      match parser.pass with
      | .again next pieces => pushLoop fuel next (out ++ pieces)
      | .stop final pieces => some (final, out ++ pieces)
      | .panic => none

def ReasoningParser.push (parser : ReasoningParser) (chunk : Text) :
    Option (ReasoningParser × List ReasonPiece) :=
  if chunk.isEmpty then
    some (parser, [])
  else
    let buf := parser.buf ++ chunk
    (pushLoop (buf.length + 1) { parser with buf := buf } []).map
      fun (final, out) => (final, out.filter fun piece => !piece.isEmpty)

def ReasoningParser.flush (parser : ReasoningParser) :
    ReasoningParser × List ReasonPiece :=
  if parser.buf.isEmpty then
    (parser, [])
  else
    ({ parser with buf := [] },
      [if parser.inReason then .reasoning parser.buf
        else .text parser.buf])

/-- `push` of every chunk in order, with everything it emits. -/
def ReasoningParser.pushAll :
    ReasoningParser → List Text →
      Option (ReasoningParser × List ReasonPiece)
  | parser, [] => some (parser, [])
  | parser, chunk :: chunks => do
      let (next, pieces) ← parser.push chunk
      let (final, rest) ← next.pushAll chunks
      return (final, pieces ++ rest)

/-- Append a piece to the reasoning or to the answer. -/
def take (collected : Text × Text) : ReasonPiece → Text × Text
  | .reasoning body => (collected.1 ++ body, collected.2)
  | .text body => (collected.1, collected.2 ++ body)

/-- Concatenate `push` results, then `finish`. -/
def parseStream (family : ReasonFamily) (chunks : List Text) :
    Option (Text × Text) := do
  let (parser, pieces) ← (ReasoningParser.new family).pushAll chunks
  return (pieces ++ parser.flush.2).foldl take ([], [])

/-! ## The parser as a splitter -/

/-- Where the parser stands: no pair locked, or outside or inside a block. -/
inductive Mode where
  | unlocked
  | outside (row : TagPair)
  | inside (row : TagPair)
deriving DecidableEq, Repr

/-- Text read inside a block is reasoning. -/
def Mode.reasons : Mode → Bool
  | .inside _ => true
  | _ => false

/-- The tags each mode watches for, and where they lead. -/
def exits (family : ReasonFamily) : Mode → List (Text × Mode)
  | .unlocked => family.rows.map fun row => (row.opening, .inside row)
  | .outside row => [(row.opening, .inside row)]
  | .inside row => [(row.closing, .outside row)]

theorem opening_guarded (row : TagPair) :
    Guarded '<' row.opening := by
  cases row <;> decide

theorem closing_guarded (row : TagPair) :
    Guarded '<' row.closing := by
  cases row <;> decide

theorem opening_prefix_iff (left right : TagPair) :
    left.opening <+: right.opening ↔ left = right := by
  cases left <;> cases right <;> decide

theorem opening_apart (row : TagPair) :
    ¬ row.opening <+: messageMarker ∧ ¬ messageMarker <+: row.opening := by
  cases row <;> decide

theorem closing_apart (row : TagPair) :
    ¬ row.closing <+: messageMarker ∧ ¬ messageMarker <+: row.closing := by
  cases row <;> decide

/-- The reasoning parser of a family is this splitter. -/
def splitter (family : ReasonFamily) : Splitter Char Mode where
  exits := exits family
  marker := messageMarker
  guard := '<'
  guarded := by
    intro mode exit member
    cases mode with
    | unlocked =>
        obtain ⟨row, -, rfl⟩ := List.mem_map.mp member
        exact opening_guarded row
    | outside row =>
        rw [List.mem_singleton.mp member]
        exact opening_guarded row
    | inside row =>
        rw [List.mem_singleton.mp member]
        exact closing_guarded row
  prefixFree := by
    intro mode left leftMember right rightMember shorter
    cases mode with
    | unlocked =>
        obtain ⟨leftRow, -, rfl⟩ := List.mem_map.mp leftMember
        obtain ⟨rightRow, -, rfl⟩ := List.mem_map.mp rightMember
        rw [(opening_prefix_iff leftRow rightRow).mp shorter]
    | outside row =>
        rw [List.mem_singleton.mp leftMember,
          List.mem_singleton.mp rightMember]
    | inside row =>
        rw [List.mem_singleton.mp leftMember,
          List.mem_singleton.mp rightMember]
  markerGuarded := by decide
  markerApart := by
    intro mode exit member
    cases mode with
    | unlocked =>
        obtain ⟨row, -, rfl⟩ := List.mem_map.mp member
        exact opening_apart row
    | outside row =>
        rw [List.mem_singleton.mp member]
        exact opening_apart row
    | inside row =>
        rw [List.mem_singleton.mp member]
        exact closing_apart row

/-- The parser that stands in a mode with a held text. -/
def ReasoningParser.ofState (family : ReasonFamily) :
    Mode × Text → ReasoningParser
  | (.unlocked, buf) => ⟨family, false, buf, none, none⟩
  | (.outside row, buf) =>
      ⟨family, false, buf, some row.opening, some row.closing⟩
  | (.inside row, buf) =>
      ⟨family, true, buf, some row.opening, some row.closing⟩

@[simp]
theorem ofState_buf (family : ReasonFamily) (state : Mode × Text) :
    (ReasoningParser.ofState family state).buf = state.2 := by
  obtain ⟨mode, buf⟩ := state
  cases mode <;> rfl

@[simp]
theorem ofState_inReason (family : ReasonFamily) (state : Mode × Text) :
    (ReasoningParser.ofState family state).inReason =
      state.1.reasons := by
  obtain ⟨mode, buf⟩ := state
  cases mode <;> rfl

theorem ofState_with_buf
    (family : ReasonFamily) (mode : Mode) (buf other : Text) :
    { ReasoningParser.ofState family (mode, buf) with buf := other } =
      ReasoningParser.ofState family (mode, other) := by
  cases mode <;> rfl

theorem ofState_start (family : ReasonFamily) :
    ReasoningParser.new family =
      ReasoningParser.ofState family (.unlocked, []) := rfl

/-- The piece a text becomes in a mode. -/
def asPiece (mode : Mode) (body : Text) : ReasonPiece :=
  if mode.reasons then .reasoning body else .text body

/-- The piece of a log entry, if it is one. -/
def pieceOfEntry : Splitter.Entry Char Mode → Option ReasonPiece
  | .piece mode body => some (asPiece mode body)
  | .tag _ _ _ => none

/-- The pieces of a log. -/
def pieces (log : List (Splitter.Entry Char Mode)) : List ReasonPiece :=
  log.filterMap pieceOfEntry

@[simp]
theorem pieces_append (left right : List (Splitter.Entry Char Mode)) :
    pieces (left ++ right) = pieces left ++ pieces right :=
  List.filterMap_append

@[simp]
theorem pieces_tag
    (word : Text) (target : Mode) (marked : Bool)
    (log : List (Splitter.Entry Char Mode)) :
    pieces (.tag word target marked :: log) = pieces log := rfl

theorem pieces_pieceOf (mode : Mode) (body : Text) :
    pieces (Splitter.pieceOf mode body) =
      if body = [] then [] else [asPiece mode body] := by
  by_cases empty : body = []
  · simp [Splitter.pieceOf, empty, pieces]
  · simp [Splitter.pieceOf, empty, pieces, pieceOfEntry]

/-! ## `emit_safe` holds back the longest partial needle -/

section EmitSafe

variable {buf : Text} {needles : List Text}

/-- An end of a buffer without a complete needle is never a whole needle. -/
theorem suffix_ne_needle
    (absent : ∀ needle ∈ needles, find needle buf = none)
    {tail : Text} (suffix : tail <:+ buf) :
    tail ∉ needles := by
  intro member
  obtain ⟨front, rfl⟩ := suffix
  refine (find_eq_none_iff _ _).mp (absent tail member) front.length
    (by simp) ?_
  rw [List.drop_left]

/-- A non-empty end that starts a needle is a partial needle. -/
theorem isPartial_tail_iff
    (absent : ∀ needle ∈ needles, find needle buf = none)
    {size : Nat} (positive : 0 < size) (bound : size ≤ buf.length) :
    (needles.any fun needle =>
        (buf.drop (buf.length - size)).isPrefixOf needle) = true ↔
      IsPartial needles (buf.drop (buf.length - size)) := by
  have nonempty : buf.drop (buf.length - size) ≠ [] := by
    apply List.ne_nil_of_length_pos
    rw [List.length_drop]
    omega
  rw [List.any_eq_true]
  constructor
  · rintro ⟨needle, member, starts⟩
    refine ⟨nonempty, needle, member,
      List.isPrefixOf_iff_prefix.mp starts, ?_⟩
    intro equal
    rw [← equal] at member
    exact suffix_ne_needle absent (List.drop_suffix _ _) member
  · rintro ⟨-, needle, member, starts, -⟩
    exact ⟨needle, member, List.isPrefixOf_iff_prefix.mpr starts⟩

/-- What `longestTail` has established once it has tried `size` and less. -/
theorem longestTail_spec
    (absent : ∀ needle ∈ needles, find needle buf = none)
    {size : Nat} (bound : size ≤ buf.length) :
    (longestTail buf needles size).getD 0 ≤ size ∧
      (0 < (longestTail buf needles size).getD 0 →
        IsPartial needles
          (buf.drop
            (buf.length - (longestTail buf needles size).getD 0))) ∧
      ∀ tail, IsPartial needles tail → tail <:+ buf →
        tail.length ≤ size →
          tail.length ≤ (longestTail buf needles size).getD 0 := by
  induction size with
  | zero =>
      refine ⟨le_rfl, fun positive => ?_, fun tail _ _ short => short⟩
      exact (lt_irrefl 0 positive).elim
  | succ size induction =>
      have here :=
        isPartial_tail_iff absent (Nat.succ_pos size) bound
      rw [longestTail]
      split_ifs with starts
      · exact
          ⟨le_rfl, fun _ => here.mp starts, fun tail _ _ short => short⟩
      · obtain ⟨smaller, found, longest⟩ := induction (by omega)
        refine ⟨by omega, found, ?_⟩
        intro tail isPartial suffix short
        rcases Nat.lt_or_ge tail.length (size + 1) with less | same
        · exact longest tail isPartial suffix (by omega)
        · have tailEq : tail = buf.drop (buf.length - (size + 1)) := by
            refine List.IsSuffix.eq_of_length
              (List.suffix_of_suffix_length_le suffix
                (List.drop_suffix _ _) ?_) ?_
            · rw [List.length_drop]
              omega
            · rw [List.length_drop]
              omega
          rw [tailEq] at isPartial
          exact (starts (here.mpr isPartial)).elim

/-- The kept end passes the second test of `emit_safe` as well. -/
theorem longestTail_filter
    (absent : ∀ needle ∈ needles, find needle buf = none) :
    ((longestTail buf needles buf.length).filter fun size =>
        needles.any fun needle =>
          decide (size < needle.length) &&
            (buf.drop (buf.length - size)).isPrefixOf needle) =
      longestTail buf needles buf.length := by
  cases found : longestTail buf needles buf.length with
  | none => rfl
  | some size =>
      obtain ⟨bound, isPartial, -⟩ := longestTail_spec absent le_rfl
      rw [found, Option.getD_some] at bound isPartial
      have sizePositive : 0 < size := by
        by_contra zero
        have general :
            ∀ limit, longestTail buf needles limit ≠ some 0 := by
          intro limit
          induction limit with
          | zero => simp [longestTail]
          | succ limit induction =>
              rw [longestTail]
              split_ifs
              · simp
              · exact induction
        exact general buf.length (by rw [found]; congr; omega)
      obtain ⟨-, needle, member, starts, proper⟩ := isPartial sizePositive
      have length : (buf.drop (buf.length - size)).length = size := by
        rw [List.length_drop]
        omega
      have shorter : size < needle.length := by
        have le := starts.length_le
        rcases Nat.lt_or_ge size needle.length with less | more
        · exact less
        · exact (proper (starts.eq_of_length (by omega))).elim
      rw [Option.filter_some, if_pos]
      rw [List.any_eq_true]
      refine ⟨needle, member, ?_⟩
      rw [Bool.and_eq_true, decide_eq_true_iff,
        List.isPrefixOf_iff_prefix]
      exact ⟨shorter, starts⟩

/-- `emit_safe` on a buffer without a complete needle. -/
theorem emitSafe_eq
    (absent : ∀ needle ∈ needles, find needle buf = none) :
    emitSafe buf needles =
      (hold needles buf,
        if release needles buf = [] then none
        else some (release needles buf)) := by
  obtain ⟨bound, isPartial, longest⟩ := longestTail_spec absent le_rfl
  have held :
      HeldTail needles buf
        (buf.drop
          (buf.length -
            (longestTail buf needles buf.length).getD 0)) := by
    refine ⟨List.drop_suffix _ _, ?_, ?_⟩
    · rcases Nat.eq_zero_or_pos
          ((longestTail buf needles buf.length).getD 0) with zero | some
      · left
        rw [zero, Nat.sub_zero, List.drop_length]
      · exact Or.inr (isPartial some)
    · intro tail tailPartial suffix
      have := longest tail tailPartial suffix suffix.length_le
      rw [List.length_drop]
      omega
  have heldEq := held.unique (hold_heldTail needles buf)
  have keepEq :
      (longestTail buf needles buf.length).getD 0 =
        (hold needles buf).length := by
    have lengths := congrArg List.length heldEq
    rw [List.length_drop] at lengths
    omega
  have joined := release_append_hold needles buf
  have lengths := congrArg List.length joined
  rw [List.length_append] at lengths
  simp only [emitSafe, longestTail_filter absent]
  rw [heldEq, keepEq, ← release]
  by_cases empty : release needles buf = []
  · rw [empty, List.length_nil] at lengths
    rw [if_neg (by omega), if_pos empty]
    rw [empty, List.nil_append] at joined
    rw [joined]
  · have positive := List.length_pos_of_ne_nil empty
    rw [if_pos (by omega), if_neg empty]

end EmitSafe

/-! ## One pass of the loop -/

section Bridge

variable {family : ReasonFamily}

theorem words_eq (mode : Mode) :
    (splitter family).words mode =
      match mode with
      | .unlocked => prefixes family.pairs true
      | .outside row => [row.opening]
      | .inside row => [row.closing] := by
  cases mode with
  | unlocked =>
      simp [Splitter.words, splitter, exits, prefixes, ReasonFamily.pairs]
  | outside row => rfl
  | inside row => rfl

/-- The piece `emit_safe` leads to. -/
theorem emitted_eq
    (family : ReasonFamily) (mode : Mode) (text : Text) :
    (if release ((splitter family).words mode) text = [] then none
      else some (release ((splitter family).words mode) text)).toList.map
        (asPiece mode) =
      pieces
        (Splitter.pieceOf mode
          (release ((splitter family).words mode) text)) := by
  rw [pieces_pieceOf]
  split_ifs <;> rfl

/-- The open tag `find_open` locks is the one the splitter leaves by. -/
theorem findOpen_eq (text : Text) :
    findOpen text family.pairs =
      (earliest TagPair.opening family.rows text).map
        fun best => (best.2.opening, best.2.closing) := by
  rw [findOpen, ReasonFamily.pairs, earliest_map, Option.map_map]
  rfl

theorem leave_unlocked_eq (text : Text) :
    (splitter family).leave .unlocked text =
      (earliest TagPair.opening family.rows text).map
        fun best => (best.1, (best.2.opening, .inside best.2)) := by
  change
    earliest Prod.fst
      (family.rows.map fun row => (row.opening, Mode.inside row)) text = _
  rw [earliest_map]
  rfl

theorem leave_single_eq
    {mode target : Mode} {word text : Text}
    (single : exits family mode = [(word, target)]) :
    (splitter family).leave mode text =
      (find word text).map fun offset => (offset, (word, target)) := by
  change earliest Prod.fst (exits family mode) text = _
  rw [single, earliest_singleton]

/-- Without a complete tag the pass emits and ends the loop. -/
theorem pass_stop
    {mode : Mode} {text : Text}
    (absent : (splitter family).leave mode text = none) :
    (ReasoningParser.ofState family (mode, text)).pass =
      .stop
        (.ofState family
          (mode, hold ((splitter family).words mode) text))
        (pieces
          (Splitter.pieceOf mode
            (release ((splitter family).words mode) text))) := by
  have safe := emitSafe_eq (Splitter.leave_none absent)
  have emitted := emitted_eq family mode text
  cases mode with
  | unlocked =>
      rw [leave_unlocked_eq, Option.map_eq_none_iff] at absent
      have notLocked :
          (ReasoningParser.ofState family (.unlocked, text)).lock =
            .ofState family (.unlocked, text) := by
        simp [ReasoningParser.lock, ReasoningParser.ofState,
          findOpen_eq, absent]
      rw [words_eq] at safe emitted ⊢
      simp only [ReasoningParser.pass, ofState_inReason, Mode.reasons,
        Bool.false_eq_true, if_false, ReasoningParser.passOutside,
        notLocked]
      simp only [ReasoningParser.ofState]
      rw [safe, ← emitted]
      rfl
  | outside row =>
      rw [leave_single_eq rfl, Option.map_eq_none_iff] at absent
      rw [words_eq] at safe emitted ⊢
      simp only [ReasoningParser.pass, Bool.false_eq_true, if_false,
        ReasoningParser.passOutside, ReasoningParser.lock,
        ReasoningParser.ofState, absent]
      rw [safe, ← emitted]
      rfl
  | inside row =>
      rw [leave_single_eq rfl, Option.map_eq_none_iff] at absent
      rw [words_eq] at safe emitted ⊢
      simp only [ReasoningParser.pass, if_true,
        ReasoningParser.passInside, ReasoningParser.ofState, absent]
      rw [safe, ← emitted]
      rfl

theorem stripPrefix_eq (buf marker : Text) :
    stripPrefix buf marker = Splitter.strip marker buf := rfl

theorem textPiece_eq {offset : Nat} {text : Text}
    (bound : offset ≤ text.length) :
    (if 0 < offset then [ReasonPiece.text (text.take offset)] else []) =
      if text.take offset = [] then []
      else [ReasonPiece.text (text.take offset)] := by
  rcases Nat.eq_zero_or_pos offset with rfl | positive
  · simp
  · have nonempty : text.take offset ≠ [] := by
      apply List.ne_nil_of_length_pos
      rw [List.length_take]
      omega
    rw [if_pos positive, if_neg nonempty]

/-- With a complete tag the pass crosses it and the loop goes on. -/
theorem pass_again
    {mode target : Mode} {text word : Text} {offset : Nat}
    (left :
      (splitter family).leave mode text = some (offset, (word, target))) :
    (ReasoningParser.ofState family (mode, text)).pass =
      .again
        (.ofState family
          (target,
            Splitter.strip messageMarker
              (text.drop (offset + word.length))))
        (pieces (Splitter.pieceOf mode (text.take offset))) := by
  have bound : offset + word.length ≤ text.length :=
    Splitter.leave_bound left
  rw [pieces_pieceOf]
  cases mode with
  | unlocked =>
      have found := (Splitter.leave_some left).2.1
      rw [leave_unlocked_eq, Option.map_eq_some_iff] at left
      obtain ⟨⟨_, row⟩, located, equal⟩ := left
      cases equal
      have locked :
          (ReasoningParser.ofState family (.unlocked, text)).lock =
            .ofState family (.outside row, text) := by
        simp [ReasoningParser.lock, ReasoningParser.ofState,
          findOpen_eq, located]
      simp only [ReasoningParser.pass, ofState_inReason, Mode.reasons,
        Bool.false_eq_true, if_false, ReasoningParser.passOutside,
        locked]
      simp only [ReasoningParser.ofState, found, asPiece, Mode.reasons,
        Bool.false_eq_true, if_false, stripPrefix_eq]
      rw [textPiece_eq (by omega)]
  | outside row =>
      have found := (Splitter.leave_some left).2.1
      rw [leave_single_eq rfl, Option.map_eq_some_iff] at left
      obtain ⟨_, _, equal⟩ := left
      cases equal
      simp only [ReasoningParser.pass, Mode.reasons, Bool.false_eq_true,
        if_false, ReasoningParser.passOutside, ReasoningParser.lock,
        ReasoningParser.ofState, found, asPiece, stripPrefix_eq]
      rw [textPiece_eq (by omega)]
  | inside row =>
      have found := (Splitter.leave_some left).2.1
      rw [leave_single_eq rfl, Option.map_eq_some_iff] at left
      obtain ⟨_, _, equal⟩ := left
      cases equal
      simp only [ReasoningParser.pass, Mode.reasons, if_true,
        ReasoningParser.passInside, ReasoningParser.ofState, found,
        asPiece, stripPrefix_eq, List.isEmpty_iff]

/-! ## Whole runs -/

/-- The loop of `push` drains its buffer, given one pass for each tag. -/
theorem pushLoop_of_drains
    {mode final : Mode} {text rest : Text}
    {log : List (Splitter.Entry Char Mode)}
    (drains : (splitter family).Drains mode text log final rest)
    {fuel : Nat} (enough : text.length < fuel) (out : List ReasonPiece) :
    pushLoop fuel (.ofState family (mode, text)) out =
      some
        (.ofState family
          (final, hold ((splitter family).words final) rest),
          out ++
            pieces
              (log ++
                Splitter.pieceOf final
                  (release ((splitter family).words final) rest))) := by
  induction drains generalizing fuel out with
  | done absent =>
      obtain ⟨fuel, rfl⟩ : ∃ less, fuel = less + 1 :=
        ⟨fuel - 1, by omega⟩
      rw [pushLoop, pass_stop absent]
      rfl
  | @cross mode target final text word rest offset log left _ induction =>
      obtain ⟨fuel, rfl⟩ : ∃ less, fuel = less + 1 :=
        ⟨fuel - 1, by omega⟩
      have bound : offset + word.length ≤ text.length :=
        Splitter.leave_bound left
      have positive : 0 < word.length :=
        List.length_pos_of_ne_nil
          ((splitter family).guarded mode _
            (Splitter.leave_some left).1).ne_nil
      have shorter :
          (Splitter.strip (splitter family).marker
            (text.drop (offset + word.length))).length < fuel := by
        refine lt_of_le_of_lt (Splitter.strip_length_le _ _) ?_
        rw [List.length_drop]
        omega
      rw [pushLoop, pass_again left]
      refine (induction shorter _).trans ?_
      simp only [pieces_append, pieces_tag, List.append_assoc]

/-- No piece of a walk is empty, so the final `retain` keeps everything. -/
theorem pieces_nonempty
    {mode final : Mode} {log : List (Splitter.Entry Char Mode)}
    (walk : (splitter family).Walk mode log final) :
    (pieces log).filter (fun piece => !piece.isEmpty) = pieces log := by
  induction walk with
  | nil => rfl
  | @piece mode _ body log nonempty _ induction =>
      have kept : (asPiece mode body).isEmpty = false := by
        unfold asPiece
        split <;> simp [ReasonPiece.isEmpty, nonempty]
      change
        (asPiece mode body :: pieces log).filter _ =
          asPiece mode body :: pieces log
      rw [List.filter_cons_of_pos (by simp [kept]), induction]
  | tag _ _ induction => exact induction

/-- `push` reads a chunk as the splitter does. -/
theorem push_of_feeds
    {start final : Mode × Text} {chunk : Text}
    {log : List (Splitter.Entry Char Mode)}
    (feeds : (splitter family).Feeds start chunk log final) :
    (ReasoningParser.ofState family start).push chunk =
      some (.ofState family final, pieces log) := by
  have kept := pieces_nonempty feeds.walk
  cases feeds with
  | empty => rfl
  | @chunk mode last held chunk rest log nonempty drains =>
      have loop :=
        pushLoop_of_drains drains (Nat.lt_succ_self _) []
      rw [ReasoningParser.push, if_neg (by simpa using nonempty)]
      simp only [ofState_buf, ofState_with_buf]
      rw [loop, Option.map_some, List.nil_append, kept]

/-- `push` of every chunk reads the chunks as the splitter does. -/
theorem pushAll_of_feedsAll
    {start final : Mode × Text} {chunks : List Text}
    {log : List (Splitter.Entry Char Mode)}
    (feeds : (splitter family).FeedsAll start chunks log final) :
    (ReasoningParser.ofState family start).pushAll chunks =
      some (.ofState family final, pieces log) := by
  induction feeds with
  | nil => rfl
  | cons head _ induction =>
      simp [ReasoningParser.pushAll, push_of_feeds head, induction]

/-- `flush` passes on the held text. -/
theorem flush_eq (state : Mode × Text) :
    (ReasoningParser.ofState family state).flush =
      (.ofState family (state.1, []),
        pieces (Splitter.pieceOf state.1 state.2)) := by
  obtain ⟨mode, held⟩ := state
  rw [pieces_pieceOf]
  by_cases empty : held = []
  · subst held
    simp [ReasoningParser.flush]
  · rw [← ofState_with_buf family mode held []]
    simp only [ReasoningParser.flush, ofState_buf, ofState_inReason,
      List.isEmpty_iff, empty, if_false, asPiece]

/-- Collecting pieces is gathering the two kinds of text. -/
theorem foldl_take_pieces
    (log : List (Splitter.Entry Char Mode)) (collected : Text × Text) :
    (pieces log).foldl take collected =
      (collected.1 ++ Splitter.gather Mode.reasons true log,
        collected.2 ++ Splitter.gather Mode.reasons false log) := by
  induction log generalizing collected with
  | nil => simp [pieces]
  | cons entry log induction =>
      cases entry with
      | tag word target marked =>
          rw [pieces_tag, induction]
          simp
      | piece mode body =>
          change
            (asPiece mode body :: pieces log).foldl take collected = _
          rw [List.foldl_cons, induction]
          cases reasons : mode.reasons <;>
            simp [asPiece, reasons, take, Splitter.gather,
              Splitter.Entry.ofKind]

/-- The result of `parse_stream` is the output of the splitter. -/
theorem parseStream_of_feedsAll
    {chunks : List Text} {final : Mode × Text}
    {log : List (Splitter.Entry Char Mode)}
    (feeds :
      (splitter family).FeedsAll (.unlocked, []) chunks log final) :
    parseStream family chunks =
      some
        (Splitter.output Mode.reasons log final true,
          Splitter.output Mode.reasons log final false) := by
  have run := pushAll_of_feedsAll feeds
  rw [← ofState_start] at run
  simp only [parseStream, run, Option.bind_eq_bind, Option.bind_some,
    flush_eq, ← pieces_append, foldl_take_pieces]
  rfl

end Bridge

end Runa.Core.Reason
