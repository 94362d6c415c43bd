import Runa.Core.Reason

/-!
# Laws of the reasoning parser

Two results about whole streams.  Nothing a parser reads is lost, repeated or
reordered: the emitted pieces with the consumed delimiters put back between
them are the stream, and between chunks the parser holds back only the start
of a tag it may still see (`pushAll_conserves`).  And the split of a stream
does not depend on its chunks exactly when no tag of it has a message marker
behind it (`parseStream_chunks_iff`).
-/

namespace Runa.Core.Reason

open Runa.Stream
open Runa.Stream.Occurrence
open Runa.Stream.Utf8

/-! ## The ledger of a stream -/

/-- What became of a part of the stream; the flag is a stripped marker. -/
inductive LedgerEntry where
  | piece (piece : ReasonPiece)
  | opened (marked : Bool)
  | closed (marked : Bool)
deriving DecidableEq, Repr

def ReasonPiece.isReasoning : ReasonPiece → Bool
  | .reasoning _ => true
  | .text _ => false

/-- The part of the stream an entry stands for, under one pair of tags. -/
def LedgerEntry.spell (pair : Text × Text) : LedgerEntry → Text
  | .piece slice => slice.body
  | .opened marked => pair.1 ++ if marked then messageMarker else []
  | .closed marked => pair.2 ++ if marked then messageMarker else []

/-- The stream a ledger stands for. -/
def spell (pair : Text × Text) (ledger : List LedgerEntry) : Text :=
  ledger.flatMap (LedgerEntry.spell pair)

def LedgerEntry.emitted : LedgerEntry → Option ReasonPiece
  | .piece slice => some slice
  | _ => none

/-- The pieces of a ledger, in order. -/
def emitted (ledger : List LedgerEntry) : List ReasonPiece :=
  ledger.filterMap LedgerEntry.emitted

/--
From outside or inside a block, open and close tags alternate, pieces are
reasoning exactly inside a block, and the ledger ends as `final` says.
-/
def Bracketed : Bool → List LedgerEntry → Bool → Prop
  | inside, [], final => inside = final
  | inside, .piece piece :: ledger, final =>
      piece.isReasoning = inside ∧ Bracketed inside ledger final
  | inside, .opened _ :: ledger, final =>
      inside = false ∧ Bracketed true ledger final
  | inside, .closed _ :: ledger, final =>
      inside = true ∧ Bracketed false ledger final

/-- The delimiters a parser can still complete. -/
def ReasoningParser.watched (parser : ReasoningParser) : List Text :=
  if parser.inReason then parser.closeTag.toList
  else
    match parser.openTag with
    | some opening => [opening]
    | none => prefixes parser.family.pairs true

/-! ## The ledger of a splitter log -/

/-- The pair a mode is locked on. -/
def Mode.row? : Mode → Option TagPair
  | .unlocked => none
  | .outside row => some row
  | .inside row => some row

def TagPair.tags (row : TagPair) : Text × Text :=
  (row.opening, row.closing)

/-- The ledger entry of a log entry. -/
def toLedger : Splitter.Entry Char Mode → LedgerEntry
  | .piece mode body => .piece (asPiece mode body)
  | .tag _ target marked =>
      if target.reasons then .opened marked else .closed marked

section Ledger

variable {family : ReasonFamily}

theorem rows_ne_nil (family : ReasonFamily) : family.rows ≠ [] := by
  cases family <;> decide

theorem mem_pairs_of_mem_rows
    {row : TagPair} (member : row ∈ family.rows) :
    row.tags ∈ family.pairs :=
  List.mem_map.mpr ⟨row, member, rfl⟩

/-- What the exits of a mode can be. -/
theorem exits_cases
    {mode target : Mode} {word : Text}
    (member : (word, target) ∈ (splitter family).exits mode) :
    (∃ row ∈ family.rows,
        mode = .unlocked ∧ word = row.opening ∧ target = .inside row) ∨
      (∃ row,
        mode = .outside row ∧ word = row.opening ∧
          target = .inside row) ∨
      ∃ row,
        mode = .inside row ∧ word = row.closing ∧
          target = .outside row := by
  cases mode with
  | unlocked =>
      obtain ⟨row, rowMember, equal⟩ := List.mem_map.mp member
      cases equal
      exact Or.inl ⟨row, rowMember, rfl, rfl, rfl⟩
  | outside row =>
      cases List.mem_singleton.mp member
      exact Or.inr (Or.inl ⟨row, rfl, rfl, rfl⟩)
  | inside row =>
      cases List.mem_singleton.mp member
      exact Or.inr (Or.inr ⟨row, rfl, rfl, rfl⟩)

/-- A locked pair stays locked. -/
theorem walk_keeps_row
    {mode final : Mode} {log : List (Splitter.Entry Char Mode)}
    (walk : (splitter family).Walk mode log final)
    {row : TagPair} (locked : mode.row? = some row) :
    final.row? = some row := by
  induction walk with
  | nil => exact locked
  | piece _ _ induction => exact induction locked
  | tag member _ induction =>
      apply induction
      rcases exits_cases member with
        ⟨other, -, rfl, -, rfl⟩ | ⟨other, rfl, -, rfl⟩ |
          ⟨other, rfl, -, rfl⟩
      · cases locked
      · exact locked
      · exact locked

/-- Only pairs of the family are ever locked. -/
theorem walk_row_mem
    {mode final : Mode} {log : List (Splitter.Entry Char Mode)}
    (walk : (splitter family).Walk mode log final)
    (known : ∀ row, mode.row? = some row → row ∈ family.rows) :
    ∀ row, final.row? = some row → row ∈ family.rows := by
  induction walk with
  | nil => exact known
  | piece _ _ induction => exact induction known
  | tag member _ induction =>
      apply induction
      rcases exits_cases member with
        ⟨other, rowMember, rfl, -, rfl⟩ | ⟨other, rfl, -, rfl⟩ |
          ⟨other, rfl, -, rfl⟩
      · intro row equal
        cases equal
        exact rowMember
      · exact known
      · exact known

/-- The last pair of a walk is the pair of every tag in it. -/
theorem walk_spell
    {mode final : Mode} {log : List (Splitter.Entry Char Mode)}
    (walk : (splitter family).Walk mode log final)
    {row : TagPair}
    (last : final.row? = none ∨ final.row? = some row) :
    spell row.tags (log.map toLedger) =
      Splitter.spelling messageMarker log := by
  induction walk with
  | nil => rfl
  | @piece mode _ body log _ _ induction =>
      have here : (asPiece mode body).body = body := by
        unfold asPiece
        split <;> rfl
      have tail := induction last
      simp only [spell, Splitter.spelling, List.map_cons,
        List.flatMap_cons] at tail ⊢
      rw [tail]
      simp [toLedger, LedgerEntry.spell, Splitter.Entry.spelling, here]
  | @tag mode target final word marked log member walk induction =>
      have tail := induction last
      have same :
          ∀ other, target.row? = some other → other = row := by
        intro other locked
        rw [walk_keeps_row walk locked] at last
        rcases last with impossible | equal
        · cases impossible
        · exact Option.some.inj equal
      simp only [spell, Splitter.spelling, List.map_cons,
        List.flatMap_cons] at tail ⊢
      rw [tail]
      rcases exits_cases member with
        ⟨other, -, rfl, rfl, rfl⟩ | ⟨other, rfl, rfl, rfl⟩ |
          ⟨other, rfl, rfl, rfl⟩
      all_goals
        obtain rfl := same other rfl
        rfl

theorem walk_bracketed
    {mode final : Mode} {log : List (Splitter.Entry Char Mode)}
    (walk : (splitter family).Walk mode log final) :
    Bracketed mode.reasons (log.map toLedger) final.reasons := by
  induction walk with
  | nil => rfl
  | @piece mode _ body _ _ _ induction =>
      refine ⟨?_, induction⟩
      unfold asPiece
      split_ifs with reasons
      · exact reasons.symm
      · exact ((Bool.not_eq_true _).mp reasons).symm
  | tag member _ induction =>
      rcases exits_cases member with
        ⟨other, -, rfl, -, rfl⟩ | ⟨other, rfl, -, rfl⟩ |
          ⟨other, rfl, -, rfl⟩
      · exact ⟨rfl, induction⟩
      · exact ⟨rfl, induction⟩
      · exact ⟨rfl, induction⟩

theorem emitted_toLedger (log : List (Splitter.Entry Char Mode)) :
    emitted (log.map toLedger) = pieces log := by
  rw [emitted, pieces, List.filterMap_map]
  congr 1
  funext entry
  cases entry with
  | piece mode body => rfl
  | tag word target marked =>
      simp only [Function.comp, toLedger]
      split <;> rfl

/-- The delimiters a parser watches for are those of its mode. -/
theorem watched_ofState (mode : Mode) (held : Text) :
    (ReasoningParser.ofState family (mode, held)).watched =
      (splitter family).words mode := by
  rw [words_eq]
  cases mode <;> rfl

/-- What a walk that ends unlocked has logged. -/
theorem walk_unlocked
    {mode final : Mode} {log : List (Splitter.Entry Char Mode)}
    (walk : (splitter family).Walk mode log final)
    (unlocked : final = .unlocked) :
    ∀ entry ∈ log.map toLedger, ∃ piece, entry = .piece piece := by
  induction walk with
  | nil => simp
  | @piece mode _ body _ _ _ induction =>
      intro entry member
      rcases List.mem_cons.mp member with rfl | later
      · exact ⟨_, rfl⟩
      · exact induction unlocked entry later
  | @tag _ target _ _ _ _ member tail _ =>
      subst unlocked
      have locked : ∃ row, target.row? = some row := by
        rcases exits_cases member with
          ⟨other, -, rfl, -, rfl⟩ | ⟨other, rfl, -, rfl⟩ |
            ⟨other, rfl, -, rfl⟩
        all_goals exact ⟨other, rfl⟩
      obtain ⟨row, locked⟩ := locked
      cases walk_keeps_row tail locked

/-! ## Conservation and hold-back -/

/--
A parser and a ledger of the stream it has read: the ledger spells the
stream in the tags of one pair, which is the pair of the parser as soon as
it has seen a tag.
-/
structure Accounts
    (parser : ReasoningParser) (ledger : List LedgerEntry)
    (stream : Text) : Prop where
  spelled :
    ∃ pair ∈ parser.family.pairs,
      spell pair ledger = stream ∧
        (parser.openTag = some pair.1 ∧ parser.closeTag = some pair.2 ∨
          parser.openTag = none ∧ parser.closeTag = none ∧
            ∀ entry ∈ ledger, ∃ piece, entry = .piece piece)
  bracketed : Bracketed false ledger parser.inReason

/--
Between two chunks: inside a block the close tag is known, and the buffer is
empty or a proper beginning of a delimiter that can still complete.
-/
structure ReasoningParser.Settled (parser : ReasoningParser) : Prop where
  closeKnown : parser.inReason = true → parser.closeTag.isSome
  heldPartial : parser.buf = [] ∨ IsPartial parser.watched parser.buf

theorem accounts_of_walk
    {final : Mode} {log : List (Splitter.Entry Char Mode)}
    (walk : (splitter family).Walk .unlocked log final) (held : Text) :
    Accounts (.ofState family (final, held)) (log.map toLedger)
      (Splitter.spelling messageMarker log) := by
  have member :=
    walk_row_mem walk (by intro row equal; cases equal)
  have bracketed := walk_bracketed walk
  cases final with
  | unlocked =>
      obtain ⟨row, rowMember⟩ :=
        List.exists_mem_of_ne_nil _ (rows_ne_nil family)
      exact
        ⟨⟨row.tags, mem_pairs_of_mem_rows rowMember,
            walk_spell walk (Or.inl rfl),
            Or.inr ⟨rfl, rfl, walk_unlocked walk rfl⟩⟩,
          bracketed⟩
  | outside row =>
      exact
        ⟨⟨row.tags, mem_pairs_of_mem_rows (member row rfl),
            walk_spell walk (Or.inr rfl), Or.inl ⟨rfl, rfl⟩⟩,
          bracketed⟩
  | inside row =>
      exact
        ⟨⟨row.tags, mem_pairs_of_mem_rows (member row rfl),
            walk_spell walk (Or.inr rfl), Or.inl ⟨rfl, rfl⟩⟩,
          bracketed⟩

theorem settled_of_standing
    {state : Mode × Text} {log : List (Splitter.Entry Char Mode)}
    (standing : (splitter family).Standing log state) :
    (ReasoningParser.ofState family state).Settled := by
  obtain ⟨mode, held⟩ := state
  refine ⟨?_, ?_⟩
  · intro reasons
    cases mode with
    | unlocked => cases reasons
    | outside row => rfl
    | inside row => rfl
  · rw [watched_ofState, ofState_buf]
    exact standing.held.emptyOrPartial

end Ledger

/--
Whatever chunks a fresh parser is pushed, no push panics, and the parser is
settled afterwards.  With the flush, the emitted pieces and the consumed
delimiters make up a ledger of the stream.
-/
theorem pushAll_conserves (family : ReasonFamily) (chunks : List Text) :
    ∃ parser pieces ledger,
      (ReasoningParser.new family).pushAll chunks =
          some (parser, pieces) ∧
        parser.family = family ∧
        parser.Settled ∧
        Accounts parser ledger chunks.flatten ∧
        emitted ledger = pieces ++ parser.flush.2 := by
  obtain ⟨log, ⟨mode, held⟩, feeds⟩ :=
    Splitter.feedsAll_exists (splitter family) (.unlocked, []) chunks
  have run := pushAll_of_feedsAll feeds
  rw [← ofState_start] at run
  have standing := feeds.standing (Splitter.standing_start _ _)
  have walk := feeds.walk.append (Splitter.walk_pieceOf mode held)
  have spelled := feeds.spelling
  refine ⟨_, _, (log ++ Splitter.pieceOf mode held).map toLedger, run,
    ?_, settled_of_standing standing, ?_, ?_⟩
  · cases mode <;> rfl
  · have accounts := accounts_of_walk walk held
    have marker : (splitter family).marker = messageMarker := rfl
    rw [Splitter.spelling_append, Splitter.spelling_pieceOf, ← marker,
      spelled] at accounts
    exact accounts
  · rw [emitted_toLedger, pieces_append, flush_eq]

/-! ## Chunks -/

/--
Reading the text tag by tag, as the family's open tags, then the close tag
of the pair found, then its open tag again, and so on, some tag has a message
marker directly behind it.
-/
def MarkerAfterTag (family : ReasonFamily) (text : Text) : Prop :=
  (splitter family).Marked .unlocked text

/-- The split depends on the chunks exactly when a marker follows a tag. -/
theorem parseStream_chunks_iff (family : ReasonFamily) (text : Text) :
    (∀ left right : List Text,
        left.flatten = text → right.flatten = text →
          parseStream family left = parseStream family right) ↔
      ¬ MarkerAfterTag family text := by
  rw [MarkerAfterTag,
    ← Splitter.chunkIndependent_iff Mode.reasons .unlocked text]
  constructor
  · intro independent left right log final log' final' leftText rightText
      feeds feeds'
    have equal := independent left right leftText rightText
    rw [parseStream_of_feedsAll feeds, parseStream_of_feedsAll feeds',
      Option.some.injEq, Prod.mk.injEq] at equal
    funext reasoning
    cases reasoning with
    | false => exact equal.2
    | true => exact equal.1
  · intro independent left right leftText rightText
    obtain ⟨log, final, feeds⟩ :=
      Splitter.feedsAll_exists (splitter family) (.unlocked, []) left
    obtain ⟨log', final', feeds'⟩ :=
      Splitter.feedsAll_exists (splitter family) (.unlocked, []) right
    rw [parseStream_of_feedsAll feeds, parseStream_of_feedsAll feeds',
      independent left right log final log' final' leftText rightText
        feeds feeds']

/-- A marker that arrives in a later chunk than its tag is kept. -/
theorem parseStream_depends_on_chunks :
    parseStream .harmony
        ["<|channel|>analysis<|message|>x".toList] =
      some ("x".toList, []) ∧
    parseStream .harmony
        ["<|channel|>analysis".toList, "<|message|>x".toList] =
      some ("<|message|>x".toList, []) ∧
    ¬ ∀ (family : ReasonFamily) (text : Text) (left right : List Text),
        left.flatten = text → right.flatten = text →
          parseStream family left = parseStream family right := by
  have joined :
      parseStream .harmony
          ["<|channel|>analysis<|message|>x".toList] =
        some ("x".toList, []) := by
    decide
  have cut :
      parseStream .harmony
          ["<|channel|>analysis".toList, "<|message|>x".toList] =
        some ("<|message|>x".toList, []) := by
    decide
  refine ⟨joined, cut, ?_⟩
  intro independent
  have equal :=
    independent .harmony "<|channel|>analysis<|message|>x".toList
      ["<|channel|>analysis<|message|>x".toList]
      ["<|channel|>analysis".toList, "<|message|>x".toList]
      (by decide) (by decide)
  rw [joined, cut] at equal
  exact absurd equal (by decide)

end Runa.Core.Reason
