import Runa.Stream.Words

/-!
# Command lines

`shell_escape` and `systemd_unit` of `runa/src/daemon.rs`, and
`split_shell_words` of `runa/src/mcp.rs`, which reads such lines.  An escaped
text splits to itself, unless it is empty: then nothing of it is left.
-/

namespace Runa.App.ShellWords

open Runa.Stream.Lines (isWhitespace)
open Runa.Stream.Utf8
open Runa.Stream.Words (joined joined_append joined_cons_cons
  joined_singleton)

/-! ## Splitting -/

inductive Quote where
  | single
  | double
deriving DecidableEq, Repr

/-- The words before, the word that is read, whether there is one, and the
quotes it is in. -/
structure Splitter where
  words : List Text
  cur : Text
  inWord : Bool
  quote : Option Quote
deriving DecidableEq, Repr

namespace Splitter

def start : Splitter :=
  ⟨[], [], false, none⟩

/-- Inside quotes, which have begun a word. -/
def push (state : Splitter) (char : Char) : Splitter :=
  { state with cur := state.cur ++ [char] }

/-- Outside quotes, where a character may begin a word. -/
def pushWord (state : Splitter) (char : Char) : Splitter :=
  { state.push char with inWord := true }

def openQuote (state : Splitter) (quote : Quote) : Splitter :=
  { state with quote := some quote, inWord := true }

def closeQuote (state : Splitter) : Splitter :=
  { state with quote := none }

/-- Whitespace ends a word, if there is one. -/
def endWord (state : Splitter) : Splitter :=
  if state.inWord then
    { state with words := state.words ++ [state.cur], cur := [],
                 inWord := false }
  else state

end Splitter

section

variable (quoted : Text → Text) (spec : Text)

def dangling : Text :=
  "--mcp: dangling backslash in ".toList ++ quoted spec

def unterminated : Text :=
  "--mcp: unterminated quote in ".toList ++ quoted spec

/-- The loop over the characters. -/
def scan (state : Splitter) : Text → Except Text Splitter
  | [] => .ok state
  | char :: chars =>
    match state.quote with
    | some .single =>
      if char = '\'' then scan state.closeQuote chars
      else scan (state.push char) chars
    | some .double =>
      if char = '"' then scan state.closeQuote chars
      else if char = '\\' then
        match chars with
        | next :: chars => scan (state.push next) chars
        | [] => .error (dangling quoted spec)
      else scan (state.push char) chars
    | none =>
      if char = '\'' then scan (state.openQuote .single) chars
      else if char = '"' then scan (state.openQuote .double) chars
      else if char = '\\' then
        match chars with
        | next :: chars => scan (state.pushWord next) chars
        | [] => .error (dangling quoted spec)
      else if isWhitespace char then scan state.endWord chars
      else scan (state.pushWord char) chars

/-- Split like a shell (no expansions). -/
def splitShellWords : Except Text (List Text) :=
  match scan quoted spec .start spec with
  | .error error => .error error
  | .ok state =>
    if state.quote.isSome then .error (unterminated quoted spec)
    else .ok state.endWord.words

end

/-! ## Escaping -/

section

variable (isAlphanumeric : Char → Bool)

/-- A character that needs no quotes. -/
def isBare (char : Char) : Bool :=
  isAlphanumeric char || "/._-:@".toList.contains char

/-- `replace('\'', "'\\''")` at one character. -/
def quoteChar (char : Char) : Text :=
  if char = '\'' then ['\'', '\\', '\'', '\''] else [char]

def shellEscape (text : Text) : Text :=
  if text.all (isBare isAlphanumeric) then text
  else '\'' :: text.flatMap quoteChar ++ ['\'']

/-- The command line of a unit: `exe argv…`. -/
def commandLine (exe : Text) (argv : List Text) : Text :=
  argv.foldl (fun cmd arg => cmd ++ ' ' :: shellEscape isAlphanumeric arg)
    (shellEscape isAlphanumeric exe)

def unitHead : Text :=
  ("[Unit]\nDescription=runa daemon (warm models for run/chat)\n" ++
    "After=network-online.target\n\n[Service]\nExecStart=").toList

def unitTail : Text :=
  ("\nRestart=on-failure\nRestartSec=5\n\n[Install]\n" ++
    "WantedBy=default.target\n").toList

/-- systemd user unit: `exe argv…`, restart on failure, WantedBy default. -/
def systemdUnit (exe : Text) (argv : List Text) : Text :=
  unitHead ++ commandLine isAlphanumeric exe argv ++ unitTail

end

/-! ## The round trip -/

/-- Letters and digits are neither blank, nor quotes, nor a backslash. -/
def Letters (isAlphanumeric : Char → Bool) : Prop :=
  ∀ char, isAlphanumeric char = true →
    isWhitespace char = false ∧ char ≠ '\'' ∧ char ≠ '"' ∧ char ≠ '\\'

section

variable {quoted : Text → Text} {spec : Text} {isAlphanumeric : Char → Bool}

theorem plain_of_isBare (letters : Letters isAlphanumeric) {char : Char}
    (bare : isBare isAlphanumeric char = true) :
    isWhitespace char = false ∧ char ≠ '\'' ∧ char ≠ '"' ∧ char ≠ '\\' := by
  rcases Bool.or_eq_true_iff.mp bare with letter | mark
  · exact letters char letter
  · have marks : "/._-:@".toList.all (fun char =>
        !isWhitespace char && char != '\'' && char != '"' &&
          char != '\\') = true := by
      decide +kernel
    have plain := List.all_eq_true.mp marks char
      (List.contains_iff_mem.mp mark)
    simpa [and_assoc] using plain

/-- One character outside of quotes. -/
theorem scan_outside {state : Splitter} (outside : state.quote = none)
    {char : Char} (plain : char ≠ '\\') (rest : Text) :
    scan quoted spec state (char :: rest) =
      if char = '\'' then scan quoted spec (state.openQuote .single) rest
      else if char = '"' then scan quoted spec (state.openQuote .double) rest
      else if isWhitespace char then scan quoted spec state.endWord rest
      else scan quoted spec (state.pushWord char) rest := by
  rw [scan.eq_def]
  simp only [outside, if_neg plain]

/-- One character between single quotes. -/
theorem scan_single {state : Splitter} (within : state.quote = some .single)
    (char : Char) (rest : Text) :
    scan quoted spec state (char :: rest) =
      if char = '\'' then scan quoted spec state.closeQuote rest
      else scan quoted spec (state.push char) rest := by
  rw [scan.eq_def]
  simp only [within]

/-- A bare character begins a word, or goes on with it. -/
theorem scan_bare (letters : Letters isAlphanumeric) {char : Char}
    (bare : isBare isAlphanumeric char = true) {state : Splitter}
    (outside : state.quote = none) (rest : Text) :
    scan quoted spec state (char :: rest) =
      scan quoted spec (state.pushWord char) rest := by
  rcases plain_of_isBare letters bare with
    ⟨visible, apostrophe, double, backslash⟩
  rw [scan_outside outside backslash, if_neg apostrophe, if_neg double,
    visible, if_neg Bool.false_ne_true]

theorem scan_open {state : Splitter} (outside : state.quote = none)
    (rest : Text) :
    scan quoted spec state ('\'' :: rest) =
      scan quoted spec (state.openQuote .single) rest :=
  (scan_outside outside (by decide) rest).trans (if_pos rfl)

theorem scan_blank {state : Splitter} (outside : state.quote = none)
    (rest : Text) :
    scan quoted spec state (' ' :: rest) =
      scan quoted spec state.endWord rest :=
  scan_outside outside (by decide) rest

theorem scan_close {state : Splitter} (within : state.quote = some .single)
    (rest : Text) :
    scan quoted spec state ('\'' :: rest) =
      scan quoted spec state.closeQuote rest :=
  (scan_single within '\'' rest).trans (if_pos rfl)

theorem scan_within {state : Splitter} (within : state.quote = some .single)
    {char : Char} (other : char ≠ '\'') (rest : Text) :
    scan quoted spec state (char :: rest) =
      scan quoted spec (state.push char) rest :=
  (scan_single within char rest).trans (if_neg other)

theorem scan_backslash {state : Splitter} (outside : state.quote = none)
    (char : Char) (rest : Text) :
    scan quoted spec state ('\\' :: char :: rest) =
      scan quoted spec (state.pushWord char) rest := by
  rw [scan.eq_def]
  simp [outside]

/-- The splitter behind a word that it has read. -/
def Splitter.read (state : Splitter) (word : Text) : Splitter :=
  { state with cur := state.cur ++ word,
               inWord := state.inWord || decide (word ≠ []) }

theorem Splitter.read_nil (state : Splitter) : state.read [] = state := by
  simp [read]

theorem Splitter.read_cons (state : Splitter) (char : Char) (word : Text) :
    state.read (char :: word) = (state.pushWord char).read word := by
  simp [read, pushWord, push]

theorem scan_bare_word (letters : Letters isAlphanumeric) {word : Text}
    (bare : word.all (isBare isAlphanumeric) = true) {state : Splitter}
    (outside : state.quote = none) (rest : Text) :
    scan quoted spec state (word ++ rest) =
      scan quoted spec (state.read word) rest := by
  induction word generalizing state with
  | nil => rw [state.read_nil, List.nil_append]
  | cons char word induction =>
      rw [List.all_cons, Bool.and_eq_true] at bare
      rw [List.cons_append, scan_bare letters bare.1 outside,
        induction bare.2 (by exact outside), state.read_cons]

/-- Between single quotes every character is read as it is, the single quotes
of the word too. -/
theorem scan_quoted {word : Text} {state : Splitter}
    (within : state.quote = some .single) (begun : state.inWord = true)
    (rest : Text) :
    scan quoted spec state (word.flatMap quoteChar ++ '\'' :: rest) =
      scan quoted spec (state.read word).closeQuote rest := by
  induction word generalizing state with
  | nil =>
      rw [state.read_nil, List.flatMap_nil, List.nil_append,
        scan_close within]
  | cons char word induction =>
      rw [state.read_cons, List.flatMap_cons, quoteChar, List.append_assoc]
      by_cases apostrophe : char = '\''
      · -- The quotes are closed, one is escaped, and they are opened again.
        subst apostrophe
        rw [if_pos rfl, List.cons_append, List.cons_append, List.cons_append,
          List.singleton_append, scan_close within, scan_backslash rfl,
          scan_open rfl]
        have again : (state.closeQuote.pushWord '\'').openQuote .single =
            state.pushWord '\'' := by
          rw [Splitter.openQuote, Splitter.pushWord, Splitter.pushWord,
            Splitter.push, Splitter.push, Splitter.closeQuote, within]
        rw [again, induction (by exact within) rfl]
      · rw [if_neg apostrophe, List.singleton_append,
          scan_within within apostrophe]
        have word' : state.push char = state.pushWord char := by
          rw [Splitter.pushWord, Splitter.push, begun]
        rw [word', induction (by exact within) rfl]

/-- An escaped word is read as it was, whatever comes behind it. -/
theorem scan_shellEscape (letters : Letters isAlphanumeric) (word : Text)
    {state : Splitter} (outside : state.quote = none) (rest : Text) :
    scan quoted spec state (shellEscape isAlphanumeric word ++ rest) =
      scan quoted spec (state.read word) rest := by
  rw [shellEscape]
  split
  · next bare => exact scan_bare_word letters bare outside rest
  · next special =>
      have some : word ≠ [] := by
        rintro rfl
        exact special rfl
      rw [List.cons_append, List.cons_append, List.append_assoc,
        List.singleton_append, scan_open outside, scan_quoted rfl rfl]
      simp [Splitter.read, Splitter.openQuote, Splitter.closeQuote, some,
        outside]

/-- The splitter between two words. -/
structure Splitter.Between (state : Splitter) : Prop where
  outside : state.quote = none
  ended : state.inWord = false
  empty : state.cur = []

theorem Splitter.Between.endWord_read {state : Splitter}
    (between : state.Between) (word : Text) :
    (state.read word).endWord =
      { state with words := state.words ++ [word].filter (· ≠ []) } := by
  rw [read, endWord, between.ended, between.empty]
  by_cases empty : word = []
  · simp [empty]
  · simp [empty]

/-- Escaped words with blanks between them are read one after the other; of
the empty ones nothing is left. -/
theorem scan_joined (letters : Letters isAlphanumeric) (words : List Text)
    {state : Splitter} (between : state.Between) :
    ∃ final, scan quoted spec state
        (joined ' ' (words.map (shellEscape isAlphanumeric))) = .ok final ∧
      final.quote = none ∧
        final.endWord.words = state.words ++ words.filter (· ≠ []) := by
  induction words generalizing state with
  | nil =>
      refine ⟨state, rfl, between.outside, ?_⟩
      rw [Splitter.endWord, between.ended]
      exact (List.append_nil _).symm
  | cons word rest induction =>
      have parts : (word :: rest).filter (· ≠ []) =
          [word].filter (· ≠ []) ++ rest.filter (· ≠ []) :=
        List.filter_append [word] rest
      rw [parts, ← List.append_assoc]
      cases rest with
      | nil =>
          refine ⟨state.read word, ?_, between.outside, ?_⟩
          · rw [List.map_singleton, joined_singleton,
              ← List.append_nil (shellEscape _ _),
              scan_shellEscape letters word between.outside]
            rfl
          · rw [between.endWord_read, List.filter_nil, List.append_nil]
      | cons next later =>
          have ended := between.endWord_read word
          have outside' : (state.read word).quote = none := between.outside
          have between' : (state.read word).endWord.Between := by
            rw [ended]
            exact ⟨between.outside, between.ended, between.empty⟩
          rcases induction between' with ⟨final, scanned, outside, read⟩
          refine ⟨final, ?_, outside, ?_⟩
          · rw [List.map_cons, List.map_cons, joined_cons_cons,
              scan_shellEscape letters word between.outside,
              scan_blank outside']
            exact scanned
          · rw [read, ended]

/-- What a command line splits to. -/
theorem splitShellWords_joined (letters : Letters isAlphanumeric)
    (words : List Text) :
    splitShellWords quoted
        (joined ' ' (words.map (shellEscape isAlphanumeric))) =
      .ok (words.filter (· ≠ [])) := by
  have between : Splitter.start.Between := ⟨rfl, rfl, rfl⟩
  rcases scan_joined letters words between with
    ⟨final, scanned, outside, read⟩
  rw [splitShellWords, scanned]
  dsimp only
  rw [outside, read]
  rfl

theorem commandLine_eq (exe : Text) (argv : List Text) :
    commandLine isAlphanumeric exe argv =
      joined ' ' ((exe :: argv).map (shellEscape isAlphanumeric)) := by
  induction argv using List.reverseRecOn with
  | nil => exact (joined_singleton ' ' _).symm
  | append_singleton argv arg induction =>
      have first : (exe :: argv).map (shellEscape isAlphanumeric) ≠ [] :=
        List.cons_ne_nil _ _
      have more : [arg].map (shellEscape isAlphanumeric) ≠ [] :=
        List.cons_ne_nil _ _
      rw [commandLine, List.foldl_append, List.foldl_cons, List.foldl_nil,
        ← commandLine, induction, ← List.cons_append, List.map_append,
        joined_append ' ' first more, List.map_singleton, joined_singleton]

end

/-- A command line splits back into its words exactly if none of them is
empty; and so does the line of a unit. -/
theorem splits_back_iff {quoted : Text → Text}
    {isAlphanumeric : Char → Bool} (letters : Letters isAlphanumeric) :
    (∀ words : List Text,
      splitShellWords quoted
          (joined ' ' (words.map (shellEscape isAlphanumeric))) = .ok words ↔
        [] ∉ words) ∧
      ∀ exe argv, ∃ line,
        systemdUnit isAlphanumeric exe argv = unitHead ++ line ++ unitTail ∧
          (splitShellWords quoted line = .ok (exe :: argv) ↔
            [] ∉ exe :: argv) := by
  have back (words : List Text) :
      splitShellWords quoted
          (joined ' ' (words.map (shellEscape isAlphanumeric))) = .ok words ↔
        [] ∉ words := by
    rw [splitShellWords_joined letters, Except.ok.injEq, List.filter_eq_self]
    constructor
    · intro all empty
      exact of_decide_eq_true (all [] empty) rfl
    · intro none word member
      rw [decide_eq_true_iff]
      rintro rfl
      exact none member
  refine ⟨back, fun exe argv => ⟨_, rfl, ?_⟩⟩
  rw [commandLine_eq]
  exact back (exe :: argv)

/-! The letters and digits of ASCII. -/

theorem codes_of_isAlphanum {char : Char} (letter : char.isAlphanum = true) :
    (65 ≤ char.toNat ∧ char.toNat ≤ 90 ∨
        97 ≤ char.toNat ∧ char.toNat ≤ 122) ∨
      48 ≤ char.toNat ∧ char.toNat ≤ 57 := by
  rcases (Bool.or_eq_true _ _).mp letter with alpha | digit
  · left
    rcases (Bool.or_eq_true _ _).mp alpha with upper | lower
    · exact .inl (of_decide_eq_true upper)
    · rcases (Bool.and_eq_true _ _).mp lower with ⟨least, most⟩
      exact .inr ⟨of_decide_eq_true least, of_decide_eq_true most⟩
  · rcases (Bool.and_eq_true _ _).mp digit with ⟨least, most⟩
    exact .inr ⟨of_decide_eq_true least, of_decide_eq_true most⟩

theorem letters_ascii : Letters Char.isAlphanum := by
  intro char letter
  refine ⟨?_, ?_, ?_, ?_⟩
  · have codes := codes_of_isAlphanum letter
    simp only [isWhitespace, Bool.or_eq_false_iff,
      Bool.and_eq_false_iff, decide_eq_false_iff_not]
    omega
  · rintro rfl
    cases letter
  · rintro rfl
    cases letter
  · rintro rfl
    cases letter

/-- A blank, a quote and a backslash come back. -/
theorem splits_back_quotes :
    splitShellWords id (joined ' '
        (["it's".toList, "a b".toList, "c\\".toList].map
          (shellEscape Char.isAlphanum))) =
      .ok ["it's".toList, "a b".toList, "c\\".toList] := by
  apply ((splits_back_iff letters_ascii).1 _).mpr
  decide +kernel

/-- The empty word is lost. -/
theorem not_splits_back_empty :
    splitShellWords id (joined ' '
        (["runa".toList, [], "daemon".toList].map
          (shellEscape Char.isAlphanum))) ≠
      .ok ["runa".toList, [], "daemon".toList] := by
  decide +kernel

end Runa.App.ShellWords
