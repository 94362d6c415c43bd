import Runa.App.DaemonProto
import Runa.Engine.MistralEvents

/-!
# JSON written by hand

`json_escape` and `run_json` of `runa/src/main.rs`.  A text escaped so is the
body of a JSON string and is read as the text again, and so are the string
fields of `run --json`.  The other escape of the program, `quote` for the tool
calls of mistral.rs, is the same.
-/

namespace Runa.App.RunJson

open Runa.App.DaemonProto (stopName)
open Runa.Engine.Generate (StopReason Usage)
open Runa.Engine.MistralEvents (quote quoteChar)
open Runa.Json.Codec hiding quote
open Runa.Stream.Utf8 (Text)

/-! ## Escaping -/

/-- `{:04x}` -/
def hex04 (n : Nat) : Text :=
  (Nat.toDigits 16 n).leftpad 4 '0'

/-- The arms of the loop of `json_escape`. -/
def escapeChar (c : Char) : Text :=
  if c = '"' then ['\\', '"']
  else if c = '\\' then ['\\', '\\']
  else if c = '\n' then ['\\', 'n']
  else if c = '\r' then ['\\', 'r']
  else if c = '\t' then ['\\', 't']
  else if c.toNat < 0x20 then '\\' :: 'u' :: hex04 c.toNat
  else [c]

/-- Minimal JSON string escaping. -/
def jsonEscape (s : Text) : Text :=
  s.foldl (fun out c => out ++ escapeChar c) []

/-! ## The answer of a run -/

/-- What a run has used, with its speeds. -/
structure RunUsage (Speed : Type) extends Usage where
  ppToksPerS : Speed
  tgToksPerS : Speed

def stopField : StopReason → Text
  | .eos => "eos".toList
  | .maxTokens => "max_tokens".toList
  | .stopString s => "stop:".toList ++ jsonEscape s

section

variable {Speed : Type} (tenths : Speed → Text)

/-- The members of `usage`; a speed is written as `{:.1}`. -/
def usageFields (usage : RunUsage Speed) : Text :=
  "\"prompt_tokens\":".toList ++ Nat.toDigits 10 usage.promptTokens ++
    ",\"generated_tokens\":".toList ++
    Nat.toDigits 10 usage.generatedTokens ++
    ",\"reasoning_tokens\":".toList ++
    Nat.toDigits 10 usage.reasoningTokens.toNat ++
    ",\"pp_toks_per_s\":".toList ++ tenths usage.ppToksPerS ++
    ",\"tg_toks_per_s\":".toList ++ tenths usage.tgToksPerS

def runJson (text : Text) (usage : RunUsage Speed) (reason : StopReason) :
    Text :=
  "\x7b\"text\":\"".toList ++ jsonEscape text ++
    "\",\"usage\":\x7b".toList ++ usageFields tenths usage ++
    "\x7d,\"stop\":\"".toList ++ stopField reason ++ "\"\x7d".toList

end

/-! ## What is read -/

theorem jsonEscape_eq (s : Text) : jsonEscape s = s.flatMap escapeChar := by
  have run : ∀ (rest begun : Text),
      rest.foldl (fun out c => out ++ escapeChar c) begun =
        begun ++ rest.flatMap escapeChar := by
    intro rest
    induction rest with
    | nil =>
        intro begun
        rw [List.foldl_nil, List.flatMap_nil, List.append_nil]
    | cons c rest induction =>
        intro begun
        rw [List.foldl_cons, induction, List.flatMap_cons, List.append_assoc]
  exact run s []

theorem hex04_low : ∀ code < 32,
    hex04 code = ['0', '0', hexDigit (code / 16), hexDigit (code % 16)] := by
  decide

/-- Every class of characters is escaped by the rules of JSON. -/
theorem stands_escapeChar (c : Char) : Stands c (escapeChar c) := by
  rw [escapeChar]
  split
  · next same => subst same; exact stands_short (by decide)
  split
  · next same => subst same; exact stands_short (by decide)
  split
  · next same => subst same; exact stands_short (by decide)
  split
  · next same => subst same; exact stands_short (by decide)
  split
  · next same => subst same; exact stands_short (by decide)
  split
  · next low =>
      rw [hex04_low c.toNat low]
      exact stands_low low
  · next noQuote noSlash _ _ _ visible =>
      exact .bare ⟨noQuote, noSlash, visible⟩

/-- The two programs escape a character alike. -/
theorem quoteChar_eq (c : Char) : quoteChar c = escapeChar c := by
  rw [quoteChar, escapeChar]
  by_cases low : c.toNat < 0x20
  · rw [hex04_low c.toNat low]
  · rw [if_neg low, if_neg low]

theorem quote_eq (s : Text) : quote s = '"' :: (jsonEscape s ++ ['"']) := by
  rw [jsonEscape_eq, ← funext quoteChar_eq]
  rfl

/-- What an escaped text is between two quotes. -/
structure Field (field text : Text) : Prop where
  visible : ∀ c ∈ field, ¬ c < ' '
  body : Body field
  reads : ∀ fuel rest, text.length < fuel →
    readString fuel (field ++ '"' :: rest) = some (text, rest)

theorem field_jsonEscape (s : Text) : Field (jsonEscape s) s := by
  have body : Body (jsonEscape s) := by
    rw [jsonEscape_eq]
    exact body_pieces stands_escapeChar s
  refine ⟨body.visible, body, ?_⟩
  intro fuel rest enough
  rw [jsonEscape_eq]
  exact readString_pieces stands_escapeChar s enough rest

/-- The name of a reason is escaped where it is not fixed. -/
theorem stopField_eq (reason : StopReason) :
    stopField reason = jsonEscape (stopName reason) := by
  cases reason with
  | eos => rfl
  | maxTokens => rfl
  | stopString s =>
      have fixed : jsonEscape "stop:".toList = "stop:".toList := rfl
      change "stop:".toList ++ jsonEscape s = jsonEscape ("stop:".toList ++ s)
      rw [jsonEscape_eq ("stop:".toList ++ s), List.flatMap_append,
        ← jsonEscape_eq, ← jsonEscape_eq, fixed]

/--
The two strings of `run --json` are bodies of JSON strings that are read as
the text and the name of the reason, and what is quoted for a tool call is
such a body between quotes.
-/
theorem runJson_strings {Speed : Type} (tenths : Speed → Text) (text : Text)
    (usage : RunUsage Speed) (reason : StopReason) (s : Text) :
    (∃ body stop,
      runJson tenths text usage reason =
          "\x7b\"text\":\"".toList ++ body ++ "\",\"usage\":\x7b".toList ++
            usageFields tenths usage ++ "\x7d,\"stop\":\"".toList ++ stop ++
            "\"\x7d".toList ∧
        Field body text ∧ Field stop (stopName reason)) ∧
      quote s = '"' :: (jsonEscape s ++ ['"']) := by
  constructor
  · refine ⟨jsonEscape text, stopField reason, rfl, field_jsonEscape text, ?_⟩
    rw [stopField_eq]
    exact field_jsonEscape (stopName reason)
  · exact quote_eq s

end Runa.App.RunJson
