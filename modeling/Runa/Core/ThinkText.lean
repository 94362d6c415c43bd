import Runa.Core.Think
import Runa.Memory.Registry
import Runa.Stream.Words

/-!
# The thinking setting as a text

`Display` of `ThinkConfig`, and the arguments of `/think`.  A setting is shown
as words that `from_slash_args` reads back one command at a time
(`fromSlashArgs_display`).  How `{:?}` quotes a text is left open.
-/

namespace Runa.Core.ThinkText

open Runa.Stream.Utf8
open Runa.Stream.Lines (isWhitespace trim)
open Runa.Stream.Words
open Runa.Core.Think
open Runa.Memory.Registry (parseU32 digits)

/-! ## Showing -/

/-- A number in decimal. -/
def decimal (value : UInt32) : Text :=
  Nat.toDigits 10 value.toNat

def ThinkMode.display : ThinkMode → Text
  | .off => "off".toList
  | .on => "on".toList
  | .budget tokens grace =>
      "budget ".toList ++ decimal tokens ++ " grace ".toList ++ decimal grace
  | .effort effort => "effort ".toList ++ effort.name

/-- `Display` -/
def ThinkConfig.display (config : ThinkConfig) : Text :=
  ThinkMode.display config.mode ++
    if config.show then " show".toList else []

/-! ## Reading -/

/-- `parse_u32`, with the name of what is read -/
def parseNumber (text what : Text) : Except Text UInt32 :=
  match parseU32 text with
  | some value => .ok (UInt32.ofNat value)
  | none =>
      .error
        (text ++ ": ".toList ++ what ++ " must be a positive integer".toList)

def parseBudget (text : Text) : Except Text UInt32 := do
  let value ← parseNumber text "think-budget".toList
  if value = 0 then
    .error "--think-budget must be > 0".toList
  else
    return value

variable (quoted : Text → Text)

/-- The loop over the words. -/
def readArgs : List Text → ThinkOverrides → Except Text ThinkOverrides
  | [], overrides => .ok overrides
  | token :: rest, overrides =>
    if token = "on".toList then
      readArgs rest { overrides with think := some true }
    else if token = "off".toList then
      readArgs rest { overrides with think := some false }
    else if token = "show".toList then
      readArgs rest { overrides with «show» := some true }
    else if token = "hide".toList then
      readArgs rest { overrides with «show» := some false }
    else if token = "budget".toList then
      match rest with
      | [] => .error "usage: /think budget <n>".toList
      | n :: rest => do
          let value ← parseBudget n
          readArgs rest { overrides with budget := some value }
    else if token = "effort".toList then
      match rest with
      | [] => .error "usage: /think effort <low|medium|high|max>".toList
      | e :: rest => do
          let value ← Effort.parse e
          readArgs rest { overrides with effort := some value }
    else if token = "grace".toList then
      match rest with
      | [] => .error "usage: /think grace <n>".toList
      | n :: rest => do
          let value ← parseNumber n "grace".toList
          readArgs rest { overrides with grace := some value }
    else
      .error
        ("unknown /think arg ".toList ++ quoted token ++
          " (on|off|budget|effort|grace|show|hide)".toList)

/-- `/think on`, `/think budget 2048 show`, `/think effort high`. -/
def ThinkOverrides.fromSlashArgs (args : Text) :
    Except Text ThinkOverrides :=
  if (trim args).isEmpty then .ok .default
  else readArgs quoted (splitWhitespace args) .default

/-! ## The words of a setting -/

def modeWords : ThinkMode → List Text
  | .off => ["off".toList]
  | .on => ["on".toList]
  | .budget tokens grace =>
      ["budget".toList, decimal tokens, "grace".toList, decimal grace]
  | .effort effort => ["effort".toList, effort.name]

def words (config : ThinkConfig) : List Text :=
  modeWords config.mode ++ if config.show then ["show".toList] else []

/-- The words of the mode, with the spaces they are shown with. -/
theorem display_mode (mode : ThinkMode) :
    ThinkMode.display mode = joined ' ' (modeWords mode) := by
  have budget : "budget ".toList = "budget".toList ++ [' '] := by simp
  have grace : " grace ".toList = ' ' :: ("grace".toList ++ [' ']) := by simp
  have shown : "effort ".toList = "effort".toList ++ [' '] := by simp
  cases mode with
  | off => rfl
  | on => rfl
  | budget tokens kept =>
      change
        "budget ".toList ++ decimal tokens ++ " grace ".toList ++
          decimal kept = _
      rw [budget, grace]
      simp only [modeWords, joined_cons_cons, joined_singleton,
        List.append_assoc, List.cons_append, List.nil_append]
  | effort effort =>
      change "effort ".toList ++ effort.name = _
      rw [shown]
      simp only [modeWords, joined_cons_cons, joined_singleton,
        List.append_assoc, List.cons_append, List.nil_append]

theorem display_eq (config : ThinkConfig) :
    ThinkConfig.display config = joined ' ' (words config) := by
  have shown : " show".toList = ' ' :: "show".toList := by simp
  rw [ThinkConfig.display, display_mode, words]
  cases config.show with
  | false => simp
  | true =>
      rw [if_pos rfl, if_pos rfl, shown, joined_append, joined_singleton]
      · cases config.mode <;> exact List.cons_ne_nil _ _
      · exact List.cons_ne_nil _ _

theorem word_decimal (value : UInt32) : Word (decimal value) where
  nonempty := Nat.toDigits_ne_nil
  visible char member := by
    have digit : char.isDigit = true :=
      Nat.isDigit_of_mem_toDigits (by decide) (by decide) member
    rw [Char.isDigit, Bool.and_eq_true, decide_eq_true_eq,
      decide_eq_true_eq] at digit
    have low : 48 ≤ char.toNat := digit.1
    have high : char.toNat ≤ 57 := digit.2
    simp only [isWhitespace, Bool.or_eq_false_iff, Bool.and_eq_false_iff,
      decide_eq_false_iff_not]
    omega

theorem word_of_visible {text : Text} (nonempty : text ≠ [])
    (visible : text.all (fun char => !isWhitespace char) = true) :
    Word text where
  nonempty := nonempty
  visible := by simpa using visible

theorem word_effort (effort : Effort) : Word effort.name := by
  cases effort <;> exact word_of_visible (by decide) (by decide)

theorem word_keyword : ∀ word ∈ ["off".toList, "on".toList,
    "budget".toList, "grace".toList, "effort".toList, "show".toList],
      Word word := by
  intro word member
  apply word_of_visible
  · rintro rfl
    exact absurd member (by decide)
  · exact
      List.all_eq_true.mp
        (show ["off".toList, "on".toList, "budget".toList, "grace".toList,
          "effort".toList, "show".toList].all
            (fun word => word.all fun char => !isWhitespace char) = true by
          decide)
        word member

theorem words_word (config : ThinkConfig) :
    ∀ word ∈ words config, Word word := by
  rcases config with ⟨mode, shown⟩
  rw [words, List.forall_mem_append]
  constructor
  · intro word member
    cases mode with
    | off =>
        rcases List.mem_singleton.mp member with rfl
        exact word_keyword _ (by simp)
    | on =>
        rcases List.mem_singleton.mp member with rfl
        exact word_keyword _ (by simp)
    | budget tokens grace =>
        simp only [modeWords, List.mem_cons, List.not_mem_nil, or_false]
          at member
        rcases member with rfl | rfl | rfl | rfl
        · exact word_keyword _ (by simp)
        · exact word_decimal tokens
        · exact word_keyword _ (by simp)
        · exact word_decimal grace
    | effort effort =>
        simp only [modeWords, List.mem_cons, List.not_mem_nil, or_false]
          at member
        rcases member with rfl | rfl
        · exact word_keyword _ (by simp)
        · exact word_effort effort
  · cases shown with
    | false => exact nofun
    | true => exact List.forall_mem_singleton.mpr (word_keyword _ (by simp))

/-! ## Reading them back -/

theorem digits_decimal (value : UInt32) : digits (decimal value) = true := by
  rw [digits, Bool.and_eq_true, Bool.not_eq_true', List.isEmpty_eq_false_iff,
    List.all_eq_true]
  refine ⟨Nat.toDigits_ne_nil, fun char member => ?_⟩
  exact Nat.isDigit_of_mem_toDigits (by decide) (by decide) member

theorem parseU32_decimal (value : UInt32) :
    parseU32 (decimal value) = some value.toNat := by
  have all := digits_decimal value
  have number : (decimal value).foldl
      (fun sum char => 10 * sum + (char.toNat - 48)) 0 = value.toNat :=
    Nat.ofDigitChars_ten_toDigits
  have unsigned : ∀ rest, decimal value ≠ '+' :: rest := by
    intro rest same
    rw [same] at all
    simp [digits] at all
  -- There is no sign to skip.
  simp only [parseU32, number, all, true_and]
  exact if_pos value.toNat_lt

theorem parseNumber_decimal (value : UInt32) (what : Text) :
    parseNumber (decimal value) what = .ok value := by
  rw [parseNumber, parseU32_decimal]
  simp

theorem parseBudget_decimal {value : UInt32} (positive : 0 < value) :
    parseBudget (decimal value) = .ok value := by
  rw [parseBudget, parseNumber_decimal]
  exact if_neg (UInt32.ne_of_lt positive).symm

section Commands

variable (rest : List Text) (overrides : ThinkOverrides)

theorem readArgs_on :
    readArgs quoted ("on".toList :: rest) overrides =
      readArgs quoted rest { overrides with think := some true } := by
  rw [readArgs.eq_def]
  exact if_pos rfl

theorem readArgs_off :
    readArgs quoted ("off".toList :: rest) overrides =
      readArgs quoted rest { overrides with think := some false } := by
  rw [readArgs.eq_def]
  dsimp only
  rw [if_neg (by simp), if_pos rfl]

theorem readArgs_show :
    readArgs quoted ("show".toList :: rest) overrides =
      readArgs quoted rest { overrides with «show» := some true } := by
  rw [readArgs.eq_def]
  dsimp only
  rw [if_neg (by simp), if_neg (by simp), if_pos rfl]

theorem readArgs_budget (n : Text) :
    readArgs quoted ("budget".toList :: n :: rest) overrides =
      (do
        let value ← parseBudget n
        readArgs quoted rest { overrides with budget := some value }) := by
  refine (if_neg (by simp)).trans ?_
  refine (if_neg (by simp)).trans ?_
  refine (if_neg (by simp)).trans ?_
  refine (if_neg (by simp)).trans ?_
  exact if_pos rfl

theorem readArgs_effort (e : Text) :
    readArgs quoted ("effort".toList :: e :: rest) overrides =
      (do
        let value ← Effort.parse e
        readArgs quoted rest { overrides with effort := some value }) := by
  refine (if_neg (by simp)).trans ?_
  refine (if_neg (by simp)).trans ?_
  refine (if_neg (by simp)).trans ?_
  refine (if_neg (by simp)).trans ?_
  refine (if_neg (by simp)).trans ?_
  exact if_pos rfl

theorem readArgs_grace (n : Text) :
    readArgs quoted ("grace".toList :: n :: rest) overrides =
      (do
        let value ← parseNumber n "grace".toList
        readArgs quoted rest { overrides with grace := some value }) := by
  refine (if_neg (by simp)).trans ?_
  refine (if_neg (by simp)).trans ?_
  refine (if_neg (by simp)).trans ?_
  refine (if_neg (by simp)).trans ?_
  refine (if_neg (by simp)).trans ?_
  refine (if_neg (by simp)).trans ?_
  exact if_pos rfl

end Commands

/-- What the words of a setting ask for. -/
def asked (config : ThinkConfig) : ThinkOverrides where
  think :=
    match config.mode with
    | .off => some false
    | .on => some true
    | _ => none
  budget :=
    match config.mode with
    | .budget tokens _ => some tokens
    | _ => none
  grace :=
    match config.mode with
    | .budget _ grace => some grace
    | _ => none
  effort :=
    match config.mode with
    | .effort effort => some effort
    | _ => none
  «show» := if config.show then some true else none

/-- Every command of a shown setting is read as it was meant. -/
theorem readArgs_words {config : ThinkConfig}
    (positive :
      ∀ tokens grace, config.mode = .budget tokens grace → 0 < tokens) :
    readArgs quoted (words config) .default = .ok (asked config) := by
  rcases config with ⟨mode, shown⟩
  have last : ∀ overrides : ThinkOverrides,
      readArgs quoted (if shown then ["show".toList] else []) overrides =
        .ok
          { overrides with
            «show» := if shown then some true else overrides.show } := by
    intro overrides
    cases shown with
    | false => rfl
    | true => exact readArgs_show quoted [] overrides
  cases mode with
  | off => exact (readArgs_off quoted _ _).trans (last _)
  | on => exact (readArgs_on quoted _ _).trans (last _)
  | budget tokens grace =>
      refine (readArgs_budget quoted _ _ _).trans ?_
      rw [parseBudget_decimal (positive tokens grace rfl)]
      refine (readArgs_grace quoted _ _ _).trans ?_
      rw [parseNumber_decimal]
      exact last _
  | effort effort =>
      refine (readArgs_effort quoted _ _ _).trans ?_
      rw [Effort.parse_name]
      exact last _

/-- What was asked for, on top of the default. -/
theorem apply_asked (config : ThinkConfig) :
    ThinkConfig.default.apply (asked config) = .ok config := by
  rcases config with ⟨mode, shown⟩
  cases mode <;> cases shown <;> rfl

/--
A shown setting can be typed back, where a budget in it is positive: zero is
refused.
-/
theorem fromSlashArgs_display (config : ThinkConfig)
    (positive :
      ∀ tokens grace, config.mode = .budget tokens grace → 0 < tokens) :
    ∃ overrides,
      ThinkOverrides.fromSlashArgs quoted (ThinkConfig.display config) =
          .ok overrides ∧
        ThinkConfig.default.apply overrides = .ok config := by
  refine ⟨asked config, ?_, apply_asked config⟩
  have each := words_word config
  have visible : (trim (ThinkConfig.display config)).isEmpty = false := by
    rw [display_eq, List.isEmpty_eq_false_iff]
    rcases split : words config with _ | ⟨word, rest⟩
    · rcases List.append_eq_nil_iff.mp split with ⟨none, -⟩
      cases mode : config.mode <;> rw [mode] at none <;> cases none
    · exact trim_joined_ne_nil (each word (by rw [split]; simp))
  rw [ThinkOverrides.fromSlashArgs, visible, if_neg Bool.false_ne_true,
    display_eq, splitWhitespace_joined each]
  exact readArgs_words quoted positive

theorem fromSlashArgs_budget :
    ∃ overrides,
      ThinkOverrides.fromSlashArgs id "budget 2048 grace 64 show".toList =
          .ok overrides ∧
        ThinkConfig.default.apply overrides =
          .ok { mode := .budget 2048 64, «show» := true } :=
  fromSlashArgs_display id { mode := .budget 2048 64, «show» := true }
    fun tokens grace same => by
      cases same
      decide

end Runa.Core.ThinkText
