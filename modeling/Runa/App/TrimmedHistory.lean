import Runa.App.FailedTurns

/-!
# What trimming a history keeps

A history that is too large loses whole turns in front, up to the next message
of the user, until it fits or its last message is alone.  What is left is the
most that fits of all that begins with a turn.  A message of a tool can only
lose the call it answers as the last message of the history, where a new turn
never has one.
-/

namespace Runa.App.TrimmedHistory

open Runa.App.Chat
open Runa.App.FailedTurns
open Runa.Engine.Generate
open Runa.Engine.Requests
open Runa.Stream.Utf8

def IsUser (message : ChatMessage) : Prop :=
  message.role = "user".toList

instance : DecidablePred IsUser := fun _ =>
  inferInstanceAs (Decidable (_ = _))

def IsTool (message : ChatMessage) : Prop :=
  message.role = "tool".toList

instance : DecidablePred IsTool := fun _ =>
  inferInstanceAs (Decidable (_ = _))

theorem not_isTool_user (input : Text) : ¬ IsTool (ChatMessage.user input) := by
  show ¬ "user".toList = "tool".toList
  decide

/-- The messages begin with one of the user. -/
def Opens (messages : List ChatMessage) : Prop :=
  ∃ message rest, messages = message :: rest ∧ IsUser message

/-- An assistant message that makes calls. -/
structure Calls (message : ChatMessage) : Prop where
  role : message.role = "assistant".toList
  calls : message.toolCalls ≠ []

/-- Behind a message that makes calls, and in the same turn. -/
def Behind (front : List ChatMessage) : Prop :=
  ∃ before message between, front = before ++ message :: between ∧
    Calls message ∧ ∀ other ∈ between, ¬ IsUser other

/-- No message of a tool is without the message that makes calls. -/
def Attended (messages : List ChatMessage) : Prop :=
  ∀ front message back, messages = front ++ message :: back →
    IsTool message → Behind front

/-- The loop has come to these messages. -/
structure Reached (history : List ChatMessage) (budget : Nat)
    (count : List ChatMessage → Nat) (kept : List ChatMessage) : Prop where
  suffix : kept <:+ history
  last : kept.getLast? = history.getLast?
  begins : kept = history ∨ Opens kept ∨ kept.length = 1
  most : ∀ longer, longer <:+ history → kept.length < longer.length →
    longer = history ∨ Opens longer → budget < count longer
  attended : Attended history →
    Attended kept ∨ ∃ last, kept = [last] ∧ IsTool last

/-- The most that fits, of what is left when whole turns are dropped. -/
structure KeepsMost (history : List ChatMessage) (budget : Nat)
    (count : List ChatMessage → Nat) (kept : List ChatMessage) : Prop
    extends Reached history budget count kept where
  fits : count kept ≤ budget ∨ kept.length ≤ 1

/-! ## One cut -/

/-- What is cut off behind the first message has no turn in it, and a turn
begins behind it, or the last message is alone. -/
theorem exists_cut (first : ChatMessage) {rest : List ChatMessage}
    (some : rest ≠ []) :
    ∃ skipped next, rest = skipped ++ next ∧ next ≠ [] ∧
      (first :: rest).drop (cutLength (first :: rest)) = next ∧
      (∀ message ∈ skipped, ¬ IsUser message) ∧
      (Opens next ∨ next.length = 1) := by
  rw [cutLength, List.drop_one, List.tail_cons]
  cases found : rest.findIdx? (fun message => message.role = "user".toList) with
  | none =>
      have none := List.findIdx?_eq_none_iff.mp found
      have positive := List.length_pos_iff.mpr some
      refine ⟨rest.dropLast, [rest.getLast some], ?_, List.cons_ne_nil _ _,
        ?_, ?_, Or.inr rfl⟩
      · exact (List.dropLast_append_getLast some).symm
      · rw [List.length_cons, Nat.add_sub_cancel, Nat.max_eq_right positive]
        obtain ⟨before, place⟩ := Nat.exists_eq_add_one.mpr positive
        rw [place, List.drop_succ_cons]
        have split := List.dropLast_append_getLast some
        conv_lhs => rw [← split]
        rw [List.drop_append_of_le_length, List.drop_eq_nil_of_le]
        · rfl
        · rw [List.length_dropLast, place, Nat.add_sub_cancel]
        · rw [List.length_dropLast, place, Nat.add_sub_cancel]
      · intro message member
        exact of_decide_eq_false (none message (List.mem_of_mem_dropLast member))
  | some index =>
      rcases List.findIdx?_eq_some_iff_getElem.mp found with
        ⟨within, user, before⟩
      have split := List.drop_eq_getElem_cons within
      refine ⟨rest.take index, rest.drop index, ?_, ?_, ?_, ?_, ?_⟩
      · exact (List.take_append_drop index rest).symm
      · rw [split]
        exact List.cons_ne_nil _ _
      · show (first :: rest).drop (max 1 (index + 1)) = _
        rw [Nat.max_eq_right (Nat.le_add_left 1 index), List.drop_succ_cons]
      · intro message member
        rcases List.mem_take_iff_getElem.mp member with ⟨place, bound, rfl⟩
        exact of_decide_eq_false
          (Bool.eq_false_iff.mpr (before place (by omega)))
      · exact Or.inl ⟨rest[index], rest.drop (index + 1), split,
          of_decide_eq_true user⟩

/-- What begins in the front of two lists. -/
theorem head_mem_of_suffix {α : Type} {head : α} {tail front back : List α}
    (suffix : head :: tail <:+ front ++ back)
    (more : back.length < (head :: tail).length) : head ∈ front := by
  rcases suffix with ⟨before, split⟩
  rcases List.append_eq_append_iff.mp split with
    ⟨part, rfl, same⟩ | ⟨part, rfl, same⟩
  · cases part with
    | nil =>
        rw [same] at more
        exact absurd more (Nat.lt_irrefl _)
    | cons first part =>
        cases same
        exact List.mem_append_right before List.mem_cons_self
  · rw [same, List.length_append] at more
    exact absurd (Nat.le_add_left _ _) (Nat.not_le.mpr more)

/-- A turn has its own calls. -/
theorem Attended.of_opens {front messages : List ChatMessage}
    (attended : Attended (front ++ messages)) (opens : Opens messages) :
    Attended messages := by
  rcases opens with ⟨user, rest, rfl, isUser⟩
  intro before message back split isTool
  have whole : front ++ user :: rest =
      (front ++ before) ++ message :: back := by
    rw [split, List.append_assoc]
  rcases attended _ message back whole isTool with
    ⟨early, call, between, found, calls, none⟩
  -- the message of the user is in front of the one that makes the calls
  cases before with
  | nil =>
      cases split
      have clash := isUser.symm.trans isTool
      exact absurd clash (by decide)
  | cons first before =>
      rw [List.cons_append, List.cons.injEq] at split
      rcases split with ⟨rfl, split⟩
      rcases List.append_eq_append_iff.mp found with
        ⟨more, rfl, same⟩ | ⟨more, rfl, same⟩
      · cases more with
        | nil =>
            rw [List.nil_append, List.cons.injEq] at same
            rcases same with ⟨rfl, -⟩
            have clash := isUser.symm.trans calls.role
            exact absurd clash (by decide)
        | cons head more =>
            rw [List.cons_append, List.cons.injEq] at same
            rcases same with ⟨rfl, rfl⟩
            exact ⟨user :: more, call, between, rfl, calls, none⟩
      · cases more with
        | nil =>
            rw [List.nil_append, List.cons.injEq] at same
            rcases same with ⟨rfl, -⟩
            have clash := isUser.symm.trans calls.role
            exact absurd clash (by decide)
        | cons head more =>
            rw [List.cons_append, List.cons.injEq] at same
            rcases same with ⟨rfl, rfl⟩
            exact absurd isUser
              (none user (List.mem_append_right more List.mem_cons_self))

/-- A message that is alone has its call, unless it is of a tool. -/
theorem attended_singleton {message : ChatMessage} (other : ¬ IsTool message) :
    Attended [message] := by
  intro front found back split isTool
  rcases List.append_eq_singleton_iff.mp split.symm with
    ⟨-, same⟩ | ⟨-, same⟩
  · cases same
    exact absurd isTool other
  · cases same

section

variable {history kept : List ChatMessage} {budget : Nat}
  {count : List ChatMessage → Nat}

theorem reached_refl : Reached history budget count history := by
  constructor
  · exact List.suffix_rfl
  · rfl
  · exact Or.inl rfl
  · intro longer suffix more
    exact absurd suffix.length_le (Nat.not_le.mpr more)
  · exact Or.inl

/-- The loop cuts once more. -/
theorem Reached.cut (reached : Reached history budget count kept)
    (several : 1 < kept.length) (large : budget < count kept) :
    Reached history budget count (kept.drop (cutLength kept)) := by
  cases kept with
  | nil => exact absurd several (Nat.not_lt_zero 1)
  | cons first rest =>
      have some : rest ≠ [] := by
        rintro rfl
        exact absurd several (Nat.lt_irrefl 1)
      rcases exists_cut first some with
        ⟨skipped, next, split, left, drop, plain, starts⟩
      rw [drop]
      have within : next <:+ first :: rest := by
        rw [split]
        exact ⟨first :: skipped, rfl⟩
      constructor
      · exact within.trans reached.suffix
      · rw [← reached.last, split, ← List.cons_append,
          List.getLast?_append_of_ne_nil _ left]
      · exact Or.inr starts
      · intro longer suffix more how
        rcases lt_trichotomy (first :: rest).length longer.length with
          above | same | below
        · exact reached.most longer suffix above how
        · have equal := (List.suffix_of_suffix_length_le reached.suffix suffix
            same.le).eq_of_length same
          rw [← equal]
          exact large
        · -- what begins between the two begins with no turn
          have inside : longer <:+ skipped ++ next := by
            have bound : longer.length ≤ rest.length := by
              rw [List.length_cons] at below
              exact Nat.le_of_lt_succ below
            rw [← split]
            exact List.suffix_of_suffix_length_le suffix
              ((List.suffix_cons first rest).trans reached.suffix) bound
          rcases how with whole | ⟨user, later, rfl, isUser⟩
          · have bound := reached.suffix.length_le
            rw [← whole] at bound
            exact absurd below (Nat.not_lt.mpr bound)
          · exact absurd isUser (plain user (head_mem_of_suffix inside more))
      · intro attended
        rcases reached.attended attended with whole | ⟨last, alone, -⟩
        · rcases starts with opens | single
          · rw [split, ← List.cons_append] at whole
            exact Or.inl (whole.of_opens opens)
          · rcases List.length_eq_one_iff.mp single with ⟨last, rfl⟩
            by_cases isTool : IsTool last
            · exact Or.inr ⟨last, rfl, isTool⟩
            · exact Or.inl (attended_singleton isTool)
        · cases alone
          exact absurd rfl some

/-! ## The loop -/

theorem Reached.keepsMost (reached : Reached history budget count kept)
    {left : Nat} (enough : kept.length ≤ left) (dropped : Nat) :
    KeepsMost history budget count
      (trimFrom budget count left kept dropped).1 := by
  induction left generalizing kept dropped with
  | zero => exact ⟨reached, Or.inr (enough.trans (Nat.zero_le 1))⟩
  | succ left induction =>
      rw [trimFrom]
      split
      · next go =>
          apply induction (reached.cut go.1 go.2)
          have positive : 1 ≤ cutLength kept := Nat.le_max_left _ _
          rw [List.length_drop]
          omega
      · next stop =>
          refine ⟨reached, ?_⟩
          rw [not_and_or, Nat.not_lt, Nat.not_lt] at stop
          exact stop.symm

/-- Trimming drops messages in front and keeps the most that fits in whole
turns; a message of a tool is only left without its call as the last one. -/
theorem trimHistoryWith_keepsMost (history : List ChatMessage) (budget : Nat)
    (count : List ChatMessage → Nat) :
    KeepsMost history budget count (trimHistoryWith history budget count).1 :=
  reached_refl.keepsMost (Nat.le_refl _) 0

end

/-- A message of a tool that is alone has no call. -/
theorem not_attended_singleton {message : ChatMessage}
    (isTool : IsTool message) : ¬ Attended [message] := by
  intro attended
  rcases attended [] message [] rfl isTool with
    ⟨before, call, between, found, -, -⟩
  exact List.append_ne_nil_of_right_ne_nil before (List.cons_ne_nil _ _)
    found.symm

/-- A question, the call it led to, and what the call gave. -/
def askedTime : List ChatMessage :=
  pushToolResults
    [.user "what time is it?".toList,
      assistant [] [⟨"t1".toList, "clock".toList, "\x7b\x7d".toList⟩]]
    [(⟨"t1".toList, "clock".toList, "\x7b\x7d".toList⟩, "noon".toList)]

theorem attended_askedTime : Attended askedTime := by
  intro front message back split isTool
  rcases front with _ | ⟨user, _ | ⟨asks, _ | ⟨gives, front⟩⟩⟩
  · cases split
    exact absurd isTool (by decide)
  · cases split
    exact absurd isTool (by decide)
  · cases split
    refine ⟨[_], _, [], rfl, ⟨rfl, List.cons_ne_nil _ _⟩, ?_⟩
    exact List.forall_mem_nil _
  · have length := congrArg List.length split
    simp [askedTime, pushToolResults] at length

theorem estimateHistoryTokens_mono {shorter longer : List ChatMessage}
    (suffix : shorter <:+ longer) :
    estimateHistoryTokens shorter ≤ estimateHistoryTokens longer := by
  rcases suffix with ⟨front, rfl⟩
  rw [estimateHistoryTokens, estimateHistoryTokens, List.map_append,
    List.sum_append]
  exact Nat.le_add_left _ _

/-- Where no turn begins behind the first message, the last message is left
alone, also if it is of a tool. -/
theorem not_attended_askedTime :
    (∀ shorter longer, shorter <:+ longer →
      estimateHistoryTokens shorter ≤ estimateHistoryTokens longer) ∧
      Attended askedTime ∧
      ¬ Attended
        (trimHistoryWith askedTime 8 estimateHistoryTokens).1 := by
  refine ⟨fun _ _ => estimateHistoryTokens_mono, attended_askedTime, ?_⟩
  have alone : (trimHistoryWith askedTime 8 estimateHistoryTokens).1 =
      [⟨"tool".toList, "noon".toList, [], some "t1".toList⟩] := by
    decide +kernel
  rw [alone]
  exact not_attended_singleton rfl

/-! ## Turns -/

/-- A turn puts a message of the user behind its history. -/
theorem Attended.concat_user {history : List ChatMessage}
    (attended : Attended history) (input : Text) :
    Attended (history ++ [ChatMessage.user input]) := by
  intro front message back split isTool
  rcases List.eq_nil_or_concat back with rfl | ⟨back, last, rfl⟩
  · rw [List.append_inj_left' split rfl] at *
    have same := List.append_inj_right' split rfl
    cases same
    exact absurd isTool (not_isTool_user input)
  · rw [List.concat_eq_append, ← List.cons_append, ← List.append_assoc]
      at split
    exact attended front message back (List.append_inj_left' split rfl)
      isTool

/-- No message of a tool loses its call in a turn. -/
theorem attended_trimmed (session : Session) (input : Text)
    (engine : ChatEngine) (attended : Attended session.history) :
    Attended (trimmed session input engine).1 := by
  have keeps : KeepsMost (session.history ++ [ChatMessage.user input])
      (budget session) (historyTokens engine)
      (trimmed session input engine).1 :=
    reached_refl.keepsMost (Nat.le_refl _) 0
  rcases keeps.attended (attended.concat_user input) with
    kept | ⟨last, alone, isTool⟩
  · exact kept
  · have same := keeps.last
    rw [alone, List.getLast?_singleton, List.getLast?_concat,
      Option.some.injEq] at same
    rw [same] at isTool
    exact absurd isTool (not_isTool_user input)

end Runa.App.TrimmedHistory
