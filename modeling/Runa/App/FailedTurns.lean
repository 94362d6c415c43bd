import Runa.App.ChatHistory

/-!
# Failed turns

A turn puts its input into the history and trims it before the engine is
asked, and does not take this back when it fails.  A failed turn therefore
leaves the history as it was only if the messages that stay happen to be the
messages that were there.
-/

namespace Runa.App.FailedTurns

open Runa.App.Chat
open Runa.App.ChatHistory
open Runa.App.DaemonProto
open Runa.Engine.Generate
open Runa.Engine.Requests
open Runa.Stream.Utf8

/-! ## Trimming -/

theorem cutLength_lt {history : List ChatMessage}
    (more : 1 < history.length) : cutLength history < history.length := by
  rw [cutLength, max_lt_iff]
  use more
  cases found : (history.drop 1).findIdx? _ with
  | none => exact Nat.sub_lt (by omega) Nat.one_pos
  | some index =>
      have within := (List.findIdx?_eq_some_iff_getElem.mp found).1
      rw [List.length_drop] at within
      exact Nat.add_lt_of_lt_sub within

/-- Messages are dropped in front, and never the last one. -/
theorem trimFrom_eq (budget : Nat) (count : List ChatMessage → Nat)
    (left : Nat) {history : List ChatMessage} (some : history ≠ [])
    (dropped : Nat) :
    ∃ more < history.length,
      trimFrom budget count left history dropped =
        (history.drop more, dropped + more) := by
  induction left generalizing history dropped with
  | zero => exact ⟨0, List.length_pos_iff.mpr some, rfl⟩
  | succ left ih =>
      rw [trimFrom]
      split
      · next large =>
          have cut := cutLength_lt large.1
          have rest : history.drop (cutLength history) ≠ [] := by
            rw [ne_eq, List.drop_eq_nil_iff]
            exact not_le.mpr cut
          obtain ⟨more, within, result⟩ :=
            ih rest (dropped + cutLength history)
          rw [List.length_drop] at within
          refine ⟨cutLength history + more, by omega, ?_⟩
          rw [result, List.drop_drop, Nat.add_assoc]
      · exact ⟨0, List.length_pos_iff.mpr some, rfl⟩

theorem trimmed_eq (session : Session) (input : Text) (engine : ChatEngine) :
    (trimmed session input engine).2 < session.history.length + 1 ∧
      (trimmed session input engine).1 =
        (session.history ++ [ChatMessage.user input]).drop
          (trimmed session input engine).2 := by
  have some : session.history ++ [ChatMessage.user input] ≠ [] :=
    List.append_ne_nil_of_right_ne_nil _ (List.cons_ne_nil _ _)
  obtain ⟨more, within, result⟩ :=
    trimFrom_eq (budget session) (historyTokens engine)
      (session.history ++ [ChatMessage.user input]).length some 0
  rw [List.length_append, List.length_singleton] at within
  rw [trimmed, trimHistoryWith, result, Nat.zero_add]
  exact ⟨within, rfl⟩

/-! ## Failing -/

/-- The two front ends. -/
inductive Frontend where
  | editor
  | screen

def takeTurn : Frontend → Outside → ChatEngine → Text → Session →
    Session × List Text
  | .editor => chatTurn
  | .screen => tuiTurn

/-- A turn fails where it shows an error. -/
def Fails (frontend : Frontend) (outside : Outside) (engine : ChatEngine)
    (input : Text) (session : Session) : Prop :=
  (takeTurn frontend outside engine input session).2 ≠ []

/-- What was said before an error of the daemon; only the screen records
it. -/
def saidBefore (outside : Outside) (input : Text) (session : Session) :
    Frontend → ChatEngine → List ChatMessage
  | .screen, .daemon none =>
    match daemonReply outside input session with
    | .error _ => []
    | .ok events => answerMessage (said events)
  | _, _ => []

section

variable {outside : Outside} {input : Text} {session : Session}

theorem localTurn_failed
    {step : Turning → List (ToolCall × Text) →
      Except Text (List ToolCall) × Turning}
    {request : GenerateRequest}
    (fails : (localTurn step session request).2 ≠ []) :
    (localTurn step session request).1.history = session.history := by
  rw [localTurn] at fails ⊢
  generalize toolLoop session.maxToolRounds.toNat (callWith session.hub) step
    ⟨request, none, [], 0⟩ = both at fails ⊢
  obtain ⟨done, after⟩ := both
  cases done with
  | ok _ => exact absurd rfl fails
  | error error => rfl

theorem chatTurn_failed {engine : ChatEngine}
    (fails : (chatTurn outside engine input session).2 ≠ []) :
    (chatTurn outside engine input session).1.history =
      (trimmed session input engine).1 := by
  cases engine with
  | managed model => exact localTurn_failed fails
  | daemon loaded =>
      cases loaded with
      | some tokens => exact localTurn_failed fails
      | none =>
          cases reply : daemonReply outside input session with
          | error error =>
              rw [chatTurn_unreached reply]
              rfl
          | ok events =>
              obtain ⟨history, errors⟩ := chatTurn_reached reply
              have some : errorsOf events ≠ [] := by
                intro none
                rw [errors, none] at fails
                exact fails rfl
              rw [history, if_neg some, List.append_nil]

theorem tuiTurn_failed {engine : ChatEngine}
    (fails : (tuiTurn outside engine input session).2 ≠ []) :
    (tuiTurn outside engine input session).1.history =
      (trimmed session input engine).1 ++
        saidBefore outside input session .screen engine := by
  cases engine with
  | managed model =>
      rw [saidBefore, List.append_nil]
      · exact localTurn_failed fails
      · intro _ same
        cases same
  | daemon loaded =>
      cases loaded with
      | some tokens =>
          rw [saidBefore, List.append_nil]
          · exact localTurn_failed fails
          · intro _ same
            cases same
      | none =>
          rw [saidBefore]
          cases reply : daemonReply outside input session with
          | error error =>
              rw [tuiTurn_unreached reply, List.append_nil]
              rfl
          | ok events => exact (tuiTurn_reached reply).1

/-- A failed turn leaves the messages it sent, and what the screen heard. -/
theorem failed_history {frontend : Frontend} {engine : ChatEngine}
    (fails : Fails frontend outside engine input session) :
    (takeTurn frontend outside engine input session).1.history =
      (trimmed session input engine).1 ++
        saidBefore outside input session frontend engine := by
  cases frontend with
  | editor =>
      rw [saidBefore, List.append_nil]
      · exact chatTurn_failed fails
      · intro same
        cases same
  | screen => exact tuiTurn_failed fails

end

/-! ## When nothing is recorded -/

theorem append_singleton_eq_cons_iff {α : Type} (rest : List α)
    (first value : α) :
    rest ++ [value] = first :: rest ↔
      ∀ other ∈ first :: rest, other = value := by
  induction rest generalizing first with
  | nil =>
      rw [List.nil_append, List.forall_mem_singleton, List.cons_eq_cons]
      simp [eq_comm]
  | cons second later ih =>
      rw [List.cons_append, List.cons_eq_cons, ih second]
      constructor
      · rintro ⟨same, alike⟩
        exact List.forall_mem_cons.mpr
          ⟨same ▸ alike second List.mem_cons_self, alike⟩
      · intro alike
        obtain ⟨here, rest⟩ := List.forall_mem_cons.mp alike
        exact ⟨(rest second List.mem_cons_self).trans here.symm, rest⟩

/-- A list that moves on by one is the list again if it holds nothing but
the value behind it. -/
theorem drop_one_eq_iff {α : Type} (list : List α) (value : α) :
    (list ++ [value]).drop 1 = list ↔ ∀ other ∈ list, other = value := by
  cases list with
  | nil => simp
  | cons first rest => exact append_singleton_eq_cons_iff rest first value

/-- What stays of a list and what is put behind it make it up again only if
as much was dropped. -/
theorem drop_append_eq_iff {α : Type} {list heard : List α} {value : α}
    {dropped : Nat} (within : dropped < list.length + 1) :
    (list ++ [value]).drop dropped ++ heard = list ↔
      dropped = heard.length + 1 ∧
        (list ++ [value]).drop (heard.length + 1) ++ heard = list := by
  constructor
  · intro same
    have lengths := congrArg List.length same
    rw [List.length_append, List.length_drop, List.length_append,
      List.length_singleton] at lengths
    have count : dropped = heard.length + 1 := by omega
    exact ⟨count, count ▸ same⟩
  · rintro ⟨rfl, same⟩
    exact same

/-- The messages that a failed turn leaves are those that were there: as
many were dropped as it adds, and the others are alike. -/
def Coincides (frontend : Frontend) (outside : Outside)
    (engine : ChatEngine) (input : Text) (session : Session) : Prop :=
  match saidBefore outside input session frontend engine with
  | [] =>
    (trimmed session input engine).2 = 1 ∧
      ∀ message ∈ session.history, message = ChatMessage.user input
  | heard =>
    (trimmed session input engine).2 = heard.length + 1 ∧
      (session.history ++ [ChatMessage.user input]).drop
          (heard.length + 1) ++ heard =
        session.history

/-- A failed turn leaves the history as it was exactly if the messages that
stay coincide with those that were there. -/
theorem unrecorded_iff {frontend : Frontend} {outside : Outside}
    {engine : ChatEngine} {input : Text} {session : Session}
    (fails : Fails frontend outside engine input session) :
    (takeTurn frontend outside engine input session).1.history =
        session.history ↔
      Coincides frontend outside engine input session := by
  obtain ⟨within, sent⟩ := trimmed_eq session input engine
  rw [failed_history fails, sent, drop_append_eq_iff within, Coincides]
  cases saidBefore outside input session frontend engine with
  | nil =>
      rw [List.append_nil]
      exact and_congr_right fun _ => drop_one_eq_iff _ _
  | cons message more => rfl

/-! ## A turn that fails at once -/

/-- The engine does not get to reply. -/
def silentOutside : Outside :=
  given false (fun _ => .error "decode failed".toList)
    (.error "dial failed".toList)

/-- The input of a failed turn stays behind. -/
theorem unrecorded_not :
    Fails .editor silentOutside (.managed .mistral) "Hi".toList
        freshSession ∧
      (takeTurn .editor silentOutside (.managed .mistral) "Hi".toList
        freshSession).1.history ≠ freshSession.history := by
  constructor
  · unfold Fails
    decide +kernel
  · decide +kernel

/-- A history of one message that is repeated in a context for one. -/
def tightSession : Session :=
  { freshSession with
    ctx := 10
    history := [.user "Hi".toList] }

/-- In a context for one message, a message that fails twice stays the
same. -/
theorem unrecorded_tight :
    (takeTurn .editor silentOutside (.managed .mistral) "Hi".toList
        tightSession).1.history = tightSession.history := by
  apply (unrecorded_iff _).mpr
  · constructor
    · decide +kernel
    · exact List.forall_mem_singleton.mpr rfl
  · unfold Fails
    decide +kernel

end Runa.App.FailedTurns
