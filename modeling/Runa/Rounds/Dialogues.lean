import Mathlib.Data.List.Basic

/-!
# Dialogues

A client asks, and asks again with what it makes of the reply, until a reply
ends the dialogue, no reply comes, or it has asked too often.  The other side
may answer by everything that it was asked so far.
-/

namespace Runa.Rounds.Dialogues

variable {α β ε : Type}

/-- How a dialogue ends. -/
inductive Ending (ε : Type) where
  | answered
  | failed (error : ε)
  | exhausted
deriving DecidableEq

/-- What was asked, what was replied, and how it ended. -/
structure Dialogue (α β ε : Type) where
  asked : List α
  replies : List β
  ending : Ending ε

/-- The requests that follow on the first one, each on a reply. -/
def follow (next : α → β → α) : α → List β → List α
  | first, [] => [first]
  | first, reply :: replies =>
      first :: follow next (next first reply) replies

section

variable (answer : List α → Except ε β) (goesOn : β → Bool)
  (next : α → β → α)

/-- A dialogue of at most so many requests behind others. -/
def talk : Nat → List α → α → Dialogue α β ε
  | 0, _, _ => ⟨[], [], .exhausted⟩
  | left + 1, before, request =>
      match answer (before ++ [request]) with
      | .error error => ⟨[request], [], .failed error⟩
      | .ok reply =>
          if goesOn reply then
            let rest := talk left (before ++ [request]) (next request reply)
            ⟨request :: rest.asked, reply :: rest.replies, rest.ending⟩
          else ⟨[request], [reply], .answered⟩

/-- What a dialogue tells of its replies, behind some requests. -/
structure Faithful (left : Nat) (before : List α)
    (dialogue : Dialogue α β ε) : Prop where
  bounded : dialogue.asked.length ≤ left
  heard : ∀ (i : Nat) (reply : β), dialogue.replies[i]? = some reply →
    answer (before ++ dialogue.asked.take (i + 1)) = .ok reply
  more : ∀ (i : Nat) (reply : β), dialogue.replies[i]? = some reply →
    i + 1 < dialogue.asked.length → goesOn reply = true
  ends :
    match dialogue.ending with
    | .answered =>
        dialogue.replies.length = dialogue.asked.length ∧
          ∃ reply, dialogue.replies.getLast? = some reply ∧
            goesOn reply = false
    | .failed error =>
        dialogue.replies.length + 1 = dialogue.asked.length ∧
          answer (before ++ dialogue.asked) = .error error
    | .exhausted =>
        dialogue.asked.length = left ∧ dialogue.replies.length = left ∧
          ∀ reply ∈ dialogue.replies, goesOn reply = true

end

variable {answer : List α → Except ε β} {goesOn : β → Bool}
  {next : α → β → α}

/-- What is asked follows from the first request and the replies. -/
theorem asked_talk (left : Nat) (before : List α) (request : α) :
    (talk answer goesOn next left before request).asked =
      (follow next request
        (talk answer goesOn next left before request).replies).take
        (talk answer goesOn next left before request).asked.length := by
  induction left generalizing before request with
  | zero => rfl
  | succ left ih =>
      rw [talk]
      cases answer (before ++ [request]) with
      | error error => rfl
      | ok reply =>
          simp only
          split_ifs
          · simp only [follow, List.length_cons, List.take_succ_cons]
            rw [← ih]
          · simp [follow]

/-- A reply that goes on in front of a faithful dialogue. -/
theorem Faithful.goes {left : Nat} {before : List α} {request : α}
    {reply : β} {later : Dialogue α β ε}
    (rest : Faithful answer goesOn left (before ++ [request]) later)
    (heard : answer (before ++ [request]) = .ok reply)
    (speaks : goesOn reply = true) :
    Faithful answer goesOn (left + 1) before
      ⟨request :: later.asked, reply :: later.replies, later.ending⟩ := by
  refine
    { bounded := Nat.succ_le_succ rest.bounded
      heard := ?_
      more := ?_
      ends := ?_ }
  · intro i other found
    cases i with
    | zero =>
        cases found
        exact heard
    | succ i =>
        have same := rest.heard i other found
        rw [List.append_assoc] at same
        exact same
  · intro i other found short
    cases i with
    | zero =>
        cases found
        exact speaks
    | succ i =>
        exact rest.more i other found (Nat.lt_of_succ_lt_succ short)
  · have ends := rest.ends
    cases ending : later.ending with
    | answered =>
        rw [ending] at ends
        rcases ends with ⟨count, last, found, stops⟩
        refine ⟨congrArg Nat.succ count, last, ?_, stops⟩
        cases replies : later.replies with
        | nil =>
            rw [replies] at found
            cases found
        | cons first others =>
            rw [replies] at found
            rw [List.getLast?_cons_cons]
            exact found
    | failed error =>
        rw [ending] at ends
        refine ⟨congrArg Nat.succ ends.1, ?_⟩
        have fails := ends.2
        rw [List.append_assoc] at fails
        exact fails
    | exhausted =>
        rw [ending] at ends
        refine ⟨congrArg Nat.succ ends.1,
          congrArg Nat.succ ends.2.1, ?_⟩
        intro other member
        rcases List.mem_cons.mp member with rfl | member
        · exact speaks
        · exact ends.2.2 other member

/-- A reply that does not go on ends a dialogue. -/
theorem Faithful.stops {left : Nat} {before : List α} {request : α}
    {reply : β} (heard : answer (before ++ [request]) = .ok reply)
    (quiet : goesOn reply = false) :
    Faithful answer goesOn (left + 1) before
      ⟨[request], [reply], .answered⟩ where
  bounded := Nat.succ_le_succ (Nat.zero_le _)
  heard i other found := by
    cases i with
    | zero =>
        cases found
        exact heard
    | succ i => cases found
  more i other found short := by
    cases i with
    | zero => exact absurd short (Nat.lt_irrefl _)
    | succ i => cases found
  ends := ⟨rfl, reply, rfl, quiet⟩

variable (answer goesOn next) in
theorem faithful_talk (left : Nat) (before : List α) (request : α) :
    Faithful answer goesOn left before
      (talk answer goesOn next left before request) := by
  induction left generalizing before request with
  | zero =>
      rw [talk]
      exact
        { bounded := Nat.le_refl _
          heard := fun i reply none => by cases none
          more := fun i reply none => by cases none
          ends := ⟨rfl, rfl, fun reply none => by cases none⟩ }
  | succ left ih =>
      rw [talk]
      cases heard : answer (before ++ [request]) with
      | error error =>
          exact
            { bounded := Nat.succ_le_succ (Nat.zero_le _)
              heard := fun i reply none => by cases none
              more := fun i reply none => by cases none
              ends := ⟨rfl, heard⟩ }
      | ok reply =>
          simp only
          split_ifs with speaks
          · exact (ih (before ++ [request]) (next request reply)).goes heard
              speaks
          · exact .stops heard (Bool.eq_false_iff.mpr speaks)

theorem follow_getElem? (first : α) (replies : List β) {i : Nat}
    (short : i ≤ replies.length) :
    (follow next first replies)[i]? =
      some ((replies.take i).foldl next first) := by
  induction replies generalizing first i with
  | nil =>
      rw [Nat.le_zero.mp short]
      rfl
  | cons reply replies ih =>
      cases i with
      | zero => rfl
      | succ i => exact ih (next first reply) (Nat.le_of_succ_le_succ short)

/-- The request of a dialogue after so many replies. -/
theorem getElem?_asked {left : Nat} {before : List α} {request : α}
    {i : Nat} {asked : α}
    (found :
      (talk answer goesOn next left before request).asked[i]? =
        some asked) :
    asked =
      ((talk answer goesOn next left before request).replies.take i).foldl
        next request := by
  have faithful := faithful_talk answer goesOn next left before request
  have short := (List.getElem?_eq_some_iff.mp found).1
  have enough :
      i ≤ (talk answer goesOn next left before request).replies.length := by
    have ends := faithful.ends
    split at ends <;> omega
  rw [asked_talk, List.getElem?_take_of_lt short,
    follow_getElem? request _ enough, Option.some.injEq] at found
  exact found.symm

end Runa.Rounds.Dialogues
