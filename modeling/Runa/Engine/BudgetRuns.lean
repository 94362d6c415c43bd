import Mathlib.Data.List.DropRight
import Runa.Engine.GenerateRun

/-!
# The budget over many tokens

`observe_budget` tells two clocks after every token whether it is inside of a
reasoning block: the clock of the budget, and a counter without a limit whose
differences add up to `reasoning_tokens`.  Here both are compared with the
calls themselves, over any number of blocks (`meters_follow`).
-/

namespace Runa.Engine.BudgetRuns

open Runa.Core.Think
open Runa.Engine.Generate

/-! ## The calls -/

/-- One call of `observe`. -/
structure Call where
  inReason : Bool
  holdingPartial : Bool
deriving DecidableEq, Repr

/-- A clock after some calls. -/
def observed (clock : BudgetClock) (calls : List Call) : BudgetClock :=
  calls.foldl
    (fun clock call => clock.observe call.inReason call.holdingPartial) clock

/-- What `observe_budget` keeps of the tokens. -/
structure Meters where
  budget : Option BudgetClock
  reasonCounter : BudgetClock
  reasoningTokens : UInt32

/-- The meters of a new generation. -/
def Meters.start (budget : Option BudgetClock) : Meters where
  budget := budget
  reasonCounter := .new 4294967295 0
  reasoningTokens := 0

def Meters.observe (meters : Meters) (call : Call) : Meters :=
  let counter :=
    meters.reasonCounter.observe call.inReason call.holdingPartial
  { budget := meters.budget.map fun clock =>
      clock.observe call.inReason call.holdingPartial
    reasonCounter := counter
    reasoningTokens :=
      saturatingAdd meters.reasoningTokens
        (saturatingSub counter.counted meters.reasonCounter.counted) }

def Meters.run (meters : Meters) (calls : List Call) : Meters :=
  calls.foldl Meters.observe meters

section

variable {Context Sampler Decoder Logit : Type}

def metersOf (generation : Generation Context Sampler Decoder) :
    Meters where
  budget := generation.budget
  reasonCounter := generation.reasonCounter
  reasoningTokens := generation.reasoningTokens

/-- `observe_budget` is one call, with what the parser says. -/
theorem metersOf_observeBudget
    (backend : Backend Context Sampler Decoder Logit)
    (generation : Generation Context Sampler Decoder) :
    metersOf (generation.observeBudget backend) =
      (metersOf generation).observe
        ⟨generation.reason.inReason, generation.reason.holdingPartial⟩ := by
  rw [observeBudget_eq]
  rfl

end

/-- Whether the last call was inside of a block. -/
def insideBlock (calls : List Call) : Bool :=
  (calls.getLast?.map Call.inReason).getD false

/-- The calls of the current block, behind the one that opened it. -/
def body (calls : List Call) : Nat :=
  (calls.rtakeWhile Call.inReason).length - 1

/-- The calls that are inside of a block, as the one before is. -/
def bodies (calls : List Call) : Nat :=
  (calls.zip calls.tail).countP fun pair =>
    pair.1.inReason && pair.2.inReason

section

variable {calls : List Call} {call : Call}

theorem insideBlock_concat :
    insideBlock (calls ++ [call]) = call.inReason := by
  rw [insideBlock, List.getLast?_concat, Option.map_some, Option.getD_some]

/-- The current block, where there is none. -/
theorem block_of_outside (outside : insideBlock calls = false) :
    calls.rtakeWhile Call.inReason = [] := by
  rcases List.eq_nil_or_concat calls with rfl | ⟨front, last, rfl⟩
  · exact List.rtakeWhile_nil _
  · rw [List.concat_eq_append, insideBlock_concat] at outside
    rw [List.concat_eq_append]
    exact List.rtakeWhile_concat_neg _ _ _
      (outside ▸ Bool.false_ne_true)

/-- The current block has the call that opened it. -/
theorem length_block (inside : insideBlock calls = true) :
    (calls.rtakeWhile Call.inReason).length = body calls + 1 := by
  rcases List.eq_nil_or_concat calls with rfl | ⟨front, last, rfl⟩
  · cases inside
  · rw [List.concat_eq_append, insideBlock_concat] at inside
    rw [body, List.concat_eq_append, List.rtakeWhile_concat_pos _ _ _ inside,
      List.length_append, List.length_singleton, Nat.add_sub_cancel]

theorem body_of_outside (outside : insideBlock calls = false) :
    body calls = 0 := by
  rw [body, block_of_outside outside]
  rfl

theorem body_concat :
    body (calls ++ [call]) =
      nextBody (insideBlock calls) call.inReason (body calls) := by
  cases now : call.inReason with
  | false =>
      rw [nextBody, Bool.and_false, if_neg Bool.false_ne_true]
      exact body_of_outside (insideBlock_concat.trans now)
  | true =>
      rw [body, List.rtakeWhile_concat_pos _ _ _ now, List.length_append,
        List.length_singleton, Nat.add_sub_cancel, nextBody, Bool.and_true]
      cases inside : insideBlock calls with
      | true => exact length_block inside
      | false =>
          rw [block_of_outside inside]
          rfl

theorem bodies_concat :
    bodies (calls ++ [call]) =
      bodies calls +
        if insideBlock calls && call.inReason then 1 else 0 := by
  cases calls with
  | nil => rfl
  | cons first rest =>
      induction rest generalizing first with
      | nil =>
          change List.countP _ [(first, call)] = _
          rw [List.countP_singleton]
          exact (Nat.zero_add _).symm
      | cons second rest induction =>
          have step : ∀ tail : List Call,
              bodies (first :: second :: tail) =
                bodies (second :: tail) +
                  if first.inReason && second.inReason then 1 else 0 :=
            fun tail => List.countP_cons
          have last : insideBlock (first :: second :: rest) =
              insideBlock (second :: rest) := by
            rw [insideBlock, List.getLast?_cons_cons, insideBlock]
          rw [List.cons_append, List.cons_append, step, step, last,
            ← List.cons_append, induction]
          omega

theorem body_lt_length (some : calls ≠ []) : body calls < calls.length := by
  have sub : (calls.rtakeWhile Call.inReason).length ≤ calls.length :=
    (List.rtakeWhile_suffix _ _).length_le
  have positive := List.length_pos_iff.mpr some
  rw [body]
  omega

end

/-! ## One call -/

section

variable {clock : BudgetClock} {before : Bool} {count : Nat}

/-- Outside of a block nothing is counted. -/
theorem counted_observe_false (clock : BudgetClock) (holding : Bool) :
    (clock.observe false holding).counted = clock.counted := by
  unfold BudgetClock.observe
  split_ifs <;> simp_all

/-- Nothing is counted where a block opens. -/
theorem counted_observe_open (counts : clock.Counts false count)
    (holding : Bool) : (clock.observe true holding).counted = 0 := by
  have notForcing : clock.forcing = false := by
    cases forcing : clock.forcing with
    | false => rfl
    | true => cases (counts.forced forcing).1
  cases done : clock.done with
  | true => simp [BudgetClock.observe, done, counts.was, BudgetClock.new]
  | false =>
      simpa [BudgetClock.observe, done, notForcing, counts.was] using
        counts.idle rfl done

/-- Inside of a block one token is counted, or none. -/
theorem counted_observe_le (clock : BudgetClock) (holding : Bool) :
    (clock.observe true holding).counted.toNat ≤
      clock.counted.toNat + 1 := by
  unfold BudgetClock.observe
  split_ifs
  · exact Nat.zero_le _
  · exact Nat.le_succ _
  · simp_all
  · exact Nat.le_succ _
  · rw [saturatingAdd_one_toNat]
    exact Nat.min_le_left _ _
  · simp_all
  · exact Nat.le_succ _

/-- What is spent stays spent to the end of the block. -/
theorem spent_observe (more : clock.done = false)
    (spent : clock.budget ≤ clock.counted) (holding : Bool) :
    (clock.observe true holding).done = false ∧
      (clock.observe true holding).budget ≤
        (clock.observe true holding).counted := by
  unfold BudgetClock.observe
  rw [if_neg (more ▸ Bool.false_ne_true)]
  cases clock.forcing with
  | true => exact ⟨more, spent⟩
  | false =>
      cases clock.wasInReason with
      | false => exact ⟨more, spent⟩
      | true =>
          refine ⟨more, ?_⟩
          change clock.budget ≤ saturatingAdd clock.counted 1
          have word := clock.counted.toNat_lt
          rw [UInt32.le_iff_toNat_le] at spent ⊢
          rw [saturatingAdd_one_toNat]
          omega

end

/-! ## The clock of the budget -/

/-- The clock has followed the calls, and counted no more than they are. -/
structure Followed (clock : BudgetClock) (calls : List Call) : Prop where
  counts : clock.Counts (insideBlock calls) (body calls)
  within : clock.done = false → clock.counted.toNat ≤ body calls

theorem followed_new (budget grace : UInt32) :
    Followed (.new budget grace) [] where
  counts := BudgetClock.counts_new budget grace
  within _ := Nat.zero_le _

section

variable {clock : BudgetClock} {calls : List Call}

theorem Followed.observe (followed : Followed clock calls) (call : Call) :
    Followed (clock.observe call.inReason call.holdingPartial)
      (calls ++ [call]) where
  counts := by
    rw [insideBlock_concat, body_concat]
    exact followed.counts.observe _ _
  within := by
    intro more
    rw [body_concat]
    cases now : call.inReason with
    | false =>
        rw [now] at more
        rw [(followed.counts.observe false _).idle rfl more]
        exact Nat.zero_le _
    | true =>
        cases inside : insideBlock calls with
        | false =>
            have counts := followed.counts
            rw [inside] at counts
            rw [counted_observe_open counts]
            exact Nat.zero_le _
        | true =>
            have counts := followed.counts
            rw [inside] at counts
            exact (counted_observe_le clock _).trans
              (Nat.succ_le_succ (followed.within counts.not_done))

/-- The clock follows any calls. -/
theorem followed_observed (budget grace : UInt32) (calls : List Call) :
    Followed (observed (.new budget grace) calls) calls := by
  induction calls using List.reverseRecOn with
  | nil => exact followed_new budget grace
  | append_singleton calls call induction =>
      rw [observed, List.foldl_concat]
      exact induction.observe call

theorem observe_grace (clock : BudgetClock) (inReason holding : Bool) :
    (clock.observe inReason holding).grace = clock.grace := by
  unfold BudgetClock.observe
  split_ifs <;> rfl

theorem limits_observed (clock : BudgetClock) (calls : List Call) :
    (observed clock calls).budget = clock.budget ∧
      (observed clock calls).grace = clock.grace := by
  induction calls generalizing clock with
  | nil => exact ⟨rfl, rfl⟩
  | cons call rest induction =>
      rcases induction (clock.observe call.inReason call.holdingPartial) with
        ⟨budget, grace⟩
      rw [clock.observe_budget] at budget
      rw [observe_grace] at grace
      exact ⟨budget, grace⟩

theorem of_kind_eq_force {inReason holding : Bool}
    (force : clock.kind inReason holding = .force) :
    clock.done = false ∧ inReason = true ∧ holding = false ∧
      (clock.forcing = true ∨ clock.budget ≤ clock.counted) := by
  unfold BudgetClock.kind at force
  split_ifs at force with rests forces near
  rw [Bool.or_eq_true, not_or, Bool.not_eq_true, Bool.not_eq_true'] at rests
  rw [Bool.and_eq_true, Bool.or_eq_true, decide_eq_true_eq,
    Bool.not_eq_true'] at forces
  exact ⟨rests.1, by simpa using rests.2, forces.2, forces.1⟩

theorem of_kind_eq_bias {inReason holding : Bool}
    (bias : clock.kind inReason holding = .bias) :
    clock.done = false ∧ inReason = true ∧
      clock.biasAt ≤ clock.counted := by
  unfold BudgetClock.kind at bias
  split_ifs at bias with rests forces near
  rw [Bool.or_eq_true, not_or, Bool.not_eq_true, Bool.not_eq_true'] at rests
  exact ⟨rests.1, by simpa using rests.2, near⟩

/-- What is spent stays spent over any calls inside of the block. -/
theorem spent_observed (more : clock.done = false)
    (spent : clock.budget ≤ clock.counted) {later : List Call}
    (inside : ∀ call ∈ later, call.inReason = true) :
    (observed clock later).kind true false = .force := by
  induction later generalizing clock with
  | nil =>
      change clock.kind true false = .force
      simp [BudgetClock.kind, more, spent]
  | cons call rest induction =>
      rcases List.forall_mem_cons.mp inside with ⟨here, there⟩
      rcases spent_observe more spent call.holdingPartial with
        ⟨still, enough⟩
      rw [observed, List.foldl_cons, here]
      exact induction still enough there

theorem toNat_saturatingSub (left right : UInt32) :
    (saturatingSub left right).toNat = left.toNat - right.toNat := by
  rw [saturatingSub]
  split
  case isTrue within => exact UInt32.toNat_sub_of_le _ _ within
  case isFalse more =>
    rw [UInt32.le_iff_toNat_le] at more
    change 0 = _
    omega

/-- What a clock says after some calls, as the calls have it. -/
structure Follows (budget grace : UInt32) (calls : List Call)
    (clock : BudgetClock) : Prop where
  counted : insideBlock calls = true → clock.forcing = false →
    clock.counted.toNat = body calls
  force : ∀ inReason holding, clock.kind inReason holding = .force →
    inReason = true ∧ holding = false ∧ budget.toNat ≤ body calls
  lasts : clock.kind true false = .force →
    ∀ later : List Call, (∀ call ∈ later, call.inReason = true) →
      (observed clock later).kind true false = .force
  bias : ∀ inReason holding, clock.kind inReason holding = .bias →
    inReason = true ∧ budget.toNat - grace.toNat ≤ body calls

theorem Followed.spent (followed : Followed clock calls)
    {inReason holding : Bool}
    (force : clock.kind inReason holding = .force) :
    clock.done = false ∧ clock.budget ≤ clock.counted := by
  rcases of_kind_eq_force force with ⟨more, -, -, forcing | spent⟩
  · exact ⟨more, (followed.counts.forced forcing).2⟩
  · exact ⟨more, spent⟩

/-- The calls of a block are fewer than all. -/
theorem body_lt_of_inside {limit : Nat} (inside : insideBlock calls = true)
    (short : calls.length < limit) : body calls < limit := by
  apply (body_lt_length ?_).trans short
  rintro rfl
  cases inside

theorem Followed.follows {budget grace : UInt32}
    (followed : Followed clock calls)
    (limits : clock.budget = budget ∧ clock.grace = grace)
    (short : calls.length < 4294967295) :
    Follows budget grace calls clock := by
  rcases limits with ⟨rfl, rfl⟩
  constructor
  · intro inside notForcing
    have few := body_lt_of_inside inside short
    rcases followed.counts.inside inside with exact | forcing
    · omega
    · rw [notForcing] at forcing
      cases forcing
  · intro inReason holding force
    rcases followed.spent force with ⟨more, spent⟩
    rcases of_kind_eq_force force with ⟨-, inside, quiet, -⟩
    exact ⟨inside, quiet, Nat.le_trans spent (followed.within more)⟩
  · intro force later inside
    rcases followed.spent force with ⟨more, spent⟩
    exact spent_observed more spent inside
  · intro inReason holding bias
    rcases of_kind_eq_bias bias with ⟨more, inside, near⟩
    refine ⟨inside, ?_⟩
    rw [← toNat_saturatingSub]
    exact Nat.le_trans near (followed.within more)

end

/-! ## The counter without a limit -/

section

variable {meters : Meters} {calls : List Call}

/-- The counter has followed the calls, and the total is that of all blocks. -/
structure Tallied (meters : Meters) (calls : List Call) : Prop where
  followed : Followed meters.reasonCounter calls
  unlimited : meters.reasonCounter.budget = 4294967295
  total : meters.reasoningTokens.toNat = bodies calls

theorem tallied_start (budget : Option BudgetClock) :
    Tallied (.start budget) [] where
  followed := followed_new _ _
  unlimited := rfl
  total := rfl

theorem bodies_le_length (calls : List Call) :
    bodies calls ≤ calls.length := by
  apply List.countP_le_length.trans
  rw [List.length_zip]
  exact Nat.min_le_left _ _

/-- A clock without a limit counts all calls of a block. -/
theorem Followed.counted_eq_body {clock : BudgetClock}
    (followed : Followed clock calls)
    (unlimited : clock.budget = 4294967295)
    (inside : insideBlock calls = true)
    (short : calls.length < 4294967295) :
    clock.counted.toNat = body calls := by
  have few := body_lt_of_inside inside short
  rcases followed.counts.inside inside with exact | forcing
  · omega
  · have spent := (followed.counts.forced forcing).2
    have notDone : clock.done = false := by
      cases done : clock.done with
      | false => rfl
      | true =>
          rw [followed.counts.outside done] at inside
          cases inside
    rw [unlimited, UInt32.le_iff_toNat_le] at spent
    change 4294967295 ≤ _ at spent
    have within := followed.within notDone
    omega

/-- The difference that one call makes. -/
theorem Tallied.delta (tallied : Tallied meters calls) (call : Call)
    (short : (calls ++ [call]).length < 4294967295) :
    (saturatingSub (meters.observe call).reasonCounter.counted
        meters.reasonCounter.counted).toNat =
      if insideBlock calls && call.inReason then 1 else 0 := by
  have next := tallied.followed.observe call
  rw [toNat_saturatingSub]
  change (meters.reasonCounter.observe call.inReason
    call.holdingPartial).counted.toNat - _ = _
  have unlimited :=
    (meters.reasonCounter.observe_budget call.inReason
      call.holdingPartial).trans tallied.unlimited
  cases now : call.inReason with
  | false =>
      rw [counted_observe_false, Nat.sub_self, Bool.and_false]
      rfl
  | true =>
      cases inside : insideBlock calls with
      | false =>
          have counts := tallied.followed.counts
          rw [inside] at counts
          rw [counted_observe_open counts]
          exact Nat.zero_sub _
      | true =>
          have before := tallied.followed.counted_eq_body tallied.unlimited
            inside (lt_of_le_of_lt (by simp) short)
          have after := next.counted_eq_body unlimited
            (insideBlock_concat.trans now) short
          rw [body_concat, inside, now] at after
          rw [after, before]
          exact Nat.add_sub_cancel_left _ _

theorem toNat_saturatingAdd {left right : UInt32}
    (fits : left.toNat + right.toNat < UInt32.size) :
    (saturatingAdd left right).toNat = left.toNat + right.toNat := by
  rw [saturatingAdd, if_pos fits, UInt32.toNat_add]
  exact Nat.mod_eq_of_lt fits

/-- One call more. -/
theorem Tallied.observe (tallied : Tallied meters calls) (call : Call)
    (short : (calls ++ [call]).length < 4294967295) :
    Tallied (meters.observe call) (calls ++ [call]) where
  followed := tallied.followed.observe call
  unlimited := (BudgetClock.observe_budget _ _ _).trans tallied.unlimited
  total := by
    have sum : bodies (calls ++ [call]) = _ := bodies_concat
    have most := bodies_le_length (calls ++ [call])
    rw [← tallied.delta call short, ← tallied.total] at sum
    rw [sum]
    apply toNat_saturatingAdd
    exact (sum.symm.trans_le most).trans_lt (short.trans (by decide))

/-- Any calls. -/
theorem tallied_run (budget : Option BudgetClock) (calls : List Call)
    (short : calls.length < 4294967295) :
    Tallied ((Meters.start budget).run calls) calls := by
  induction calls using List.reverseRecOn with
  | nil => exact tallied_start budget
  | append_singleton calls call induction =>
      rw [Meters.run, List.foldl_concat]
      exact (induction (lt_of_le_of_lt (by simp) short)).observe call short

theorem budget_run (meters : Meters) (calls : List Call) :
    (meters.run calls).budget =
      meters.budget.map fun clock => observed clock calls := by
  induction calls generalizing meters with
  | nil => exact Option.map_id_fun'.symm ▸ rfl
  | cons call rest induction =>
      rw [Meters.run, List.foldl_cons]
      exact (induction _).trans (Option.map_map _ _ _)

end

/-- Over any calls, fewer than a counter holds, the total is that of all
blocks, and the clock of the budget says what the current block has. -/
theorem meters_follow (budget grace : UInt32) (calls : List Call)
    (short : calls.length < 4294967295) :
    (∀ clock : Option BudgetClock,
      ((Meters.start clock).run calls).reasoningTokens.toNat =
        bodies calls) ∧
      ∃ clock,
        ((Meters.start (some (.new budget grace))).run calls).budget =
          some clock ∧
        Follows budget grace calls clock := by
  constructor
  · exact fun clock => (tallied_run clock calls short).total
  · refine ⟨observed (.new budget grace) calls, budget_run _ calls, ?_⟩
    exact (followed_observed budget grace calls).follows
      (limits_observed _ calls) short

/-- Two blocks, of which the first is spent and the second is closed early. -/
def twoBlocks : List Call :=
  [⟨true, false⟩, ⟨true, false⟩, ⟨true, false⟩, ⟨false, false⟩,
    ⟨true, false⟩, ⟨true, true⟩]

theorem meters_follow_twoBlocks :
    bodies twoBlocks = 3 ∧ body twoBlocks = 1 ∧
      ((Meters.start none).run twoBlocks).reasoningTokens.toNat =
        bodies twoBlocks ∧
      ∃ clock,
        ((Meters.start (some (.new 2 1))).run twoBlocks).budget =
          some clock ∧
        Follows 2 1 twoBlocks clock := by
  have follow := meters_follow 2 1 twoBlocks (by decide)
  exact ⟨by decide, by decide, follow.1 none, follow.2⟩

end Runa.Engine.BudgetRuns
