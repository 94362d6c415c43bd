import Mathlib.Order.BoundedOrder.Basic
import Mathlib.Order.Lattice

/-!
# The prompt n-gram cache

The embedding of `runa-engine/src/ngram.rs`: a map from trigrams to the token
last seen behind them, the drafts it proposes, and the arg max which drafts
are verified against.  The hash map is an association list with the newest
entry first; only lookups are observable.
-/

namespace Runa.Engine.Ngram

/-- A token id; `i32` in the source. -/
abbrev Token := Int

/-- Last-seen continuation for each trigram. -/
structure NgramCache where
  map : List ((Token × Token × Token) × Token)
deriving DecidableEq, Repr

def NgramCache.new : NgramCache where
  map := []

def NgramCache.insert
    (cache : NgramCache) (trigram : Token × Token × Token)
    (next : Token) : NgramCache where
  map := (trigram, next) :: cache.map

/-- Index every trigram of a list with the token behind it. -/
def NgramCache.ingest : NgramCache → List Token → NgramCache
  | cache, first :: second :: third :: fourth :: rest =>
      (cache.insert (first, second, third) fourth).ingest
        (second :: third :: fourth :: rest)
  | cache, _ => cache

/-- The last three tokens of a history. -/
def lastTrigram (hist : List Token) : Option (Token × Token × Token) :=
  match hist.reverse with
  | third :: second :: first :: _ => some (first, second, third)
  | _ => none

/-- Record `next` as the continuation of the last trigram in `hist`. -/
def NgramCache.learn
    (cache : NgramCache) (hist : List Token) (next : Token) :
    NgramCache :=
  match lastTrigram hist with
  | some trigram => cache.insert trigram next
  | none => cache

/-- At most `max` drafts behind `hist`; the cache is not changed. -/
def NgramCache.draft (cache : NgramCache) : List Token → Nat → List Token
  | _, 0 => []
  | hist, max + 1 =>
      match (lastTrigram hist).bind fun trigram =>
          cache.map.lookup trigram with
      | some next => next :: cache.draft (hist ++ [next]) max
      | none => []

theorem NgramCache.draft_length_le
    (cache : NgramCache) (hist : List Token) (max : Nat) :
    (cache.draft hist max).length ≤ max := by
  induction max generalizing hist with
  | zero => simp [NgramCache.draft]
  | succ max induction =>
      rw [NgramCache.draft]
      split
      · exact Nat.succ_le_succ (induction _)
      · exact Nat.zero_le _

/-! ## Arg max -/

section Argmax

variable {Logit : Type} [LinearOrder Logit] [OrderBot Logit]

/-- The loop of `argmax_i32`, from an index on. -/
def argmaxFrom : List Logit → Nat → Nat → Logit → Nat
  | [], _, best, _ => best
  | logit :: logits, index, best, value =>
      if value < logit then argmaxFrom logits (index + 1) index logit
      else argmaxFrom logits (index + 1) best value

/-- Index of the largest logit, the lowest index on ties. -/
def argmaxI32 (logits : List Logit) : Token :=
  argmaxFrom logits 0 0 ⊥

end Argmax

end Runa.Engine.Ngram
