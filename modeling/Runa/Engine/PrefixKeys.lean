import Mathlib.Algebra.BigOperators.Group.List.Basic
import Mathlib.Tactic.Ring
import Runa.Bytes.Layouts
import Runa.Engine.PromptCache

/-!
# What prompt-cache keys tell apart

Five lists go into a key without their lengths: devices, shares of tensors,
servers, patterns and adapters.  Different setups have different keys if their
lists are of the same lengths, and no other lengths will do: for any others
there are setups with one key (`separated_iff`).
-/

namespace Runa.Engine.PrefixKeys

open Runa.App.Loading (KvKind)
open Runa.Bytes.Framing
open Runa.Bytes.Layouts
open Runa.Bytes.LittleEndian
open Runa.Bytes.Lossy
open Runa.Engine.PromptCache

/-! ## Setups -/

/-- What a key is about, with a path for its text. -/
structure Setup where
  path : Name
  placement : Placement
  nCtx : UInt32
  nBatch : UInt32
  nUbatch : UInt32
  kvK : Option KvKind
  kvV : Option KvKind
  loras : List (LoraSpec Name)
  tokens : List Int32
deriving DecidableEq

namespace Setup

def config (setup : Setup) (flashAttn : Bool) : LoadConfig Name where
  nCtx := setup.nCtx
  nBatch := setup.nBatch
  nUbatch := setup.nUbatch
  flashAttn := flashAttn
  kvK := setup.kvK
  kvV := setup.kvV
  loras := setup.loras

/-- What is hashed. -/
def text (setup : Setup) (flashAttn : Bool) : List UInt8 :=
  prefixText id setup.path setup.placement (setup.config flashAttn)
    setup.tokens

end Setup

/-- How long the lists are. -/
structure Counts where
  devices : Nat
  shares : Nat
  servers : Nat
  patterns : Nat
  loras : Nat
deriving DecidableEq, Repr

/-- All entries of the lists. -/
def Counts.entries (counts : Counts) : Nat :=
  counts.devices + counts.shares + counts.servers + counts.patterns +
    counts.loras

def Setup.counts (setup : Setup) : Counts where
  devices := setup.placement.devices.length
  shares := setup.placement.tensorSplit.length
  servers := setup.placement.rpcServers.length
  patterns := setup.placement.cpuPatterns.length
  loras := setup.loras.length

/-- For the prompts that are considered, setups with lists of these lengths
have one key only if they are the same. -/
def Separated (considered : List Int32 → Prop) (counts counts' : Counts) :
    Prop :=
  ∀ setup setup' : Setup, setup.counts = counts → setup'.counts = counts' →
    considered setup.tokens → considered setup'.tokens → setup ≠ setup' →
      ∀ flashAttn flashAttn', setup.text flashAttn ≠ setup'.text flashAttn'

/-- Lists of the same lengths. -/
theorem text_inj {setup setup' : Setup} {flashAttn flashAttn' : Bool}
    (counts : setup.counts = setup'.counts)
    (same : setup.text flashAttn = setup'.text flashAttn') :
    setup = setup' := by
  have lists : SameCounts setup.placement setup'.placement
      (setup.config flashAttn) (setup'.config flashAttn') := by
    constructor
    · exact congrArg Counts.devices counts
    · exact congrArg Counts.shares counts
    · exact congrArg Counts.servers counts
    · exact congrArg Counts.patterns counts
    · exact congrArg Counts.loras counts
  obtain ⟨placement, nCtx, nBatch, nUbatch, kvK, kvV, loras, tokens⟩ :=
    prefixText_inj lists same
  simp only [Setup.text, prefixText, List.append_assoc] at same
  obtain ⟨path, -⟩ := separates_nameBytes same
  have adapters : setup.loras = setup'.loras := by
    apply List.map_injective_iff.mpr _ loras
    rintro ⟨path, scale⟩ ⟨path', scale'⟩ keyed
    cases keyed
    rfl
  cases setup
  cases setup'
  cases path
  cases placement
  cases nCtx
  cases nBatch
  cases nUbatch
  cases kvK
  cases kvV
  cases adapters
  cases tokens
  rfl

/-- The setup of a prompt for a model that is loaded. -/
def setupOf {Content : Type} (model : Loaded Name Content)
    (tokens : List Int32) : Setup where
  path := model.path
  placement := model.placement
  nCtx := model.config.nCtx
  nBatch := model.config.nBatch
  nUbatch := model.config.nUbatch
  kvK := model.config.kvK
  kvV := model.config.kvV
  loras := model.config.loras
  tokens := tokens

theorem text_setupOf {Content : Type} (model : Loaded Name Content)
    (tokens : List Int32) :
    (setupOf model tokens).text model.config.flashAttn =
      keyText id model tokens :=
  rfl

/-- A state that is stored under one setup is not restored into another one
with lists of the same lengths, if the digests do not collide. -/
theorem tryRestorePrompt_storePrompt {Content Digest State : Type}
    [DecidableEq Digest] {hash : List UInt8 → Digest}
    (collisionFree : Function.Injective hash)
    (prefill : Source Content → List Int32 → State)
    (world : World Name Content Digest State)
    {model model' : Loaded Name Content} {tokens tokens' : List Int32}
    (counts :
      (setupOf model tokens).counts = (setupOf model' tokens').counts)
    (other : setupOf model tokens ≠ setupOf model' tokens') (reads : Bool) :
    (world.storePrompt id hash prefill model tokens).tryRestorePrompt id hash
        model' tokens' reads =
      world.tryRestorePrompt id hash model' tokens' reads := by
  have apart : prefixKey id hash model' tokens' ≠
      prefixKey id hash model tokens := by
    intro same
    have texts := collisionFree same
    rw [← text_setupOf, ← text_setupOf] at texts
    exact other (text_inj counts texts.symm)
  rw [World.tryRestorePrompt, World.tryRestorePrompt, World.storePrompt]
  simp only [Function.update_of_ne apart]

/-! ## The layout of a key -/

/-- A byte for the mark, and another one. -/
def write : Bool → UInt8
  | false => 0
  | true => 1

def repeated (count : Nat) (layout : List Part) : List Part :=
  (List.replicate count layout).flatten

/-- The parts of a key between its path and the number of its tokens. -/
def layoutOf (counts : Counts) : List Part :=
  [.chunk 4] ++ ([.chunk 4] ++ (repeated counts.devices [.word] ++
    (repeated counts.shares [.chunk 4] ++
      (repeated counts.servers [.word] ++
        (repeated counts.patterns [.word] ++ ([.chunk 4] ++ ([.chunk 4] ++
          ([.chunk 4] ++ ([.chunk 1] ++ ([.chunk 1] ++
            repeated counts.loras ([.word] ++ [.chunk 4])))))))))))

theorem exists_u32Bytes {bytes : List UInt8} (size : bytes.length = 4) :
    ∃ n, u32Bytes n = bytes := by
  have small := leNat_lt bytes
  rw [size] at small
  use UInt32.ofNat (leNat bytes)
  rw [u32Bytes, UInt32.toNat_ofNat_of_lt' small, ← size]
  exact leBytes_leNat bytes

theorem exists_i32Bytes {bytes : List UInt8} (size : bytes.length = 4) :
    ∃ n, i32Bytes n = bytes := by
  rcases exists_u32Bytes size with ⟨n, written⟩
  exact ⟨Int32.ofUInt32 n, written⟩

theorem expresses_u32 : Expresses write u32Bytes [.chunk 4] :=
  expresses_chunk fun _ => exists_u32Bytes

theorem expresses_i32 : Expresses write i32Bytes [.chunk 4] :=
  expresses_chunk fun _ => exists_i32Bytes

theorem expresses_name : Expresses write nameBytes [.word] := by
  apply expresses_word
  intro length
  have plain : '\x00' ∉ List.replicate length '\x01' := by
    intro member
    cases List.eq_of_mem_replicate member
  use ⟨List.replicate length '\x01', plain⟩
  rw [nameBytes, encode, List.flatMap_replicate,
    show String.utf8EncodeChar '\x01' = [1] by decide,
    List.flatten_replicate_singleton]
  rfl

theorem expresses_tag :
    Expresses write (fun kind => [kvTag kind]) [.chunk 1] := by
  rintro _ ⟨chunk, _, rfl, size, rfl⟩
  rcases List.length_eq_one_iff.mp size with ⟨symbol, rfl⟩
  cases symbol with
  | false => exact ⟨some .f16, rfl⟩
  | true => exact ⟨some .q8_0, rfl⟩

theorem expresses_lora :
    Expresses write (loraBytes (id : Name → Name))
      ([.word] ++ [.chunk 4]) := by
  intro outline fits
  rcases expresses_name.pair expresses_u32 outline fits with
    ⟨⟨path, scale⟩, written⟩
  exact ⟨⟨path, scale⟩, written⟩

/-- Any bytes, four for each, are the tokens of a prompt. -/
theorem exists_tokens {bytes : List UInt8} {count : Nat}
    (size : bytes.length = 4 * count) :
    ∃ tokens : List Int32, tokens.length = count ∧
      tokens.flatMap i32Bytes = bytes := by
  induction count generalizing bytes with
  | zero => exact ⟨[], rfl, (List.eq_nil_of_length_eq_zero size).symm⟩
  | succ count induction =>
      have front : (bytes.take 4).length = 4 := by
        rw [List.length_take]
        omega
      have back : (bytes.drop 4).length = 4 * count := by
        rw [List.length_drop]
        omega
      rcases exists_i32Bytes front with ⟨token, here⟩
      rcases induction back with ⟨tokens, number, there⟩
      refine ⟨token :: tokens, congrArg (· + 1) number, ?_⟩
      rw [List.flatMap_cons, here, there, List.take_append_drop]

/-- These bytes are hashed for a setup with lists of these lengths and so many
tokens. -/
def Written (counts : Counts) (count : Nat) (bytes : List UInt8) : Prop :=
  ∃ setup : Setup, setup.counts = counts ∧ setup.tokens.length = count ∧
    ∀ flashAttn, setup.text flashAttn = bytes

/-- Every outline of the layout is written, with any tokens behind it. -/
theorem written_of_fits {counts : Counts} {outline : List Bool}
    (fits : Fits (layoutOf counts) outline) {count : Nat}
    {bytes : List UInt8} (size : bytes.length = 4 * count) :
    Written counts count
      (0 :: (outline.map write ++ (leBytes 8 count ++ bytes))) := by
  rcases exists_tokens size with ⟨tokens, rfl, rfl⟩
  rcases counts with ⟨devices, shares, servers, patterns, loras⟩
  have header :=
    expresses_u32.pair (expresses_i32.pair
      ((expresses_name.repeated devices).pair
        ((expresses_u32.repeated shares).pair
          ((expresses_name.repeated servers).pair
            ((expresses_name.repeated patterns).pair
              (expresses_u32.pair (expresses_u32.pair (expresses_u32.pair
                (expresses_tag.pair (expresses_tag.pair
                  (expresses_lora.repeated loras)))))))))))
  rcases header outline fits with
    ⟨⟨nGpuLayers, mainGpu, ⟨devices, rfl⟩, ⟨tensorSplit, rfl⟩,
      ⟨rpcServers, rfl⟩, ⟨cpuPatterns, rfl⟩, nCtx, nBatch, nUbatch, kvK, kvV,
      ⟨loras, rfl⟩⟩, written⟩
  refine ⟨⟨⟨[], List.not_mem_nil⟩,
    ⟨nGpuLayers, mainGpu, devices, tensorSplit, rpcServers, cpuPatterns⟩,
    nCtx, nBatch, nUbatch, kvK, kvV, loras, tokens⟩, rfl, rfl, ?_⟩
  intro flashAttn
  rw [← written]
  simp only [Setup.text, prefixText, Setup.config, List.append_assoc]
  rfl

/-! ## Keys in common -/

/-- Setups with lists of these lengths and at most so many tokens have one
key. -/
def Shared (most : Nat) (counts counts' : Counts) : Prop :=
  ∃ count count' bytes, count ≤ most ∧ count' ≤ most ∧
    Written counts count bytes ∧ Written counts' count' bytes

theorem Shared.symm {most : Nat} {counts counts' : Counts}
    (shared : Shared most counts counts') : Shared most counts' counts := by
  rcases shared with ⟨count, count', bytes, few, few', here, there⟩
  exact ⟨count', count, bytes, few', few, there, here⟩

/-- A number of tokens whose eight bytes are one. -/
def ones : Nat :=
  0x0101010101010101

theorem leBytes_ones (more : Nat) :
    leBytes 8 (ones + 256 ^ 8 * more) = List.replicate 8 1 := by
  rw [leBytes_add_mul]
  decide

theorem sum_size (word : Nat) (counts : Counts) :
    ((layoutOf counts).map (Part.size word)).sum =
      22 + 4 * (counts.shares + counts.loras) +
        word * (counts.devices + counts.servers + counts.patterns +
          counts.loras) := by
  simp only [layoutOf, repeated, List.map_append, List.sum_append,
    List.map_flatten, List.map_replicate, List.map_singleton,
    List.sum_flatten, List.sum_replicate, List.sum_singleton, Part.size]
  ring

section

variable {counts counts' : Counts} {more : Nat}

/-- The tokens of one setup are the rest of the lists of the other one, which
has no tokens. -/
theorem shared_of_leads
    (leads :
      Leads (gapsOf (layoutOf counts)).1 (gapsOf (layoutOf counts)).2
        (gapsOf (layoutOf counts')).1 (gapsOf (layoutOf counts')).2
        (List.replicate 8 true))
    (room : 30 + 5 * counts'.entries ≤ 4 * (ones + 256 ^ 8 * more)) :
    Shared (ones + 256 ^ 8 * more) counts counts' := by
  rcases leads with ⟨outline, fills, opens⟩
  generalize many : ones + 256 ^ 8 * more = count at room ⊢
  have gaps := sum_gapsOf 1 (layoutOf counts')
  rw [sum_size, Nat.one_mul, Nat.one_mul] at gaps
  rw [Counts.entries] at room
  have enough : (outline ++ List.replicate 8 true).length +
      ((gapsOf (layoutOf counts')).1 + (gapsOf (layoutOf counts')).2.sum +
        (gapsOf (layoutOf counts')).2.length) ≤
        outline.length + 4 * count := by
    rw [List.length_append, List.length_replicate, gaps]
    omega
  rcases opens (outline.length + 4 * count) enough with
    ⟨rest, total, fills'⟩
  have length : (rest.map write ++ leBytes 8 0).length = 4 * count := by
    rw [List.length_append, List.length_append, List.length_replicate]
      at total
    rw [List.length_append, List.length_map, leBytes_length]
    omega
  have none : ([] : List UInt8).length = 4 * 0 := rfl
  have here := written_of_fits (fits_of_fills fills) length
  have there := written_of_fits (fits_of_fills fills') none
  refine ⟨count, 0, _, le_rfl, Nat.zero_le _, here, ?_⟩
  rw [← many, leBytes_ones]
  simpa [write] using there

/-- The number of tokens of one setup is part of the last gap of the other
one. -/
theorem shared_of_joint {front : List Bool} {last wider : Nat}
    (fits : ∀ zone : List Bool, zone.length = last →
      Fits (layoutOf counts) (front ++ zone))
    (fits' : ∀ zone : List Bool, zone.length = last + 4 * wider →
      Fits (layoutOf counts') (front ++ zone))
    (room : wider ≤ ones + 256 ^ 8 * more) :
    Shared (ones + 256 ^ 8 * more) counts counts' := by
  let zone := List.replicate last true
  have size : zone.length = last := List.length_replicate
  have none : ([] : List UInt8).length = 4 * 0 := rfl
  match wider with
  | 0 =>
      exact ⟨0, 0, _, Nat.zero_le _, Nat.zero_le _,
        written_of_fits (fits zone size) none,
        written_of_fits (fits' zone size) none⟩
  | 1 =>
      -- the gap takes half of the number, and the token the other half's place
      have one : (List.replicate 4 0 : List UInt8).length = 4 * 1 := rfl
      have width : (zone ++ [true, false, false, false]).length =
          last + 4 * 1 := by
        rw [List.length_append, size]
        rfl
      refine ⟨1, 0, _, room, Nat.zero_le _,
        written_of_fits (fits zone size) one, ?_⟩
      have there := written_of_fits (fits' _ width) none
      simp only [List.map_append, List.append_assoc] at there ⊢
      exact there
  | wider + 2 =>
      rcases Nat.exists_eq_add_of_le' room with ⟨count, sum⟩
      have tokens : (List.replicate (4 * count) 0 : List UInt8).length =
          4 * count := List.length_replicate
      have others : (List.replicate (4 * wider) 1 ++
          (leBytes 8 count ++ List.replicate (4 * count) 0)).length =
            4 * (ones + 256 ^ 8 * more) := by
        rw [sum, List.length_append, List.length_append,
          List.length_replicate, List.length_replicate, leBytes_length]
        omega
      have width : (zone ++ (List.replicate 8 true ++
          List.replicate (4 * wider) true)).length =
            last + 4 * (wider + 2) := by
        rw [List.length_append, List.length_append, size,
          List.length_replicate, List.length_replicate]
        omega
      refine ⟨_, count, _, le_rfl, sum ▸ Nat.le_add_right _ _,
        written_of_fits (fits zone size) others, ?_⟩
      rw [leBytes_ones]
      have there := written_of_fits (fits' _ width) tokens
      simpa [write] using there

/-- For any lengths there are setups with one key. -/
theorem shared
    (room : 30 + 5 * counts.entries ≤ 4 * (ones + 256 ^ 8 * more))
    (room' : 30 + 5 * counts'.entries ≤ 4 * (ones + 256 ^ 8 * more)) :
    Shared (ones + 256 ^ 8 * more) counts counts' := by
  have unmarked := false_notMem_replicate 8
  rcases leads_or_joint (gapsOf (layoutOf counts)).1
    (gapsOf (layoutOf counts)).2 (gapsOf (layoutOf counts')).1
    (gapsOf (layoutOf counts')).2 unmarked with leads | leads | joint
  · exact shared_of_leads leads room'
  · exact (shared_of_leads leads room).symm
  · rcases joint with ⟨front, last, last', total, fills, fills'⟩
    have gaps := sum_gapsOf 0 (layoutOf counts)
    have gaps' := sum_gapsOf 0 (layoutOf counts')
    rw [sum_size, Nat.zero_mul, Nat.zero_mul] at gaps gaps'
    have fits zone width := fits_of_fills (fills zone width)
    have fits' zone width := fits_of_fills (fills' zone width)
    rw [Counts.entries] at room room'
    rcases Nat.le_total (counts.shares + counts.loras)
        (counts'.shares + counts'.loras) with less | less
    · rcases Nat.exists_eq_add_of_le less with ⟨wider, split⟩
      obtain rfl : last' = last + 4 * wider := by omega
      exact shared_of_joint fits fits' (by omega)
    · rcases Nat.exists_eq_add_of_le less with ⟨wider, split⟩
      obtain rfl : last = last' + 4 * wider := by omega
      exact (shared_of_joint fits' fits (by omega)).symm

/-- Where prompts are considered that are long enough, lists of other lengths
are not separated. -/
theorem Separated.eq {considered : List Int32 → Prop}
    (separated : Separated considered counts counts')
    (room : 30 + 5 * counts.entries ≤ 4 * (ones + 256 ^ 8 * more))
    (room' : 30 + 5 * counts'.entries ≤ 4 * (ones + 256 ^ 8 * more))
    (long : ∀ prompt : List Int32,
      prompt.length ≤ ones + 256 ^ 8 * more → considered prompt) :
    counts = counts' := by
  by_contra differ
  rcases shared room room' with
    ⟨_, _, bytes, few, few', ⟨setup, rfl, rfl, here⟩,
      ⟨setup', rfl, rfl, there⟩⟩
  have other : setup ≠ setup' := fun same =>
    differ (congrArg Setup.counts same)
  exact separated setup setup' rfl rfl (long _ few) (long _ few') other
    false false ((here false).trans (there false).symm)

theorem separated_refl (considered : List Int32 → Prop) :
    Separated considered counts counts := by
  rintro setup setup' here there - - other flashAttn flashAttn' same
  exact other (text_inj (here.trans there.symm) same)

end

/--
Setups are separated exactly if their lists are of the same lengths.  Where the
lists have no more entries than would fit into memory, prompts whose length is
a `u64` show it already.
-/
theorem separated_iff (counts counts' : Counts) :
    (Separated (fun _ => True) counts counts' ↔ counts = counts') ∧
      (counts.entries ≤ 2 ^ 55 → counts'.entries ≤ 2 ^ 55 →
        (Separated (fun prompt => prompt.length < 2 ^ 64) counts counts' ↔
          counts = counts')) := by
  constructor
  · constructor
    · intro separated
      have room : 30 + 5 * counts.entries ≤ 4 * (ones + 256 ^ 8 *
          (counts.entries + counts'.entries)) := by
        rw [ones]
        omega
      have room' : 30 + 5 * counts'.entries ≤ 4 * (ones + 256 ^ 8 *
          (counts.entries + counts'.entries)) := by
        rw [ones]
        omega
      exact separated.eq room room' fun _ _ => trivial
    · rintro rfl
      exact separated_refl _
  · intro small small'
    constructor
    · intro separated
      have room : 30 + 5 * counts.entries ≤ 4 * (ones + 256 ^ 8 * 0) := by
        rw [ones]
        omega
      have room' : 30 + 5 * counts'.entries ≤ 4 * (ones + 256 ^ 8 * 0) := by
        rw [ones]
        omega
      apply separated.eq room room'
      intro prompt short
      rw [ones] at short
      omega
    · rintro rfl
      exact separated_refl _

/-! ## Lists that are taken for others -/

/-- A setup like the default one. -/
def setupOn (placement : Placement) : Setup where
  path := qwen
  placement := placement
  nCtx := 4096
  nBatch := 512
  nUbatch := 512
  kvK := none
  kvV := none
  loras := []
  tokens := [7, 8]

def zero : Name := ⟨"0".toList, by decide⟩

def onDevice : Placement := { onCpu with devices := [zero] }

def onServer : Placement := { onCpu with rpcServers := [zero] }

/-- Two shares, whose bits are those of a context and a batch. -/
def splitTwo : Placement := { onCpu with tensorSplit := [4096, 512] }

/-- What the rest of a plain configuration is read as behind two shares, when
the prompt has three tokens. -/
def behindShares : LoadConfig Name :=
  { plainConfig with
    nCtx := 512, nBatch := 262143, nUbatch := 0, kvK := some .f16,
    kvV := some .f16 }

def askWith (placement : Placement) (config : LoadConfig Name)
    (tokens : List Int32) : List (Event Name Nat) :=
  [.load 0 qwen placement config, .generate 0 tokens true true]

/-- A device is taken for a server; and what was stored for three tokens and
no shares is restored for the last token behind two shares. -/
theorem not_separated_splitTwo :
    (setupOn onDevice).text true = (setupOn onServer).text true ∧
      ¬ Separated (fun _ => True) (setupOn onDevice).counts
        (setupOn onServer).counts ∧
      ∃ hit,
        desk.hits id id pairUp
            (askWith onCpu plainConfig [1, 0, 7] ++
              .restart :: askWith splitTwo behindShares [7]) = [hit] ∧
          hit.entry.tokens = [1, 0, 7] ∧ hit.tokens = [7] := by
  have same : (setupOn onDevice).text true = (setupOn onServer).text true :=
    rfl
  refine ⟨same, ?_, _, rfl, rfl, rfl⟩
  intro separated
  have differ : setupOn onDevice ≠ setupOn onServer := by decide
  exact separated _ _ rfl rfl trivial trivial differ true true same

end Runa.Engine.PrefixKeys
