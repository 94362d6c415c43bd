import Runa.App.Loading
import Runa.Bytes.Framing
import Runa.Bytes.LittleEndian
import Runa.Bytes.Lossy

/-!
# The prompt cache

The embedding of `prefix_key` of `runa-engine/src/prompt_cache.rs` and of
`try_restore_prompt` and `store_prompt` of `load.rs`, as `start_generation`
and `prefill_step` call them.  The cache outlives the processes that use it,
while files are replaced under the paths from which its keys are made.

The digest and the prefill of llama.cpp are parameters.  Every entry carries
what it was stored under, which the program does not record;
`restores_prefill_iff` says when that is what it is restored under.
-/

namespace Runa.Engine.PromptCache

open Runa.App.Loading (KvKind)
open Runa.Bytes.Framing
open Runa.Bytes.LittleEndian
open Runa.Bytes.Lossy
open Runa.Stream.Utf8

/-! ## The key -/

/-- A text without NUL, as the command line and C strings have it. -/
abbrev Name := {text : Text // '\x00' ∉ text}

/-- Where tensors live; an `f32` is given by its bits. -/
structure Placement where
  nGpuLayers : UInt32
  mainGpu : Int32
  devices : List Name
  tensorSplit : List UInt32
  rpcServers : List Name
  cpuPatterns : List Name
deriving DecidableEq

structure LoraSpec (Path : Type) where
  path : Path
  scale : UInt32
deriving DecidableEq

structure LoadConfig (Path : Type) where
  nCtx : UInt32
  nBatch : UInt32
  nUbatch : UInt32
  flashAttn : Bool
  kvK : Option KvKind
  kvV : Option KvKind
  loras : List (LoraSpec Path)
deriving DecidableEq

def nameBytes (name : Name) : List UInt8 :=
  encode name.1 ++ [0]

def u32Bytes (n : UInt32) : List UInt8 :=
  leBytes 4 n.toNat

def i32Bytes (n : Int32) : List UInt8 :=
  u32Bytes n.toUInt32

def kvTag : Option KvKind → UInt8
  | none => 255
  | some .f16 => 0
  | some .q8_0 => 1
  | some .q4_0 => 2

section Key

variable {Path : Type} (toStringLossy : Path → Name)

def loraBytes (spec : LoraSpec Path) : List UInt8 :=
  nameBytes (toStringLossy spec.path) ++ u32Bytes spec.scale

/-- What `prefix_key` puts through the digest. -/
def prefixText
    (path : Path) (placement : Placement) (config : LoadConfig Path)
    (tokens : List Int32) : List UInt8 :=
  nameBytes (toStringLossy path) ++ u32Bytes placement.nGpuLayers ++
    i32Bytes placement.mainGpu ++ placement.devices.flatMap nameBytes ++
    placement.tensorSplit.flatMap u32Bytes ++
    placement.rpcServers.flatMap nameBytes ++
    placement.cpuPatterns.flatMap nameBytes ++ u32Bytes config.nCtx ++
    u32Bytes config.nBatch ++ u32Bytes config.nUbatch ++
    [kvTag config.kvK, kvTag config.kvV] ++
    config.loras.flatMap (loraBytes toStringLossy) ++
    leBytes 8 tokens.length ++ tokens.flatMap i32Bytes

end Key

/-! ## What a key tells apart -/

theorem u32Bytes_injective : Function.Injective u32Bytes := by
  intro first second same
  have numbers := congrArg leNat same
  rw [u32Bytes, u32Bytes, leNat_leBytes first.toNat_lt,
    leNat_leBytes second.toNat_lt] at numbers
  exact UInt32.toNat_inj.mp numbers

theorem i32Bytes_injective : Function.Injective i32Bytes :=
  fun _ _ same => congrArg Int32.ofUInt32 (u32Bytes_injective same)

theorem separates_u32Bytes : Separates u32Bytes :=
  separates_of_length (fun _ => leBytes_length 4 _) u32Bytes_injective

theorem separates_i32Bytes : Separates i32Bytes :=
  separates_of_length (fun _ => leBytes_length 4 _) i32Bytes_injective

theorem separates_nameBytes : Separates nameBytes :=
  separates_marked (fun name => zero_notMem_encode name.2)
    (encode_injective.comp Subtype.val_injective)

theorem kvTag_injective : Function.Injective kvTag := by
  intro first second same
  cases first with
  | none =>
      cases second with
      | none => rfl
      | some kind => cases kind <;> cases same
  | some kind =>
      cases second with
      | none => cases kind <;> cases same
      | some kind' =>
          cases kind <;> cases kind' <;> first | rfl | cases same

section Key

variable {Path : Type} {toStringLossy : Path → Name}
  {path path' : Path} {placement placement' : Placement}
  {config config' : LoadConfig Path} {tokens tokens' : List Int32}

/-- The adapters as the key has them. -/
def lorasKeyed (toStringLossy : Path → Name)
    (loras : List (LoraSpec Path)) : List (Name × UInt32) :=
  loras.map fun spec => (toStringLossy spec.path, spec.scale)

theorem flatMap_loraBytes (loras : List (LoraSpec Path)) :
    loras.flatMap (loraBytes toStringLossy) =
      (lorasKeyed toStringLossy loras).flatMap
        fun keyed => nameBytes keyed.1 ++ u32Bytes keyed.2 := by
  rw [lorasKeyed, List.flatMap_map]
  rfl

/-- The lists in a key, whose ends it does not mark. -/
structure SameCounts
    (placement placement' : Placement) (config config' : LoadConfig Path) :
    Prop where
  devices : placement.devices.length = placement'.devices.length
  shares : placement.tensorSplit.length = placement'.tensorSplit.length
  servers : placement.rpcServers.length = placement'.rpcServers.length
  patterns : placement.cpuPatterns.length = placement'.cpuPatterns.length
  loras : config.loras.length = config'.loras.length

/-- What a key determines if the lists are known to be of one length. -/
structure SameKeyed
    (toStringLossy : Path → Name) (placement placement' : Placement)
    (config config' : LoadConfig Path) (tokens tokens' : List Int32) :
    Prop where
  placement : placement = placement'
  nCtx : config.nCtx = config'.nCtx
  nBatch : config.nBatch = config'.nBatch
  nUbatch : config.nUbatch = config'.nUbatch
  kvK : config.kvK = config'.kvK
  kvV : config.kvV = config'.kvV
  loras : lorasKeyed toStringLossy config.loras =
    lorasKeyed toStringLossy config'.loras
  tokens : tokens = tokens'

theorem prefixText_inj (counts : SameCounts placement placement' config config')
    (same :
      prefixText toStringLossy path placement config tokens =
        prefixText toStringLossy path' placement' config' tokens') :
    SameKeyed toStringLossy placement placement' config config' tokens
      tokens' := by
  simp only [prefixText, List.append_assoc, flatMap_loraBytes] at same
  obtain ⟨-, same⟩ := separates_nameBytes same
  obtain ⟨layers, same⟩ := separates_u32Bytes same
  obtain ⟨main, same⟩ := separates_i32Bytes same
  obtain ⟨devices, same⟩ := separates_nameBytes.flatMap counts.devices same
  obtain ⟨shares, same⟩ := separates_u32Bytes.flatMap counts.shares same
  obtain ⟨servers, same⟩ := separates_nameBytes.flatMap counts.servers same
  obtain ⟨patterns, same⟩ :=
    separates_nameBytes.flatMap counts.patterns same
  obtain ⟨nCtx, same⟩ := separates_u32Bytes same
  obtain ⟨nBatch, same⟩ := separates_u32Bytes same
  obtain ⟨nUbatch, same⟩ := separates_u32Bytes same
  simp only [List.cons_append, List.nil_append] at same
  obtain ⟨kvK, same⟩ := List.cons.inj same
  obtain ⟨kvV, same⟩ := List.cons.inj same
  have keyed :
      (lorasKeyed toStringLossy config.loras).length =
        (lorasKeyed toStringLossy config'.loras).length := by
    simpa [lorasKeyed] using counts.loras
  obtain ⟨loras, same⟩ :=
    (separates_nameBytes.pair separates_u32Bytes).flatMap keyed same
  obtain ⟨-, words⟩ := List.append_inj same
    (by rw [leBytes_length, leBytes_length])
  constructor
  · cases placement
    cases placement'
    cases layers
    cases main
    cases devices
    cases shares
    cases servers
    cases patterns
    rfl
  · exact nCtx
  · exact nBatch
  · exact nUbatch
  · exact kvTag_injective kvK
  · exact kvTag_injective kvV
  · exact loras
  · exact flatMap_inj_of_length (Nat.succ_pos 3)
      (fun _ => leBytes_length 4 _) i32Bytes_injective words

end Key

/-! ## Loads, generations and restarts -/

/-- A model that was loaded, and what its files held then. -/
structure Loaded (Path Content : Type) where
  path : Path
  placement : Placement
  config : LoadConfig Path
  model : Content
  adapters : List Content
  paired : adapters.length = config.loras.length

def load {Path Content : Type} (files : Path → Content) (path : Path)
    (placement : Placement) (config : LoadConfig Path) :
    Loaded Path Content where
  path := path
  placement := placement
  config := config
  model := files path
  adapters := config.loras.map fun spec => files spec.path
  paired := List.length_map _

/-- All that the state of llama.cpp behind a prompt depends on. -/
structure Source (Content : Type) where
  model : Content
  placement : Placement
  nCtx : UInt32
  nBatch : UInt32
  nUbatch : UInt32
  flashAttn : Bool
  kvK : Option KvKind
  kvV : Option KvKind
  adapters : List (Content × UInt32)
deriving DecidableEq

def Loaded.source {Path Content : Type} (loaded : Loaded Path Content) :
    Source Content where
  model := loaded.model
  placement := loaded.placement
  nCtx := loaded.config.nCtx
  nBatch := loaded.config.nBatch
  nUbatch := loaded.config.nUbatch
  flashAttn := loaded.config.flashAttn
  kvK := loaded.config.kvK
  kvV := loaded.config.kvV
  adapters := loaded.adapters.zip (loaded.config.loras.map LoraSpec.scale)

/-- A stored state, with the load and the prompt that it was stored for. -/
structure Entry (Path Content State : Type) where
  state : State
  owner : Loaded Path Content
  tokens : List Int32

/-- The files, the models that are loaded, and the cache directory. -/
structure World (Path Content Digest State : Type) where
  files : Path → Content
  loaded : Nat → Option (Loaded Path Content)
  cache : Digest → Option (Entry Path Content State)

inductive Event (Path Content : Type) where
  | replace (path : Path) (content : Content)
  /-- a load that succeeds; another one leaves nothing behind -/
  | load (handle : Nat) (path : Path) (placement : Placement)
      (config : LoadConfig Path)
  /-- the end of every process -/
  | restart
  /-- `reads`: a cache is attached, and a lookup and its restore succeed;
  `writes`: the prefill is completed and its store succeeds -/
  | generate (handle : Nat) (tokens : List Int32) (reads writes : Bool)

/-- A generation that restored an entry. -/
structure Hit (Path Content State : Type) where
  entry : Entry Path Content State
  model : Loaded Path Content
  tokens : List Int32

section System

variable {Path Content Digest State : Type} [DecidableEq Path]
  [DecidableEq Digest] (toStringLossy : Path → Name)
  (hash : List UInt8 → Digest)
  (prefill : Source Content → List Int32 → State)

def keyText (model : Loaded Path Content) (tokens : List Int32) :
    List UInt8 :=
  prefixText toStringLossy model.path model.placement model.config tokens

def prefixKey (model : Loaded Path Content) (tokens : List Int32) :
    Digest :=
  hash (keyText toStringLossy model tokens)

namespace World

def tryRestorePrompt (world : World Path Content Digest State)
    (model : Loaded Path Content) (tokens : List Int32) (reads : Bool) :
    Option (Entry Path Content State) :=
  if reads then world.cache (prefixKey toStringLossy hash model tokens)
  else none

/-- The state behind a prefill from an empty cache of the context. -/
def storePrompt (world : World Path Content Digest State)
    (model : Loaded Path Content) (tokens : List Int32) :
    World Path Content Digest State :=
  { world with
    cache := Function.update world.cache
      (prefixKey toStringLossy hash model tokens)
      (some ⟨prefill model.source tokens, model, tokens⟩) }

/-- What an event does, and the hit of a generation. -/
def step (world : World Path Content Digest State) :
    Event Path Content →
      World Path Content Digest State × Option (Hit Path Content State)
  | .replace path content =>
      ({ world with files := Function.update world.files path content },
        none)
  | .load handle path placement config =>
      ({ world with
          loaded := Function.update world.loaded handle
            (some (PromptCache.load world.files path placement config)) },
        none)
  | .restart => ({ world with loaded := fun _ => none }, none)
  | .generate handle tokens reads writes =>
      match world.loaded handle with
      | none => (world, none)
      | some model =>
          match world.tryRestorePrompt toStringLossy hash model tokens
              reads with
          | some entry => (world, some ⟨entry, model, tokens⟩)
          | none =>
              (if writes then
                  world.storePrompt toStringLossy hash prefill model tokens
                else world,
                none)

/-- The hits of a run. -/
def hits : World Path Content Digest State → List (Event Path Content) →
    List (Hit Path Content State)
  | _, [] => []
  | world, event :: events =>
      (world.step toStringLossy hash prefill event).2.toList ++
        hits (world.step toStringLossy hash prefill event).1 events

/-- What the generation of an event hashes. -/
def keyed (world : World Path Content Digest State) :
    Event Path Content → List (List UInt8)
  | .generate handle tokens _ _ =>
      ((world.loaded handle).map fun model =>
        keyText toStringLossy model tokens).toList
  | _ => []

/-- What the generations of a run hash. -/
def hashed : World Path Content Digest State → List (Event Path Content) →
    List (List UInt8)
  | _, [] => []
  | world, event :: events =>
      world.keyed toStringLossy event ++
        hashed (world.step toStringLossy hash prefill event).1 events

end World

/-- No two of the texts have one digest. -/
def NoCollision (hash : List UInt8 → Digest) (texts : List (List UInt8)) :
    Prop :=
  ∀ first ∈ texts, ∀ second ∈ texts,
    hash first = hash second → first = second

/-- What is restored is what a prefill would have made. -/
structure Hit.Sound (prefill : Source Content → List Int32 → State)
    (hit : Hit Path Content State) : Prop where
  source : hit.entry.owner.source = hit.model.source
  tokens : hit.entry.tokens = hit.tokens
  state : hit.entry.state = prefill hit.model.source hit.tokens

/-- Two loads agree in what their keys do not tell apart. -/
structure Alike (owner model : Loaded Path Content) : Prop where
  content : owner.model = model.model
  adapters : owner.adapters = model.adapters
  flashAttn : owner.config.flashAttn = model.config.flashAttn
  counts : SameCounts owner.placement model.placement owner.config
    model.config

/-- The entry that a generation would restore is of a load like its own. -/
def Meets (world : World Path Content Digest State) :
    Event Path Content → Prop
  | .generate handle tokens reads _ =>
      ∀ model, world.loaded handle = some model →
        ∀ entry,
          world.tryRestorePrompt toStringLossy hash model tokens reads =
              some entry →
            Alike entry.owner model
  | _ => True

def RunMeets : World Path Content Digest State →
    List (Event Path Content) → Prop
  | _, [] => True
  | world, event :: events =>
      Meets toStringLossy hash world event ∧
        RunMeets (world.step toStringLossy hash prefill event).1 events

end System

/-! ## Every run -/

section Runs

variable {Path Content Digest State : Type} [DecidableEq Path]
  [DecidableEq Digest] {toStringLossy : Path → Name}
  {hash : List UInt8 → Digest}
  {prefill : Source Content → List Int32 → State}
  {world : World Path Content Digest State} {texts : List (List UInt8)}
  {event : Event Path Content} {owner model : Loaded Path Content}

/-- Every entry is the prefill of a prompt that was hashed. -/
def Kept (toStringLossy : Path → Name) (hash : List UInt8 → Digest)
    (prefill : Source Content → List Int32 → State)
    (texts : List (List UInt8)) (world : World Path Content Digest State) :
    Prop :=
  ∀ digest entry, world.cache digest = some entry →
    digest = prefixKey toStringLossy hash entry.owner entry.tokens ∧
      keyText toStringLossy entry.owner entry.tokens ∈ texts ∧
        entry.state = prefill entry.owner.source entry.tokens

omit [DecidableEq Path] [DecidableEq Digest] in
theorem Kept.mono {more : List (List UInt8)}
    {next : World Path Content Digest State}
    (kept : Kept toStringLossy hash prefill texts world)
    (subset : texts ⊆ more) (cache : next.cache = world.cache) :
    Kept toStringLossy hash prefill more next := by
  intro digest entry found
  rw [cache] at found
  obtain ⟨key, member, state⟩ := kept digest entry found
  exact ⟨key, subset member, state⟩

omit [DecidableEq Path] in
theorem Kept.storePrompt
    (kept : Kept toStringLossy hash prefill texts world)
    {tokens : List Int32}
    (member : keyText toStringLossy model tokens ∈ texts) :
    Kept toStringLossy hash prefill texts
      (world.storePrompt toStringLossy hash prefill model tokens) := by
  intro digest entry found
  by_cases same : digest = prefixKey toStringLossy hash model tokens
  · subst same
    rw [World.storePrompt] at found
    simp only [Function.update_self, Option.some.injEq] at found
    subst found
    exact ⟨rfl, member, rfl⟩
  · rw [World.storePrompt] at found
    simp only [Function.update_of_ne same] at found
    exact kept digest entry found

/-- What an event adds to the cache is what its generation hashed. -/
theorem Kept.step (kept : Kept toStringLossy hash prefill texts world)
    (event : Event Path Content) :
    Kept toStringLossy hash prefill
      (texts ++ world.keyed toStringLossy event)
      (world.step toStringLossy hash prefill event).1 := by
  have known := List.subset_append_left texts
    (world.keyed toStringLossy event)
  cases event with
  | replace path content => exact kept.mono known rfl
  | load handle path placement config => exact kept.mono known rfl
  | restart => exact kept.mono known rfl
  | generate handle tokens reads writes =>
      rw [World.step]
      cases loaded : world.loaded handle with
      | none => exact kept.mono known rfl
      | some model =>
          dsimp only
          cases world.tryRestorePrompt toStringLossy hash model tokens
            reads with
          | some entry => exact kept.mono known rfl
          | none =>
              dsimp only
              split_ifs
              · apply (kept.mono known rfl).storePrompt
                simp [World.keyed, loaded]
              · exact kept.mono known rfl

omit [DecidableEq Path] in
/-- Loads that agree where their keys do not tell are loads of one source. -/
theorem source_of_key {tokens tokens' : List Int32}
    (alike : Alike owner model)
    (same : keyText toStringLossy owner tokens =
      keyText toStringLossy model tokens') :
    owner.source = model.source ∧ tokens = tokens' := by
  obtain ⟨placement, nCtx, nBatch, nUbatch, kvK, kvV, loras, prompt⟩ :=
    prefixText_inj alike.counts same
  have scales :
      owner.config.loras.map LoraSpec.scale =
        model.config.loras.map LoraSpec.scale := by
    have seconds := congrArg (List.map Prod.snd) loras
    simpa [lorasKeyed, Function.comp_def] using seconds
  refine ⟨?_, prompt⟩
  rw [Loaded.source, Loaded.source, alike.content, alike.adapters,
    alike.flashAttn, placement, nCtx, nBatch, nUbatch, kvK, kvV, scales]

omit [DecidableEq Path] in
/-- Loads of one source agree in all that a key leaves open. -/
theorem alike_of_source (same : owner.source = model.source) :
    Alike owner model := by
  have placement := congrArg Source.placement same
  have adapters := congrArg Source.adapters same
  simp only [Loaded.source] at placement adapters
  have lengths (loaded : Loaded Path Content) :
      loaded.adapters.length ≤
        (loaded.config.loras.map LoraSpec.scale).length := by
    rw [List.length_map]
    exact loaded.paired.le
  have contents : owner.adapters = model.adapters := by
    have firsts := congrArg (List.map Prod.fst) adapters
    rwa [List.map_fst_zip (lengths owner),
      List.map_fst_zip (lengths model)] at firsts
  constructor
  · exact congrArg Source.model same
  · exact contents
  · exact congrArg Source.flashAttn same
  · constructor
    · rw [placement]
    · rw [placement]
    · rw [placement]
    · rw [placement]
    · rw [← owner.paired, ← model.paired, contents]

/-- The hit of one event is sound exactly if the event meets the condition. -/
theorem step_sound_iff (kept : Kept toStringLossy hash prefill texts world)
    (distinct : NoCollision hash
      (texts ++ world.keyed toStringLossy event)) :
    (∀ hit ∈ (world.step toStringLossy hash prefill event).2,
        hit.Sound prefill) ↔
      Meets toStringLossy hash world event := by
  cases event with
  | replace path content => simp [World.step, Meets]
  | load handle path placement config => simp [World.step, Meets]
  | restart => simp [World.step, Meets]
  | generate handle tokens reads writes =>
      rw [World.step, Meets]
      cases loaded : world.loaded handle with
      | none => simp
      | some model =>
          cases found : world.tryRestorePrompt toStringLossy hash model
              tokens reads with
          | none => simp [found]
          | some entry =>
              simp only [Option.mem_def, Option.some.injEq,
                forall_eq', found]
              constructor
              · intro sound
                exact alike_of_source sound.source
              · intro alike
                have cached :
                    world.cache (prefixKey toStringLossy hash model tokens) =
                      some entry := by
                  rw [World.tryRestorePrompt] at found
                  split_ifs at found
                  exact found
                obtain ⟨key, member, state⟩ := kept _ entry cached
                have texts := distinct _ (List.mem_append_left _ member)
                  (keyText toStringLossy model tokens)
                  (List.mem_append_right _ (by
                    simp [World.keyed, loaded])) key.symm
                obtain ⟨source, prompt⟩ := source_of_key alike texts
                constructor
                · exact source
                · exact prompt
                · rw [state, source, prompt]

theorem hits_sound_iff (kept : Kept toStringLossy hash prefill texts world)
    (events : List (Event Path Content))
    (distinct : NoCollision hash
      (texts ++ world.hashed toStringLossy hash prefill events)) :
    (∀ hit ∈ world.hits toStringLossy hash prefill events,
        hit.Sound prefill) ↔
      RunMeets toStringLossy hash prefill world events := by
  induction events generalizing world texts with
  | nil => simp [World.hits, RunMeets]
  | cons event events induction =>
      rw [World.hashed, ← List.append_assoc] at distinct
      have here : NoCollision hash
          (texts ++ world.keyed toStringLossy event) :=
        fun first member second member' =>
          distinct first (List.mem_append_left _ member) second
            (List.mem_append_left _ member')
      rw [World.hits, RunMeets, List.forall_mem_append,
        induction (kept.step event) distinct, ← step_sound_iff kept here]
      simp

end Runs

/--
From an empty cache, every state that a run restores is the one that a
prefill would make, exactly if each restored entry was stored by a load whose
files held the same bytes, with the same flash attention and lists of the
same lengths in the key.
-/
theorem restores_prefill_iff {Path Content Digest State : Type}
    [DecidableEq Path] [DecidableEq Digest] {toStringLossy : Path → Name}
    {hash : List UInt8 → Digest}
    {prefill : Source Content → List Int32 → State}
    {world : World Path Content Digest State}
    (fresh : ∀ digest, world.cache digest = none)
    (events : List (Event Path Content))
    (distinct : NoCollision hash
      (world.hashed toStringLossy hash prefill events)) :
    (∀ hit ∈ world.hits toStringLossy hash prefill events,
        hit.Sound prefill) ↔
      RunMeets toStringLossy hash prefill world events := by
  have kept : Kept toStringLossy hash prefill [] world := by
    intro digest entry found
    rw [fresh] at found
    cases found
  exact hits_sound_iff kept events distinct

/-! ## A file that is pulled again -/

def plainConfig : LoadConfig Name where
  nCtx := 4096
  nBatch := 512
  nUbatch := 512
  flashAttn := true
  kvK := none
  kvV := none
  loras := []

def onCpu : Placement where
  nGpuLayers := 0
  mainGpu := 0
  devices := []
  tensorSplit := []
  rpcServers := []
  cpuPatterns := []

def qwen : Name := ⟨"q".toList, by decide⟩

/-- One model, whose file has a version, and nothing loaded or cached. -/
def desk : World Name Nat (List UInt8) (Nat × List Int32) where
  files _ := 1
  loaded _ := none
  cache _ := none

/-- The model is loaded and asked. -/
def ask : List (Event Name Nat) :=
  [.load 0 qwen onCpu plainConfig, .generate 0 [7, 8] true true]

def pairUp (source : Source Nat) (tokens : List Int32) :
    Nat × List Int32 :=
  (source.model, tokens)

theorem not_collide (texts : List (List UInt8)) : NoCollision id texts :=
  fun _ _ _ _ same => same

/-- The same file under the path, over a restart. -/
theorem restores_prefill_again :
    ∃ hit, desk.hits id id pairUp (ask ++ .restart :: ask) = [hit] ∧
      hit.Sound pairUp := by
  have meets : RunMeets id id pairUp desk (ask ++ .restart :: ask) := by
    refine ⟨trivial, ?_, trivial, trivial, ?_, trivial⟩
    · intro model loaded entry found
      cases found
    · intro model loaded entry found
      cases loaded
      cases found
      exact ⟨rfl, rfl, rfl, rfl, rfl, rfl, rfl, rfl⟩
  have sound := (restores_prefill_iff (fun _ => rfl) _ (not_collide _)).mpr meets
  exact ⟨_, rfl, sound _ List.mem_cons_self⟩

/-- Another file under the path, and the state of the one before it. -/
theorem not_restores_prefill_pulled :
    ∃ hit, desk.hits id id pairUp (ask ++ .replace qwen 2 :: ask) = [hit] ∧
      hit.entry.state = (1, [7, 8]) ∧ hit.model.source.model = 2 ∧
        ¬ hit.Sound pairUp := by
  refine ⟨_, rfl, rfl, rfl, ?_⟩
  rintro ⟨source, -, -⟩
  have content := congrArg Source.model source
  cases content

end Runa.Engine.PromptCache
