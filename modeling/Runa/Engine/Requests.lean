import Runa.Engine.Generate

/-!
# Generation requests

`ChatMessage`, `GenerateRequest` and what they are made of, from
`runa-engine/src/generate.rs`, `vision.rs` and `ngram.rs`.
-/

namespace Runa.Engine.Requests

open Runa.Stream.Utf8
open Runa.Core.Think
open Runa.Engine.Generate
open Runa.Engine.Sampling

/-- One chat message. -/
structure ChatMessage where
  role : Text
  content : Text
  toolCalls : List ToolCall
  /-- The call a `tool` message answers. -/
  toolCallId : Option Text
deriving DecidableEq, Repr

/-- Shorthand for a user message. -/
def ChatMessage.user (content : Text) : ChatMessage where
  role := "user".toList
  content := content
  toolCalls := []
  toolCallId := none

/-- Pixel source for a `VisionFrame`. -/
inductive VisionSource where
  | path (path : Text)
  | rgb (width height : UInt32) (rgb : List UInt8)
deriving DecidableEq, Repr

/-- One image or video frame. -/
structure VisionFrame where
  tSec : Option Rat
  source : VisionSource
deriving DecidableEq, Repr

/-- Speculative decoding options. -/
structure Speculative where
  ngram : Bool
  draftN : Nat
  draft : Option Text
deriving DecidableEq, Repr

def Speculative.default : Speculative where
  ngram := false
  draftN := 4
  draft := none

/-- llama.cpp `common` defaults; the kernel sampler is switched on by the
environment. -/
def SamplingConfig.defaults (kernelSampler : Bool) : SamplingConfig where
  temperature := 4 / 5
  topK := 40
  topP := 19 / 20
  minP := 1 / 20
  repeatPenalty := 1
  repeatLastN := 64
  seed := 42
  kernelSampler := kernelSampler

/-- What to generate. -/
structure GenerateRequest where
  messages : List ChatMessage
  sampling : SamplingConfig
  maxTokens : UInt32
  stop : List Text
  addGenerationPrompt : Bool
  think : ThinkConfig
  audioPcm : Option (List Rat)
  images : List VisionFrame
  speculative : Speculative
  jsonSchema : Option Text
  grammar : Option Text
  tools : Option Text
  toolChoice : Option Text
deriving DecidableEq, Repr

def GenerateRequest.default (kernelSampler : Bool) : GenerateRequest where
  messages := []
  sampling := SamplingConfig.defaults kernelSampler
  maxTokens := 512
  stop := []
  addGenerationPrompt := true
  think := .default
  audioPcm := none
  images := []
  speculative := .default
  jsonSchema := none
  grammar := none
  tools := none
  toolChoice := none

end Runa.Engine.Requests
