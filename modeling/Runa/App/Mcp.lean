import Runa.App.Chat
import Runa.App.Config
import Runa.Json.Codec

/-!
# The hub of tool servers

The embedding of `McpHub` of `runa/src/mcp.rs`, which starts the servers, lists
their tools and takes calls to them, and of `tools_from_openai` of
`runa-cloud/src/anthropic.rs`.  The handshake and a server's answer to a call
are parameters; a server may change with every call that it gets, and with no
other.  `calls_apart` says what each server gets of a run of calls.
-/

namespace Runa.App.Mcp

open Runa.App.Config (McpServer message)
open Runa.Engine.Generate (ToolCall)
open Runa.Json
open Runa.Stream.Utf8

abbrev JsonObject := List (Text × Value)

/-- A tool as its server lists it. -/
structure Tool where
  name : Text
  description : Option Text
  inputSchema : JsonObject

/-- How the start of a server ends: in time or not, with what it lists. -/
inductive Handshake (σ : Type) where
  | late
  | failed (error : Text)
  | listed (session : σ) (tools : List Tool)

/-- What a call comes to: the content is given by its texts. -/
inductive Called where
  | late
  | failed (error : Text)
  | done (content : List (Option Text)) (structured : Option Value)
      (isError : Option Bool)

/-- Connected servers and the tools they offer, each with the index of its
session. -/
structure Hub (σ : Type) where
  sessions : List σ
  tools : List (Tool × Nat)
  distinct : (tools.map fun entry => entry.1.name).Nodup
  within : ∀ entry ∈ tools, entry.2 < sessions.length

section

variable {σ : Type}

/-! ## Start -/

def timeout : Text := "120s".toList

/-- One more tool, unless its name is taken. -/
def offer (server : Text) (index : Nat) (tools : List (Tool × Nat))
    (tool : Tool) : Except Text (List (Tool × Nat)) :=
  if tools.any fun entry => entry.1.name = tool.name then
    .error (message ["mcp ".toList, server, ": tool ".toList, tool.name,
      " is offered twice".toList])
  else .ok (tools ++ [(tool, index)])

theorem offers_iff {server : Text} {index : Nat}
    {tools later : List (Tool × Nat)} (listed : List Tool)
    (distinct : (tools.map fun entry => entry.1.name).Nodup) :
    listed.foldlM (offer server index) tools = .ok later ↔
      later = tools ++ listed.map (fun tool => (tool, index)) ∧
        (later.map fun entry => entry.1.name).Nodup := by
  induction listed generalizing tools with
  | nil =>
      rw [List.map_nil, List.append_nil]
      constructor
      · rintro ⟨⟩
        exact ⟨rfl, distinct⟩
      · rintro ⟨rfl, -⟩
        rfl
  | cons tool listed ih =>
      rw [List.foldlM_cons, List.map_cons]
      by_cases taken : tools.any fun entry => entry.1.name = tool.name
      · have fails : offer server index tools tool = .error (message
            ["mcp ".toList, server, ": tool ".toList, tool.name,
              " is offered twice".toList]) := if_pos taken
        rw [fails]
        constructor
        · rintro ⟨⟩
        · rintro ⟨rfl, apart⟩
          rcases List.any_eq_true.mp taken with ⟨entry, member, same⟩
          rw [List.map_append, List.map_cons, List.nodup_append] at apart
          have named := List.mem_map_of_mem
            (f := fun entry : Tool × Nat => entry.1.name) member
          exact (apart.2.2 _ named _ List.mem_cons_self
            (of_decide_eq_true same)).elim
      · have goes : offer server index tools tool =
            .ok (tools ++ [(tool, index)]) := if_neg taken
        have apart : ((tools ++ [(tool, index)]).map fun entry =>
            entry.1.name).Nodup := by
          rw [List.map_append, List.nodup_append]
          refine ⟨distinct, List.nodup_singleton _, ?_⟩
          intro name named other alone same
          rcases List.mem_map.mp named with ⟨entry, member, rfl⟩
          rw [List.mem_singleton.mp alone] at same
          exact taken (List.any_eq_true.mpr
            ⟨entry, member, decide_eq_true same⟩)
        rw [goes]
        show listed.foldlM (offer server index) (tools ++ [(tool, index)]) =
          .ok later ↔ _
        rw [ih apart, List.append_assoc, List.singleton_append]

def Hub.empty : Hub σ where
  sessions := []
  tools := []
  distinct := List.nodup_nil
  within := fun entry none => by cases none

/-- One more server, with its tools. -/
def Hub.connect (hub : Hub σ) (server : McpServer) :
    Handshake σ → Except Text (Hub σ)
  | .late =>
      .error (message ["mcp ".toList, server.name,
        ": no handshake within ".toList, timeout])
  | .failed error =>
      .error (message ["mcp ".toList, server.name, ": ".toList, error])
  | .listed session listed =>
      match offered : listed.foldlM (offer server.name hub.sessions.length)
          hub.tools with
      | .error error => .error error
      | .ok tools =>
          .ok
            { sessions := hub.sessions ++ [session]
              tools := tools
              distinct := ((offers_iff listed hub.distinct).mp offered).2
              within := by
                rw [((offers_iff listed hub.distinct).mp offered).1]
                intro entry member
                rw [List.length_append, List.length_singleton]
                rcases List.mem_append.mp member with old | new
                · exact Nat.lt_succ_of_lt (hub.within entry old)
                · rcases List.mem_map.mp new with ⟨tool, -, rfl⟩
                  exact Nat.lt_succ_self _ }

/-- `McpHub::start` -/
def start (handshake : McpServer → Handshake σ)
    (servers : List McpServer) : Except Text (Hub σ) :=
  servers.foldlM (fun hub server => hub.connect server (handshake server))
    .empty

/-! ## Tools -/

/-- A tool in OpenAI shape. -/
def Tool.json (tool : Tool) : Value :=
  .obj [("type", .str "function"),
    ("function", .obj [("name", .string tool.name),
      ("description", .string (tool.description.getD [])),
      ("parameters", .object tool.inputSchema)])]

/-- All tools as an OpenAI `tools` array. -/
def Hub.toolsJson (hub : Hub σ) : Value :=
  .array (hub.tools.map fun entry => entry.1.json)

/-- `value[key]` -/
def index (value : Value) (key : String) : Value :=
  (value.get key).getD .null

def isObject : Value → Bool
  | .object _ => true
  | _ => false

/-- A tool in Anthropic shape, from one in OpenAI shape. -/
def toolFromOpenai (tool : Value) : Value :=
  let function := index tool "function"
  .obj [("name", index function "name"),
    ("description",
      .string ((index function "description").asStr.getD [])),
    ("input_schema",
      if isObject (index function "parameters") then
        index function "parameters"
      else .obj [("type", .str "object")])]

def toolsFromOpenai (tools : Value) : List Value :=
  (tools.asArray.getD []).map toolFromOpenai

/-! ## Calls -/

variable (serde : Serde)

/-- The arguments of a call, unless they are no object. -/
def arguments (call : ToolCall) : Except Text JsonObject :=
  match serde.parse call.arguments with
  | .ok (.object members) => .ok members
  | .ok .null => .ok []
  | _ =>
      .error (message ["error: arguments are not a JSON object: ".toList,
        call.arguments])

/-- The session of a call and its arguments, or why there is none. -/
def Hub.route (hub : Hub σ) (call : ToolCall) :
    Except Text (Nat × JsonObject) :=
  match hub.tools.find? fun entry => entry.1.name = call.name with
  | none => .error (message ["error: unknown tool ".toList, call.name])
  | some entry =>
      (arguments serde call).map fun members => (entry.2, members)

/-- The output of a call, as text that the model can read. -/
def output (call : ToolCall) : Called → Text
  | .late =>
      message ["error: ".toList, call.name, " timed out after ".toList,
        timeout]
  | .failed error => message ["error: ".toList, error]
  | .done content structured isError =>
      let text := ['\n'].intercalate (content.filterMap id)
      let text :=
        match structured with
        | some value => if text = [] then serde.print value else text
        | none => text
      if isError = some true then message ["error: ".toList, text] else text

variable (callTool : σ → Text → JsonObject → Called × σ)

/-- The sessions after one of them has changed. -/
def Hub.setSession (hub : Hub σ) (index : Nat) (session : σ) : Hub σ where
  sessions := hub.sessions.set index session
  tools := hub.tools
  distinct := hub.distinct
  within := fun entry member => by
    rw [List.length_set]
    exact hub.within entry member

/-- Run one call. -/
def Hub.call (hub : Hub σ) (call : ToolCall) : Text × Hub σ :=
  match hub.route serde call with
  | .error text => (text, hub)
  | .ok (index, members) =>
      match hub.sessions[index]? with
      -- A listed session is always there.
      | none => ([], hub)
      | some session =>
          let called := callTool session call.name members
          (output serde call called.1, hub.setSession index called.2)

/-- The calls of a run, one after the other. -/
def Hub.callAll (hub : Hub σ) : List ToolCall → List Text × Hub σ
  | [] => ([], hub)
  | call :: calls =>
      let called := hub.call serde callTool call
      let rest := called.2.callAll calls
      (called.1 :: rest.1, rest.2)

end

/-! ## What is started -/

section

variable {σ : Type} {handshake : McpServer → Handshake σ}
  {peers : List (σ × List Tool)} {hub later : Hub σ}

/-- The hub of some sessions and the tools that each of them lists. -/
structure Joins (peers : List (σ × List Tool)) (hub : Hub σ) : Prop where
  sessions : hub.sessions = peers.map Prod.fst
  tools : hub.tools = peers.zipIdx.flatMap fun entry =>
    entry.1.2.map fun tool => (tool, entry.2)

theorem Joins.connect (joins : Joins peers hub) {server : McpServer}
    {shaken : Handshake σ}
    (connected : hub.connect server shaken = .ok later) :
    ∃ peer, shaken = .listed peer.1 peer.2 ∧
      Joins (peers ++ [peer]) later := by
  cases shaken with
  | late => cases connected
  | failed error => cases connected
  | listed session listed =>
      refine ⟨(session, listed), rfl, ?_⟩
      simp only [Hub.connect] at connected
      split at connected
      · cases connected
      · rename_i tools offered
        cases connected
        have grown := ((offers_iff listed hub.distinct).mp offered).1
        constructor
        · rw [List.map_append, ← joins.sessions]
          rfl
        · show tools = _
          rw [grown, joins.sessions, joins.tools, List.length_map,
            List.zipIdx_append, List.flatMap_append]
          simp

/-- A hub that is started has every server, in order. -/
theorem start_joins {servers : List McpServer}
    (started : start handshake servers = .ok hub) :
    ∃ peers : List (σ × List Tool),
      servers.map handshake =
          peers.map (fun peer => .listed peer.1 peer.2) ∧
        Joins peers hub := by
  unfold start at started
  induction servers using List.reverseRecOn generalizing hub with
  | nil =>
      cases started
      exact ⟨[], rfl, rfl, rfl⟩
  | append_singleton servers server ih =>
      rw [List.foldlM_append] at started
      cases before : servers.foldlM
          (fun hub server => hub.connect server (handshake server))
          Hub.empty with
      | error error =>
          rw [before] at started
          cases started
      | ok old =>
          rw [before] at started
          simp only [List.foldlM_cons, List.foldlM_nil, bind_pure]
            at started
          have connected :
              old.connect server (handshake server) = .ok hub := started
          rcases ih before with ⟨peers, all, joins⟩
          rcases joins.connect connected with ⟨peer, listed, joins⟩
          refine ⟨peers ++ [peer], ?_, joins⟩
          rw [List.map_append, List.map_append, all, List.map_singleton,
            listed, List.map_singleton]

/-- A server's tool is listed under the place of the server. -/
theorem Joins.mem_tools (joins : Joins peers hub) {tool : Tool}
    {place : Nat} :
    (tool, place) ∈ hub.tools ↔
      ∃ peer, peers[place]? = some peer ∧ tool ∈ peer.2 := by
  rw [joins.tools, List.mem_flatMap]
  constructor
  · rintro ⟨⟨peer, place⟩, there, listed⟩
    rcases List.mem_map.mp listed with ⟨tool, member, ⟨⟩⟩
    exact ⟨peer, List.mem_zipIdx_iff_getElem?.mp there, member⟩
  · rintro ⟨peer, there, member⟩
    exact ⟨(peer, place), List.mem_zipIdx_iff_getElem?.mpr there,
      List.mem_map_of_mem member⟩

/-- A name stands for one tool of one server. -/
theorem Hub.find_tool (hub : Hub σ) {entry : Tool × Nat}
    (member : entry ∈ hub.tools) :
    hub.tools.find? (fun other => other.1.name = entry.1.name) =
      some entry := by
  have distinct := hub.distinct
  generalize hub.tools = tools at member distinct ⊢
  induction tools with
  | nil => cases member
  | cons first rest ih =>
      rw [List.map_cons, List.nodup_cons] at distinct
      rcases List.mem_cons.mp member with rfl | member
      · exact List.find?_cons_of_pos (by simp)
      · rw [List.find?_cons_of_neg]
        · exact ih member distinct.2
        · intro same
          apply distinct.1
          rw [of_decide_eq_true same]
          exact List.mem_map_of_mem member

end

/-! ## Who gets a call -/

section

variable {σ : Type} {peers : List (σ × List Tool)} {hub : Hub σ}
  (serde : Serde) (callTool : σ → Text → JsonObject → Called × σ)

/-- What a server that lists some tools gets of a call, if it gets it. -/
def takes (tools : List Tool) (call : ToolCall) : Option JsonObject :=
  if tools.any fun tool => tool.name = call.name then
    (arguments serde call).toOption
  else none

/-- The session behind a call, if it gets it. -/
def after (tools : List Tool) (session : σ) (call : ToolCall) : σ :=
  match takes serde tools call with
  | some members => (callTool session call.name members).2
  | none => session

variable {serde callTool}

/-- A call is sent to the one server that takes it. -/
theorem Joins.route_iff (joins : Joins peers hub) {call : ToolCall}
    {place : Nat} {members : JsonObject} :
    hub.route serde call = .ok (place, members) ↔
      ∃ peer, peers[place]? = some peer ∧
        takes serde peer.2 call = some members := by
  unfold Hub.route takes
  constructor
  · intro routed
    split at routed
    · cases routed
    · rename_i entry found
      have member := List.mem_of_find?_eq_some found
      have named := List.find?_some found
      rcases joins.mem_tools.mp
        (show (entry.1, entry.2) ∈ hub.tools from member) with
        ⟨peer, there, listed⟩
      cases given : arguments serde call with
      | error error =>
          rw [given] at routed
          cases routed
      | ok members =>
          rw [given] at routed
          cases routed
          refine ⟨peer, there, if_pos ?_⟩
          exact List.any_eq_true.mpr ⟨entry.1, listed, named⟩
  · rintro ⟨peer, there, taken⟩
    split_ifs at taken with listed
    rcases List.any_eq_true.mp listed with ⟨tool, member, named⟩
    have found := hub.find_tool
      (joins.mem_tools.mpr ⟨peer, there, member⟩)
    simp only [of_decide_eq_true named] at found
    simp only [found]
    cases given : arguments serde call with
    | error error =>
        rw [given] at taken
        cases taken
    | ok members' =>
        rw [given] at taken
        cases taken
        rfl

theorem Joins.changed (joins : Joins peers hub)
    (change : σ → List Tool → σ) {later : Hub σ}
    (tools : later.tools = hub.tools)
    (sessions :
      later.sessions = peers.map fun peer => change peer.1 peer.2) :
    Joins (peers.map fun peer => (change peer.1 peer.2, peer.2)) later where
  sessions := by
    rw [sessions, List.map_map]
    rfl
  tools := by
    rw [tools, joins.tools, List.zipIdx_map, List.flatMap_map]
    rfl

variable (serde callTool) in
/-- A call changes the server that takes it, and no other. -/
theorem Joins.call (joins : Joins peers hub) (call : ToolCall) :
    Joins
      (peers.map fun peer =>
        (after serde callTool peer.2 peer.1 call, peer.2))
      (hub.call serde callTool call).2 := by
  unfold Hub.call
  cases routed : hub.route serde call with
  | error text =>
      refine joins.changed
        (fun session tools => after serde callTool tools session call) rfl ?_
      show hub.sessions = _
      rw [joins.sessions]
      apply List.map_congr_left
      intro peer member
      unfold after
      cases taken : takes serde peer.2 call with
      | none => rfl
      | some members =>
          rcases List.mem_iff_getElem?.mp member with ⟨place, there⟩
          have sent := joins.route_iff.mpr ⟨peer, there, taken⟩
          rw [routed] at sent
          cases sent
  | ok sent =>
      rcases sent with ⟨place, members⟩
      rcases joins.route_iff.mp routed with ⟨peer, there, taken⟩
      have held : hub.sessions[place]? = some peer.1 := by
        rw [joins.sessions, List.getElem?_map, there]
        rfl
      simp only [held]
      refine joins.changed
        (fun session tools => after serde callTool tools session call) ?_ ?_
      · rfl
      show hub.sessions.set place _ = _
      apply List.ext_getElem?
      intro i
      rw [List.getElem?_map]
      by_cases same : place = i
      · subst same
        rw [List.getElem?_set_self (List.getElem?_eq_some_iff.mp held).1,
          there, Option.map_some, after, taken]
      · rw [List.getElem?_set_ne same, joins.sessions, List.getElem?_map]
        cases other : peers[i]? with
        | none => rfl
        | some peer' =>
            rw [Option.map_some, Option.map_some, after]
            cases took : takes serde peer'.2 call with
            | none => rfl
            | some members' =>
                have sent := joins.route_iff.mpr ⟨peer', other, took⟩
                rw [routed] at sent
                cases sent
                exact (same rfl).elim

/-- The answer to a call that a server takes. -/
theorem Joins.answer (joins : Joins peers hub) {call : ToolCall}
    {place : Nat} {peer : σ × List Tool} (there : peers[place]? = some peer)
    {members : JsonObject} (taken : takes serde peer.2 call = some members) :
    (hub.call serde callTool call).1 =
      output serde call (callTool peer.1 call.name members).1 := by
  have routed := joins.route_iff.mpr ⟨peer, there, taken⟩
  have held : hub.sessions[place]? = some peer.1 := by
    rw [joins.sessions, List.getElem?_map, there]
    rfl
  unfold Hub.call
  simp only [routed, held]

/-- Some server lists a tool of that name. -/
def Offered (peers : List (σ × List Tool)) (name : Text) : Prop :=
  ∃ peer ∈ peers, ∃ tool ∈ peer.2, tool.name = name

/-- The answer to a call of a tool that no server has. -/
theorem Joins.unknown (joins : Joins peers hub) {call : ToolCall}
    (unknown : ¬ Offered peers call.name) :
    (hub.call serde callTool call).1 =
      message ["error: unknown tool ".toList, call.name] := by
  have none : hub.tools.find? (fun entry => entry.1.name = call.name) =
      none := by
    rw [List.find?_eq_none]
    intro entry member named
    rcases joins.mem_tools.mp
      (show (entry.1, entry.2) ∈ hub.tools from member) with
      ⟨peer, there, listed⟩
    exact unknown ⟨peer, List.mem_of_getElem? there, entry.1, listed,
      of_decide_eq_true named⟩
  unfold Hub.call Hub.route
  simp only [none]

/-- The answer to a call of a tool with arguments that are no object. -/
theorem Joins.unreadable (joins : Joins peers hub) {call : ToolCall}
    (offered : Offered peers call.name) {error : Text}
    (unreadable : arguments serde call = .error error) :
    (hub.call serde callTool call).1 = error := by
  rcases offered with ⟨peer, member, tool, listed, named⟩
  rcases List.mem_iff_getElem?.mp member with ⟨place, there⟩
  have found := hub.find_tool (joins.mem_tools.mpr ⟨peer, there, listed⟩)
  simp only [named] at found
  unfold Hub.call Hub.route
  simp only [found, unreadable]
  rfl

/-! ## Runs of calls -/

variable (serde callTool) in
/-- The state of a server behind the calls that it took of some. -/
def served (peer : σ × List Tool) (calls : List ToolCall) : σ :=
  calls.foldl (after serde callTool peer.2) peer.1

variable (serde callTool) in
theorem Joins.callAll (joins : Joins peers hub) (calls : List ToolCall) :
    Joins
      (peers.map fun peer => (served serde callTool peer calls, peer.2))
      (hub.callAll serde callTool calls).2 := by
  induction calls generalizing peers hub with
  | nil =>
      have same : (peers.map fun peer =>
          (served serde callTool peer [], peer.2)) = peers :=
        List.map_id _
      rw [same]
      exact joins
  | cons call calls ih =>
      have rest := ih (joins.call serde callTool call)
      rw [List.map_map] at rest
      exact rest

theorem getElem?_callAll (calls : List ToolCall) (hub : Hub σ) (j : Nat) :
    (hub.callAll serde callTool calls).1[j]? =
      calls[j]?.map fun call =>
        ((hub.callAll serde callTool (calls.take j)).2.call serde callTool
          call).1 := by
  induction calls generalizing hub j with
  | nil => simp [Hub.callAll]
  | cons call calls ih =>
      cases j with
      | zero => rfl
      | succ j =>
          rw [Hub.callAll, List.getElem?_cons_succ, List.getElem?_cons_succ,
            ih, List.take_succ_cons]
          rfl

theorem length_callAll (calls : List ToolCall) (hub : Hub σ) :
    (hub.callAll serde callTool calls).1.length = calls.length := by
  induction calls generalizing hub with
  | nil => rfl
  | cons call calls ih => exact congrArg Nat.succ (ih _)

/-- The tools of a hub are those of its servers, in order. -/
theorem Joins.map_tools {α : Type} (joins : Joins peers hub)
    (of : Tool → α) :
    hub.tools.map (fun entry => of entry.1) =
      peers.flatMap fun peer => peer.2.map of := by
  rw [joins.tools, List.map_flatMap]
  have first : peers = peers.zipIdx.map Prod.fst :=
    (List.zipIdx_map_fst 0 peers).symm
  conv_rhs => rw [first, List.flatMap_map]
  simp only [List.map_map]
  rfl

/-- What a run of calls comes to, by the servers and their tools. -/
structure Apart (serde : Serde)
    (callTool : σ → Text → JsonObject → Called × σ)
    (peers : List (σ × List Tool)) (hub : Hub σ)
    (calls : List ToolCall) : Prop where
  sessions : (hub.callAll serde callTool calls).2.sessions =
    peers.map fun peer => served serde callTool peer calls
  outputs : (hub.callAll serde callTool calls).1.length = calls.length
  unknown : ∀ (j : Nat) (call : ToolCall), calls[j]? = some call →
    ¬ Offered peers call.name →
      (hub.callAll serde callTool calls).1[j]? =
        some (message ["error: unknown tool ".toList, call.name])
  known : ∀ (j : Nat) (call : ToolCall), calls[j]? = some call →
    ∀ peer ∈ peers, ∀ tool ∈ peer.2, tool.name = call.name →
      (hub.callAll serde callTool calls).1[j]? =
        some
          (match arguments serde call with
          | .error error => error
          | .ok members =>
              output serde call
                (callTool (served serde callTool peer (calls.take j))
                  call.name members).1)

theorem Joins.apart (joins : Joins peers hub) (calls : List ToolCall) :
    Apart serde callTool peers hub calls where
  sessions := by
    rw [(joins.callAll serde callTool calls).sessions, List.map_map]
    rfl
  outputs := length_callAll calls hub
  unknown := by
    intro j call there unknown
    have now := joins.callAll serde callTool (calls.take j)
    rw [getElem?_callAll, there, Option.map_some, now.unknown]
    rintro ⟨peer', member, offers⟩
    rcases List.mem_map.mp member with ⟨peer, inside, rfl⟩
    exact unknown ⟨peer, inside, offers⟩
  known := by
    intro j call there peer member tool listed named
    have now := joins.callAll serde callTool (calls.take j)
    rw [getElem?_callAll, there, Option.map_some]
    have member' := List.mem_map_of_mem
      (f := fun peer : σ × List Tool =>
        (served serde callTool peer (calls.take j), peer.2)) member
    cases given : arguments serde call with
    | error error =>
        rw [now.unreadable ⟨_, member', tool, listed, named⟩ given]
    | ok members =>
        rcases List.mem_iff_getElem?.mp member' with ⟨place, there'⟩
        have taken : takes serde peer.2 call = some members := by
          rw [takes, if_pos, given]
          · rfl
          · exact List.any_eq_true.mpr
              ⟨tool, listed, decide_eq_true named⟩
        rw [now.answer there' taken]

/-- Every call goes to the one server that lists its tool, in the order of the
calls; a server changes with its own calls only, and answers each as if there
were no other server. -/
theorem calls_apart {handshake : McpServer → Handshake σ}
    {servers : List McpServer} (serde : Serde)
    (callTool : σ → Text → JsonObject → Called × σ)
    (started : start handshake servers = .ok hub) :
    ∃ peers : List (σ × List Tool),
      servers.map handshake =
          peers.map (fun peer => .listed peer.1 peer.2) ∧
        (peers.flatMap fun peer => peer.2.map Tool.name).Nodup ∧
          hub.toolsJson =
              .array (peers.flatMap fun peer => peer.2.map Tool.json) ∧
            ∀ calls, Apart serde callTool peers hub calls := by
  rcases start_joins started with ⟨peers, all, joins⟩
  refine ⟨peers, all, ?_, ?_, joins.apart⟩
  · rw [← joins.map_tools]
    exact hub.distinct
  · rw [← joins.map_tools]
    rfl

/-- Servers with a tool each, named like themselves. -/
def lister (server : McpServer) : Handshake Nat :=
  .listed 0 [⟨server.name, none, []⟩]

def clockServers : List McpServer :=
  [⟨"clock".toList, "clockd".toList, [], []⟩,
    ⟨"echo".toList, "echod".toList, [], []⟩]

/-- A server that counts the calls which it gets. -/
def counted (session : Nat) (_ : Text) (_ : JsonObject) : Called × Nat :=
  (.done [some (toString session).toList] none none, session + 1)

def clockHub : Hub Nat where
  sessions := [0, 0]
  tools :=
    [(⟨"clock".toList, none, []⟩, 0), (⟨"echo".toList, none, []⟩, 1)]
  distinct := by simp
  within := by simp

theorem calls_apart_clock :
    start lister clockServers = .ok clockHub ∧
      ∃ peers, clockServers.map lister =
          peers.map (fun peer => .listed peer.1 peer.2) ∧
        (peers.flatMap fun peer => peer.2.map Tool.name).Nodup ∧
          clockHub.toolsJson =
              .array (peers.flatMap fun peer => peer.2.map Tool.json) ∧
            ∀ calls, Apart Codec.serde counted peers clockHub calls :=
  ⟨rfl, calls_apart Codec.serde counted
    (show start lister clockServers = .ok clockHub from rfl)⟩

/-! ## What the two services are offered -/

/-- A tool in Anthropic shape. -/
def Tool.anthropic (tool : Tool) : Value :=
  .obj [("name", .string tool.name),
    ("description", .string (tool.description.getD [])),
    ("input_schema", .object tool.inputSchema)]

/-- Both services are offered the same tools. -/
theorem toolsFromOpenai_toolsJson (hub : Hub σ) :
    toolsFromOpenai hub.toolsJson =
      hub.tools.map fun entry => entry.1.anthropic := by
  unfold toolsFromOpenai Hub.toolsJson
  rw [Value.asArray, Option.getD_some, List.map_map]
  apply List.map_congr_left
  intro entry member
  simp [toolFromOpenai, Tool.json, Tool.anthropic, index, isObject]

end

end Runa.App.Mcp
