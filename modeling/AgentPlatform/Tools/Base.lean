import AgentPlatform.Gateway.Models

/-!
# Tools

A tool is the only way an agent touches the outside world.  Its class attributes
say what it is called, what it needs and whether it is sensitive; its body runs
in the context of the requesting user.

The registry is a structure that carries its own well-formedness: no two tools
share a name, which `ToolRegistry.register` keeps by refusing a duplicate.
-/

namespace AgentPlatform

/-- Who asks for a tool, and for whom. -/
structure ToolContext where
  tenantId : String
  userId : String
  roles : List String
  correlationId : String
  resourceOwnerId : Option String := none
  deriving DecidableEq

structure ToolResult where
  ok : Bool
  data : Dict := []
  error : Option String := none

/-- `ToolResult.success(**data)` -/
def ToolResult.success (data : Dict) : ToolResult := { ok := true, data }

/-- `ToolResult.failure(error)` -/
def ToolResult.failure (error : String) : ToolResult := { ok := false, error := some error }

/-- The class attributes of a tool. -/
structure ToolClass where
  name : String
  description : String
  parameters : Json := .obj []
  /-- The permission needed to execute the tool; `none` asks for none. -/
  requiredPermission : Option String := none
  /-- High-impact: execution needs an approval. -/
  sensitive : Bool := false

/-- A tool as it is offered to a model. -/
def ToolClass.spec (c : ToolClass) : ToolSpec := ⟨c.name, c.description, c.parameters⟩

/-- A tool: its attributes and its body. -/
structure Tool extends ToolClass where
  run : ToolContext → Dict → Except PyErr ToolResult

/-- Among entries of different keys, an entry is found under its key. -/
theorem find?_key {α : Type} {key : α → String} {entries : List α} (h : (entries.map key).Nodup)
    {a : α} (ha : a ∈ entries) : entries.find? (fun b => key b = key a) = some a := by
  induction entries with
  | nil => exact absurd ha List.not_mem_nil
  | cons b bs ih =>
    rw [List.map_cons, List.nodup_cons] at h
    obtain ⟨hfresh, hrest⟩ := h
    rcases List.mem_cons.1 ha with rfl | hmem
    · simp
    · have hne : key b ≠ key a := fun heq => hfresh (List.mem_map.2 ⟨a, hmem, heq.symm⟩)
      rw [List.find?_cons_of_neg (by simpa using hne)]
      exact ih hrest hmem

/-- The registered tools, by name. -/
structure ToolRegistry where
  tools : List Tool
  nodup : (tools.map fun t => t.name).Nodup

namespace ToolRegistry

def empty : ToolRegistry := ⟨[], List.nodup_nil⟩

/-- The tool of that name. -/
def getTool (reg : ToolRegistry) (name : String) : Option Tool :=
  reg.tools.find? fun t => t.name = name

/-- Register a tool under a name that is still free. -/
def register (reg : ToolRegistry) (tool : Tool) : Except PyErr ToolRegistry :=
  if h : tool.name ∈ reg.tools.map fun t => t.name then
    .error (.valueError s!"duplicate tool registration: {tool.name}")
  else
    .ok ⟨reg.tools ++ [tool], by
      rw [List.map_append, List.nodup_append]
      refine ⟨reg.nodup, by simp, ?_⟩
      rintro a ha b hb rfl
      exact h (by simpa [List.mem_singleton.1 hb] using ha)⟩

theorem getTool_mem {reg : ToolRegistry} {name : String} {tool : Tool}
    (h : reg.getTool name = some tool) : tool ∈ reg.tools ∧ tool.name = name := by
  refine ⟨List.mem_of_find?_eq_some h, ?_⟩
  simpa using List.find?_some h

/-- A registered tool is the tool of its name. -/
theorem getTool_name {reg : ToolRegistry} {tool : Tool} (h : tool ∈ reg.tools) :
    reg.getTool tool.name = some tool := find?_key reg.nodup h

end ToolRegistry

end AgentPlatform
