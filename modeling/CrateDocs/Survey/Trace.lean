import CrateDocs.Survey.Basic

/-!
# Traces

A trace lists the nodes of a payload in the order in which a survey enters them. Below a node whose
kind is pruned nothing is entered.
-/

namespace CrateDocs

inductive NodeKind
  | item
  | id
  | type
  | path
  | args
  | generics
  | param
  | bound
deriving DecidableEq

namespace NodeKind

def all : List NodeKind := [.item, .id, .type, .path, .args, .generics, .param, .bound]

def name : NodeKind → String
  | item => "item"
  | id => "id"
  | type => "type"
  | path => "path"
  | args => "args"
  | generics => "generics"
  | param => "param"
  | bound => "bound"

def ofName? (name : String) : Option NodeKind :=
  all.find? fun kind => kind.name == name

theorem ofName?_name (kind : NodeKind) : ofName? kind.name = some kind := by
  cases kind <;> decide

end NodeKind

/-- A node that was entered, with a word on it. -/
structure TraceEntry where
  kind : NodeKind
  detail : String
deriving DecidableEq

namespace TraceEntry

def ofId (id : ItemId) : TraceEntry :=
  ⟨.id, id.text⟩

def ofPayload (payload : Payload) : TraceEntry :=
  ⟨.item, payload.kind.name⟩

/-- The entry of a type expression shows its form and, if it is a path, the item it stands for. -/
def ofType (type : TypeExpr) : TraceEntry :=
  ⟨.type, match type.resolvedId? with
    | some id => type.tag ++ "=" ++ id.text
    | none => type.tag⟩

def ofPath (path : Path) : TraceEntry :=
  ⟨.path, path.name⟩

def ofArgs : GenericArgs → TraceEntry
  | .angleBracketed _ _ => ⟨.args, "AngleBracketed"⟩
  | .parenthesized _ _ => ⟨.args, "Parenthesized"⟩

def ofGenerics (generics : Generics) : TraceEntry :=
  ⟨.generics, toString generics.params.length ++ "+" ++ toString generics.predicates.length⟩

def ofParam (param : Param) : TraceEntry :=
  ⟨.param, param.name⟩

def ofBound : Bound → TraceEntry
  | .traitBound _ _ _ => ⟨.bound, "TraitBound"⟩
  | .outlives _ => ⟨.bound, "Outlives"⟩

def render (entry : TraceEntry) : String :=
  entry.kind.name ++ ":" ++ entry.detail

end TraceEntry

/-- What a node adds to a trace: its entry and, unless its kind is pruned, the entries below. -/
def TraceEntry.above (pruned : NodeKind → Bool) (entry : TraceEntry)
    (below : List TraceEntry) : List TraceEntry :=
  entry :: if pruned entry.kind then [] else below

def Survey.trace (pruned : NodeKind → Bool) : Survey TraceEntry where
  payload := fun payload => (TraceEntry.ofPayload payload).above pruned
  id := fun id => (TraceEntry.ofId id).above pruned []
  typeExpr := fun type => (TraceEntry.ofType type).above pruned
  path := fun path => (TraceEntry.ofPath path).above pruned
  args := fun args => (TraceEntry.ofArgs args).above pruned
  generics := fun generics => (TraceEntry.ofGenerics generics).above pruned
  param := fun param => (TraceEntry.ofParam param).above pruned
  bound := fun bound => (TraceEntry.ofBound bound).above pruned

/-- The nodes of a payload in the order in which they are entered. -/
def Payload.trace (pruned : NodeKind → Bool) (payload : Payload) : List TraceEntry :=
  payload.gather (Survey.trace pruned)

end CrateDocs
