import Hypertemplate.Binding.Resolve

/-!
# Events and listeners

A binding runs when the page starts or on an event at a node. Its event is named with two characters in
front, as in `onclick`. Listeners are kept in the order in which they were added; an event reaches those at
its target first and then those at each node above it.
-/

namespace Hypertemplate

inductive Trigger where
  | load
  | event (name : String)
  deriving DecidableEq, Repr, Inhabited

/-- The trigger that an event attribute names. -/
def Trigger.ofEvent (event : String) : Trigger :=
  if event = loadEvent then .load else .event (String.ofList (event.toList.drop 2))

structure Event where
  name : String
  target : NodeId
  defaultPrevented : Bool := false
  deriving DecidableEq, Repr, Inhabited

def Event.preventDefault (e : Event) : Event := { e with defaultPrevented := true }

structure Listener where
  node : NodeId
  event : String
  binding : Binding
  deriving DecidableEq, Repr

/-- Listeners, the one that was added first in front. -/
structure Listeners where
  entries : List Listener := []
  deriving DecidableEq, Repr

namespace Listeners

def add (ls : Listeners) (node : NodeId) (event : String) (binding : Binding) : Listeners :=
  ⟨ls.entries ++ [⟨node, event, binding⟩]⟩

/-- The bindings that listen for an event at a node itself. -/
def onNode (ls : Listeners) (event : String) (node : NodeId) : List Binding :=
  (ls.entries.filter fun l => l.node == node && l.event == event).map (·.binding)

/-- The bindings that an event at a node reaches, the node's own ones first and then outwards. -/
def reached (ls : Listeners) (d : Document) (target : NodeId) (event : String) : List Binding :=
  (d.ancestors target).flatMap (ls.onNode event)

def size (ls : Listeners) : Nat := ls.entries.length

end Listeners

end Hypertemplate
