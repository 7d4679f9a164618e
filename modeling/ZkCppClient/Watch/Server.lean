import Mathlib.Logic.Function.Basic
import ZkCppClient.Basic

/-!
# The server under the watches

The tree of znodes, the writes of other clients, and the events they raise: the
creation, change or deletion of a node for the watches on it, and a child event
for the child watches on its parent.
-/

namespace ZkCppClient.Watch

inductive Kind
  | node
  | child
  deriving DecidableEq, Repr

/-- A path by its names, the last one first. -/
abbrev Path := List String

/-- `value` is `none` for the null datum. -/
structure Znode where
  value : Option String
  version : Int32
  children : List String
  deriving DecidableEq, Repr

abbrev Tree := Path → Option Znode

inductive EventType
  | created
  | deleted
  | changed
  | child
  | session
  | notWatching
  deriving DecidableEq, Repr

inductive Write
  | create (path : Path) (value : Option String)
  | set (path : Path) (value : Option String)
  | delete (path : Path)
  deriving DecidableEq, Repr

def Tree.apply (nodes : Tree) : Write → Option Tree
  | .create (name :: parent) value =>
    match nodes parent, nodes (name :: parent) with
    | some p, none =>
      let linked := Function.update nodes parent (some { p with children := p.children ++ [name] })
      some (Function.update linked (name :: parent) (some ⟨value, 0, []⟩))
    | _, _ => none
  | .set path value =>
    (nodes path).map fun n => Function.update nodes path (some { n with value, version := n.version + 1 })
  | .delete (name :: parent) =>
    match nodes parent, nodes (name :: parent) with
    | some p, some n =>
      if n.children = [] then
        let unlinked := Function.update nodes parent (some { p with children := p.children.erase name })
        some (Function.update unlinked (name :: parent) none)
      else none
    | _, _ => none
  | _ => none

/-- The event that a write raises for the watches on a path. -/
def Write.event : Write → Kind → Path → Option EventType
  | .create path _, .node, p => if p = path then some .created else none
  | .set path _, .node, p => if p = path then some .changed else none
  | .delete path, .node, p => if p = path then some .deleted else none
  | .create path _, .child, p => if p = path.tail then some .child else none
  | .set _ _, .child, _ => none
  | .delete path, .child, p => if p = path then some .deleted else if p = path.tail then some .child else none

inductive Fetched
  | data (value : Option String) (version : Int32)
  | childNodes (strings : List String)
  | failed (rc : Rc)
  deriving DecidableEq, Repr

def Tree.read (nodes : Tree) (path : Path) : Kind → Fetched
  | .node => (nodes path).elim (.failed .znonode) fun n => .data n.value n.version
  | .child => (nodes path).elim (.failed .znonode) fun n => .childNodes n.children

def fetchAsserted : Rc → Bool
  | .zconnectionloss | .zoperationtimeout | .znoauth | .znonode | .zclosing => true
  | _ => false

theorem event_ne {w : Write} {k : Kind} {p : Path} {type : EventType} (h : w.event k p = some type) :
    type ≠ .session ∧ type ≠ .notWatching := by
  constructor <;> rintro rfl <;> cases w <;> cases k <;> simp only [Write.event] at h <;> (try split at h) <;>
    (try split at h) <;> cases h

theorem apply_deleted {nodes nodes' : Tree} {w : Write} {p : Path} (h : nodes.apply w = some nodes')
    (hdel : w.event .node p = some .deleted) : nodes' p = none := by
  cases w with
  | create path value =>
    simp only [Write.event] at hdel
    split at hdel <;> cases hdel
  | set path value =>
    simp only [Write.event] at hdel
    split at hdel <;> cases hdel
  | delete path =>
    simp only [Write.event] at hdel
    split at hdel
    · rename_i hp
      subst hp
      cases p with
      | nil => cases h
      | cons name parent =>
        simp only [Tree.apply] at h
        split at h
        · split at h
          · cases h
            exact Function.update_self ..
          · cases h
        · cases h
    · cases hdel

end ZkCppClient.Watch
