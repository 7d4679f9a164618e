import Mathlib.Data.List.Basic

/-!
# Codes shared by the client's interfaces

The return codes of the ZooKeeper C library, the codes the client hands to its
user, and the session states and notification types of the watch callbacks.
-/

namespace ZkCppClient

/-- Return codes of the C library. `other` stands for every code that the
client does not name. -/
inductive Rc
  | zok
  | znonode
  | zconnectionloss
  | zoperationtimeout
  | zbadversion
  | znoauth
  | znotempty
  | znodeexists
  | znochildrenforephemerals
  | zclosing
  | other (code : Int32)
  deriving DecidableEq, Repr

def zsessionexpired : Rc := .other (-112)

def zbadarguments : Rc := .other (-8)

inductive ZkErrorCode
  | kZKSucceed
  | kZKNotExist
  | kZKError
  | kZKDeleted
  | kZKExisted
  | kZKNotEmpty
  | kZKLostConnection
  deriving DecidableEq, Repr

inductive SessState
  | expired
  | authFailed
  | connecting
  | associating
  | connected
  deriving DecidableEq, Repr

def SessState.final : SessState → Bool
  | .connected | .expired => true
  | _ => false

inductive ZkNotifyType
  | kNodeDelete
  | kNodeCreate
  | kNodeChange
  | kGetNodeValueFailed_NodeNotExist
  | kGetNodeValueFailed
  | kChildChange
  | kGetChildListFailed_ParentNotExist
  | kGetChildListFailed
  | kTypeError
  deriving DecidableEq, Repr

def kInvalidDataVersion : Int32 := -1

end ZkCppClient
