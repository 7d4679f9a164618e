import ZkCppClient.Basic

/-!
# Requests and their answers

The server, the other clients and the connection are one environment with an
arbitrary state: it answers each call of the library and changes as it likes. `getChildren` and
`deleteNode` are the synchronous operations.
-/

namespace ZkCppClient.Ops

/-- What the requests of this client are answered. `deleteRc` is the code an
accepted asynchronous delete is completed with. -/
structure Env (σ : Type*) where
  isConnected : σ → Bool × σ
  zooGetChildren : σ → String → Rc × List String × σ
  zooDelete : σ → String → Int32 → Rc × σ
  zooAdelete : σ → String → Int32 → Rc × σ
  deleteRc : σ → String → Rc × σ

section
variable {σ : Type*} (E : Env σ)

def getChildren (s : σ) (path : String) : ZkErrorCode × List String × σ :=
  match E.isConnected s with
  | (false, s) => (.kZKLostConnection, [], s)
  | (true, s) =>
    match E.zooGetChildren s path with
    | (.zok, strings, s) => (.kZKSucceed, strings, s)
    | (.znonode, _, s) => (.kZKNotExist, [], s)
    | (_, _, s) => (.kZKError, [], s)

def deleteNode (s : σ) (path : String) (version : Int32) : ZkErrorCode × σ :=
  match E.isConnected s with
  | (false, s) => (.kZKLostConnection, s)
  | (true, s) =>
    match E.zooDelete s path version with
    | (.zok, s) => (.kZKSucceed, s)
    | (.znonode, s) => (.kZKNotExist, s)
    | (.znotempty, s) => (.kZKNotEmpty, s)
    | (_, s) => (.kZKError, s)

end

end ZkCppClient.Ops
