import ZkCppClient.Lib.CString
import ZkCppClient.Lib.SlashPath
import ZkCppClient.Ops.Env

/-!
# Creation of nodes

`create`, `createPersistentDir` and `createIfNeedCreateParents`, and the whole
chain started by one asynchronous `createIfNeedCreateParents`: its request, its
completion, `postCreateParentAndNode` on the second thread with its synchronous
creation of the directories, the final asynchronous `create` and its
completion. `createPersistentDir` recurses on a fuel.
-/

namespace ZkCppClient.Ops

structure CreateFlags where
  ephemeral : Bool
  sequence : Bool
  deriving DecidableEq, Repr

/-- `zooCreate` answers with the path in its buffer, `createReply` is what an
accepted asynchronous create is completed with. -/
structure CreateEnv (σ : Type*) where
  isConnected : σ → Bool × σ
  zooCreate : σ → String → Option String → CreateFlags → (Rc × String) × σ
  zooAcreate : σ → String → Option String → CreateFlags → Rc × σ
  createReply : σ → String → (Rc × String) × σ

def kMaxPathLength : Nat := 512

instance terminator : Zero Char := ⟨Char.ofNat 0⟩

def throughBuffer (size : Nat) (s : String) : String := String.ofList (CString.str (CString.bounded size s.toList))

/-- As the synchronous calls get the path of the new node from the library, in a buffer of their own. -/
def CreateEnv.returning {σ : Type*} (E : CreateEnv σ) : CreateEnv σ :=
  { E with
    zooCreate := fun s path data flags =>
      (((E.zooCreate s path data flags).1.1, throughBuffer kMaxPathLength (E.zooCreate s path data flags).1.2),
        (E.zooCreate s path data flags).2) }

section
variable {σ : Type*} (E : CreateEnv σ)

def create (s : σ) (path value : String) (isTemp isSequence : Bool) : ZkErrorCode × Option String × σ :=
  match E.isConnected s with
  | (false, s) => (.kZKLostConnection, none, s)
  | (true, s) =>
    match E.zooCreate s path (some value) ⟨isTemp, isSequence⟩ with
    | ((.zok, retPath), s) => (.kZKSucceed, some retPath, s)
    | ((.znonode, _), s) => (.kZKNotExist, none, s)
    | ((.znodeexists, _), s) => (.kZKExisted, none, s)
    | (_, s) => (.kZKError, none, s)

def createPersistentDirNode (s : σ) (path : String) : ZkErrorCode × σ :=
  match E.isConnected s with
  | (false, s) => (.kZKLostConnection, s)
  | (true, s) =>
    match E.zooCreate s path none ⟨false, false⟩ with
    | ((.zok, _), s) => (.kZKSucceed, s)
    | ((.znonode, _), s) => (.kZKNotExist, s)
    | ((.znodeexists, _), s) => (.kZKExisted, s)
    | (_, s) => (.kZKError, s)

def parentDir (path : String) : Option String := (SlashPath.splitLast path).map (·.1)

def createPersistentDir : Nat → σ → String → Option (Bool × σ)
  | 0, _, _ => none
  | fuel + 1, s, path =>
    match createPersistentDirNode E s path with
    | (.kZKSucceed, s) | (.kZKExisted, s) => some (true, s)
    | (.kZKNotExist, s) =>
      match parentDir path with
      | none => some (false, s)
      | some parent =>
        match createPersistentDir fuel s parent with
        | none => none
        | some (true, s) => createPersistentDir fuel s path
        | some (false, s) => some (false, s)
    | (_, s) => some (false, s)

def createIfNeedCreateParents (fuel : Nat) (s : σ) (path value : String) (isTemp isSequence : Bool) :
    Option (ZkErrorCode × Option String × σ) :=
  match create E s path value isTemp isSequence with
  | (.kZKNotExist, _, s) =>
    match parentDir path with
    | none => some (.kZKError, none, s)
    | some parent =>
      match createPersistentDir E fuel s parent with
      | none => none
      | some (true, s) => some (create E s path value isTemp isSequence)
      | some (false, s) => some (.kZKError, none, s)
  | r => some r

/-! ## The asynchronous chain -/

structure CreateCall where
  handler : Nat
  errcode : ZkErrorCode
  path : String
  value : String
  context : Nat
  deriving DecidableEq, Repr

structure ContextInCreateParentAndNodes where
  path : String
  value : String
  handler : Nat
  context : Nat
  isTemp : Bool
  isSequence : Bool

def ContextInCreateParentAndNodes.call (ctx : ContextInCreateParentAndNodes) (errcode : ZkErrorCode)
    (value : String) : CreateCall :=
  ⟨ctx.handler, errcode, ctx.path, value, ctx.context⟩

def createAsserted (rc : Rc) : Bool :=
  rc ∈ [.zok, .znodeexists, .zconnectionloss, .zoperationtimeout, .znoauth, .znonode, .znochildrenforephemerals,
    .zclosing]

/-- A completion's `assert` failed, or the call returned `ret` and nothing of
its chain is outstanding any more. -/
inductive CreateOutcome (σ : Type*)
  | aborted
  | ended (ret : Bool) (calls : List CreateCall) (s : σ)

/-- The request that asynchronous `create` and `createIfNeedCreateParents` make
once their handler is known not to be null, and whether the call returns `true`. -/
def requestCreate (s : σ) (path value : String) (isTemp isSequence : Bool) : Bool × σ :=
  match E.isConnected s with
  | (false, s) => (false, s)
  | (true, s) =>
    match E.zooAcreate s path (some value) ⟨isTemp, isSequence⟩ with
    | (.zok, s) => (true, s)
    | (_, s) => (false, s)

def createCompletion (ctx : ContextInCreateParentAndNodes) (rc : Rc) (value : String) : Option CreateCall :=
  if !createAsserted rc then none else
  match rc with
  | .zok => some (ctx.call .kZKSucceed value)
  | .znonode => some (ctx.call .kZKNotExist "")
  | .znodeexists => some (ctx.call .kZKExisted "")
  | _ => some (ctx.call .kZKError "")

def tagCreateDir (ctx : ContextInCreateParentAndNodes) (createDirSucc : Bool) : List CreateCall :=
  if createDirSucc then [] else [ctx.call .kZKError ""]

/-- `ZkClient::postCreateParentAndNode`: the handler calls it makes, and whether
it left an accepted `create` request behind. -/
def postCreateParentAndNode (fuel : Nat) (s : σ) (ctx : ContextInCreateParentAndNodes) :
    Option (List CreateCall × Bool × σ) :=
  match parentDir ctx.path with
  | none => some (tagCreateDir ctx false, false, s)
  | some parent =>
    match createPersistentDir E fuel s parent with
    | none => none
    | some (true, s) =>
      match requestCreate E s ctx.path ctx.value ctx.isTemp ctx.isSequence with
      | (true, s) => some (tagCreateDir ctx true, true, s)
      | (false, s) => some (tagCreateDir ctx false, false, s)
    | some (false, s) => some (tagCreateDir ctx false, false, s)

def createIfNeedCreateParentsCompletion (fuel : Nat) (s : σ) (ctx : ContextInCreateParentAndNodes) (rc : Rc)
    (value : String) : Option (CreateOutcome σ) :=
  if !createAsserted rc then some .aborted else
  match rc with
  | .zok => some (.ended true [ctx.call .kZKSucceed value] s)
  | .znonode =>
    match postCreateParentAndNode E fuel s ctx with
    | none => none
    | some (calls, false, s) => some (.ended true calls s)
    | some (calls, true, s) =>
      match E.createReply s ctx.path with
      | ((rc, value), s) =>
        match createCompletion ctx rc value with
        | none => some .aborted
        | some call => some (.ended true (calls ++ [call]) s)
  | .znodeexists => some (.ended true [ctx.call .kZKExisted ""] s)
  | _ => some (.ended true [ctx.call .kZKError ""] s)

def createIfNeedCreateParentsAsync (fuel : Nat) (s : σ) (path value : String) (handler : Option Nat) (context : Nat)
    (isTemp isSequence : Bool) : Option (CreateOutcome σ) :=
  match handler with
  | none => some (.ended false [] s)
  | some handler =>
    match requestCreate E s path value isTemp isSequence with
    | (false, s) => some (.ended false [] s)
    | (true, s) =>
      match E.createReply s path with
      | ((rc, retPath), s) =>
        createIfNeedCreateParentsCompletion E fuel s ⟨path, value, handler, context, isTemp, isSequence⟩ rc retPath

end

end ZkCppClient.Ops
