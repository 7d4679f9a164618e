import ZkCppClient.Lib.Heap
import ZkCppClient.Lib.Run
import ZkCppClient.Ops.Completions
import ZkCppClient.Ops.Create
import ZkCppClient.Ops.DeleteAsync
import ZkCppClient.Watch.Machine

/-!
# The lifetime of a client

A `ZkClient` lives as long as a `ZkClientPtr` to it: in the registry, with the
user, in the contexts that the requests and the watches hand to the library, in
the functors and timers bound to it, and on the stack of the second thread.
Every context is allocated and deleted where the code does it, and the
destructor runs when the last reference goes.

The machine begins where `createZkClient` returns the handle.
-/

namespace ZkCppClient.Lifetime

open Watch (Kind Path WatchContext WatchData EventType)

inductive Op
  | getNode
  | getChildren
  | isExist
  | create
  | createIfNeedCreateParents
  | set
  | deleteNode
  | deleteRecursive
  deriving DecidableEq, Repr

def Op.asserted (rc : Rc) : Op → Bool
  | .getNode | .getChildren | .isExist => rc ∈ Ops.readAsserted
  | .create | .createIfNeedCreateParents => Ops.createAsserted rc
  | .set => rc ∈ Ops.setAsserted
  | .deleteNode | .deleteRecursive => Ops.deleteAsserted rc

def Op.posts (rc : Rc) : Op → Bool
  | .createIfNeedCreateParents => rc = .znonode
  | .deleteRecursive => rc = .znotempty
  | _ => false

/-- The contexts, each with a `ZkClientPtr`: of an operation, of a watch, and of
the read that a watch callback sends. -/
inductive Context
  | op (op : Op)
  | watch (ctx : WatchContext)
  | fetch (ctx : WatchContext)
  deriving DecidableEq, Repr

abbrev Ptr := Nat × Context

structure WatchPtr where
  addr : Nat
  ctx : WatchContext
  deriving DecidableEq, Repr

def WatchPtr.ptr (w : WatchPtr) : Ptr := (w.addr, .watch w.ctx)

inductive Call
  | waiting (w : WatchPtr)
  | answered (ctx : WatchContext) (ok : Bool)
  deriving DecidableEq, Repr

inductive Functor
  | autoReg (k : Kind) (p : Path)
  | post (x : Ptr) (op : Op)  -- `postCreateParentAndNode` or `postDeleteRecursive`
  deriving DecidableEq, Repr

inductive SecondPc
  | idle
  | reg (k : Kind) (p : Path) (call : Call)
  | reconnecting
  deriving DecidableEq, Repr

/-- `armed` are the watches in the library, until their callback has run. -/
structure St where
  registered : Bool
  users : Nat
  heap : Heap Context
  requests : List Ptr
  armed : List WatchPtr
  calls : List Call
  second : SecondPc
  funs : List Functor
  timers : List (Kind × Path)
  datas : Kind → Path → Option WatchData
  sessionState : SessState
  zhandle : Option Nat
  made : Nat
  isSupportReconnect : Bool
  isRetrying : Bool
  checking : Bool  -- a timer of `checkSessionState`
  retryTimers : Nat

def St.initial : St where
  registered := true
  users := 0
  heap := .empty
  requests := []
  armed := []
  calls := []
  second := .idle
  funs := []
  timers := []
  datas _ _ := none
  sessionState := .connected
  zhandle := some 0
  made := 1
  isSupportReconnect := true
  isRetrying := false
  checking := true
  retryTimers := 0

inductive Act
  | getZkClient
  | copy  -- of a pointer of the user, or of one that a handler is given
  | reset
  | destroyClient
  | request (op : Op) (handler accepted : Bool)  -- the library accepts the request, or not
  | complete (i : Nat) (rc : Rc)
  | reg (k : Kind) (p : Path) (handler : Option Nat) (context : Nat)
  | answer (i : Nat) (rc : Rc)  -- to a registration of the user
  | regReturn (i : Nat)
  | cancel (k : Kind) (p : Path)
  | watchEvent (i : Nat) (type : EventType) (accepted : Bool)
  | session (state : SessState)
  | checkSessionState (timedOut : Bool)
  | retry (ok : Bool)
  | setIsSupportReconnect (isReconn : Bool)
  | second (goesOn accepted : Bool)
  | secondAnswer (rc : Rc)
  | secondReturn
  | timer (i : Nat)
  deriving DecidableEq, Repr

/-! ## References -/

def SecondPc.refs : SecondPc → Nat
  | .idle => 0
  | _ => 1

/-- `use_count` of the client. A blocking call has the pointer that it was made through. -/
def St.refs (s : St) : Nat :=
  s.registered.toNat + s.users + s.heap.live.length + s.calls.length + s.second.refs + s.funs.length + s.timers.length

/-! ## Requests -/

def St.isConnected (s : St) : Bool := s.sessionState = .connected

def St.accepts (s : St) (accepted : Bool) : Bool := accepted && s.zhandle.isSome

/-- What the asynchronous operations have in common. Nothing deletes the context
of a request that the library refuses. -/
def St.request (s : St) (op : Op) (accepted : Bool) : St :=
  if !s.isConnected then s
  else
    { s with
      heap := s.heap.alloc (.op op)
      requests := if s.accepts accepted then s.heap.ptr (.op op) :: s.requests else s.requests }

/-- `none` is a failed assert. -/
def St.complete (s : St) (x : Ptr) (rc : Rc) : Option St :=
  match x.2 with
  | .op op =>
    if !op.asserted rc then none
    else if op.posts rc then some { s with funs := s.funs ++ [.post x op] }
    else some { s with heap := s.heap.free x }
  | .fetch _ => if rc ∉ Ops.readAsserted then none else some { s with heap := s.heap.free x }
  | .watch _ => none

/-- `postCreateParentAndNode`, where `createPersistentDir` has succeeded or not,
and `postDeleteRecursive`, where it comes to `deleteNode` or not. -/
def St.post (s : St) (x : Ptr) (op : Op) (goesOn accepted : Bool) : St :=
  let next : Op := if op = .createIfNeedCreateParents then .create else .deleteNode
  let s := if goesOn then s.request next accepted else s
  { s with heap := s.heap.free x }

/-! ## Watches -/

def St.setWatchData (s : St) (k : Kind) (path : Path) (data : Option WatchData) : St :=
  { s with datas := fun k' p' => if k' = k ∧ p' = path then data else s.datas k' p' }

/-- `regNodeWatcher` and `regChildWatcher` up to their request; `none` where they
return false at once. -/
def St.regWatcher (s : St) (ctx : WatchContext) : Option (St × Call) :=
  if !s.isConnected then none
  else
    let call : Call := if s.zhandle.isSome then .waiting ⟨s.heap.next, ctx⟩ else .answered ctx false
    some ({ s with heap := s.heap.alloc (.watch ctx) }, call)

def St.reg (s : St) (ctx : WatchContext) : St :=
  match s.regWatcher ctx with
  | some (s, call) => { s with users := s.users - 1, calls := call :: s.calls }
  | none => s

def registers (rc : Rc) : Kind → Bool
  | .node => rc = .zok || rc = .znonode
  | .child => rc = .zok

def St.answer (s : St) (w : WatchPtr) (rc : Rc) : St :=
  { s with armed := if registers rc w.ctx.kind then w :: s.armed else s.armed }

def St.autoReg (s : St) (k : Kind) (p : Path) : St :=
  if !s.isConnected then s
  else match s.datas k p with
    | none => s
    | some data =>
      if !data.isSupportAutoReg then s
      else match s.regWatcher (data.toContext k) with
        | some (s, call) => { s with second := .reg k p call }
        | none => { s with timers := s.timers ++ [(k, p)] }

def St.queueAutoReg (s : St) (ctx : WatchContext) : St :=
  { s with funs := if (s.datas ctx.kind ctx.path).isSome then s.funs ++ [.autoReg ctx.kind ctx.path] else s.funs }

/-- The read of a watch callback, whose context nothing deletes if the library refuses it. -/
def St.fetch (s : St) (ctx : WatchContext) (accepted : Bool) : St :=
  { s with
    heap := s.heap.alloc (.fetch ctx)
    requests := if accepted then s.heap.ptr (.fetch ctx) :: s.requests else s.requests }

/-- `existWatcher` and `getChildrenWatcher` after their assert. A session event
leaves the watch armed. -/
def St.watchEvent (s : St) (i : Nat) (w : WatchPtr) (type : EventType) (accepted : Bool) : St :=
  let s := s.queueAutoReg w.ctx
  if type = .session then s
  else
    let s := if Watch.fetches w.ctx.kind type then s.fetch w.ctx accepted else s
    { s with armed := s.armed.eraseIdx i, heap := s.heap.free w.ptr }

/-! ## The session -/

def St.scheduleRetry (s : St) : St := { s with retryTimers := s.retryTimers + 1, isRetrying := true }

def St.checkSessionState (s : St) (timedOut : Bool) : St :=
  if !s.registered then { s with checking := false }
  else if s.sessionState = .expired ∨ (s.sessionState ≠ .connected ∧ timedOut) then
    let s := { s with sessionState := .expired }
    if !s.isRetrying && s.isSupportReconnect then s.scheduleRetry else s
  else s

def St.reconnectFailed (s : St) : St := if s.isSupportReconnect then s.scheduleRetry else s

def St.retry (s : St) (ok : Bool) : St :=
  let s := { s with retryTimers := s.retryTimers - 1 }
  if !s.registered then s
  else if ok then { s with second := .reconnecting, zhandle := some s.made, made := s.made + 1 }
  else { s with zhandle := none }.reconnectFailed

def St.reconnected (s : St) : St :=
  let s := { s with second := .idle }
  if s.isConnected then { s with isRetrying := false } else s.reconnectFailed

/-! ## Steps -/

def St.act (s : St) : Act → Option St
  | .getZkClient => some (if s.registered then { s with users := s.users + 1 } else s)
  | .copy => some { s with users := s.users + 1 }
  | .reset => if s.users = 0 then none else some { s with users := s.users - 1 }
  | .destroyClient => some { s with registered := false }
  | .request op handler accepted => some (if handler then s.request op accepted else s)
  | .complete i rc =>
    (s.requests[i]?).bind fun x => St.complete { s with requests := s.requests.eraseIdx i } x rc
  | .reg k p handler context =>
    if s.users = 0 then none
    else some (match handler with
      | none => s
      | some handler => s.reg ⟨k, p, handler, context⟩)
  | .answer i rc =>
    match s.calls[i]? with
    | some (.waiting w) => some { s.answer w rc with
      calls := .answered w.ctx (registers rc w.ctx.kind) :: s.calls.eraseIdx i }
    | _ => none
  | .regReturn i =>
    match s.calls[i]? with
    | some (.answered ctx ok) =>
      let s := { s with users := s.users + 1, calls := s.calls.eraseIdx i }
      some (if ok then s.setWatchData ctx.kind ctx.path (some (.ofContext ctx)) else s)
    | _ => none
  | .cancel k p => some (s.setWatchData k p none)
  | .watchEvent i type accepted =>
    (s.armed[i]?).bind fun w =>
      if !Watch.watcherAsserted w.ctx.kind type then none else some (s.watchEvent i w type accepted)
  | .session state => some (if s.registered then { s with sessionState := state } else s)
  | .checkSessionState timedOut => if !s.checking then none else some (s.checkSessionState timedOut)
  | .retry ok => if s.second ≠ .idle ∨ s.retryTimers = 0 then none else some (s.retry ok)
  | .setIsSupportReconnect isReconn => some { s with isSupportReconnect := isReconn }
  | .second goesOn accepted =>
    match s.second, s.funs with
    | .idle, .autoReg k p :: funs => some (St.autoReg { s with funs } k p)
    | .idle, .post x op :: funs => some (St.post { s with funs } x op goesOn accepted)
    | _, _ => none
  | .secondAnswer rc =>
    match s.second with
    | .reg k p (.waiting w) =>
      some { s.answer w rc with second := .reg k p (.answered w.ctx (registers rc w.ctx.kind)) }
    | _ => none
  | .secondReturn =>
    match s.second with
    | .reg k p (.answered ctx ok) =>
      let s := { s with second := .idle }
      some (if ok then s.setWatchData k ctx.path (some (.ofContext ctx))
        else { s with timers := s.timers ++ [(k, p)] })
    | .reconnecting => if s.sessionState.final then some s.reconnected else none
    | _ => none
  | .timer i =>
    match s.second, s.timers[i]? with
    | .idle, some (k, p) => some (St.autoReg { s with timers := s.timers.eraseIdx i } k p)
    | _, _ => none

/-- The calls that are made on the client, through a pointer to it. -/
def Act.derefs : Act → Bool
  | .copy | .request _ _ _ | .cancel _ _ | .setIsSupportReconnect _ => true
  | _ => false

structure Life where
  client : St
  destructed : Bool
  closed : List Nat  -- the handles that `zookeeper_close` has been called on

def Life.initial : Life := ⟨.initial, false, []⟩

def Life.destruct (x : Life) : Life where
  client := { x.client with isSupportReconnect := false, datas := fun _ _ => none }
  destructed := true
  closed := x.closed ++ x.client.zhandle.toList

def Life.released (x : Life) : Life := if x.client.refs = 0 ∧ x.destructed = false then x.destruct else x

def step (x : Life) (a : Act) : Option Life :=
  if x.destructed && a.derefs then none
  else (x.client.act a).map fun client => Life.released { x with client }

end ZkCppClient.Lifetime
