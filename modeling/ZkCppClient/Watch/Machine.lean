import ZkCppClient.Lib.Run
import ZkCppClient.Watch.Server

/-!
# Watches

The watches of one `ZkClient`: the callbacks on the library threads of its
ZooKeeper handles, the re-registrations that they queue to the second thread,
the blocking registrations, the reads that a callback sends for the new value,
and the retry that puts a new handle in the place of an expired one. The server
takes the requests of a handle in the order they are sent; a watch is armed
when its registration is taken, and what the library has to deliver it delivers
in the order it came.

Nothing closes a handle that a retry replaces, so all of them stay in `conns`.
-/

namespace ZkCppClient.Watch

/-! ## Requests, events and notifications -/

/-- `ZkOperateAndWatchContext` of a watch; `kind` says which of its handlers is set. -/
structure WatchContext where
  kind : Kind
  path : Path
  handler : Nat
  context : Nat
  deriving DecidableEq, Repr

def WatchContext.on (ctx : WatchContext) (k : Kind) (p : Path) : Prop := ctx.kind = k ∧ ctx.path = p

instance (ctx : WatchContext) (k : Kind) (p : Path) : Decidable (ctx.on k p) := inferInstanceAs (Decidable (_ ∧ _))

/-- `NodeWatchData` and `ChildWatchData`: the first keeps a value and a version,
the second a child list. -/
structure WatchData where
  path : Path
  handler : Nat
  context : Nat
  value : String := ""
  version : Int32 := kInvalidDataVersion
  childList : List String := []
  isSupportAutoReg : Bool := true
  deriving DecidableEq, Repr

def carries : Kind → ZkNotifyType → Bool
  | .node, .kNodeCreate | .node, .kNodeChange | .child, .kChildChange => true
  | _, _ => false

/-- `ContextInNodeWatcher` and `ContextInChildWatcher`. `zxid` is the change that
raised the event; no code reads it. -/
structure ContextInWatcher where
  ctx : WatchContext
  notifyType : ZkNotifyType
  zxid : Nat
  carried : carries ctx.kind notifyType = true
  deriving DecidableEq

structure Notification where
  ctx : WatchContext
  type : ZkNotifyType
  value : String := ""
  version : Int32 := kInvalidDataVersion
  childNodes : List String := []
  zxid : Nat
  deriving DecidableEq, Repr

/-- A watch in the library's tables: armed at `zxid`, on a node that `existed`. -/
structure Armed where
  ctx : WatchContext
  zxid : Nat
  existed : Bool
  deriving DecidableEq, Repr

inductive Request
  | watch (ctx : WatchContext) (auto : Bool)  -- a blocking registration, of the second thread where `auto`
  | read (c : ContextInWatcher)
  deriving DecidableEq

def Request.auto? : Request → Option WatchContext
  | .watch ctx true => some ctx
  | _ => none

def Request.user? : Request → Option WatchContext
  | .watch ctx false => some ctx
  | _ => none

def Request.read? : Request → Option ContextInWatcher
  | .read d => some d
  | _ => none

inductive Item
  | sessionWatcher (state : SessState)
  | event (ctx : WatchContext) (type : EventType) (zxid : Nat)
  | fetched (c : ContextInWatcher) (result : Fetched)
  deriving DecidableEq

/-- A watch callback that has queued its re-registration and goes on to the event's type. -/
structure Handling where
  ctx : WatchContext
  type : EventType
  zxid : Nat
  deriving DecidableEq, Repr

structure Conn where
  up : Bool := false
  armed : List Armed := []
  outbox : List Request := []
  inbox : List Item := []
  handling : Option Handling := none

inductive SecondPc
  | idle
  | autoReg (k : Kind) (p : Path)
  | lookup (k : Kind) (p : Path)
  | reg (k : Kind) (p : Path) (data : WatchData)
  | blocked (k : Kind) (p : Path) (data : WatchData)  -- in `zoo_wexists` or `zoo_wget_children`
  | returned (k : Kind) (p : Path) (data : WatchData) (ok : Bool)
  | reconnecting
  | leaving  -- out of the wait of `reconnect`, the state to be read again
  deriving DecidableEq, Repr

def SecondPc.path : SecondPc → Option (Kind × Path)
  | .autoReg k p | .lookup k p | .reg k p _ | .blocked k p _ | .returned k p _ _ => some (k, p)
  | _ => none

/-- `changed` is the last change that concerned the watches on a path, `replied`
the user's registrations that have their answer and have not stored it, and
`base` what the server held when a path was first watched. -/
structure St where
  nodes : Tree
  zxid : Nat
  changed : Kind → Path → Nat
  conns : Nat → Conn
  made : Nat
  zhandle : Option Nat
  sessionState : SessState
  datas : Kind → Path → Option WatchData
  replied : List (WatchContext × Bool)
  second : SecondPc
  funs : List (Kind × Path)
  timers : List (Kind × Path)
  log : List Notification
  base : Kind → Path → Option Fetched

def St.initial (nodes : Tree) : St where
  nodes := nodes
  zxid := 0
  changed _ _ := 0
  conns zh := { up := zh = 0 }
  made := 1
  zhandle := some 0
  sessionState := .connected
  datas _ _ := none
  replied := []
  second := .idle
  funs := []
  timers := []
  log := []
  base _ _ := none

inductive Act
  | foreign (w : Write)
  | serve (zh : Nat)  -- the server takes the handle's next request
  | fail (zh : Nat) (rc : Rc)  -- the next request comes back with an error
  | session (zh : Nat) (state : SessState) (watchersFirst : Bool)
  | deliver (zh : Nat)
  | dispatch (zh : Nat) (accepted : Bool)  -- the library accepts the callback's read, or not
  | second
  | timer (i : Nat)
  | reg (k : Kind) (p : Path) (handler : Option Nat) (context : Nat)  -- the user registers
  | regReturn (i : Nat)
  | cancel (k : Kind) (p : Path)
  | expire  -- `checkSessionState` writes EXPIRED
  | retry (ok : Bool)
  deriving DecidableEq, Repr

/-! ## The library -/

def St.setConn (s : St) (zh : Nat) (c : Conn) : St := { s with conns := Function.update s.conns zh c }

def St.send (s : St) (zh : Nat) (r : Request) : St :=
  s.setConn zh { s.conns zh with outbox := (s.conns zh).outbox ++ [r] }

/-- The watches that `event` concerns fire: they are no longer armed, and their
callbacks are called. -/
def Conn.fire (c : Conn) (event : Armed → Option (EventType × Nat)) : Conn :=
  { c with
    armed := c.armed.filter fun a => (event a).isNone
    inbox := c.inbox ++ c.armed.filterMap fun a => (event a).map fun e => .event a.ctx e.1 e.2 }

/-- The event that a watch has missed, found when its handle reconnects. -/
def St.missed (s : St) (a : Armed) : Option (EventType × Nat) :=
  if a.zxid < s.changed a.ctx.kind a.ctx.path then
    let type : Option EventType := match a.ctx.kind, (s.nodes a.ctx.path).isSome, a.existed with
      | .node, true, true => some .changed
      | .node, true, false => some .created
      | .node, false, true => some .deleted
      | .node, false, false => none
      | .child, true, _ => some .child
      | .child, false, _ => some .deleted
    type.map (·, s.changed a.ctx.kind a.ctx.path)
  else none

def St.foreign (s : St) (w : Write) (nodes : Tree) : St :=
  { s with
    nodes := nodes
    zxid := s.zxid + 1
    changed := fun k p => if (w.event k p).isSome then s.zxid + 1 else s.changed k p
    conns := fun zh =>
      if (s.conns zh).up then (s.conns zh).fire fun a => (w.event a.ctx.kind a.ctx.path).map (·, s.zxid + 1)
      else s.conns zh }

def SecondPc.reply (ok : Bool) : SecondPc → SecondPc
  | .blocked k p data => .returned k p data ok
  | pc => pc

/-- A registration's answer goes to the thread that waits for it. -/
def St.reply (s : St) (ctx : WatchContext) (auto ok : Bool) : St :=
  { s with
    second := if auto then s.second.reply ok else s.second
    replied := if auto then s.replied else s.replied ++ [(ctx, ok)] }

/-- `zoo_wexists` arms its watch on an absent node too, `zoo_wget_children` does not. -/
def St.arms (s : St) (ctx : WatchContext) : Bool :=
  match ctx.kind with
  | .node => true
  | .child => (s.nodes ctx.path).isSome

def St.arm (s : St) (zh : Nat) (ctx : WatchContext) : St :=
  let c := s.conns zh
  { s.setConn zh { c with armed := c.armed ++ [⟨ctx, s.zxid, (s.nodes ctx.path).isSome⟩] } with
    base := fun k p =>
      if k = ctx.kind ∧ p = ctx.path then some ((s.base k p).getD (s.nodes.read p k)) else s.base k p }

def St.serve (s : St) (zh : Nat) : Option St :=
  let c := s.conns zh
  if !c.up then none
  else match c.outbox with
    | [] => none
    | .watch ctx auto :: outbox =>
      let s := s.setConn zh { c with outbox }
      some (if s.arms ctx then (s.arm zh ctx).reply ctx auto true else s.reply ctx auto false)
    | .read d :: outbox =>
      some (s.setConn zh
        { c with outbox, inbox := c.inbox ++ [.fetched d (s.nodes.read d.ctx.path d.ctx.kind)] })

def St.fail (s : St) (zh : Nat) (rc : Rc) : Option St :=
  let c := s.conns zh
  match c.outbox with
  | [] => none
  | .watch ctx auto :: outbox => some ((s.setConn zh { c with outbox }).reply ctx auto false)
  | .read d :: outbox => some (s.setConn zh { c with outbox, inbox := c.inbox ++ [.fetched d (.failed rc)] })

def St.replyLost (s : St) (requests : List Request) : St :=
  { s with
    second := if requests.any (·.auto?.isSome) then s.second.reply false else s.second
    replied := s.replied ++ (requests.filterMap Request.user?).map (·, false) }

def sessionItems (armed : List Armed) (state : SessState) (watchersFirst : Bool) : List Item :=
  let own := [.sessionWatcher state]
  let watchers := armed.map fun a => .event a.ctx .session 0
  if watchersFirst then watchers ++ own else own ++ watchers

/-- A session event of a handle: its callbacks are called, `sessionWatcher` and
those of all armed watches; the requests under way are lost with the connection,
and a new connection tells what the watches have missed. -/
def St.session (s : St) (zh : Nat) (state : SessState) (watchersFirst : Bool) : St :=
  let c := s.conns zh
  let inbox := c.inbox ++ sessionItems c.armed state watchersFirst
  if state = .connected then s.setConn zh ({ c with up := true, inbox }.fire s.missed)
  else
    let lost := (c.outbox.filterMap Request.read?).map (.fetched · (.failed .zconnectionloss))
    (s.replyLost c.outbox).setConn zh { c with up := false, outbox := [], inbox := inbox ++ lost }

/-! ## The callbacks -/

def St.isConnected (s : St) : Bool := s.sessionState = .connected

def St.setWatchData (s : St) (k : Kind) (path : Path) (data : Option WatchData) : St :=
  { s with datas := fun k' p' => if k' = k ∧ p' = path then data else s.datas k' p' }

def St.isShouldNotify (s : St) (k : Kind) (path : Path) : Bool := (s.datas k path).isSome

/-- The calls of the user's handler all come after this test. -/
def St.notify (s : St) (n : Notification) : St :=
  { s with log := if s.isShouldNotify n.ctx.kind n.ctx.path then s.log ++ [n] else s.log }

/-- The beginning of `existWatcher` and of `getChildrenWatcher`, before they look
at the event's type. -/
def St.queueAutoReg (s : St) (ctx : WatchContext) : St :=
  { s with funs := if s.isShouldNotify ctx.kind ctx.path then s.funs ++ [(ctx.kind, ctx.path)] else s.funs }

def watcherAsserted : Kind → EventType → Bool
  | .node, type => type != .child
  | .child, type => type != .created && type != .changed

def existWatcher (s : St) (zh : Nat) (h : Handling) (hk : h.ctx.kind = .node) (accepted : Bool) : St :=
  match h.type with
  | .notWatching => s.notify { ctx := h.ctx, type := .kTypeError, zxid := h.zxid }
  | .deleted => s.notify { ctx := h.ctx, type := .kNodeDelete, zxid := h.zxid }
  | .created =>
    if accepted then s.send zh (.read ⟨h.ctx, .kNodeCreate, h.zxid, by rw [hk]; rfl⟩)
    else s.notify { ctx := h.ctx, type := .kGetNodeValueFailed, zxid := h.zxid }
  | .changed =>
    if accepted then s.send zh (.read ⟨h.ctx, .kNodeChange, h.zxid, by rw [hk]; rfl⟩)
    else s.notify { ctx := h.ctx, type := .kGetNodeValueFailed, zxid := h.zxid }
  | _ => s

def getChildrenWatcher (s : St) (zh : Nat) (h : Handling) (hk : h.ctx.kind = .child) (accepted : Bool) : St :=
  match h.type with
  | .notWatching => s.notify { ctx := h.ctx, type := .kTypeError, zxid := h.zxid }
  | .deleted => s  -- not expected there, and only written to the log
  | .child =>
    if accepted then s.send zh (.read ⟨h.ctx, .kChildChange, h.zxid, by rw [hk]; rfl⟩)
    else s.notify { ctx := h.ctx, type := .kGetChildListFailed, zxid := h.zxid }
  | _ => s

def St.dispatch (s : St) (zh : Nat) (accepted : Bool) : Option St :=
  let c := s.conns zh
  c.handling.map fun h =>
    let s := s.setConn zh { c with handling := none }
    if hk : h.ctx.kind = .node then existWatcher s zh h hk accepted
    else getChildrenWatcher s zh h (by cases hc : h.ctx.kind with
      | node => exact absurd hc hk
      | child => rfl) accepted

/-- `none` where the code does not go on: the completion asserts its return code,
and `std::string::assign(NULL, -1)` throws. -/
def getNodeDataOnWatcher (s : St) (d : ContextInWatcher) : Fetched → Option St
  | .data (some value) version => some (s.notify { ctx := d.ctx, type := d.notifyType, value, version, zxid := d.zxid })
  | .data none _ => if s.isShouldNotify d.ctx.kind d.ctx.path then none else some s
  | .failed rc =>
    if !fetchAsserted rc then none
    else if rc = .znonode then
      some (s.notify { ctx := d.ctx, type := .kGetNodeValueFailed_NodeNotExist, zxid := d.zxid })
    else some (s.notify { ctx := d.ctx, type := .kGetNodeValueFailed, zxid := d.zxid })
  | .childNodes _ => none

def getChildDataOnWatcher (s : St) (d : ContextInWatcher) : Fetched → Option St
  | .childNodes childNodes => some (s.notify { ctx := d.ctx, type := d.notifyType, childNodes, zxid := d.zxid })
  | .failed rc =>
    if !fetchAsserted rc then none
    else if rc = .znonode then
      some (s.notify { ctx := d.ctx, type := .kGetChildListFailed_ParentNotExist, zxid := d.zxid })
    else some (s.notify { ctx := d.ctx, type := .kGetChildListFailed, zxid := d.zxid })
  | .data _ _ => none

def St.fetched (s : St) (d : ContextInWatcher) (result : Fetched) : Option St :=
  match d.ctx.kind with
  | .node => getNodeDataOnWatcher s d result
  | .child => getChildDataOnWatcher s d result

/-- The library thread takes its next item. Of a watch callback this is the part
that queues the re-registration; `dispatch` is the rest. -/
def St.deliver (s : St) (zh : Nat) : Option St :=
  let c := s.conns zh
  match c.handling, c.inbox with
  | none, .sessionWatcher state :: inbox => some { s.setConn zh { c with inbox } with sessionState := state }
  | none, .event ctx type zxid :: inbox =>
    if !watcherAsserted ctx.kind type then none
    else
      let handling := if type = .session then none else some ⟨ctx, type, zxid⟩
      some ((s.setConn zh { c with inbox, handling }).queueAutoReg ctx)
  | none, .fetched d result :: inbox => (s.setConn zh { c with inbox }).fetched d result
  | _, _ => none

/-! ## The registrations -/

/-- `regNodeWatcher` and `regChildWatcher` up to their blocking request; `none`
where they return false at once. -/
def St.regWatcher (s : St) (ctx : WatchContext) (auto : Bool) : Option St :=
  if !s.isConnected then none else s.zhandle.map fun zh => s.send zh (.watch ctx auto)

def WatchData.ofContext (ctx : WatchContext) : WatchData :=
  { path := ctx.path, handler := ctx.handler, context := ctx.context }

def WatchData.toContext (k : Kind) (data : WatchData) : WatchContext := ⟨k, data.path, data.handler, data.context⟩

/-- `autoRegNodeWatcher` and `autoRegChildWatcher`, and the wait of `reconnect`. -/
def St.secondStep (s : St) : Option St :=
  match s.second with
  | .idle =>
    match s.funs with
    | [] => none
    | (k, p) :: funs => some { s with second := .autoReg k p, funs }
  | .autoReg k p => some { s with second := if s.isConnected then .lookup k p else .idle }
  | .lookup k p =>
    some { s with
      second := match s.datas k p with
        | some data => if data.isSupportAutoReg then .reg k p data else .idle
        | none => .idle }
  | .reg k p data =>
    some (match s.regWatcher (data.toContext k) true with
      | some s => { s with second := .blocked k p data }
      | none => { s with second := .idle, timers := s.timers ++ [(k, p)] })
  | .blocked _ _ _ => none
  | .returned k _ data true =>
    some { s.setWatchData k data.path (some (.ofContext (data.toContext k))) with second := .idle }
  | .returned k p _ false => some { s with second := .idle, timers := s.timers ++ [(k, p)] }
  | .reconnecting => if s.sessionState.final then some { s with second := .leaving } else none
  | .leaving => some { s with second := .idle }

def step (s : St) : Act → Option St
  | .foreign w => (s.nodes.apply w).map (s.foreign w)
  | .serve zh => if zh < s.made then s.serve zh else none
  | .fail zh rc => if zh < s.made ∧ rc ≠ .zok ∧ rc ≠ .znonode then s.fail zh rc else none
  | .session zh state watchersFirst =>
    if zh < s.made ∧ (state = .connected → (s.conns zh).up = false) then some (s.session zh state watchersFirst) else none
  | .deliver zh => if zh < s.made then s.deliver zh else none
  | .dispatch zh accepted => if zh < s.made then s.dispatch zh accepted else none
  | .second => s.secondStep
  | .timer i =>
    match s.second, s.timers[i]? with
    | .idle, some (k, p) => some { s with second := .autoReg k p, timers := s.timers.eraseIdx i }
    | _, _ => none
  | .reg _ _ none _ => some s
  | .reg k p (some handler) context => some ((s.regWatcher ⟨k, p, handler, context⟩ false).getD s)
  | .regReturn i =>
    (s.replied[i]?).map fun (ctx, ok) =>
      let s := { s with replied := s.replied.eraseIdx i }
      if ok then s.setWatchData ctx.kind ctx.path (some (.ofContext ctx)) else s
  | .cancel k p => some (s.setWatchData k p none)
  | .expire => some { s with sessionState := .expired }
  | .retry ok =>
    if s.second ≠ .idle then none
    else if ok then some { s with second := .reconnecting, zhandle := some s.made, made := s.made + 1 }
    else some { s with zhandle := none }

/-! ## The handles -/

def St.library (s : St) : Tree × Nat × (Kind → Path → Nat) × Nat × Option Nat :=
  (s.nodes, s.zxid, s.changed, s.made, s.zhandle)

theorem library_inj {s t : St} (h : t.library = s.library) : t.nodes = s.nodes ∧ t.zxid = s.zxid ∧
    t.changed = s.changed ∧ t.made = s.made ∧ t.zhandle = s.zhandle := by
  simpa only [St.library, Prod.mk.injEq] using h

section
variable (s : St) (zh : Nat)

theorem setConn_self (c : Conn) : (s.setConn zh c).conns zh = c := Function.update_self ..

theorem setConn_of_ne {z : Nat} (c : Conn) (h : z ≠ zh) : (s.setConn zh c).conns z = s.conns z :=
  Function.update_of_ne h ..

theorem setConn_setConn (c d : Conn) : ((s.setConn zh c).setConn zh d) = s.setConn zh d := by
  unfold St.setConn
  rw [Function.update_idem]

theorem arm_conns (ctx : WatchContext) (outbox : List Request) :
    ((s.setConn zh { s.conns zh with outbox }).arm zh ctx).conns = (s.setConn zh { s.conns zh with
      outbox
      armed := (s.conns zh).armed ++ [⟨ctx, s.zxid, (s.nodes ctx.path).isSome⟩] }).conns := by
  unfold St.arm
  dsimp only
  rw [setConn_setConn, setConn_self]
  rfl

theorem send_setConn (c : Conn) (r : Request) :
    (s.setConn zh c).send zh r = s.setConn zh { c with outbox := c.outbox ++ [r] } := by
  unfold St.send
  rw [setConn_setConn, setConn_self]

end

/-! ## Pieces of runs -/

def oneNode : Tree :=
  Function.update (Function.update (fun _ => none) [] (some ⟨none, 0, ["a"]⟩)) ["a"] (some ⟨some "v0", 0, []⟩)

def registered : List Act := [.reg .node ["a"] (some 1) 0, .serve 0, .regReturn 0]

def setNode : List Act := [.foreign (.set ["a"] (some "v1")), .deliver 0, .dispatch 0 true]

def autoRegSent : List Act := [.second, .second, .second, .second]

/-! ## What the user is told -/

def Notification.tells (n : Notification) : Option Fetched :=
  match n.type with
  | .kNodeCreate | .kNodeChange => some (.data (some n.value) n.version)
  | .kNodeDelete | .kGetNodeValueFailed_NodeNotExist | .kGetChildListFailed_ParentNotExist => some (.failed .znonode)
  | .kChildChange => some (.childNodes n.childNodes)
  | _ => none

def Fetched.tells : Fetched → Option Fetched
  | .failed .znonode => some (.failed .znonode)
  | .failed _ => none
  | result => some result

def fetches : Kind → EventType → Bool
  | .node, .created | .node, .changed | .child, .child => true
  | _, _ => false

/-- What a callback says of the server by itself, without a read. -/
def EventType.tells : Kind → EventType → Option (Option Fetched)
  | .node, .deleted => some (some (.failed .znonode))
  | _, .notWatching => some none
  | _, _ => none

theorem tells_carried {d : ContextInWatcher} (value : String) (version : Int32) (hk : d.ctx.kind = .node) :
    (Notification.mk d.ctx d.notifyType value version [] d.zxid).tells = some (.data (some value) version) := by
  have hc := d.carried
  rw [hk] at hc
  cases ht : d.notifyType <;> rw [ht] at hc <;> first | rfl | cases hc

theorem tells_carried_child {d : ContextInWatcher} (childNodes : List String) (hk : d.ctx.kind = .child) :
    (Notification.mk d.ctx d.notifyType "" kInvalidDataVersion childNodes d.zxid).tells =
      some (.childNodes childNodes) := by
  have hc := d.carried
  rw [hk] at hc
  cases ht : d.notifyType <;> rw [ht] at hc <;> first | rfl | cases hc

theorem tells_failed {rc : Rc} (hne : rc ≠ .znonode) : (Fetched.failed rc).tells = none := by
  unfold Fetched.tells
  split
  · rename_i h; cases h; exact absurd rfl hne
  · rfl
  · rename_i h; exact (h rc rfl).elim

theorem fetched_eq {s t : St} {d : ContextInWatcher} {result : Fetched} (h : s.fetched d result = some t) :
    ∃ n : Notification, t = s.notify n ∧ n.ctx = d.ctx ∧ n.zxid = d.zxid ∧
      (s.isShouldNotify d.ctx.kind d.ctx.path = true → n.tells = result.tells) := by
  unfold St.fetched at h
  split at h
  · rename_i hk
    unfold getNodeDataOnWatcher at h
    split at h
    · cases h
      exact ⟨_, rfl, rfl, rfl, fun _ => tells_carried _ _ hk⟩
    · split at h
      · cases h
      · rename_i hno
        cases h
        refine ⟨⟨d.ctx, .kTypeError, "", 0, [], d.zxid⟩, ?_, rfl, rfl, fun hs => absurd hs hno⟩
        simp [St.notify, hno]
    · split at h
      · cases h
      · split at h
        · rename_i hrc
          cases h; subst hrc
          exact ⟨_, rfl, rfl, rfl, fun _ => rfl⟩
        · rename_i hrc
          cases h
          exact ⟨_, rfl, rfl, rfl, fun _ => (tells_failed hrc).symm⟩
    · cases h
  · rename_i hk
    unfold getChildDataOnWatcher at h
    split at h
    · cases h
      exact ⟨_, rfl, rfl, rfl, fun _ => tells_carried_child _ hk⟩
    · split at h
      · cases h
      · split at h
        · rename_i hrc
          cases h; subst hrc
          exact ⟨_, rfl, rfl, rfl, fun _ => rfl⟩
        · rename_i hrc
          cases h
          exact ⟨_, rfl, rfl, rfl, fun _ => (tells_failed hrc).symm⟩
    · cases h

/-! ## What a step can do -/

inductive Step (s : St) : Act → St → Prop
  | foreign {w nodes} : s.nodes.apply w = some nodes → Step s (.foreign w) (s.foreign w nodes)
  | armed {zh ctx auto outbox} : zh < s.made → (s.conns zh).outbox = .watch ctx auto :: outbox → s.arms ctx = true →
      Step s (.serve zh) (((s.setConn zh { s.conns zh with outbox }).arm zh ctx).reply ctx auto true)
  | refused {zh ctx auto outbox} : zh < s.made → (s.conns zh).outbox = .watch ctx auto :: outbox →
      Step s (.serve zh) ((s.setConn zh { s.conns zh with outbox }).reply ctx auto false)
  | read {zh d outbox} : zh < s.made → (s.conns zh).outbox = .read d :: outbox →
      Step s (.serve zh) (s.setConn zh { s.conns zh with
        outbox
        inbox := (s.conns zh).inbox ++ [.fetched d (s.nodes.read d.ctx.path d.ctx.kind)] })
  | failWatch {zh rc ctx auto outbox} : zh < s.made → (s.conns zh).outbox = .watch ctx auto :: outbox →
      Step s (.fail zh rc) ((s.setConn zh { s.conns zh with outbox }).reply ctx auto false)
  | failRead {zh rc d outbox} : zh < s.made → rc ≠ .znonode → (s.conns zh).outbox = .read d :: outbox →
      Step s (.fail zh rc) (s.setConn zh { s.conns zh with
        outbox
        inbox := (s.conns zh).inbox ++ [.fetched d (.failed rc)] })
  | session {zh state watchersFirst} : zh < s.made → (state = .connected → (s.conns zh).up = false) →
      Step s (.session zh state watchersFirst) (s.session zh state watchersFirst)
  | sessionWatcher {zh state inbox} : zh < s.made → (s.conns zh).inbox = .sessionWatcher state :: inbox →
      Step s (.deliver zh) { s.setConn zh { s.conns zh with inbox } with sessionState := state }
  | event {zh ctx type zxid inbox} : zh < s.made → (s.conns zh).handling = none →
      (s.conns zh).inbox = .event ctx type zxid :: inbox →
      Step s (.deliver zh) ((s.setConn zh { s.conns zh with
        inbox
        handling := if type = .session then none else some ⟨ctx, type, zxid⟩ }).queueAutoReg ctx)
  | fetched {zh d result inbox n} : zh < s.made → (s.conns zh).handling = none →
      (s.conns zh).inbox = .fetched d result :: inbox → n.ctx = d.ctx → n.zxid = d.zxid →
      (s.isShouldNotify d.ctx.kind d.ctx.path = true → n.tells = result.tells) →
      Step s (.deliver zh) ((s.setConn zh { s.conns zh with inbox }).notify n)
  | told {zh accepted h n} : zh < s.made → (s.conns zh).handling = some h → n.ctx = h.ctx → n.zxid = h.zxid →
      (accepted = true → fetches h.ctx.kind h.type = false ∧ h.type.tells h.ctx.kind = some n.tells) →
      Step s (.dispatch zh accepted) ((s.setConn zh { s.conns zh with handling := none }).notify n)
  | fetch {zh accepted h d} : zh < s.made → (s.conns zh).handling = some h → fetches h.ctx.kind h.type = true →
      d.ctx = h.ctx → d.zxid = h.zxid →
      Step s (.dispatch zh accepted) ((s.setConn zh { s.conns zh with handling := none }).send zh (.read d))
  | nothing {zh accepted h} : zh < s.made → (s.conns zh).handling = some h → fetches h.ctx.kind h.type = false →
      h.type.tells h.ctx.kind = none → Step s (.dispatch zh accepted) (s.setConn zh { s.conns zh with handling := none })
  | take {k p funs} : s.second = .idle → s.funs = (k, p) :: funs → Step s .second { s with second := .autoReg k p, funs }
  | connected {k p} : s.second = .autoReg k p → s.isConnected = true → Step s .second { s with second := .lookup k p }
  | notConnected {k p} : s.second = .autoReg k p → s.isConnected = false → Step s .second { s with second := .idle }
  | found {k p data} : s.second = .lookup k p → s.datas k p = some data → data.isSupportAutoReg = true →
      Step s .second { s with second := .reg k p data }
  | notFound {k p} : s.second = .lookup k p → (∀ data, s.datas k p = some data → data.isSupportAutoReg = false) →
      Step s .second { s with second := .idle }
  | autoSent {k p data zh} : s.second = .reg k p data → s.isConnected = true → s.zhandle = some zh →
      Step s .second { s.send zh (.watch (data.toContext k) true) with second := .blocked k p data }
  | autoFailed {k p data} : s.second = .reg k p data →
      Step s .second { s with second := .idle, timers := s.timers ++ [(k, p)] }
  | autoStored {k p data} : s.second = .returned k p data true →
      Step s .second { s.setWatchData k data.path (some (.ofContext (data.toContext k))) with second := .idle }
  | autoLost {k p data} : s.second = .returned k p data false →
      Step s .second { s with second := .idle, timers := s.timers ++ [(k, p)] }
  | waited : s.second = .reconnecting → s.sessionState.final = true → Step s .second { s with second := .leaving }
  | left : s.second = .leaving → Step s .second { s with second := .idle }
  | timer {i k p} : s.second = .idle → s.timers[i]? = some (k, p) →
      Step s (.timer i) { s with second := .autoReg k p, timers := s.timers.eraseIdx i }
  | regRefused {k p handler context} : Step s (.reg k p handler context) s
  | regSent {k p handler context zh} : s.isConnected = true → s.zhandle = some zh →
      Step s (.reg k p (some handler) context) (s.send zh (.watch ⟨k, p, handler, context⟩ false))
  | regStored {i ctx} : s.replied[i]? = some (ctx, true) →
      Step s (.regReturn i)
        (St.setWatchData { s with replied := s.replied.eraseIdx i } ctx.kind ctx.path (some (.ofContext ctx)))
  | regFailed {i ctx} : s.replied[i]? = some (ctx, false) →
      Step s (.regReturn i) { s with replied := s.replied.eraseIdx i }
  | cancel (k p) : Step s (.cancel k p) (s.setWatchData k p none)
  | expire : Step s .expire { s with sessionState := .expired }
  | retried : s.second = .idle →
      Step s (.retry true) { s with second := .reconnecting, zhandle := some s.made, made := s.made + 1 }
  | retryFailed : s.second = .idle → Step s (.retry false) { s with zhandle := none }

theorem serve_inv {s t : St} {zh : Nat} (hm : zh < s.made) (h : s.serve zh = some t) : Step s (.serve zh) t := by
  simp only [St.serve] at h
  split at h
  · cases h
  split at h
  · cases h
  · rename_i ho
    cases h
    split
    · rename_i harm; exact .armed hm ho harm
    · exact .refused hm ho
  · rename_i ho
    cases h
    exact .read hm ho

theorem fail_inv {s t : St} {zh : Nat} {rc : Rc} (hm : zh < s.made) (hrc : rc ≠ .znonode) (h : s.fail zh rc = some t) :
    Step s (.fail zh rc) t := by
  simp only [St.fail] at h
  split at h
  · cases h
  · rename_i ho; cases h; exact .failWatch hm ho
  · rename_i ho; cases h; exact .failRead hm hrc ho

theorem deliver_inv {s t : St} {zh : Nat} (hm : zh < s.made) (h : s.deliver zh = some t) : Step s (.deliver zh) t := by
  simp only [St.deliver] at h
  split at h
  · rename_i hi; cases h; exact .sessionWatcher hm hi
  · rename_i hh hi
    split at h
    · cases h
    · cases h; exact .event hm hh hi
  · rename_i hh hi
    obtain ⟨n, rfl, hctx, hz, ht⟩ := fetched_eq h
    exact .fetched hm hh hi hctx hz ht
  · cases h

theorem existWatcher_inv {s : St} {zh : Nat} {h : Handling} {accepted : Bool} (hm : zh < s.made)
    (hh : (s.conns zh).handling = some h) (hk : h.ctx.kind = .node) :
    Step s (.dispatch zh accepted)
      (existWatcher (s.setConn zh { s.conns zh with handling := none }) zh h hk accepted) := by
  cases ht : h.type <;> cases accepted <;> simp only [existWatcher, ht, if_true, Bool.false_eq_true, if_false]
  case created.true | changed.true => exact .fetch hm hh (by rw [hk, ht]; rfl) rfl rfl
  case child.true | child.false | session.true | session.false =>
    exact .nothing hm hh (by rw [hk, ht]; rfl) (by rw [hk, ht]; rfl)
  all_goals exact .told hm hh rfl rfl (by rw [hk, ht]; first | exact fun _ => ⟨rfl, rfl⟩ | nofun)

theorem getChildrenWatcher_inv {s : St} {zh : Nat} {h : Handling} {accepted : Bool} (hm : zh < s.made)
    (hh : (s.conns zh).handling = some h) (hk : h.ctx.kind = .child) :
    Step s (.dispatch zh accepted)
      (getChildrenWatcher (s.setConn zh { s.conns zh with handling := none }) zh h hk accepted) := by
  cases ht : h.type <;> cases accepted <;> simp only [getChildrenWatcher, ht, if_true, Bool.false_eq_true, if_false]
  case child.true => exact .fetch hm hh (by rw [hk, ht]; rfl) rfl rfl
  case child.false | notWatching.true | notWatching.false =>
    exact .told hm hh rfl rfl (by rw [hk, ht]; first | exact fun _ => ⟨rfl, rfl⟩ | nofun)
  all_goals exact .nothing hm hh (by rw [hk, ht]; rfl) (by rw [hk, ht]; rfl)

theorem secondStep_inv {s t : St} (h : s.secondStep = some t) : Step s .second t := by
  unfold St.secondStep at h
  split at h
  · rename_i hs
    split at h
    · cases h
    · rename_i hf; cases h; exact .take hs hf
  · rename_i hs
    cases h
    cases hc : s.isConnected with
    | true => exact .connected hs hc
    | false => exact .notConnected hs hc
  · rename_i k p hs
    cases h
    cases hd : s.datas k p with
    | none => exact .notFound hs (by rw [hd]; nofun)
    | some data =>
      cases ha : data.isSupportAutoReg with
      | true => simpa [ha] using Step.found hs hd ha
      | false =>
        have hno : ∀ data, s.datas k p = some data → data.isSupportAutoReg = false := by
          intro data' hd'
          rw [hd] at hd'; cases hd'; exact ha
        simpa [ha] using Step.notFound hs hno
  · rename_i k p data hs
    cases h
    cases hr : s.regWatcher (data.toContext k) true with
    | none => exact .autoFailed hs
    | some u =>
      unfold St.regWatcher at hr
      split at hr
      · cases hr
      · rename_i hc
        obtain ⟨zh, hz, rfl⟩ := Option.map_eq_some_iff.mp hr
        exact .autoSent hs (by simpa using hc) hz
  · cases h
  · rename_i hs; cases h; exact .autoStored hs
  · rename_i hs; cases h; exact .autoLost hs
  · rename_i hs
    split at h
    · rename_i hf; cases h; exact .waited hs hf
    · cases h
  · rename_i hs; cases h; exact .left hs

theorem step_inv {s t : St} {a : Act} (h : step s a = some t) : Step s a t := by
  cases a with
  | foreign w =>
    obtain ⟨nodes, hn, rfl⟩ := Option.map_eq_some_iff.mp h
    exact .foreign hn
  | serve zh =>
    simp only [step] at h
    split at h
    · rename_i hm; exact serve_inv hm h
    · cases h
  | fail zh rc =>
    simp only [step] at h
    split at h
    · rename_i hm; exact fail_inv hm.1 hm.2.2 h
    · cases h
  | session zh state watchersFirst =>
    simp only [step] at h
    split at h
    · rename_i hm; cases h; exact .session hm.1 hm.2
    · cases h
  | deliver zh =>
    simp only [step] at h
    split at h
    · rename_i hm; exact deliver_inv hm h
    · cases h
  | dispatch zh accepted =>
    simp only [step] at h
    split at h
    · rename_i hm
      obtain ⟨c, hh, rfl⟩ := Option.map_eq_some_iff.mp h
      split
      · rename_i hk; exact existWatcher_inv hm hh hk
      · exact getChildrenWatcher_inv hm hh _
    · cases h
  | second => exact secondStep_inv h
  | timer i =>
    simp only [step] at h
    split at h
    · rename_i hs ht; cases h; exact .timer hs ht
    · cases h
  | reg k p handler context =>
    cases handler with
    | none => cases h; exact .regRefused
    | some handler =>
      simp only [step] at h
      cases h
      cases hr : s.regWatcher ⟨k, p, handler, context⟩ false with
      | none => exact .regRefused
      | some u =>
        unfold St.regWatcher at hr
        split at hr
        · cases hr
        · rename_i hc
          obtain ⟨zh, hz, rfl⟩ := Option.map_eq_some_iff.mp hr
          exact .regSent (by simpa using hc) hz
  | regReturn i =>
    obtain ⟨⟨ctx, ok⟩, hr, rfl⟩ := Option.map_eq_some_iff.mp h
    cases ok with
    | true => exact .regStored hr
    | false => exact .regFailed hr
  | cancel k p => cases h; exact .cancel k p
  | expire => cases h; exact .expire
  | retry ok =>
    simp only [step] at h
    split at h
    · cases h
    · rename_i hs
      have hs : s.second = .idle := by simpa using hs
      split at h
      · rename_i hok; cases hok; cases h; exact .retried hs
      · rename_i hok
        cases h
        cases ok with
        | true => exact absurd rfl hok
        | false => exact .retryFailed hs

/-! ## The stored data -/

def SecondPc.Stored : SecondPc → Prop
  | .reg _ p data | .blocked _ p data | .returned _ p data _ => data.path = p
  | _ => True

structure DatasInv (s : St) : Prop where
  datas : ∀ k p data, s.datas k p = some data → data.path = p ∧ data.isSupportAutoReg = true
  second : s.second.Stored

theorem datasInv_initial (nodes : Tree) : DatasInv (St.initial nodes) := ⟨nofun, trivial⟩

theorem stored_reply {pc : SecondPc} (h : pc.Stored) (auto ok : Bool) :
    (if auto = true then pc.reply ok else pc).Stored := by
  split
  · cases pc <;> exact h
  · exact h

theorem datasInv_setWatchData {s : St} (hi : DatasInv s) (k : Kind) (p : Path) {data : Option WatchData}
    (hdata : ∀ d ∈ data, d.path = p ∧ d.isSupportAutoReg = true) : DatasInv (s.setWatchData k p data) := by
  refine ⟨fun k' p' d h => ?_, hi.second⟩
  simp only [St.setWatchData] at h
  split at h
  · rename_i heq
    rw [heq.2]; exact hdata d h
  · exact hi.datas k' p' d h

theorem stored_ofContext (ctx : WatchContext) :
    ∀ d ∈ some (WatchData.ofContext ctx), d.path = ctx.path ∧ d.isSupportAutoReg = true := by
  intro d hd
  cases hd
  exact ⟨rfl, rfl⟩

theorem session_datas (s : St) (zh : Nat) (state : SessState) (watchersFirst : Bool) :
    (s.session zh state watchersFirst).datas = s.datas := by
  unfold St.session
  dsimp only
  split <;> rfl

theorem datasInv_step {s t : St} {a : Act} (hi : DatasInv s) (h : step s a = some t) : DatasInv t := by
  cases step_inv h with
  | armed _ _ _ | refused _ _ | failWatch _ _ =>
    exact ⟨hi.datas, stored_reply hi.second _ _⟩
  | session _ _ =>
    unfold St.session
    dsimp only
    split
    · exact ⟨hi.datas, hi.second⟩
    · exact ⟨hi.datas, stored_reply hi.second _ _⟩
  | found _ hd _ => exact ⟨hi.datas, (hi.datas _ _ _ hd).1⟩
  | autoSent hs _ _ =>
    have h := hi.second
    rw [hs] at h
    exact ⟨hi.datas, h⟩
  | @autoStored k _ data _ =>
    exact ⟨(datasInv_setWatchData hi k data.path (stored_ofContext (data.toContext k))).datas, trivial⟩
  | @regStored i _ _ =>
    have h : DatasInv { s with replied := s.replied.eraseIdx i } := ⟨hi.datas, hi.second⟩
    exact datasInv_setWatchData h _ _ (stored_ofContext _)
  | cancel k p => exact datasInv_setWatchData hi k p nofun
  | regRefused => exact hi
  | take _ _ | connected _ _ | notConnected _ _ | notFound _ _ | autoFailed _ | autoLost _ | waited _ _ | left _
  | timer _ _ | retried _ => exact ⟨hi.datas, trivial⟩
  | _ => exact ⟨hi.datas, hi.second⟩

end ZkCppClient.Watch
