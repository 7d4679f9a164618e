import ZkCppClient.Lib.Run
import ZkCppClient.Recipes.Objects
import ZkCppClient.Recipes.SharedNames

/-!
# The shared lock

`DistriSharedLock`: a request is a temporary sequential node below
`/shared_lock`. A reader has the lock when no writer's node has a smaller number
than its own, a writer when no node has, and who has not waits for the deletion
of the last of the nodes before it. Any number of objects run in processes of
their own; each is called by one thread, and its watch callbacks run on another.
The watches go with the session that they were registered in, and the retry that
opens the next one registers nothing.
-/

namespace ZkCppClient.Recipes.SharedLock

open SlashPath Ops

def parentPath : String := "/shared_lock"

def parentKey : Key := [⟨"shared_lock", by decide⟩]

inductive RwLockerMode
  | none
  | wr
  | rd
  deriving DecidableEq, Repr

/-- `isRead` says whether `rlock` or `wlock` has been called. -/
inductive Pc
  | idle
  | creating (isRead : Bool)
  | listing (isRead : Bool) (retPath : String)  -- before `getChildren`
  | registering (isRead : Bool) (retPath : String)  -- before `regNodeWatcher`
  | waiting (isRead : Bool) (retPath : String)  -- not yet in `condition_.wait()`
  | parked (isRead : Bool) (retPath : String)
  | unlocking (childPath : String)  -- in `deleteRecursive`, before its `getChildren`
  | deleting (childPath : String)
  deriving DecidableEq, Repr

/-- `watches` are those registered, each with the lock it was registered by, and
`inbox` has the deletions that the callbacks are still to be called with. -/
structure DistriSharedLock where
  isInit : Bool := false
  pc : Pc := .idle
  leastNodePathInRLock : String := ""
  leastNodePathInWLock : String := ""
  readerChildPaths : List String := []
  writerChildPath : String := ""
  curLockMode : RwLockerMode := .none
  watches : List (Bool × String) := []
  inbox : List (Bool × String) := []

def DistriSharedLock.leastNodePath (o : DistriSharedLock) (isRead : Bool) : String :=
  if isRead then o.leastNodePathInRLock else o.leastNodePathInWLock

abbrev St (ι : Type*) := Objects DistriSharedLock ι

def St.initial (ι : Type*) (server : Server) : St ι := ⟨server, fun _ => {}⟩

inductive Act (ι : Type*)
  | init (i : ι) (f : Fate)
  | lock (i : ι) (isRead : Bool)
  | createChild (i : ι) (f : Fate)
  | getChildren (i : ι) (f : Fate) (childNodes : List String)  -- the list as `std::sort` leaves it
  | regNodeWatcher (i : ι) (ok : Bool)
  | wait (i : ι)
  | wake (i : ι)  -- out of `condition_.wait()` without a notification
  | callback (i : ι)
  | unlock (i : ι)
  | list (i : ι) (f : Fate)
  | delete (i : ι) (f : Fate)
  | drop (path : String)  -- a session has ended, or another client deletes the node
  | retry (i : ι)  -- the session of the object's watches is over, and the handle that takes its place has none
  deriving DecidableEq

/-! ## The loops of `rlock` and `wlock` -/

def dataLess (node1 node2 : String) : Bool := getSeqNo node1 < getSeqNo node2

/-- What `std::sort` can leave of a list. -/
def Sorted (childNodes sorted : List String) : Prop :=
  sorted.Perm childNodes ∧ sorted.Pairwise fun node1 node2 => dataLess node2 node1 = false

instance (childNodes sorted : List String) : Decidable (Sorted childNodes sorted) := inferInstanceAs (Decidable (_ ∧ _))

def blocks (isRead : Bool) (retPath node : String) : Bool :=
  (!isRead || !isReadTypeLock node) && getSeqNo node < getSeqNo retPath

/-- The last of the nodes to wait for; none where `isLeastNode` stays. -/
def leastNodeName (isRead : Bool) (retPath : String) (childNodes : List String) : Option String :=
  childNodes.foldl (fun least node => if blocks isRead retPath node then some node else least) none

def DistriSharedLock.granted (o : DistriSharedLock) (isRead : Bool) (retPath : String) : DistriSharedLock :=
  if isRead then { o with pc := .idle, readerChildPaths := o.readerChildPaths ++ [retPath], curLockMode := .rd }
  else { o with pc := .idle, writerChildPath := retPath, curLockMode := .wr }

def DistriSharedLock.blocked (o : DistriSharedLock) (isRead : Bool) (retPath leastNodeName : String) :
    DistriSharedLock :=
  if isRead then
    { o with pc := .registering isRead retPath, leastNodePathInRLock := parentPath ++ "/" ++ leastNodeName }
  else { o with pc := .registering isRead retPath, leastNodePathInWLock := parentPath ++ "/" ++ leastNodeName }

/-- `regWatcherRLock_cb` and `regWatcherWLock_cb`, called with a deletion. -/
def regWatcher_cb (o : DistriSharedLock) (isRead : Bool) (path : String) : DistriSharedLock :=
  if path = o.leastNodePath isRead then
    match o.pc with
    | .parked isRead' retPath => if isRead' = isRead then { o with pc := .listing isRead retPath } else o  -- `notifyAll`
    | _ => o
  else o

/-- The beginning of `unlock`; `none` where one of its assertions fails. -/
def DistriSharedLock.unlock (o : DistriSharedLock) : Option DistriSharedLock :=
  match o.curLockMode with
  | .none => some o
  | .rd =>
    match o.readerChildPaths with
    | [] => none
    | childPath :: paths => some { o with
        pc := .unlocking childPath, readerChildPaths := paths, curLockMode := if paths = [] then .none else .rd }
  | .wr =>
    if o.writerChildPath = "" then none
    else some { o with pc := .unlocking o.writerChildPath, writerChildPath := "", curLockMode := .none }

section
variable {ι : Type*} [DecidableEq ι]

/-- The server after a request: the watches on the nodes that are gone fire. -/
def St.setServer (s : St ι) (server : Server) : St ι where
  server := server
  objects i :=
    let o := s.objects i
    { o with inbox := o.inbox ++ o.watches.filter fun w => s.server.has w.2 && !server.has w.2 }

variable (childNodeName : ι → Text)

def childPath (i : ι) (isRead : Bool) : String := parentPath ++ "/" ++ markedName (childNodeName i).val isRead

def step (s : St ι) : Act ι → Option (St ι)
  | .init i f =>
    if (s.objects i).isInit then none else
    match createOn f s.server parentPath false false with
    | (.kZKSucceed, _, server) | (.kZKExisted, _, server) =>
      let s := s.setServer server
      some (s.setObject i { s.objects i with isInit := true })
    | (_, _, server) => some (s.setServer server)
  | .lock i isRead =>
    let o := s.objects i
    if o.isInit ∧ o.pc = .idle then some (s.setObject i { o with pc := .creating isRead }) else none
  | .createChild i f =>
    match (s.objects i).pc with
    | .creating isRead =>
      match createOn f s.server (childPath childNodeName i isRead) true true with
      | (.kZKSucceed, some retPath, server) =>
        let s := s.setServer server
        some (s.setObject i { s.objects i with pc := .listing isRead retPath })
      | (_, _, server) =>
        let s := s.setServer server
        some (s.setObject i { s.objects i with pc := .idle })
    | _ => none
  | .getChildren i f sorted =>
    let o := s.objects i
    match o.pc with
    | .listing isRead retPath =>
      match getChildrenOn f s.server parentPath with
      | (.kZKSucceed, childNodes) =>
        if Sorted childNodes sorted then
          match leastNodeName isRead retPath sorted with
          | none => some (s.setObject i (o.granted isRead retPath))
          | some leastNodeName => some (s.setObject i (o.blocked isRead retPath leastNodeName))
        else none
      | _ => some (s.setObject i { o with pc := .idle })
    | _ => none
  | .regNodeWatcher i ok =>
    let o := s.objects i
    match o.pc with
    | .registering isRead retPath =>
      if ok then some (s.setObject i { o with
        pc := .waiting isRead retPath, watches := o.watches ++ [(isRead, o.leastNodePath isRead)] })
      else some (s.setObject i { o with pc := .idle })
    | _ => none
  | .wait i =>
    let o := s.objects i
    match o.pc with
    | .waiting isRead retPath => some (s.setObject i { o with pc := .parked isRead retPath })
    | _ => none
  | .wake i =>
    let o := s.objects i
    match o.pc with
    | .parked isRead retPath => some (s.setObject i { o with pc := .listing isRead retPath })
    | _ => none
  | .callback i =>
    let o := s.objects i
    match o.inbox with
    | [] => none
    | (isRead, path) :: inbox => some (s.setObject i (regWatcher_cb { o with inbox } isRead path))
  | .unlock i =>
    let o := s.objects i
    if o.isInit ∧ o.pc = .idle then o.unlock.map (s.setObject i) else none
  | .list i f =>
    let o := s.objects i
    match o.pc with
    | .unlocking childPath =>
      match getChildrenOn f s.server childPath with
      | (.kZKSucceed, _) => some (s.setObject i { o with pc := .deleting childPath })  -- a temporary node has no children
      | _ => some (s.setObject i { o with pc := .idle })
    | _ => none
  | .delete i f =>
    match (s.objects i).pc with
    | .deleting childPath =>
      let s := s.setServer (deleteNodeOn f s.server childPath).2
      some (s.setObject i { s.objects i with pc := .idle })
    | _ => none
  | .drop path =>
    match s.server.delete path (-1) with
    | (.zok, server) => some (s.setServer server)
    | _ => none
  | .retry i => some (s.setObject i { s.objects i with watches := [] })

end

end ZkCppClient.Recipes.SharedLock
