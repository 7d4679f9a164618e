import ZkCppClient.Lib.Run
import ZkCppClient.Ops.Completions
import ZkCppClient.Ops.Create
import ZkCppClient.Ops.DeleteAsync
import ZkCppClient.Watch.Machine

/-!
# The end of a session

When the connection or the session ends, the library completes every request
that is outstanding with the error that ended it. Each completion asserts the
codes it expects, and none of them expects ZSESSIONEXPIRED.
-/

namespace ZkCppClient.Ops

inductive AsyncOp
  | getNode (ctx : ZkOperateContext)
  | getChildren (ctx : ZkOperateContext)
  | isExist (ctx : ZkOperateContext)
  | set (ctx : ZkOperateContext)
  | create (ctx : ContextInCreateParentAndNodes)
  | createIfNeedCreateParents (ctx : ContextInCreateParentAndNodes)
  | deleteNode (ctx : ContextInDeleteRecursive)
  | deleteRecursive (ctx : ContextInDeleteRecursive)

inductive InFlight
  | op (op : AsyncOp)
  | fetch (c : Watch.ContextInWatcher)

inductive OpCall
  | getNode (call : HandlerCall (String × Int32))
  | getChildren (call : HandlerCall (List String))
  | exist (call : HandlerCall Unit)
  | set (call : HandlerCall Int32)
  | create (call : CreateCall)
  | delete (call : DeleteCall)
  deriving DecidableEq, Repr

def noCreates : CreateEnv Unit where
  isConnected _ := (false, ())
  zooCreate _ _ _ _ := ((.zclosing, ""), ())
  zooAcreate _ _ _ _ := (.zclosing, ())
  createReply _ _ := ((.zclosing, ""), ())

def noDeletes : Env Unit where
  isConnected _ := (false, ())
  zooGetChildren _ _ := (.zclosing, [], ())
  zooDelete _ _ _ := (.zclosing, ())
  zooAdelete _ _ _ := (.zclosing, ())
  deleteRc _ _ := (.zclosing, ())

def CreateOutcome.calls? : Option (CreateOutcome Unit) → Option (List OpCall)
  | some (.ended _ calls _) => some (calls.map .create)
  | _ => none

def Outcome.calls? : Option (Outcome Unit) → Option (List OpCall)
  | some (.ended _ calls _) => some (calls.map .delete)
  | _ => none

def AsyncOp.complete (rc : Rc) : AsyncOp → Option (List OpCall)
  | .getNode ctx => (getNodeDataCompletion ctx rc none 0 0).map fun call => [.getNode call]
  | .getChildren ctx => (getChildrenStringCompletion ctx rc []).map fun call => [.getChildren call]
  | .isExist ctx => (existCompletion ctx rc).map fun call => [.exist call]
  | .set ctx => (setCompletion ctx rc 0).map fun call => [.set call]
  | .create ctx => (createCompletion ctx rc "").map fun call => [.create call]
  | .createIfNeedCreateParents ctx =>
    CreateOutcome.calls? (createIfNeedCreateParentsCompletion noCreates 0 () ctx rc "")
  | .deleteNode ctx => (deleteCompletion ctx rc).map fun call => [.delete call]
  | .deleteRecursive ctx => Outcome.calls? (deleteRecursiveCompletion noDeletes 0 () ctx rc)

/-- `watch` has the registrations, and the calls of their handlers in its log. -/
structure LossSt where
  watch : Watch.St
  inFlight : List InFlight
  calls : List OpCall
  aborted : Bool

def LossSt.initial (nodes : Watch.Tree) : LossSt := ⟨.initial nodes, [], [], false⟩

inductive LossAct
  | request (r : InFlight)
  | register (ctx : Watch.WatchContext)
  | cancel (k : Watch.Kind) (p : Watch.Path)
  | complete (i : Nat) (rc : Rc)

def lossCodes : List Rc := [.zconnectionloss, .zoperationtimeout, .zclosing, zsessionexpired]

def LossSt.complete (s : LossSt) (rc : Rc) : InFlight → Option LossSt
  | .fetch c => (s.watch.fetched c (.failed rc)).map fun watch => { s with watch }
  | .op op => (op.complete rc).map fun calls => { s with calls := s.calls ++ calls }

def LossSt.take (s : LossSt) : LossAct → Option LossSt
  | .request r => some { s with inFlight := s.inFlight ++ [r] }
  | .register ctx => some { s with watch := s.watch.setWatchData ctx.kind ctx.path (some (.ofContext ctx)) }
  | .cancel k p => some { s with watch := s.watch.setWatchData k p none }
  | .complete i rc =>
    if rc ∈ lossCodes then
      (s.inFlight[i]?).map fun r =>
        let s := { s with inFlight := s.inFlight.eraseIdx i }
        (s.complete rc r).getD { s with aborted := true }
    else none

def lossStep (s : LossSt) (a : LossAct) : Option LossSt :=
  if s.aborted then none else s.take a

/-! ## What every completed request is owed -/

structure Owed where
  calls : List OpCall
  notifications : List Watch.Notification

def AsyncOp.owed : AsyncOp → List OpCall
  | .getNode ctx => [.getNode (ctx.call .kZKError ("", kInvalidDataVersion))]
  | .getChildren ctx => [.getChildren (ctx.call .kZKError [])]
  | .isExist ctx => [.exist (ctx.call .kZKError ())]
  | .set ctx => [.set (ctx.call .kZKError kInvalidDataVersion)]
  | .create ctx | .createIfNeedCreateParents ctx => [.create (ctx.call .kZKError "")]
  | .deleteNode ctx | .deleteRecursive ctx => [.delete (ctx.call .kZKError)]

def fetchFailed : Watch.Kind → ZkNotifyType
  | .node => .kGetNodeValueFailed
  | .child => .kGetChildListFailed

/-- An operation owes one call of its handler with kZKError, a fetch one call to
the handler of a path that is still registered. -/
def Owed.add (w : Owed) (s : LossSt) : InFlight → Owed
  | .op op => { w with calls := w.calls ++ op.owed }
  | .fetch c => { w with
    notifications := w.notifications ++
      if s.watch.isShouldNotify c.ctx.kind c.ctx.path then
        [{ ctx := c.ctx, type := fetchFailed c.ctx.kind, zxid := c.zxid }]
      else [] }

def owe (w : Owed) (s : LossSt) : LossAct → Owed
  | .complete i _ => (s.inFlight[i]?).elim w (w.add s)
  | _ => w

/-- No assert has failed, and the handlers have been called as they were owed. -/
structure Answered (x : LossSt × Owed) : Prop where
  running : x.1.aborted = false
  calls : x.1.calls = x.2.calls
  notifications : x.1.watch.log = x.2.notifications

def NotExpired (_ : LossSt × Owed) : LossAct → Prop
  | .complete _ rc => rc ≠ zsessionexpired
  | _ => True

def answeredStep : LossSt × Owed → LossAct → Option (LossSt × Owed) := Lts.withHistory lossStep owe

section
variable {s t : LossSt} {w : Owed} {rc : Rc}

theorem lossCodes_cases (h : rc ∈ lossCodes) (hne : rc ≠ zsessionexpired) :
    rc = .zconnectionloss ∨ rc = .zoperationtimeout ∨ rc = .zclosing := by
  simpa [lossCodes, hne] using h

theorem complete_owed (h : rc ∈ lossCodes) (hne : rc ≠ zsessionexpired) (op : AsyncOp) :
    op.complete rc = some op.owed := by
  rcases lossCodes_cases h hne with rfl | rfl | rfl <;> cases op <;> rfl

theorem complete_expired (op : AsyncOp) : op.complete zsessionexpired = none := by cases op <;> rfl

theorem fetched_owed (c : Watch.ContextInWatcher) (h : rc ∈ lossCodes) (hne : rc ≠ zsessionexpired) :
    s.watch.fetched c (.failed rc) = some { s.watch with
      log := s.watch.log ++ if s.watch.isShouldNotify c.ctx.kind c.ctx.path then
        [{ ctx := c.ctx, type := fetchFailed c.ctx.kind, zxid := c.zxid }] else [] } := by
  unfold Watch.St.fetched
  cases hk : c.ctx.kind with
  | node =>
    cases hreg : s.watch.isShouldNotify .node c.ctx.path <;> rcases lossCodes_cases h hne with rfl | rfl | rfl <;>
      simp [Watch.getNodeDataOnWatcher, Watch.fetchAsserted, Watch.St.notify, hk, hreg, fetchFailed]
  | child =>
    cases hreg : s.watch.isShouldNotify .child c.ctx.path <;> rcases lossCodes_cases h hne with rfl | rfl | rfl <;>
      simp [Watch.getChildDataOnWatcher, Watch.fetchAsserted, Watch.St.notify, hk, hreg, fetchFailed]

theorem fetched_expired (c : Watch.ContextInWatcher) : s.watch.fetched c (.failed zsessionexpired) = none := by
  unfold Watch.St.fetched
  cases c.ctx.kind <;> rfl

theorem lossComplete_expired (r : InFlight) : s.complete zsessionexpired r = none := by
  cases r with
  | op op => rw [LossSt.complete, complete_expired]; rfl
  | fetch c => rw [LossSt.complete, fetched_expired]; rfl

theorem answered_complete (hi : Answered (s, w)) (h : rc ∈ lossCodes) (hne : rc ≠ zsessionexpired) (r : InFlight) :
    ∃ t, s.complete rc r = some t ∧ Answered (t, w.add s r) := by
  cases r with
  | op op =>
    refine ⟨{ s with calls := s.calls ++ op.owed }, ?_, hi.running, ?_, hi.notifications⟩
    · rw [LossSt.complete, complete_owed h hne]
      rfl
    · exact congrArg (· ++ op.owed) hi.calls
  | fetch c =>
    let failed := if s.watch.isShouldNotify c.ctx.kind c.ctx.path then
      [({ ctx := c.ctx, type := fetchFailed c.ctx.kind, zxid := c.zxid } : Watch.Notification)] else []
    refine ⟨{ s with watch := { s.watch with log := s.watch.log ++ failed } }, ?_, hi.running, hi.calls, ?_⟩
    · rw [LossSt.complete, fetched_owed c h hne]
      rfl
    · exact congrArg (· ++ failed) hi.notifications

theorem lossStep_running {a : LossAct} (hrun : s.aborted = false) : lossStep s a = s.take a := by
  rw [lossStep, if_neg (by simp [hrun])]

theorem lossStep_complete {i : Nat} (hrun : s.aborted = false) (h : lossStep s (.complete i rc) = some t) :
    rc ∈ lossCodes ∧ ∃ r, s.inFlight[i]? = some r ∧
      t = (LossSt.complete { s with inFlight := s.inFlight.eraseIdx i } rc r).getD
        { s with inFlight := s.inFlight.eraseIdx i, aborted := true } := by
  rw [lossStep_running hrun] at h
  simp only [LossSt.take] at h
  split at h
  · rename_i hrc
    obtain ⟨r, hr, rfl⟩ := Option.map_eq_some_iff.mp h
    exact ⟨hrc, r, hr, rfl⟩
  · cases h

theorem answered_step {a : LossAct} (hi : Answered (s, w)) (hg : NotExpired (s, w) a) (h : lossStep s a = some t) :
    Answered (t, owe w s a) := by
  have hrun : s.aborted = false := hi.running
  cases a with
  | complete i rc =>
    obtain ⟨hrc, r, hr, rfl⟩ := lossStep_complete hrun h
    have hi' : Answered ({ s with inFlight := s.inFlight.eraseIdx i }, w) := ⟨hi.running, hi.calls, hi.notifications⟩
    obtain ⟨t, ht, hanswered⟩ := answered_complete hi' hrc hg r
    rw [ht]
    simp only [owe, hr]
    cases r <;> exact hanswered
  | request _ | register _ | cancel _ _ =>
    rw [lossStep_running hrun] at h
    cases h
    exact ⟨hi.running, hi.calls, hi.notifications⟩

theorem aborted_of_expired {a : LossAct} (hi : Answered (s, w)) (hg : ¬ NotExpired (s, w) a)
    (h : lossStep s a = some t) : t.aborted = true := by
  cases a with
  | complete i rc =>
    have hrc : rc = zsessionexpired := Classical.not_not.mp hg
    subst hrc
    obtain ⟨-, r, -, rfl⟩ := lossStep_complete hi.running h
    rw [lossComplete_expired]
    rfl
  | _ => exact absurd trivial hg

/-- **The end of a session.** In every run, no completion fails its assert and
every completed request has called its handler as it was owed, just when no
request is completed with ZSESSIONEXPIRED. -/
theorem answered_iff {nodes : Watch.Tree} {acts : List LossAct}
    (hrun : Lts.run lossStep (LossSt.initial nodes) acts = some t) :
    Lts.Throughout answeredStep Answered (LossSt.initial nodes, ⟨[], []⟩) acts ↔
      Lts.Along answeredStep NotExpired (LossSt.initial nodes, ⟨[], []⟩) acts := by
  obtain ⟨w, hanswered⟩ := Lts.run_withHistory owe ⟨[], []⟩ hrun
  refine Lts.throughout_iff_along (I := Answered) ?_ (fun _ hi => hi) ?_ ⟨rfl, rfl, rfl⟩ hanswered
  · intro x a y hi hg h
    obtain ⟨hstep, howed⟩ := Lts.withHistory_some h
    have hy := answered_step hi hg hstep
    rwa [← howed] at hy
  · intro x a y hi hg h hy
    obtain ⟨hstep, -⟩ := Lts.withHistory_some h
    have habort := aborted_of_expired hi hg hstep
    rw [hy.running] at habort
    cases habort

end

def outstanding : List LossAct :=
  [.request (.op (.getNode ⟨"/a", 1, 7⟩)), .register ⟨.node, ["a"], 2, 8⟩,
    .request (.fetch ⟨⟨.node, ["a"], 2, 8⟩, .kNodeChange, 1, rfl⟩)]

theorem answered_connectionLoss :
    Lts.Throughout answeredStep Answered (LossSt.initial fun _ => none, ⟨[], []⟩)
      (outstanding ++ [.complete 1 .zconnectionloss, .complete 0 .zconnectionloss]) :=
  (answered_iff (t := (Lts.run lossStep (LossSt.initial fun _ => none)
    (outstanding ++ [.complete 1 .zconnectionloss, .complete 0 .zconnectionloss])).get (by decide)) (by simp)).mpr
    (by simp [outstanding, Lts.Along, NotExpired, zsessionexpired])

/-- The session expires, and the completion of the read fails its assert. -/
theorem not_answered_expired : ¬ Lts.Throughout answeredStep Answered (LossSt.initial fun _ => none, ⟨[], []⟩)
    (outstanding ++ [.complete 0 zsessionexpired]) := by
  refine Lts.not_throughout ⟨_, rfl, fun h => ?_⟩
  cases h.running

end ZkCppClient.Ops
