import Mathlib.Algebra.BigOperators.Group.Finset.Basic
import Mathlib.Algebra.Order.BigOperators.Group.Finset
import Mathlib.Data.List.Perm.Basic
import ZkCppClient.Watch.Permanent

/-!
# One watch, one notification

A registration of the user is one claim on its path that is passed along: from
the request to the armed watch, to its event, to the queued re-registration, to
the second thread or a timer, and to the next request, on whichever handle. Only
a session event makes a claim out of nothing: it leaves its watch armed, and
queues a re-registration all the same.
-/

namespace ZkCppClient.Watch

def Act.registers (k : Kind) (p : Path) : Act → Bool
  | .reg k' p' _ _ => k' = k ∧ p' = p
  | _ => false

def St.total (s : St) (f : Conn → Nat) : Nat := ∑ zh ∈ Finset.range s.made, f (s.conns zh)

def Conn.watches (k : Kind) (p : Path) (c : Conn) : Nat := c.armed.countP (·.ctx.on k p)

/-- The notification of the change `z` to the path. -/
def Notification.reports (k : Kind) (p : Path) (z : Nat) (n : Notification) : Bool := n.ctx.on k p ∧ n.zxid = z

/-- At most one watch of the path is armed, and no change has been notified twice. -/
def OneWatch (k : Kind) (p : Path) (s : St) : Prop :=
  s.total (Conn.watches k p) ≤ 1 ∧ ∀ z, s.log.countP (·.reports k p z) ≤ 1

def Item.isSession (k : Kind) (p : Path) : Item → Prop
  | .event ctx type _ => ctx.on k p ∧ type = .session
  | _ => False

instance (k : Kind) (p : Path) : ∀ item, Decidable (Item.isSession k p item)
  | .event _ _ _ => inferInstanceAs (Decidable (_ ∧ _))
  | .sessionWatcher _ | .fetched _ _ => inferInstanceAs (Decidable False)

/-- No callback of the path's watches gets a session event while the path is registered. -/
def NoSessionCallback (k : Kind) (p : Path) (s : St) : Act → Prop
  | .deliver zh => ∀ item ∈ (s.conns zh).inbox.head?, item.isSession k p → s.datas k p = none
  | _ => True

instance (k : Kind) (p : Path) (s : St) : ∀ a, Decidable (NoSessionCallback k p s a)
  | .deliver _ => inferInstanceAs (Decidable (∀ _ ∈ _, _ → _))
  | .foreign _ | .serve _ | .fail _ _ | .session _ _ _ | .dispatch _ _ | .second | .timer _ | .reg _ _ _ _
  | .regReturn _ | .cancel _ _ | .expire | .retry _ => isTrue trivial

/-! ## Claims -/

def Request.isWatch (k : Kind) (p : Path) : Request → Bool
  | .watch ctx _ => ctx.on k p
  | .read _ => false

def SecondPc.claims (k : Kind) (p : Path) : SecondPc → Nat
  | .autoReg k' p' | .lookup k' p' | .reg k' p' _ | .returned k' p' _ false => if (k', p') = (k, p) then 1 else 0
  | _ => 0

def Conn.claims (k : Kind) (p : Path) (c : Conn) : Nat :=
  c.watches k p + c.inbox.countP (·.isEvent k p) + c.outbox.countP (·.isWatch k p)

def claims (k : Kind) (p : Path) (s : St) : Nat :=
  s.total (Conn.claims k p) + (s.funs.count (k, p) + s.second.claims k p + s.timers.count (k, p))

def SecondPc.asked : SecondPc → Option WatchContext
  | .blocked k _ data => some (data.toContext k)
  | _ => none

/-- The second thread has no registration under way but the one it waits for, on `zhandle_`. -/
structure HandlesInv (s : St) : Prop where
  fresh : ∀ zh, s.made ≤ zh → s.conns zh = {}
  zhandle : ∀ zh ∈ s.zhandle, zh < s.made
  stored : DatasInv s
  asked : ∀ zh, (s.conns zh).outbox.filterMap Request.auto? =
    if s.zhandle = some zh then s.second.asked.toList else []

theorem handlesInv_initial (nodes : Tree) : HandlesInv (St.initial nodes) where
  fresh zh h := by
    show ({ up := zh = 0 } : Conn) = {}
    rw [decide_eq_false (Nat.ne_of_gt h)]
  zhandle _ h := by cases h; exact Nat.lt_one_iff.mpr rfl
  stored := datasInv_initial nodes
  asked _ := by split <;> rfl

section
variable {k : Kind} {p : Path} {s t : St} {zh : Nat} {c : Conn}

/-! ## Counts over the handles -/

theorem total_setConn (hz : zh < s.made) (c : Conn) (f : Conn → Nat) :
    (s.setConn zh c).total f + f (s.conns zh) = s.total f + f c := by
  have hm : zh ∈ Finset.range s.made := Finset.mem_range.mpr hz
  have hnew := Finset.add_sum_erase _ (fun z => f ((s.setConn zh c).conns z)) hm
  have hold := Finset.add_sum_erase _ (fun z => f (s.conns z)) hm
  have hrest : ∑ z ∈ (Finset.range s.made).erase zh, f ((s.setConn zh c).conns z) =
      ∑ z ∈ (Finset.range s.made).erase zh, f (s.conns z) :=
    Finset.sum_congr rfl fun z hz => by rw [setConn_of_ne s zh c (Finset.ne_of_mem_erase hz)]
  rw [setConn_self] at hnew
  show ∑ z ∈ Finset.range s.made, f ((s.setConn zh c).conns z) + _ = ∑ z ∈ Finset.range s.made, f (s.conns z) + _
  omega

theorem total_congr (hmade : t.made = s.made) (hconns : t.conns = s.conns) (f : Conn → Nat) :
    t.total f = s.total f := by
  unfold St.total
  rw [hmade, hconns]

theorem le_total (hz : zh < s.made) (f : Conn → Nat) : f (s.conns zh) ≤ s.total f :=
  Finset.single_le_sum (f := fun z => f (s.conns z)) (fun _ _ => Nat.zero_le _) (Finset.mem_range.mpr hz)

theorem total_made (hi : HandlesInv s) {f : Conn → Nat} (hf : f {} = 0) :
    ∑ z ∈ Finset.range (s.made + 1), f (s.conns z) = s.total f := by
  rw [Finset.sum_range_succ, hi.fresh s.made (Nat.le_refl _), hf]
  rfl

/-! ## The handles -/

theorem handlesInv_congr (hi : HandlesInv s) (hstored : DatasInv t) (hlib : t.library = s.library)
    (hconns : t.conns = s.conns) (hasked : t.second.asked = s.second.asked) : HandlesInv t := by
  obtain ⟨-, -, -, hmade, hzh⟩ := library_inj hlib
  constructor
  · rw [hconns, hmade]; exact hi.fresh
  · rw [hzh, hmade]; exact hi.zhandle
  · exact hstored
  · rw [hconns, hzh, hasked]; exact hi.asked

theorem handlesInv_setConn (hi : HandlesInv s) (hstored : DatasInv t) (hz : zh < s.made)
    (hlib : t.library = s.library) (hconns : t.conns = (s.setConn zh c).conns)
    (hself : c.outbox.filterMap Request.auto? = if s.zhandle = some zh then t.second.asked.toList else [])
    (hother : t.second.asked = s.second.asked ∨ s.zhandle = some zh) : HandlesInv t := by
  obtain ⟨-, -, -, hmade, hzh⟩ := library_inj hlib
  constructor
  · intro z h
    rw [hmade] at h
    rw [hconns, setConn_of_ne s zh c (Nat.ne_of_gt (Nat.lt_of_lt_of_le hz h))]
    exact hi.fresh z h
  · rw [hzh, hmade]; exact hi.zhandle
  · exact hstored
  · intro z
    rw [hconns, hzh]
    by_cases hzz : z = zh
    · subst hzz
      rw [setConn_self, hself]
    · rw [setConn_of_ne s zh c hzz, hi.asked z]
      rcases hother with h | h
      · rw [h]
      · have hne : s.zhandle ≠ some z := fun h' => hzz (Option.some.inj (h'.symm.trans h))
        rw [if_neg hne, if_neg hne]

theorem handlesInv_quiet (hi : HandlesInv s) (hstored : DatasInv t) (hz : zh < s.made)
    (hlib : t.library = s.library) (hconns : t.conns = (s.setConn zh c).conns)
    (houtbox : c.outbox.filterMap Request.auto? = (s.conns zh).outbox.filterMap Request.auto?)
    (hasked : t.second.asked = s.second.asked) : HandlesInv t :=
  handlesInv_setConn hi hstored hz hlib hconns (by rw [houtbox, hasked]; exact hi.asked zh) (.inl hasked)

theorem blocked_of_outbox (hi : HandlesInv s) {ctx : WatchContext}
    (ho : ctx ∈ (s.conns zh).outbox.filterMap Request.auto?) : s.zhandle = some zh ∧
      ∃ k p data, s.second = .blocked k p data ∧ ctx = data.toContext k ∧ data.path = p := by
  rw [hi.asked zh] at ho
  split at ho
  · rename_i hzh
    refine ⟨hzh, ?_⟩
    have hst := hi.stored.second
    cases hs : s.second with
    | blocked k p data =>
      rw [hs] at ho hst
      exact ⟨k, p, data, rfl, List.mem_singleton.mp ho, hst⟩
    | _ => rw [hs] at ho; cases ho
  · cases ho

theorem asked_answered (hi : HandlesInv s) (ok : Bool) {ctx : WatchContext} {auto : Bool} {outbox : List Request}
    (ho : (s.conns zh).outbox = .watch ctx auto :: outbox) :
    (outbox.filterMap Request.auto? =
      if s.zhandle = some zh then (if auto = true then s.second.reply ok else s.second).asked.toList else []) ∧
    ((if auto = true then s.second.reply ok else s.second).asked = s.second.asked ∨ s.zhandle = some zh) := by
  have h := hi.asked zh
  rw [ho] at h
  cases auto with
  | false => exact ⟨h, .inl rfl⟩
  | true =>
    have hm : ctx ∈ (s.conns zh).outbox.filterMap Request.auto? := by rw [ho]; exact List.mem_cons_self
    obtain ⟨hzh, k, p, data, hs, -, -⟩ := blocked_of_outbox hi hm
    rw [if_pos hzh, hs] at h ⊢
    exact ⟨(List.cons.inj h).2, .inr hzh⟩

theorem asked_lost (hi : HandlesInv s) (zh : Nat) {pc : SecondPc}
    (hpc : pc = if ((s.conns zh).outbox.any (·.auto?.isSome)) = true then s.second.reply false else s.second) :
    [] = (if s.zhandle = some zh then pc.asked.toList else []) ∧ (pc.asked = s.second.asked ∨ s.zhandle = some zh) := by
  by_cases hany : (s.conns zh).outbox.any (·.auto?.isSome) = true
  · obtain ⟨r, hr, hsome⟩ := List.any_eq_true.mp hany
    obtain ⟨ctx, hctx⟩ := Option.isSome_iff_exists.mp hsome
    obtain ⟨hzh, k, p, data, hs, -, -⟩ := blocked_of_outbox hi (List.mem_filterMap.mpr ⟨r, hr, hctx⟩)
    rw [if_pos hany, hs] at hpc
    rw [if_pos hzh, hpc]
    exact ⟨rfl, .inr hzh⟩
  · have hnil : (s.conns zh).outbox.filterMap Request.auto? = [] := by
      rw [List.filterMap_eq_nil_iff]
      intro r hr
      cases he : r.auto? with
      | none => rfl
      | some ctx => exact absurd (List.any_eq_true.mpr ⟨r, hr, by rw [he]; rfl⟩) hany
    rw [if_neg hany] at hpc
    rw [hpc]
    exact ⟨hnil.symm.trans (hi.asked zh), .inl rfl⟩

theorem handlesInv_step {a : Act} (hi : HandlesInv s) (hstep : step s a = some t) : HandlesInv t := by
  have hstored := datasInv_step hi.stored hstep
  cases step_inv hstep with
  | foreign _ =>
    refine ⟨fun z hz => ?_, hi.zhandle, hstored, fun z => ?_⟩
    · show (if (s.conns z).up = true then _ else s.conns z : Conn) = {}
      rw [hi.fresh z hz]; rfl
    · show (if (s.conns z).up = true then _ else _ : Conn).outbox.filterMap _ = _
      split <;> exact hi.asked z
  | @armed zh ctx auto outbox hz ho _ =>
    have h := asked_answered hi true ho
    exact handlesInv_setConn hi hstored hz rfl (arm_conns s zh ctx outbox) h.1 h.2
  | @refused zh ctx auto outbox hz ho | @failWatch zh _ ctx auto outbox hz ho =>
    have h := asked_answered hi false ho
    exact handlesInv_setConn hi hstored hz rfl rfl h.1 h.2
  | @read zh d outbox hz ho | @failRead zh _ d outbox hz _ ho =>
    exact handlesInv_quiet hi hstored hz rfl rfl (by rw [ho]; rfl) rfl
  | @session zh state watchersFirst hz _ =>
    revert hstored
    unfold St.session
    dsimp only
    split
    · intro hstored
      exact handlesInv_quiet hi hstored hz rfl rfl rfl rfl
    · intro hstored
      -- with the connection the requests under way are lost, and the second thread gets its error
      have h := asked_lost hi zh rfl
      exact handlesInv_setConn hi hstored hz rfl rfl h.1 h.2
  | sessionWatcher hz _ | event hz _ _ | fetched hz _ _ _ _ _ | told hz _ _ _ _ | nothing hz _ _ _ =>
    exact handlesInv_quiet hi hstored hz rfl rfl rfl rfl
  | @fetch zh _ _ d hz _ _ _ _ =>
    refine handlesInv_quiet hi hstored hz rfl (congrArg St.conns (send_setConn s zh _ _)) ?_ rfl
    rw [List.filterMap_append]
    exact List.append_nil _
  | @autoSent k' p' data zh hs _ hz =>
    refine handlesInv_setConn hi hstored (hi.zhandle zh hz) rfl rfl ?_ (.inr hz)
    have h := hi.asked zh
    rw [hs] at h
    rw [List.filterMap_append, h]
    split <;> rfl
  | @regSent _ _ _ _ zh _ hz =>
    refine handlesInv_quiet hi hstored (hi.zhandle zh hz) rfl rfl ?_ rfl
    rw [List.filterMap_append]
    exact List.append_nil _
  | take hs _ | connected hs _ | notConnected hs _ | found hs _ _ | notFound hs _ | autoFailed hs | autoStored hs
  | autoLost hs | waited hs _ | left hs | timer hs _ =>
    exact handlesInv_congr hi hstored rfl rfl (by rw [hs]; rfl)
  | retried hs =>
    refine ⟨fun z hz => hi.fresh z (Nat.le_of_succ_le hz), fun z hz => ?_, hstored, fun z => ?_⟩
    · cases hz; exact Nat.lt_succ_self _
    · have h := hi.asked z
      rw [hs] at h
      show (s.conns z).outbox.filterMap _ = if _ then [] else []
      rw [h]
      split <;> split <;> rfl
  | retryFailed hs =>  -- no handle is `zhandle_` now, and the second thread waits for nothing
    refine ⟨hi.fresh, nofun, hstored, fun z => ?_⟩
    have h := hi.asked z
    rw [hs] at h
    show (s.conns z).outbox.filterMap _ = if _ then s.second.asked.toList else []
    rw [h, hs]
    split <;> rfl
  | _ => exact handlesInv_congr hi hstored rfl rfl rfl

/-! ## Claims are passed along -/

def waiting (k : Kind) (p : Path) (s : St) : Nat :=
  s.funs.count (k, p) + s.second.claims k p + s.timers.count (k, p)

theorem countP_fire {q : Item → Bool} (hq : ∀ ctx type z, q (.event ctx type z) = true → ctx.on k p) (l : List Armed)
    (event : Armed → Option (EventType × Nat)) :
    (l.filter fun a => (event a).isNone).countP (·.ctx.on k p) +
      (l.filterMap fun a => (event a).map fun e => Item.event a.ctx e.1 e.2).countP q ≤ l.countP (·.ctx.on k p) := by
  induction l with
  | nil => exact Nat.le_refl _
  | cons a l ih =>
    cases he : event a with
    | none =>
      simp only [List.filter_cons, List.filterMap_cons, he, Option.isNone_none, if_true, Option.map_none,
        List.countP_cons]
      omega
    | some e =>
      have hone : (if q (.event a.ctx e.1 e.2) = true then 1 else 0) ≤
          if decide (a.ctx.on k p) = true then 1 else 0 := by
        by_cases hi : q (.event a.ctx e.1 e.2) = true
        · rw [if_pos hi, if_pos (decide_eq_true (hq _ _ _ hi))]
        · rw [if_neg hi]
          exact Nat.zero_le _
      simp only [List.filter_cons, List.filterMap_cons, he, Option.isNone_some, Bool.false_eq_true, if_false,
        Option.map_some, List.countP_cons]
      omega

theorem claims_fire (c : Conn) (event : Armed → Option (EventType × Nat)) :
    (c.fire event).claims k p ≤ c.claims k p := by
  have h := countP_fire (k := k) (p := p) (q := fun item => item.isEvent k p)
    (fun _ _ _ h => (of_decide_eq_true h).1) c.armed event
  simp only [Conn.claims, Conn.watches, Conn.fire, List.countP_append]
  omega

theorem claims_foreign (w : Write) (nodes : Tree) : claims k p (s.foreign w nodes) ≤ claims k p s := by
  refine Nat.add_le_add_right (Finset.sum_le_sum fun z _ => ?_) _
  show Conn.claims k p (if (s.conns z).up = true then _ else _) ≤ _
  split
  · exact claims_fire _ _
  · exact Nat.le_refl _

theorem claims_setConn (hz : zh < s.made) {i j n : Nat} (hmade : t.made = s.made)
    (hconns : t.conns = (s.setConn zh c).conns) (hc : c.claims k p + i ≤ (s.conns zh).claims k p + j)
    (hw : waiting k p t + j ≤ waiting k p s + i + n) : claims k p t ≤ claims k p s + n := by
  have htotal := total_congr (t := t) (s := s.setConn zh c) hmade hconns (Conn.claims k p)
  have h := total_setConn hz c (Conn.claims k p)
  unfold waiting at hw
  unfold claims
  omega

theorem claims_moved (hz : zh < s.made) (hmade : t.made = s.made) (hconns : t.conns = (s.setConn zh c).conns)
    (hc : c.claims k p ≤ (s.conns zh).claims k p) (hw : waiting k p t ≤ waiting k p s) : claims k p t ≤ claims k p s :=
  claims_setConn (i := 0) (j := 0) (n := 0) hz hmade hconns hc hw

theorem waiting_le {n : Nat} (hfuns : t.funs = s.funs) (htimers : t.timers = s.timers)
    (h : t.second.claims k p ≤ s.second.claims k p + n) : waiting k p t ≤ waiting k p s + n := by
  unfold waiting
  rw [hfuns, htimers]
  omega

theorem claims_reply_true (pc : SecondPc) (auto : Bool) :
    (if auto = true then pc.reply true else pc).claims k p ≤ pc.claims k p := by
  split
  · cases pc <;> exact Nat.le_refl _
  · exact Nat.le_refl _

theorem claims_returned (hi : HandlesInv s) {ctx : WatchContext}
    (ho : ctx ∈ (s.conns zh).outbox.filterMap Request.auto?) :
    (s.second.reply false).claims k p = if ctx.on k p then 1 else 0 := by
  obtain ⟨-, k', p', data, hs, rfl, rfl⟩ := blocked_of_outbox hi ho
  rw [hs]
  show (if (k', data.path) = (k, p) then 1 else 0) = _
  by_cases hon : (data.toContext k').on k p
  · rw [if_pos hon, if_pos (Prod.ext hon.1 hon.2)]
  · rw [if_neg hon, if_neg fun h => hon ⟨congrArg Prod.fst h, congrArg Prod.snd h⟩]

theorem claims_reply_false (hi : HandlesInv s) {ctx : WatchContext} {auto : Bool} {outbox : List Request}
    (ho : (s.conns zh).outbox = .watch ctx auto :: outbox) :
    (if auto = true then s.second.reply false else s.second).claims k p ≤
      s.second.claims k p + if ctx.on k p then 1 else 0 := by
  cases auto with
  | false => exact Nat.le_add_right _ _
  | true =>
    have hm : ctx ∈ (s.conns zh).outbox.filterMap Request.auto? := by rw [ho]; exact List.mem_cons_self
    rw [if_pos rfl, claims_returned hi hm]
    exact Nat.le_add_left _ _

theorem claims_lost (hi : HandlesInv s) :
    (if ((s.conns zh).outbox.any (·.auto?.isSome)) = true then s.second.reply false else s.second).claims k p ≤
      s.second.claims k p + (s.conns zh).outbox.countP (·.isWatch k p) := by
  split
  · rename_i hany
    obtain ⟨r, hr, hsome⟩ := List.any_eq_true.mp hany
    obtain ⟨ctx, hctx⟩ := Option.isSome_iff_exists.mp hsome
    rw [claims_returned hi (List.mem_filterMap.mpr ⟨r, hr, hctx⟩)]
    split
    · rename_i hon
      have hwatch : r.isWatch k p = true := by
        unfold Request.auto? at hctx
        split at hctx <;> cases hctx
        exact decide_eq_true hon
      have hpos : 0 < (s.conns zh).outbox.countP (·.isWatch k p) := List.countP_pos_iff.mpr ⟨r, hr, hwatch⟩
      omega
    · exact Nat.zero_le _
  · exact Nat.le_add_right _ _

theorem mem_sessionItems {armed : List Armed} {state : SessState} {watchersFirst : Bool} {item : Item}
    (h : item ∈ sessionItems armed state watchersFirst) :
    item = .sessionWatcher state ∨ ∃ a ∈ armed, item = .event a.ctx .session 0 := by
  unfold sessionItems at h
  dsimp only at h
  split at h <;> simpa [or_comm, eq_comm] using h

theorem countP_session (armed : List Armed) (state : SessState) (watchersFirst : Bool) :
    (sessionItems armed state watchersFirst).countP (·.isEvent k p) = 0 := by
  rw [List.countP_eq_zero]
  intro item hm h
  have h := of_decide_eq_true h
  rcases mem_sessionItems hm with rfl | ⟨a, -, rfl⟩
  · exact h
  · exact h.2 rfl

theorem claims_session (hi : HandlesInv s) (hz : zh < s.made) (state : SessState) (watchersFirst : Bool) :
    claims k p (s.session zh state watchersFirst) ≤ claims k p s := by
  have hevents := countP_session (k := k) (p := p) (s.conns zh).armed state watchersFirst
  unfold St.session
  dsimp only
  split
  · refine claims_moved hz rfl rfl (Nat.le_trans (claims_fire _ _) ?_) (Nat.le_refl _)
    simp only [Conn.claims, Conn.watches, List.countP_append, hevents]
    exact Nat.le_refl _
  · refine claims_setConn (i := (s.conns zh).outbox.countP (·.isWatch k p)) (j := 0) (n := 0) hz rfl rfl ?_ ?_
    · have hlost : (((s.conns zh).outbox.filterMap Request.read?).map
          (Item.fetched · (.failed .zconnectionloss))).countP (·.isEvent k p) = 0 := by
        rw [List.countP_eq_zero]
        intro item hm
        obtain ⟨d, -, rfl⟩ := List.mem_map.mp hm
        exact fun h => of_decide_eq_true h
      simp only [Conn.claims, Conn.watches, List.countP_append, List.countP_nil, hevents, hlost]
      omega
    · exact waiting_le rfl rfl (claims_lost hi)

theorem claims_event {ctx : WatchContext} {type : EventType} {zxid : Nat} {inbox : List Item}
    {handling : Option Handling} (hz : zh < s.made) (hin : (s.conns zh).inbox = .event ctx type zxid :: inbox)
    (hg : NoSessionCallback k p s (.deliver zh)) :
    claims k p ((s.setConn zh { s.conns zh with inbox, handling }).queueAutoReg ctx) ≤ claims k p s := by
  refine claims_setConn (i := if (Item.event ctx type zxid).isEvent k p then 1 else 0) (j := 0) (n := 0)
    hz rfl rfl ?_ ?_
  · simp only [Conn.claims, Conn.watches, hin, List.countP_cons, decide_eq_true_eq]
    omega
  · have hfuns : (s.queueAutoReg ctx).funs.count (k, p) ≤
        s.funs.count (k, p) + if (Item.event ctx type zxid).isEvent k p then 1 else 0 := by
      unfold St.queueAutoReg
      dsimp only
      split
      · rename_i hreg
        rw [List.count_append, List.count_singleton]
        by_cases hon : ctx.on k p
        · have htype : type ≠ .session := by
            intro ht
            have hnone := hg (.event ctx type zxid) (by rw [hin]; rfl) ⟨hon, ht⟩
            rw [hon.1, hon.2, St.isShouldNotify, hnone] at hreg
            cases hreg
          rw [if_pos (show (Item.event ctx type zxid).isEvent k p from ⟨hon, htype⟩)]
          split <;> omega
        · rw [if_neg fun h => hon ?_]
          · omega
          · have h := eq_of_beq h
            exact ⟨congrArg Prod.fst h, congrArg Prod.snd h⟩
      · omega
    show (s.queueAutoReg ctx).funs.count (k, p) + s.second.claims k p + s.timers.count (k, p) + 0 ≤ _
    unfold waiting
    omega

theorem claims_waiting {n : Nat} (hmade : t.made = s.made) (hconns : t.conns = s.conns)
    (hle : waiting k p t ≤ waiting k p s + n) : claims k p t ≤ claims k p s + n := by
  have htotal := total_congr hmade hconns (Conn.claims k p)
  unfold waiting at hle
  unfold claims
  omega

theorem waiting_take {k' : Kind} {p' : Path} {funs : List (Kind × Path)} (hf : s.funs = (k', p') :: funs) :
    waiting k p { s with second := .autoReg k' p', funs } ≤ waiting k p s := by
  show funs.count (k, p) + (if (k', p') = (k, p) then 1 else 0) + s.timers.count (k, p) ≤ _
  unfold waiting
  rw [hf, List.count_cons]
  simp only [beq_iff_eq]
  omega

theorem waiting_timer {i : Nat} {k' : Kind} {p' : Path} (ht : s.timers[i]? = some (k', p')) :
    waiting k p { s with second := .autoReg k' p', timers := s.timers.eraseIdx i } ≤ waiting k p s := by
  obtain ⟨hi, ht⟩ := List.getElem?_eq_some_iff.mp ht
  have hcount := (List.getElem_cons_eraseIdx_perm hi).count_eq (k, p)
  rw [ht, List.count_cons] at hcount
  simp only [beq_iff_eq] at hcount
  show s.funs.count (k, p) + (if (k', p') = (k, p) then 1 else 0) + (s.timers.eraseIdx i).count (k, p) ≤ _
  unfold waiting
  omega

theorem waiting_failed {k' : Kind} {p' : Path} (hs : s.second.claims k p = if (k', p') = (k, p) then 1 else 0) :
    waiting k p { s with second := .idle, timers := s.timers ++ [(k', p')] } ≤ waiting k p s := by
  show s.funs.count (k, p) + 0 + (s.timers ++ [(k', p')]).count (k, p) ≤ _
  unfold waiting
  rw [hs, List.count_append, List.count_singleton]
  simp only [beq_iff_eq]
  omega

theorem claims_tail {item : Item} {inbox : List Item} (hin : (s.conns zh).inbox = item :: inbox) :
    Conn.claims k p { s.conns zh with inbox } ≤ (s.conns zh).claims k p := by
  simp only [Conn.claims, Conn.watches, hin, List.countP_cons]
  omega

theorem claims_read {d : ContextInWatcher} {outbox : List Request} (ho : (s.conns zh).outbox = .read d :: outbox)
    (result : Fetched) : Conn.claims k p { s.conns zh with
      outbox
      inbox := (s.conns zh).inbox ++ [.fetched d result] } ≤ (s.conns zh).claims k p := by
  have hitem : (Item.fetched d result).isEvent k p ↔ False := Iff.rfl
  simp [Conn.claims, Conn.watches, ho, Request.isWatch, hitem]

theorem claims_step {a : Act} (hi : HandlesInv s) (hg : NoSessionCallback k p s a) (hstep : step s a = some t) :
    claims k p t ≤ claims k p s + if a.registers k p then 1 else 0 := by
  cases step_inv hstep with
  | @foreign w nodes _ => exact claims_foreign w nodes
  | @armed zh ctx auto outbox hz ho _ =>  -- the claim goes from the request to the watch
    refine claims_moved hz rfl (arm_conns s zh ctx outbox) ?_
      (waiting_le (n := 0) rfl rfl (claims_reply_true s.second auto))
    simp only [Conn.claims, Conn.watches, ho, Request.isWatch, List.countP_append, List.countP_cons, List.countP_nil]
    omega
  | @refused zh ctx auto outbox hz ho | @failWatch zh _ ctx auto outbox hz ho =>
    refine claims_setConn (j := 0) (n := 0) (c := { s.conns zh with outbox }) hz rfl rfl ?_
      (waiting_le rfl rfl (claims_reply_false hi ho))
    simp only [Conn.claims, Conn.watches, ho, Request.isWatch, List.countP_cons, decide_eq_true_eq]
    omega
  | @read zh d outbox hz ho | @failRead zh _ d outbox hz _ ho =>
    exact claims_moved hz rfl rfl (claims_read ho _) (Nat.le_refl _)
  | @session zh state watchersFirst hz _ => exact claims_session hi hz state watchersFirst
  | sessionWatcher hz hin | fetched hz _ hin _ _ _ =>
    exact claims_moved hz rfl rfl (claims_tail hin) (Nat.le_refl _)
  | event hz _ hin => exact claims_event hz hin hg
  | told hz _ _ _ _ | nothing hz _ _ _ =>
    exact claims_moved hz rfl rfl (Nat.le_refl _) (Nat.le_refl _)
  | @fetch zh _ _ d hz _ _ _ _ =>
    refine claims_moved hz rfl (congrArg St.conns (send_setConn s zh _ _)) ?_ (Nat.le_refl _)
    simp [Conn.claims, Conn.watches, Request.isWatch]
  | take hs hf => exact claims_waiting (n := 0) rfl rfl (waiting_take hf)
  | connected hs _ | notConnected hs _ | found hs _ _ | notFound hs _ | waited hs _ | left hs =>
    refine claims_waiting (n := 0) rfl rfl (waiting_le rfl rfl ?_)
    rw [hs]
    first | exact Nat.le_refl _ | exact Nat.zero_le _
  | @autoSent k' p' data zh hs _ hz =>  -- from the second thread to its request
    have hpath : data.path = p' := by have h := hi.stored.second; rwa [hs] at h
    subst hpath
    refine claims_setConn (i := 0) (j := if (k', data.path) = (k, p) then 1 else 0) (n := 0)
      (hi.zhandle zh hz) rfl rfl ?_ ?_
    · have hon : (data.toContext k').on k p ↔ (k', data.path) = (k, p) := Prod.mk.injEq .. ▸ Iff.rfl
      simp [Conn.claims, Conn.watches, Request.isWatch, hon]
      omega
    · show s.funs.count (k, p) + 0 + s.timers.count (k, p) + _ ≤ _
      unfold waiting
      rw [hs]
      show _ ≤ _ + (if _ then _ else _) + _ + _ + _
      omega
  | autoFailed hs | autoLost hs => exact claims_waiting (n := 0) rfl rfl (waiting_failed (by rw [hs]; rfl))
  | autoStored hs => exact claims_waiting (n := 0) rfl rfl (waiting_le rfl rfl (Nat.zero_le _))
  | timer hs ht => exact claims_waiting (n := 0) rfl rfl (waiting_timer ht)
  | @regSent k' p' handler context zh _ hz =>  -- the only step that adds a claim
    have hreg : (Act.reg k' p' (some handler) context).registers k p =
        decide (WatchContext.on ⟨k', p', handler, context⟩ k p) := rfl
    refine claims_setConn (i := 0) (j := if WatchContext.on ⟨k', p', handler, context⟩ k p then 1 else 0)
      (hi.zhandle zh hz) rfl rfl ?_ ?_
    · simp only [Conn.claims, Conn.watches, Request.isWatch, List.countP_append, List.countP_cons, List.countP_nil,
        decide_eq_true_eq]
      omega
    · simp only [hreg, decide_eq_true_eq]
      exact Nat.le_refl _
  | retried hs =>  -- the new handle begins with none
    show ∑ z ∈ Finset.range (s.made + 1), Conn.claims k p (s.conns z) +
      (s.funs.count (k, p) + 0 + s.timers.count (k, p)) ≤ _
    rw [total_made hi rfl]
    unfold claims
    omega
  | regRefused => exact Nat.le_add_right _ _
  | _ => exact Nat.le_refl _

/-! ## Reports -/

def Item.reports (k : Kind) (p : Path) (z : Nat) : Item → Bool
  | .event ctx type zxid => ctx.on k p ∧ type ≠ .session ∧ zxid = z
  | .fetched d _ => d.ctx.on k p ∧ d.zxid = z
  | .sessionWatcher _ => false

def Request.reports (k : Kind) (p : Path) (z : Nat) : Request → Bool
  | .read d => d.ctx.on k p ∧ d.zxid = z
  | .watch _ _ => false

/-- What the handle has under way that will tell of the change `z`. -/
def Conn.reports (k : Kind) (p : Path) (z : Nat) (c : Conn) : Nat :=
  c.inbox.countP (·.reports k p z) + c.handling.toList.countP (fun h => h.ctx.on k p ∧ h.zxid = z) +
    c.outbox.countP (·.reports k p z)

def reports (k : Kind) (p : Path) (z : Nat) (s : St) : Nat :=
  s.total (Conn.reports k p z) + s.log.countP (·.reports k p z)

structure ReportInv (k : Kind) (p : Path) (s : St) : Prop where
  once : ∀ z, reports k p z s ≤ 1
  past : ∀ z, reports k p z s ≠ 0 → z ≤ s.zxid
  changed : s.changed k p ≤ s.zxid
  later : ∀ zh < s.made, ∀ a ∈ (s.conns zh).armed, a.ctx.on k p → ∀ z, reports k p z s ≠ 0 → z ≤ a.zxid

structure Quiet (k : Kind) (p : Path) (s t : St) : Prop where
  reports : ∀ z, reports k p z t ≤ reports k p z s
  zxid : t.zxid = s.zxid
  changed : t.changed = s.changed
  armed : ∀ zh < t.made, ∀ a ∈ (t.conns zh).armed, zh < s.made ∧ a ∈ (s.conns zh).armed ∨ a.zxid = s.zxid

theorem reportInv_quiet (hi : ReportInv k p s) (h : Quiet k p s t) : ReportInv k p t where
  once z := Nat.le_trans (h.reports z) (hi.once z)
  past z hz := by
    rw [h.zxid]
    exact hi.past z fun h0 => hz (Nat.le_zero.mp (h0 ▸ h.reports z))
  changed := by rw [h.zxid, h.changed]; exact hi.changed
  later zh hzh a ha hon z hz := by
    have hs : Watch.reports k p z s ≠ 0 := fun h0 => hz (Nat.le_zero.mp (h0 ▸ h.reports z))
    rcases h.armed zh hzh a ha with ⟨hzh, ha⟩ | hnow
    · exact hi.later zh hzh a ha hon z hs
    · rw [hnow]
      exact hi.past z hs

theorem reportInv_fired (hi : ReportInv k p s) {z₀ : Nat} (hone : s.total (Conn.watches k p) ≤ 1)
    (hfresh : reports k p z₀ s = 0)
    (hsum : reports k p z₀ t + t.total (Conn.watches k p) ≤ reports k p z₀ s + s.total (Conn.watches k p))
    (hother : ∀ z, z ≠ z₀ → reports k p z t ≤ reports k p z s) (hzxid : s.zxid ≤ t.zxid) (hz₀ : z₀ ≤ t.zxid)
    (hchanged : t.changed k p ≤ t.zxid)
    (harmed : ∀ zh < t.made, ∀ a ∈ (t.conns zh).armed, zh < s.made ∧ a ∈ (s.conns zh).armed) : ReportInv k p t where
  once z := by
    by_cases hz : z = z₀
    · subst hz; omega
    · exact Nat.le_trans (hother z hz) (hi.once z)
  past z hr := by
    by_cases hz : z = z₀
    · rw [hz]; exact hz₀
    · exact Nat.le_trans (hi.past z fun h0 => hr (Nat.le_zero.mp (h0 ▸ hother z hz))) hzxid
  changed := hchanged
  later zh hzh a ha hon z hr := by
    obtain ⟨hzh', ha'⟩ := harmed zh hzh a ha
    by_cases hz : z = z₀
    · -- the watch has not fired, and there is no other one
      have hpos : 0 < (t.conns zh).watches k p := List.countP_pos_iff.mpr ⟨a, ha, decide_eq_true hon⟩
      have hle := le_total hzh (Conn.watches k p)
      subst hz; omega
    · exact hi.later zh hzh' a ha' hon z fun h0 => hr (Nat.le_zero.mp (h0 ▸ hother z hz))

theorem reports_fire {event : Armed → Option (EventType × Nat)} {z : Nat}
    (h : ∀ a ∈ c.armed, ∀ e, event a = some e → a.ctx.on k p → e.2 ≠ z) :
    (c.fire event).reports k p z = c.reports k p z := by
  have hnone : (c.armed.filterMap fun a => (event a).map fun e => Item.event a.ctx e.1 e.2).countP
      (·.reports k p z) = 0 := by
    rw [List.countP_eq_zero]
    intro item hm hr
    obtain ⟨a, ha, hitem⟩ := List.mem_filterMap.mp hm
    obtain ⟨e, he, rfl⟩ := Option.map_eq_some_iff.mp hitem
    have hr := of_decide_eq_true hr
    exact h a ha e he hr.1 hr.2.2
  simp only [Conn.reports, Conn.fire, List.countP_append, hnone]
  rfl

theorem reports_fire_le (c : Conn) (event : Armed → Option (EventType × Nat)) (z : Nat) :
    (c.fire event).reports k p z + (c.fire event).watches k p ≤ c.reports k p z + c.watches k p := by
  have h := countP_fire (k := k) (p := p) (q := fun item => item.reports k p z)
    (fun _ _ _ h => (of_decide_eq_true h).1) c.armed event
  simp only [Conn.reports, Conn.watches, Conn.fire, List.countP_append]
  omega

theorem total_add (s : St) (f g : Conn → Nat) : s.total (fun c => f c + g c) = s.total f + s.total g :=
  Finset.sum_add_distrib

theorem mem_armed_fire {event : Armed → Option (EventType × Nat)} {a : Armed} (h : a ∈ (c.fire event).armed) :
    a ∈ c.armed := (List.mem_filter.mp h).1

theorem reportInv_foreign (hi : ReportInv k p s) (hone : s.total (Conn.watches k p) ≤ 1) (w : Write) (nodes : Tree) :
    ReportInv k p (s.foreign w nodes) := by
  have hconns : ∀ (f : Conn → Nat) (z : Nat),
      (∀ c : Conn, f (c.fire fun a => (w.event a.ctx.kind a.ctx.path).map (·, s.zxid + 1)) ≤ f c) →
        f ((s.foreign w nodes).conns z) ≤ f (s.conns z) := by
    intro f z hf
    show f (if (s.conns z).up = true then _ else _) ≤ _
    split
    · exact hf _
    · exact Nat.le_refl _
  have hfresh : reports k p (s.zxid + 1) s = 0 := by
    by_contra h
    exact Nat.not_succ_le_self _ (hi.past _ h)
  refine reportInv_fired hi hone hfresh ?_ (fun z hz => ?_) (Nat.le_succ _) (Nat.le_refl _) ?_
    (fun z hz a ha => ⟨hz, ?_⟩)
  · have h : (s.foreign w nodes).total (fun c => c.reports k p (s.zxid + 1) + c.watches k p) ≤
        s.total (fun c => c.reports k p (s.zxid + 1) + c.watches k p) :=
      Finset.sum_le_sum fun z _ =>
        hconns (fun c => c.reports k p (s.zxid + 1) + c.watches k p) z fun c => reports_fire_le c _ _
    rw [total_add, total_add] at h
    unfold reports
    show _ + s.log.countP _ + _ ≤ _
    omega
  · refine Nat.add_le_add_right (Finset.sum_le_sum fun z' _ => hconns (Conn.reports k p z) z' fun c => ?_) _
    refine Nat.le_of_eq (reports_fire fun a _ e he _ => ?_)
    obtain ⟨type, -, rfl⟩ := Option.map_eq_some_iff.mp he
    exact Ne.symm hz
  · show (if (w.event k p).isSome = true then s.zxid + 1 else s.changed k p) ≤ s.zxid + 1
    split
    · exact Nat.le_refl _
    · exact Nat.le_succ_of_le hi.changed
  · change a ∈ (if (s.conns z).up = true then _ else s.conns z : Conn).armed at ha
    split at ha
    · exact mem_armed_fire ha
    · exact ha

theorem quiet_same (hlib : t.library = s.library) (hconns : t.conns = s.conns) (hlog : t.log = s.log) :
    Quiet k p s t := by
  obtain ⟨-, hzxid, hchanged, hmade, -⟩ := library_inj hlib
  constructor
  · intro z
    unfold Watch.reports
    rw [total_congr hmade hconns, hlog]
  · exact hzxid
  · exact hchanged
  · intro zh hzh a ha
    rw [hconns] at ha
    exact .inl ⟨hmade ▸ hzh, ha⟩

theorem quiet_setConn (hz : zh < s.made) {f : Nat → Nat} (hlib : t.library = s.library)
    (hconns : t.conns = (s.setConn zh c).conns) (hc : ∀ z, c.reports k p z + f z ≤ (s.conns zh).reports k p z)
    (hlog : ∀ z, t.log.countP (·.reports k p z) ≤ s.log.countP (·.reports k p z) + f z)
    (harmed : ∀ a ∈ c.armed, a ∈ (s.conns zh).armed ∨ a.zxid = s.zxid) : Quiet k p s t := by
  obtain ⟨-, hzxid, hchanged, hmade, -⟩ := library_inj hlib
  constructor
  · intro z
    have htotal := total_congr (t := t) (s := s.setConn zh c) hmade hconns (Conn.reports k p z)
    have h := total_setConn hz c (Conn.reports k p z)
    have hcz := hc z
    have hlogz := hlog z
    unfold Watch.reports
    omega
  · exact hzxid
  · exact hchanged
  · intro z hz' a ha
    rw [hmade] at hz'
    rw [hconns] at ha
    by_cases hzz : z = zh
    · subst hzz
      rw [setConn_self] at ha
      exact (harmed a ha).imp_left fun h => ⟨hz', h⟩
    · rw [setConn_of_ne s zh c hzz] at ha
      exact .inl ⟨hz', ha⟩

theorem quiet_moved (hz : zh < s.made) (hlib : t.library = s.library) (hconns : t.conns = (s.setConn zh c).conns)
    (hlog : t.log = s.log) (hc : ∀ z, c.reports k p z ≤ (s.conns zh).reports k p z)
    (harmed : ∀ a ∈ c.armed, a ∈ (s.conns zh).armed ∨ a.zxid = s.zxid) : Quiet k p s t :=
  quiet_setConn (f := fun _ => 0) hz hlib hconns hc (fun _ => by rw [hlog]; exact Nat.le_refl _) harmed

theorem reports_sessionItems (armed : List Armed) (state : SessState) (watchersFirst : Bool) (z : Nat) :
    (sessionItems armed state watchersFirst).countP (·.reports k p z) = 0 := by
  rw [List.countP_eq_zero]
  intro item hm h
  rcases mem_sessionItems hm with rfl | ⟨a, -, rfl⟩
  · cases h
  · exact (of_decide_eq_true h).2.1 rfl

theorem reports_lost (outbox : List Request) (z : Nat) :
    ((outbox.filterMap Request.read?).map (Item.fetched · (.failed .zconnectionloss))).countP (·.reports k p z) =
      outbox.countP (·.reports k p z) := by
  induction outbox with
  | nil => rfl
  | cons r outbox ih =>
    cases r with
    | watch ctx auto => exact ih
    | read d =>
      simp only [List.filterMap_cons, Request.read?, List.map_cons, List.countP_cons, ih]
      rfl

theorem missed_zxid {a : Armed} {e : EventType × Nat} (h : s.missed a = some e) :
    a.zxid < s.changed a.ctx.kind a.ctx.path ∧ e.2 = s.changed a.ctx.kind a.ctx.path := by
  unfold St.missed at h
  split at h
  · rename_i hlt
    obtain ⟨type, -, rfl⟩ := Option.map_eq_some_iff.mp h
    exact ⟨hlt, rfl⟩
  · cases h

theorem reportInv_missed (hi : ReportInv k p s) (hone : s.total (Conn.watches k p) ≤ 1) (hz : zh < s.made)
    (hc : ∀ z, c.reports k p z = (s.conns zh).reports k p z) (harmed : c.armed = (s.conns zh).armed) :
    ReportInv k p (s.setConn zh (c.fire s.missed)) := by
  have hsub : ∀ a ∈ (c.fire s.missed).armed, a ∈ (s.conns zh).armed := fun a ha => harmed ▸ mem_armed_fire ha
  by_cases hfire : ∃ a ∈ (s.conns zh).armed, a.ctx.on k p ∧ s.missed a ≠ none
  · obtain ⟨a, ha, hon, hmissed⟩ := hfire
    obtain ⟨e, he⟩ := Option.ne_none_iff_exists'.mp hmissed
    have hlt := (missed_zxid he).1
    rw [hon.1, hon.2] at hlt
    -- the watch was armed before the change and after all that was reported, so this one was not
    have hfresh : reports k p (s.changed k p) s = 0 := by
      by_contra h
      exact absurd (hi.later zh hz a ha hon _ h) (Nat.not_le_of_lt hlt)
    refine reportInv_fired hi hone hfresh ?_ (fun z hne => ?_) (Nat.le_refl _) hi.changed hi.changed
      (fun z hz' a ha => ⟨hz', ?_⟩)
    · have htotal := total_setConn hz (c.fire s.missed) fun c => c.reports k p (s.changed k p) + c.watches k p
      have hle := reports_fire_le (k := k) (p := p) c s.missed (s.changed k p)
      have hwatches : c.watches k p = (s.conns zh).watches k p := by unfold Conn.watches; rw [harmed]
      rw [hc, hwatches] at hle
      rw [total_add, total_add] at htotal
      unfold reports
      show _ + s.log.countP _ + _ ≤ _
      omega
    · have htotal := total_setConn hz (c.fire s.missed) (Conn.reports k p z)
      have hsame : (c.fire s.missed).reports k p z = (s.conns zh).reports k p z := by
        rw [← hc]
        refine reports_fire fun a _ e he hon => ?_
        rw [(missed_zxid he).2, hon.1, hon.2]
        exact Ne.symm hne
      unfold reports
      show _ + s.log.countP _ ≤ _
      omega
    · by_cases hzz : z = zh
      · subst hzz
        rw [setConn_self] at ha
        exact hsub a ha
      · rwa [setConn_of_ne s zh _ hzz] at ha
  · refine reportInv_quiet hi (quiet_moved hz rfl rfl rfl (fun z => ?_) fun a ha => .inl (hsub a ha))
    refine Nat.le_of_eq (Eq.trans (reports_fire fun a ha e he hon _ => ?_) (hc z))
    exact hfire ⟨a, harmed ▸ ha, hon, by rw [he]; nofun⟩

theorem reportInv_session (hi : ReportInv k p s) (hone : s.total (Conn.watches k p) ≤ 1) (hz : zh < s.made)
    (state : SessState) (watchersFirst : Bool) : ReportInv k p (s.session zh state watchersFirst) := by
  have hitems := reports_sessionItems (k := k) (p := p) (s.conns zh).armed state watchersFirst
  unfold St.session
  dsimp only
  split
  · refine reportInv_missed hi hone hz (fun z => ?_) rfl
    simp only [Conn.reports, List.countP_append, hitems]
    rfl
  · refine reportInv_quiet hi (quiet_moved hz rfl rfl rfl (fun z => ?_) fun _ => .inl)
    simp only [Conn.reports, List.countP_append, List.countP_nil, hitems, reports_lost]
    omega

theorem log_notify (n : Notification) (z : Nat) :
    (s.notify n).log.countP (·.reports k p z) ≤ s.log.countP (·.reports k p z) + if n.reports k p z then 1 else 0 := by
  unfold St.notify
  dsimp only
  split
  · rw [List.countP_append, List.countP_singleton]
  · exact Nat.le_add_right _ _

theorem quiet_retried (hh : HandlesInv s) :
    Quiet k p s { s with second := .reconnecting, zhandle := some s.made, made := s.made + 1 } where
  reports z := by
    unfold Watch.reports
    refine Nat.add_le_add_right (Nat.le_of_eq ?_) _
    exact total_made hh rfl
  zxid := rfl
  changed := rfl
  armed zh hzh a ha := by
    by_cases hlt : zh < s.made
    · exact .inl ⟨hlt, ha⟩
    · change a ∈ (s.conns zh).armed at ha
      rw [hh.fresh zh (Nat.le_of_not_lt hlt)] at ha
      cases ha

theorem reportInv_step {a : Act} (hh : HandlesInv s) (hi : ReportInv k p s) (hone : s.total (Conn.watches k p) ≤ 1)
    (hstep : step s a = some t) : ReportInv k p t := by
  cases step_inv hstep with
  | @foreign w nodes _ => exact reportInv_foreign hi hone w nodes
  | @session zh state watchersFirst hz _ => exact reportInv_session hi hone hz state watchersFirst
  | @armed zh ctx auto outbox hz ho _ =>  -- the new watch is armed now, later than all that was reported
    refine reportInv_quiet hi (quiet_moved hz rfl (arm_conns s zh ctx outbox) rfl (fun z => ?_) fun a ha => ?_)
    · simp only [Conn.reports, ho, List.countP_cons]
      omega
    · rcases List.mem_append.mp ha with ha | ha
      · exact .inl ha
      · rw [List.mem_singleton.mp ha]
        exact .inr rfl
  | @refused zh ctx auto outbox hz ho | @failWatch zh _ ctx auto outbox hz ho =>
    refine reportInv_quiet hi (quiet_moved (c := { s.conns zh with outbox }) hz rfl rfl rfl (fun z => ?_)
      fun _ => .inl)
    simp only [Conn.reports, ho, List.countP_cons]
    omega
  | @read zh d outbox hz ho | @failRead zh _ d outbox hz _ ho =>
    refine reportInv_quiet hi (quiet_moved hz rfl rfl rfl (fun z => ?_) fun _ => .inl)
    simp only [Conn.reports, ho, List.countP_append, List.countP_cons, List.countP_nil, Item.reports, Request.reports]
    omega
  | @sessionWatcher zh state inbox hz hin =>
    refine reportInv_quiet hi (quiet_moved (c := { s.conns zh with inbox }) hz rfl rfl rfl (fun z => ?_)
      fun _ => .inl)
    simp only [Conn.reports, hin, List.countP_cons]
    omega
  | @event zh ctx type zxid inbox hz hnone hin =>
    refine reportInv_quiet hi (quiet_moved (c := { s.conns zh with
      inbox
      handling := if type = .session then none else some ⟨ctx, type, zxid⟩ }) hz rfl rfl rfl (fun z => ?_)
      fun _ => .inl)
    -- the report goes from the inbox to the callback, a session event has none
    by_cases hsession : type = .session
    · simp only [Conn.reports, hin, hnone, if_pos hsession, List.countP_cons]
      omega
    · rw [if_neg hsession]
      simp only [Conn.reports, hin, hnone, List.countP_cons, Item.reports, ne_eq, hsession, not_false_eq_true, true_and,
        Option.toList_none, Option.toList_some, List.countP_nil]
      omega
  | @fetched zh d result inbox n hz _ hin hctx hzx _ =>
    refine reportInv_quiet hi (quiet_setConn (c := { s.conns zh with inbox }) hz rfl rfl (fun z => ?_)
      (log_notify n) fun _ => .inl)
    simp only [Conn.reports, hin, List.countP_cons, Item.reports, Notification.reports, hctx, hzx]
    omega
  | @told zh accepted h n hz hh hctx hzx _ =>  -- the report goes to the log
    refine reportInv_quiet hi (quiet_setConn (c := { s.conns zh with handling := none }) hz rfl rfl
      (fun z => ?_) (log_notify n) fun _ => .inl)
    simp only [Conn.reports, hh, Notification.reports, hctx, hzx, Option.toList_none, Option.toList_some,
      List.countP_cons, List.countP_nil]
    omega
  | @nothing zh _ h hz hh _ _ =>
    refine reportInv_quiet hi (quiet_moved (c := { s.conns zh with handling := none }) hz rfl rfl rfl
      (fun z => ?_) fun _ => .inl)
    simp only [Conn.reports, Option.toList_none, List.countP_nil]
    omega
  | @fetch zh _ h d hz hh _ hctx hzx =>
    refine reportInv_quiet hi (quiet_moved hz rfl (congrArg St.conns (send_setConn s zh _ _)) rfl (fun z => ?_)
      fun _ => .inl)
    simp only [Conn.reports, Request.reports, hh, hctx, hzx, Option.toList_none, Option.toList_some,
      List.countP_append, List.countP_cons, List.countP_nil]
    omega
  | @autoSent _ _ data zh _ _ hz =>
    refine reportInv_quiet hi (quiet_moved (hh.zhandle zh hz) rfl rfl rfl (fun z => ?_) fun _ => .inl)
    simp [Conn.reports, Request.reports]
  | @regSent _ _ _ _ zh _ hz =>
    refine reportInv_quiet hi (quiet_moved (hh.zhandle zh hz) rfl rfl rfl (fun z => ?_) fun _ => .inl)
    simp [Conn.reports, Request.reports]
  | retried _ => exact reportInv_quiet hi (quiet_retried hh)
  | retryFailed _ => exact ⟨hi.once, hi.past, hi.changed, hi.later⟩
  | regRefused => exact hi
  | _ => exact reportInv_quiet hi (quiet_same rfl rfl rfl)

theorem reportInv_initial (nodes : Tree) : ReportInv k p (St.initial nodes) where
  once _ := Nat.zero_le _
  past _ h := absurd rfl h
  changed := Nat.le_refl _
  later _ _ _ ha := by cases ha

/-- **One watch, one notification.** The user registers the path once, and the
session is lost, restored and replaced as it may be. -/
theorem oneWatch_of_noSessionCallback {nodes : Tree} {acts : List Act} (hreg : acts.countP (·.registers k p) ≤ 1)
    (hg : Lts.Along step (NoSessionCallback k p) (St.initial nodes) acts) :
    Lts.Throughout step (OneWatch k p) (St.initial nodes) acts := by
  have hclaims : Lts.Throughout step (fun s => claims k p s ≤ 1) (St.initial nodes) acts := by
    rintro pre t ⟨post, rfl⟩ hr
    have hzero : claims k p (St.initial nodes) = 0 := rfl
    have hstep : ∀ s a t, HandlesInv s → NoSessionCallback k p s a → step s a = some t →
        claims k p t ≤ claims k p s + if a.registers k p then 1 else 0 := fun _ _ _ hi hg h => claims_step hi hg h
    have hpot : claims k p t ≤ claims k p (St.initial nodes) + pre.countP (·.registers k p) :=
      Lts.potential_of_along (fun _ _ _ hi _ h => handlesInv_step hi h) hstep (handlesInv_initial nodes) hg.append.1 hr
    rw [List.countP_append] at hreg
    omega
  have hwatches : ∀ s, claims k p s ≤ 1 → s.total (Conn.watches k p) ≤ 1 := by
    intro s h
    refine Nat.le_trans (Nat.le_trans ?_ (Nat.le_add_right _ _)) h
    exact Finset.sum_le_sum fun z _ => Nat.le_trans (Nat.le_add_right _ _) (Nat.le_add_right _ _)
  have hreports : Lts.Throughout step (ReportInv k p) (St.initial nodes) acts :=
    Lts.throughout_of_along (I := fun s => HandlesInv s ∧ ReportInv k p s)
      (fun _ _ _ hi hone h => ⟨handlesInv_step hi.1 h, reportInv_step hi.1 hi.2 (hwatches _ hone) h⟩) (fun _ hi => hi.2)
      ⟨handlesInv_initial nodes, reportInv_initial nodes⟩ (Lts.along_of_throughout hclaims)
  intro pre t hpre hr
  refine ⟨hwatches t (hclaims pre t hpre hr), fun z => ?_⟩
  exact Nat.le_trans (Nat.le_add_left _ _) ((hreports pre t hpre hr).once z)

end

theorem oneWatch_rearmed : Lts.Throughout step (OneWatch .node ["a"]) (St.initial oneNode)
    (registered ++ setNode ++ autoRegSent ++ [.serve 0, .serve 0, .second, .deliver 0]) :=
  oneWatch_of_noSessionCallback (by decide) (by decide)

/-- The session is lost and restored. The watch stays armed, and its callback
queues a re-registration, so two are armed. -/
theorem not_oneWatch_reconnected : ¬ Lts.Throughout step (OneWatch .node ["a"]) (St.initial oneNode)
    (registered ++ [.session 0 .connecting false, .session 0 .connected false, .deliver 0, .deliver 0, .deliver 0] ++
      autoRegSent ++ [.serve 0]) := by
  have htwo : ¬ Lts.Throughout step (fun s => s.total (Conn.watches .node ["a"]) ≤ 1) (St.initial oneNode)
      (registered ++ [.session 0 .connecting false, .session 0 .connected false, .deliver 0, .deliver 0, .deliver 0] ++
        autoRegSent ++ [.serve 0]) := by
    apply Lts.not_throughout
    decide
  exact fun h => htwo fun pre t hpre hr => (h pre t hpre hr).1

end ZkCppClient.Watch
