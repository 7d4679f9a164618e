import ZkCppClient.Watch.LastWord
import ZkCppClient.Watch.Once

/-!
# The current handler

A callback tests that its path is registered and then calls the handler of its
own context, not the stored one. The context of a watch that was armed before
the user changed the handler, or cancelled and registered anew, still calls the
old handler. Watch callbacks, fetch completions and the user's calls are atomic
here.
-/

namespace ZkCppClient.Watch

/-- What happens in one piece. `error` is the answer to a registration that does not reach the server. -/
inductive AtomicAct
  | own (a : Act)
  | callback (zh : Nat) (accepted : Bool)
  | reg (k : Kind) (p : Path) (handler : Option Nat) (context : Nat) (error : Option Rc)
  | cancel (k : Kind) (p : Path)
  deriving DecidableEq, Repr

def Act.isOwn : Act → Bool
  | .foreign _ | .serve _ | .fail _ _ | .session _ _ _ | .second | .timer _ | .expire | .retry _ => true
  | .deliver _ | .dispatch _ _ | .reg _ _ _ _ | .regReturn _ | .cancel _ _ => false

/-- The steps of an atomic action. A registration is answered when all earlier
requests of the handle have been. -/
def AtomicAct.steps (s : St) : AtomicAct → Option (List Act)
  | .own a => if a.isOwn then some [a] else none
  | .callback zh accepted =>
    match (s.conns zh).inbox with
    | .event _ type _ :: _ => some (if type = .session then [.deliver zh] else [.deliver zh, .dispatch zh accepted])
    | _ => some [.deliver zh]
  | .reg k p none context _ => some [.reg k p none context]
  | .reg k p (some handler) context error =>
    match s.isConnected, s.zhandle with
    | true, some zh =>
      if (s.conns zh).outbox = [] ∧ s.replied = [] then
        some [.reg k p (some handler) context, error.elim (.serve zh) (.fail zh), .regReturn 0]
      else none
    | _, _ => some [.reg k p (some handler) context]
  | .cancel k p => some [.cancel k p]

def atomicStep (k : Kind) (p : Path) : St × Word → AtomicAct → Option (St × Word) :=
  Lts.grouped (spoken k p) fun x => AtomicAct.steps x.1

def WatchContext.word (ctx : WatchContext) : Nat × Nat := (ctx.handler, ctx.context)

/-- Every handler that is called for the path is the one the user registered last. -/
def CurrentNotified (k : Kind) (p : Path) (x : St × Word) (a : AtomicAct) : Prop :=
  ∀ y ∈ atomicStep k p x a, ∀ n ∈ y.1.log.drop x.1.log.length, n.ctx.on k p → x.2 = some n.ctx.word

/-! ## Contexts that are alive -/

def Item.ctx? : Item → Option WatchContext
  | .sessionWatcher _ => none
  | .event ctx _ _ => some ctx
  | .fetched d _ => some d.ctx

def Request.ctx : Request → WatchContext
  | .watch ctx _ => ctx
  | .read d => d.ctx

def Conn.contexts (c : Conn) : List WatchContext :=
  c.armed.map (·.ctx) ++ c.inbox.filterMap Item.ctx? ++ c.handling.toList.map (·.ctx) ++ c.outbox.map Request.ctx

def SecondPc.copied : SecondPc → Option WatchContext
  | .reg k _ data | .blocked k _ data | .returned k _ data true => some (data.toContext k)
  | _ => none

def OnlyWord (k : Kind) (p : Path) (v : Nat × Nat) (s : St) : Prop :=
  (∀ zh < s.made, ∀ ctx ∈ (s.conns zh).contexts, ctx.on k p → ctx.word = v) ∧
    ∀ ctx ∈ s.second.copied, ctx.on k p → ctx.word = v

instance (k : Kind) (p : Path) (v : Nat × Nat) (s : St) : Decidable (OnlyWord k p v s) :=
  inferInstanceAs (Decidable (_ ∧ _))

/-- A registration is sent, and arms its watch when the server takes it. -/
def St.accepts (s : St) (ctx : WatchContext) : Bool := s.isConnected && s.zhandle.isSome && s.arms ctx

/-- A registration of the path that returns true finds no other handler alive,
and a copy that is stored still stands. -/
def Supersedes (k : Kind) (p : Path) (x : St × Word) : AtomicAct → Prop
  | .reg k' p' (some handler) context none =>
    k' = k ∧ p' = p → x.1.accepts ⟨k', p', handler, context⟩ = true → OnlyWord k p (handler, context) x.1
  | .own .second => CopyStands k p x .second
  | _ => True

instance (k : Kind) (p : Path) (x : St × Word) (a : AtomicAct) : Decidable (CurrentNotified k p x a) :=
  inferInstanceAs (Decidable (∀ _ ∈ _, ∀ _ ∈ _, _ → _))

instance (k : Kind) (p : Path) (x : St × Word) : ∀ a, Decidable (Supersedes k p x a)
  | .reg _ _ (some _) _ none => inferInstanceAs (Decidable (_ → _ → OnlyWord _ _ _ _))
  | .own .second => inferInstanceAs (Decidable (CopyStands _ _ _ .second))
  | .reg _ _ none _ _ | .reg _ _ (some _) _ (some _) | .callback _ _ | .cancel _ _ | .own (.foreign _) | .own (.serve _)
  | .own (.fail _ _) | .own (.session _ _ _) | .own (.deliver _) | .own (.dispatch _ _) | .own (.timer _)
  | .own (.reg _ _ _ _) | .own (.regReturn _) | .own (.cancel _ _) | .own .expire | .own (.retry _) => isTrue trivial

section
variable {k : Kind} {p : Path} {s t : St} {zh : Nat} {c : Conn} {v : Nat × Nat}

theorem mem_contexts {ctx : WatchContext} : ctx ∈ c.contexts ↔ (∃ a ∈ c.armed, a.ctx = ctx) ∨
    (∃ item ∈ c.inbox, item.ctx? = some ctx) ∨ (∃ h ∈ c.handling, h.ctx = ctx) ∨ ∃ r ∈ c.outbox, r.ctx = ctx := by
  simp [Conn.contexts]

/-! ## Steps and contexts -/

theorem onlyWord_conns (h : OnlyWord k p v s) (hmade : t.made = s.made)
    (hconns : ∀ zh < s.made, ∀ ctx ∈ (t.conns zh).contexts, ctx ∈ (s.conns zh).contexts)
    (hsecond : ∀ ctx ∈ t.second.copied, ctx ∈ s.second.copied) : OnlyWord k p v t := by
  constructor
  · intro zh hz ctx hm hon
    rw [hmade] at hz
    exact h.1 zh hz ctx (hconns zh hz ctx hm) hon
  · intro ctx hm hon
    exact h.2 ctx (hsecond ctx hm) hon

theorem onlyWord_congr (h : OnlyWord k p v s) (hmade : t.made = s.made) (hconns : t.conns = s.conns)
    (hsecond : ∀ ctx ∈ t.second.copied, ctx ∈ s.second.copied) : OnlyWord k p v t := by
  apply onlyWord_conns h hmade
  · intro zh _ ctx hm
    rwa [hconns] at hm
  · exact hsecond

theorem onlyWord_setConn (h : OnlyWord k p v s) (hz : zh < s.made) (hmade : t.made = s.made)
    (hconns : t.conns = (s.setConn zh c).conns)
    (hc : ∀ ctx ∈ c.contexts, ctx.on k p → ctx ∈ (s.conns zh).contexts ∨ ctx.word = v)
    (hsecond : ∀ ctx ∈ t.second.copied, ctx ∈ s.second.copied) : OnlyWord k p v t := by
  constructor
  · intro z hz' ctx hm hon
    rw [hmade] at hz'
    rw [hconns] at hm
    by_cases hzz : z = zh
    · subst hzz
      rw [setConn_self] at hm
      exact (hc ctx hm hon).elim (fun hm => h.1 z hz ctx hm hon) id
    · rw [setConn_of_ne s zh c hzz] at hm
      exact h.1 z hz' ctx hm hon
  · intro ctx hm hon
    exact h.2 ctx (hsecond ctx hm) hon

theorem contexts_fire {event : Armed → Option (EventType × Nat)} {ctx : WatchContext}
    (h : ctx ∈ (c.fire event).contexts) : ctx ∈ c.contexts := by
  rw [mem_contexts] at h ⊢
  rcases h with ⟨a, ha, rfl⟩ | ⟨item, hm, hctx⟩ | h
  · exact .inl ⟨a, mem_armed_fire ha, rfl⟩
  · rcases List.mem_append.mp hm with hm | hm
    · exact .inr (.inl ⟨item, hm, hctx⟩)
    · obtain ⟨a, ha, hitem⟩ := List.mem_filterMap.mp hm
      obtain ⟨e, -, rfl⟩ := Option.map_eq_some_iff.mp hitem
      exact .inl ⟨a, ha, Option.some.inj hctx⟩
  · exact .inr (.inr h)

theorem contexts_tail {item : Item} {inbox : List Item} (hin : (s.conns zh).inbox = item :: inbox) {ctx : WatchContext}
    (h : ctx ∈ Conn.contexts { s.conns zh with inbox }) : ctx ∈ (s.conns zh).contexts := by
  rw [mem_contexts] at h ⊢
  rw [hin]
  rcases h with h | ⟨item', hm, hctx⟩ | h
  · exact .inl h
  · exact .inr (.inl ⟨item', List.mem_cons_of_mem _ hm, hctx⟩)
  · exact .inr (.inr h)

theorem contexts_answered {r : Request} {outbox : List Request} (ho : (s.conns zh).outbox = r :: outbox)
    {ctx : WatchContext} (h : ctx ∈ Conn.contexts { s.conns zh with outbox }) : ctx ∈ (s.conns zh).contexts := by
  rw [mem_contexts] at h ⊢
  rw [ho]
  rcases h with h | h | h | ⟨r', hm, hctx⟩
  · exact .inl h
  · exact .inr (.inl h)
  · exact .inr (.inr (.inl h))
  · exact .inr (.inr (.inr ⟨r', List.mem_cons_of_mem _ hm, hctx⟩))

theorem contexts_sent {r : Request} {ctx : WatchContext}
    (h : ctx ∈ Conn.contexts { c with outbox := c.outbox ++ [r] }) : ctx ∈ c.contexts ∨ r.ctx = ctx := by
  rw [mem_contexts] at h ⊢
  rcases h with h | h | h | ⟨r', hm, hctx⟩
  · exact .inl (.inl h)
  · exact .inl (.inr (.inl h))
  · exact .inl (.inr (.inr (.inl h)))
  · rcases List.mem_append.mp hm with hm | hm
    · exact .inl (.inr (.inr (.inr ⟨r', hm, hctx⟩)))
    · rw [List.mem_singleton.mp hm] at hctx
      exact .inr hctx

theorem contexts_handled {ctx : WatchContext} (h : ctx ∈ Conn.contexts { c with handling := none }) :
    ctx ∈ c.contexts := by
  rw [mem_contexts] at h ⊢
  rcases h with h | h | ⟨_, hm, -⟩ | h
  · exact .inl h
  · exact .inr (.inl h)
  · cases hm
  · exact .inr (.inr (.inr h))

theorem contexts_session {state : SessState} {watchersFirst : Bool} {ctx : WatchContext}
    (h : ctx ∈ ((s.session zh state watchersFirst).conns zh).contexts) : ctx ∈ (s.conns zh).contexts := by
  have hitems : ∀ item ∈ sessionItems (s.conns zh).armed state watchersFirst, item.ctx? = some ctx →
      ∃ a ∈ (s.conns zh).armed, a.ctx = ctx := by
    intro item hm hctx
    rcases mem_sessionItems hm with rfl | ⟨a, ha, rfl⟩
    · cases hctx
    · exact ⟨a, ha, Option.some.inj hctx⟩
  unfold St.session at h
  dsimp only at h
  split at h
  · rw [setConn_self] at h
    have h := contexts_fire h
    rw [mem_contexts] at h ⊢
    rcases h with h | ⟨item, hm, hctx⟩ | h
    · exact .inl h
    · rcases List.mem_append.mp hm with hm | hm
      · exact .inr (.inl ⟨item, hm, hctx⟩)
      · exact .inl (hitems item hm hctx)
    · exact .inr (.inr h)
  · rw [setConn_self, mem_contexts] at h
    rw [mem_contexts]
    rcases h with h | ⟨item, hm, hctx⟩ | h | ⟨r, hm, -⟩
    · exact .inl h
    · rcases List.mem_append.mp hm with hm | hm
      · rcases List.mem_append.mp hm with hm | hm
        · exact .inr (.inl ⟨item, hm, hctx⟩)
        · exact .inl (hitems item hm hctx)
      · -- a read that is lost with the connection
        obtain ⟨d, hd, rfl⟩ := List.mem_map.mp hm
        obtain ⟨r, hr, hread⟩ := List.mem_filterMap.mp hd
        cases r with
        | watch ctx auto => cases hread
        | read d' =>
          cases hread
          exact .inr (.inr (.inr ⟨_, hr, Option.some.inj hctx⟩))
    · exact .inr (.inr (.inl h))
    · cases hm

theorem copied_reply (pc : SecondPc) (auto ok : Bool) {ctx : WatchContext}
    (h : ctx ∈ (if auto = true then pc.reply ok else pc).copied) : ctx ∈ pc.copied := by
  split at h
  · cases pc with
    | blocked k p data =>
      cases ok with
      | true => exact h
      | false => cases h
    | _ => exact h
  · exact h

theorem onlyWord_session (h : OnlyWord k p v s) (zh : Nat) (state : SessState) (watchersFirst : Bool) :
    OnlyWord k p v (s.session zh state watchersFirst) := by
  apply onlyWord_conns h
  · unfold St.session
    dsimp only
    split <;> rfl
  · intro z _ ctx hm
    by_cases hzz : z = zh
    · subst hzz
      exact contexts_session hm
    · unfold St.session at hm
      dsimp only at hm
      split at hm
      · rwa [setConn_of_ne _ _ _ hzz] at hm
      · rwa [setConn_of_ne _ _ _ hzz] at hm
  · intro ctx hm
    unfold St.session at hm
    dsimp only at hm
    split at hm
    · exact hm
    · have hm : ctx ∈ (if ((s.conns zh).outbox.any (·.auto?.isSome)) = true then s.second.reply false
          else s.second).copied := hm
      exact copied_reply s.second _ false hm

theorem onlyWord_step {a : Act} (hi : HandlesInv s) (h : OnlyWord k p v s)
    (hstored : a = .second → ∀ u, stored k p s = some u → u = v)
    (hreg : ∀ handler context, a = .reg k p (some handler) context → (handler, context) = v)
    (hstep : step s a = some t) : OnlyWord k p v t := by
  -- no step makes a context with another word, but a registration of the user and the copy of an entry
  -- with that word
  have hsame : ∀ {ctx}, ctx ∈ s.second.copied → ctx ∈ s.second.copied := id
  cases step_inv hstep with
  | @foreign w nodes _ =>
    apply onlyWord_conns (t := s.foreign w nodes) h rfl
    · intro zh _ ctx hm
      change ctx ∈ (if (s.conns zh).up = true then _ else s.conns zh : Conn).contexts at hm
      split at hm
      · exact contexts_fire hm
      · exact hm
    · exact fun ctx => hsame
  | @armed zh ctx auto outbox hz ho _ =>
    refine onlyWord_setConn h hz rfl (arm_conns s zh ctx outbox) (fun ctx' hm _ => .inl ?_) fun _ => copied_reply _ _ _
    rw [mem_contexts] at hm ⊢
    rw [ho]
    rcases hm with ⟨a, ha, rfl⟩ | hm | hm | ⟨r, hr, hctx⟩
    · rcases List.mem_append.mp ha with ha | ha
      · exact .inl ⟨a, ha, rfl⟩
      · rw [List.mem_singleton.mp ha]
        exact .inr (.inr (.inr ⟨_, List.mem_cons_self, rfl⟩))
    · exact .inr (.inl hm)
    · exact .inr (.inr (.inl hm))
    · exact .inr (.inr (.inr ⟨r, List.mem_cons_of_mem _ hr, hctx⟩))
  | refused hz ho | failWatch hz ho =>
    exact onlyWord_setConn h hz rfl rfl (fun _ hm _ => .inl (contexts_answered ho hm)) fun _ => copied_reply _ _ _
  | @read zh d outbox hz ho | @failRead zh _ d outbox hz _ ho =>
    refine onlyWord_setConn h hz rfl rfl (fun ctx hm _ => .inl ?_) fun _ => hsame
    rw [mem_contexts] at hm ⊢
    rw [ho]
    rcases hm with hm | ⟨item, hm, hctx⟩ | hm | ⟨r, hr, hctx⟩
    · exact .inl hm
    · rcases List.mem_append.mp hm with hm | hm
      · exact .inr (.inl ⟨item, hm, hctx⟩)
      · rw [List.mem_singleton.mp hm] at hctx
        exact .inr (.inr (.inr ⟨_, List.mem_cons_self, Option.some.inj hctx⟩))
    · exact .inr (.inr (.inl hm))
    · exact .inr (.inr (.inr ⟨r, List.mem_cons_of_mem _ hr, hctx⟩))
  | @session zh state watchersFirst _ _ => exact onlyWord_session h zh state watchersFirst
  | sessionWatcher hz hin | fetched hz _ hin _ _ _ =>
    exact onlyWord_setConn h hz rfl rfl (fun _ hm _ => .inl (contexts_tail hin hm)) fun _ => hsame
  | @event zh ctx type zxid inbox hz hnone hin =>
    refine onlyWord_setConn h hz rfl rfl (fun ctx' hm _ => .inl ?_) fun _ => hsame
    rw [mem_contexts] at hm ⊢
    rw [hin]
    rcases hm with hm | ⟨item, hm, hctx⟩ | ⟨hd, hm, rfl⟩ | hm
    · exact .inl hm
    · exact .inr (.inl ⟨item, List.mem_cons_of_mem _ hm, hctx⟩)
    · split at hm
      · cases hm
      · cases hm
        exact .inr (.inl ⟨_, List.mem_cons_self, rfl⟩)
    · exact .inr (.inr (.inr hm))
  | told hz _ _ _ _ | nothing hz _ _ _ =>
    exact onlyWord_setConn h hz rfl rfl (fun _ hm _ => .inl (contexts_handled hm)) fun _ => hsame
  | @fetch zh _ hd d hz hh _ hctx _ =>
    refine onlyWord_setConn h hz rfl (congrArg St.conns (send_setConn s zh _ _)) (fun ctx hm _ => .inl ?_) fun _ => hsame
    rcases contexts_sent hm with hm | hr
    · exact contexts_handled hm
    · exact mem_contexts.mpr (.inr (.inr (.inl ⟨hd, hh, hctx.symm.trans hr⟩)))
  | @found k' p' data hs hd _ =>
    refine ⟨h.1, fun ctx hm hon => ?_⟩
    cases hm
    refine hstored rfl _ ?_
    obtain ⟨rfl, rfl⟩ := hon
    show (s.datas k' data.path).map _ = some (data.handler, data.context)
    rw [(hi.stored.datas _ _ _ hd).1, hd]
    rfl
  | @autoSent k' p' data zh hs _ hz =>
    have hcopied : data.toContext k' ∈ s.second.copied := by rw [hs]; rfl
    refine onlyWord_setConn h (hi.zhandle zh hz) rfl rfl (fun ctx hm hon => ?_) (fun ctx hm => by rwa [hs])
    rcases contexts_sent hm with hm | rfl
    · exact .inl hm
    · exact .inr (h.2 _ hcopied hon)
  | @regSent k' p' handler context zh _ hz =>
    refine onlyWord_setConn h (hi.zhandle zh hz) rfl rfl (fun ctx hm hon => ?_) fun _ => hsame
    rcases contexts_sent hm with hm | rfl
    · exact .inl hm
    · obtain ⟨rfl, rfl⟩ := hon
      exact .inr (hreg handler context rfl)
  | retried hs =>
    constructor
    · intro zh hz ctx hm hon
      by_cases hlt : zh < s.made
      · exact h.1 zh hlt ctx hm hon
      · change ctx ∈ (s.conns zh).contexts at hm
        rw [hi.fresh zh (Nat.le_of_not_lt hlt)] at hm
        cases hm
    · nofun
  | take _ _ | connected _ _ | notConnected _ _ | notFound _ _ | autoFailed _ | autoStored _ | autoLost _ | waited _ _
  | left _ | timer _ _ => exact ⟨h.1, nofun⟩
  | regRefused => exact h
  | _ => exact ⟨h.1, h.2⟩

theorem notify_log (n : Notification) (hdatas : t.datas = s.datas) (hlog : t.log = s.log) : ∃ ns,
    (t.notify n).log = s.log ++ ns ∧ ∀ m ∈ ns, m = n ∧ stored n.ctx.kind n.ctx.path s ≠ none := by
  unfold St.notify
  dsimp only
  rw [hlog]
  split
  · rename_i hreg
    refine ⟨[n], rfl, fun m hm => ⟨List.mem_singleton.mp hm, ?_⟩⟩
    rw [St.isShouldNotify, hdatas] at hreg
    intro hnone
    rw [stored, Option.map_eq_none_iff] at hnone
    rw [hnone] at hreg
    cases hreg
  · exact ⟨[], (List.append_nil _).symm, fun m hm => absurd hm List.not_mem_nil⟩

theorem notified_step {a : Act} (h : step s a = some t) : ∃ ns, t.log = s.log ++ ns ∧ ∀ n ∈ ns,
    (∃ zh < s.made, n.ctx ∈ (s.conns zh).contexts) ∧ stored n.ctx.kind n.ctx.path s ≠ none := by
  have hquiet : t.log = s.log → ∃ ns, t.log = s.log ++ ns ∧ ∀ n ∈ ns,
      (∃ zh < s.made, n.ctx ∈ (s.conns zh).contexts) ∧ stored n.ctx.kind n.ctx.path s ≠ none :=
    fun hlog => ⟨[], hlog.trans (List.append_nil _).symm, nofun⟩
  cases step_inv h with
  | @session zh state watchersFirst _ _ =>
    apply hquiet
    unfold St.session
    dsimp only
    split <;> rfl
  | @fetched zh d result inbox n hz _ hin hctx _ _ =>
    obtain ⟨ns, hlog, hns⟩ := notify_log (s := s) (t := s.setConn zh { s.conns zh with inbox }) n rfl rfl
    refine ⟨ns, hlog, fun m hm => ?_⟩
    obtain ⟨rfl, hreg⟩ := hns m hm
    refine ⟨⟨zh, hz, mem_contexts.mpr (.inr (.inl ⟨.fetched d result, ?_, ?_⟩))⟩, hreg⟩
    · rw [hin]; exact List.mem_cons_self
    · exact congrArg some hctx.symm
  | @told zh _ hd n hz hh hctx _ _ =>
    obtain ⟨ns, hlog, hns⟩ := notify_log (s := s) (t := s.setConn zh { s.conns zh with handling := none }) n rfl rfl
    refine ⟨ns, hlog, fun m hm => ?_⟩
    obtain ⟨rfl, hreg⟩ := hns m hm
    exact ⟨⟨zh, hz, mem_contexts.mpr (.inr (.inr (.inl ⟨hd, hh, hctx.symm⟩)))⟩, hreg⟩
  | regRefused => exact hquiet rfl
  | _ => exact hquiet rfl

/-! ## Atomic actions -/

structure WordInv (k : Kind) (p : Path) (x : St × Word) : Prop where
  handles : HandlesInv x.1
  wins : LastWordWins k p x
  only : ∀ v ∈ x.2, OnlyWord k p v x.1

theorem wordInv_initial (k : Kind) (p : Path) (nodes : Tree) : WordInv k p (St.initial nodes, none) where
  handles := handlesInv_initial nodes
  wins := rfl
  only := nofun

def Notified (k : Kind) (p : Path) (x y : St × Word) : Prop :=
  ∃ ns, y.1.log = x.1.log ++ ns ∧ ∀ n ∈ ns, n.ctx.on k p → x.2 = some n.ctx.word

def Act.speaks : Act → Bool
  | .reg _ _ (some _) _ | .regReturn _ => true
  | _ => false

variable {x y : St × Word}

theorem wordInv_notified {a : Act} (hi : WordInv k p x) (h : spoken k p x a = some y) : Notified k p x y := by
  obtain ⟨hstep, -⟩ := Lts.withHistory_some h
  obtain ⟨ns, hlog, hns⟩ := notified_step hstep
  refine ⟨ns, hlog, fun n hn hon => ?_⟩
  obtain ⟨⟨zh, hz, hctx⟩, hreg⟩ := hns n hn
  rw [hon.1, hon.2, hi.wins] at hreg
  obtain ⟨v, hv⟩ := Option.ne_none_iff_exists'.mp hreg
  rw [hv, (hi.only v hv).1 zh hz _ hctx hon]

theorem wordInv_step {a : Act} (hi : WordInv k p x) (hg : CopyStands k p x a) (hq : a.speaks = false)
    (h : spoken k p x a = some y) : WordInv k p y := by
  obtain ⟨hstep, hword⟩ := Lts.withHistory_some h
  refine ⟨handlesInv_step hi.handles hstep, (lastWordWins_step hi.wins hg hstep).trans hword.symm, fun v hv => ?_⟩
  have hold : v ∈ x.2 := by
    rw [hword] at hv
    cases a with
    | regReturn i => cases hq
    | cancel k' p' =>
      rw [lastWord] at hv
      split at hv
      · cases hv
      · exact hv
    | _ => exact hv
  apply onlyWord_step hi.handles (hi.only v hold) ?_ ?_ hstep
  · intro _ u hu
    have hwins : stored k p x.1 = x.2 := hi.wins
    rw [hwins, hold] at hu
    exact (Option.some.inj hu).symm
  · rintro handler context rfl
    cases hq

def Act.quiet : Act → Bool
  | .second | .cancel _ _ => false
  | a => !a.speaks

theorem Notified.trans {z : St × Word} (h : Notified k p x y) (hword : y.2 = x.2) (h' : Notified k p y z) :
    Notified k p x z := by
  obtain ⟨ns, hlog, hns⟩ := h
  obtain ⟨ns', hlog', hns'⟩ := h'
  refine ⟨ns ++ ns', by rw [hlog', hlog, List.append_assoc], fun n hn hon => ?_⟩
  rcases List.mem_append.mp hn with hn | hn
  · exact hns n hn hon
  · rw [← hword]
    exact hns' n hn hon

theorem quiet_spoken {a : Act} (hq : a.quiet = true) (h : spoken k p x a = some y) :
    a.speaks = false ∧ CopyStands k p x a ∧ y.2 = x.2 := by
  obtain ⟨-, hword⟩ := Lts.withHistory_some h
  cases a with
  | second | cancel _ _ | regReturn _ => cases hq
  | reg k' p' handler context =>
    cases handler with
    | none => exact ⟨rfl, trivial, hword⟩
    | some handler => cases hq
  | _ => exact ⟨rfl, trivial, hword⟩

theorem wordInv_quiet : ∀ {as : List Act} {x : St × Word}, (∀ a ∈ as, a.quiet = true) → WordInv k p x →
    Lts.run (spoken k p) x as = some y → WordInv k p y ∧ Notified k p x y
  | [], x, _, hi, hr => by
    cases hr
    exact ⟨hi, [], (List.append_nil _).symm, nofun⟩
  | a :: as, x, hq, hi, hr => by
    obtain ⟨u, hu, hr⟩ := Lts.run_cons_some hr
    obtain ⟨hspeaks, hcopy, hword⟩ := quiet_spoken (hq a List.mem_cons_self) hu
    have hi' := wordInv_step hi hcopy hspeaks hu
    obtain ⟨hy, hn⟩ := wordInv_quiet (fun b hb => hq b (List.mem_cons_of_mem a hb)) hi' hr
    exact ⟨hy, (wordInv_notified hi hu).trans hword hn⟩

/-! ## The user's registration -/

theorem reg_sent {k' : Kind} {p' : Path} {handler context : Nat} (hc : s.isConnected = true)
    (hz : s.zhandle = some zh) : step s (.reg k' p' (some handler) context) =
      some (s.send zh (.watch ⟨k', p', handler, context⟩ false)) := by
  simp [step, St.regWatcher, hc, hz]

theorem reg_answered {ctx : WatchContext} {a : Act} (ho : (s.conns zh).outbox = [])
    (ha : a = .serve zh ∨ ∃ rc, a = .fail zh rc) (h : step (s.send zh (.watch ctx false)) a = some t) :
    t.made = s.made ∧ t.log = s.log ∧ t.second = s.second ∧
      (t.replied = s.replied ++ [(ctx, true)] ∧ a = .serve zh ∧ s.arms ctx = true ∨
        t.replied = s.replied ++ [(ctx, false)] ∧ t.conns = s.conns) := by
  have hout : ((s.send zh (.watch ctx false)).conns zh).outbox = [.watch ctx false] := by
    rw [St.send, setConn_self, ho]
    rfl
  have hback : ((s.send zh (.watch ctx false)).setConn zh
      { (s.send zh (.watch ctx false)).conns zh with outbox := [] }).conns = s.conns := by
    have hconn : ({ s.conns zh with outbox := [] } : Conn) = s.conns zh := by rw [← ho]
    simp only [St.send, setConn_setConn, setConn_self]
    rw [hconn]
    exact Function.update_eq_self zh s.conns
  rcases ha with rfl | ⟨rc, rfl⟩
  · cases step_inv h with
    | armed _ hout' harm =>
      rw [hout] at hout'
      cases hout'
      exact ⟨rfl, rfl, rfl, .inl ⟨rfl, rfl, harm⟩⟩
    | refused _ hout' =>
      rw [hout] at hout'
      cases hout'
      exact ⟨rfl, rfl, rfl, .inr ⟨rfl, hback⟩⟩
    | read _ hout' =>
      rw [hout] at hout'
      cases hout'
  · cases step_inv h with
    | failWatch _ hout' =>
      rw [hout] at hout'
      cases hout'
      exact ⟨rfl, rfl, rfl, .inr ⟨rfl, hback⟩⟩
    | failRead _ _ hout' =>
      rw [hout] at hout'
      cases hout'

theorem regReturn_inv {ctx : WatchContext} {ok : Bool} (hrep : s.replied = [(ctx, ok)])
    (h : step s (.regReturn 0) = some t) : t.made = s.made ∧ t.log = s.log ∧ t.second = s.second ∧
      t.conns = s.conns ∧ ∀ w, lastWord k p w s (.regReturn 0) = if ok = true ∧ ctx.on k p then some ctx.word else w := by
  have hget : s.replied[0]? = some (ctx, ok) := by rw [hrep]; rfl
  cases step_inv h with
  | regStored hr =>
    rw [hget] at hr
    cases hr
    refine ⟨rfl, rfl, rfl, rfl, fun w => ?_⟩
    rw [lastWord, hget]
    simp only [true_and]
    rfl
  | regFailed hr =>
    rw [hget] at hr
    cases hr
    refine ⟨rfl, rfl, rfl, rfl, fun w => ?_⟩
    rw [lastWord, hget]
    simp only [Bool.false_eq_true, false_and, if_false]

theorem wordInv_registered {k' : Kind} {p' : Path} {handler context : Nat} {a : Act} (hi : WordInv k p x)
    (hc : x.1.isConnected = true) (hz : x.1.zhandle = some zh) (ho : (x.1.conns zh).outbox = []) (hrep : x.1.replied = [])
    (ha : a = .serve zh ∨ ∃ rc, a = .fail zh rc)
    (hg : k' = k ∧ p' = p → a = .serve zh → x.1.accepts ⟨k', p', handler, context⟩ = true →
      OnlyWord k p (handler, context) x.1)
    (h : Lts.run (spoken k p) x [.reg k' p' (some handler) context, a, .regReturn 0] = some y) :
    WordInv k p y ∧ Notified k p x y := by
  obtain ⟨x₁, h₁, h⟩ := Lts.run_cons_some h
  obtain ⟨x₂, h₂, h⟩ := Lts.run_cons_some h
  obtain ⟨x₃, h₃, h⟩ := Lts.run_cons_some h
  cases h
  obtain ⟨hs₁, hw₁⟩ := Lts.withHistory_some h₁
  obtain ⟨hs₂, hw₂⟩ := Lts.withHistory_some h₂
  obtain ⟨hs₃, hw₃⟩ := Lts.withHistory_some h₃
  have hcopy : CopyStands k p x₁ a := by rcases ha with rfl | ⟨rc, rfl⟩ <;> trivial
  have hwins : LastWordWins k p y := (lastWordWins_step ((lastWordWins_step ((lastWordWins_step hi.wins
    (a := .reg k' p' (some handler) context) trivial hs₁).trans hw₁.symm) hcopy hs₂).trans hw₂.symm)
    (a := .regReturn 0) trivial hs₃).trans hw₃.symm
  have hhandles₁ := handlesInv_step hi.handles hs₁
  have hhandles₂ := handlesInv_step hhandles₁ hs₂
  have hsend : x₁.1 = x.1.send zh (.watch ⟨k', p', handler, context⟩ false) :=
    Option.some.inj (hs₁.symm.trans (reg_sent hc hz))
  have hword : x₂.2 = x.2 := by
    rw [hw₂, hw₁]
    rcases ha with rfl | ⟨rc, rfl⟩ <;> rfl
  rw [hsend] at hs₂
  obtain ⟨hmade, hlog, hsecond, hanswer⟩ := reg_answered ho ha hs₂
  rw [hrep, List.nil_append, List.nil_append] at hanswer
  rcases hanswer with ⟨hreplied, rfl, harms⟩ | ⟨hreplied, hconns⟩
  · obtain ⟨-, hlog', -, -, hlast⟩ := regReturn_inv (k := k) (p := p) hreplied hs₃
    rw [← hsend] at hs₂
    refine ⟨⟨handlesInv_step hhandles₂ hs₃, hwins, fun v hv => ?_⟩,
      [], by rw [hlog', hlog, List.append_nil], nofun⟩
    rw [hw₃, hlast, hword] at hv
    -- the watch is armed: all that is alive must have its word
    have hv : OnlyWord k p v x.1 ∧ (k' = k ∧ p' = p → (handler, context) = v) := by
      split at hv
      · rename_i hon
        have hv := Option.some.inj hv
        have haccepts : x.1.accepts ⟨k', p', handler, context⟩ = true := by rw [St.accepts, hc, hz, harms]; rfl
        rw [← hv]
        exact ⟨hg hon.2 rfl haccepts, fun _ => rfl⟩
      · rename_i hoff
        exact ⟨hi.only v hv, fun hon => absurd ⟨rfl, hon⟩ hoff⟩
    have hx₁ : OnlyWord k p v x₁.1 := by
      refine onlyWord_step hi.handles hv.1 (fun hsec => by cases hsec) (fun _ _ heq => ?_) hs₁
      cases heq
      exact hv.2 ⟨rfl, rfl⟩
    have hx₂ : OnlyWord k p v x₂.1 :=
      onlyWord_step hhandles₁ hx₁ (fun hsec => by cases hsec) (fun _ _ heq => by cases heq) hs₂
    exact onlyWord_step hhandles₂ hx₂ (fun hsec => by cases hsec) (fun _ _ heq => by cases heq) hs₃
  · obtain ⟨hmade', hlog', hsecond', hconns', hlast⟩ := regReturn_inv (k := k) (p := p) hreplied hs₃
    refine ⟨⟨handlesInv_step hhandles₂ hs₃, hwins, fun v hv => ?_⟩,
      [], by rw [hlog', hlog, List.append_nil], nofun⟩
    rw [hw₃, hlast, hword, if_neg (by simp)] at hv
    apply onlyWord_congr (hi.only v hv) (hmade'.trans hmade) (hconns'.trans hconns)
    intro ctx hm
    rwa [hsecond', hsecond] at hm

theorem wordInv_atomic {a : AtomicAct} (hi : WordInv k p x) (hg : Supersedes k p x a)
    (h : atomicStep k p x a = some y) : WordInv k p y ∧ Notified k p x y := by
  obtain ⟨as, has, hr⟩ := Lts.grouped_some h
  cases a with
  | own a =>
    simp only [AtomicAct.steps] at has
    split at has
    · rename_i hown
      cases has
      obtain ⟨u, hu, hr⟩ := Lts.run_cons_some hr
      cases hr
      refine ⟨wordInv_step hi ?_ ?_ hu, wordInv_notified hi hu⟩
      · cases a with
        | second => exact hg
        | _ => trivial
      · cases a with
        | reg _ _ _ _ | regReturn _ => cases hown
        | _ => rfl
    · cases has
  | callback zh accepted =>
    refine wordInv_quiet (fun b hb => ?_) hi hr
    simp only [AtomicAct.steps] at has
    split at has
    · cases has
      split at hb <;> simp only [List.mem_cons, List.not_mem_nil, or_false] at hb
      · rw [hb]; rfl
      · rcases hb with rfl | rfl <;> rfl
    · cases has
      rw [List.mem_singleton.mp hb]
      rfl
  | cancel k' p' =>
    cases has
    obtain ⟨u, hu, hr⟩ := Lts.run_cons_some hr
    cases hr
    exact ⟨wordInv_step (a := .cancel k' p') hi trivial rfl hu, wordInv_notified hi hu⟩
  | reg k' p' handler context error =>
    cases handler with
    | none =>
      cases has
      refine wordInv_quiet (fun b hb => ?_) hi hr
      rw [List.mem_singleton.mp hb]
      rfl
    | some handler =>
      simp only [AtomicAct.steps] at has
      split at has
      · rename_i zh hc hz
        split at has
        · rename_i hidle
          cases has
          apply wordInv_registered hi hc hz hidle.1 hidle.2 ?_ ?_ hr
          · cases error with
            | none => exact .inl rfl
            | some rc => exact .inr ⟨rc, rfl⟩
          · intro hon hserve
            cases error with
            | none => exact hg hon
            | some rc => cases hserve
        · cases has
      · -- the registration returns false at once
        rename_i hno
        cases has
        obtain ⟨u, hu, hr⟩ := Lts.run_cons_some hr
        cases hr
        obtain ⟨hstep, hword⟩ := Lts.withHistory_some hu
        have hnone : x.1.regWatcher ⟨k', p', handler, context⟩ false = none := by
          unfold St.regWatcher
          cases hc : x.1.isConnected with
          | false => rfl
          | true =>
            cases hz : x.1.zhandle with
            | none => rfl
            | some zh => exact absurd hz (hno zh hc)
        have hsame : y.1 = x.1 := by simpa [step, hnone, eq_comm] using hstep
        have hxy : y = x := Prod.ext hsame hword
        rw [hxy]
        exact ⟨hi, [], (List.append_nil _).symm, fun m hm => absurd hm List.not_mem_nil⟩

/-- **The current handler.** In every run whose registrations find no other
handler of the path alive, and whose copies still stand when they are stored,
only the handler that the user registered last is called. -/
theorem currentNotified_of_supersedes {nodes : Tree} {acts : List AtomicAct}
    (hg : Lts.Along (atomicStep k p) (Supersedes k p) (St.initial nodes, none) acts) :
    Lts.Along (atomicStep k p) (CurrentNotified k p) (St.initial nodes, none) acts := by
  refine Lts.along_of_along (I := WordInv k p) (fun x a y hi hg h => (wordInv_atomic hi hg h).1) ?_
    (wordInv_initial k p nodes) hg
  intro x a hi hg y hy n hn hon
  obtain ⟨-, ns, hlog, hns⟩ := wordInv_atomic hi hg hy
  rw [hlog, List.drop_left] at hn
  exact hns n hn hon

end

theorem currentNotified_after_fired : Lts.Along (atomicStep .node ["a"]) (CurrentNotified .node ["a"])
    (St.initial oneNode, none) [.reg .node ["a"] (some 1) 7 none, .cancel .node ["a"], .own (.foreign (.delete ["a"])),
      .callback 0 true, .reg .node ["a"] (some 2) 7 none, .own (.foreign (.create ["a"] (some "v"))), .callback 0 true,
      .own (.serve 0), .callback 0 true] :=
  currentNotified_of_supersedes (by decide)

/-- The watch armed for the cancelled handler fires, and calls it. -/
theorem not_currentNotified_cancelled : ¬ Lts.Along (atomicStep .node ["a"]) (CurrentNotified .node ["a"])
    (St.initial oneNode, none) [.reg .node ["a"] (some 1) 7 none, .cancel .node ["a"], .reg .node ["a"] (some 2) 7 none,
      .own (.foreign (.delete ["a"])), .callback 0 true] := by
  decide

end ZkCppClient.Watch
