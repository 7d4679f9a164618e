import ZkCppClient.Watch.Machine

/-!
# Permanent watches

A registered path has something that will arm its watch again: the armed watch
itself, its event on the way, a re-registration that is queued or running, or
the timer of one that failed. The chain breaks at two places only: a
re-registration that finds the session not connected just returns, and a
registration stores its data after the event of its own watch may have come and
gone.
-/

namespace ZkCppClient.Watch

def Item.isEvent (k : Kind) (p : Path) : Item → Prop
  | .event ctx type _ => ctx.on k p ∧ type ≠ .session
  | _ => False

instance (k : Kind) (p : Path) : ∀ item, Decidable (Item.isEvent k p item)
  | .event _ _ _ => inferInstanceAs (Decidable (_ ∧ _))
  | .sessionWatcher _ | .fetched _ _ => inferInstanceAs (Decidable False)

def Conn.Covers (c : Conn) (k : Kind) (p : Path) : Prop :=
  (∃ a ∈ c.armed, a.ctx.on k p) ∨ ∃ item ∈ c.inbox, item.isEvent k p

instance (c : Conn) (k : Kind) (p : Path) : Decidable (c.Covers k p) := inferInstanceAs (Decidable (_ ∨ _))

def Covered (k : Kind) (p : Path) (s : St) : Prop :=
  (∃ zh < s.made, (s.conns zh).Covers k p) ∨ (k, p) ∈ s.funs ∨ s.second.path = some (k, p) ∨ (k, p) ∈ s.timers

instance (k : Kind) (p : Path) (s : St) : Decidable (Covered k p s) := inferInstanceAs (Decidable (_ ∨ _))

/-- A registered path is never left with nothing that will arm its watch. -/
def Permanent (k : Kind) (p : Path) (s : St) : Prop := s.datas k p ≠ none → Covered k p s

instance (k : Kind) (p : Path) (s : St) : Decidable (Permanent k p s) := inferInstanceAs (Decidable (_ → _))

/-- A re-registration that finds the session not connected, and a registration
that stores its data, each leave the path with something else. -/
def ChainKept (k : Kind) (p : Path) (s : St) : Act → Prop
  | .second =>
    match s.second with
    | .autoReg k' p' => k' = k → p' = p → s.isConnected = false → s.datas k p ≠ none →
        Covered k p { s with second := .idle }
    | .returned k' _ data true => k' = k → data.path = p → Covered k p { s with second := .idle }
    | _ => True
  | .regReturn i => ∀ r ∈ s.replied[i]?, r.1.on k p → r.2 = true → Covered k p s
  | _ => True

instance (k : Kind) (p : Path) (s : St) (a : Act) : Decidable (ChainKept k p s a) := by
  unfold ChainKept
  split
  · split <;> infer_instance
  · infer_instance
  · infer_instance

/-! ## Steps that keep the cover -/

section
variable {k : Kind} {p : Path} {s t : St} {zh : Nat} {c : Conn}

theorem covers_fire (event : Armed → Option (EventType × Nat)) (hev : ∀ a e, event a = some e → e.1 ≠ .session)
    (h : c.Covers k p) : (c.fire event).Covers k p := by
  rcases h with ⟨a, ha, hon⟩ | ⟨item, hm, hitem⟩
  · cases he : event a with
    | none => exact .inl ⟨a, List.mem_filter.mpr ⟨ha, by rw [he]; rfl⟩, hon⟩
    | some e =>
      refine .inr ⟨.event a.ctx e.1 e.2, List.mem_append_right _ (List.mem_filterMap.mpr ⟨a, ha, ?_⟩), hon, hev a e he⟩
      rw [he]; rfl
  · exact .inr ⟨item, List.mem_append_left _ hm, hitem⟩

theorem covers_more (h : c.Covers k p) {c' : Conn} (harmed : ∀ a ∈ c.armed, a ∈ c'.armed)
    (hinbox : ∀ item ∈ c.inbox, item ∈ c'.inbox) : c'.Covers k p :=
  h.imp (fun ⟨a, ha, hon⟩ => ⟨a, harmed a ha, hon⟩) fun ⟨item, hm, hitem⟩ => ⟨item, hinbox item hm, hitem⟩

theorem covers_tail (h : c.Covers k p) {item : Item} {inbox : List Item} (hinbox : c.inbox = item :: inbox)
    (hitem : ¬ item.isEvent k p) {c' : Conn} (harmed : c'.armed = c.armed) (hrest : c'.inbox = inbox) :
    c'.Covers k p := by
  unfold Conn.Covers
  rw [harmed, hrest]
  refine h.imp_right ?_
  rintro ⟨item', hm, hev⟩
  rw [hinbox] at hm
  rcases List.mem_cons.mp hm with rfl | hm
  · exact absurd hev hitem
  · exact ⟨item', hm, hev⟩

theorem covered_mono (h : Covered k p s) (hmade : s.made ≤ t.made)
    (hconns : ∀ z, (s.conns z).Covers k p → (t.conns z).Covers k p) (hfuns : ∀ e ∈ s.funs, e ∈ t.funs)
    (hsecond : s.second.path = some (k, p) → t.second.path = some (k, p))
    (htimers : ∀ e ∈ s.timers, e ∈ t.timers) : Covered k p t := by
  rcases h with ⟨z, hz, h⟩ | h | h | h
  · exact .inl ⟨z, Nat.lt_of_lt_of_le hz hmade, hconns z h⟩
  · exact .inr (.inl (hfuns _ h))
  · exact .inr (.inr (.inl (hsecond h)))
  · exact .inr (.inr (.inr (htimers _ h)))

theorem covered_setConn (h : Covered k p s) (zh : Nat) {c : Conn} (hc : (s.conns zh).Covers k p → c.Covers k p) :
    Covered k p (s.setConn zh c) := by
  refine covered_mono h (Nat.le_refl _) (fun z hz => ?_) (fun _ => id) id (fun _ => id)
  by_cases hzh : z = zh
  · subst hzh
    rw [setConn_self]
    exact hc hz
  · rw [setConn_of_ne s zh c hzh]
    exact hz

theorem covered_second (h : Covered k p s) {pc : SecondPc}
    (hpc : s.second.path = some (k, p) → pc.path = some (k, p)) : Covered k p { s with second := pc } :=
  covered_mono h (Nat.le_refl _) (fun _ => id) (fun _ => id) hpc (fun _ => id)

theorem path_reply (pc : SecondPc) (auto ok : Bool) : (if auto = true then pc.reply ok else pc).path = pc.path := by
  split
  · cases pc <;> rfl
  · rfl

theorem covered_reply (h : Covered k p s) (ctx : WatchContext) (auto ok : Bool) : Covered k p (s.reply ctx auto ok) :=
  covered_mono h (Nat.le_refl _) (fun _ => id) (fun _ => id) (fun hp => (path_reply s.second auto ok).trans hp)
    (fun _ => id)

theorem missed_ne_session {a : Armed} {e : EventType × Nat} (h : s.missed a = some e) : e.1 ≠ .session := by
  unfold St.missed at h
  split at h
  · obtain ⟨type, ht, rfl⟩ := Option.map_eq_some_iff.mp h
    rintro (rfl : type = .session)
    split at ht <;> cases ht
  · cases h

theorem covered_foreign (h : Covered k p s) (w : Write) (nodes : Tree) : Covered k p (s.foreign w nodes) := by
  refine covered_mono h (Nat.le_refl _) (fun z hz => ?_) (fun _ => id) id (fun _ => id)
  show (if (s.conns z).up = true then _ else _ : Conn).Covers k p
  split
  · refine covers_fire _ (fun a e he => ?_) hz
    obtain ⟨type, ht, rfl⟩ := Option.map_eq_some_iff.mp he
    exact (event_ne ht).1
  · exact hz

theorem covered_session (h : Covered k p s) (zh : Nat) (state : SessState) (watchersFirst : Bool) :
    Covered k p (s.session zh state watchersFirst) := by
  unfold St.session
  dsimp only
  split
  · refine covered_setConn h zh fun hc => covers_fire _ (fun a e he => missed_ne_session he) ?_
    exact covers_more hc (fun _ => id) (fun _ => List.mem_append_left _)
  · have hlost : Covered k p (s.replyLost (s.conns zh).outbox) :=
      covered_mono h (Nat.le_refl _) (fun _ => id) (fun _ => id) (fun hp => (path_reply s.second _ false).trans hp)
        (fun _ => id)
    refine covered_setConn hlost zh fun hc => covers_more hc (fun _ => id) fun _ hm => ?_
    exact List.mem_append_left _ (List.mem_append_left _ hm)

theorem mem_eraseIdx {α : Type} {l : List α} {i : Nat} {x y : α} (hi : l[i]? = some x) (hy : y ∈ l) :
    y = x ∨ y ∈ l.eraseIdx i := by
  obtain ⟨j, hj⟩ := List.mem_iff_getElem?.mp hy
  by_cases hij : j = i
  · subst hij
    rw [hi] at hj; cases hj
    exact .inl rfl
  · exact .inr (List.mem_eraseIdx_iff_getElem?.mpr ⟨j, hij, hj⟩)

theorem permanent_event (h : Permanent k p s) {ctx : WatchContext} {type : EventType} {zxid : Nat}
    {inbox : List Item} {handling : Option Handling} (hi : (s.conns zh).inbox = .event ctx type zxid :: inbox) :
    Permanent k p ((s.setConn zh { s.conns zh with inbox, handling }).queueAutoReg ctx) := by
  intro hd
  by_cases hon : ctx.on k p
  · have hs : s.isShouldNotify ctx.kind ctx.path = true := by
      rw [hon.1, hon.2]
      exact Option.isSome_iff_ne_none.mpr hd
    refine .inr (.inl ?_)
    show (k, p) ∈ if s.isShouldNotify ctx.kind ctx.path = true then s.funs ++ [(ctx.kind, ctx.path)] else s.funs
    rw [if_pos hs, hon.1, hon.2]
    exact List.mem_append_right _ (List.mem_singleton.mpr rfl)
  · have hcov : Covered k p (s.setConn zh { s.conns zh with inbox, handling }) :=
      covered_setConn (h hd) zh fun hc => covers_tail hc hi (fun hev => hon hev.1) rfl rfl
    refine covered_mono hcov (Nat.le_refl _) (fun _ => id) (fun e he => ?_) id (fun _ => id)
    show e ∈ if _ then _ else _
    split
    · exact List.mem_append_left _ he
    · exact he

theorem covered_failed (h : Covered k p s) {k' : Kind} {p' : Path} (hpc : s.second.path = some (k', p')) :
    Covered k p { s with second := .idle, timers := s.timers ++ [(k', p')] } := by
  rcases h with h | h | h | h
  · exact .inl h
  · exact .inr (.inl h)
  · rw [hpc] at h
    refine .inr (.inr (.inr (List.mem_append_right _ ?_)))
    rw [Option.some.inj h]
    exact List.mem_singleton.mpr rfl
  · exact .inr (.inr (.inr (List.mem_append_left _ h)))

theorem covered_take (h : Covered k p s) {k' : Kind} {p' : Path} {funs : List (Kind × Path)}
    (hs : s.second = .idle) (hf : s.funs = (k', p') :: funs) :
    Covered k p { s with second := .autoReg k' p', funs } := by
  rcases h with h | h | h | h
  · exact .inl h
  · rw [hf] at h
    rcases List.mem_cons.mp h with h | h
    · exact .inr (.inr (.inl (congrArg some h.symm)))
    · exact .inr (.inl h)
  · rw [hs] at h; cases h
  · exact .inr (.inr (.inr h))

theorem covered_timer (h : Covered k p s) {i : Nat} {k' : Kind} {p' : Path} (hs : s.second = .idle)
    (ht : s.timers[i]? = some (k', p')) :
    Covered k p { s with second := .autoReg k' p', timers := s.timers.eraseIdx i } := by
  rcases h with h | h | h | h
  · exact .inl h
  · exact .inr (.inl h)
  · rw [hs] at h; cases h
  · rcases mem_eraseIdx ht h with h | h
    · exact .inr (.inr (.inl (congrArg some h.symm)))
    · exact .inr (.inr (.inr h))

theorem permanent_setWatchData (h : Permanent k p s) {k' : Kind} {p' : Path} {data : Option WatchData}
    (hnew : k' = k → p' = p → data ≠ none → Covered k p s) : Permanent k p (s.setWatchData k' p' data) := by
  intro hd
  show Covered k p s
  simp only [St.setWatchData] at hd
  split at hd
  · rename_i heq
    exact hnew heq.1.symm heq.2.symm hd
  · exact h hd

/-! ## All steps -/

theorem permanent_step {a : Act} (hi : DatasInv s) (h : Permanent k p s) (hg : ChainKept k p s a)
    (hstep : step s a = some t) : Permanent k p t := by
  cases step_inv hstep with
  | @foreign w nodes _ => exact fun hd => covered_foreign (h hd) w nodes
  | @armed zh ctx auto outbox _ _ _ =>
    intro hd
    have hsent : Covered k p (s.setConn zh { s.conns zh with outbox }) :=
      covered_setConn (h hd) zh fun hc => covers_more hc (fun _ => id) (fun _ => id)
    refine covered_reply ?_ ctx auto true
    exact covered_setConn hsent zh fun hc => covers_more hc (fun _ => List.mem_append_left _) (fun _ => id)
  | @refused zh ctx auto outbox _ _ | @failWatch zh _ ctx auto outbox _ _ =>
    intro hd
    refine covered_reply (covered_setConn (h hd) zh fun hc => ?_) ctx auto false
    exact covers_more hc (fun _ => id) (fun _ => id)
  | @read zh _ _ _ _ | @failRead zh _ _ _ _ _ _ =>
    exact fun hd => covered_setConn (h hd) zh fun hc => covers_more hc (fun _ => id) fun _ => List.mem_append_left _
  | @session zh state watchersFirst _ _ =>
    intro hd
    rw [session_datas] at hd
    exact covered_session (h hd) zh state watchersFirst
  | @sessionWatcher zh _ inbox _ hin | @fetched zh _ _ inbox _ _ _ hin _ _ _ =>
    intro hd
    exact covered_setConn (h hd) zh fun hc => covers_tail hc hin id rfl rfl
  | event _ _ hin => exact permanent_event h hin
  | @told zh _ _ _ _ _ _ _ _ | @nothing zh _ _ _ _ _ _ =>
    exact fun hd => covered_setConn (h hd) zh fun hc => covers_more hc (fun _ => id) (fun _ => id)
  | @fetch zh _ _ _ _ _ _ _ _ =>
    intro hd
    have hidle : Covered k p (s.setConn zh { s.conns zh with handling := none }) :=
      covered_setConn (h hd) zh fun hc => covers_more hc (fun _ => id) (fun _ => id)
    exact covered_setConn hidle zh fun hc => covers_more hc (fun _ => id) (fun _ => id)
  | take hs hf => exact fun hd => covered_take (h hd) hs hf
  | connected hs _ | found hs _ _ => exact fun hd => covered_second (h hd) (by rw [hs]; exact id)
  | @notConnected k' p' hs hc =>  -- the condition leaves something else, or the path is another one
    intro hd
    simp only [ChainKept, hs] at hg
    by_cases heq : k' = k ∧ p' = p
    · exact hg heq.1 heq.2 hc hd
    · refine covered_second (h hd) fun hpath => ?_
      rw [hs] at hpath
      cases hpath
      exact absurd ⟨rfl, rfl⟩ heq
  | notFound hs hno =>  -- then the path is not registered
    intro hd
    refine covered_second (h hd) fun hpath => ?_
    rw [hs] at hpath
    cases hpath
    obtain ⟨data, hdata⟩ := Option.ne_none_iff_exists'.mp hd
    have hauto := (hi.datas k p data hdata).2
    rw [hno data hdata] at hauto
    cases hauto
  | @autoSent k' p' data zh hs _ _ =>
    intro hd
    have hsent : Covered k p (s.send zh (.watch (data.toContext k') true)) :=
      covered_setConn (h hd) zh fun hc => covers_more hc (fun _ => id) (fun _ => id)
    exact covered_second hsent fun hpath => by rw [← hpath]; exact (congrArg SecondPc.path hs).symm
  | autoFailed hs | autoLost hs => exact fun hd => covered_failed (h hd) (congrArg SecondPc.path hs)
  | @autoStored k' p' data hs =>  -- stored with what the condition gives, or for another path
    simp only [ChainKept, hs] at hg
    have hpath : data.path = p' := by have h := hi.second; rwa [hs] at h
    intro hd
    by_cases heq : k' = k ∧ data.path = p
    · exact hg heq.1 heq.2
    · have hold : s.datas k p ≠ none := by
        intro hn
        refine hd ?_
        show (if k = k' ∧ p = data.path then _ else s.datas k p) = none
        rw [if_neg fun h => heq ⟨h.1.symm, h.2.symm⟩, hn]
      refine covered_second (h hold) fun hsecond => ?_
      rw [hs] at hsecond
      cases hsecond
      exact absurd ⟨rfl, hpath⟩ heq
  | waited hs _ | left hs => exact fun hd => covered_second (h hd) (by rw [hs]; nofun)
  | timer hs ht => exact fun hd => covered_timer (h hd) hs ht
  | regRefused => exact h
  | @regSent _ _ _ _ zh _ _ =>
    exact fun hd => covered_setConn (h hd) zh fun hc => covers_more hc (fun _ => id) (fun _ => id)
  | @regStored i ctx hr =>
    refine permanent_setWatchData (s := { s with replied := s.replied.eraseIdx i }) h fun hk hp _ => ?_
    exact hg (ctx, true) hr ⟨hk, hp⟩ rfl
  | cancel k' p' => exact permanent_setWatchData h fun _ _ hne => absurd rfl hne
  | retried hs =>  -- the second thread was in no re-registration
    intro hd
    refine covered_mono (h hd) (Nat.le_succ _) (fun _ => id) (fun _ => id) (fun hpath => ?_) (fun _ => id)
    rw [hs] at hpath; cases hpath
  | regFailed _ | expire | retryFailed _ => exact h

theorem not_permanent_of_broken {a : Act} (hg : ¬ ChainKept k p s a) (hstep : step s a = some t) : ¬ Permanent k p t := by
  intro h
  apply hg
  cases step_inv hstep with
  | @notConnected k' p' hs hc =>
    simp only [ChainKept, hs]
    exact fun _ _ _ hd => h hd
  | @autoStored k' p' data hs =>
    simp only [ChainKept, hs]
    rintro rfl rfl
    refine h ?_
    show (if k' = k' ∧ data.path = data.path then _ else _) ≠ none
    rw [if_pos ⟨rfl, rfl⟩]
    nofun
  | @regStored i ctx hr =>
    intro r hr' hon _
    rw [hr] at hr'; cases hr'
    obtain ⟨rfl, rfl⟩ := hon
    refine h ?_
    show (if ctx.kind = ctx.kind ∧ ctx.path = ctx.path then _ else _) ≠ none
    rw [if_pos ⟨rfl, rfl⟩]
    nofun
  | @regFailed i ctx hr =>
    intro r hr' _ hok
    rw [hr] at hr'; cases hr'
    cases hok
  | connected hs hc =>
    simp only [ChainKept, hs, hc]
    nofun
  | take hs _ | found hs _ _ | notFound hs _ | autoSent hs _ _ | autoFailed hs | autoLost hs | waited hs _ | left hs =>
    simp only [ChainKept, hs]
  | _ => trivial

/-- **Permanence.** In every run, with disconnections, expiry and new handles at
any point: each registered path has something that will arm its watch in every
state just when its chain is kept at every step. -/
theorem permanent_iff {nodes : Tree} {acts : List Act} (hrun : Lts.run step (St.initial nodes) acts = some s) :
    Lts.Throughout step (Permanent k p) (St.initial nodes) acts ↔
      Lts.Along step (ChainKept k p) (St.initial nodes) acts :=
  Lts.throughout_iff_along (I := fun s => DatasInv s ∧ Permanent k p s)
    (fun _ _ _ hi hg h => ⟨datasInv_step hi.1 h, permanent_step hi.1 hi.2 hg h⟩) (fun _ hi => hi.2)
    (fun _ _ _ _ hg h => not_permanent_of_broken hg h) ⟨datasInv_initial nodes, nofun⟩ hrun

end

/-- The connection is lost between the event and the re-registration, which
returns at once and leaves nothing behind. -/
theorem not_permanent_disconnected : ¬ Lts.Throughout step (Permanent .node ["a"]) (St.initial oneNode)
    (registered ++ setNode ++ [.session 0 .connecting false, .deliver 0, .second, .second]) := by
  apply Lts.not_throughout
  decide

end ZkCppClient.Watch
